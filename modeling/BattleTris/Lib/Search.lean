import BattleTris.Lib.Loop

/-!
Rejection loops: a step either finds an answer or moves on.

`Finds` counts the rejected steps; the bounded search `tryPow` follows it.
-/

namespace Loop

open Function

variable {σ α : Type _} {f : σ → α ⊕ σ} {n k : Nat} {s : σ} {a : α}

/-- `n` steps move on, and the next one finds the answer. -/
inductive Finds (f : σ → α ⊕ σ) : Nat → σ → α → Prop where
  | here {s : σ} {a : α} : f s = .inl a → Finds f 0 s a
  | later {n : Nat} {s t : σ} {a : α} : f s = .inr t → Finds f n t a → Finds f (n + 1) s a

/-- A search that is long enough finds the answer; a shorter one ends on the way to it. -/
theorem tryPow_split (k : Nat) (finds : Finds f n s a) :
    (n < 2 ^ k → tryPow f k s = .inl a) ∧
      (2 ^ k ≤ n → ∃ t, tryPow f k s = .inr t ∧ Finds f (n - 2 ^ k) t a) := by
  induction k generalizing n s with
  | zero =>
    cases finds with
    | here found => exact ⟨fun _ => found, fun more => absurd more (by norm_num)⟩
    | later moved rest => exact ⟨fun less => absurd less (by simp), fun _ => ⟨_, moved, rest⟩⟩
  | succ k ih =>
    rw [pow_succ, mul_two]
    obtain ⟨early, late⟩ := ih finds
    rcases lt_or_ge n (2 ^ k) with less | more
    · refine ⟨fun _ => ?_, fun enough => absurd enough (by omega)⟩
      rw [tryPow, early less]
    · obtain ⟨t, moved, rest⟩ := late more
      obtain ⟨found, beyond⟩ := ih rest
      refine ⟨fun less => ?_, fun enough => ?_⟩
      · rw [tryPow, moved]
        exact found (by omega)
      · obtain ⟨u, there, end_⟩ := beyond (by omega)
        refine ⟨u, ?_, ?_⟩
        · rw [tryPow, moved]
          exact there
        · rwa [Nat.sub_sub] at end_

theorem tryPow_of_finds (finds : Finds f n s a) (enough : n < 2 ^ k) : tryPow f k s = .inl a :=
  (tryPow_split k finds).1 enough

/-- Where every rejection takes the state to its successor, an answer at some later state ends the
loop there or before. -/
theorem finds_of_iterate {next : σ → σ} (moves : ∀ s t, f s = .inr t → t = next s)
    (hit : f (next^[n] s) = .inl a) : ∃ m ≤ n, ∃ b, Finds f m s b := by
  induction n generalizing s with
  | zero => exact ⟨0, le_rfl, a, .here hit⟩
  | succ n ih =>
    cases round : f s with
    | inl b => exact ⟨0, Nat.zero_le _, b, .here round⟩
    | inr t =>
      obtain rfl := moves s t round
      obtain ⟨m, before, b, finds⟩ := ih hit
      exact ⟨m + 1, Nat.succ_le_succ before, b, .later round finds⟩

/-- What every answer has, the one that is found has. -/
theorem Finds.property {Q : α → Prop} (found : ∀ s a, f s = .inl a → Q a) (finds : Finds f n s a) :
    Q a := by
  induction finds with
  | here hit => exact found _ _ hit
  | later _ _ ih => exact ih

end Loop
