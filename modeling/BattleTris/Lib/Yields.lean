import BattleTris.Lib.Codec

/-!
What a reader can return, whatever words it is given.
-/

namespace Codec

variable {ω α β : Type _}

/-- From words of `P` on, `r` returns only values of `Q`, and leaves words of `P`. -/
def Yields (P : ω → Prop) (r : Reader ω α) (Q : α → Prop) : Prop :=
  ∀ c a c', (∀ w ∈ c.left, P w) → r c = some (a, c') → (∀ w ∈ c'.left, P w) ∧ Q a

namespace Yields

variable {P : ω → Prop} {Q : α → Prop} {R : β → Prop} {r s : Reader ω α}

theorem pure {a : α} (holds : Q a) : Yields P (Pure.pure a : Reader ω α) Q := by
  intro c b c' words read
  cases read
  exact ⟨words, holds⟩

theorem reject : Yields P (Reader.reject : Reader ω α) Q := by
  intro c a c' words read
  cases read

/-- Past the end the default word is read. -/
theorem next [Inhabited ω] (fallback : P default) : Yields P (Reader.next : Reader ω ω) P := by
  rintro ⟨left, ok⟩ w c' words read
  cases left with
  | nil =>
    cases read
    exact ⟨words, fallback⟩
  | cons v vs =>
    cases read
    exact ⟨fun w mem => words w (List.mem_cons_of_mem _ mem), words w List.mem_cons_self⟩

theorem bind {f : α → Reader ω β} (first : Yields P r Q)
    (second : ∀ a, Q a → Yields P (f a) R) : Yields P (r >>= f) R := by
  intro c b c'' words read
  change Reader.bind r f c = _ at read
  unfold Reader.bind at read
  cases step : r c with
  | none =>
    rw [step] at read
    cases read
  | some out =>
    obtain ⟨a, c'⟩ := out
    rw [step] at read
    obtain ⟨left, good⟩ := first c a c' words step
    exact second a good c' b c'' left read

theorem map {f : α → β} (first : Yields P r Q) (good : ∀ a, Q a → R (f a)) :
    Yields P (r >>= fun a => Pure.pure (f a)) R :=
  first.bind fun a holds => pure (good a holds)

theorem mono {Q' : α → Prop} (first : Yields P r Q) (weaker : ∀ a, Q a → Q' a) :
    Yields P r Q' := by
  intro c a c' words read
  obtain ⟨left, good⟩ := first c a c' words read
  exact ⟨left, weaker a good⟩

theorem ite {p : Prop} [Decidable p] (yes : p → Yields P r Q) (no : ¬p → Yields P s Q) :
    Yields P (if p then r else s) Q := by
  split
  · next holds => exact yes holds
  · next fails => exact no fails

theorem times (each : Yields P r Q) (n : Nat) :
    Yields P (r.times n) fun l => l.length = n ∧ ∀ a ∈ l, Q a := by
  induction n with
  | zero => exact pure ⟨rfl, fun a mem => by cases mem⟩
  | succ n ih =>
    apply each.bind
    intro a good
    apply ih.map
    rintro l ⟨length, all⟩
    exact ⟨congrArg (· + 1) length, List.forall_mem_cons.mpr ⟨good, all⟩⟩

/-- What an accepted stream yields. -/
theorem run (yields : Yields P r Q) {ws : List ω} {a : α} (words : ∀ w ∈ ws, P w)
    (accepted : r.run ws = some a) : Q a := by
  unfold Reader.run at accepted
  cases step : r ⟨ws, true⟩ with
  | none =>
    rw [step] at accepted
    cases accepted
  | some out =>
    obtain ⟨b, c⟩ := out
    rw [step] at accepted
    dsimp only at accepted
    split at accepted
    · cases accepted
      exact (yields _ _ c words step).2
    · cases accepted

end Yields

end Codec
