import Mathlib

/-!
Bounded loops over an explicit state.

`forRange` and `forDown` are the two counted loops of an imperative source,
`whileN` is its `while` under a fuel bound.  Each comes with an invariant rule
and with a commutation rule: a map of the state that the body commutes with
commutes with the loop.
-/

namespace Loop

variable {σ τ : Type _}

/-- `for i in lo..hi`: `body lo`, `body (lo + 1)`, up to `body (hi - 1)`. -/
def forRange (lo hi : Int) (body : Int → σ → σ) (s : σ) : σ :=
  (List.range (hi - lo).toNat).foldl (fun s (k : Nat) => body (lo + k) s) s

/-- `body hi`, `body (hi - 1)`, down to `body (lo + 1)`. -/
def forDown (hi lo : Int) (body : Int → σ → σ) (s : σ) : σ :=
  (List.range (hi - lo).toNat).foldl (fun s (k : Nat) => body (hi - k) s) s

/-- `while cond { body }`, cut off after `fuel` rounds. -/
def whileN : Nat → (σ → Bool) → (σ → σ) → σ → σ
  | 0, _, _, s => s
  | fuel + 1, cond, body, s =>
    if cond s then whileN fuel cond body (body s) else s

/-- A search of up to `2 ^ k` steps: `step` either finds an answer or moves on. -/
def tryPow {α : Type _} (step : σ → α ⊕ σ) : Nat → σ → α ⊕ σ
  | 0, s => step s
  | k + 1, s =>
    match tryPow step k s with
    | .inl found => .inl found
    | .inr s => tryPow step k s

/-- `loop { body; if done { break } }`: the body says whether to go on; `none` once the fuel is
spent. -/
def loopN : Nat → (σ → Bool × σ) → σ → Option σ
  | 0, _, _ => none
  | fuel + 1, body, s =>
    match body s with
    | (true, t) => loopN fuel body t
    | (false, t) => some t

/-! ## Invariant rules -/

/-- An invariant of every step is an invariant of the fold. -/
theorem foldl_invariant {α : Type _} {P : σ → Prop} {f : σ → α → σ} {xs : List α}
    (step : ∀ x ∈ xs, ∀ s, P s → P (f s x)) {s : σ} (init : P s) :
    P (xs.foldl f s) := by
  induction xs generalizing s with
  | nil => exact init
  | cons x xs ih =>
    exact ih (fun y hy => step y (List.mem_cons_of_mem x hy))
      (step x List.mem_cons_self s init)

/-- A step may also use what part of the list lies behind it. -/
theorem foldl_prefix_invariant {α : Type _} {P : σ → Prop} {f : σ → α → σ} {xs : List α} {s : σ}
    (step : ∀ ys y, ys ++ [y] <+: xs → P (ys.foldl f s) → P (f (ys.foldl f s) y))
    (init : P s) : P (xs.foldl f s) := by
  have upTo (ys : List α) (start : ys <+: xs) : P (ys.foldl f s) := by
    induction ys using List.reverseRecOn with
    | nil => exact init
    | append_singleton ys y ih =>
      rw [List.foldl_append]
      exact step ys y start (ih ((List.prefix_append ys [y]).trans start))
  exact upTo xs List.prefix_rfl

/-- A property whose every step holds exactly when `Q` does holds all along exactly when `Q`
does. -/
theorem foldl_prefixes_iff {α : Type _} {P : σ → Prop} {Q : σ → α → Prop} {f : σ → α → σ}
    {xs : List α} {s : σ}
    (step : ∀ ys y, ys ++ [y] <+: xs → P (ys.foldl f s) →
      (P (f (ys.foldl f s) y) ↔ Q (ys.foldl f s) y)) (init : P s) :
    (∀ ys, ys <+: xs → P (ys.foldl f s)) ↔ ∀ ys y, ys ++ [y] <+: xs → Q (ys.foldl f s) y := by
  constructor
  · intro all ys y start
    have after := all (ys ++ [y]) start
    rw [List.foldl_append] at after
    exact (step ys y start (all ys ((List.prefix_append ys [y]).trans start))).mp after
  · intro all ys start
    induction ys using List.reverseRecOn with
    | nil => exact init
    | append_singleton ys y ih =>
      rw [List.foldl_append]
      have before := ih ((List.prefix_append ys [y]).trans start)
      exact (step ys y start before).mpr (all ys y start)

theorem forRange_invariant {m n : Int} {f : Int → σ → σ} {P : σ → Prop}
    (step : ∀ i s, m ≤ i → i < n → P s → P (f i s)) {s : σ} (init : P s) :
    P (forRange m n f s) := by
  refine foldl_invariant (fun k hk t ht => step _ t (by omega) ?_ ht) init
  have := List.mem_range.mp hk
  omega

theorem forDown_invariant {m n : Int} {f : Int → σ → σ} {P : σ → Prop}
    (step : ∀ i s, m < i → i ≤ n → P s → P (f i s)) {s : σ} (init : P s) :
    P (forDown n m f s) := by
  refine foldl_invariant (fun k hk t ht => step _ t ?_ (by omega) ht) init
  have := List.mem_range.mp hk
  omega

/-- The indexed rule: `P i` holds before round `i`. -/
theorem forRange_induct {lo hi : Int} {body : Int → σ → σ} {P : Int → σ → Prop}
    (le : lo ≤ hi) (step : ∀ i s, lo ≤ i → i < hi → P i s → P (i + 1) (body i s))
    {s : σ} (init : P lo s) : P hi (forRange lo hi body s) := by
  have upTo (n : Nat) (small : n ≤ (hi - lo).toNat) :
      P (lo + n) ((List.range n).foldl (fun s (k : Nat) => body (lo + k) s) s) := by
    induction n with
    | zero => simpa using init
    | succ n ih =>
      rw [List.range_succ, List.foldl_append, List.foldl_cons, List.foldl_nil]
      have next := step (lo + n) _ (by omega) (by omega) (ih (by omega))
      rwa [show lo + ((n + 1 : Nat) : Int) = lo + n + 1 by omega]
  have whole := upTo (hi - lo).toNat le_rfl
  rwa [show lo + (((hi - lo).toNat : Nat) : Int) = hi by omega] at whole

/-- The indexed rule downwards: `P i` holds after round `i + 1`. -/
theorem forDown_induct {lo hi : Int} {body : Int → σ → σ} {P : Int → σ → Prop}
    (le : lo ≤ hi) (step : ∀ i s, lo < i → i ≤ hi → P i s → P (i - 1) (body i s))
    {s : σ} (init : P hi s) : P lo (forDown hi lo body s) := by
  have upTo (n : Nat) (small : n ≤ (hi - lo).toNat) :
      P (hi - n) ((List.range n).foldl (fun s (k : Nat) => body (hi - k) s) s) := by
    induction n with
    | zero => simpa using init
    | succ n ih =>
      rw [List.range_succ, List.foldl_append, List.foldl_cons, List.foldl_nil]
      have next := step (hi - n) _ (by omega) (by omega) (ih (by omega))
      rwa [show hi - ((n + 1 : Nat) : Int) = hi - n - 1 by omega]
  have whole := upTo (hi - lo).toNat le_rfl
  rwa [show hi - (((hi - lo).toNat : Nat) : Int) = lo by omega] at whole

theorem whileN_invariant {cond : σ → Bool} {body : σ → σ} {P : σ → Prop}
    (step : ∀ s, cond s = true → P s → P (body s)) (fuel : Nat) {s : σ} (init : P s) :
    P (whileN fuel cond body s) := by
  induction fuel generalizing s with
  | zero => exact init
  | succ fuel ih =>
    unfold whileN
    split
    · next holds => exact ih (step s holds init)
    · exact init

/-- What every step keeps, and every answer has, a search keeps and has. -/
theorem tryPow_invariant {α : Type _} {f : σ → α ⊕ σ} {P : σ → Prop} {Q : α → Prop}
    (found : ∀ s a, P s → f s = .inl a → Q a)
    (moved : ∀ s s', P s → f s = .inr s' → P s') (k : Nat) {s : σ} (init : P s) :
    (∀ a, tryPow f k s = .inl a → Q a) ∧ (∀ s', tryPow f k s = .inr s' → P s') := by
  induction k generalizing s with
  | zero => exact ⟨fun a h => found s a init h, fun s' h => moved s s' init h⟩
  | succ k ih =>
    unfold tryPow
    cases first : tryPow f k s with
    | inl a =>
      refine ⟨fun b h => ?_, fun s' h => by cases h⟩
      cases h
      exact (ih init).1 a first
    | inr s' => exact ih ((ih init).2 s' first)

/-! ## Commutation rules -/

theorem foldl_map_comm {α : Type _} {f : σ → α → σ} {g : τ → α → τ} (φ : σ → τ)
    {xs : List α} (step : ∀ x ∈ xs, ∀ s, g (φ s) x = φ (f s x)) (s : σ) :
    xs.foldl g (φ s) = φ (xs.foldl f s) := by
  induction xs generalizing s with
  | nil => rfl
  | cons x xs ih =>
    rw [List.foldl_cons, List.foldl_cons, step x List.mem_cons_self s]
    exact ih (fun y hy => step y (List.mem_cons_of_mem x hy)) (f s x)

theorem forRange_comm {lo hi : Int} {f : Int → σ → σ} {g : Int → τ → τ} (φ : σ → τ)
    (step : ∀ i s, g i (φ s) = φ (f i s)) (s : σ) :
    forRange lo hi g (φ s) = φ (forRange lo hi f s) :=
  foldl_map_comm φ (fun _ _ t => step _ t) s

theorem whileN_comm {cond : σ → Bool} {cond' : τ → Bool} {f : σ → σ} {g : τ → τ}
    (φ : σ → τ) (test : ∀ s, cond' (φ s) = cond s) (step : ∀ s, g (φ s) = φ (f s))
    (fuel : Nat) (s : σ) :
    whileN fuel cond' g (φ s) = φ (whileN fuel cond f s) := by
  induction fuel generalizing s with
  | zero => rfl
  | succ fuel ih =>
    unfold whileN
    rw [test s]
    split
    · rw [step s, ih (f s)]
    · rfl

/-! ## Relational rules -/

/-- Two folds over one list stay related. -/
theorem foldl_rel {α : Type _} {R : σ → τ → Prop} {f : σ → α → σ} {g : τ → α → τ} {xs : List α}
    (step : ∀ x ∈ xs, ∀ s t, R s t → R (f s x) (g t x)) {s : σ} {t : τ} (init : R s t) :
    R (xs.foldl f s) (xs.foldl g t) := by
  induction xs generalizing s t with
  | nil => exact init
  | cons x xs ih =>
    exact ih (fun y hy => step y (List.mem_cons_of_mem x hy))
      (step x List.mem_cons_self s t init)

theorem whileN_rel {R : σ → τ → Prop} {c : σ → Bool} {d : τ → Bool} {f : σ → σ} {g : τ → τ}
    (test : ∀ s t, R s t → c s = d t) (step : ∀ s t, R s t → R (f s) (g t)) (fuel : Nat)
    {s : σ} {t : τ} (init : R s t) : R (whileN fuel c f s) (whileN fuel d g t) := by
  induction fuel generalizing s t with
  | zero => exact init
  | succ fuel ih =>
    unfold whileN
    rw [test s t init]
    split
    · exact ih (step s t init)
    · exact init

/-! ## Known rounds -/

/-- A loop whose first `k` rounds are known, and that stops there. -/
theorem whileN_chain {cond : σ → Bool} {body : σ → σ} (state : Nat → σ) {k fuel : Nat}
    (go : ∀ i < k, cond (state i) = true ∧ body (state i) = state (i + 1))
    (stop : cond (state k) = false) (enough : k ≤ fuel) :
    whileN fuel cond body (state 0) = state k := by
  induction k generalizing fuel state with
  | zero =>
    cases fuel with
    | zero => rfl
    | succ fuel =>
      unfold whileN
      rw [if_neg (by simp [stop])]
  | succ k ih =>
    cases fuel with
    | zero => cases enough
    | succ fuel =>
      obtain ⟨holds, next⟩ := go 0 (Nat.succ_pos k)
      unfold whileN
      rw [if_pos holds, next]
      exact ih (fun i => state (i + 1)) (fun i less => go (i + 1) (Nat.succ_lt_succ less)) stop
        (Nat.le_of_succ_le_succ enough)

/-- A body that stands still once the test fails makes the loop an iteration. -/
theorem whileN_eq_iterate {cond : σ → Bool} {body : σ → σ}
    (still : ∀ s, cond s = false → body s = s) (fuel : Nat) (s : σ) :
    whileN fuel cond body s = body^[fuel] s := by
  induction fuel generalizing s with
  | zero => rfl
  | succ fuel ih =>
    unfold whileN
    cases more : cond s with
    | true =>
      rw [if_pos rfl, ih]
      rfl
    | false =>
      rw [if_neg (by decide), Function.iterate_fixed (still s more)]

/-! ## Termination -/

/-- A loop whose measure drops in every round that goes on breaks out of its last round, whatever
fuel it has beyond the measure. -/
theorem loopN_exit {body : σ → Bool × σ} {P : σ → Prop} (μ : σ → Nat)
    (step : ∀ s, P s → P (body s).2 ∧ ((body s).1 = true → μ (body s).2 < μ s)) {s : σ}
    (init : P s) :
    ∃ last, P last ∧ P (body last).2 ∧ (body last).1 = false ∧
      ∀ fuel, μ s < fuel → loopN fuel body s = some (body last).2 := by
  induction measured : μ s using Nat.strong_induction_on generalizing s with
  | _ m ih =>
    obtain ⟨kept, drops⟩ := step s init
    rcases round : body s with ⟨_ | _, t⟩
    · refine ⟨s, init, kept, by rw [round], fun fuel enough => ?_⟩
      obtain ⟨fuel, rfl⟩ := Nat.exists_eq_add_of_lt enough
      rw [round, loopN, round]
    · rw [round] at kept drops
      have less := drops rfl
      rw [measured] at less
      obtain ⟨last, before, after, stops, found⟩ := ih (μ t) less kept rfl
      refine ⟨last, before, after, stops, fun fuel enough => ?_⟩
      cases fuel with
      | zero => cases enough
      | succ fuel =>
        rw [loopN, round]
        exact found fuel (lt_of_lt_of_le less (Nat.le_of_lt_succ enough))

end Loop
