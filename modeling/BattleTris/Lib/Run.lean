import Mathlib

/-!
Finite runs of a deterministic machine whose steps are guarded.

`Run ok act s es t` says that the events `es`, each one allowed where it happens,
lead from `s` to `t`.  An invariant is proved from its step alone, and so is a
simulation by another machine fed with the same events.
-/

variable {σ τ ε : Type _}

/-- The events `es` lead from `s` to `t`, and `ok` held before each of them. -/
inductive Run (ok : σ → ε → Prop) (act : σ → ε → σ) (s : σ) : List ε → σ → Prop where
  | nil : Run ok act s [] s
  | snoc {es : List ε} {t : σ} {e : ε} :
    Run ok act s es t → ok t e → Run ok act s (es ++ [e]) (act t e)

namespace Run

variable {ok : σ → ε → Prop} {act : σ → ε → σ} {s t : σ} {es : List ε}

/-- A run ends where the fold of its events ends. -/
theorem eq_foldl (run : Run ok act s es t) : t = es.foldl act s := by
  induction run with
  | nil => rfl
  | snoc run allowed ih => rw [List.foldl_append, ← ih]; rfl

/-- Events that are allowed everywhere make a run. -/
theorem of_foldl (allowed : ∀ t, ∀ e ∈ es, ok t e) : Run ok act s es (es.foldl act s) := by
  induction es using List.reverseRecOn with
  | nil => exact .nil
  | append_singleton es e ih =>
    rw [List.foldl_append]
    have before := ih fun t f mem => allowed t f (List.mem_append_left _ mem)
    exact before.snoc (allowed _ e (List.mem_append_right _ List.mem_cons_self))

theorem invariant {P : σ → Prop} (step : ∀ t e, P t → ok t e → P (act t e))
    (run : Run ok act s es t) (init : P s) : P t := by
  induction run with
  | nil => exact init
  | snoc run allowed ih => exact step _ _ ih allowed

/-- Runs compose. -/
theorem append {fs : List ε} {u : σ} (first : Run ok act s es t) (second : Run ok act t fs u) :
    Run ok act s (es ++ fs) u := by
  induction second with
  | nil =>
    rw [List.append_nil]
    exact first
  | snoc _ allowed ih =>
    rw [← List.append_assoc]
    exact ih.snoc allowed

/-- An invariant of the history and the state together. -/
theorem history_invariant {P : List ε → σ → Prop}
    (step : ∀ es t e, P es t → ok t e → P (es ++ [e]) (act t e))
    (run : Run ok act s es t) (init : P [] s) : P es t := by
  induction run with
  | nil => exact init
  | snoc run allowed ih => exact step _ _ _ ih allowed

/-- A weaker guard allows every run a stronger one allows. -/
theorem mono {ok' : σ → ε → Prop} (weaker : ∀ t e, ok t e → ok' t e)
    (run : Run ok act s es t) : Run ok' act s es t := by
  induction run with
  | nil => exact .nil
  | snoc run allowed ih => exact ih.snoc (weaker _ _ allowed)

/-- A run splits where its events do. -/
theorem split {before after : List ε} (run : Run ok act s (before ++ after) t) :
    Run ok act s before (before.foldl act s) ∧
      Run ok act (before.foldl act s) after t := by
  induction after using List.reverseRecOn generalizing t with
  | nil =>
    rw [List.append_nil] at run
    rw [← run.eq_foldl]
    exact ⟨run, .nil⟩
  | append_singleton after e ih =>
    rw [← List.append_assoc] at run
    generalize split : before ++ after ++ [e] = es at run
    cases run with
    | nil => exact absurd split (by simp)
    | snoc run allowed =>
      obtain ⟨rfl, last⟩ := List.append_inj' split rfl
      obtain ⟨first, second⟩ := ih run
      cases last
      exact ⟨first, second.snoc allowed⟩

/-- Every event of a run was allowed where it happened. -/
theorem allowed {before after : List ε} {e : ε} (run : Run ok act s (before ++ e :: after) t) :
    ok (before.foldl act s) e := by
  rw [← List.singleton_append, ← List.append_assoc] at run
  have first := run.split.1
  generalize (before ++ [e]).foldl act s = u at first
  generalize upTo : before ++ [e] = es at first
  cases first with
  | nil => exact absurd upTo (by simp)
  | snoc run allowed =>
    obtain ⟨rfl, last⟩ := List.append_inj' upTo rfl
    cases last
    rw [← run.eq_foldl]
    exact allowed

end Run
