import Mathlib

/-!
Recordings of a device that a host drives with inputs and a clock.

The host stamps every input with the ticks before it (`framesFrom`).  `replay` feeds the
inputs of each tick to a fresh device, ticks it and reads it; `Device.replay_live` says that
it follows the live device, up to a relation that inputs and ticks keep and that no read
disturbs.
-/

namespace Recording

variable {σ ι : Type _}

/-- What a host does with its device. -/
inductive Act (ι : Type _) where
  | input (i : ι)
  | tick
  | read

namespace Act

def isTick : Act ι → Bool
  | .tick => true
  | _ => false

end Act

/-- The ticks among the acts. -/
def ticks (acts : List (Act ι)) : Nat := acts.countP Act.isTick

/-- The acts up to the `n`-th tick, with it. -/
def upTo : Nat → List (Act ι) → List (Act ι)
  | 0, _ => []
  | _ + 1, [] => []
  | n + 1, .tick :: acts => .tick :: upTo n acts
  | n + 1, a :: acts => a :: upTo (n + 1) acts

/-- The inputs among the acts, stamped by a clock that stands at `n`. -/
def framesFrom (n : Nat) : List (Act ι) → List (Nat × ι)
  | [] => []
  | .input i :: acts => (n, i) :: framesFrom n acts
  | .tick :: acts => framesFrom (n + 1) acts
  | .read :: acts => framesFrom n acts

/-- The same frames by a clock that stops at `limit`. -/
def capped (limit : Nat) (frames : List (Nat × ι)) : List (Nat × ι) :=
  frames.map fun f => (min f.1 limit, f.2)

/-- The inputs stamped with `n`. -/
def block (frames : List (Nat × ι)) (n : Nat) : List ι :=
  (frames.filter fun f => f.1 = n).map Prod.snd

/-! ## Stamps -/

@[simp] theorem ticks_nil : ticks ([] : List (Act ι)) = 0 := rfl

@[simp] theorem ticks_input (i : ι) (acts : List (Act ι)) :
    ticks (.input i :: acts) = ticks acts := by
  simp [ticks, Act.isTick]

@[simp] theorem ticks_tick (acts : List (Act ι)) : ticks (.tick :: acts) = ticks acts + 1 :=
  List.countP_cons_of_pos rfl

@[simp] theorem ticks_read (acts : List (Act ι)) : ticks (.read :: acts) = ticks acts := by
  simp [ticks, Act.isTick]

theorem ticks_append (acts acts' : List (Act ι)) :
    ticks (acts ++ acts') = ticks acts + ticks acts' :=
  List.countP_append

theorem framesFrom_append (n : Nat) (acts acts' : List (Act ι)) :
    framesFrom n (acts ++ acts') = framesFrom n acts ++ framesFrom (n + ticks acts) acts' := by
  induction acts generalizing n with
  | nil => rfl
  | cons a acts ih =>
    cases a with
    | input i => simp [framesFrom, ih]
    | tick => simp [framesFrom, ih, Nat.add_assoc, Nat.add_comm 1]
    | read => simp [framesFrom, ih]

theorem framesFrom_stamp {n : Nat} {acts : List (Act ι)} {f : Nat × ι}
    (mem : f ∈ framesFrom n acts) : n ≤ f.1 ∧ f.1 ≤ n + ticks acts := by
  induction acts generalizing n with
  | nil => cases mem
  | cons a acts ih =>
    cases a with
    | input i =>
      rw [ticks_input]
      rcases List.mem_cons.mp mem with rfl | mem
      · exact ⟨le_rfl, Nat.le_add_right _ _⟩
      · exact ih mem
    | tick =>
      rw [ticks_tick]
      have later := ih mem
      omega
    | read =>
      rw [ticks_read]
      exact ih mem

/-- The stamps are in order. -/
theorem framesFrom_sorted (n : Nat) (acts : List (Act ι)) :
    (framesFrom n acts).Pairwise fun f g => f.1 ≤ g.1 := by
  induction acts generalizing n with
  | nil => exact .nil
  | cons a acts ih =>
    cases a with
    | input i =>
      refine List.Pairwise.cons (fun g mem => ?_) (ih n)
      exact (framesFrom_stamp mem).1
    | tick => exact ih (n + 1)
    | read => exact ih n

theorem capped_sorted (limit : Nat) {frames : List (Nat × ι)}
    (sorted : frames.Pairwise fun f g => f.1 ≤ g.1) :
    (capped limit frames).Pairwise fun f g => f.1 ≤ g.1 :=
  sorted.map _ fun _ _ le => min_le_min_right limit le

/-- Before the clock stops the blocks are the same. -/
theorem block_capped {limit n : Nat} (running : n < limit) (frames : List (Nat × ι)) :
    block (capped limit frames) n = block frames n := by
  unfold block capped
  rw [List.filter_map, List.map_map]
  have stamp (f : Nat × ι) : decide (min f.1 limit = n) = decide (f.1 = n) := by
    rw [decide_eq_decide]
    omega
  exact congrArg (List.map Prod.snd) (List.filter_congr fun f _ => stamp f)

/-- Frames in order split into those before `n`, those at `n`, and those after. -/
theorem sorted_split {frames : List (Nat × ι)} (sorted : frames.Pairwise fun f g => f.1 ≤ g.1)
    (n : Nat) : frames = frames.filter (fun f => f.1 < n) ++ (frames.filter (fun f => f.1 = n) ++
      frames.filter (fun f => n < f.1)) := by
  induction sorted with
  | nil => rfl
  | @cons f frames first _ ih =>
    rcases Nat.lt_trichotomy f.1 n with before | now | after
    · have apart : f.1 ≠ n := Nat.ne_of_lt before
      have early : ¬n < f.1 := Nat.lt_asymm before
      simpa [before, apart, early] using ih
    · have none : frames.filter (fun g => g.1 < n) = [] := by
        rw [List.filter_eq_nil_iff]
        intro g mem
        have later := first g mem
        simp only [decide_eq_true_eq]
        omega
      rw [none, List.nil_append] at ih
      simpa [now, none] using ih
    · have none : frames.filter (fun g => g.1 < n) = [] := by
        rw [List.filter_eq_nil_iff]
        intro g mem
        have later := first g mem
        simp only [decide_eq_true_eq]
        omega
      have none' : frames.filter (fun g => g.1 = n) = [] := by
        rw [List.filter_eq_nil_iff]
        intro g mem
        have later := first g mem
        simp only [decide_eq_true_eq]
        omega
      have early : ¬f.1 < n := Nat.lt_asymm after
      have apart : f.1 ≠ n := Nat.ne_of_gt after
      rw [none, none', List.nil_append, List.nil_append] at ih
      simpa [early, apart, after, none, none'] using ih

/-- The frames of one more tick. -/
theorem before_succ (frames : List (Nat × ι)) (n : Nat) :
    (frames.filter fun f => f.1 < n + 1).length =
      (frames.filter fun f => f.1 < n).length + (block frames n).length := by
  unfold block
  rw [List.length_map, ← List.countP_eq_length_filter, ← List.countP_eq_length_filter,
    ← List.countP_eq_length_filter]
  induction frames with
  | nil => rfl
  | cons f frames ih =>
    simp only [List.countP_cons, decide_eq_true_eq]
    split_ifs <;> omega

/-- Behind the frames before `n` stand those of `n`, then later ones. -/
theorem sorted_ahead {frames : List (Nat × ι)} (sorted : frames.Pairwise fun f g => f.1 ≤ g.1)
    (n i : Nat) : frames[(frames.filter fun f => f.1 < n).length + i]? =
      (frames.filter (fun f => f.1 = n) ++ frames.filter fun f => n < f.1)[i]? := by
  have split := sorted_split sorted n
  generalize frames.filter (fun f => f.1 < n) = early at split ⊢
  generalize frames.filter (fun f => f.1 = n) ++ frames.filter (fun f => n < f.1) = rest at split ⊢
  rw [split, List.getElem?_append_right (Nat.le_add_right _ i), Nat.add_sub_cancel_left]

/-! ## Cuts -/

@[simp] theorem upTo_zero (acts : List (Act ι)) : upTo 0 acts = [] := by
  cases acts <;> rfl

/-- The acts behind the `n`-th tick start with what comes before the next one. -/
theorem upTo_succ {n : Nat} {acts : List (Act ι)} (more : n < ticks acts) :
    ∃ between rest, acts = upTo n acts ++ (between ++ .tick :: rest) ∧ ticks between = 0 ∧
      upTo (n + 1) acts = upTo n acts ++ (between ++ [.tick]) := by
  induction acts generalizing n with
  | nil => cases more
  | cons a acts ih =>
    cases a with
    | tick =>
      rw [ticks_tick] at more
      cases n with
      | zero => exact ⟨[], acts, by simp, rfl, by simp [upTo]⟩
      | succ n =>
        obtain ⟨between, rest, split, quiet, next⟩ := ih (Nat.lt_of_succ_lt_succ more)
        exact ⟨between, rest, congrArg (Act.tick :: ·) split, quiet,
          congrArg (Act.tick :: ·) next⟩
    | input i =>
      rw [ticks_input] at more
      obtain ⟨between, rest, split, quiet, next⟩ := ih more
      cases n with
      | zero =>
        rw [upTo_zero, List.nil_append] at split next
        refine ⟨.input i :: between, rest, ?_, ?_, ?_⟩
        · rw [upTo_zero]
          exact congrArg (Act.input i :: ·) split
        · rw [ticks_input, quiet]
        · rw [upTo_zero]
          exact congrArg (Act.input i :: ·) next
      | succ n =>
        exact ⟨between, rest, congrArg (Act.input i :: ·) split, quiet,
          congrArg (Act.input i :: ·) next⟩
    | read =>
      rw [ticks_read] at more
      obtain ⟨between, rest, split, quiet, next⟩ := ih more
      cases n with
      | zero =>
        rw [upTo_zero, List.nil_append] at split next
        refine ⟨.read :: between, rest, ?_, ?_, ?_⟩
        · rw [upTo_zero]
          exact congrArg (Act.read :: ·) split
        · rw [ticks_read, quiet]
        · rw [upTo_zero]
          exact congrArg (Act.read :: ·) next
      | succ n =>
        exact ⟨between, rest, congrArg (Act.read :: ·) split, quiet,
          congrArg (Act.read :: ·) next⟩

theorem ticks_upTo {n : Nat} {acts : List (Act ι)} (le : n ≤ ticks acts) :
    ticks (upTo n acts) = n := by
  induction n with
  | zero => rw [upTo_zero, ticks_nil]
  | succ n ih =>
    obtain ⟨between, rest, -, quiet, next⟩ := upTo_succ le
    rw [next, ticks_append, ih (Nat.le_of_succ_le le), ticks_append, quiet]
    rfl

/-- Every input up to the `n`-th tick comes before that tick. -/
theorem framesFrom_upTo {k n : Nat} {acts : List (Act ι)} {f : Nat × ι}
    (mem : f ∈ framesFrom k (upTo n acts)) : f.1 < k + n := by
  induction acts generalizing k n with
  | nil => cases n <;> cases mem
  | cons a acts ih =>
    cases n with
    | zero => cases mem
    | succ n =>
      cases a with
      | tick =>
        have later := ih (k := k + 1) mem
        omega
      | input i =>
        rcases List.mem_cons.mp mem with rfl | mem
        · change k < k + (n + 1)
          omega
        · exact ih mem
      | read => exact ih (n := n + 1) mem

/-- The block of `n` is what was recorded between the `n`-th tick and the next. -/
theorem block_framesFrom {n : Nat} {acts between rest : List (Act ι)} (le : n ≤ ticks acts)
    (split : acts = upTo n acts ++ (between ++ .tick :: rest)) (quiet : ticks between = 0) :
    block (framesFrom 0 acts) n = (framesFrom n between).map Prod.snd := by
  have early : (framesFrom 0 (upTo n acts)).filter (fun f => f.1 = n) = [] := by
    rw [List.filter_eq_nil_iff]
    intro f mem
    have before := framesFrom_upTo mem
    simp only [decide_eq_true_eq]
    omega
  have now : (framesFrom n between).filter (fun f => f.1 = n) = framesFrom n between := by
    rw [List.filter_eq_self]
    intro f mem
    have stamp := framesFrom_stamp mem
    simp only [decide_eq_true_eq]
    omega
  have late : (framesFrom n (.tick :: rest)).filter (fun f => f.1 = n) = [] := by
    rw [List.filter_eq_nil_iff]
    intro f mem
    have stamp := framesFrom_stamp (n := n + 1) mem
    simp only [decide_eq_true_eq]
    omega
  have parts : framesFrom 0 acts =
      framesFrom 0 (upTo n acts) ++ (framesFrom n between ++ framesFrom n (.tick :: rest)) := by
    conv_lhs => rw [split]
    rw [framesFrom_append, framesFrom_append, ticks_upTo le, quiet, Nat.zero_add, Nat.add_zero]
  unfold block
  rw [parts, List.filter_append, List.filter_append, early, now, late, List.append_nil,
    List.nil_append]

/-! ## Live and replayed -/

/-- A device, as its host sees it. -/
structure Device (σ ι : Type _) where
  apply : ι → σ → σ
  tick : σ → σ
  read : σ → σ

namespace Device

variable (d : Device σ ι)

def act (s : σ) : Act ι → σ
  | .input i => d.apply i s
  | .tick => d.tick s
  | .read => d.read s

def live (s : σ) (acts : List (Act ι)) : σ := acts.foldl d.act s

/-- One tick of the playback: its inputs, the tick, and a read. -/
def round (s : σ) (inputs : List ι) : σ :=
  d.read (d.tick (inputs.foldl (fun s i => d.apply i s) s))

/-- The playback of `n` ticks. -/
def replay (frames : List (Nat × ι)) (s : σ) : Nat → σ
  | 0 => s
  | n + 1 => d.round (replay frames s n) (block frames n)

/-- The playback of `n` ticks looks at the first `n` blocks. -/
theorem replay_congr {frames frames' : List (Nat × ι)} (s : σ) {n : Nat}
    (same : ∀ k < n, block frames k = block frames' k) :
    d.replay frames s n = d.replay frames' s n := by
  induction n with
  | zero => rfl
  | succ n ih =>
    have before := ih fun k less => same k (Nat.lt_succ_of_lt less)
    rw [replay, replay, before, same n (Nat.lt_succ_self n)]

/-- Inputs and ticks keep `R`, and no read disturbs it. -/
structure Respects (R : σ → σ → Prop) : Prop where
  refl : ∀ s, R s s
  apply : ∀ i s t, R s t → R (d.apply i s) (d.apply i t)
  tick : ∀ s t, R s t → R (d.tick s) (d.tick t)
  readLeft : ∀ s t, R s t → R (d.read s) t
  readRight : ∀ s t, R s t → R s (d.read t)

variable {d}

/-- Between two ticks only the inputs count. -/
theorem Respects.between {R : σ → σ → Prop} (respects : d.Respects R) {acts : List (Act ι)}
    (quiet : ticks acts = 0) (n : Nat) {s t : σ} (related : R s t) :
    R (d.live s acts) (((framesFrom n acts).map Prod.snd).foldl (fun s i => d.apply i s) t) := by
  induction acts generalizing s t with
  | nil => exact related
  | cons a acts ih =>
    cases a with
    | input i =>
      rw [ticks_input] at quiet
      exact ih quiet (respects.apply i s t related)
    | tick =>
      rw [ticks_tick] at quiet
      cases quiet
    | read =>
      rw [ticks_read] at quiet
      exact ih quiet (respects.readLeft s t related)

/-- The playback follows the live device, tick by tick. -/
theorem Respects.replay_live {R : σ → σ → Prop} (respects : d.Respects R) (s : σ)
    {acts : List (Act ι)} {n : Nat} (le : n ≤ ticks acts) :
    R (d.live s (upTo n acts)) (d.replay (framesFrom 0 acts) s n) := by
  induction n with
  | zero =>
    rw [upTo_zero]
    exact respects.refl s
  | succ n ih =>
    have before := ih (Nat.le_of_succ_le le)
    obtain ⟨between, rest, split, quiet, next⟩ := upTo_succ le
    have inputs := block_framesFrom (Nat.le_of_succ_le le) split quiet
    have applied := respects.between quiet n before
    have ticked := respects.tick _ _ applied
    have recorded := respects.readRight _ _ ticked
    rw [next, live, List.foldl_append, List.foldl_append, replay, inputs]
    exact recorded

end Device

end Recording
