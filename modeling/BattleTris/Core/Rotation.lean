import Mathlib.Data.Multiset.Basic
import Mathlib.Data.Fintype.Pi
import BattleTris.Core.Piece

/-!
# Rotation

A piece has one kind of cell, so its local grid is a `Pattern` of covered
squares painted with that cell.  The four rotation routines act on the pattern
alone, and a kind runs through one cycle of patterns: `form kind k` is the
pattern after `k` forward rotations.

* `Posed`: the piece of a kind in phase `k` of its cycle.
* `rotate_posed`: a rotation is refused, or it steps the phase.
* `rotate_exact`: what a rotation does in every state it can be met in.
-/

namespace BattleTris

namespace Piece

/-! ## Patterns -/

abbrev Pattern := Fin btPieceWidth → Fin btPieceWidth → Bool

namespace Pattern

def paint (m : Pattern) (c : Cell) : Fin btPieceWidth → Fin btPieceWidth → Option Cell :=
  fun i j => if m i j then some c else none

/-- `moveArms` on the covered squares. -/
def carry (m : Pattern) (arms : List Arm) : Pattern :=
  arms.foldl (fun m (src, dst) i j =>
    if (i, j) = src then false else if (i, j) = dst then m src.1 src.2 else m i j) m

/-- `turned` on the covered squares. -/
def quarter (m : Pattern) (rot : Nat) (reverse : Bool) : Pattern := fun i j =>
  if i < rot ∧ j < rot then
    if reverse then m j (Fin.ofNat _ (rot - 1 - i)) else m (Fin.ofNat _ (rot - 1 - j)) i
  else m i j

/-- How many squares are covered, column by column. -/
def count (m : Pattern) : Nat :=
  ((List.finRange btPieceWidth).map fun i => (List.finRange btPieceWidth).countP (m i)).sum

theorem paint_isSome (m : Pattern) (c : Cell) (i j : Fin btPieceWidth) :
    (m.paint c i j).isSome = m i j := by
  unfold paint
  cases m i j <;> rfl

theorem moveArms_paint (arms : List Arm) (m : Pattern) (c : Cell) :
    moveArms (m.paint c) arms = (m.carry arms).paint c := by
  unfold moveArms carry
  induction arms generalizing m with
  | nil => rfl
  | cons arm arms ih =>
    have first : (fun i j => if (i, j) = arm.1 then none
          else if (i, j) = arm.2 then m.paint c arm.1.1 arm.1.2 else m.paint c i j) =
        paint (fun i j => if (i, j) = arm.1 then false
          else if (i, j) = arm.2 then m arm.1.1 arm.1.2 else m i j) c := by
      funext i j
      simp only [paint]
      by_cases src : (i, j) = arm.1
      · simp only [if_pos src, Bool.false_eq_true, if_false]
      · by_cases dst : (i, j) = arm.2
        · simp only [if_neg src, if_pos dst]
        · simp only [if_neg src, if_neg dst]
    rw [List.foldl_cons, List.foldl_cons, ← ih]
    exact congrArg (fun cells => List.foldl _ cells arms) first

end Pattern

open Pattern

theorem turned_paint (p : Piece) (m : Pattern) (c : Cell) (painted : p.cells = m.paint c)
    (reverse : Bool) : p.turned reverse = (m.quarter p.rot reverse).paint c := by
  funext i j
  simp only [turned, quarter, painted, paint]
  by_cases inside : i < p.rot ∧ j < p.rot
  · simp only [if_pos inside]
    cases reverse <;> rfl
  · simp only [if_neg inside]

/-! ## The cycle of a kind -/

end Piece

namespace PieceKind

open Piece

/-- The kinds whose rotation is spelled out arm by arm. -/
def bespoke : PieceKind → Bool
  | .wall | .star | .weirdLong => true
  | _ => false

def rot (kind : PieceKind) : Nat := (shape 1 kind).rot

/-- How many patterns the kind runs through. -/
def period (kind : PieceKind) : Nat := (shape 1 kind).orientations.toNat

/-- The phase after a rotation. -/
def turn (kind : PieceKind) (k : Nat) (reverse : Bool) : Nat :=
  if reverse then (k + kind.period - 1) % kind.period else (k + 1) % kind.period

/-- The arms a bespoke rotation moves out of phase `k`. -/
def arms (kind : PieceKind) (k : Nat) (reverse : Bool) : List Arm :=
  match kind with
  | .wall => wallArms (kind.turn k reverse) reverse
  | .star => starArms k
  | .weirdLong => weirdArms (kind.turn k reverse) reverse
  | _ => []

/-- What a rotation does to the covered squares. -/
def advance (kind : PieceKind) (k : Nat) (reverse : Bool) (m : Pattern) : Pattern :=
  if kind.bespoke then m.carry (kind.arms k reverse) else m.quarter kind.rot reverse

/-- The pattern after `k` forward rotations of a fresh piece. -/
def form (kind : PieceKind) : Nat → Pattern
  | 0 => fun i j => decide ((i, j) ∈ (shape 1 kind).squares)
  | k + 1 => kind.advance k false (form kind k)

theorem mem_all (kind : PieceKind) : kind ∈ all := by
  cases kind <;> decide

/-! The tables of arms, checked square by square over the whole cycle. -/

theorem advance_form_all : ∀ kind ∈ all, kind.rot ≠ 0 → ∀ k < kind.period, ∀ reverse,
    kind.advance k reverse (kind.form k) = kind.form (kind.turn k reverse) := by
  decide +kernel

theorem arms_cover_all : ∀ kind ∈ all, ∀ k < kind.period, ∀ reverse,
    ((kind.arms k reverse).all fun arm =>
      kind.form (kind.turn k reverse) arm.2.1 arm.2.2) = true := by
  decide +kernel

theorem form_covered_all : ∀ kind ∈ all, kind.bespoke = true → ∀ k < kind.period, ∀ reverse,
    ∀ i j, kind.form (kind.turn k reverse) i j = true →
      kind.form k i j = true ∨ ∃ arm ∈ kind.arms k reverse, arm.2 = (i, j) := by
  decide +kernel

theorem form_inside_all : ∀ kind ∈ all, kind.rot ≠ 0 → ∀ k < kind.period, ∀ i j,
    kind.form k i j = true → i < kind.rot ∧ j < kind.rot := by
  decide +kernel

theorem count_form_all : ∀ kind ∈ all, kind.rot ≠ 0 → ∀ k < kind.period,
    (kind.form k).count = (kind.form 0).count := by
  decide +kernel

section Cycle

variable {kind : PieceKind} {k : Nat}

theorem period_pos (kind : PieceKind) : 0 < kind.period := by
  cases kind <;> decide

theorem turn_lt (reverse : Bool) : kind.turn k reverse < kind.period := by
  unfold turn
  split <;> exact Nat.mod_lt _ kind.period_pos

theorem turn_back (phase : k < kind.period) : kind.turn (kind.turn k false) true = k := by
  have positive := kind.period_pos
  simp only [turn, Bool.false_eq_true, if_false, if_true]
  rcases Nat.lt_or_ge (k + 1) kind.period with inner | last
  · rw [Nat.mod_eq_of_lt inner, Nat.add_right_comm, Nat.add_sub_cancel, Nat.add_mod_right,
      Nat.mod_eq_of_lt phase]
  · have wraps : k + 1 = kind.period := by omega
    rw [wraps, Nat.mod_self, Nat.zero_add, ← wraps, Nat.add_sub_cancel, Nat.mod_eq_of_lt]
    omega

/-- The forward turns add up. -/
theorem turn_forward (m : Nat) :
    kind.turn ((k + m) % kind.period) false = (k + (m + 1)) % kind.period := by
  simp only [turn, Bool.false_eq_true, if_false]
  rw [Nat.mod_add_mod, Nat.add_assoc]

end Cycle

end PieceKind

namespace Piece

open Pattern

variable {kind : PieceKind} {x y : Int} {pips : UInt8} {k : Nat}

/-- A kind's piece at `(x, y)` in phase `k` of its cycle.  A Star counts its
phase in `state` alone, the generic kinds in `orientation` alone. -/
def posed (kind : PieceKind) (x y : Int) (pips : UInt8) (k : Nat) : Piece :=
  { construct kind x y pips with
    cells := (kind.form k).paint (shape pips kind).cell
    orientation := if kind = .star then 0 else k
    state := if kind.bespoke then k else 0 }

theorem posed_zero (kind : PieceKind) (x y : Int) (pips : UInt8) :
    posed kind x y pips 0 = construct kind x y pips := by
  have squares : (shape pips kind).squares = (shape 1 kind).squares := by cases kind <;> rfl
  unfold posed construct paint
  simp only [squares]
  congr 1
  · exact ite_self _
  · exact ite_self _
  · funext i j
    change (if decide ((i, j) ∈ (shape 1 kind).squares) = true then _ else _) = _
    simp only [decide_eq_true_eq]

theorem posed_rot : (posed kind x y pips k).rot = kind.rot := by
  cases kind <;> rfl

theorem posed_orientations : (posed kind x y pips k).orientations = kind.period := by
  cases kind <;> rfl

theorem next_phase (phase : k < kind.period) (reverse : Bool) :
    (if reverse then ((k : Int) - 1 + kind.period).tmod kind.period
      else ((k : Int) + 1).tmod kind.period) = kind.turn k reverse := by
  unfold PieceKind.turn
  cases reverse
  · simp only [Bool.false_eq_true, if_false]
    exact (Int.ofNat_tmod (k + 1) kind.period).symm
  · have back : (k : Int) - 1 + kind.period = ((k + kind.period - 1 : Nat) : Int) := by omega
    simp only [if_true, back]
    exact (Int.ofNat_tmod (k + kind.period - 1) kind.period).symm

theorem posed_nextOrientation (phase : k < kind.period) (plain : kind ≠ .star) (reverse : Bool) :
    (posed kind x y pips k).nextOrientation reverse = kind.turn k reverse := by
  rw [← next_phase phase reverse, nextOrientation, posed_orientations]
  simp only [posed, if_neg plain]

theorem posed_nextState (phase : k < kind.period) (spelled : kind.bespoke = true)
    (reverse : Bool) : (posed kind x y pips k).nextState reverse = kind.turn k reverse := by
  rw [← next_phase phase reverse, nextState, posed_orientations]
  simp only [posed, if_pos spelled]

theorem advance_form (turns : kind.rot ≠ 0) (phase : k < kind.period) (reverse : Bool) :
    kind.advance k reverse (kind.form k) = kind.form (kind.turn k reverse) :=
  PieceKind.advance_form_all kind kind.mem_all turns k phase reverse

/-- Two phases of one kind differ in cells, orientation and state only. -/
theorem posed_change {j : Nat} {cells} {orientation state : Int}
    (covered : cells = (kind.form j).paint (shape pips kind).cell)
    (faces : orientation = if kind = .star then 0 else (j : Int))
    (stands : state = if kind.bespoke then (j : Int) else 0) :
    { posed kind x y pips k with
      cells := cells, orientation := orientation, state := state } = posed kind x y pips j := by
  rw [covered, faces, stands]
  rfl

/-- A bespoke rotation is refused when an arm's new square is taken. -/
theorem rotate_bespoke (spelled : kind.bespoke = true) (phase : k < kind.period) (b : Board)
    (reverse : Bool) :
    (posed kind x y pips k).rotate b reverse =
      if (posed kind x y pips k).armsBlocked b (kind.arms k reverse)
      then (false, posed kind x y pips k)
      else (true, posed kind x y pips (kind.turn k reverse)) := by
  have moved (turns : kind.rot ≠ 0) :
      moveArms (posed kind x y pips k).cells (kind.arms k reverse) =
        (kind.form (kind.turn k reverse)).paint (shape pips kind).cell := by
    rw [← advance_form turns phase reverse, PieceKind.advance, if_pos spelled]
    exact moveArms_paint _ _ _
  cases kind with
  | wall =>
    change rotateWall _ b reverse = _
    unfold rotateWall
    rw [posed_nextState phase spelled, posed_nextOrientation phase (by decide)]
    refine if_congr Iff.rfl rfl ?_
    exact congrArg (Prod.mk true) (posed_change (moved (by decide)) rfl rfl)
  | star =>
    change rotateStar _ b reverse = _
    unfold rotateStar
    refine if_congr Iff.rfl rfl ?_
    have state : ((k : Int) + 1).tmod 2 = PieceKind.turn .star k reverse := by
      have small : k < 2 := phase
      interval_cases k <;> cases reverse <;> decide
    exact congrArg (Prod.mk true) (posed_change (moved (by decide)) rfl state)
  | weirdLong =>
    change rotateWeirding _ b reverse = _
    unfold rotateWeirding
    rw [posed_nextState phase spelled, posed_nextOrientation phase (by decide)]
    refine if_congr Iff.rfl rfl ?_
    exact congrArg (Prod.mk true) (posed_change (moved (by decide)) rfl rfl)
  | _ => cases spelled

/-- A generic rotation is refused when a covered square of the turned sub-square
is taken. -/
theorem rotate_square (plain : kind.bespoke = false) (turns : kind.rot ≠ 0)
    (phase : k < kind.period) (b : Board) (reverse : Bool) :
    (posed kind x y pips k).rotate b reverse =
      if (List.finRange btPieceWidth).any (fun i => (List.finRange btPieceWidth).any fun j =>
        i < kind.rot && j < kind.rot && kind.form (kind.turn k reverse) i j
          && b.occupied (x + i) (y + j))
      then (false, posed kind x y pips k)
      else (true, posed kind x y pips (kind.turn k reverse)) := by
  have generic (p : Piece) (of : p.kind = kind) :
      p.rotate b reverse = p.rotateGeneric b reverse := by
    unfold rotate
    rw [of]
    cases kind with
    | wall | star | weirdLong => cases plain
    | _ => rfl
  have turned : (posed kind x y pips k).turned reverse =
      (kind.form (kind.turn k reverse)).paint (shape pips kind).cell := by
    rw [← advance_form turns phase reverse, PieceKind.advance, plain]
    rw [turned_paint _ (kind.form k) (shape pips kind).cell rfl, posed_rot]
    rfl
  have unstarred : kind ≠ .star := by
    rintro rfl
    cases plain
  rw [generic _ rfl, rotateGeneric, if_neg (by rwa [posed_rot]), turned,
    posed_nextOrientation phase unstarred]
  refine if_congr ?_ rfl (congrArg (Prod.mk true) (posed_change rfl ?_ ?_))
  · simp only [posed_rot, paint_isSome]
    rfl
  · rw [if_neg unstarred]
  · simp only [plain, posed, Bool.false_eq_true, if_false]

theorem rotate_still (fixed : kind.rot = 0) (b : Board) (reverse : Bool) :
    (posed kind x y pips k).rotate b reverse = (false, posed kind x y pips k) := by
  cases kind with
  | box | die | happy | fourByFour => rfl
  | _ => cases fixed

/-- Whatever the board, a rotation fails in place or steps the phase. -/
theorem rotate_or (x y : Int) (pips : UInt8) (phase : k < kind.period) (b : Board)
    (reverse : Bool) :
    (posed kind x y pips k).rotate b reverse = (false, posed kind x y pips k) ∨
      kind.rot ≠ 0 ∧
        (posed kind x y pips k).rotate b reverse =
          (true, posed kind x y pips (kind.turn k reverse)) := by
  by_cases fixed : kind.rot = 0
  · exact .inl (rotate_still fixed b reverse)
  · cases spelled : kind.bespoke with
    | true =>
      rw [rotate_bespoke spelled phase]
      split
      · exact .inl rfl
      · exact .inr ⟨fixed, rfl⟩
    | false =>
      rw [rotate_square spelled fixed phase]
      split
      · exact .inl rfl
      · exact .inr ⟨fixed, rfl⟩

/-! ## Free squares -/

theorem posed_free (b : Board) :
    (posed kind x y pips k).canMoveTo b x y = true ↔
      ∀ i j, kind.form k i j = true → b.occupied (x + i) (y + j) = false := by
  rw [canMoveTo_iff]
  simp only [posed, paint_isSome]

/-- The arms' new squares and the squares that stay make up the new footprint. -/
theorem armsBlocked_iff (spelled : kind.bespoke = true) (phase : k < kind.period) {b : Board}
    (free : (posed kind x y pips k).canMoveTo b x y = true) (reverse : Bool) :
    (posed kind x y pips k).armsBlocked b (kind.arms k reverse) = false ↔
      (posed kind x y pips (kind.turn k reverse)).canMoveTo b x y = true := by
  rw [posed_free] at free ⊢
  simp only [armsBlocked, List.any_eq_false, Bool.not_eq_true]
  constructor
  · intro clear i j covered
    rcases PieceKind.form_covered_all kind kind.mem_all spelled k phase reverse i j covered with
      kept | ⟨arm, listed, enters⟩
    · exact free i j kept
    · have vacant := clear arm listed
      rw [enters] at vacant
      exact vacant
  · intro fits arm listed
    have covers := PieceKind.arms_cover_all kind kind.mem_all k phase reverse
    rw [List.all_eq_true] at covers
    exact fits _ _ (covers arm listed)

theorem squareBlocked_iff (x y : Int) (pips : UInt8) (k : Nat) (turns : kind.rot ≠ 0)
    (reverse : Bool) (b : Board) :
    ((List.finRange btPieceWidth).any (fun i => (List.finRange btPieceWidth).any fun j =>
        i < kind.rot && j < kind.rot && kind.form (kind.turn k reverse) i j
          && b.occupied (x + i) (y + j))) = false ↔
      (posed kind x y pips (kind.turn k reverse)).canMoveTo b x y = true := by
  rw [posed_free]
  simp only [List.any_eq_false, List.mem_finRange, true_implies, Bool.and_eq_true,
    decide_eq_true_eq, not_and, Bool.not_eq_true]
  constructor
  · intro clear i j covered
    have inside := PieceKind.form_inside_all kind kind.mem_all turns _
      (PieceKind.turn_lt (k := k) reverse) i j covered
    exact clear i j ⟨⟨inside.1, inside.2⟩, covered⟩
  · intro fits i j covered
    exact fits i j covered.2

/-- A piece that lies free turns exactly when it fits turned. -/
theorem rotate_posed (turns : kind.rot ≠ 0) (phase : k < kind.period) {b : Board}
    (free : (posed kind x y pips k).canMoveTo b x y = true) (reverse : Bool) :
    (posed kind x y pips k).rotate b reverse =
      if (posed kind x y pips (kind.turn k reverse)).canMoveTo b x y
      then (true, posed kind x y pips (kind.turn k reverse))
      else (false, posed kind x y pips k) := by
  cases spelled : kind.bespoke with
  | true =>
    rw [rotate_bespoke spelled phase]
    have blocked := armsBlocked_iff spelled phase free reverse
    by_cases fits : (posed kind x y pips (kind.turn k reverse)).canMoveTo b x y = true
    · rw [if_pos fits, blocked.mpr fits]
      rfl
    · rw [if_neg fits, if_pos (by_contra fun clear =>
        fits (blocked.mp (Bool.eq_false_of_not_eq_true clear)))]
  | false =>
    rw [rotate_square spelled turns phase]
    have blocked := squareBlocked_iff x y pips k turns reverse b
    by_cases fits : (posed kind x y pips (kind.turn k reverse)).canMoveTo b x y = true
    · rw [if_pos fits, blocked.mpr fits]
      rfl
    · rw [if_neg fits, if_pos (by_contra fun clear =>
        fits (blocked.mp (Bool.eq_false_of_not_eq_true clear)))]

/-! ## Reachable pieces -/

/-- What a fresh piece becomes by rotations and moves. -/
inductive Spun : Piece → Prop
  | construct (kind : PieceKind) (x y : Int) (pips : UInt8) : Spun (construct kind x y pips)
  | rotate {p : Piece} (b : Board) (reverse : Bool) : Spun p → Spun (p.rotate b reverse).2
  | place {p : Piece} (x y : Int) : Spun p → Spun { p with x := x, y := y }

theorem Spun.posed {p : Piece} (spun : Spun p) :
    ∃ kind x y pips k, k < PieceKind.period kind ∧ p = Piece.posed kind x y pips k := by
  induction spun with
  | construct kind x y pips =>
    exact ⟨kind, x, y, pips, 0, kind.period_pos, (posed_zero kind x y pips).symm⟩
  | rotate b reverse _ ih =>
    obtain ⟨kind, x, y, pips, k, phase, rfl⟩ := ih
    rcases rotate_or x y pips phase b reverse with refused | ⟨_, turned⟩
    · rw [refused]
      exact ⟨kind, x, y, pips, k, phase, rfl⟩
    · rw [turned]
      exact ⟨kind, x, y, pips, kind.turn k reverse, PieceKind.turn_lt reverse, rfl⟩
  | place x y _ ih =>
    obtain ⟨kind, _, _, pips, k, phase, rfl⟩ := ih
    exact ⟨kind, x, y, pips, k, phase, rfl⟩

/-- `n` successful forward rotations, on any boards and with any moves between them. -/
inductive Turns : Nat → Piece → Piece → Prop
  | refl (p : Piece) : Turns 0 p p
  | place {n : Nat} {p q : Piece} (x y : Int) : Turns n p q → Turns n p { q with x := x, y := y }
  | rotate {n : Nat} {p q r : Piece} (b : Board) :
    Turns n p q → q.rotate b false = (true, r) → Turns (n + 1) p r

theorem Turns.posed {n : Nat} {q : Piece} (phase : k < kind.period)
    (turns : Turns n (posed kind x y pips k) q) :
    ∃ x y, q = Piece.posed kind x y pips ((k + n) % kind.period) := by
  generalize start : Piece.posed kind x y pips k = p at turns
  induction turns with
  | refl => exact ⟨x, y, by rw [← start, Nat.add_zero, Nat.mod_eq_of_lt phase]⟩
  | place x y _ ih =>
    obtain ⟨_, _, rfl⟩ := ih start
    exact ⟨x, y, rfl⟩
  | rotate b _ success ih =>
    obtain ⟨x, y, rfl⟩ := ih start
    rcases rotate_or x y pips (Nat.mod_lt _ kind.period_pos) b false with
      refused | ⟨_, turned⟩
    · rw [refused] at success
      cases success
    · rw [turned] at success
      cases success
      exact ⟨x, y, by rw [PieceKind.turn_forward]⟩

/-! ## What a rotation does -/

/-- The cells a rotation writes when it succeeds. -/
def turnedOver (p : Piece) (reverse : Bool) :
    Fin btPieceWidth → Fin btPieceWidth → Option Cell :=
  match p.kind with
  | .wall => moveArms p.cells (wallArms (p.nextState reverse) reverse)
  | .star => moveArms p.cells (starArms p.state)
  | .weirdLong => moveArms p.cells (weirdArms (p.nextState reverse) reverse)
  | _ => p.turned reverse

/-- The multiset of a piece's cells. -/
def contents (p : Piece) : Multiset Cell :=
  ↑((List.finRange btPieceWidth).flatMap fun i =>
    (List.finRange btPieceWidth).filterMap (p.cells i))

theorem turnedOver_posed (turns : kind.rot ≠ 0) (phase : k < kind.period) (reverse : Bool) :
    (posed kind x y pips k).turnedOver reverse =
      (posed kind x y pips (kind.turn k reverse)).cells := by
  have forms := advance_form turns phase reverse
  unfold PieceKind.advance at forms
  change _ = (kind.form (kind.turn k reverse)).paint _
  rw [← forms]
  cases kind with
  | wall | weirdLong =>
    change moveArms _ _ = _
    rw [posed_nextState phase rfl]
    exact moveArms_paint _ _ _
  | star => exact moveArms_paint _ _ _
  | _ => exact turned_paint _ _ _ rfl reverse

theorem filterMap_paint (m : Pattern) (c : Cell) (i : Fin btPieceWidth)
    (l : List (Fin btPieceWidth)) :
    l.filterMap (m.paint c i) = List.replicate (l.countP (m i)) c := by
  induction l with
  | nil => rfl
  | cons j l ih =>
    cases covered : m i j with
    | true =>
      have cell : m.paint c i j = some c := by simp only [paint, covered, if_true]
      rw [List.filterMap_cons_some cell, ih, List.countP_cons_of_pos covered]
      rfl
    | false =>
      rw [List.filterMap_cons_none (by simp [paint, covered]), ih,
        List.countP_cons_of_neg (by simp [covered])]

theorem contents_posed :
    (posed kind x y pips k).contents =
      Multiset.replicate (kind.form k).count (shape pips kind).cell := by
  have columns (l : List (Fin btPieceWidth)) :
      (l.flatMap fun i => (List.finRange btPieceWidth).filterMap
          ((kind.form k).paint (shape pips kind).cell i)) =
        List.replicate (l.map fun i => (List.finRange btPieceWidth).countP (kind.form k i)).sum
          (shape pips kind).cell := by
    induction l with
    | nil => rfl
    | cons i l ih =>
      rw [List.flatMap_cons, ih, filterMap_paint, List.map_cons, List.sum_cons,
        List.replicate_add]
  exact congrArg _ (columns _)

theorem contents_turn (turns : kind.rot ≠ 0) (phase : k < kind.period) (reverse : Bool) :
    (posed kind x y pips (kind.turn k reverse)).contents = (posed kind x y pips k).contents := by
  rw [contents_posed, contents_posed,
    PieceKind.count_form_all kind kind.mem_all turns _ (PieceKind.turn_lt reverse),
    PieceKind.count_form_all kind kind.mem_all turns k phase]

/-- A free piece in a state reached by rotations turns exactly when its kind
can and its turned squares are free, keeps its cells, turns back, and is itself
again after one full cycle. -/
theorem rotate_exact {p : Piece} (spun : Spun p) {b : Board}
    (free : p.canMoveTo b p.x p.y = true) :
    (∀ reverse,
      ((p.rotate b reverse).1 = true ↔
        p.rot ≠ 0 ∧ { p with cells := p.turnedOver reverse }.canMoveTo b p.x p.y = true) ∧
      ((p.rotate b reverse).1 = false → (p.rotate b reverse).2 = p) ∧
      ((p.rotate b reverse).1 = true →
        (p.rotate b reverse).2.cells = p.turnedOver reverse ∧
          (p.rotate b reverse).2.contents = p.contents)) ∧
    (∀ q, p.rotate b false = (true, q) → q.rotate b true = (true, p)) ∧
    ∀ q, Turns p.orientations.toNat p q → q.cells = p.cells := by
  obtain ⟨kind, x, y, pips, k, phase, rfl⟩ := spun.posed
  change (posed kind x y pips k).canMoveTo b x y = true at free
  refine ⟨fun reverse => ?_, ?_, ?_⟩
  · have movable : (posed kind x y pips k).rot ≠ 0 ↔ kind.rot ≠ 0 := by rw [posed_rot]
    rw [movable]
    by_cases fixed : kind.rot = 0
    · rw [rotate_still fixed]
      simp [fixed]
    · have footprint : ({ posed kind x y pips k with
            cells := (posed kind x y pips k).turnedOver reverse } : Piece).canMoveTo b x y =
          (posed kind x y pips (kind.turn k reverse)).canMoveTo b x y := by
        rw [turnedOver_posed fixed phase]
        rfl
      change (_ ↔ _ ∧ Piece.canMoveTo _ b x y = true) ∧ _
      rw [footprint, rotate_posed fixed phase free]
      by_cases fits : (posed kind x y pips (kind.turn k reverse)).canMoveTo b x y = true
      · rw [if_pos fits, turnedOver_posed fixed phase, contents_turn fixed phase]
        simp [fixed, fits]
      · rw [if_neg fits]
        simp [fits]
  · intro q success
    rcases rotate_or x y pips phase b false with
      refused | ⟨movable, turned⟩
    · rw [refused] at success
      cases success
    · have fits := rotate_posed movable phase free false
      rw [turned] at success fits
      cases success
      have lies : (posed kind x y pips (kind.turn k false)).canMoveTo b x y = true := by
        by_contra blocked
        rw [if_neg blocked] at fits
        cases fits
      rw [rotate_posed movable (PieceKind.turn_lt false) lies true, PieceKind.turn_back phase,
        if_pos free]
  · intro q turns
    rw [posed_orientations, Int.toNat_natCast] at turns
    obtain ⟨x', y', rfl⟩ := turns.posed phase
    rw [Nat.add_mod_right, Nat.mod_eq_of_lt phase]
    rfl

theorem rotate_exact_wall :
    ((construct .wall 3 4 1).rotate (.standard false) false).1 = true ∧
      ((construct .wall 3 4 1).rotate (.standard false) false).2.rotate (.standard false) true =
        (true, construct .wall 3 4 1) := by
  have free : (construct .wall 3 4 1).canMoveTo (.standard false) 3 4 = true := by
    decide +kernel
  have turns : ((construct .wall 3 4 1).rotate (.standard false) false).1 = true := by
    decide +kernel
  have exactly := rotate_exact (.construct .wall 3 4 1) free
  exact ⟨turns, exactly.2.1 _ (Prod.ext turns rfl)⟩

end Piece

end BattleTris
