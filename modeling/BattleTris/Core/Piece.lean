import BattleTris.Core.Board

/-!
Falling pieces and the piece stream.
-/

namespace BattleTris

open Loop

/-- The 18 piece kinds, in the order of their ids. -/
inductive PieceKind where
  | el | revEl | slideRight | slideLeft | long | plug | box | die | happy
  | dog | revDog | cap | wall | tower | star | weirdLong | fourByFour | longDong
  deriving DecidableEq, Repr

namespace PieceKind

def all : List PieceKind :=
  [el, revEl, slideRight, slideLeft, long, plug, box, die, happy,
    dog, revDog, cap, wall, tower, star, weirdLong, fourByFour, longDong]

/-- The id, `1` to `18`. -/
def id (k : PieceKind) : Int := k.ctorIdx + 1

def fromId (i : Int) : Option PieceKind :=
  if 1 ≤ i ∧ i ≤ 18 then all[(i - 1).toNat]? else none

theorem fromId_id (k : PieceKind) : fromId k.id = some k := by
  cases k <;> rfl

theorem id_bounds (k : PieceKind) : 1 ≤ k.id ∧ k.id ≤ 18 := by
  cases k <;> decide

end PieceKind

/-! ## Pieces -/

/-- A piece with its own 8 × 8 grid; entry `cells i j` sits at board square
`(x + i, y + j)`. -/
structure Piece where
  kind : PieceKind
  x : Int
  y : Int
  color : Int
  rot : Nat
  orientation : Int
  orientations : Int
  state : Int
  cells : Fin btPieceWidth → Fin btPieceWidth → Option Cell

namespace Piece

/-- What a fresh piece of one kind is made of: its squares, the cell in each of
them, and its colour, rotation extent and number of orientations. -/
structure Shape where
  squares : List (Fin btPieceWidth × Fin btPieceWidth)
  cell : Cell
  color : Int
  rot : Nat
  orientations : Int

/-- The pips matter to a die only. -/
def shape (dieValue : UInt8) : PieceKind → Shape
  | .el => ⟨[(1, 0), (1, 1), (1, 2), (2, 2)], .color 2, 2, 3, 4⟩
  | .revEl => ⟨[(2, 0), (2, 1), (2, 2), (1, 2)], .color 3, 3, 3, 4⟩
  | .slideLeft => ⟨[(0, 1), (1, 1), (1, 2), (2, 2)], .color 5, 5, 3, 4⟩
  | .slideRight => ⟨[(0, 2), (1, 2), (1, 1), (2, 1)], .color 4, 4, 3, 4⟩
  | .long => ⟨[(0, 1), (1, 1), (2, 1), (3, 1)], .color 6, 6, 4, 4⟩
  | .plug => ⟨[(0, 2), (1, 2), (1, 1), (2, 2)], .color 7, 7, 3, 4⟩
  | .box => ⟨[(1, 1), (1, 2), (2, 1), (2, 2)], .color 8, 8, 0, 4⟩
  | .die => ⟨[(1, 1)], .die dieValue, btIvory, 0, 4⟩
  | .happy => ⟨[(1, 1)], .happy, btIvory, 0, 4⟩
  | .dog => ⟨[(0, 0), (1, 1), (2, 1), (2, 2)], .color 2, 2, 3, 4⟩
  | .revDog => ⟨[(0, 1), (0, 2), (1, 1), (2, 2)], .color 3, 3, 3, 4⟩
  | .cap => ⟨[(0, 2), (1, 1), (2, 1), (3, 2)], .color 4, 4, 4, 4⟩
  | .wall => ⟨[(0, 1), (0, 2), (3, 1), (3, 2)], .color 5, 5, 4, 4⟩
  | .tower => ⟨[(2, 0), (1, 1), (0, 1), (2, 2)], .color 6, 6, 3, 4⟩
  | .star => ⟨[(1, 0), (0, 1), (1, 2), (2, 1)], .color 7, 7, 3, 2⟩
  | .weirdLong => ⟨[(1, 0), (1, 1), (2, 2), (2, 3)], .color 8, 8, 4, 6⟩
  | .fourByFour =>
    ⟨[(0, 0), (1, 0), (2, 0), (3, 0), (0, 3), (1, 3), (2, 3), (3, 3),
      (0, 1), (0, 2), (3, 1), (3, 2)], .color 8, 8, 0, 4⟩
  | .longDong =>
    ⟨[(0, 0), (1, 0), (2, 0), (3, 0), (4, 0), (5, 0), (6, 0), (7, 0)], .color 6, 6, 8, 4⟩

def construct (kind : PieceKind) (x y : Int) (dieValue : UInt8) : Piece :=
  let s := shape dieValue kind
  { kind, x, y
    color := s.color
    rot := s.rot
    orientation := 0
    orientations := s.orientations
    state := 0
    cells := fun i j => if (i, j) ∈ s.squares then some s.cell else none }

/-- Every filled local square lands on a free board square. -/
def canMoveTo (p : Piece) (b : Board) (x y : Int) : Bool :=
  (List.finRange btPieceWidth).all fun i => (List.finRange btPieceWidth).all fun j =>
    !((p.cells i j).isSome && b.occupied (x + i) (y + j))

theorem canMoveTo_iff {p : Piece} {b : Board} {x y : Int} :
    p.canMoveTo b x y = true ↔
      ∀ i j, (p.cells i j).isSome = true → b.occupied (x + i) (y + j) = false := by
  unfold canMoveTo
  constructor
  · intro room i j filled
    have column := List.all_eq_true.mp room i (List.mem_finRange i)
    have square := List.all_eq_true.mp column j (List.mem_finRange j)
    rw [filled, Bool.true_and, Bool.not_eq_true'] at square
    exact square
  · intro free
    apply List.all_eq_true.mpr
    intro i _
    apply List.all_eq_true.mpr
    intro j _
    by_cases filled : (p.cells i j).isSome = true
    · rw [free i j filled, Bool.and_false]
      rfl
    · rw [eq_false_of_ne_true filled]
      rfl

def moveTo (p : Piece) (b : Board) (x y : Int) : Bool × Piece :=
  if p.canMoveTo b x y then (true, { p with x := x, y := y }) else (false, p)

/-! ### Rotation -/

/-- The sub-square of side `rot`, turned by a quarter. -/
def turned (p : Piece) (reverse : Bool) (i j : Fin btPieceWidth) : Option Cell :=
  if i < p.rot ∧ j < p.rot then
    if reverse then p.cells j (Fin.ofNat _ (p.rot - 1 - i))
    else p.cells (Fin.ofNat _ (p.rot - 1 - j)) i
  else p.cells i j

def nextOrientation (p : Piece) (reverse : Bool) : Int :=
  if reverse then (p.orientation - 1 + p.orientations).tmod p.orientations
  else (p.orientation + 1).tmod p.orientations

def nextState (p : Piece) (reverse : Bool) : Int :=
  if reverse then (p.state - 1 + p.orientations).tmod p.orientations
  else (p.state + 1).tmod p.orientations

def rotateGeneric (p : Piece) (b : Board) (reverse : Bool) : Bool × Piece :=
  if p.rot = 0 then (false, p)
  else if (List.finRange btPieceWidth).any (fun i => (List.finRange btPieceWidth).any fun j =>
      i < p.rot && j < p.rot && (p.turned reverse i j).isSome
        && b.occupied (p.x + i) (p.y + j)) then (false, p)
  else (true, { p with
    cells := p.turned reverse, orientation := p.nextOrientation reverse })

/-- One arm of a bespoke rotation: the square a cell leaves and the one it
enters. -/
abbrev Arm := (Fin btPieceWidth × Fin btPieceWidth) × (Fin btPieceWidth × Fin btPieceWidth)

/-- The arms that move when a Wall enters a state. -/
def wallArms : Int → Bool → List Arm
  | 0, false => [((1, 0), (0, 2)), ((2, 3), (3, 1))]
  | 0, true => [((1, 3), (0, 1)), ((2, 0), (3, 2))]
  | 1, false => [((0, 1), (1, 3)), ((3, 2), (2, 0))]
  | 1, true => [((2, 3), (0, 2)), ((1, 0), (3, 1))]
  | 2, false => [((0, 2), (2, 3)), ((3, 1), (1, 0))]
  | 2, true => [((0, 1), (2, 0)), ((3, 2), (1, 3))]
  | 3, false => [((2, 0), (0, 1)), ((1, 3), (3, 2))]
  | 3, true => [((0, 2), (1, 0)), ((3, 1), (2, 3))]
  | _, _ => []

/-- The arms that move when a Star leaves its plus, and when it leaves its cross. -/
def starArms (state : Int) : List Arm :=
  if state = 0 then
    [((1, 0), (0, 0)), ((2, 1), (2, 0)), ((0, 1), (0, 2)), ((1, 2), (2, 2))]
  else
    [((0, 0), (1, 0)), ((2, 0), (0, 1)), ((0, 2), (1, 2)), ((2, 2), (2, 1))]

/-- The arms that move when a WeirdLong enters a state. -/
def weirdArms : Int → Bool → List Arm
  | 0, false => [((2, 0), (1, 0)), ((2, 1), (1, 1)), ((1, 2), (2, 2)), ((1, 3), (2, 3))]
  | 0, true => [((0, 0), (1, 0)), ((3, 3), (2, 3))]
  | 1, false => [((1, 0), (0, 0)), ((2, 3), (3, 3))]
  | 1, true => [((0, 1), (0, 0)), ((3, 2), (3, 3))]
  | 2, false => [((0, 0), (0, 1)), ((3, 3), (3, 2))]
  | 2, true => [((0, 2), (0, 1)), ((1, 2), (1, 1)), ((2, 1), (2, 2)), ((3, 1), (3, 2))]
  | 3, false => [((0, 1), (0, 2)), ((1, 1), (1, 2)), ((2, 2), (2, 1)), ((3, 2), (3, 1))]
  | 3, true => [((3, 0), (3, 1)), ((0, 3), (0, 2))]
  | 4, false => [((3, 1), (3, 0)), ((0, 2), (0, 3))]
  | 4, true => [((2, 0), (3, 0)), ((1, 3), (0, 3))]
  | 5, false => [((3, 0), (2, 0)), ((0, 3), (1, 3))]
  | 5, true => [((1, 0), (2, 0)), ((1, 1), (2, 1)), ((2, 2), (1, 2)), ((2, 3), (1, 3))]
  | _, _ => []

/-- Carry the cell of each arm over, emptying the square it leaves. -/
def moveArms (cells : Fin btPieceWidth → Fin btPieceWidth → Option Cell) (arms : List Arm) :
    Fin btPieceWidth → Fin btPieceWidth → Option Cell :=
  arms.foldl (fun cells (src, dst) i j =>
    if (i, j) = src then none else if (i, j) = dst then cells src.1 src.2 else cells i j) cells

/-- A bespoke rotation tests the squares its arms enter before it moves them. -/
def armsBlocked (p : Piece) (b : Board) (arms : List Arm) : Bool :=
  arms.any fun arm => b.occupied (p.x + arm.2.1) (p.y + arm.2.2)

def rotateWall (p : Piece) (b : Board) (reverse : Bool) : Bool × Piece :=
  let arms := wallArms (p.nextState reverse) reverse
  if p.armsBlocked b arms then (false, p)
  else (true, { p with
    cells := moveArms p.cells arms, state := p.nextState reverse
    orientation := p.nextOrientation reverse })

/-- A Star only has two states, and its rotation leaves `orientation` alone. -/
def rotateStar (p : Piece) (b : Board) (_reverse : Bool) : Bool × Piece :=
  let arms := starArms p.state
  if p.armsBlocked b arms then (false, p)
  else (true, { p with cells := moveArms p.cells arms, state := (p.state + 1).tmod 2 })

def rotateWeirding (p : Piece) (b : Board) (reverse : Bool) : Bool × Piece :=
  let arms := weirdArms (p.nextState reverse) reverse
  if p.armsBlocked b arms then (false, p)
  else (true, { p with
    cells := moveArms p.cells arms, state := p.nextState reverse
    orientation := p.nextOrientation reverse })

def rotate (p : Piece) (b : Board) (reverse : Bool) : Bool × Piece :=
  match p.kind with
  | .wall => p.rotateWall b reverse
  | .star => p.rotateStar b reverse
  | .weirdLong => p.rotateWeirding b reverse
  | _ => p.rotateGeneric b reverse

/-- Fill one local square of the piece into the board. -/
def landSquare (p : Piece) (b : Board) (i j : Fin btPieceWidth) : Board :=
  match p.cells i j with
  | some c => b.fill (p.x + i) (p.y + j) c
  | none => b

/-- Copy the piece into the board and run the board's landing bookkeeping. -/
def land (p : Piece) (b : Board) : Board :=
  let b := (List.finRange btPieceWidth).foldl (fun b i =>
    (List.finRange btPieceWidth).foldl (fun b j => p.landSquare b i j) b) b
  b.landed p.x p.y

end Piece

/-! ## The piece stream -/

def btDefaultKeepProb : Float := 0.21

def btExoticKeepProb : Float := 0.02

def btDieKeepProb : Float := 1.0

structure PieceManager where
  keepProb : Fin 19 → Float
  hapOn : Int
  broken : Bool
  oldPiece : Int

namespace PieceManager

/-- Overwrite the keep probabilities of the ids `lo` to `hi`. -/
def setKeep (pm : PieceManager) (lo hi : Nat) (v : Float) : PieceManager :=
  { pm with keepProb := fun i => if lo ≤ i.val ∧ i.val ≤ hi then v else pm.keepProb i }

/-- Standard pieces, the die, and the two exotic pieces. -/
def new : PieceManager :=
  let blank : PieceManager := ⟨fun _ => 0.0, 0, false, 0⟩
  (((blank.setKeep 1 7 btDefaultKeepProb).setKeep 8 8 btDieKeepProb).setKeep 9 9
    btExoticKeepProb).setKeep 18 18 btExoticKeepProb

/-- Roll an id, and keep it with its probability. -/
def roll (pm : PieceManager) (rng : Rng) : (Int × Rng) ⊕ Rng :=
  let (k, rng) := rng.randBelow btMaxPieces
  let (u, rng) := rng.drand48
  if u < pm.keepProb (Fin.ofNat _ (k + 1)) then .inl ((k : Int) + 1, rng) else .inr rng

/-- Rejection sampling.  The rolls have period `2 ^ 48`, which bounds the search. -/
def draw (pm : PieceManager) (rng : Rng) : Int × Rng :=
  match tryPow pm.roll 48 rng with
  | .inl kept => kept
  | .inr rng => (1, rng)

/-- The next id, with the manager after the choice. -/
def choose (pm : PieceManager) (rng : Rng) : Int × PieceManager × Rng :=
  if pm.hapOn = 0 then
    if pm.broken then
      let (gate, rng) := rng.lrand48
      if gate % btBrokenProb = 0 then
        let (i, rng) := pm.draw rng
        (i, pm, rng)
      else (if pm.oldPiece ≠ 0 then pm.oldPiece else 1, pm, rng)
    else
      let (i, rng) := pm.draw rng
      (i, pm, rng)
  else (9, { pm with hapOn := pm.hapOn - 1 }, rng)

/-- Select and build the next piece; the pips of a die are drawn last.  An id
outside the table (never produced by a live game) would stop the source. -/
def create (pm : PieceManager) (rng : Rng) (x y : Int) : Piece × PieceManager × Rng :=
  let (i, pm, rng) := pm.choose rng
  let pm := { pm with oldPiece := i }
  let kind := (PieceKind.fromId i).getD .el
  if kind = .die then
    let (pips, rng) := rng.randBelow 6
    (Piece.construct kind x y (UInt8.ofNat (pips + 1)), pm, rng)
  else (Piece.construct kind x y 1, pm, rng)

def weaponOn (pm : PieceManager) (w : WeaponToken) : PieceManager :=
  match w with
  | .fearedWeird => (pm.setKeep 1 7 0.0).setKeep 10 16 btDefaultKeepProb
  | .fourByFour => (pm.setKeep 7 7 0.0).setKeep 17 17 btDefaultKeepProb
  | .broken => { pm with broken := true }
  | .noDice => pm.setKeep 8 8 0.0
  | .soLong => pm.setKeep 5 5 0.0
  | .niceDay => { pm with hapOn := pm.hapOn + 1 }
  | _ => pm

def weaponOff (pm : PieceManager) (w : WeaponToken) : PieceManager :=
  match w with
  | .fearedWeird => (pm.setKeep 1 7 btDefaultKeepProb).setKeep 10 16 0.0
  | .fourByFour => (pm.setKeep 7 7 btDefaultKeepProb).setKeep 17 17 0.0
  | .noDice => pm.setKeep 8 8 btDieKeepProb
  | .soLong => pm.setKeep 5 5 btDefaultKeepProb
  | .broken => { pm with broken := false }
  | _ => pm

end PieceManager

end BattleTris
