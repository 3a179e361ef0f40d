import BattleTris.Lib.Grid
import BattleTris.Core.Weapons

/-!
The board: a grid of squares with the mechanics that read the active weapons.
-/

namespace BattleTris

/-- Lines cleared at once, the value of their squares, and the funds they pay. -/
structure LineClear where
  lines : Int
  value : Int
  funds : Int
  deriving DecidableEq

def LineClear.none : LineClear := ⟨0, 0, 0⟩

structure Board extends Grid Cell where
  active : ActiveFlags
  upside : Bool
  computer : Bool
  idiot : Bool
  reason : Int
  newFill : List Nat

namespace Board

open Loop

def new (width height : Int) (computer : Bool) : Board :=
  { Grid.empty width height with
    active := .new, upside := false, computer := computer
    idiot := false, reason := 0, newFill := [] }

def standard (computer : Bool) : Board := new btBoardWth btBoardHgt computer

def get (b : Board) (x y : Int) : Option Cell := b.toGrid.get x y

def set (b : Board) (x y : Int) (c : Option Cell) : Board :=
  { b with toGrid := b.toGrid.set x y c }

def isActive (b : Board) (t : WeaponToken) : Bool := b.active.isActive t

/-- Blocked: off the board or filled.  Under Fall Out the floor and the ceiling
are open between the two ledges. -/
def occupied (b : Board) (x y : Int) : Bool :=
  if ¬b.isActive .fallOut then
    if x < 0 ∨ x ≥ b.width ∨ y ≥ b.height ∨ y < 0 then true
    else (b.get x y).isSome
  else if x < 0 ∨ x ≥ b.width
      ∨ (y ≥ b.height ∧ (x < btFallOutLedge ∨ x ≥ b.width - btFallOutLedge))
      ∨ (y < 0 ∧ (x < btFallOutLedge ∨ x ≥ b.width - btFallOutLedge)) then true
  else if y < b.height ∧ y ≥ 0 ∧ (b.get x y).isSome then true
  else if y < 0 - (btPieceWidth : Int) ∨ y > b.height + btPieceWidth then true
  else false

/-- A square that lands off the board is discarded. -/
def fill (b : Board) (x y : Int) (c : Cell) : Board :=
  if b.inBounds x y then
    { b.set x y (some c) with newFill := b.newFill ++ [b.index x y] }
  else b

/-- Read and clear the idiot flag. -/
def flushIdiot (b : Board) : Option Int × Board :=
  (if b.idiot then some b.reason else none, { b with idiot := false })

def fillIndex (b : Board) (x y : Int) : Option Nat :=
  if b.inBounds x y ∧ (b.get x y).isSome then some (b.index x y) else none

/-- One square of `landed`: an empty square boxed in on its left, right and
logical top, one of the three just placed. -/
def landedAt (b : Board) (cx cy : Int) : Board :=
  let top := if b.isActive .upbyside then cy + 1 else cy - 1
  if ¬b.occupied cx cy ∧ b.occupied (cx - 1) cy ∧ b.occupied (cx + 1) cy
      ∧ b.occupied cx top
      ∧ b.newFill.any (fun nf => some nf = b.fillIndex (cx - 1) cy
        ∨ some nf = b.fillIndex (cx + 1) cy ∨ some nf = b.fillIndex cx top) then
    { b with idiot := true, reason := btBadMove }
  else b

def landed (b : Board) (x y : Int) : Board :=
  let b := forRange 0 btPieceWidth (fun i b =>
    forRange 0 btPieceWidth (fun j b => b.landedAt (x + i) (y + j)) b) b
  { b with newFill := [] }

/-! ## Line checks -/

/-- Empty the filled squares of a row over the columns `[x1, x2)`. -/
def clearRow (line x1 x2 : Int) (b : Board) : Board :=
  forRange x1 x2 (fun j b => if (b.get j line).isSome then b.set j line none else b) b

/-- Carry row `src` into row `i`, leaving `src` empty. -/
def shiftRow (i src x1 x2 : Int) (b : Board) : Board :=
  forRange x1 x2 (fun j b => (b.set j i (b.get j src)).set j src none) b

def emptyRow (y x1 x2 : Int) (b : Board) : Board :=
  forRange x1 x2 (fun j b => b.set j y none) b

/-- One row of `removeLine`.  Inside the bottle's neck the columns narrow, and
they stay narrow for the rest of the pass. -/
def removeRound (force : Bool) (line i src : Int) (narrow : Bool) :
    Board × Int × Int → Board × Int × Int
  | (b, x1, x2) =>
    let x1 := if narrow then btBottleX else x1
    let x2 := if narrow then b.width - btBottleX else x2
    (if force then (if i = line then clearRow line x1 x2 b else b) else shiftRow i src x1 x2 b,
      x1, x2)

/-- Drop the board into `line` over the columns `[x1, x2)`.  Under The Force only
the line itself goes. -/
def removeLine (b : Board) (line x1 x2 : Int) : Board :=
  let x2 := if x2 < 0 then b.width else x2
  let force := b.isActive .force
  let bottle := b.isActive .bottle
  let h := btBoardHgt
  if ¬b.isActive .upbyside ∨ b.computer then
    let (b, x1, x2) := forDown line 0 (fun i => removeRound force line i (i - 1)
      (bottle && i ≤ h / 2 + btBottleY && i ≥ h / 2 - btBottleY)) (b, x1, x2)
    if force then b else emptyRow 0 x1 x2 b
  else
    let (b, x1, x2) := forRange line (b.height - 1) (fun i => removeRound force line i (i + 1)
      (bottle && i ≤ h / 2 + btBottleY && i ≥ h / 2 - btBottleY - 1)) (b, x1, x2)
    if force then b else emptyRow (b.height - 1) x1 x2 b

/-- The filled squares of row `j` from its left end: where they stop, and the
sum of their values. -/
def rowRun (b : Board) (j : Int) : Nat → Int → Int → Int × Int
  | 0, i, nvalue => (i, nvalue)
  | n + 1, i, nvalue =>
    match b.get i j with
    | some c => rowRun b j n (i + 1) (nvalue + c.value)
    | none => (i, nvalue)

def rowOccupied (b : Board) (j : Int) : Bool :=
  (List.range b.width.toNat).any fun (i : Nat) => (b.get i j).isSome

/-- The near-death gauge: the highest occupied row below the first empty one. -/
def nearDeathRow (b : Board) : Nat → Int → Int → Int
  | 0, _, min => min
  | n + 1, j, min =>
    if 0 < j ∧ b.rowOccupied j then nearDeathRow b n (j - 1) (if j < min then j else min)
    else min

/-- A row that is no line turns its smileys into frowns. -/
def frownRow (b : Board) (j : Int) : Board :=
  forRange 0 b.width (fun i b =>
    match b.get i j with
    | some c =>
      if c.value = btHappyVal then
        { b.set i j (some c.landed) with idiot := true, reason := btMissedSmiley }
      else b
    | none => b) b

/-- The main pass, from row `j` up, with the value and the lines so far. -/
def checkRows : Nat → Int → Board → Int → Int → Board × Int × Int
  | 0, _, b, value, lines => (b, value, lines)
  | fuel + 1, j, b, value, lines =>
    if 0 ≤ j then
      let (i, nvalue) := b.rowRun j b.width.toNat 0 0
      if i = b.width then
        -- the board moved down into row `j`, so the row is examined again
        checkRows fuel (if b.isActive .force then j - 1 else j) (b.removeLine j 0 b.width)
          (value + nvalue) (lines + 1)
      else checkRows fuel (j - 1) (b.frownRow j) value lines
    else (b, value, lines)

/-- Every round moves up a row or removes a filled square. -/
def checkFuel (b : Board) : Nat := b.height.toNat + b.cells.length + 1

def checkLines (b : Board) : LineClear × Board :=
  let min := b.nearDeathRow b.height.toNat (b.height - 1) (b.height - 1)
  let (b, value, lines) := checkRows b.checkFuel (b.height - 1) b 0 0
  let b := if min < 8 then { b with idiot := true, reason := btNearDeath } else b
  if lines = 0 then (.none, b)
  else (⟨lines, value, value * lines⟩, { b with idiot := false })

/-! ## Weapon effects -/

/-- A row of garbage with a hole. -/
def garbageRow (hole y x1 x2 : Int) (b : Board) : Board :=
  forRange x1 x2 (fun i b =>
    if i ≠ hole then b.set i y (some (Cell.color btGreen)) else b) b

/-- One row of `insertLine`; the columns narrow inside the bottle's neck. -/
def insertRound (i src : Int) (narrow : Bool) : Board × Int × Int → Board × Int × Int
  | (b, _, _) =>
    let x1 := if narrow then btBottleX else 0
    let x2 := if narrow then b.width - btBottleX else b.width
    (shiftRow i src x1 x2 b, x1, x2)

/-- One garbage row at the gravity side, solid but for one drawn hole. -/
def insertLine (b : Board) (rng : Rng) : Board × Rng :=
  let (draw, rng) := rng.randBelow b.width.toNat
  let h := btBoardHgt
  let bottle := b.isActive .bottle
  if ¬b.isActive .upbyside ∨ b.computer then
    let (b, x1, x2) := forRange 0 (b.height - 1) (fun i =>
      insertRound i (i + 1) (bottle && i < h / 2 + btBottleY)) (b, 0, b.width)
    (garbageRow draw (b.height - 1) x1 x2 b, rng)
  else
    let (b, x1, x2) := forDown (b.height - 1) 0 (fun i =>
      insertRound i (i - 1) (bottle && i ≥ h / 2 - btBottleY)) (b, 0, b.width)
    (garbageRow draw 0 x1 x2 b, rng)

def setActive (b : Board) (t : WeaponToken) (on : Bool) : Board :=
  { b with active := b.active.set t on }

/-- Exchange two grids of one size; flags and idiot state stay. -/
def swapCells (b other : Board) : Board × Board :=
  ({ b with toGrid := other.toGrid }, { other with toGrid := b.toGrid })

def swap (b : Board) (x1 y1 x2 y2 : Int) : Board :=
  (b.set x1 y1 (b.get x2 y2)).set x2 y2 (b.get x1 y1)

/-- Mirror top and bottom. -/
def flipHoriz (b : Board) : Board :=
  forRange 0 (b.height / 2) (fun i b =>
    forRange 0 b.width (fun j b => b.swap j i j (b.height - 1 - i)) b) b

/-- Mirror left and right. -/
def flipVert (b : Board) : Board :=
  forRange 0 (b.width / 2) (fun i b =>
    forRange 0 b.height (fun j b => b.swap (b.width - 1 - i) j i j) b) b

/-- Rewrite every square of the board, row by row. -/
def mapSquares (f : Option Cell → Option Cell) (b : Board) : Board :=
  forRange 0 b.height (fun y d =>
    forRange 0 b.width (fun x d => d.set x y (f (d.get x y))) d) b

/-- Draw one square of the middle band; keep it if it is free. -/
def drawSquare (b : Board) (rng : Rng) : ((Int × Int) × Rng) ⊕ Rng :=
  let (i, rng) := rng.randBelow b.width.toNat
  let (j, rng) := rng.randBelow (b.height / 2).toNat
  let y : Int := j + b.height / 4
  if b.occupied i y then .inr rng else .inl ((i, y), rng)

/-- Draw until a square is free.  The draws have period `2 ^ 48`, which bounds
the search. -/
def drawFree (b : Board) (rng : Rng) : (Int × Int) × Rng :=
  match tryPow b.drawSquare 48 rng with
  | .inl found => found
  | .inr rng => ((0, 0), rng)

def bandHasEmpty (b : Board) : Bool :=
  (List.range (b.height / 2).toNat).any fun (j : Nat) =>
    (List.range b.width.toNat).any fun (i : Nat) => !b.occupied i (b.height / 4 + j)

/-- The squares in the order Missing scans them from its random origin. -/
def scanFrom (b : Board) (sx sy : Int) : List (Int × Int) :=
  (List.range b.height.toNat).flatMap fun (dy : Nat) =>
    (List.range b.width.toNat).map fun (dx : Nat) =>
      ((sx + dx) % b.width, (sy + dy) % b.height)

/-- Plant, or clear, the 48 squares of the neck walls. -/
def setWalls (c : Option Cell) (b : Board) : Board :=
  forRange 0 btBottleX (fun x b =>
    forRange (btBoardHgt / 2 - btBottleY) (btBoardHgt / 2 + btBottleY) (fun y b =>
      (b.set x y c).set (b.width - x - 1) y c) b) b

def setUpside (b : Board) (upside : Bool) : Board := { b with upside := upside }

/-- Piece It and Bug drop one square into the middle band, if it has room: of a
drawn colour, or invisible. -/
def plant (b : Board) (token : WeaponToken) (rng : Rng) : Board × Rng :=
  if b.bandHasEmpty then
    let ((i, j), rng) := b.drawFree rng
    if token = .bug then (b.set i j (some (Cell.color btInvisible)), rng)
    else
      let (c, rng) := rng.randBelow (btNeutral - 1).toNat
      (b.set i j (some (Cell.color (c + 1))), rng)
  else (b, rng)

/-- Missing takes the first removable square from a drawn origin on. -/
def takeOne (b : Board) (rng : Rng) : Board × Rng :=
  let (sx, rng) := rng.randBelow b.width.toNat
  let (sy, rng) := rng.randBelow b.height.toNat
  match (b.scanFrom sx sy).find? fun p => (b.get p.1 p.2).any Cell.isRemovable with
  | some (x, y) => (b.set x y none, rng)
  | none => (b, rng)

/-- Blind tosses a coin for one removable square. -/
def blindSquare (y x : Int) (s : Board × Rng) : Board × Rng :=
  if (s.1.get x y).any Cell.isRemovable then
    let (coin, rng) := s.2.randBelow 2
    (if coin = 0 then s.1.set x y none else s.1, rng)
  else s

def blindAll (b : Board) (rng : Rng) : Board × Rng :=
  forRange 0 b.height (fun y s => forRange 0 b.width (blindSquare y) s) (b, rng)

/-- Fall Out drops the middle of the board through the floor. -/
def dropMiddle (b : Board) : Board :=
  let line := if ¬b.isActive .upbyside ∨ b.computer then b.height - 1 else 0
  forRange 0 b.height (fun _ b => b.removeLine line btFallOutLedge (b.width - btFallOutLedge)) b

def gimpCell (c : Cell) : Cell := if c.isRemovable then Cell.gimp c.value else c

/-- The one-shot mutation of a weapon turning on.  Only Bottle reports a clear:
its walls can complete rows. -/
def applyWeapon (b : Board) (token : WeaponToken) (rng : Rng) : LineClear × Board × Rng :=
  match token with
  | .upbyside =>
    (.none, (if ¬b.upside ∧ ¬b.computer then b.flipHoriz else b).setUpside true, rng)
  | .pieceIt | .bug => (.none, b.plant token rng)
  | .missing => (.none, b.takeOne rng)
  | .blind => (.none, b.blindAll rng)
  | .gimp => (.none, b.mapSquares (Option.map gimpCell), rng)
  | .twilight => (.none, b.mapSquares (Option.map Cell.hide), rng)
  | .flipOut => (.none, b.flipVert, rng)
  | .fallOut => (.none, b.dropMiddle, rng)
  | .bottle =>
    let r := (b.setWalls (some Cell.struct)).checkLines
    (r.1, r.2, rng)
  | .riseUp => (.none, b.insertLine rng)
  | _ => (.none, b, rng)

/-- The mutation of a weapon turning off. -/
def revertWeapon (b : Board) (token : WeaponToken) : Board :=
  match token with
  | .upbyside =>
    let b := b.setUpside false
    if ¬b.computer then b.flipHoriz else b
  | .bottle => b.setWalls none
  | _ => b

end Board

end BattleTris
