import BattleTris.Core.Game

/-!
Where the computer puts a piece: a score for a board, and the landing of the piece
that leaves the board with the lowest one.
-/

namespace BattleTris

open Loop

/-! ## The weights -/

def openHolePenalty : Float := 7000.0

def closedHolePenalty : Float := 10000.0

def coveredHolePenalty : Float := 3000.0

def heightPenalty : Float := 30000.0

def lineBonus : Float := 5000.0

def variancePenalty : Float := 50.0

/-- What a row of depth leaves of a covered hole's weight. -/
def holeDecay : Float := 0.50

def midline : Int := 14

/-- The weights of variance, height, closed, open and covered holes, and lines. -/
structure Penalties where
  vp : Float
  hp : Float
  chp : Float
  ohp : Float
  cvhp : Float
  lb : Float

namespace Penalties

def default : Penalties where
  vp := variancePenalty
  hp := heightPenalty
  chp := closedHolePenalty
  ohp := openHolePenalty
  cvhp := coveredHolePenalty
  lb := lineBonus

/-- The weights under the weapons active on the computer's own board. -/
def forActiveWeapons (g : Game) : Penalties :=
  let p := default
  let p := if g.weaponActive .force then
    { p with vp := p.vp * 2.0, hp := p.hp * 4.0, lb := p.lb * 4.0 } else p
  let p := if g.weaponActive .fourByFour then { p with hp := p.hp * 2.0, vp := p.vp * 2.0 } else p
  let p := if g.weaponActive .bottle then
    { p with ohp := p.ohp / 10.0, chp := p.chp / 10.0, hp := p.hp * 2.0 } else p
  let p := if g.weaponActive .noDice then { p with vp := p.vp * 4.0 } else p
  if g.weaponActive .fallOut then { p with lb := p.lb * 2.0, hp := p.hp * 2.0 } else p

end Penalties

/-! ## The score of a board -/

namespace Board

/-- The columns of the board. -/
def columns (b : Board) : List Int := (List.range b.width.toNat).map Int.ofNat

/-- The highest blocked square of a column; the height if there is none. -/
def columnTop (b : Board) (x : Int) : Int :=
  (((List.range b.height.toNat).find? fun (y : Nat) => b.occupied x y).map Int.ofNat).getD b.height

/-- The highest blocked square of the board. -/
def boardTop (b : Board) : Int := b.columns.foldl (fun top x => min top (b.columnTop x)) b.height

/-- The squared steps between neighbouring columns, the last of them twice.  The first column is
compared with the second. -/
def roughness (b : Board) : Float :=
  let tops := b.columns.map b.columnTop
  let (temp, last, _) := tops.foldl (fun (s : Float × Float × Float) top =>
    let diff := (Float.ofInt top - s.2.2).abs
    (s.1 + diff * diff, diff * diff, Float.ofInt top)) (0.0, 0.0, Float.ofInt (tops.getD 1 0))
  temp + last

/-- Free squares lead from `x`, in steps of `step`, to the edge or under an open sky; `n` columns
are left before the edge. -/
def escapes (b : Board) (y edge step : Int) : Nat → Int → Bool
  | 0, _ => false
  | n + 1, x =>
    if b.occupied x y then false
    else if x = edge then true
    else if b.columnTop x > y then true
    else escapes b y edge step n (x + step)

def isOpen (b : Board) (x y : Int) : Bool :=
  b.escapes y 0 (-1) x.toNat (x - 1)
    || b.escapes y (b.width - 1) 1 (b.width - 1 - x).toNat (x + 1)

/-- Open and closed holes, and the weight of the squares over them. -/
structure Holes where
  opened : Int
  closed : Int
  covered : Float

/-- `HOLE_DECAY.powf(depth)`: a power of two, so exact. -/
def decayed : Nat → Float
  | 0 => 1.0
  | depth + 1 => decayed depth * holeDecay

/-- A free square under the top of its column is a hole. -/
def holeAt (b : Board) (x y : Int) (s : Holes) : Holes :=
  if b.occupied x y then s
  else
    let depth := (y - b.columnTop x - 1).toNat
    let blocksAbove := Float.ofInt (y - b.columnTop x)
    let s := { s with covered := s.covered + decayed depth * blocksAbove }
    if b.isOpen x y then { s with opened := s.opened + 1 } else { s with closed := s.closed + 1 }

def holes (b : Board) : Holes :=
  forRange 0 b.width (fun x s =>
    forRange (b.columnTop x + 1) b.height (fun y s => b.holeAt x y s) s) ⟨0, 0, 0.0⟩

/-- The rows with every square blocked. -/
def fullRows (b : Board) : Int :=
  forRange 0 b.height (fun y n => if b.columns.all fun x => b.occupied x y then n + 1 else n) 0

/-- The score of a board; lower is better. -/
def evalWith (b : Board) (pen : Penalties) : Float :=
  let top := b.boardTop
  let fractionTop := Float.ofInt top / Float.ofInt b.height
  let variance := b.roughness * pen.vp * (1.0 - fractionTop) * (1.0 - fractionTop)
    * (1.0 - fractionTop)
  let holes := b.holes
  let holePen := Float.ofInt holes.closed * pen.chp + Float.ofInt holes.opened * pen.ohp
  let covHolePen := holes.covered * pen.cvhp
  let fractionHeight := 1.0 - Float.ofInt top / Float.ofInt b.height
  let heightPen := fractionHeight * fractionHeight * pen.hp
  let linesCleared := b.fullRows
  let bonus :=
    if linesCleared > 0 then
      if top < midline then pen.lb * Float.ofInt linesCleared * (1.0 - fractionTop)
      else pen.lb * (-4.0 + Float.ofInt linesCleared) * fractionTop
    else 0.0
  variance + covHolePen + holePen + heightPen - bonus

end Board

/-! ## The landings -/

/-- Where the search would put a piece: its column, and its quarter turns. -/
structure Placement where
  x : Int
  orientation : Int
  deriving DecidableEq

/-- The columns to try, from the middle outwards, the right one of a pair first.  Past these
distances both columns of a pair are out of range. -/
def candidates (b : Board) : List Int :=
  let centre := b.width / 2
  let searchMin : Int := -((btPieceWidth : Int) - 1)
  centre :: (List.range (b.width + btPieceWidth).toNat).flatMap fun (d : Nat) =>
    [centre + (d + 1), centre - (d + 1)].filter fun x => searchMin ≤ x ∧ x < b.width

namespace Piece

/-- Up to `n` quarter turns, the first that fails being the last tried. -/
def rotateTimes (b : Board) : Nat → Piece → Piece
  | 0, p => p
  | n + 1, p =>
    match p.rotate b false with
    | (true, p) => rotateTimes b n p
    | (false, p) => p

/-- The piece after `o` quarter turns on a board with room to spare. -/
def turnedTo (p : Piece) (b : Board) (o : Nat) : Piece :=
  let scratch := Board.new (b.width + 20) (b.height + 20) true
  rotateTimes scratch o (p.moveTo scratch 10 10).2

/-- The row a piece dropped in column `x` stops at.  A square two grids below the floor is blocked
even under Fall Out. -/
def landingRow (p : Piece) (b : Board) (x : Int) : Int :=
  whileN (b.height + 2 * btPieceWidth).toNat (fun y => p.canMoveTo b x (y + 1)) (· + 1) 0

/-- The board after a drop in column `x`, its full rows cleared; none if the piece does not fit in
the first row. -/
def landing (p : Piece) (b : Board) (x : Int) : Option Board :=
  match p.moveTo b x 0 with
  | (false, _) => none
  | (true, p) =>
    match p.moveTo b x (p.landingRow b x) with
    | (false, _) => none
    | (true, p) => some (p.land b).checkLines.2

end Piece

/-- Every landing of a piece, orientation by orientation, in the order of the search. -/
def landings (b : Board) (p : Piece) : List (Placement × Board) :=
  (List.range p.orientations.toNat).flatMap fun o =>
    (candidates b).filterMap fun x => ((p.turnedTo b o).landing b x).map fun b => (⟨x, o⟩, b)

/-- The first landing with the lowest score. -/
def bestPlacementTuned (b : Board) (p : Piece) (pen : Penalties) : Placement :=
  ((landings b p).foldl (fun (best : Float × Placement) (landing : Placement × Board) =>
    let score := landing.2.evalWith pen
    if score < best.1 then (score, landing.1) else best)
    (1.7976931348623157e308, ⟨p.x, 0⟩)).2

end BattleTris
