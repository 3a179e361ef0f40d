import BattleTris.Lib.Machine

/-!
The constants of the rules engine, its random stream, and a board square.
-/

namespace BattleTris

/-! ## Constants -/

/-- The neutral garbage fill colour. -/
abbrev btNeutral : Int := 9

/-- The colour that renders nothing, dropped by the Bug weapon. -/
abbrev btInvisible : Int := -1

abbrev btIvory : Int := 1

abbrev btGreen : Int := 6

abbrev btStruct : Int := 20

abbrev btHappy : Int := 21

abbrev btUnhappy : Int := 22

abbrev btGimpId : Int := 23

abbrev btDie1 : Int := 24

/-- Funds paid by an un-landed smiley. -/
abbrev btHappyVal : Int := 150

abbrev btBoardWth : Int := 10

abbrev btBoardHgt : Int := 28

abbrev btFastDropTime : Int := 10

abbrev btDropTime : Int := 512

abbrev btSlideTime : Int := 150

abbrev btDefaultX : Int := 5

abbrev btDefaultY : Int := 0

/-- Side of a piece's local grid; the source has one constant for each axis. -/
abbrev btPieceWidth : Nat := 8

instance : NeZero btPieceWidth := ⟨by decide⟩

abbrev btMaxPieces : Nat := 18

abbrev btBrokenProb : Nat := 10

abbrev btBadMove : Int := 0

abbrev btNearDeath : Int := 1

abbrev btMissedSmiley : Int := 2

/-- Width of the ledge Fall Out leaves at each side. -/
abbrev btFallOutLedge : Int := 2

abbrev btArsenalSize : Nat := 10

/-- Depth of the Bottle walls, and their half height around the middle row. -/
abbrev btBottleX : Int := 3

abbrev btBottleY : Int := 4

abbrev btLinesTilBaz : Int := 20

/-- The fraction of new funds Mondale takes. -/
def btMondaleRate : Float := 0.30

/-! ## The random stream -/

/-- The 48-bit linear congruential state behind every draw. -/
structure Rng where
  state : Nat
  deriving DecidableEq, Repr

namespace Rng

/-- `srand48`: the low 32 bits of the seed over the constant `0x330E`. -/
def new (seed : Nat) : Rng :=
  ⟨((seed % 2 ^ 32) <<< 16) ||| 0x330E⟩

def nextState (r : Rng) : Rng :=
  ⟨(0x5DEECE66D * r.state + 0xB) % 2 ^ 48⟩

/-- The top 31 bits of the next state. -/
def rand (r : Rng) : Nat × Rng :=
  (r.nextState.state >>> 17, r.nextState)

def randBelow (r : Rng) (n : Nat) : Nat × Rng :=
  (r.rand.1 % n, r.rand.2)

def drand48 (r : Rng) : Float × Rng :=
  (Float.ofNat r.nextState.state / Float.ofNat (2 ^ 48), r.nextState)

def lrand48 (r : Rng) : Nat × Rng :=
  (r.nextState.state >>> 17, r.nextState)

theorem randBelow_lt (r : Rng) {n : Nat} (pos : 0 < n) : (r.randBelow n).1 < n :=
  Nat.mod_lt _ pos

end Rng

/-! ## Squares -/

inductive CellKind where
  | color (c : Int)
  | die (pips : UInt8)
  | happy (landed : Bool)
  | struct
  | gimp (value : Int)
  | invisible (id value : Int)
  deriving DecidableEq, Repr

namespace CellKind

def value : CellKind → Int
  | die v => v.toNat
  | happy landed => if landed then 0 else btHappyVal
  | gimp v => v
  | invisible _ value => value
  | color _ | struct => 0

def rawId : CellKind → Int
  | color c => c
  | die v => btDie1 + v.toNat - 1
  | happy landed => if landed then btUnhappy else btHappy
  | struct => btStruct
  | gimp _ => btGimpId
  | invisible id _ => id

def isRemovable : CellKind → Bool
  | struct => false
  | _ => true

end CellKind

/-- An occupied square: its kind, and whether Twilight cloaks it. -/
structure Cell where
  kind : CellKind
  hidden : Bool
  deriving DecidableEq, Repr

namespace Cell

def new (kind : CellKind) : Cell := ⟨kind, false⟩

def color (c : Int) : Cell := new (.color c)

def die (pips : UInt8) : Cell := new (.die pips)

def happy : Cell := new (.happy false)

def struct : Cell := new .struct

def gimp (value : Int) : Cell := new (.gimp value)

def value (c : Cell) : Int := c.kind.value

def id (c : Cell) : Int := if c.hidden then -1 else c.kind.rawId

def isRemovable (c : Cell) : Bool := c.kind.isRemovable

def hide (c : Cell) : Cell := { c with hidden := true }

/-- A happy face that lands becomes a frown. -/
def landed (c : Cell) : Cell :=
  match c.kind with
  | .happy _ => { c with kind := .happy true }
  | _ => c

/-- `(tag, a, b, hidden)`, the four words a square takes in a board export. -/
def encode (c : Cell) : Int × Int × Int × Int :=
  let h : Int := if c.hidden then 1 else 0
  match c.kind with
  | .color v => (1, v, 0, h)
  | .die v => (2, v.toNat, 0, h)
  | .happy landed => (3, if landed then 1 else 0, 0, h)
  | .struct => (4, 0, 0, h)
  | .gimp v => (5, v, 0, h)
  | .invisible id value => (6, id, value, h)

/-- Tag 0, and every unknown tag, is an empty square. -/
def decode : Int × Int × Int × Int → Option Cell
  | (tag, a, b, h) =>
    let hidden := h ≠ 0
    if tag = 1 then some ⟨.color a, hidden⟩
    else if tag = 2 then some ⟨.die (UInt8.ofNat (Machine.asU8 a)), hidden⟩
    else if tag = 3 then some ⟨.happy (a ≠ 0), hidden⟩
    else if tag = 4 then some ⟨.struct, hidden⟩
    else if tag = 5 then some ⟨.gimp a, hidden⟩
    else if tag = 6 then some ⟨.invisible a b, hidden⟩
    else none

/-- `Option<Cell>` on the wire: an empty square is four zeroes. -/
def encodeSquare : Option Cell → Int × Int × Int × Int
  | some c => c.encode
  | none => (0, 0, 0, 0)

theorem decode_encode (c : Cell) : decode c.encode = some c := by
  obtain ⟨kind, hidden⟩ := c
  cases kind with
  | die v =>
    have byte : Machine.asU8 v.toNat = v.toNat := Machine.asU8_of_lt v.toNat_lt
    cases hidden <;> simp [encode, decode, byte]
  | happy landed => cases hidden <;> cases landed <;> rfl
  | color v => cases hidden <;> simp [encode, decode]
  | struct => cases hidden <;> rfl
  | gimp v => cases hidden <;> simp [encode, decode]
  | invisible id value => cases hidden <;> simp [encode, decode]

theorem decode_encodeSquare (c : Option Cell) : decode (encodeSquare c) = c := by
  cases c with
  | none => rfl
  | some d => exact decode_encode d

end Cell

end BattleTris
