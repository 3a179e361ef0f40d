import BattleTris.Lib.Codec
import BattleTris.Core.Game

/-!
The full-game keyframe: a flat stream of signed 64-bit words, and its bytes.

`snapshot` writes the sections in order and `readGame` reads them back in the
same order; `restore` commits only a stream that is read to its end.
-/

namespace BattleTris

open Machine Codec

namespace Phase

def code : Phase → Int
  | .falling => 0
  | .sliding => 1
  | .over => 2

def ofCode (v : Int) : Option Phase :=
  if v = 0 then some falling else if v = 1 then some sliding else if v = 2 then some .over
  else none

theorem ofCode_code (p : Phase) : ofCode p.code = some p := by
  cases p <;> rfl

end Phase

/-- `bool as i32`. -/
def flag (b : Bool) : Int := if b then 1 else 0

namespace Game

/-- The keyframe format. -/
def keyframeVersion : Int := 2

/-! ## Writing -/

def timerWords (g : Game) : List Int :=
  [g.x, g.y, g.defX, g.defY, g.deltaY, g.leftX, g.rightX, g.baseDropTime, g.fastDropTime,
    g.dropTime, g.slideTime, flag g.dropping, g.sliding, g.phase.code, g.dropAccum,
    g.slideAccum, flag g.paused, g.hatterAccum, g.slickAccum, g.slickDir, flag g.inBazaar,
    g.linesTilBaz]

def scoreWords (s : Score) : List Int :=
  [s.score, s.opScore, s.lines, s.opLines, s.funds, s.opFunds]

def streamWords (pm : PieceManager) (rng : Rng) : List Int :=
  asI64 rng.state :: ((List.finRange 19).map fun i => asI64 (pm.keepProb i).toBits.toNat)
    ++ [pm.hapOn, flag pm.broken, pm.oldPiece]

def quadWords (q : Int × Int × Int × Int) : List Int :=
  [q.1, q.2.1, q.2.2.1, q.2.2.2]

def pieceQuads (p : Piece) : List (Int × Int × Int × Int) :=
  (List.finRange btPieceWidth).flatMap fun col =>
    (List.finRange btPieceWidth).map fun row => Cell.encodeSquare (p.cells col row)

def pieceWords : Option Piece → List Int
  | some p =>
    [1, p.kind.id, p.x, p.y, p.color, (p.rot : Int), p.orientation, p.orientations, p.state]
      ++ (pieceQuads p).flatMap quadWords
  | none => [0]

def pendingWords (g : Game) : List Int :=
  (g.pending.length : Int) :: g.pending.map fun t => (t.index : Int)

def swapWords : Option (List Int) → List Int
  | some cells => 1 :: cells
  | none => [0]

def boardWords (b : Board) : List Int :=
  WeaponToken.all.map b.active.counts
    ++ [flag b.upside, flag b.computer, flag b.idiot, b.reason]

/-- The whole game as a flat keyframe. -/
def snapshot (g : Game) : List Int :=
  keyframeVersion :: (g.timerWords ++ scoreWords g.score ++ streamWords g.pieces g.rng
    ++ WeaponToken.all.map g.weapons.counts ++ WeaponToken.all.map g.remaining
    ++ g.exportArsenal ++ pieceWords g.current ++ g.pendingWords ++ swapWords g.pendingBoard
    ++ g.exportBoard ++ boardWords g.board ++ [asI64 g.lockSeq, (g.lockHash : Int)])

/-! ## Reading -/

/-- `c.next() as i32`. -/
def readI32 : Reader Int Int := do
  let w ← Reader.next
  return asI32 w

/-- `c.next() != 0`. -/
def readFlag : Reader Int Bool := do
  let w ← Reader.next
  return w ≠ 0

def readQuad : Reader Int (Int × Int × Int × Int) := do
  let tag ← readI32
  let a ← readI32
  let b ← readI32
  let h ← readI32
  return (tag, a, b, h)

def readCounts : Reader Int (WeaponToken → Int) := do
  let words ← readI32.times 34
  return fun t => words.getD t.index 0

def readPhase : Reader Int Phase := do
  let w ← Reader.next
  match Phase.ofCode w with
  | some p => return p
  | none => Reader.reject

/-- The movement frame, the timers and the flags, over a game. -/
def readTimers (g : Game) : Reader Int Game := do
  let x ← readI32
  let y ← readI32
  let defX ← readI32
  let defY ← readI32
  let deltaY ← readI32
  let leftX ← readI32
  let rightX ← readI32
  let baseDropTime ← readI32
  let fastDropTime ← readI32
  let dropTime ← readI32
  let slideTime ← readI32
  let dropping ← readFlag
  let sliding ← readI32
  let phase ← readPhase
  let dropAccum ← readI32
  let slideAccum ← readI32
  let paused ← readFlag
  let hatterAccum ← readI32
  let slickAccum ← readI32
  let slickDir ← readI32
  let inBazaar ← readFlag
  let linesTilBaz ← readI32
  return { g with
    x, y, defX, defY, deltaY, leftX, rightX, baseDropTime, fastDropTime, dropTime
    slideTime, dropping, sliding, phase, dropAccum, slideAccum, paused, hatterAccum
    slickAccum, slickDir, inBazaar, linesTilBaz }

def readScore : Reader Int Score := do
  let score ← Reader.next
  let opScore ← Reader.next
  let lines ← Reader.next
  let opLines ← Reader.next
  let funds ← Reader.next
  let opFunds ← Reader.next
  return { score, opScore, lines, opLines, funds, opFunds }

def readStream : Reader Int (PieceManager × Rng) := do
  let state ← Reader.next
  let bits ← Reader.next.times 19
  let hapOn ← readI32
  let broken ← readFlag
  let oldPiece ← readI32
  return ({
    keepProb := fun i => Float.ofBits (UInt64.ofNat (asU64 (bits.getD i 0)))
    hapOn, broken, oldPiece }, ⟨asU64 state⟩)

/-- A piece with a rotation side or an orientation that no piece has is rejected. -/
def readPiece : Reader Int Piece := do
  let id ← readI32
  match PieceKind.fromId id with
  | none => Reader.reject
  | some kind => do
    let x ← readI32
    let y ← readI32
    let color ← readI32
    let rotWord ← Reader.next
    let rot := asU64 rotWord
    let orientation ← readI32
    let orientations ← readI32
    let state ← readI32
    if (rot ≠ 0 ∧ rot ≠ 3 ∧ rot ≠ 4 ∧ rot ≠ 8) ∨ orientations ≤ 0 ∨ orientation < 0
        ∨ orientation ≥ orientations then Reader.reject
    else do
      let quads ← readQuad.times 64
      return {
        kind, x, y, color, rot, orientation, orientations, state
        cells := fun col row => Cell.decode (quads.getD (8 * col + row) (0, 0, 0, 0)) }

def readCurrent : Reader Int (Option Piece) := do
  let present ← readFlag
  if present then do
    let p ← readPiece
    return some p
  else return none

def readToken : Reader Int WeaponToken := do
  let i ← readI32
  match WeaponToken.fromIndex i with
  | some t => return t
  | none => Reader.reject

/-- At most 1024 queued weapons. -/
def readPending : Reader Int (List WeaponToken) := do
  let n ← Reader.next
  if 0 ≤ n ∧ n ≤ 1024 then readToken.times n.toNat else Reader.reject

/-- A waiting board, of `len` words. -/
def readSwap (len : Nat) : Reader Int (Option (List Int)) := do
  let present ← Reader.next
  if present = 0 then return none
  else if present = 1 then do
    let cells ← readI32.times len
    return some cells
  else Reader.reject

/-- What `restore` commits over `g` once the stream is known to be well formed. -/
def readGame (g : Game) : Reader Int Game := do
  let version ← Reader.next
  if version ≠ keyframeVersion then Reader.reject
  else do
    let timed ← readTimers g
    let score ← readScore
    let stream ← readStream
    let weapons ← readCounts
    let remaining ← readCounts
    let arsenalFlat ← readI32.times 20
    let current ← readCurrent
    let pending ← readPending
    let boardLen := (g.board.width * g.board.height * 4).toNat
    let pendingBoard ← readSwap boardLen
    let boardFlat ← readI32.times boardLen
    let boardActive ← readCounts
    let upside ← readFlag
    let computer ← readFlag
    let idiot ← readFlag
    let reason ← Reader.next
    let lockSeq ← Reader.next
    let lockHash ← Reader.next
    let imported := ({ timed with
      score := score, pieces := stream.1, rng := stream.2, weapons := ⟨weapons⟩
      remaining := remaining }.importArsenal arsenalFlat).importBoard boardFlat
    return { imported with
      board := { imported.board with
        active := ⟨boardActive⟩, upside := upside, computer := computer
        idiot := idiot, reason := asI16 reason }
      current := current, pending := pending, pendingBoard := pendingBoard
      lockSeq := asU64 lockSeq, lockHash := asU32 lockHash, events := [] }

/-- Restore a keyframe.  A malformed one leaves the game as it was. -/
def restore (g : Game) (data : List Int) : Bool × Game :=
  match (readGame g).run data with
  | some restored => (true, restored)
  | none => (false, g)

/-! ## Bytes -/

def snapshotBytes (g : Game) : List UInt8 := g.snapshot.flatMap i64Bytes

/-- The keyframe a client may see: the opponent's funds are zeroed. -/
def clientKeyframeBytes (g : Game) : List UInt8 :=
  snapshotBytes { g with score := { g.score with opFunds := 0 } }

/-- Cut a byte string into words of eight bytes. -/
def wordsOfBytes : Nat → List UInt8 → List Int
  | 0, _ => []
  | n + 1, bytes => i64OfBytes (bytes.take 8) :: wordsOfBytes n (bytes.drop 8)

def restoreBytes (g : Game) (bytes : List UInt8) : Bool × Game :=
  if bytes.length % 8 ≠ 0 then (false, g)
  else g.restore (wordsOfBytes (bytes.length / 8) bytes)

end Game

end BattleTris
