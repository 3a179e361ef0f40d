import BattleTris.Core.Piece

/-!
The single-player state machine: spawn, fall, slide, lock, clear, with the
weapons, the bazaar and the relay hooks built on it.

Counters and funds are unbounded here.  The casts of the source are written
where it has them.
-/

namespace BattleTris

open Loop Machine

/-- This player's totals and the mirror of the opponent's. -/
structure Score where
  score : Int
  opScore : Int
  lines : Int
  opLines : Int
  funds : Int
  opFunds : Int
  deriving DecidableEq

inductive Phase where
  | falling
  | sliding
  | over
  deriving DecidableEq

inductive GameEvent where
  | locked (lines value funds : Int)
  | airslide
  | weaponLaunched (token : WeaponToken)
  | scored (score lines funds : Int)
  | fundsStolen (amount : Int)
  | enterBazaar
  | idiot (reason : Int)
  | gameOver
  deriving DecidableEq

structure Game where
  board : Board
  pieces : PieceManager
  rng : Rng
  score : Score
  current : Option Piece
  /-- Board origin of `current`, kept beside the piece's own copy. -/
  x : Int
  y : Int
  defX : Int
  defY : Int
  deltaY : Int
  leftX : Int
  rightX : Int
  baseDropTime : Int
  fastDropTime : Int
  dropTime : Int
  slideTime : Int
  dropping : Bool
  sliding : Int
  phase : Phase
  dropAccum : Int
  slideAccum : Int
  paused : Bool
  weapons : ActiveFlags
  remaining : WeaponToken → Int
  arsenal : Arsenal
  pending : List WeaponToken
  pendingBoard : Option (List Int)
  hatterAccum : Int
  slickAccum : Int
  slickDir : Int
  inBazaar : Bool
  linesTilBaz : Int
  events : List GameEvent
  lockSeq : Nat
  lockHash : Nat

/-- Mix bytes into an FNV-1a hash. -/
def fnvFeed (h : Nat) (bytes : List UInt8) : Nat :=
  bytes.foldl (fun h b => ((h ^^^ b.toNat) * 0x01000193) % 2 ^ 32) h

namespace Game

def emit (g : Game) (e : GameEvent) : Game := { g with events := g.events ++ [e] }

/-! ## Board and arsenal exports -/

/-- The grid as four words a square, row by row. -/
def exportBoard (g : Game) : List Int :=
  (List.range g.board.height.toNat).flatMap fun (y : Nat) =>
    (List.range g.board.width.toNat).flatMap fun (x : Nat) =>
      let (tag, a, b, h) := Cell.encodeSquare (g.board.get x y)
      [tag, a, b, h]

/-- Wrong-length data is ignored. -/
def importBoard (g : Game) (data : List Int) : Game :=
  let w := g.board.width
  let h := g.board.height
  if data.length ≠ (w * h * 4).toNat then g
  else
    let board := forRange 0 h (fun y b =>
      forRange 0 w (fun x b =>
        let i := (4 * (y * w + x)).toNat
        b.set x y (Cell.decode
          (data.getD i 0, data.getD (i + 1) 0, data.getD (i + 2) 0, data.getD (i + 3) 0))) b)
      g.board
    { g with board := board }

/-- Token index and quantity of each slot; an empty slot is `[-1, 0]`. -/
def exportArsenal (g : Game) : List Int :=
  (List.range btArsenalSize).flatMap fun i =>
    [((g.arsenal.token i).map fun t => (t.index : Int)).getD (-1), (g.arsenal.quantity i : Int)]

/-- Quantities are clamped to `u16`. -/
def importArsenal (g : Game) (data : List Int) : Game :=
  if data.length ≠ 20 then g
  else
    let arsenal := (List.range btArsenalSize).foldl (fun a slot =>
      a.setSlot slot (WeaponToken.fromIndex (data.getD (slot * 2) 0))
        (max 0 (min (data.getD (slot * 2 + 1) 0) 65535)).toNat) Arsenal.new
    { g with arsenal := arsenal }

/-- The lockstep fingerprint: board, score and lines, arsenal, weapons, pending
effects and the random stream.  Funds, the opponent mirror, the timers and the
falling piece stay out. -/
def lockHashOf (g : Game) : Nat :=
  let i32s (h : Nat) (vs : List Int) : Nat :=
    vs.foldl (fun h v => fnvFeed h (leBytes 4 (asU32 v))) h
  let h := i32s 0x811c9dc5 g.exportBoard
  let h := fnvFeed h (i64Bytes g.score.score)
  let h := fnvFeed h (i64Bytes g.score.lines)
  let h := i32s h g.exportArsenal
  let h := i32s h (WeaponToken.all.map g.weapons.counts)
  let h := i32s h (WeaponToken.all.map g.remaining)
  let h := i32s h (g.pending.map fun t => (t.index : Int))
  let h := match g.pendingBoard with
    | some cells => i32s (fnvFeed h [1]) cells
    | none => fnvFeed h [0]
  fnvFeed h (leBytes 8 g.rng.state)

/-! ## Weapons and the score -/

def bazaarPrice (g : Game) (token : WeaponToken) : Int :=
  let p := (weaponTable token).price
  if g.weapons.isActive .carter then p * 2 else p

def addLines (g : Game) (lines : Int) : Game :=
  { g with score := { g.score with lines := g.score.lines + lines } }

def setFunds (g : Game) (funds : Int) : Game :=
  { g with score := { g.score with funds := funds } }

/-- What Mondale leaves of a clear's funds. -/
def mondaleKept (clearFunds : Int) : Int :=
  f64AsI64 (Float.ofInt clearFunds * (1.0 - btMondaleRate))

def stealTax (g : Game) (tax : Int) : Game :=
  if tax ≠ 0 then g.emit (.fundsStolen tax) else g

/-- Credit a clear's funds; under Mondale the exact remainder is stolen. -/
def creditClearFunds (g : Game) (clearFunds : Int) : Game :=
  if g.weapons.isActive .mondale then
    let kept := mondaleKept clearFunds
    (g.stealTax (clearFunds - kept)).setFunds (g.score.funds + kept)
  else g.setFunds (g.score.funds + clearFunds)

/-- Publish the score to the opponent's mirror. -/
def emitScored (g : Game) : Game :=
  g.emit (.scored g.score.score g.score.lines g.score.funds)

def openBazaar (g : Game) : Game := { g with inBazaar := true }.emit .enterBazaar

/-- Lines to the next multiple of 20 of the combined count. -/
def bazaarCountdown (g : Game) : Int :=
  btLinesTilBaz - (g.score.opLines + g.score.lines) % btLinesTilBaz

def setTil (g : Game) (til : Int) : Game := { g with linesTilBaz := til }

/-- Recompute the countdown from the combined lines; fire on a crossing. -/
def updateBazaar (g : Game) : Game :=
  let newTil := g.bazaarCountdown
  (if newTil > g.linesTilBaz then g.openBazaar else g).setTil newTil

/-- The board, flag and stream part of a weapon turning off. -/
def switchOff (g : Game) (token : WeaponToken) : Game :=
  { g with
    weapons := g.weapons.set token false
    board := (g.board.revertWeapon token).setActive token false
    pieces := g.pieces.weaponOff token }

/-- Revert what `weaponFrame` did. -/
def weaponUnframe (g : Game) (token : WeaponToken) : Game :=
  match token with
  | .upbyside =>
    { g with defX := btDefaultX, defY := btDefaultY, deltaY := 1, leftX := -1, rightX := 1 }
  | .speedy => { g with baseDropTime := g.baseDropTime * 2 }
  | .meadow =>
    { g with baseDropTime := g.baseDropTime / 2, fastDropTime := g.fastDropTime / 2 }
  | _ => g

/-- A weapon's duration expired. -/
def applyWeaponOff (g : Game) (token : WeaponToken) : Game :=
  (g.switchOff token).weaponUnframe token

def setRemaining (g : Game) (token : WeaponToken) (lines : Int) : Game :=
  { g with remaining := Function.update g.remaining token lines }

/-- Count one weapon down by the cleared lines, and expire it at zero. -/
def tickDuration (lines : Int) (g : Game) (token : WeaponToken) : Game :=
  if g.remaining token = 0 then g
  else
    let left := max (g.remaining token - lines) 0
    let g := g.setRemaining token left
    if left = 0 then g.applyWeaponOff token else g

def tickDurations (g : Game) (lines : Int) : Game :=
  WeaponToken.all.foldl (tickDuration lines) g

/-- What follows a line: the bazaar sees it before the durations do. -/
def lineTick (g : Game) (lines : Int) : Game := g.updateBazaar.tickDurations lines

def setBoardRng (g : Game) (board : Board) (rng : Rng) : Game :=
  { g with board := board, rng := rng }

def markActive (g : Game) (token : WeaponToken) : Game :=
  { g with weapons := g.weapons.set token true }.setRemaining token
    (g.remaining token + (weaponTable token).duration)

/-- The board part of a weapon turning on. -/
def boardWeapon (g : Game) (token : WeaponToken) : LineClear × Board × Rng :=
  (g.board.setActive token true).applyWeapon token g.rng

/-- Raise the flag, add the duration, and mutate the board. -/
def switchOn (g : Game) (token : WeaponToken) : LineClear × Game :=
  let r := g.boardWeapon token
  (r.1, (g.markActive token).setBoardRng r.2.1 r.2.2)

/-- Lines a Bottle's walls completed are credited like a lock's. -/
def creditWeaponClear (g : Game) (clear : LineClear) : Game :=
  if clear.lines > 0 then
    (((g.addLines clear.lines).creditClearFunds clear.funds).lineTick clear.lines).emitScored
  else g

def streamOn (g : Game) (token : WeaponToken) : Game :=
  { g with pieces := g.pieces.weaponOn token }

/-- The effects of a weapon on the movement frame, the clock and the funds.
The clock is rescaled on the change to active only. -/
def weaponFrame (g : Game) (token : WeaponToken) (wasActive : Bool) : Game :=
  match token with
  | .upbyside =>
    { g with defY := btBoardHgt - 4, deltaY := -1, leftX := 1, rightX := -1 }
  | .speedy =>
    if wasActive then g
    else
      let base := g.baseDropTime / 2
      { g with
        baseDropTime := base
        dropTime := if g.dropTime ≠ g.fastDropTime then max base 1 else g.dropTime }
  | .meadow =>
    if wasActive then g
    else
      let fast := g.fastDropTime * 2
      let base := g.baseDropTime * 2
      { g with
        fastDropTime := fast
        baseDropTime := base
        dropTime := if g.dropTime ≠ fast then base else g.dropTime }
  | .keating => g.setFunds 0
  | .reagan => g.setFunds (-g.score.funds)
  | _ => g

/-- Activate a weapon on this player. -/
def applyWeaponOn (g : Game) (token : WeaponToken) : Game :=
  let wasActive := g.weapons.isActive token
  let (clear, g) := g.switchOn token
  ((g.creditWeaponClear clear).streamOn token).weaponFrame token wasActive

/-- Revert a weapon at once, and drop what is left of it. -/
def forceWeaponOff (g : Game) (token : WeaponToken) : Game :=
  (if g.weapons.isActive token then g.applyWeaponOff token else g).setRemaining token 0

/-- Apply the queued weapons in order. -/
def flushWeapons (g : Game) : Game :=
  g.pending.foldl applyWeaponOn { g with pending := [] }

/-- Install a waiting board; the receiver's Bottle and Upbyside go with it. -/
def installBoard (g : Game) : Game :=
  match g.pendingBoard with
  | some cells =>
    (({ g with pendingBoard := none }.importBoard cells).forceWeaponOff .bottle).forceWeaponOff
      .upbyside
  | none => g

def flushPending (g : Game) : Game := g.flushWeapons.installBoard

/-! ## Lifecycle and clock -/

def setStream (g : Game) (pieces : PieceManager) (rng : Rng) : Game :=
  { g with pieces := pieces, rng := rng }

/-- Put a fresh piece in play at the spawn origin; a blocked one ends the game. -/
def enterPiece (g : Game) (p : Piece) : Game :=
  let x := g.defX - (p.rot : Int) / 2
  if p.canMoveTo g.board x g.defY then
    { g with
      x := x, y := g.defY, current := some { p with x := x, y := g.defY }
      dropping := false, dropTime := g.baseDropTime, phase := .falling, dropAccum := 0 }
  else { g with x := x, y := g.defY, current := none, phase := .over }.emit .gameOver

/-- Draw the next piece and put it in play. -/
def spawn (g : Game) : Game :=
  let r := g.pieces.create g.rng g.defX g.defY
  (g.setStream r.2.1 r.2.2).enterPiece r.1

/-- A game before its first piece. -/
def blank (seed : Nat) : Game where
  board := .standard false
  pieces := .new
  rng := .new seed
  score := ⟨0, 0, 0, 0, 0, 0⟩
  current := none
  x := btDefaultX
  y := btDefaultY
  defX := btDefaultX
  defY := btDefaultY
  deltaY := 1
  leftX := -1
  rightX := 1
  baseDropTime := btDropTime
  fastDropTime := btFastDropTime
  dropTime := btDropTime
  slideTime := btSlideTime
  dropping := false
  sliding := 0
  phase := .falling
  dropAccum := 0
  slideAccum := 0
  paused := false
  weapons := .new
  remaining := fun _ => 0
  arsenal := .new
  pending := []
  pendingBoard := none
  hatterAccum := 0
  slickAccum := 0
  slickDir := 0
  inBazaar := false
  linesTilBaz := btLinesTilBaz
  events := []
  lockSeq := 0
  lockHash := 0

/-- A fresh game, seeded, with its first piece in play. -/
def new (seed : Nat) : Game := (blank seed).spawn

/-- Switch to the lock delay, which No Slide reduces to nothing. -/
def startSlide (g : Game) : Game :=
  { g with
    sliding := 1
    slideTime := if g.weapons.isActive .noSlide then 0 else btSlideTime
    phase := .sliding, slideAccum := 0 }

/-- The piece in play moves by `(dx, dy)`, the game's own origin with it. -/
def carry (g : Game) (p : Piece) (dx dy : Int) : Game :=
  { g with
    x := g.x + dx, y := g.y + dy
    current := some { p with x := g.x + dx, y := g.y + dy } }

/-- One row down, or the start of a slide. -/
def dropStep (g : Game) : Game :=
  match g.current with
  | some p =>
    if p.canMoveTo g.board g.x (g.y + g.deltaY) then g.carry p 0 g.deltaY else g.startSlide
  | none => g

def setBoard (g : Game) (board : Board) : Game := { g with board := board }

/-- A fast drop that locks under an obstacle is an airslide. -/
def signalAirslide (g : Game) (p : Piece) : Game :=
  if g.dropping ∧ g.sliding ≤ 1 ∧ ¬p.canMoveTo g.board g.x (g.y - g.deltaY) then
    g.emit .airslide
  else g

/-- Land the piece and check the lines. -/
def landPiece (g : Game) (p : Piece) : LineClear × Game :=
  let r := (p.land g.board).checkLines
  (r.1, g.setBoard r.2)

/-- Drain the board's idiot flag into an event. -/
def signalIdiot (g : Game) : Game :=
  let r := g.board.flushIdiot
  let g := g.setBoard r.2
  match r.1 with
  | some r => g.emit (.idiot r)
  | none => g

/-- A lock up to the published score: land, check lines, credit, open the
bazaar, expire durations. -/
def lockPiece (g : Game) (p : Piece) : Game :=
  let (clear, g) := (g.signalAirslide p).landPiece p
  let g := ((g.addLines clear.lines).creditClearFunds clear.funds).emit
    (.locked clear.lines clear.value clear.funds)
  let g := g.signalIdiot
  (if clear.lines > 0 then g.lineTick clear.lines else g).emitScored

/-- Count the lock, and hash the state it left. -/
def markLock (g : Game) : Game :=
  { g with lockSeq := g.lockSeq + 1, lockHash := g.lockHashOf }

/-- The piece was slid over a hole during the lock delay: fall on. -/
def resumeFall (g : Game) (p : Piece) : Game :=
  { g.carry p 0 g.deltaY with phase := .falling, dropAccum := 0 }

/-- The whole of a lock, from the landing to the next piece. -/
def lockAndSpawn (g : Game) (p : Piece) : Game :=
  ((g.lockPiece p).flushPending).spawn.markLock

def setSliding (g : Game) (sliding : Int) : Game := { g with sliding := sliding }

/-- Slide expiry: lock and spawn, or fall on if there is room again. -/
def place (g : Game) (force : Bool) : Game :=
  match g.current with
  | none => g
  | some p =>
    (if ¬p.canMoveTo g.board g.x (g.y + g.deltaY) ∨ force then
      { g with current := none }.lockAndSpawn p
    else g.resumeFall p).setSliding 0

def rotateInternal (g : Game) : Game :=
  { g with current := g.current.map fun p => (p.rotate g.board false).2 }

/-- The direction of the current slide of Slick Willy. -/
def slickDx (g : Game) : Int := if g.slickDir = 0 then g.leftX else g.rightX

/-- `slick_dir ^= 1`. -/
def turnSlick (g : Game) : Game :=
  { g with slickDir := if g.slickDir % 2 = 0 then g.slickDir + 1 else g.slickDir - 1 }

def slickStep (g : Game) : Game :=
  match g.current with
  | some p =>
    if p.canMoveTo g.board (g.x + g.slickDx) g.y then g.carry p g.slickDx 0 else g.turnSlick
  | none => g

/-- One 20 ms step of Mad Hatter, and of Slick Willy. -/
def hatterStep (g : Game) : Game :=
  { g with hatterAccum := g.hatterAccum - 20 }.rotateInternal

def slickTimerStep (g : Game) : Game :=
  { g with slickAccum := g.slickAccum - 20 }.slickStep

/-- The auto-rotate timer. -/
def tickHatter (g : Game) (dt : Int) : Game :=
  if g.weapons.isActive .hatter then
    let g := { g with hatterAccum := g.hatterAccum + dt }
    whileN g.hatterAccum.toNat (fun g => g.hatterAccum ≥ 20) hatterStep g
  else g

/-- The auto-slide timer, suspended during a fast drop and a slide. -/
def tickSlick (g : Game) (dt : Int) : Game :=
  if g.weapons.isActive .slick ∧ g.phase = .falling ∧ ¬g.dropping then
    let g := { g with slickAccum := g.slickAccum + dt }
    whileN g.slickAccum.toNat (fun g => g.slickAccum ≥ 20) slickTimerStep g
  else g

def tickWeapons (g : Game) (dt : Int) : Game := (g.tickHatter dt).tickSlick dt

def fallStep (step : Int) (g : Game) : Game :=
  { g with dropAccum := g.dropAccum - step }.dropStep

/-- The drop clock. -/
def tickFalling (g : Game) (dt : Int) : Game :=
  let g := { g with dropAccum := g.dropAccum + dt }
  let step := max g.dropTime 1
  whileN g.dropAccum.toNat (fun g => g.phase = .falling ∧ g.dropAccum ≥ step) (fallStep step) g

def slideStep (step : Int) (g : Game) : Game :=
  { g with slideAccum := g.slideAccum - step }.place false

/-- The lock-delay clock; a zero delay locks at once, and only once. -/
def tickSliding (g : Game) (dt : Int) : Game :=
  let g := { g with slideAccum := g.slideAccum + dt }
  let step := max g.slideTime 0
  if step = 0 then g.place false
  else
    whileN g.slideAccum.toNat (fun g => g.phase = .sliding ∧ g.slideAccum ≥ step)
      (slideStep step) g

/-- Advance the virtual clock by `dtMs`. -/
def tick (g : Game) (dtMs : Int) : Game :=
  if g.paused ∨ g.inBazaar ∨ g.phase = .over ∨ dtMs ≤ 0 then g
  else
    let g := g.tickWeapons dtMs
    match g.phase with
    | .falling => g.tickFalling dtMs
    | .sliding => g.tickSliding dtMs
    | .over => g

/-! ## Inputs -/

/-- A shift during the lock delay counts as steering. -/
def steer (g : Game) : Game :=
  { g with sliding := if g.sliding ≠ 0 then g.sliding + 1 else g.sliding }

/-- Shift the piece by `dx` columns. -/
def shift (g : Game) (dx : Int) : Game :=
  if g.paused ∨ g.phase = .over then g
  else
    match g.current with
    | some p => if p.canMoveTo g.board (g.x + dx) g.y then g.steer.carry p dx 0 else g
    | none => g

def moveLeft (g : Game) : Game := g.shift g.leftX

def moveRight (g : Game) : Game := g.shift g.rightX

def rotate (g : Game) : Game :=
  if g.paused ∨ g.phase = .over then g else g.rotateInternal

/-- Switch to the fast cadence; true when this call newly engages it. -/
def engageFastDrop (g : Game) : Bool × Game :=
  if g.paused ∨ g.inBazaar ∨ g.phase = .over then (false, g)
  else
    let g := { g with dropping := true }
    if g.dropTime = g.fastDropTime then (false, g)
    else (true, { g with dropTime := g.fastDropTime, dropAccum := 0 })

/-- Award `bonus` when the fast drop is newly engaged. -/
def dropFor (g : Game) (bonus : Int) : Game :=
  let (engaged, g) := g.engageFastDrop
  if engaged then { g with score := { g.score with score := g.score.score + bonus } } else g

def beginDrop (g : Game) : Game := g.dropFor (btBoardHgt - g.y)

def aiBeginDrop (g : Game) : Game := g.dropFor (btBoardHgt / 2)

def softDrop (g : Game) : Game :=
  if g.paused ∨ g.inBazaar ∨ g.phase ≠ .falling then g
  else { g.dropStep with dropAccum := 0 }

def setPaused (g : Game) (paused : Bool) : Game := { g with paused := paused }

def launchWeapon (g : Game) (slot : Nat) : Game :=
  if g.inBazaar ∨ g.phase = .over then g
  else
    match g.arsenal.token slot with
    | some tok => { g with arsenal := g.arsenal.useSlot slot }.emit (.weaponLaunched tok)
    | none => g

def receiveWeapon (g : Game) (token : WeaponToken) : Game :=
  { g with pending := g.pending ++ [token] }

/-- Replaces a swap already in flight. -/
def queueBoardSwap (g : Game) (cells : List Int) : Game :=
  { g with pendingBoard := some cells }

/-- One garbage row under Lawyers. -/
def lawyersRow (g : Game) : Game :=
  let (board, rng) := g.board.insertLine g.rng
  g.setBoardRng board rng

/-- Lawyers raises the stack by the opponent's new lines. -/
def raiseStack (g : Game) (lines : Int) : Game :=
  if g.weapons.isActive .lawyers then forRange 0 (max lines 0) (fun _ g => g.lawyersRow) g else g

def mirrorScore (g : Game) (opScore opFunds : Int) : Game :=
  { g with score := { g.score with opScore := opScore, opFunds := opFunds } }

def setOpLines (g : Game) (opLines : Int) : Game :=
  { g with score := { g.score with opLines := opLines } }

/-- The opponent's score changed: update the mirror, raise the stack under
Lawyers, advance the bazaar. -/
def receiveOpScore (g : Game) (opScore opLines opFunds : Int) : Game :=
  let oldOpLines := g.score.opLines
  (((g.mirrorScore opScore opFunds).raiseStack (opLines - oldOpLines)).setOpLines
    opLines).updateBazaar

def addFunds (g : Game) (amount : Int) : Game :=
  if amount = 0 then g
  else (g.setFunds (g.score.funds + amount)).emitScored

def buyWeapon (g : Game) (token : WeaponToken) : Bool × Game :=
  if ¬g.inBazaar then (false, g)
  else
    let price := g.bazaarPrice token
    if g.score.funds < price then (false, g)
    else
      let (bought, arsenal) := g.arsenal.buy token
      if bought then
        (true, { g with
          arsenal := arsenal, score := { g.score with funds := g.score.funds - price } })
      else (false, g)

def sellWeapon (g : Game) (token : WeaponToken) : Bool × Game :=
  if ¬g.inBazaar then (false, g)
  else
    let (sold, arsenal) := g.arsenal.sell token
    if sold then
      (true, { g with
        arsenal := arsenal
        score := { g.score with funds := g.score.funds + g.bazaarPrice token } })
    else (false, g)

def leaveBazaar (g : Game) : Game := { g with inBazaar := false }

/-- The immediate form of Swap: both sides drop Bottle and Upbyside, then the
grids change places. -/
def swapBoardWith (g other : Game) : Game × Game :=
  let g := (g.forceWeaponOff .bottle).forceWeaponOff .upbyside
  let other := (other.forceWeaponOff .bottle).forceWeaponOff .upbyside
  let (board, board') := g.board.swapCells other.board
  ({ g with board := board }, { other with board := board' })

def swapArsenalWith (g other : Game) : Game × Game :=
  ({ g with arsenal := other.arsenal }, { other with arsenal := g.arsenal })

def grantWeapon (g : Game) (token : WeaponToken) : Bool × Game :=
  let (granted, arsenal) := g.arsenal.buy token
  (granted, { g with arsenal := arsenal })

def takeEvents (g : Game) : List GameEvent × Game := (g.events, { g with events := [] })

def weaponActive (g : Game) (t : WeaponToken) : Bool := g.weapons.isActive t

def isGameOver (g : Game) : Bool := g.phase = .over

/-- The render ids of the grid with the falling piece over it; empty is `-2`. -/
def renderIds (g : Game) : List Int :=
  let pieceAt (p : Piece) (x y : Int) : Option Cell :=
    if 0 ≤ x - p.x ∧ x - p.x < btPieceWidth ∧ 0 ≤ y - p.y ∧ y - p.y < btPieceWidth then
      p.cells (Fin.ofNat _ (x - p.x).toNat) (Fin.ofNat _ (y - p.y).toNat)
    else none
  (List.range g.board.height.toNat).flatMap fun (y : Nat) =>
    (List.range g.board.width.toNat).map fun (x : Nat) =>
      match g.current.bind (fun p => pieceAt p x y) with
      | some c => c.id
      | none => ((g.board.get x y).map Cell.id).getD (-2)

end Game

end BattleTris
