import BattleTris.Core.Keyframe
import BattleTris.Replay.VersusReplay

/-!
A server-hosted match: the authoritative games, the inputs it accepts and
records, the spies, and the snapshots it sends.
-/

namespace BattleTris

open Machine

/-! ## Spies -/

/-- `ACE_TETRIS_WINDOW`, in ticks. -/
def aceTetrisWindow : Nat := 60

/-- Percent of the cells a spy hides. -/
def hidePct (token : WeaponToken) : Nat :=
  match token with
  | .ames => 50
  | .ace => 15
  | _ => 0

/-- The noise of a tick and a side: a splitmix64 finalizer. -/
def noiseFor (tick side : UInt64) : UInt64 :=
  let z := tick + side * 0x9E3779B97F4A7C15
  let z := (z ^^^ (z >>> 30)) * 0xBF58476D1CE4E5B9
  let z := (z ^^^ (z >>> 27)) * 0x94D049BB133111EB
  z ^^^ (z >>> 31)

/-- The funds a spy reveals. -/
def adjustFunds (funds : Int) (token : WeaponToken) (noise : UInt64) (aceRecentTetris : Bool) :
    Int :=
  let sign : Int := if noise &&& ((1 : UInt64) <<< 33) ≠ 0 then -1 else 1
  match token with
  | .condor => funds
  | .ace => if aceRecentTetris then funds + sign * (noise.toNat % 100 : Nat) else funds
  | _ =>
    let base := if funds = -1 then -2 else funds
    base + sign * (noise.toNat % (base.natAbs + 1) : Nat)

/-! ## Which inputs a client may send -/

/-- A legal action of a client; the effects of the relay are the server's own. -/
def isLegalClientInput : Input → Bool
  | .moveLeft | .moveRight | .rotate | .softDrop | .beginDrop => true
  | .launchWeapon _ | .buyWeapon _ | .sellWeapon _ | .leaveBazaar => true
  | _ => false

/-- Inputs allowed under the bazaar barrier. -/
def isBazaarInput : Input → Bool
  | .buyWeapon _ | .sellWeapon _ | .leaveBazaar => true
  | _ => false

def sideIdx : Side → Nat
  | .a => 0
  | .b => 1

/-! ## Snapshots -/

structure SelfStatus where
  funds : Int
  inBazaar : Bool
  linesTilBazaar : Int

structure OppView where
  score : Int
  lines : Int
  gameOver : Bool
  inBazaar : Bool

/-- What one client is sent: its acknowledged inputs, the result as it sees it,
the two status lines, the spy's reveal, and on a trigger the whole game. -/
structure Snapshot where
  tick : Nat
  ack : Nat
  result : Int
  you : SelfStatus
  opp : OppView
  spying : Bool
  spyBoard : Option (List Int)
  spyHide : Option Nat
  spyFunds : Option Int
  keyframe : Option (List UInt8)
  lockSeq : Nat
  lockHash : Nat

/-! ## The bout -/

/-- A spy is its token and the opponent's lines it has left. -/
structure Bout where
  versus : Versus
  tick : Nat
  seedA : Nat
  seedB : Nat
  frames : List VersusFrame
  ack : Side → Nat
  spy : Side → Option (WeaponToken × Int)
  oppLinesSeen : Side → Int
  lastOppTetrisTick : Side → Nat

namespace Bout

def new (seedA seedB : Nat) : Bout where
  versus := .new seedA seedB
  tick := 0
  seedA := seedA
  seedB := seedB
  frames := []
  ack := fun _ => 0
  spy := fun _ => none
  oppLinesSeen := fun _ => 0
  lastOppTetrisTick := fun _ => 0

/-- The seeds and the tick count are cast to `u32`. -/
def toReplay (b : Bout) (dtMs : Int) (engineSha : String) : VersusReplay where
  version := replayVersion
  seedA := b.seedA % 2 ^ 32
  seedB := b.seedB % 2 ^ 32
  dtMs := dtMs
  engineSha := engineSha
  tickCount := b.tick % 2 ^ 32
  frames := b.frames
  title := none

/-- Apply an input to one side's game. -/
def drive (b : Bout) (side : Side) (input : Input) : Bout :=
  { b with versus := b.versus.modify side input.applyToGame }

/-- Record an input, stamped with the tick as a `u32`. -/
def record (b : Bout) (side : Side) (input : Input) : Bout :=
  { b with frames := b.frames ++ [⟨b.tick % 2 ^ 32, sideIdx side, input⟩] }

def setAck (b : Bout) (side : Side) (seq : Nat) : Bout :=
  { b with ack := Function.update b.ack side seq }

/-- Apply a client's input.  A fresh legal one is acknowledged even when the
barrier then drops it. -/
def applyInput (b : Bout) (side : Side) (input : Input) (seq : Nat) : Bool × Bout :=
  if ¬isLegalClientInput input ∨ seq ≤ b.ack side then (false, b)
  else
    let b := b.setAck side seq
    if b.versus.barrier ∧ ¬isBazaarInput input then (false, b)
    else (true, (b.drive side input).record side input)

/-- Grant a weapon; true when a slot took it. -/
def grantWeapon (b : Bout) (side : Side) (weapon : Option WeaponToken) : Bool × Bout :=
  match weapon with
  | some t =>
    let (granted, g) := (b.versus.game side).grantWeapon t
    (granted, { b with versus := b.versus.setGame side g })
  | none => (false, b)

/-- Grant funds; true unless there are none. -/
def grantFunds (b : Bout) (side : Side) (funds : Option Int) : Bool × Bout :=
  match funds with
  | some amount =>
    if amount ≠ 0 then
      (true, { b with versus := b.versus.modify side fun g => g.addFunds amount })
    else (false, b)
  | none => (false, b)

/-- Record a grant that landed. -/
def recordGrant (b : Bout) (side : Side) (landed : Bool) (input : Option Input) : Bout :=
  match landed, input with
  | true, some input => b.record side input
  | _, _ => b

/-- An admin's grant: applied, then recorded where it landed. -/
def debugGrant (b : Bout) (side : Side) (weapon : Option WeaponToken) (funds : Option Int) :
    (Bool × Bool) × Bout :=
  let (weaponGranted, b) := b.grantWeapon side weapon
  let (fundsApplied, b) := b.grantFunds side funds
  let b := b.recordGrant side weaponGranted (weapon.map fun t => .grantWeapon t.index)
  ((weaponGranted, fundsApplied), b.recordGrant side fundsApplied (funds.map .addFunds))

/-- A reattached client restarts its sequence numbers. -/
def resetAck (b : Bout) (side : Side) : Bout := b.setAck side 0

/-- The lines of the opponent since they were last counted. -/
def oppDelta (b : Bout) (side : Side) : Int :=
  asI32 (max ((b.versus.game side.other).score.lines - b.oppLinesSeen side) 0)

/-- Four lines at once are a tetris. -/
def noteTetris (b : Bout) (side : Side) (delta : Int) : Bout :=
  if delta ≥ 4 then
    { b with lastOppTetrisTick := Function.update b.lastOppTetrisTick side b.tick }
  else b

def seeLines (b : Bout) (side : Side) : Bout :=
  let lines := (b.versus.game side.other).score.lines
  { b with oppLinesSeen := Function.update b.oppLinesSeen side lines }

/-- Charge the active spy for the opponent's lines. -/
def chargeSpy (b : Bout) (side : Side) (delta : Int) : Bout :=
  match b.spy side with
  | some (token, left) =>
    let left := left - delta
    { b with
      spy := Function.update b.spy side (if left > 0 then some (token, left) else none) }
  | none => b

/-- A launched spy adds its budget and sets the accuracy. -/
def launchSpy (side : Side) (b : Bout) (token : WeaponToken) : Bout :=
  let left := ((b.spy side).map Prod.snd).getD 0 + (weaponTable token).duration
  { b with spy := Function.update b.spy side (some (token, left)) }

/-- The spy bookkeeping of one side. -/
def tickSpy (b : Bout) (side : Side) : Bout :=
  let delta := b.oppDelta side
  let b := ((b.noteTetris side delta).chargeSpy side delta).seeLines side
  let (launched, versus) := b.versus.takeSpyLaunches side
  launched.foldl (launchSpy side) { b with versus := versus }

/-- Advance the match. -/
def advance (b : Bout) (dtMs : Int) : Bout :=
  { b with versus := b.versus.tick dtMs, tick := b.tick + 1 }

def tickMs (b : Bout) (dtMs : Int) : Bout := ((b.advance dtMs).tickSpy .a).tickSpy .b

def takeDirty (b : Bout) : Bool × Bout :=
  let (dirty, versus) := b.versus.takeDirty
  (dirty, { b with versus := versus })

/-- Drain the relay events of one side, as the inputs its client is sent. -/
def takeEventsFor (b : Bout) (side : Side) : List Input × Bout :=
  let (events, versus) := b.versus.takeOutbox side
  (events.map .ofRelayEvent, { b with versus := versus })

def result (b : Bout) : Int := b.versus.result

def isOver (b : Bout) : Bool := b.versus.isOver

/-- An active spy's opponent has cleared a tetris lately. -/
def aceRecentTetris (b : Bout) (side : Side) : Bool :=
  b.lastOppTetrisTick side ≠ 0 ∧ b.tick - b.lastOppTetrisTick side < aceTetrisWindow

/-- The match result as one side sees it: 1 won, 2 lost. -/
def resultFor (b : Bout) (side : Side) : Int :=
  if b.versus.result = 0 then 0
  else if (b.versus.result = 1 ∧ side = .a) ∨ (b.versus.result = 2 ∧ side = .b) then 1
  else 2

/-- What one client is sent. -/
def buildSnapshot (b : Bout) (side : Side) (includeKeyframe includeSpy : Bool) : Snapshot :=
  let me := b.versus.game side
  let them := b.versus.game side.other
  let spy := if includeSpy then b.spy side else none
  { tick := b.tick
    ack := b.ack side
    result := b.resultFor side
    you := ⟨me.score.funds, me.inBazaar, me.linesTilBaz⟩
    opp := ⟨them.score.score, them.score.lines, them.isGameOver, them.inBazaar⟩
    spying := (b.spy side).isSome
    spyBoard := spy.map fun _ => them.renderIds
    spyHide := spy.map fun s => hidePct s.1
    spyFunds := spy.map fun s =>
      adjustFunds them.score.funds s.1 (noiseFor (.ofNat b.tick) (.ofNat (sideIdx side)))
        (b.aceRecentTetris side)
    keyframe := if includeKeyframe then some me.clientKeyframeBytes else none
    lockSeq := me.lockSeq
    lockHash := me.lockHash }

end Bout

end BattleTris
