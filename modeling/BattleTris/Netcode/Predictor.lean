import BattleTris.Core.Keyframe
import BattleTris.Replay.Input

/-!
Client-side prediction: a local game, the inputs the server has not acked, and the
history of local locks that the server's lock hashes are judged against.
-/

namespace BattleTris

open Loop

/-! ## Inputs, as a client sees them -/

/-- Buy and sell.  Leaving is handled apart: forwarded, never applied locally. -/
def isShopping : Input → Bool
  | .buyWeapon _ => true
  | .sellWeapon _ => true
  | _ => false

/-- Apply a buy or a sell, and say whether the game accepted it. -/
def applyShop (g : Game) : Input → Bool × Game
  | .buyWeapon t =>
    match WeaponToken.fromIndex t with
    | some tok => g.buyWeapon tok
    | none => (false, g)
  | .sellWeapon t =>
    match WeaponToken.fromIndex t with
    | some tok => g.sellWeapon tok
    | none => (false, g)
  | _ => (false, g)

/-- Re-apply one unacked input over a restored keyframe.  In the bazaar only buys and
sells replay, and leaving never does. -/
def replayInput (g : Game) (i : Input) : Game :=
  if g.inBazaar ∧ ¬isShopping i then g
  else
    match i with
    | .leaveBazaar => g
    | i => i.applyToGame g

/-- How many locks the history holds. -/
def lockHistoryCap : Nat := 8

structure Predictor where
  game : Game
  inputSeq : Nat
  /-- Sent and not yet acked, oldest first. -/
  unacked : List (Nat × Input)
  youBazaar : Bool
  oppBazaar : Bool
  /-- The last locks of the local game with their hashes, oldest first. -/
  lockHistory : List (Nat × Nat)
  mismatches : Nat
  lastJudged : Option Nat
  lastSeenLockSeq : Nat

namespace Predictor

def new (seed : Nat) : Predictor where
  game := .new seed
  inputSeq := 0
  unacked := []
  youBazaar := false
  oppBazaar := false
  lockHistory := []
  mismatches := 0
  lastJudged := none
  lastSeenLockSeq := 0

theorem new_game (seed : Nat) : (new seed).game = Game.new seed := by
  simp only [new]

/-- Some side is shopping, by the latest snapshot. -/
def barrier (p : Predictor) : Bool := p.youBazaar || p.oppBazaar

/-- Record the local lock, if there was one since the last call. -/
def noteLock (p : Predictor) : Predictor :=
  if p.game.lockSeq ≠ p.lastSeenLockSeq then
    let kept := if p.lockHistory.length = lockHistoryCap then p.lockHistory.tail else p.lockHistory
    { p with
      lockHistory := kept ++ [(p.game.lockSeq, p.game.lockHash)]
      lastSeenLockSeq := p.game.lockSeq }
  else p

/-- Drive the local game. -/
def drive (p : Predictor) (f : Game → Game) : Predictor := { p with game := f p.game }

/-- One local step.  The host does not call this under the barrier. -/
def tick (p : Predictor) (dtMs : Int) : Predictor := (p.drive (·.tick dtMs)).noteLock

/-- The input is numbered, queued and handed to the host. -/
def enqueue (p : Predictor) (i : Input) : Option (Nat × Input) × Predictor :=
  let p := { p with
    inputSeq := p.inputSeq + 1, unacked := p.unacked ++ [(p.inputSeq + 1, i)] }
  (some (p.inputSeq, i), p.noteLock)

/-- Predict a local input.  Under the barrier only shopping and leaving pass; a refused
buy or sell is not sent, and leaving is sent without being applied. -/
def predict (p : Predictor) (i : Input) : Option (Nat × Input) × Predictor :=
  if p.barrier ∧ ¬isShopping i ∧ i ≠ .leaveBazaar then (none, p)
  else
    match i with
    | .leaveBazaar => p.enqueue i
    | .buyWeapon _ | .sellWeapon _ =>
      let (accepted, g) := applyShop p.game i
      if accepted then { p with game := g }.enqueue i else (none, { p with game := g })
    | i => (p.drive i.applyToGame).enqueue i

/-- Drop the acked inputs and take over the flags of a snapshot. -/
def prune (p : Predictor) (ack : Nat) (youBazaar oppBazaar : Bool) : Predictor :=
  { p with
    youBazaar := youBazaar, oppBazaar := oppBazaar
    unacked := p.unacked.filter fun e => ack < e.1 }

/-- Re-apply the unacked inputs in order. -/
def replayTail (p : Predictor) (g : Game) : Game :=
  p.unacked.foldl (fun g e => replayInput g e.2) g

/-- Start the detection afresh from the local game. -/
def resetDetection (p : Predictor) : Predictor :=
  { p with
    lockHistory := [], mismatches := 0, lastJudged := none, lastSeenLockSeq := p.game.lockSeq }

/-- Restore a keyframe and replay the unacked inputs on top.  The result of the restore
is not looked at. -/
def reconcile (p : Predictor) (bytes : List UInt8) : Predictor :=
  (p.drive fun g => p.replayTail (g.restoreBytes bytes).2).resetDetection

/-- A snapshot: its ack, its two bazaar flags, and a keyframe if it carries one.
Without a keyframe, the end of the side's bazaar releases the local game. -/
def onSnapshot (p : Predictor) (ack : Nat) (youBazaar oppBazaar : Bool)
    (keyframe : Option (List UInt8)) : Predictor :=
  let leaving := p.youBazaar && !youBazaar
  let p := p.prune ack youBazaar oppBazaar
  (match keyframe with
    | some bytes => p.reconcile bytes
    | none => if leaving ∧ p.game.inBazaar then p.drive Game.leaveBazaar else p).noteLock

/-- A relay event of the server. -/
def applyEvent (p : Predictor) (i : Input) : Predictor := (p.drive i.applyToGame).noteLock

/-- The local hash of a lock, if the history still holds it. -/
def recorded (p : Predictor) (lockSeq : Nat) : Option Nat :=
  (p.lockHistory.find? fun e => e.1 = lockSeq).map Prod.snd

/-- Judge the server's hash of a lock; true asks for a keyframe.  A lock is judged once,
and only while the history holds it; the second mismatch in a row reports. -/
def onLockHash (p : Predictor) (lockSeq lockHash : Nat) : Bool × Predictor :=
  if some lockSeq = p.lastJudged then (false, p)
  else
    match p.recorded lockSeq with
    | none => (false, p)
    | some localHash =>
      let p := { p with lastJudged := some lockSeq }
      if localHash = lockHash then (false, { p with mismatches := 0 })
      else if p.mismatches + 1 ≥ 2 then (true, { p with mismatches := 0 })
      else (false, { p with mismatches := p.mismatches + 1 })

end Predictor

end BattleTris
