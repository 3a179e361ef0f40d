import BattleTris.Server.Bout

/-!
The tick loop of a hosted match, and the message handlers that feed it.

The loop takes one queued message, or one step of its own, at a time; the handlers
of the connections run in between.  The spectators' stream and what happens once
the match is settled are left out.
-/

namespace BattleTris

/-- A socket, by its id. -/
abbrev ConnId := Nat

/-- `BOUT_INPUT_CAP`. -/
def boutInputCap : Nat := 256

/-- The capacity of the control channel. -/
def boutControlCap : Nat := 4

/-- `REJOIN_GRACE`, in milliseconds. -/
def rejoinGrace : Nat := 12000

/-- `TICK_MS`. -/
def tickMillis : Int := 16

/-- An input on its way to the loop.  The loop does not know its sender. -/
structure BoutInput where
  side : Side
  input : Input
  seq : Nat
  sender : ConnId
  deriving DecidableEq

inductive BoutControl where
  | reattach (side : Side) (newId : ConnId)
  | forfeit (side : Side)
  | addSpectator
  | debugGrant (side : Side) (weapon : Option WeaponToken) (funds : Option Int)
  | resync (side : Side)

/-- A message to a client. -/
inductive ServerFrame where
  | matchStart (side : Side) (seed : Nat)
  | snapshot (s : Snapshot)
  | event (input : Input)
  | opponentResumed
  | opponentReconnecting
  | heartbeat

/-- A message with the relay effects its side had felt when it was sent. -/
structure Sent where
  frame : ServerFrame
  effects : List Input

/-- Where the loop stands: draining the controls, draining the inputs, or done, with
the winner if there is one to rate. -/
inductive Stage where
  | control
  | input
  | done (aWon : Option Bool)
  deriving DecidableEq

/-- The locals of `run_bout`, its two channels, and the sockets.  The last fields are
the history: the relay effects each side has felt, the messages each socket took, the
inputs the loop handed to the bout and those the handlers were given, and the number
of the last input for a side since a socket was attached to it. -/
structure BoutLoop where
  bout : Bout
  frame : Nat
  wantKeyframe : Side → Bool
  connected : Side → Bool
  graceUntil : Option Nat
  resyncLastGrant : Side → Option Nat
  human : Side → Bool
  tx : Side → ConnId
  forfeitBy : Option Side
  stage : Stage
  inputRx : List BoutInput
  controlRx : List BoutControl
  /-- The side a registered connection sends its inputs to. -/
  binding : ConnId → Option Side
  /-- A closed socket takes no messages. -/
  closed : ConnId → Bool
  effects : Side → List Input
  sent : ConnId → List Sent
  handed : List BoutInput
  offered : List BoutInput
  lastSeq : Side → Nat

namespace BoutLoop

def seedOf (l : BoutLoop) : Side → Nat
  | .a => l.bout.seedA
  | .b => l.bout.seedB

/-! ## Sending -/

/-- The socket of a side takes messages. -/
def reaches (l : BoutLoop) (side : Side) : Bool := !l.closed (l.tx side)

/-- Send to a side's socket; a closed one takes nothing. -/
def post (l : BoutLoop) (side : Side) (frame : ServerFrame) : BoutLoop :=
  if l.reaches side then
    let log := l.sent (l.tx side) ++ [⟨frame, l.effects side⟩]
    { l with sent := Function.update l.sent (l.tx side) log }
  else l

def sendSnapshot (l : BoutLoop) (side : Side) (keyframe spy : Bool) : BoutLoop :=
  l.post side (.snapshot (l.bout.buildSnapshot side keyframe spy))

/-! ## Controls -/

/-- At most one keyframe a second is granted. -/
def resyncGrantAllowed (lastGrant : Option Nat) (now : Nat) : Bool × Option Nat :=
  if lastGrant.all (fun last => now - last ≥ 1000) then (true, some now) else (false, lastGrant)

/-- Both sides are attached: lift the freeze and resync both. -/
def resume (l : BoutLoop) : BoutLoop :=
  let l := ({ l with graceUntil := none }.sendSnapshot .a true true).post .a .opponentResumed
  let l := (l.sendSnapshot .b true true).post .b .opponentResumed
  { l with wantKeyframe := fun _ => true }

/-- A side's new socket: its sequence numbers restart, and it gets the handoff and a
keyframe. -/
def reattach (l : BoutLoop) (side : Side) (newId : ConnId) : BoutLoop :=
  let l := { l with
    tx := Function.update l.tx side newId
    connected := Function.update l.connected side true
    bout := l.bout.resetAck side
    lastSeq := Function.update l.lastSeq side 0 }
  let l := (l.post side (.matchStart side (l.seedOf side))).sendSnapshot side true true
  if l.connected .a ∧ l.connected .b then l.resume else l

def obey (l : BoutLoop) (now : Nat) : BoutControl → BoutLoop
  | .reattach side newId => l.reattach side newId
  | .forfeit side => { l with forfeitBy := some side }
  | .addSpectator => l
  | .debugGrant side weapon funds =>
    { l with
      bout := (l.bout.debugGrant side weapon funds).2
      wantKeyframe := fun _ => true }
  | .resync side =>
    let (allowed, last) := resyncGrantAllowed (l.resyncLastGrant side) now
    { l with
      resyncLastGrant := Function.update l.resyncLastGrant side last
      wantKeyframe :=
        if allowed then Function.update l.wantKeyframe side true else l.wantKeyframe }

def finish (l : BoutLoop) (aWon : Option Bool) : BoutLoop := { l with stage := .done aWon }

/-! ## The freeze -/

/-- Probe a side that still seems attached. -/
def probe (l : BoutLoop) (side : Side) : BoutLoop :=
  if l.connected side then
    { l.post side .heartbeat with
      connected := Function.update l.connected side (l.reaches side) }
  else l

/-- Hold the match while a side is away, and watch the clock. -/
def freeze (l : BoutLoop) (now : Nat) : BoutLoop :=
  if l.graceUntil.any (· ≤ now) then
    l.finish (match l.connected .a, l.connected .b with
      | true, false => some true
      | false, true => some false
      | _, _ => none)
  else
    let l := if l.frame % 32 = 0 then (l.probe .a).probe .b else l
    { l with frame := l.frame + 1, forfeitBy := none }

/-- What follows the controls of a round. -/
def afterControls (l : BoutLoop) (now : Nat) : BoutLoop :=
  match l.forfeitBy with
  | some side => l.finish (some (side = .b))
  | none => if l.connected .a ∧ l.connected .b then { l with stage := .input } else l.freeze now

/-! ## A tick -/

def applyQueued (l : BoutLoop) (i : BoutInput) : BoutLoop :=
  { l with
    bout := (l.bout.applyInput i.side i.input i.seq).2
    handed := l.handed ++ [i] }

/-- Advance the match; what the relay told each side is noted. -/
def tickBout (l : BoutLoop) : BoutLoop :=
  let bout := l.bout.tickMs tickMillis
  let told (side : Side) := (bout.versus.outbox side).map Input.ofRelayEvent
  { l with bout := bout, effects := fun side => l.effects side ++ told side }

def markDirty (l : BoutLoop) : BoutLoop :=
  let (dirty, bout) := l.bout.takeDirty
  { l with bout := bout, wantKeyframe := if dirty then fun _ => true else l.wantKeyframe }

/-- Forward the relay events of a side to its client, in order. -/
def forwardEvents (l : BoutLoop) (side : Side) : BoutLoop :=
  if l.connected side then
    let (events, bout) := l.bout.takeEventsFor side
    events.foldl (fun l e => l.post side (.event e)) { l with bout := bout }
  else l

/-- A side was found gone: a bot forfeits, a human is waited for. -/
def dropped (l : BoutLoop) (now : Nat) : BoutLoop :=
  let aOk := l.connected .a
  let bOk := l.connected .b
  if (!aOk && l.human .a) || (!bOk && l.human .b) then
    let l := { l with graceUntil := some (l.graceUntil.getD (now + rejoinGrace)) }
    let l := if aOk then l.post .a .opponentReconnecting else l
    if bOk then l.post .b .opponentReconnecting else l
  else l.finish (some aOk)

/-- The snapshots of an even frame, which also find the sockets that are gone. -/
def broadcast (l : BoutLoop) (now : Nat) : BoutLoop :=
  let spy := l.frame % 8 = 0
  let keyframe := l.wantKeyframe
  let l := { l with wantKeyframe := fun _ => false }
  let l := (l.sendSnapshot .a (keyframe .a) spy).sendSnapshot .b (keyframe .b) spy
  let l := { l with connected := l.reaches }
  if l.connected .a ∧ l.connected .b then l else l.dropped now

/-- The final frame carries a keyframe to both. -/
def conclude (l : BoutLoop) : BoutLoop :=
  ((l.sendSnapshot .a true true).sendSnapshot .b true true).finish (some (l.bout.result = 1))

/-- Back to the controls, unless the match is settled. -/
def nextRound (l : BoutLoop) : BoutLoop :=
  match l.stage with
  | .done _ => l
  | _ => { l with frame := l.frame + 1, stage := .control, forfeitBy := none }

/-- The rest of a round, once the inputs are drained. -/
def play (l : BoutLoop) (now : Nat) : BoutLoop :=
  let l := ((l.tickBout.markDirty).forwardEvents .a).forwardEvents .b
  if l.bout.isOver then l.conclude
  else (if l.frame % 2 = 0 then l.broadcast now else l).nextRound

/-- The next thing the loop does. -/
def turn (l : BoutLoop) (now : Nat) : BoutLoop :=
  match l.stage with
  | .control =>
    match l.controlRx with
    | c :: rest => { l with controlRx := rest }.obey now c
    | [] => l.afterControls now
  | .input =>
    match l.inputRx with
    | i :: rest => { l with inputRx := rest }.applyQueued i
    | [] => l.play now
  | .done _ => l

/-! ## The handlers -/

/-- `try_send` on the control channel. -/
def control (l : BoutLoop) (c : BoutControl) : BoutLoop :=
  if l.controlRx.length < boutControlCap then { l with controlRx := l.controlRx ++ [c] } else l

/-- `try_send` on the input channel: an input that finds it full is dropped. -/
def input (l : BoutLoop) (conn : ConnId) (input : Input) (seq : Nat) : BoutLoop :=
  match l.binding conn with
  | some side =>
    let i : BoutInput := ⟨side, input, seq, conn⟩
    { l with
      inputRx := if l.inputRx.length < boutInputCap then l.inputRx ++ [i] else l.inputRx
      offered := l.offered ++ [i]
      lastSeq := Function.update l.lastSeq side seq }
  | none => l

/-- A participant's new socket asks for its side; it is bound once the loop will be
told. -/
def rejoin (l : BoutLoop) (conn : ConnId) (side : Side) : BoutLoop :=
  if l.controlRx.length < boutControlCap then
    { l.control (.reattach side conn) with
      binding := Function.update l.binding conn (some side) }
  else l

/-- Ask the loop on behalf of a bound connection. -/
def request (l : BoutLoop) (conn : ConnId) (c : Side → BoutControl) : BoutLoop :=
  match l.binding conn with
  | some side => l.control (c side)
  | none => l

/-- What happens at a running match: a handler takes a message, a socket closes, a
connection is removed from the registry, or the loop moves on. -/
inductive Step where
  | input (conn : ConnId) (input : Input) (seq : Nat)
  | rejoin (conn : ConnId) (side : Side)
  | resync (conn : ConnId)
  | leaveMatch (conn : ConnId)
  | spectate
  | grant (side : Side) (weapon : Option WeaponToken) (funds : Option Int)
  | close (conn : ConnId)
  | remove (conn : ConnId)
  | turn (now : Nat)

def step (l : BoutLoop) : Step → BoutLoop
  | .input conn i seq => l.input conn i seq
  | .rejoin conn side => l.rejoin conn side
  | .resync conn => l.request conn .resync
  | .leaveMatch conn => l.request conn .forfeit
  | .spectate => l.control .addSpectator
  | .grant side weapon funds => l.control (.debugGrant side weapon funds)
  | .close conn => { l with closed := Function.update l.closed conn true }
  | .remove conn => { l with binding := Function.update l.binding conn none }
  | .turn now => l.turn now

/-- A match just handed to the loop: both sockets have their handoff. -/
def start (seedA seedB : Nat) (human : Side → Bool) (connA connB : ConnId) : BoutLoop where
  bout := .new seedA seedB
  frame := 0
  wantKeyframe := fun _ => true
  connected := fun _ => true
  graceUntil := none
  resyncLastGrant := fun _ => none
  human := human
  tx := fun
    | .a => connA
    | .b => connB
  forfeitBy := none
  stage := .control
  inputRx := []
  controlRx := []
  binding := Function.update (Function.update (fun _ => none) connA (some .a)) connB (some .b)
  closed := fun _ => false
  effects := fun _ => []
  sent := Function.update (Function.update (fun _ => []) connA [⟨.matchStart .a seedA, []⟩]) connB
    [⟨.matchStart .b seedB, []⟩]
  handed := []
  offered := []
  lastSeq := fun _ => 0

end BoutLoop

end BattleTris
