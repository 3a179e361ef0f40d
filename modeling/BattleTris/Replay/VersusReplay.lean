import BattleTris.Replay.Input

/-!
Recordings of an online match, and their playback.
-/

namespace BattleTris

open Loop

/-- `REPLAY_VERSION`. -/
def replayVersion : Nat := 1

/-- One recorded input: the ticks run before it, as a `u32`, and the board it
drives, 0 for side A. -/
structure VersusFrame where
  tick : Nat
  side : Nat
  input : Input
  deriving DecidableEq

/-- The seeds and the ordered input stream of a match. -/
structure VersusReplay where
  version : Nat
  seedA : Nat
  seedB : Nat
  dtMs : Int
  engineSha : String
  tickCount : Nat
  frames : List VersusFrame
  title : Option String

/-- Playback: the match so far, the ticks executed and the next frame. -/
structure VersusReplayPlayer where
  versus : Versus
  replay : VersusReplay
  executed : Nat
  cursor : Nat

namespace VersusReplayPlayer

def new (replay : VersusReplay) : VersusReplayPlayer :=
  { versus := .new replay.seedA replay.seedB, replay := replay, executed := 0, cursor := 0 }

/-- The next frame is stamped with the current tick. -/
def due (p : VersusReplayPlayer) : Bool :=
  (p.replay.frames[p.cursor]?).any fun f => f.tick = p.executed

/-- Apply the next frame. -/
def applyFrame (p : VersusReplayPlayer) : VersusReplayPlayer :=
  match p.replay.frames[p.cursor]? with
  | some f =>
    { p with
      versus := p.versus.modify (if f.side = 0 then .a else .b) f.input.applyToGame
      cursor := p.cursor + 1 }
  | none => p

def applyDue (p : VersusReplayPlayer) : VersusReplayPlayer :=
  whileN (p.replay.frames.length - p.cursor) due applyFrame p

/-- Tick the match, and drain both queues of events. -/
def advance (p : VersusReplayPlayer) : VersusReplayPlayer :=
  { p with
    versus := ((p.versus.tick p.replay.dtMs).modify .a fun g => g.takeEvents.2).modify .b
      fun g => g.takeEvents.2
    executed := p.executed + 1 }

/-- One tick; false once the recording is exhausted. -/
def step (p : VersusReplayPlayer) : Bool × VersusReplayPlayer :=
  if p.executed ≥ p.replay.tickCount then (false, p) else (true, p.applyDue.advance)

def runToEnd (p : VersusReplayPlayer) : VersusReplayPlayer :=
  whileN (p.replay.tickCount - p.executed) (fun p => p.step.1) (fun p => p.step.2) p

/-- Jump to a tick; backward from the seeds. -/
def seek (p : VersusReplayPlayer) (target : Nat) : VersusReplayPlayer :=
  let target := min target p.replay.tickCount
  let p := if target < p.executed then new p.replay else p
  whileN (target - p.executed) (fun p => p.executed < target && p.step.1) (fun p => p.step.2) p

end VersusReplayPlayer

end BattleTris
