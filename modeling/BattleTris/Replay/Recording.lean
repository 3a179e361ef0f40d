import BattleTris.Ai.Computer
import BattleTris.Lib.Recording

/-!
The recording of one player's game, with or without the computer on the other side, and
its playback.
-/

namespace BattleTris

open Loop Recording

/-- The engine behind a recording.  One side of a game between two players is played back
alone, as practice is. -/
inductive Mode where
  | practice
  | vsComputer
  | vsPlayer
  deriving DecidableEq

/-- An input and the ticks run before it, as a `u32`. -/
structure Frame where
  tick : Nat
  input : Input
  deriving DecidableEq

structure Replay where
  version : Nat
  seed : Nat
  mode : Mode
  aiLevel : Option Nat
  dtMs : Int
  engineSha : String
  tickCount : Nat
  frames : List Frame
  title : Option String

/-! ## Recording -/

structure Recorder where
  seed : Nat
  mode : Mode
  aiLevel : Option Nat
  dtMs : Int
  engineSha : String
  tick : Nat
  frames : List Frame
  title : Option String

namespace Recorder

def new (seed : Nat) (mode : Mode) (aiLevel : Option Nat) (dtMs : Int) (engineSha : String) :
    Recorder :=
  { seed, mode, aiLevel, dtMs, engineSha, tick := 0, frames := [], title := none }

/-- Stamp an input with the clock. -/
def record (r : Recorder) (input : Input) : Recorder :=
  { r with frames := r.frames ++ [⟨r.tick, input⟩] }

/-- The clock stops at the last `u32`. -/
def onTick (r : Recorder) : Recorder := { r with tick := min (r.tick + 1) (2 ^ 32 - 1) }

def toReplay (r : Recorder) : Replay where
  version := replayVersion
  seed := r.seed
  mode := r.mode
  aiLevel := r.aiLevel
  dtMs := r.dtMs
  engineSha := r.engineSha
  tickCount := r.tick
  frames := r.frames
  title := r.title

end Recorder

/-! ## The engine -/

/-- A game alone, or a match against the computer. -/
inductive Engine where
  | single (game : Game)
  | vs (m : ComputerMatch)

namespace Engine

def new (seed : Nat) (mode : Mode) (aiLevel : Option Nat) : Engine :=
  match mode with
  | .practice | .vsPlayer => .single (.new seed)
  | .vsComputer => .vs (.new seed (aiLevel.getD 0))

/-- An input goes to the human side. -/
def apply (i : Input) : Engine → Engine
  | .single g => .single (i.applyToGame g)
  | .vs m => .vs (m.apply i)

def tick (dtMs : Int) : Engine → Engine
  | .single g => .single (g.tick dtMs)
  | .vs m => .vs (m.tick dtMs)

/-- Throw the events for the host away. -/
def drain : Engine → Engine
  | .single g => .single g.takeEvents.2
  | .vs m => .vs m.drainEvents.2

def player : Engine → Game
  | .single g => g
  | .vs m => m.player

def ai : Engine → Option Game
  | .single _ => none
  | .vs m => some m.ai

end Engine

/-! ## Playback -/

structure ReplayPlayer where
  engine : Engine
  replay : Replay
  executed : Nat
  cursor : Nat

namespace ReplayPlayer

def new (replay : Replay) : ReplayPlayer where
  engine := .new replay.seed replay.mode replay.aiLevel
  replay := replay
  executed := 0
  cursor := 0

/-- The next frame is stamped with the current tick. -/
def due (p : ReplayPlayer) : Bool :=
  (p.replay.frames[p.cursor]?).any fun f => f.tick = p.executed

/-- Apply the next frame. -/
def applyFrame (p : ReplayPlayer) : ReplayPlayer :=
  match p.replay.frames[p.cursor]? with
  | some f => { p with engine := p.engine.apply f.input, cursor := p.cursor + 1 }
  | none => p

def applyDue (p : ReplayPlayer) : ReplayPlayer :=
  whileN (p.replay.frames.length - p.cursor) due applyFrame p

/-- Tick the engine, and drain its events. -/
def advance (p : ReplayPlayer) : ReplayPlayer :=
  { p with engine := (p.engine.tick p.replay.dtMs).drain, executed := p.executed + 1 }

/-- One tick; false once the recording is exhausted. -/
def step (p : ReplayPlayer) : Bool × ReplayPlayer :=
  if p.executed ≥ p.replay.tickCount then (false, p) else (true, p.applyDue.advance)

def runToEnd (p : ReplayPlayer) : ReplayPlayer :=
  whileN (p.replay.tickCount - p.executed) (fun p => p.step.1) (fun p => p.step.2) p

/-- Jump to a tick; backward from the seed. -/
def seek (p : ReplayPlayer) (target : Nat) : ReplayPlayer :=
  let target := min target p.replay.tickCount
  let p := if target < p.executed then new p.replay else p
  whileN (target - p.executed) (fun p => p.executed < target && p.step.1) (fun p => p.step.2) p

def tickIndex (p : ReplayPlayer) : Nat := p.executed

def player (p : ReplayPlayer) : Game := p.engine.player

def ai (p : ReplayPlayer) : Option Game := p.engine.ai

/-! ### Where a player stands -/

/-- The frames as the library has them. -/
def stamped (frames : List Frame) : List (Nat × Input) := frames.map fun f => (f.tick, f.input)

end ReplayPlayer

/-- The engine as a device of its host. -/
def Engine.device (dtMs : Int) : Device Engine Input where
  apply := Engine.apply
  tick := Engine.tick dtMs
  read := Engine.drain

namespace ReplayPlayer

/-- The player of `r` after `n` ticks. -/
def playedTo (r : Replay) (n : Nat) : ReplayPlayer where
  engine := (Engine.device r.dtMs).replay (stamped r.frames) (.new r.seed r.mode r.aiLevel) n
  replay := r
  executed := n
  cursor := ((stamped r.frames).filter fun f => f.1 < n).length

/-- The stamps are in order. -/
def Ordered (r : Replay) : Prop := (stamped r.frames).Pairwise fun f g => f.1 ≤ g.1

variable {r : Replay}

/-- The playing of the frames of one tick, from a player that stands before them. -/
def midway (r : Replay) (n i : Nat) : ReplayPlayer :=
  { playedTo r n with
    engine := ((block (stamped r.frames) n).take i).foldl (fun e i => e.apply i)
      (playedTo r n).engine
    cursor := (playedTo r n).cursor + i }

theorem frame_ahead (ordered : Ordered r) (n i : Nat) :
    (r.frames[(playedTo r n).cursor + i]?).map (fun f => (f.tick, f.input)) =
      ((stamped r.frames).filter (fun f => f.1 = n) ++
        (stamped r.frames).filter fun f => n < f.1)[i]? := by
  rw [← List.getElem?_map]
  exact sorted_ahead ordered n i

theorem midway_go (ordered : Ordered r) {n i : Nat}
    (less : i < (block (stamped r.frames) n).length) :
    (midway r n i).due = true ∧ (midway r n i).applyFrame = midway r n (i + 1) := by
  have ahead := frame_ahead ordered n i
  have within : i < ((stamped r.frames).filter fun f => f.1 = n).length := by
    rw [block, List.length_map] at less
    exact less
  rw [List.getElem?_append_left within] at ahead
  cases found : ((stamped r.frames).filter fun f => f.1 = n)[i]? with
  | none =>
    rw [List.getElem?_eq_none_iff] at found
    omega
  | some stampedFrame =>
    have now : stampedFrame.1 = n := by
      have mem := List.mem_of_getElem? found
      simpa using (List.mem_filter.mp mem).2
    have input : (block (stamped r.frames) n)[i]? = some stampedFrame.2 := by
      rw [block, List.getElem?_map, found]
      rfl
    rw [found] at ahead
    obtain ⟨f, next, rfl⟩ := Option.map_eq_some_iff.mp ahead
    have here : (midway r n i).replay.frames[(midway r n i).cursor]? = some f := next
    refine ⟨?_, ?_⟩
    · unfold due
      rw [here]
      exact decide_eq_true now
    · unfold applyFrame
      rw [here]
      unfold midway
      dsimp only
      rw [List.take_add_one, input, List.foldl_append]
      rfl

theorem midway_stop (ordered : Ordered r) (n : Nat) :
    (midway r n (block (stamped r.frames) n).length).due = false := by
  have ahead := frame_ahead ordered n (block (stamped r.frames) n).length
  have length : (block (stamped r.frames) n).length =
      ((stamped r.frames).filter fun f => f.1 = n).length := List.length_map _
  rw [length, List.getElem?_append_right le_rfl, ← length] at ahead
  unfold due
  cases found : (midway r n (block (stamped r.frames) n).length).replay.frames[
      (midway r n (block (stamped r.frames) n).length).cursor]? with
  | none => rfl
  | some f =>
    have next : r.frames[(playedTo r n).cursor + (block (stamped r.frames) n).length]? = some f :=
      found
    rw [next] at ahead
    have mem := List.mem_of_getElem? ahead.symm
    have later : n < f.tick := by simpa using (List.mem_filter.mp mem).2
    have apart : f.tick ≠ n := Nat.ne_of_gt later
    exact decide_eq_false apart

/-- A step plays the frames of its tick. -/
theorem step_playedTo (ordered : Ordered r) {n : Nat} (less : n < r.tickCount) :
    (playedTo r n).step = (true, playedTo r (n + 1)) := by
  have length : ((stamped r.frames).filter fun f => f.1 < n + 1).length ≤ r.frames.length := by
    have stampedLength : (stamped r.frames).length = r.frames.length := List.length_map _
    rw [← stampedLength]
    exact List.length_filter_le _ _
  have cursor := before_succ (stamped r.frames) n
  have start : (playedTo r n).cursor = ((stamped r.frames).filter fun f => f.1 < n).length := rfl
  have applied : (playedTo r n).applyDue = midway r n (block (stamped r.frames) n).length := by
    refine whileN_chain (midway r n) (fun i less => midway_go ordered less)
      (midway_stop ordered n) ?_
    change _ ≤ r.frames.length - (playedTo r n).cursor
    omega
  have running : ¬(playedTo r n).executed ≥ (playedTo r n).replay.tickCount := not_le.mpr less
  unfold step
  rw [if_neg running, applied]
  unfold advance midway playedTo
  dsimp only
  rw [List.take_length, before_succ]
  rfl

/-- Wherever the player stands, a seek takes it to its target, or to the end. -/
theorem seek_playedTo (ordered : Ordered r) (n target : Nat) :
    (playedTo r n).seek target = playedTo r (min target r.tickCount) := by
  have forward (k : Nat) (le : k ≤ min target r.tickCount) :
      whileN (min target r.tickCount - k)
        (fun p => p.executed < min target r.tickCount && p.step.1) (fun p => p.step.2)
        (playedTo r k) = playedTo r (min target r.tickCount) := by
    have arrive : k + (min target r.tickCount - k) = min target r.tickCount := by omega
    have run : whileN (min target r.tickCount - k)
        (fun p => p.executed < min target r.tickCount && p.step.1) (fun p => p.step.2)
        (playedTo r (k + 0)) = playedTo r (k + (min target r.tickCount - k)) := by
      refine whileN_chain (fun i => playedTo r (k + i)) (fun i less => ?_) ?_ le_rfl
      · have stepped := step_playedTo ordered (r := r) (n := k + i) (by omega)
        have behind : (playedTo r (k + i)).executed < min target r.tickCount := by
          change k + i < _
          omega
        simp only [stepped, behind, decide_true, Bool.and_self, true_and]
        rfl
      · rw [arrive]
        have there : ¬(playedTo r (min target r.tickCount)).executed < min target r.tickCount :=
          Nat.lt_irrefl _
        simp only [there, decide_false, Bool.false_and]
    rw [arrive] at run
    exact run
  unfold seek
  change whileN (_ - (if min target r.tickCount < n then new r else playedTo r n).executed) _ _
    (if min target r.tickCount < n then new r else playedTo r n) = _
  split
  · have fresh : new r = playedTo r 0 := by
      unfold new playedTo
      simp
      rfl
    rw [fresh]
    exact forward 0 (Nat.zero_le _)
  · next ahead => exact forward n (not_lt.mp ahead)

/-- What the user of a player asks of it. -/
inductive Move where
  | step
  | seek (target : Nat)

def move (p : ReplayPlayer) : Move → ReplayPlayer
  | .step => p.step.2
  | .seek target => p.seek target

/-- The tick a move from the tick `n` leads to. -/
def lands (count n : Nat) : Move → Nat
  | .step => min (n + 1) count
  | .seek target => min target count

theorem move_playedTo (ordered : Ordered r) {n : Nat} (le : n ≤ r.tickCount) (m : Move) :
    (playedTo r n).move m = playedTo r (lands r.tickCount n m) := by
  cases m with
  | step =>
    rcases Nat.lt_or_ge n r.tickCount with less | ended
    · have next : lands r.tickCount n .step = n + 1 := min_eq_left less
      rw [next]
      exact congrArg Prod.snd (step_playedTo ordered less)
    · have stay : lands r.tickCount n .step = n := by
        unfold lands
        dsimp only
        omega
      have stopped : (playedTo r n).executed ≥ (playedTo r n).replay.tickCount := ended
      rw [stay, move, step, if_pos stopped]
  | seek target => exact seek_playedTo ordered n target

theorem moves_playedTo (ordered : Ordered r) (moves : List Move) :
    moves.foldl (lands r.tickCount) 0 ≤ r.tickCount ∧
      moves.foldl move (new r) = playedTo r (moves.foldl (lands r.tickCount) 0) := by
  induction moves using List.reverseRecOn with
  | nil =>
    refine ⟨Nat.zero_le _, ?_⟩
    unfold playedTo new
    simp
    rfl
  | append_singleton moves m ih =>
    obtain ⟨le, played⟩ := ih
    rw [List.foldl_append, List.foldl_append, played]
    refine ⟨?_, move_playedTo ordered le m⟩
    cases m with
    | step => exact min_le_right _ _
    | seek target => exact min_le_right _ _

end ReplayPlayer

/-! ## A recorded session -/

/-- Two engines whose games are equal in every field but their event queues, and whose
matches differ in the events for the host alone. -/
inductive Engine.Same : Engine → Engine → Prop where
  | single {g h : Game} : g.SameButEvents h → Same (.single g) (.single h)
  | vs {m m' : ComputerMatch} : m.drained = m'.drained → Same (.vs m) (.vs m')

theorem ComputerMatch.drained_tick {m m' : ComputerMatch} (same : m.drained = m'.drained)
    (dt : Int) : (m.tick dt).drained = (m'.tick dt).drained := by
  have alone (m : ComputerMatch) : (m.tick dt).drained = (m.drained.tick dt).drained := by
    conv_lhs => rw [← m.trailing_drained, tick_trailing, drained_trailing]
  rw [alone m, same, ← alone m']

theorem ComputerMatch.drained_apply {m m' : ComputerMatch} (same : m.drained = m'.drained)
    (i : Input) : (m.apply i).drained = (m'.apply i).drained :=
  congrArg (fun m : ComputerMatch => m.apply i) same

/-- The engines of a host and of a player go on alike, whatever either of them drains. -/
theorem Engine.respects (dtMs : Int) : (Engine.device dtMs).Respects Engine.Same where
  refl := by
    rintro (g | m)
    · exact .single rfl
    · exact .vs rfl
  apply := by
    rintro i _ _ (same | same)
    · exact .single (same.applyToGame i)
    · exact .vs (ComputerMatch.drained_apply same i)
  tick := by
    rintro _ _ (same | same)
    · exact .single (same.act (.tick dtMs))
    · exact .vs (ComputerMatch.drained_tick same dtMs)
  readLeft := by
    rintro _ _ (same | same)
    · exact .single same
    · exact .vs same
  readRight := by
    rintro _ _ (same | same)
    · exact .single same
    · exact .vs same

/-- The live engine and its recorder. -/
structure Session where
  engine : Engine
  recorder : Recorder

namespace Session

def start (seed : Nat) (mode : Mode) (aiLevel : Option Nat) (dtMs : Int) (engineSha : String) :
    Session where
  engine := .new seed mode aiLevel
  recorder := .new seed mode aiLevel dtMs engineSha

/-- The host records an input when it applies it, and a tick after it; it may drain the events at
any time. -/
def act (s : Session) : Act Input → Session
  | .input i => ⟨s.engine.apply i, s.recorder.record i⟩
  | .tick => ⟨s.engine.tick s.recorder.dtMs, s.recorder.onTick⟩
  | .read => ⟨s.engine.drain, s.recorder⟩

def run (s : Session) (acts : List (Act Input)) : Session := acts.foldl act s

variable (seed : Nat) (mode : Mode) (aiLevel : Option Nat) (dtMs : Int) (engineSha : String)

/-- What the recorder has after some acts of a session. -/
structure Recorded (s : Session) (acts : List (Act Input)) : Prop where
  seeded : s.recorder.seed = seed
  moded : s.recorder.mode = mode
  levelled : s.recorder.aiLevel = aiLevel
  timed : s.recorder.dtMs = dtMs
  engine : s.engine = (Engine.device dtMs).live (.new seed mode aiLevel) acts
  tick : s.recorder.tick = min (ticks acts) (2 ^ 32 - 1)
  frames : ReplayPlayer.stamped s.recorder.frames = capped (2 ^ 32 - 1) (framesFrom 0 acts)

variable {seed mode aiLevel dtMs}

theorem recorded_run (acts : List (Act Input)) :
    Recorded seed mode aiLevel dtMs ((start seed mode aiLevel dtMs engineSha).run acts) acts := by
  induction acts using List.reverseRecOn with
  | nil => exact ⟨rfl, rfl, rfl, rfl, rfl, rfl, rfl⟩
  | append_singleton acts a ih =>
    obtain ⟨seeded, moded, levelled, timed, engine, tick, frames⟩ := ih
    unfold run at *
    rw [List.foldl_append]
    have live : (Engine.device dtMs).live (.new seed mode aiLevel) (acts ++ [a]) =
        (Engine.device dtMs).act ((Engine.device dtMs).live (.new seed mode aiLevel) acts) a :=
      List.foldl_append
    rw [← engine] at live
    cases a with
    | input i =>
      refine ⟨seeded, moded, levelled, timed, live.symm, ?_, ?_⟩
      · rw [ticks_append]
        exact tick
      · rw [framesFrom_append, capped, List.map_append, ← capped, ← frames]
        change ReplayPlayer.stamped (_ ++ [⟨_, i⟩]) = _
        rw [tick, Nat.zero_add]
        exact List.map_append
    | tick =>
      refine ⟨seeded, moded, levelled, timed, ?_, ?_, ?_⟩
      · rw [live]
        change Engine.tick _ _ = _
        rw [timed]
        rfl
      · rw [ticks_append]
        change min (Recorder.tick _ + 1) _ = min (ticks acts + 1) _
        rw [tick]
        omega
      · rw [framesFrom_append, capped, List.map_append, ← capped, ← frames]
        exact (List.append_nil _).symm
    | read =>
      refine ⟨seeded, moded, levelled, timed, live.symm, ?_, ?_⟩
      · rw [ticks_append]
        exact tick
      · rw [framesFrom_append, capped, List.map_append, ← capped, ← frames]
        exact (List.append_nil _).symm

theorem engine_run (acts : List (Act Input)) :
    ((start seed mode aiLevel dtMs engineSha).run acts).engine =
      (Engine.device dtMs).live (.new seed mode aiLevel) acts :=
  (recorded_run engineSha acts).engine

/-- Wherever a sequence of moves takes the player of a recording, its games are those of
the live session right after as many ticks, but for their event queues. -/
theorem replay_reproduces (acts : List (Act Input)) (moves : List ReplayPlayer.Move) :
    let session := (start seed mode aiLevel dtMs engineSha).run acts
    let p := moves.foldl ReplayPlayer.move (.new session.recorder.toReplay)
    let live := ((start seed mode aiLevel dtMs engineSha).run (upTo p.tickIndex acts)).engine
    p.tickIndex = moves.foldl (ReplayPlayer.lands session.recorder.tick) 0 ∧
      p.tickIndex ≤ ticks acts ∧ p.player.SameButEvents live.player ∧
      Option.Rel Game.SameButEvents p.ai live.ai := by
  intro session p live
  have recorded : session.Recorded seed mode aiLevel dtMs acts := recorded_run engineSha acts
  obtain ⟨seeded, moded, levelled, timed, -, tick, frames⟩ := recorded
  have ordered : ReplayPlayer.Ordered session.recorder.toReplay := by
    unfold ReplayPlayer.Ordered
    change (ReplayPlayer.stamped session.recorder.frames).Pairwise _
    rw [frames]
    exact capped_sorted _ (framesFrom_sorted 0 acts)
  obtain ⟨within, played⟩ := ReplayPlayer.moves_playedTo ordered moves
  generalize place : moves.foldl (ReplayPlayer.lands session.recorder.toReplay.tickCount) 0 = n
    at within played
  change n ≤ session.recorder.tick at within
  change session.recorder.tick = _ at tick
  have le : n ≤ ticks acts := by omega
  have stands : p = ReplayPlayer.playedTo session.recorder.toReplay n := played
  have index : p.tickIndex = n := by rw [stands]; rfl
  -- before the clock stops every block is the one the host filled
  have blocks : ∀ k < n, block (ReplayPlayer.stamped session.recorder.frames) k =
      block (framesFrom 0 acts) k := by
    intro k less
    rw [show ReplayPlayer.stamped session.recorder.frames = _ from frames]
    exact block_capped (by omega) _
  have engine : p.engine =
      (Engine.device dtMs).replay (framesFrom 0 acts) (.new seed mode aiLevel) n := by
    rw [stands]
    change (Engine.device session.recorder.dtMs).replay _
      (.new session.recorder.seed session.recorder.mode session.recorder.aiLevel) n = _
    rw [seeded, moded, levelled, timed]
    exact Device.replay_congr _ _ blocks
  have same : Engine.Same live p.engine := by
    have followed := (Engine.respects dtMs).replay_live (.new seed mode aiLevel) le
    rw [engine, show live = _ from engine_run engineSha (upTo p.tickIndex acts), index]
    exact followed
  refine ⟨index.trans place.symm, index ▸ le, ?_⟩
  unfold ReplayPlayer.player ReplayPlayer.ai
  generalize p.engine = replayed at same
  generalize live = live' at same
  cases same with
  | single same => exact ⟨same.symm, .none⟩
  | @vs m m' same =>
    have players : m.drained.player = m'.drained.player := by rw [same]
    have ais : m.drained.ai = m'.drained.ai := by rw [same]
    exact ⟨congrArg Game.drained players.symm, .some (congrArg Game.drained ais.symm)⟩

end Session

end BattleTris
