import BattleTris.Core.RelaySpec
import BattleTris.Lib.Run
import BattleTris.Replay.Input

/-!
Everything that can happen to one game and to a match, and the games and matches
that play can reach.
-/

namespace BattleTris

open Loop

namespace Game

/-! ## Actions -/

/-- What a host does to a game: an input of its player or of the relay, a tick, a
waiting board, a new arsenal, or a drain of its events. -/
inductive Action where
  | input (i : Input)
  | tick (dtMs : Int)
  | queueBoardSwap (cells : List Int)
  | setArsenal (arsenal : Arsenal)
  | takeEvents

def act (g : Game) : Action → Game
  | .input i => i.applyToGame g
  | .tick dtMs => g.tick dtMs
  | .queueBoardSwap cells => g.queueBoardSwap cells
  | .setArsenal arsenal => { g with arsenal := arsenal }
  | .takeEvents => g.takeEvents.2

/-- A board put in waiting is the export of some board of the standard size. -/
def StandardSwap (_ : Game) (a : Action) : Prop :=
  ∀ cells, a = .queueBoardSwap cells →
    ∃ other : Game, other.board.width = btBoardWth ∧ other.board.height = btBoardHgt ∧
      cells = other.exportBoard

/-- A game that some play of actions allowed by `ok` leads to. -/
def Reached (ok : Game → Action → Prop) (g : Game) : Prop :=
  ∃ seed actions, Run ok act (new seed) actions g

theorem Reached.invariant {ok : Game → Action → Prop} {P : Game → Prop} {g : Game}
    (reached : Reached ok g) (init : ∀ seed, P (new seed))
    (step : ∀ g a, P g → ok g a → P (g.act a)) : P g := by
  obtain ⟨seed, actions, run⟩ := reached
  exact run.invariant step (init seed)

theorem Reached.mono {ok ok' : Game → Action → Prop} {g : Game} (reached : Reached ok g)
    (weaker : ∀ g a, ok g a → ok' g a) : Reached ok' g := by
  obtain ⟨seed, actions, run⟩ := reached
  exact ⟨seed, actions, run.mono weaker⟩

theorem reached_new (ok : Game → Action → Prop) (seed : Nat) : Reached ok (new seed) :=
  ⟨seed, [], .nil⟩

theorem Reached.act {ok : Game → Action → Prop} {g : Game} (reached : Reached ok g)
    {a : Action} (allowed : ok g a) : Reached ok (g.act a) := by
  obtain ⟨seed, actions, run⟩ := reached
  exact ⟨seed, actions ++ [a], run.snoc allowed⟩

/-! ## Regular games -/

theorem Regular.onToken {f : WeaponToken → Game → Game}
    (keep : ∀ t g, Regular g → Regular (f t g)) {g : Game} (regular : g.Regular)
    (index : Int) : (Input.onToken index f g).Regular := by
  unfold Input.onToken
  cases WeaponToken.fromIndex index with
  | none => exact regular
  | some t => exact keep t g regular

theorem Regular.applyToGame {g : Game} (regular : g.Regular) (i : Input) :
    (i.applyToGame g).Regular := by
  cases i with
  | moveLeft => exact regular.shift g.leftX
  | moveRight => exact regular.shift g.rightX
  | rotate => exact regular.rotate
  | beginDrop => exact regular.dropFor _
  | aiDrop => exact regular.dropFor _
  | softDrop => exact regular.softDrop
  | launchWeapon slot => exact regular.launchWeapon slot
  | buyWeapon t => exact onToken (fun t g regular => regular.buyWeapon t) regular t
  | sellWeapon t => exact onToken (fun t g regular => regular.sellWeapon t) regular t
  | leaveBazaar => exact regular
  | setPaused p => exact regular
  | receiveWeapon t =>
    exact onToken (f := fun t g => g.receiveWeapon t) (fun t g regular => regular) regular t
  | receiveOpScore score lines funds => exact regular.receiveOpScore score lines funds
  | addFunds amount => exact regular.addFunds amount
  | grantWeapon t =>
    exact onToken (f := fun t g => (g.grantWeapon t).2) (fun t g regular => regular) regular t

theorem Regular.act {g : Game} (regular : g.Regular) {a : Action} (swap : g.StandardSwap a) :
    (g.act a).Regular := by
  cases a with
  | input i => exact regular.applyToGame i
  | tick dtMs => exact regular.tick dtMs
  | queueBoardSwap cells =>
    obtain ⟨other, width, height, rfl⟩ := swap cells rfl
    exact regular.queueBoardSwap (length_standardExport width height)
  | setArsenal arsenal => exact regular
  | takeEvents => exact regular

theorem Reached.regular {g : Game} (reached : Reached StandardSwap g) : g.Regular :=
  reached.invariant regular_new fun _ _ regular swap => regular.act swap

end Game

/-! ## Matches -/

/-- What a host does to a match: an input of one side, or a tick. -/
inductive MatchEvent where
  | input (s : Side) (i : Input)
  | tick (dtMs : Int)

namespace Versus

def step (v : Versus) : MatchEvent → Versus
  | .input s i => v.modify s i.applyToGame
  | .tick dtMs => v.tick dtMs

/-- A match that some run of inputs and ticks leads to. -/
def Reached (v : Versus) : Prop :=
  ∃ seedA seedB events, Run (fun _ _ => True) step (new seedA seedB) events v

theorem Reached.regular {v : Versus} (reached : v.Reached) (x : Side) : (v.game x).Regular := by
  obtain ⟨seedA, seedB, events, run⟩ := reached
  refine run.invariant (P := fun v => ∀ x, (v.game x).Regular) (fun v e regular _ x => ?_)
    (fun x => ?_) x
  · cases e with
    | input s i =>
      change ((v.modify s i.applyToGame).game x).Regular
      rw [game_modify]
      split
      · exact (regular x).applyToGame i
      · exact regular x
    | tick dtMs => exact regular_tick regular dtMs x
  · cases x
    · exact Game.regular_new seedA
    · exact Game.regular_new seedB

theorem reached_new (seedA seedB : Nat) : (new seedA seedB).Reached :=
  ⟨seedA, seedB, [], .nil⟩

theorem games_reached_new (ok : Game → Game.Action → Prop) (seedA seedB : Nat) (x : Side) :
    ((new seedA seedB).game x).Reached ok := by
  cases x
  · exact Game.reached_new ok seedA
  · exact Game.reached_new ok seedB

theorem Reached.step {v : Versus} (reached : v.Reached) (e : MatchEvent) :
    (v.step e).Reached := by
  obtain ⟨seedA, seedB, events, run⟩ := reached
  exact ⟨seedA, seedB, events ++ [e], run.snoc trivial⟩

end Versus

namespace Game

/-! ## Games that agree but for their events -/

/-- The game with its event queue drained. -/
def drained (g : Game) : Game := { g with events := [] }

/-- Equal in every field but the event queue. -/
def SameButEvents (g h : Game) : Prop := g.drained = h.drained

theorem sameButEvents_iff {g h : Game} :
    g.SameButEvents h ↔ g.SameCore h ∧ g.score.opFunds = h.score.opFunds := by
  constructor
  · intro same
    have fields : g.drained = h.drained := same
    have cores : g.drained.core = h.drained.core := by rw [fields]
    have funds : g.drained.score.opFunds = h.drained.score.opFunds := by rw [fields]
    exact ⟨cores, funds⟩
  · rintro ⟨cores, funds⟩
    have left : g.core.framed [] g.score.opFunds = g.drained := by
      simp [core, framed, dressed, frame, drained]
    have right : h.core.framed [] h.score.opFunds = h.drained := by
      simp [core, framed, dressed, frame, drained]
    rw [SameButEvents, ← left, ← right, funds, show g.core = h.core from cores]

/-- An operation that commutes with every frame leaves the funds mirror alone. -/
theorem opFunds_of_framed {f : Game → Game}
    (comm : ∀ es n g, f (framed es n g) = framed es n (f g)) (g : Game) :
    (f g).score.opFunds = g.score.opFunds := by
  have step := comm [] g.score.opFunds g
  rw [show g.framed [] g.score.opFunds = g by simp [framed, dressed, frame]] at step
  rw [step]
  rfl

/-- An operation that commutes with every frame respects games that agree but for
their events. -/
theorem SameButEvents.map {f : Game → Game}
    (comm : ∀ es n g, f (framed es n g) = framed es n (f g)) {g h : Game}
    (same : g.SameButEvents h) : (f g).SameButEvents (f h) := by
  obtain ⟨cores, funds⟩ := sameButEvents_iff.mp same
  rw [sameButEvents_iff, opFunds_of_framed comm, opFunds_of_framed comm]
  exact ⟨cores.map comm, funds⟩

theorem SameButEvents.onToken {f : WeaponToken → Game → Game}
    (comm : ∀ t es n g, f t (framed es n g) = framed es n (f t g)) {g h : Game}
    (same : g.SameButEvents h) (index : Int) :
    (Input.onToken index f g).SameButEvents (Input.onToken index f h) := by
  unfold Input.onToken
  cases WeaponToken.fromIndex index with
  | none => exact same
  | some t => exact same.map (comm t)

theorem SameButEvents.applyToGame {g h : Game} (same : g.SameButEvents h) (i : Input) :
    (i.applyToGame g).SameButEvents (i.applyToGame h) := by
  cases i with
  | moveLeft => exact same.map fun es n => moveLeft_dressed (frame es n)
  | moveRight => exact same.map fun es n => moveRight_dressed (frame es n)
  | rotate => exact same.map fun es n => rotate_dressed (frame es n)
  | beginDrop => exact same.map fun es n g => dropFor_dressed (frame es n) g _
  | aiDrop => exact same.map fun es n g => dropFor_dressed (frame es n) g _
  | softDrop => exact same.map fun es n => softDrop_dressed (frame es n)
  | launchWeapon slot => exact same.map fun es n g => launchWeapon_dressed (frame es n) g slot
  | buyWeapon t => exact same.onToken (fun t es n g => buyWeapon_framed es n g t) t
  | sellWeapon t => exact same.onToken (fun t es n g => sellWeapon_framed es n g t) t
  | leaveBazaar => exact same.map fun _ _ _ => rfl
  | setPaused p => exact same.map fun _ _ _ => rfl
  | receiveWeapon t => exact same.onToken (fun _ _ _ _ => rfl) t
  | receiveOpScore score lines funds =>
    -- the one input that writes the funds mirror
    have fields := (sameButEvents_iff.mp same).1
    have written (g : Game) : (g.receiveOpScore score lines funds).score.opFunds = funds := by
      rw [receiveOpScore_funds g score lines funds funds]
      rfl
    exact sameButEvents_iff.mpr ⟨fields.receiveOpScore score lines funds funds,
      (written g).trans (written h).symm⟩
  | addFunds amount => exact same.map fun es n g => addFunds_framed es n g amount
  | grantWeapon t => exact same.onToken (fun t es n g => grantWeapon_dressed (frame es n) g t) t

theorem SameButEvents.act {g h : Game} (same : g.SameButEvents h) (a : Action) :
    (g.act a).SameButEvents (h.act a) := by
  cases a with
  | input i => exact same.applyToGame i
  | tick dtMs => exact same.map (f := (·.tick dtMs)) fun es n g => tick_framed es n g dtMs
  | queueBoardSwap cells => exact same.map (f := (·.queueBoardSwap cells)) fun _ _ _ => rfl
  | setArsenal arsenal =>
    exact same.map (f := fun g => { g with arsenal := arsenal }) fun _ _ _ => rfl
  | takeEvents => exact same

theorem SameButEvents.run {g h : Game} (same : g.SameButEvents h) (actions : List Action) :
    (actions.foldl Game.act g).SameButEvents (actions.foldl Game.act h) := by
  induction actions generalizing g h with
  | nil => exact same
  | cons a actions ih => exact ih (same.act a)

end Game

end BattleTris
