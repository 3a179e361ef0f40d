import BattleTris.Match.Lockstep
import BattleTris.Server.Discipline
import BattleTris.Server.Reading
import BattleTris.Server.Sending

/-!
Each relay effect reaches a client once.

The effects a side has felt are what the relay told it, tick by tick; only an exchange
of boards or arsenals goes untold.  Every socket's log of messages has the shape a
reader needs to contain exactly these.
-/

namespace BattleTris

open Versus

/-! ## What the relay does to a game -/

namespace Game

/-- An exchange, which only a keyframe tells. -/
def Action.Exchange : Action → Prop
  | .queueBoardSwap _ => True
  | .setArsenal _ => True
  | _ => False

/-- The effect a client is told. -/
def Action.told : Action → Option Input
  | .input i => some i
  | _ => none

theorem SameCore.act {g h : Game} (same : g.SameCore h) {a : Action}
    (effect : a.told.isSome ∨ a.Exchange) : (g.act a).SameCore (h.act a) := by
  cases a with
  | input i => exact i.applyToGame_sameCore same
  | tick dtMs => rcases effect with told | exchange <;> contradiction
  | queueBoardSwap cells => exact same.map (f := (·.queueBoardSwap cells)) fun _ _ _ => rfl
  | setArsenal arsenal =>
    exact same.map (f := fun g => { g with arsenal := arsenal }) fun _ _ _ => rfl
  | takeEvents => rcases effect with told | exchange <;> contradiction

end Game

/-- From `v` to `v'` the game of `x` felt some effects and exchanges, and nothing else;
its outbox grew by the effects, in order. -/
def Effected (x : Side) (v v' : Versus) : Prop :=
  ∃ trace : List Game.Action, (∀ a ∈ trace, a.told.isSome ∨ a.Exchange) ∧
    (v'.outbox x).map Input.ofRelayEvent =
      (v.outbox x).map Input.ofRelayEvent ++ trace.filterMap Game.Action.told ∧
    (trace.foldl Game.act (v.game x)).SameCore (v'.game x)

namespace Effected

variable {x : Side} {v v' v'' : Versus}

theorem refl (x : Side) (v : Versus) : Effected x v v :=
  ⟨[], fun _ mem => absurd mem List.not_mem_nil, (List.append_nil _).symm, .refl _⟩

theorem sameCore_foldl {g h : Game} (same : g.SameCore h) {trace : List Game.Action}
    (effects : ∀ a ∈ trace, a.told.isSome ∨ a.Exchange) :
    (trace.foldl Game.act g).SameCore (trace.foldl Game.act h) := by
  induction trace generalizing g h with
  | nil => exact same
  | cons a trace ih =>
    exact ih (same.act (effects a List.mem_cons_self)) fun b mem =>
      effects b (List.mem_cons_of_mem a mem)

theorem trans (left : Effected x v v') (right : Effected x v' v'') : Effected x v v'' := by
  obtain ⟨trace, effects, outbox, follows⟩ := left
  obtain ⟨trace', effects', outbox', follows'⟩ := right
  refine ⟨trace ++ trace', fun a mem => ?_, ?_, ?_⟩
  · rcases List.mem_append.mp mem with old | new
    · exact effects a old
    · exact effects' a new
  · rw [outbox', outbox, List.filterMap_append, List.append_assoc]
  · rw [List.foldl_append]
    exact (sameCore_foldl follows effects').trans follows'

/-- Nothing is felt. -/
theorem silent (outbox : v'.outbox x = v.outbox x) (game : (v.game x).SameCore (v'.game x)) :
    Effected x v v' :=
  ⟨[], fun _ mem => absurd mem List.not_mem_nil, by rw [outbox]; exact (List.append_nil _).symm,
    game⟩

/-- One effect is felt, and told. -/
theorem told {e : RelayEvent} (outbox : v'.outbox x = v.outbox x ++ [e])
    (game : ((Input.ofRelayEvent e).applyToGame (v.game x)).SameCore (v'.game x)) :
    Effected x v v' := by
  refine ⟨[.input (.ofRelayEvent e)], fun a mem => ?_, ?_, game⟩
  · obtain rfl := List.mem_singleton.mp mem
    exact .inl rfl
  · rw [outbox, List.map_append]
    rfl

/-- One exchange is felt, untold. -/
theorem exchange {a : Game.Action} (kind : a.Exchange) (untold : a.told = none)
    (outbox : v'.outbox x = v.outbox x) (game : v'.game x = (v.game x).act a) :
    Effected x v v' := by
  refine ⟨[a], fun b mem => ?_, ?_, ?_⟩
  · obtain rfl := List.mem_singleton.mp mem
    exact .inr kind
  · rw [outbox, List.filterMap_cons, untold]
    exact (List.append_nil _).symm
  · rw [game]
    exact .refl _

end Effected

namespace Bout

/-- The games stay regular, and the outboxes as they are. -/
structure Keeps (b b' : Bout) : Prop where
  outbox : b'.versus.outbox = b.versus.outbox
  regular : (∀ s, (b.versus.game s).Regular) → ∀ s, (b'.versus.game s).Regular

namespace Keeps

variable {b b' b'' : Bout}

theorem refl (b : Bout) : Keeps b b := ⟨rfl, id⟩

theorem trans (first : Keeps b b') (second : Keeps b' b'') : Keeps b b'' :=
  ⟨second.outbox.trans first.outbox, fun regular => second.regular (first.regular regular)⟩

theorem modify {b : Bout} {side : Side} {g : Game}
    (regular : (b.versus.game side).Regular → g.Regular) :
    Keeps b { b with versus := b.versus.setGame side g } := by
  refine ⟨outbox_setGame _ _ _, fun before s => ?_⟩
  change ((b.versus.setGame side g).game s).Regular
  rw [game_setGame]
  split
  · exact regular (before side)
  · exact before s

theorem applyInput (b : Bout) (side : Side) (input : Input) (seq : Nat) :
    Keeps b (b.applyInput side input seq).2 := by
  have judged := b.judged_applyInput side input seq
  generalize b.applyInput side input seq = r at judged
  have acked : Keeps b (b.setAck side seq) := ⟨rfl, id⟩
  cases judged with
  | illegal => exact .refl b
  | stale => exact .refl b
  | blocked => exact acked
  | applied =>
    have driven : Keeps (b.setAck side seq) ((b.setAck side seq).drive side input) :=
      modify fun regular => regular.applyToGame input
    have recorded (c : Bout) : Keeps c (c.record side input) := ⟨rfl, id⟩
    exact (acked.trans driven).trans (recorded _)

theorem debugGrant (b : Bout) (side : Side) (weapon : Option WeaponToken) (funds : Option Int) :
    Keeps b (b.debugGrant side weapon funds).2 := by
  have armed (b : Bout) : Keeps b (b.grantWeapon side weapon).2 := by
    cases weapon with
    | none => exact .refl b
    | some t =>
      have granted (g : Game) (regular : g.Regular) : (g.grantWeapon t).2.Regular := regular
      exact modify (granted _)
  have funded (b : Bout) : Keeps b (b.grantFunds side funds).2 := by
    cases funds with
    | none => exact .refl b
    | some amount =>
      unfold grantFunds
      dsimp only
      split
      · exact modify fun regular => regular.addFunds amount
      · exact .refl b
  have recorded (b : Bout) (landed : Bool) (input : Option Input) :
      Keeps b (b.recordGrant side landed input) := by
    obtain ⟨frames, same⟩ := b.recordGrant_eq side landed input
    rw [same]
    exact ⟨rfl, id⟩
  exact ((armed b).trans (funded _)).trans ((recorded _ _ _).trans (recorded _ _ _))

end Keeps

theorem outbox_takeEventsFor (b : Bout) (side : Side) :
    (b.takeEventsFor side).2.versus.outbox = Function.update b.versus.outbox side [] := rfl

theorem game_takeEventsFor (b : Bout) (side s : Side) :
    (b.takeEventsFor side).2.versus.game s = b.versus.game s := by
  cases s <;> rfl

theorem game_takeDirty (b : Bout) (s : Side) : b.takeDirty.2.versus.game s = b.versus.game s := by
  cases s <;> rfl

/-- The match runs on, whatever the books of the spies say. -/
theorem versus_tickMs (b : Bout) (dtMs : Int) :
    (b.tickMs dtMs).versus.outbox = (b.versus.tick dtMs).outbox ∧
      ∀ s, (b.tickMs dtMs).versus.game s = (b.versus.tick dtMs).game s := by
  obtain ⟨_, _, _, _, ticked⟩ := b.tickMs_eq dtMs
  rw [ticked]
  refine ⟨rfl, fun s => ?_⟩
  cases s <;> rfl

end Bout

/-! ## The logs the loop writes -/

namespace BoutLoop

/-- The log of a socket of side `x` follows the effects of the side, but for those
still in its outbox; the socket serves no other side. -/
structure Logged (x : Side) (conn : ConnId) (l : BoutLoop) : Prop where
  log : ∃ felt, Follows [] (l.sent conn) felt ∧ (l.tx x = conn → l.closed conn = false →
    l.effects x = felt ++ (l.bout.versus.outbox x).map Input.ofRelayEvent)
  apart : l.tx x.other ≠ conn

namespace Logged

variable {x : Side} {conn : ConnId} {l l' : BoutLoop}

/-- A message taken by the socket is one of side `x`. -/
theorem side_of_taken (logged : Logged x conn l) {side : Side} (taken : l.tx side = conn) :
    side = x := by
  rcases side.eq_or_eq_other x with same | other
  · exact same
  · exact absurd (other ▸ taken) logged.apart

/-- Snapshots and notices are sent when no effect waits. -/
theorem posts (logged : Logged x conn l) (quiet : l.bout.versus.outbox x = [])
    (posts : Posts l l') : Logged x conn l' ∧ l'.bout = l.bout := by
  induction posts with
  | refl => exact ⟨logged, rfl⟩
  | @post l' side frame _ plain ih =>
    obtain ⟨logged, same⟩ := ih
    refine ⟨⟨?_, ?_⟩, (bout_post ..).trans same⟩
    · rcases logged.log with ⟨felt, follows, upTo⟩
      rw [sent_post, tx_post, closed_post, effects_post, bout_post]
      split
      · next taken =>
        obtain rfl := logged.side_of_taken taken.1
        have felt_eq := upTo taken.1 taken.2
        rw [same, quiet, List.map_nil, List.append_nil] at felt_eq
        refine ⟨felt, follows.trans ?_, upTo⟩
        rw [felt_eq]
        rcases plain with kind | ⟨keyframe, spy, rfl⟩
        · exact .notice kind .nil
        · exact .snapshot _ .nil
      · exact ⟨felt, follows, upTo⟩
    · rw [tx_post]
      exact logged.apart
  | @settle l' l'' _ ledger ih =>
    obtain ⟨logged, same⟩ := ih
    have bout : l''.bout = l'.bout := congrArg (·.1.1) ledger
    have tx : l''.tx = l'.tx := congrArg (·.1.2.1) ledger
    have closed : l''.closed = l'.closed := congrArg (·.1.2.2.1) ledger
    have effects : l''.effects = l'.effects := congrArg (·.1.2.2.2) ledger
    have sent : l''.sent = l'.sent := congrArg (·.2.1) ledger
    refine ⟨⟨?_, ?_⟩, bout.trans same⟩
    · rw [bout, tx, closed, effects, sent]
      exact logged.log
    · rw [tx]
      exact logged.apart

/-- A tick puts in the outbox what it adds to the effects. -/
theorem tickBout (logged : Logged x conn l) (quiet : l.bout.versus.outbox x = []) :
    Logged x conn l.tickBout := by
  refine ⟨?_, logged.apart⟩
  obtain ⟨felt, follows, upTo⟩ := logged.log
  refine ⟨felt, follows, fun attached opened => ?_⟩
  have before := upTo attached opened
  rw [quiet, List.map_nil, List.append_nil] at before
  change l.effects x ++ _ = _
  rw [before]
  rfl

theorem forwardEvents (logged : Logged x conn l) {side : Side}
    (connected : l.connected side = true) :
    Logged x conn (l.forwardEvents side) ∧
      (l.forwardEvents side).bout = (l.bout.takeEventsFor side).2 ∧
      (l.forwardEvents side).connected = l.connected := by
  unfold BoutLoop.forwardEvents
  rw [if_pos connected]
  dsimp only
  obtain ⟨⟨bout, tx, closed, effects, same, -⟩, sent⟩ := sent_posts
    { l with bout := (l.bout.takeEventsFor side).2 } side (l.bout.takeEventsFor side).1
  refine ⟨⟨?_, ?_⟩, bout, same⟩
  · rw [sent, bout, tx, closed, effects]
    obtain ⟨felt, follows, upTo⟩ := logged.log
    dsimp only
    split
    · next taken =>
      obtain rfl := logged.side_of_taken taken.1
      have felt_eq := upTo taken.1 taken.2
      rw [felt_eq]
      refine ⟨_, follows.trans (Follows.events felt _), fun _ _ => ?_⟩
      change _ = _ ++ (Function.update l.bout.versus.outbox side [] side).map _
      rw [Function.update_self, List.map_nil, List.append_nil]
    · next missed =>
      refine ⟨felt, follows, fun attached opened => ?_⟩
      have other : side ≠ x := fun here => missed ⟨here ▸ attached, opened⟩
      change _ = _ ++ (Function.update l.bout.versus.outbox side [] x).map _
      rw [Function.update_of_ne other.symm]
      exact upTo attached opened
  · rw [tx]
    exact logged.apart

end Logged

/-- The socket is attached to side `x` only, and when it is, the side's game fits the
format of a keyframe. -/
def Attends (x : Side) (conn : ConnId) (l : BoutLoop) : Step → Prop
  | .turn _ => ∀ side, l.Reattaches side conn →
    side = x ∧ (l.bout.versus.game x).Fits ∧ (l.bout.versus.game x).pending.length ≤ 1024
  | _ => True

/-- What holds between the steps. -/
structure Serves (x : Side) (conn : ConnId) (l : BoutLoop) : Prop where
  logged : Logged x conn l
  quiet : ∀ s, l.bout.versus.outbox s = []
  regular : ∀ s, (l.bout.versus.game s).Regular
  attached : l.stage = .input → ∀ s, l.connected s = true

namespace Serves

variable {x : Side} {conn : ConnId} {l l' : BoutLoop}

/-- Only snapshots and notices are sent, and the inputs are not next. -/
theorem posts (serves : Serves x conn l) (posts : Posts l l')
    (attached : l'.stage = .input → ∀ s, l'.connected s = true) : Serves x conn l' := by
  obtain ⟨logged, same⟩ := serves.logged.posts (serves.quiet x) posts
  exact ⟨logged, by rw [same]; exact serves.quiet, by rw [same]; exact serves.regular, attached⟩

/-- The bout changes, and nothing is sent. -/
theorem bout (serves : Serves x conn l) {b : Bout} (keeps : l.bout.Keeps b)
    (wire : (l'.sent, l'.tx, l'.closed, l'.effects) = (l.sent, l.tx, l.closed, l.effects))
    (same : l'.bout = b) (attached : l'.stage = .input → ∀ s, l'.connected s = true) :
    Serves x conn l' := by
  have sent : l'.sent = l.sent := congrArg (·.1) wire
  have tx : l'.tx = l.tx := congrArg (·.2.1) wire
  have closed : l'.closed = l.closed := congrArg (·.2.2.1) wire
  have effects : l'.effects = l.effects := congrArg (·.2.2.2) wire
  refine ⟨⟨?_, ?_⟩, fun s => ?_, ?_, attached⟩
  · rw [sent, tx, closed, effects, same, keeps.outbox]
    exact serves.logged.log
  · rw [tx]
    exact serves.logged.apart
  · rw [same, keeps.outbox]
    exact serves.quiet s
  · rw [same]
    exact keeps.regular serves.regular

theorem play (serves : Serves x conn l) (stage : l.stage = .input) (now : Nat) :
    Serves x conn (l.play now) := by
  have connected := serves.attached stage
  have ticked : Logged x conn l.tickBout.markDirty := by
    obtain ⟨log, apart⟩ := serves.logged.tickBout (serves.quiet x)
    exact ⟨log, apart⟩
  have hearsA : l.tickBout.markDirty.connected .a = true := connected .a
  obtain ⟨toA, boutA, stillA⟩ := ticked.forwardEvents hearsA
  have hearsB : (l.tickBout.markDirty.forwardEvents .a).connected .b = true := by
    rw [stillA]
    exact connected .b
  obtain ⟨toB, boutB, stillB⟩ := toA.forwardEvents hearsB
  have outbox (s : Side) : (((l.tickBout.markDirty).forwardEvents .a).forwardEvents
      .b).bout.versus.outbox s = [] := by
    rw [boutB, boutA, Bout.outbox_takeEventsFor, Bout.outbox_takeEventsFor]
    cases s
    · exact Function.update_of_ne (by decide) _ _ |>.trans (Function.update_self ..)
    · exact Function.update_self ..
  have games (s : Side) : (((l.tickBout.markDirty).forwardEvents .a).forwardEvents
      .b).bout.versus.game s = (l.bout.versus.tick tickMillis).game s := by
    rw [boutB, boutA, Bout.game_takeEventsFor, Bout.game_takeEventsFor]
    exact ((l.tickBout.bout.game_takeDirty s).trans ((l.bout.versus_tickMs tickMillis).2 s))
  obtain ⟨logged, same⟩ := toB.posts (outbox x) (Posts.play l now)
  refine ⟨logged, by rw [same]; exact outbox, fun s => ?_, fun next => ?_⟩
  · rw [same, games]
    exact regular_tick serves.regular tickMillis s
  · exact absurd next (l.stage_play now)

/-- A new socket is handed the match and a keyframe; then both sides are told. -/
theorem reattach (serves : Serves x conn l) (rest : List BoutControl) {side : Side}
    {newId : ConnId} (stage : l.stage = .control)
    (attends : newId = conn → side = x ∧ (l.bout.versus.game x).Fits ∧
      (l.bout.versus.game x).pending.length ≤ 1024) :
    Serves x conn ({ l with controlRx := rest }.reattach side newId) := by
  unfold BoutLoop.reattach
  dsimp only
  generalize attached : ({ l with
      controlRx := rest
      tx := Function.update l.tx side newId
      connected := Function.update l.connected side true
      bout := l.bout.resetAck side
      lastSeq := Function.update l.lastSeq side 0 } : BoutLoop) = l₁
  have bout : l₁.bout = l.bout.resetAck side := by rw [← attached]
  have tx : l₁.tx = Function.update l.tx side newId := by rw [← attached]
  have closed : l₁.closed = l.closed := by rw [← attached]
  have effects : l₁.effects = l.effects := by rw [← attached]
  have sent : l₁.sent = l.sent := by rw [← attached]
  generalize handed : (l₁.post side (.matchStart side (l₁.seedOf side))).sendSnapshot side true
    true = l₂
  have bout' : l₂.bout = l.bout.resetAck side := by
    rw [← handed, ← bout]
    exact (bout_post ..).trans (bout_post ..)
  have tx' : l₂.tx = l₁.tx := by rw [← handed]; exact (tx_post ..).trans (tx_post ..)
  have closed' : l₂.closed = l.closed := by
    rw [← handed, ← closed]
    exact (closed_post ..).trans (closed_post ..)
  have effects' : l₂.effects = l.effects := by
    rw [← handed, ← effects]
    exact (effects_post ..).trans (effects_post ..)
  have shaken : Logged x conn l₂ := by
    obtain ⟨felt, follows, upTo⟩ := serves.logged.log
    have sent' := sent_handoff l₁ side (.matchStart side (l₁.seedOf side)) true true conn
    rw [handed, tx, closed, effects, bout, sent] at sent'
    refine ⟨?_, ?_⟩
    · rw [tx', tx, closed', effects', bout', sent', show (l.bout.resetAck side).versus.outbox x = []
        from serves.quiet x, List.map_nil]
      rcases eq_or_ne newId conn with same | apart
      · obtain ⟨rfl, fits, few⟩ := attends same
        rw [Function.update_self, same]
        split
        · next taken =>
          refine ⟨l.effects side, follows.trans (.handoff side _ ?_ .nil), fun _ _ =>
            (List.append_nil _).symm⟩
          -- the keyframe of a side that fits is restored by every regular game
          intro c regular
          have restored := Game.restoreBytes_clientKeyframeBytes (serves.regular side) regular
            fits few
          exact congrArg Prod.fst restored
        · next missed =>
          exact ⟨felt, follows, fun _ opened => absurd ⟨rfl, opened⟩ missed⟩
      · have kept : ∃ felt, Follows [] (l.sent conn) felt ∧
            (Function.update l.tx side newId x = conn → l.closed conn = false →
              l.effects x = felt ++ []) := by
          refine ⟨felt, follows, fun attached opened => ?_⟩
          rcases eq_or_ne x side with rfl | other
          · rw [Function.update_self] at attached
            exact absurd attached apart
          · rw [Function.update_of_ne other] at attached
            rw [upTo attached opened, serves.quiet x, List.map_nil]
        rwa [Function.update_self, if_neg fun taken => apart taken.1]
    · rw [tx', tx]
      rcases eq_or_ne x.other side with rfl | other
      · rw [Function.update_self]
        intro same
        exact absurd (attends same).1 x.other_ne
      · rw [Function.update_of_ne other]
        exact serves.logged.apart
  have stood : l₂.stage = .control := by
    rw [← handed, ← stage, ← attached]
    exact (stage_post ..).trans (stage_post ..)
  have rested : Serves x conn l₂ := by
    refine ⟨shaken, ?_, ?_, fun next => by rw [stood] at next; cases next⟩
    · rw [bout']
      exact serves.quiet
    · rw [bout']
      exact serves.regular
  split
  · refine rested.posts (.resume _) fun next => ?_
    rw [stage_resume, stood] at next
    cases next
  · exact rested

/-- What holds at the start of a match. -/
theorem start {seedA seedB : Nat} {human : Side → Bool} {connA connB : ConnId}
    (elsewhere : (BoutLoop.start seedA seedB human connA connB).tx x.other ≠ conn) :
    Serves x conn (BoutLoop.start seedA seedB human connA connB) := by
  refine ⟨⟨⟨[], ?_, fun _ _ => rfl⟩, elsewhere⟩, fun _ => rfl, fun s => ?_, fun next => ?_⟩
  · have handed (side : Side) (seed : Nat) : Follows [] [⟨.matchStart side seed, []⟩] [] :=
      .first side seed .nil
    unfold BoutLoop.start at *
    dsimp only at *
    rcases eq_or_ne conn connB with rfl | notB
    · rw [Function.update_self]
      exact handed .b seedB
    rw [Function.update_of_ne notB]
    rcases eq_or_ne conn connA with rfl | notA
    · rw [Function.update_self]
      exact handed .a seedA
    · rw [Function.update_of_ne notA]
      exact .nil
  · cases s
    · exact Game.regular_new seedA
    · exact Game.regular_new seedB
  · cases next

/-- A handler takes a message: the sockets and the bout are left alone. -/
theorem handled (serves : Serves x conn l)
    (wire : (l'.sent, l'.tx, l'.effects) = (l.sent, l.tx, l.effects)) (bout : l'.bout = l.bout)
    (closed : l'.closed conn = false → l.closed conn = false)
    (stood : (l'.stage, l'.connected) = (l.stage, l.connected)) : Serves x conn l' := by
  have sent : l'.sent = l.sent := congrArg (·.1) wire
  have tx : l'.tx = l.tx := congrArg (·.2.1) wire
  have effects : l'.effects = l.effects := congrArg (·.2.2) wire
  have stage : l'.stage = l.stage := congrArg (·.1) stood
  have connected : l'.connected = l.connected := congrArg (·.2) stood
  obtain ⟨felt, follows, upTo⟩ := serves.logged.log
  refine ⟨⟨⟨felt, ?_, fun attached opened => ?_⟩, ?_⟩, ?_, ?_, ?_⟩
  · rw [sent]
    exact follows
  · rw [effects, bout]
    exact upTo (tx ▸ attached) (closed opened)
  · rw [tx]
    exact serves.logged.apart
  · rw [bout]
    exact serves.quiet
  · rw [bout]
    exact serves.regular
  · rw [stage, connected]
    exact serves.attached

theorem control (serves : Serves x conn l) (c : BoutControl) : Serves x conn (l.control c) := by
  unfold BoutLoop.control
  split
  · exact serves.handled rfl rfl id rfl
  · exact serves

theorem turn (serves : Serves x conn l) {now : Nat} (attends : l.Attends x conn (.turn now)) :
    Serves x conn (l.turn now) := by
  have turned := l.turned now
  generalize l.turn now = l' at turned
  cases turned with
  | reattach side newId rest reattaches =>
    refine serves.reattach rest reattaches.1 fun same => attends side ?_
    exact same ▸ reattaches
  | obey c rest stage other =>
    have popped : Serves x conn { l with controlRx := rest } := serves.handled rfl rfl id rfl
    cases c with
    | reattach side newId => exact absurd rfl (other side newId)
    | forfeit side => exact popped.handled rfl rfl id rfl
    | addSpectator => exact popped
    | debugGrant side weapon funds =>
      exact popped.bout (.debugGrant l.bout side weapon funds) rfl rfl popped.attached
    | resync side => exact popped.handled rfl rfl id rfl
  | settled stage => exact serves.posts (.afterControls l now) (connected_of_afterControls stage)
  | take i rest takes =>
    exact serves.bout (.applyInput l.bout i.side i.input i.seq) rfl rfl serves.attached
  | play stage => exact serves.play stage now
  | done => exact serves

theorem step (serves : Serves x conn l) (e : Step) (attends : l.Attends x conn e) :
    Serves x conn (l.step e) := by
  cases e with
  | input conn' i seq =>
    change Serves x conn (l.input conn' i seq)
    unfold BoutLoop.input
    split
    · exact serves.handled rfl rfl id rfl
    · exact serves
  | rejoin conn' side =>
    change Serves x conn (l.rejoin conn' side)
    unfold BoutLoop.rejoin
    split
    · exact (serves.control _).handled rfl rfl id rfl
    · exact serves
  | resync conn' =>
    change Serves x conn (l.request conn' _)
    unfold BoutLoop.request
    split
    · exact serves.control _
    · exact serves
  | leaveMatch conn' =>
    change Serves x conn (l.request conn' _)
    unfold BoutLoop.request
    split
    · exact serves.control _
    · exact serves
  | spectate => exact serves.control _
  | grant side weapon funds => exact serves.control _
  | close conn' =>
    refine serves.handled rfl rfl (fun opened => ?_) rfl
    change Function.update l.closed conn' true conn = false at opened
    rcases eq_or_ne conn conn' with rfl | apart
    · rw [Function.update_self] at opened
      cases opened
    · rwa [Function.update_of_ne apart] at opened
  | remove conn' => exact serves.handled rfl rfl id rfl
  | turn now => exact serves.turn attends

end Serves

/-! ## Once -/

/-- A match up to its first broadcast. -/
def opening : BoutLoop :=
  ((start 7 3 (fun _ => true) 1 2).step (.turn 0)).step (.turn 0)

end BoutLoop

end BattleTris
