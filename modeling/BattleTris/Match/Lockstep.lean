import BattleTris.Core.RelaySpec
import BattleTris.Match.Resume

/-!
A client that mirrors one side of a match.

The client holds its own game, applies its side's inputs, ticks when the match
ticks it, and then applies the relay events of its outbox.  Its game is the
server's in all but the opponent's funds and the event queue, until an exchange of
boards or arsenals; the next keyframe repairs that.
-/

namespace BattleTris

open Versus

/-! ## What the outbox tells -/

/-- Apply a drained outbox to a client's game. -/
def applyOutbox (g : Game) (es : List RelayEvent) : Game :=
  es.foldl (fun g e => (Input.ofRelayEvent e).applyToGame g) g

/-- The outbox of `x` grew by what turns a mirror of `v.game x` into a mirror of
`v'.game x`. -/
def Forwarded (x : Side) (v v' : Versus) : Prop :=
  ∃ es, v'.outbox x = v.outbox x ++ es ∧
    ∀ c : Game, c.SameCore (v.game x) → (applyOutbox c es).SameCore (v'.game x)

namespace Forwarded

variable {x : Side} {v v' v'' : Versus}

/-- Nothing to tell. -/
theorem silent (outbox : v'.outbox x = v.outbox x)
    (games : ∀ c : Game, c.SameCore (v.game x) → c.SameCore (v'.game x)) : Forwarded x v v' :=
  ⟨[], outbox.trans (List.append_nil _).symm, games⟩

theorem refl (x : Side) (v : Versus) : Forwarded x v v :=
  silent rfl fun _ same => same

theorem trans (left : Forwarded x v v') (right : Forwarded x v' v'') : Forwarded x v v'' := by
  obtain ⟨es, outbox, follows⟩ := left
  obtain ⟨es', outbox', follows'⟩ := right
  refine ⟨es ++ es', by rw [outbox', outbox, List.append_assoc], fun c same => ?_⟩
  rw [applyOutbox, List.foldl_append]
  exact follows' _ (follows c same)

theorem single {e : RelayEvent} (outbox : v'.outbox x = v.outbox x ++ [e])
    (follows : ∀ c : Game, c.SameCore (v.game x) →
      ((Input.ofRelayEvent e).applyToGame c).SameCore (v'.game x)) : Forwarded x v v' :=
  ⟨[e], outbox, follows⟩

end Forwarded

/-- A launch of Swap or Susan that no Mirror stops waits to be relayed. -/
def Versus.Exchanges (v : Versus) : Prop :=
  ∃ s t, (t = .swap ∨ t = .susan) ∧ (v.game s).Launched t ∧
    (v.game s).weaponActive .mirror = false

theorem not_exchanges_of_quiet {v : Versus} (quiet : ∀ s, (v.game s).events = []) :
    ¬v.Exchanges := by
  rintro ⟨s, t, -, launched, -⟩
  rw [Game.Launched, quiet s] at launched
  cases launched

theorem receiveWeapon_follows (t : WeaponToken) {c g : Game} (same : c.SameCore g) :
    ((Input.ofRelayEvent (.receiveWeapon t)).applyToGame c).SameCore (g.receiveWeapon t) := by
  rw [Input.ofRelayEvent, Input.applyToGame_receiveWeapon_index]
  exact same.map (f := (·.receiveWeapon t)) fun _ _ _ => rfl

theorem addFunds_follows (amount : Int) {c g : Game} (same : c.SameCore g) :
    ((Input.ofRelayEvent (.addFunds amount)).applyToGame c).SameCore (g.addFunds amount) :=
  same.map (f := (·.addFunds amount)) fun es n g => Game.addFunds_framed es n g amount

theorem receiveOpScore_follows (score lines funds : Int) {c g : Game} (same : c.SameCore g) :
    ((Input.ofRelayEvent (.receiveOpScore score lines)).applyToGame c).SameCore
      (g.receiveOpScore score lines funds) :=
  same.receiveOpScore score lines 0 funds

/-- Every outcome but an exchange is told to the side it concerns. -/
theorem forwarded_relayed {s : Side} {v v' : Versus} {e : GameEvent}
    (relayed : Relayed s v e v')
    (plain : ∀ t, e = .weaponLaunched t → (t = .swap ∨ t = .susan) →
      (v.game s).weaponActive .mirror = true) (x : Side) : Forwarded x v v' := by
  cases relayed with
  | quiet games outbox =>
    exact .silent (congrFun outbox x) fun c same => (games x).symm ▸ same
  | @weapon t _ r games outbox =>
    have told := outbox x
    have game := games x
    split at told
    · next here =>
      rw [if_pos here] at game
      exact .single told fun c same => game.symm ▸ receiveWeapon_follows t same
    · next here =>
      rw [if_neg here] at game
      exact .silent told fun c same => game.symm ▸ same
  | keating games outbox =>
    have told := outbox x
    have game := games x
    split at told
    · next here =>
      rw [if_pos here] at game
      exact .single told fun c same => game.symm ▸ addFunds_follows _ same
    · next here =>
      rw [if_neg here] at game
      exact .single told fun c same => game.symm ▸ receiveWeapon_follows _ same
  | swap clear => rw [plain .swap rfl (.inl rfl)] at clear; cases clear
  | susan clear => rw [plain .susan rfl (.inr rfl)] at clear; cases clear
  | scored games outbox =>
    have told := outbox x
    have game := games x
    split at told
    · next here =>
      rw [if_pos here] at game
      exact .single told fun c same => game.symm ▸ receiveOpScore_follows _ _ _ same
    · next here =>
      rw [if_neg here] at game
      exact .silent told fun c same => game.symm ▸ same
  | fundsStolen games outbox =>
    have told := outbox x
    have game := games x
    split at told
    · next here =>
      rw [if_pos here] at game
      exact .single told fun c same => game.symm ▸ addFunds_follows _ same
    · next here =>
      rw [if_neg here] at game
      exact .silent told fun c same => game.symm ▸ same

/-- What one half of the relay does without an exchange: side `x` is told
everything, and no launch and no Mirror appears. -/
structure Told (x : Side) (v v' : Versus) : Prop where
  forwarded : Forwarded x v v'
  steady : ∀ y, Game.Steady (v.game y) (v'.game y)

theorem Told.trans {x : Side} {v v' v'' : Versus} (left : Told x v v') (right : Told x v' v'') :
    Told x v v'' :=
  ⟨left.forwarded.trans right.forwarded, fun y => (left.steady y).trans (right.steady y)⟩

theorem Game.Steady.mirror {g h : Game} (steady : Game.Steady g h) :
    h.weaponActive .mirror = g.weaponActive .mirror := by
  unfold Game.weaponActive
  rw [steady.weapons]

theorem Versus.Exchanges.of_steady {v v' : Versus}
    (steady : ∀ y, Game.Steady (v.game y) (v'.game y)) (exchanges : v'.Exchanges) :
    v.Exchanges := by
  obtain ⟨s, t, kind, launched, clear⟩ := exchanges
  exact ⟨s, t, kind, (steady s).launched t launched, (steady s).mirror ▸ clear⟩

theorem told_drain (x s : Side) (v : Versus) :
    Told x v (v.setGame s (v.game s).takeEvents.2) := by
  refine ⟨.silent (congrFun (outbox_setGame v s _) x) fun c same => ?_, fun y => ?_⟩
  · rw [game_setGame]
    split
    · next here => exact here ▸ same
    · exact same
  · rw [game_setGame]
    split
    · next here => exact here ▸ ⟨rfl, fun t launched => by cases launched⟩
    · exact .refl _

theorem told_relayFrom {v : Versus} (plain : ¬v.Exchanges) (x s : Side) :
    Told x v (v.relayFrom s) := by
  refine relayFrom_invariant (P := Told x v) s (fun told => told.trans ?_) ?_
    ⟨.refl x v, fun y => .refl _⟩
  · exact told_drain x s v
  · intro w e w' mem relayed told
    refine told.trans ⟨forwarded_relayed relayed (fun t launch kind => ?_) x, relayed.steady⟩
    by_contra clear
    subst launch
    refine plain ⟨s, t, kind, mem, ?_⟩
    rw [← (told.steady s).mirror]
    simpa using clear

/-- Without an exchange the relay tells side `x` all it did to its game. -/
theorem forwarded_relay {v : Versus} (plain : ¬v.Exchanges) (x : Side) :
    Forwarded x v v.relay := by
  have first := told_relayFrom plain x .a
  have second := told_relayFrom (v := v.relayFrom .a)
    (fun exchanges => plain (exchanges.of_steady first.steady)) x .b
  exact (first.trans second).forwarded

/-! ## The client beside the match -/

/-- A match, a client's mirror of one side, and whether no exchange has passed it
since its last keyframe. -/
structure Linked where
  server : Versus
  client : Game
  synced : Prop

inductive LinkEvent where
  | input (s : Side) (i : Input)
  | tick (dtMs : Int)
  | keyframe

namespace Linked

def start (x : Side) (seedA seedB : Nat) : Linked where
  server := .new seedA seedB
  client := match x with
    | .a => .new seedA
    | .b => .new seedB
  synced := True

/-- The client of side `x` takes part in every event of the match. -/
def link (x : Side) (p : Linked) : LinkEvent → Linked
  | .input s i =>
    { p with
      server := p.server.modify s i.applyToGame
      client := if s = x then i.applyToGame p.client else p.client }
  | .tick dtMs =>
    let client := if p.server.ticks then p.client.tick dtMs else p.client
    let told := (p.server.tick dtMs).takeOutbox x
    { server := told.2
      client := applyOutbox client told.1
      synced := p.synced ∧ ¬(p.server.result = 0 ∧ (p.server.advance dtMs).Exchanges) }
  | .keyframe =>
    { p with
      client := (p.client.restoreBytes (p.server.game x).clientKeyframeBytes).2
      synced := True }

/-- A keyframe is sent of a game whose numbers fit their types and whose queue of
weapons is within the format's bound. -/
def Sendable (x : Side) (p : Linked) (e : LinkEvent) : Prop :=
  e = .keyframe → (p.server.game x).Fits ∧ (p.server.game x).pending.length ≤ 1024

/-- What holds between the events. -/
structure Inv (x : Side) (p : Linked) : Prop where
  outbox : p.server.outbox x = []
  server : ∀ y, (p.server.game y).Regular
  client : p.client.Regular
  mirrors : p.synced → p.client.SameCore (p.server.game x)

theorem inv_start (x : Side) (seedA seedB : Nat) : Inv x (start x seedA seedB) := by
  refine ⟨rfl, fun y => ?_, ?_, fun _ => ?_⟩
  · cases y
    · exact Game.regular_new seedA
    · exact Game.regular_new seedB
  · cases x
    · exact Game.regular_new seedA
    · exact Game.regular_new seedB
  · cases x <;> rfl

theorem regular_applyOutbox {g : Game} (regular : g.Regular) (es : List RelayEvent) :
    (applyOutbox g es).Regular :=
  Loop.foldl_invariant (P := Game.Regular) (fun _ _ _ regular => regular.applyToGame _) regular

theorem Inv.input {x : Side} {p : Linked} (inv : Inv x p) (s : Side) (i : Input) :
    Inv x (p.link x (.input s i)) := by
  refine ⟨?_, fun y => ?_, ?_, fun synced => ?_⟩
  · exact (congrFun (outbox_modify p.server s _) x).trans inv.outbox
  · change ((p.server.modify s i.applyToGame).game y).Regular
    rw [game_modify]
    split
    · exact (inv.server y).applyToGame i
    · exact inv.server y
  · change Game.Regular (if s = x then i.applyToGame p.client else p.client)
    split
    · exact inv.client.applyToGame i
    · exact inv.client
  · change Game.SameCore (if s = x then i.applyToGame p.client else p.client)
      ((p.server.modify s i.applyToGame).game x)
    have same := inv.mirrors synced
    rw [game_modify]
    rcases eq_or_ne s x with rfl | apart
    · rw [if_pos rfl, if_pos rfl]
      exact i.applyToGame_sameCore same
    · rw [if_neg apart, if_neg apart.symm]
      exact same

/-- The client ticks exactly when the match does. -/
theorem sameCore_advance {x : Side} {p : Linked} (live : p.server.result = 0)
    (same : p.client.SameCore (p.server.game x)) (dtMs : Int) :
    Game.SameCore (if p.server.ticks then p.client.tick dtMs else p.client)
      ((p.server.advance dtMs).game x) := by
  rw [game_advance]
  by_cases barrier : p.server.barrier = true
  · rw [if_pos barrier, if_neg (by simp [ticks, barrier])]
    exact same
  · rw [if_neg barrier, if_pos (by simp [ticks, live, barrier])]
    exact same.map (f := (·.tick dtMs)) fun es n g => Game.tick_framed es n g dtMs

theorem Inv.tick {x : Side} {p : Linked} (inv : Inv x p) (dtMs : Int) :
    Inv x (p.link x (.tick dtMs)) := by
  have ticked : Game.Regular (if p.server.ticks then p.client.tick dtMs else p.client) := by
    split
    · exact inv.client.tick dtMs
    · exact inv.client
  refine ⟨?_, ?_, regular_applyOutbox ticked _, ?_⟩
  · change Function.update (p.server.tick dtMs).outbox x [] x = []
    rw [Function.update_self]
  · intro y
    have regular := regular_tick inv.server dtMs y
    cases y <;> exact regular
  · rintro ⟨synced, plain⟩
    have same := inv.mirrors synced
    have drained : ((p.server.tick dtMs).takeOutbox x).2.game x = (p.server.tick dtMs).game x := by
      cases x <;> rfl
    change Game.SameCore (applyOutbox _ ((p.server.tick dtMs).outbox x))
      (((p.server.tick dtMs).takeOutbox x).2.game x)
    rw [drained]
    by_cases live : p.server.result = 0
    · have relayed : p.server.tick dtMs = (p.server.advance dtMs).relay :=
        if_neg (not_not.mpr live)
      have outbox : (p.server.advance dtMs).outbox x = [] := by
        unfold advance
        split <;> exact inv.outbox
      obtain ⟨es, told, follows⟩ := forwarded_relay (fun exchanges => plain ⟨live, exchanges⟩) x
      rw [relayed, told, outbox, List.nil_append]
      exact follows _ (sameCore_advance live same dtMs)
    · have frozen : p.server.tick dtMs = p.server := if_pos live
      rw [frozen, inv.outbox, if_neg (by simp [ticks, live])]
      exact same

theorem Inv.keyframe {x : Side} {p : Linked} (inv : Inv x p)
    (fits : (p.server.game x).Fits) (few : (p.server.game x).pending.length ≤ 1024) :
    Inv x (p.link x .keyframe) := by
  have restored := Game.restoreBytes_clientKeyframeBytes (inv.server x) inv.client fits few
  have client : (p.link x .keyframe).client =
      { (p.server.game x).concealed with events := [] } := by
    change (p.client.restoreBytes _).2 = _
    rw [restored]
  refine ⟨inv.outbox, inv.server, ?_, fun _ => ?_⟩
  · rw [client]
    exact inv.server x
  · rw [client]
    rfl

/-- In every run the client's game is the server's, but for the opponent's funds
and the event queue, whenever no exchange was relayed since the start or the last
keyframe. -/
theorem lockstep {x : Side} {seedA seedB : Nat} {events : List LinkEvent} {p : Linked}
    (run : Run (Sendable x) (link x) (start x seedA seedB) events p) (synced : p.synced) :
    p.client.SameCore (p.server.game x) := by
  have inv : Inv x p := by
    refine run.invariant (fun q e inv sendable => ?_) (inv_start x seedA seedB)
    cases e with
    | input s i => exact inv.input s i
    | tick dtMs => exact inv.tick dtMs
    | keyframe =>
      obtain ⟨fits, few⟩ := sendable rfl
      exact inv.keyframe fits few
  exact inv.mirrors synced

/-- A tick after which no event waits leaves the client in step. -/
theorem synced_tick {x : Side} {p : Linked} {dtMs : Int} (synced : p.synced)
    (quiet : ∀ s, ((p.server.advance dtMs).game s).events = []) :
    (p.link x (.tick dtMs)).synced :=
  ⟨synced, fun both => not_exchanges_of_quiet quiet both.2⟩

/-- One shifted piece and one tick, seen by side A's client. -/
theorem lockstep_first_tick :
    (((start .a 7 3).link .a (.input .a .moveLeft)).link .a (.tick 20)).client.SameCore
      ((((start .a 7 3).link .a (.input .a .moveLeft)).link .a (.tick 20)).server.game .a) := by
  have quiet (s : Side) : ((((start .a 7 3).link .a (.input .a .moveLeft)).server.advance
      20).game s).events = [] := by
    cases s <;> decide +kernel
  have synced : ((start .a 7 3).link .a (.input .a .moveLeft)).synced := trivial
  have run : Run (Sendable .a) (link .a) (start .a 7 3) _ _ :=
    (Run.nil.snoc (e := .input .a .moveLeft) (fun same => by cases same)).snoc
      (e := .tick 20) (fun same => by cases same)
  exact lockstep run (synced_tick synced quiet)

end Linked

end BattleTris
