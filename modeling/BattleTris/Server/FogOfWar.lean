import BattleTris.Core.RelaySpec
import BattleTris.Core.Veil
import BattleTris.Lib.Run
import BattleTris.Replay.Input
import BattleTris.Server.Discipline

/-!
What a client learns of its opponent's funds: nothing, until a spy or a Keating.

Two bouts that differ in the funds of one side, and in the mirror the other side keeps
of them, are driven alike; the other side's client sees the same in both.
-/

namespace BattleTris

open Loop

namespace Game

/-! ## Two games of one side -/

/-- The observer's own game hides its mirror, the opponent's game its funds. -/
def disguise (x s : Side) : Dress := if s = x then frame [] 0 else veil

/-- Alike to the observer `x`, as the games of side `s`. -/
def Alike (x s : Side) (g h : Game) : Prop :=
  g.dressed (disguise x s) = h.dressed (disguise x s)

namespace Alike

variable {x s : Side} {g h : Game}

theorem own (alike : Alike x x g h) : g.framed [] 0 = h.framed [] 0 := by
  have same : disguise x x = frame [] 0 := if_pos rfl
  unfold Alike at alike
  rwa [same] at alike

theorem of_own (same : g.framed [] 0 = h.framed [] 0) : Alike x x g h := by
  unfold Alike disguise
  rw [if_pos rfl]
  exact same

theorem theirs (alike : Alike x s g h) (apart : s ≠ x) : SameButFunds g h := by
  have same : disguise x s = veil := if_neg apart
  unfold Alike at alike
  rwa [same] at alike

theorem of_theirs (apart : s ≠ x) (same : SameButFunds g h) : Alike x s g h := by
  unfold Alike disguise
  rw [if_neg apart]
  exact same

/-- An operation that commutes with the frame and respects the veil keeps two games
alike. -/
theorem lift {f k : Game → Game}
    (mine : g.framed [] 0 = h.framed [] 0 → (f g).framed [] 0 = (k h).framed [] 0)
    (others : SameButFunds g h → SameButFunds (f g) (k h)) (alike : Alike x s g h) :
    Alike x s (f g) (k h) := by
  rcases eq_or_ne s x with rfl | apart
  · exact of_own (mine alike.own)
  · exact of_theirs apart (others (alike.theirs apart))

theorem map {f : Game → Game} (comm : ∀ φ g, f (g.dressed φ) = (f g).dressed φ)
    (alike : Alike x s g h) : Alike x s (f g) (f h) := by
  unfold Alike at *
  rw [← comm, ← comm, alike]

theorem read {α : Type _} {f : Game → α} (blind : ∀ φ g, f (g.dressed φ) = f g)
    (alike : Alike x s g h) : f g = f h := by
  rw [← blind (disguise x s) g, ← blind (disguise x s) h,
    show g.dressed (disguise x s) = h.dressed (disguise x s) from alike]

theorem weapons (alike : Alike x s g h) : g.weapons = h.weapons :=
  alike.read (f := Game.weapons) fun _ _ => rfl

theorem weaponActive (alike : Alike x s g h) (t : WeaponToken) :
    g.weaponActive t = h.weaponActive t := by
  unfold Game.weaponActive
  rw [alike.weapons]

theorem inBazaar (alike : Alike x s g h) : g.inBazaar = h.inBazaar :=
  alike.read (f := Game.inBazaar) fun _ _ => rfl

theorem events (alike : Alike x s g h) :
    g.events.map GameEvent.veiled = h.events.map GameEvent.veiled := by
  rcases eq_or_ne s x with rfl | apart
  · have same : (g.framed [] 0).events = (h.framed [] 0).events := by rw [alike.own]
    rw [show g.events = h.events from same]
  · exact (alike.theirs apart).events

theorem tick (alike : Alike x s g h) (dt : Int) : Alike x s (g.tick dt) (h.tick dt) :=
  alike.lift (f := (·.tick dt)) (k := (·.tick dt))
    (fun same => by rw [← tick_framed, ← tick_framed, same]) (fun same => same.tick dt)

theorem addFunds (alike : Alike x s g h) (amount : Int) :
    Alike x s (g.addFunds amount) (h.addFunds amount) :=
  alike.lift (f := (·.addFunds amount)) (k := (·.addFunds amount))
    (fun same => by rw [← addFunds_framed, ← addFunds_framed, same])
    (fun same => same.addFunds amount)

/-- The observer's mirror may be told different funds. -/
theorem receiveOpScore (alike : Alike x s g h) (score lines : Int) {funds funds' : Int}
    (told : s ≠ x → funds = funds') :
    Alike x s (g.receiveOpScore score lines funds) (h.receiveOpScore score lines funds') := by
  rcases eq_or_ne s x with rfl | apart
  · refine of_own ?_
    have forgets (g : Game) (k : Int) : (g.receiveOpScore score lines k).framed [] 0 =
        ((g.framed [] 0).receiveOpScore score lines 0).framed [] 0 := by
      rw [receiveOpScore_framed, receiveOpScore_funds g score lines k 0]
      rfl
    rw [forgets g, forgets h, alike.own]
  · rw [told apart]
    exact of_theirs apart ((alike.theirs apart).receiveOpScore score lines funds')

theorem takeEvents (alike : Alike x s g h) : Alike x s g.takeEvents.2 h.takeEvents.2 :=
  alike.lift (f := fun g => g.takeEvents.2) (k := fun g => g.takeEvents.2)
    (fun same => congrArg (fun g => g.takeEvents.2) same) fun same => same.takeEvents

/-! ### A delivery -/

/-- A delivery does the same to two alike pairs, unless it hands the observer the
opponent's funds. -/
theorem deliver (attackers : Alike x s g h) {g' h' : Game} (victims : Alike x s.other g' h')
    {t : WeaponToken} (veiled : t = .keating → s = x → g.weaponActive .mirror = true) :
    ∃ a v a' v' d, deliverWeapon g g' t = (a, v, d) ∧ deliverWeapon h h' t = (a', v', d) ∧
      Alike x s a a' ∧ Alike x s.other v v' := by
  have cursed := attackers.weaponActive .mirror
  have queued {s : Side} {g h : Game} (alike : Alike x s g h) :
      Alike x s (g.receiveWeapon t) (h.receiveWeapon t) :=
    alike.map (f := (·.receiveWeapon t)) fun _ _ => rfl
  by_cases mirror : g.weaponActive .mirror = true
  · have mirror' : h.weaponActive .mirror = true := cursed ▸ mirror
    unfold deliverWeapon
    rw [if_pos mirror, if_pos mirror']
    by_cases null : mirrorNullifies t = true
    · rw [if_pos null, if_pos null]
      exact ⟨_, _, _, _, _, rfl, rfl, attackers, victims⟩
    · have ordinary : Versus.Ordinary t := by
        refine ⟨?_, ?_, ?_⟩ <;> rintro rfl <;> exact null rfl
      rw [if_neg null, if_neg null, Versus.applyWeapon_attacker ordinary,
        Versus.applyWeapon_attacker ordinary]
      exact ⟨_, _, _, _, _, rfl, rfl, queued attackers, victims⟩
  · have mirror' : ¬h.weaponActive .mirror = true := cursed ▸ mirror
    unfold deliverWeapon
    rw [if_neg mirror, if_neg mirror']
    by_cases swap : t = .swap
    · subst swap
      have board : g.exportBoard = h.exportBoard :=
        attackers.read (f := exportBoard) fun _ _ => rfl
      have board' : g'.exportBoard = h'.exportBoard :=
        victims.read (f := exportBoard) fun _ _ => rfl
      refine ⟨_, _, _, _, _, rfl, rfl, ?_, ?_⟩
      · rw [board']
        exact attackers.map (f := (·.queueBoardSwap h'.exportBoard)) fun _ _ => rfl
      · rw [board]
        exact victims.map (f := (·.queueBoardSwap h.exportBoard)) fun _ _ => rfl
    by_cases susan : t = .susan
    · subst susan
      have arsenal : g.arsenal = h.arsenal := attackers.read (f := Game.arsenal) fun _ _ => rfl
      have arsenal' : g'.arsenal = h'.arsenal := victims.read (f := Game.arsenal) fun _ _ => rfl
      refine ⟨_, _, _, _, _, rfl, rfl, ?_, ?_⟩
      · rw [arsenal']
        exact attackers.map (f := fun g => { g with arsenal := h'.arsenal }) fun _ _ => rfl
      · rw [arsenal]
        exact victims.map (f := fun g => { g with arsenal := h.arsenal }) fun _ _ => rfl
    by_cases keating : t = .keating
    · subst keating
      have launcher : s ≠ x := fun same => mirror (veiled rfl same)
      have observer : s.other = x := by
        cases s <;> cases x <;> first | rfl | exact absurd rfl launcher
      have funds : g'.score.funds = h'.score.funds := by
        subst observer
        have same : (g'.framed [] 0).score.funds = (h'.framed [] 0).score.funds := by
          rw [victims.own]
        exact same
      refine ⟨_, _, _, _, _, rfl, ?_, attackers.addFunds g'.score.funds, queued victims⟩
      rw [funds]
      rfl
    · rw [Versus.applyWeapon_victim ⟨swap, susan, keating⟩,
        Versus.applyWeapon_victim ⟨swap, susan, keating⟩]
      exact ⟨_, _, _, _, _, rfl, rfl, attackers, queued victims⟩

end Alike

end Game

namespace Versus

open Game

/-! ## Two matches -/

/-- What a match holds beside its games. -/
def host (v : Versus) :
    Int × Bool × (Side → List WeaponToken) × (Side → List RelayEvent) :=
  (v.result, v.dirty, v.spyLaunch, v.outbox)

/-- Two matches that the observer cannot tell apart. -/
structure Fog (x : Side) (v w : Versus) : Prop where
  games : ∀ s, Alike x s (v.game s) (w.game s)
  host : v.host = w.host

/-- No Keating of the observer waits to be delivered: none is queued, or its Mirror
makes it fizzle. -/
def Veils (x : Side) (v : Versus) : Prop :=
  (v.game x).Launched .keating → (v.game x).weaponActive .mirror = true

namespace Fog

variable {x : Side} {v w : Versus}

theorem result (fog : Fog x v w) : v.result = w.result := congrArg (·.1) fog.host

theorem dirty (fog : Fog x v w) : v.dirty = w.dirty := congrArg (·.2.1) fog.host

theorem spyLaunch (fog : Fog x v w) : v.spyLaunch = w.spyLaunch := congrArg (·.2.2.1) fog.host

theorem outbox (fog : Fog x v w) : v.outbox = w.outbox := congrArg (·.2.2.2) fog.host

theorem setGame (fog : Fog x v w) (s : Side) {g h : Game} (alike : Alike x s g h) :
    Fog x (v.setGame s g) (w.setGame s h) := by
  refine ⟨fun y => ?_, ?_⟩
  · rw [game_setGame, game_setGame]
    split
    · next here => exact here ▸ alike
    · exact fog.games y
  · have kept (v : Versus) (g : Game) : (v.setGame s g).host = v.host := by cases s <;> rfl
    rw [kept, kept]
    exact fog.host

theorem pushOutbox (fog : Fog x v w) (s : Side) (e : RelayEvent) :
    Fog x (v.pushOutbox s e) (w.pushOutbox s e) := by
  refine ⟨fun y => ?_, ?_⟩
  · rw [game_pushOutbox, game_pushOutbox]
    exact fog.games y
  · unfold Versus.host Versus.pushOutbox
    rw [fog.result, fog.dirty, fog.spyLaunch, fog.outbox]

theorem recordDelivery (fog : Fog x v w) (d : Delivery) (attacker victim : Side) :
    Fog x (v.recordDelivery d attacker victim) (w.recordDelivery d attacker victim) := by
  obtain ⟨_ | t, _ | u, _ | amount, _⟩ := d
  · exact fog
  · exact fog.pushOutbox attacker _
  · exact fog.pushOutbox attacker _
  · exact (fog.pushOutbox attacker _).pushOutbox attacker _
  · exact fog.pushOutbox victim _
  · exact (fog.pushOutbox victim _).pushOutbox attacker _
  · exact (fog.pushOutbox victim _).pushOutbox attacker _
  · exact ((fog.pushOutbox victim _).pushOutbox attacker _).pushOutbox attacker _

theorem relayLaunch (fog : Fog x v w) {s : Side} {t : WeaponToken}
    (veiled : t = .keating → s = x → (v.game s).weaponActive .mirror = true) :
    Fog x (v.relayLaunch s t) (w.relayLaunch s t) := by
  have mirror := (fog.games s).weaponActive .mirror
  by_cases spy : isSpy t = true
  · unfold Versus.relayLaunch
    rw [if_pos spy, if_pos spy, mirror]
    split
    · exact fog
    · refine ⟨fun y => ?_, ?_⟩
      · cases y <;> exact fog.games _
      · unfold Versus.host
        dsimp only
        rw [fog.result, fog.dirty, fog.spyLaunch, fog.outbox]
  have spy : isSpy t = false := by simpa using spy
  obtain ⟨a, u, a', u', d, left, right, attackers, victims⟩ :=
    (fog.games s).deliver (fog.games s.other) veiled
  rw [relayLaunch_of_deliver spy left, relayLaunch_of_deliver spy right]
  have delivered := ((fog.setGame s attackers).setGame s.other victims).recordDelivery d s s.other
  refine ⟨fun y => ?_, ?_⟩
  · cases y <;> exact delivered.games _
  · unfold Versus.host
    dsimp only
    rw [fog.dirty, delivered.result, delivered.spyLaunch, delivered.outbox]

/-- Two events that differ in the funds they publish resolve alike; the observer's own
do not differ. -/
theorem relayEvent (fog : Fog x v w) {s : Side} {e e' : GameEvent} (same : e.veiled = e'.veiled)
    (own : s = x → e = e')
    (veiled : e = .weaponLaunched .keating → s = x → (v.game s).weaponActive .mirror = true) :
    Fog x (relayEvent s v e) (relayEvent s w e') := by
  by_cases scored : e.isScored = true
  · cases e with
    | scored score lines funds =>
      cases e' with
      | scored score' lines' funds' =>
        injection same with scores counts
        subst scores counts
        have told : s.other ≠ x → funds = funds' := by
          intro apart
          have here : s = x := by
            cases s <;> cases x <;> first | rfl | exact absurd rfl apart
          have exactly := own here
          injection exactly
        exact (fog.setGame s.other
          ((fog.games s.other).receiveOpScore score lines told)).pushOutbox s.other _
      | _ => cases same
    | _ => cases scored
  have plain : e.isScored = false := by simpa using scored
  have plain' : e'.isScored = false := by
    rw [GameEvent.veiled_of_plain plain] at same
    cases e' with
    | scored => rw [same] at plain; cases plain
    | _ => rfl
  rw [GameEvent.veiled_of_plain plain, GameEvent.veiled_of_plain plain'] at same
  subst same
  cases e with
  | scored => cases plain
  | weaponLaunched t =>
    exact fog.relayLaunch fun keating here => veiled (congrArg _ keating) here
  | fundsStolen amount =>
    exact (fog.setGame s.other ((fog.games s.other).addFunds amount)).pushOutbox s.other _
  | enterBazaar =>
    refine ⟨fun y => ?_, ?_⟩
    · cases y <;> exact fog.games _
    · unfold Versus.host Versus.relayEvent
      dsimp only
      rw [fog.result, fog.spyLaunch, fog.outbox]
  | gameOver =>
    unfold Versus.relayEvent
    dsimp only
    rw [fog.result]
    split
    · refine ⟨fun y => ?_, ?_⟩
      · cases y <;> exact fog.games _
      · unfold Versus.host
        dsimp only
        rw [fog.dirty, fog.spyLaunch, fog.outbox]
    · exact fog
  | locked => exact fog
  | airslide => exact fog
  | idiot => exact fog

theorem relayEvents (fog : Fog x v w) {s : Side} {es es' : List GameEvent}
    (same : es.map GameEvent.veiled = es'.map GameEvent.veiled) (own : s = x → es = es')
    (veiled : .weaponLaunched .keating ∈ es → s = x → (v.game s).weaponActive .mirror = true) :
    Fog x (es.foldl (Versus.relayEvent s) v) (es'.foldl (Versus.relayEvent s) w) := by
  induction es generalizing es' v w with
  | nil =>
    cases es' with
    | nil => exact fog
    | cons => cases same
  | cons e es ih =>
    cases es' with
    | nil => cases same
    | cons e' es' =>
      injection same with head tail
      have next := fog.relayEvent head (fun here => (List.cons.inj (own here)).1)
        (fun launched here => veiled (launched ▸ List.mem_cons_self) here)
      have steady := (relayed_relayEvent s v e).steady s
      refine ih next tail (fun here => (List.cons.inj (own here)).2) fun mem here => ?_
      have cursed := veiled (List.mem_cons_of_mem e mem) here
      unfold weaponActive at *
      rwa [steady.weapons]

theorem relayFrom (fog : Fog x v w) (s : Side) (veils : Veils x v) :
    Fog x (v.relayFrom s) (w.relayFrom s) := by
  have drained := fog.setGame s (fog.games s).takeEvents
  refine relayEvents drained (fog.games s).events (fun here => ?_) fun mem here => ?_
  · subst here
    have same : ((v.game s).framed [] 0).events = ((w.game s).framed [] 0).events := by
      rw [(fog.games s).own]
    exact same
  · subst here
    rw [game_setGame, if_pos rfl]
    exact veils mem

theorem steady_relayFrom (v : Versus) (s y : Side) :
    Steady (v.game y) ((v.relayFrom s).game y) := by
  refine relayFrom_invariant (P := fun w => Steady (v.game y) (w.game y)) s (fun steady => ?_)
    (fun w e w' _ relayed steady => steady.trans (relayed.steady y)) (.refl _)
  refine steady.trans ?_
  rw [game_setGame]
  split
  · next here => exact here ▸ ⟨rfl, fun t launched => absurd launched List.not_mem_nil⟩
  · exact .refl _

theorem relay (fog : Fog x v w) (veils : Veils x v) : Fog x v.relay w.relay := by
  have steady := steady_relayFrom v .a x
  refine (fog.relayFrom .a veils).relayFrom .b fun launched => ?_
  have cursed := veils (steady.launched _ launched)
  unfold weaponActive at *
  rwa [steady.weapons]

theorem barrier (fog : Fog x v w) : v.barrier = w.barrier := by
  unfold Versus.barrier
  rw [show v.a.inBazaar = w.a.inBazaar from (fog.games .a).inBazaar,
    show v.b.inBazaar = w.b.inBazaar from (fog.games .b).inBazaar]

theorem advance (fog : Fog x v w) (dt : Int) : Fog x (v.advance dt) (w.advance dt) := by
  unfold Versus.advance
  rw [fog.barrier]
  split
  · exact fog
  · refine ⟨fun s => ?_, fog.host⟩
    cases s
    · exact (fog.games .a).tick dt
    · exact (fog.games .b).tick dt

theorem tick (fog : Fog x v w) {dt : Int} (veils : v.result = 0 → Veils x (v.advance dt)) :
    Fog x (v.tick dt) (w.tick dt) := by
  unfold Versus.tick
  by_cases ended : v.result ≠ 0
  · rw [if_pos ended, if_pos (fog.result ▸ ended)]
    exact fog
  · rw [if_neg ended, if_neg (fog.result ▸ ended)]
    exact (fog.advance dt).relay (veils (not_not.mp ended))

/-- One side's input, alike in both; the opponent's purchases turn out alike. -/
theorem drive (fog : Fog x v w) (s : Side) (i : Input)
    (purchase : ∀ index t, i = .buyWeapon index → WeaponToken.fromIndex index = some t → s ≠ x →
      ((v.game s).buyWeapon t).1 = ((w.game s).buyWeapon t).1) :
    Fog x (v.modify s i.applyToGame) (w.modify s i.applyToGame) := by
  have token {f : WeaponToken → Game → Game} (index : Int)
      (keep : ∀ t, WeaponToken.fromIndex index = some t →
        Alike x s (f t (v.game s)) (f t (w.game s))) :
      Alike x s (Input.onToken index f (v.game s)) (Input.onToken index f (w.game s)) := by
    unfold Input.onToken
    rcases found : WeaponToken.fromIndex index with _ | t
    · exact fog.games s
    · exact keep t found
  have alike := fog.games s
  refine fog.setGame s ?_
  cases i with
  | moveLeft => exact alike.map moveLeft_dressed
  | moveRight => exact alike.map moveRight_dressed
  | rotate => exact alike.map rotate_dressed
  | beginDrop => exact alike.map fun φ g => dropFor_dressed φ g _
  | aiDrop => exact alike.map fun φ g => dropFor_dressed φ g _
  | softDrop => exact alike.map softDrop_dressed
  | launchWeapon slot => exact alike.map fun φ g => launchWeapon_dressed φ g slot
  | buyWeapon index =>
    refine token index fun t found => ?_
    rcases eq_or_ne s x with rfl | apart
    · refine Alike.of_own ?_
      rw [← buyWeapon_framed, ← buyWeapon_framed, alike.own]
    · exact .of_theirs apart ((alike.theirs apart).buyWeapon t (purchase index t rfl found apart))
  | sellWeapon index =>
    refine token index fun t _ => ?_
    rcases eq_or_ne s x with rfl | apart
    · refine Alike.of_own ?_
      rw [← sellWeapon_framed, ← sellWeapon_framed, alike.own]
    · exact .of_theirs apart ((alike.theirs apart).sellWeapon t)
  | leaveBazaar => exact alike.map (f := leaveBazaar) fun _ _ => rfl
  | setPaused p => exact alike.map (f := (·.setPaused p)) fun _ _ => rfl
  | receiveWeapon index =>
    exact token index fun t _ => alike.map (f := (·.receiveWeapon t)) fun _ _ => rfl
  | receiveOpScore score lines funds => exact alike.receiveOpScore score lines fun _ => rfl
  | addFunds amount => exact alike.addFunds amount
  | grantWeapon index =>
    exact token index fun t _ => alike.map (f := fun g => (g.grantWeapon t).2) fun _ _ => rfl

end Fog

end Versus

namespace Bout

open Game Versus

/-! ## Two bouts -/

/-- The same bout over another match. -/
def withVersus (b : Bout) (w : Versus) : Bout := { b with versus := w }

/-- Two bouts that the observer cannot tell apart. -/
structure Fogged (x : Side) (b c : Bout) : Prop where
  versus : Fog x b.versus c.versus
  rest : c = b.withVersus c.versus

theorem chargeSpy_withVersus (b : Bout) (w : Versus) (side : Side) (delta : Int) :
    (b.withVersus w).chargeSpy side delta = (b.chargeSpy side delta).withVersus w := by
  unfold chargeSpy withVersus
  dsimp only
  cases b.spy side <;> rfl

theorem noteTetris_withVersus (b : Bout) (w : Versus) (side : Side) (delta : Int) :
    (b.withVersus w).noteTetris side delta = (b.noteTetris side delta).withVersus w := by
  unfold noteTetris
  split <;> rfl

theorem launchSpies_withVersus (b : Bout) (w : Versus) (side : Side) (ts : List WeaponToken) :
    ts.foldl (launchSpy side) (b.withVersus w) = (ts.foldl (launchSpy side) b).withVersus w :=
  foldl_map_comm (g := launchSpy side) (fun b => b.withVersus w) (fun _ _ _ => rfl) b

/-- The books of the spies keep the match. -/
theorem books_versus (b : Bout) (side : Side) (delta : Int) :
    ((b.noteTetris side delta).chargeSpy side delta).versus = b.versus := by
  have self : b = b.withVersus b.versus := rfl
  rw [self, noteTetris_withVersus, chargeSpy_withVersus]
  rfl

/-- The lines of the opponent, and the launched spies, are all that the bookkeeping of
the spies reads of the match. -/
theorem tickSpy_withVersus (b : Bout) (w : Versus) (side : Side)
    (lines : (w.game side.other).score.lines = (b.versus.game side.other).score.lines)
    (launched : w.spyLaunch = b.versus.spyLaunch) :
    (b.withVersus w).tickSpy side =
      (b.tickSpy side).withVersus (w.takeSpyLaunches side).2 := by
  have delta : (b.withVersus w).oppDelta side = b.oppDelta side := by
    unfold oppDelta withVersus
    dsimp only
    rw [lines]
  have books := b.books_versus side (b.oppDelta side)
  have seen : (((b.withVersus w).noteTetris side (b.oppDelta side)).chargeSpy side
      (b.oppDelta side)).seeLines side =
        (((b.noteTetris side (b.oppDelta side)).chargeSpy side (b.oppDelta side)).seeLines
          side).withVersus w := by
    rw [noteTetris_withVersus, chargeSpy_withVersus]
    unfold seeLines withVersus
    dsimp only
    rw [books, lines]
  unfold tickSpy
  dsimp only
  rw [delta, seen]
  generalize (b.noteTetris side (b.oppDelta side)).chargeSpy side (b.oppDelta side) = d at *
  have fired : (w.takeSpyLaunches side).1 = (d.versus.takeSpyLaunches side).1 := by
    rw [books]
    exact congrFun launched side
  change (w.takeSpyLaunches side).1.foldl (launchSpy side)
      ((d.seeLines side).withVersus (w.takeSpyLaunches side).2) =
    ((d.versus.takeSpyLaunches side).1.foldl (launchSpy side)
      ((d.seeLines side).withVersus (d.versus.takeSpyLaunches side).2)).withVersus _
  rw [launchSpies_withVersus, launchSpies_withVersus, fired]
  rfl

theorem tickSpy_versus (b : Bout) (side : Side) :
    (b.tickSpy side).versus = (b.versus.takeSpyLaunches side).2 :=
  congrArg versus (b.tickSpy_withVersus b.versus side rfl rfl)

namespace Fogged

variable {x : Side} {b c : Bout}

theorem of_versus {w : Versus} (fog : Fog x b.versus w) : Fogged x b (b.withVersus w) := ⟨fog, rfl⟩

/-- An operation on the match alone. -/
theorem onVersus (fogged : Fogged x b c) {f : Versus → Versus}
    (keep : Fog x (f b.versus) (f c.versus)) :
    Fogged x (b.withVersus (f b.versus)) (c.withVersus (f c.versus)) := by
  rw [fogged.rest] at keep ⊢
  exact ⟨keep, rfl⟩

theorem tickSpy (fogged : Fogged x b c) (side : Side) :
    Fogged x (b.tickSpy side) (c.tickSpy side) := by
  have fog := fogged.versus
  have lines : (c.versus.game side.other).score.lines = (b.versus.game side.other).score.lines :=
    ((fog.games side.other).read (f := (·.score.lines)) fun _ _ => rfl).symm
  rw [fogged.rest, tickSpy_withVersus b c.versus side lines fog.spyLaunch.symm]
  refine of_versus ?_
  rw [tickSpy_versus]
  refine ⟨fun s => ?_, ?_⟩
  · cases s <;> exact fog.games _
  · unfold Versus.host takeSpyLaunches
    dsimp only
    rw [fog.result, fog.dirty, fog.spyLaunch, fog.outbox]

theorem tickMs (fogged : Fogged x b c) {dtMs : Int}
    (veils : b.versus.result = 0 → Veils x (b.versus.advance dtMs)) :
    Fogged x (b.tickMs dtMs) (c.tickMs dtMs) := by
  have ticked := fogged.versus.tick veils
  have advanced : Fogged x (b.advance dtMs) (c.advance dtMs) := by
    rw [fogged.rest] at ticked ⊢
    exact ⟨ticked, rfl⟩
  exact (advanced.tickSpy .a).tickSpy .b

theorem ack (fogged : Fogged x b c) : b.ack = c.ack := by
  rw [fogged.rest]
  rfl

theorem drive (fogged : Fogged x b c) (s : Side) (i : Input)
    (purchase : ∀ index t, i = .buyWeapon index → WeaponToken.fromIndex index = some t → s ≠ x →
      ((b.versus.game s).buyWeapon t).1 = ((c.versus.game s).buyWeapon t).1) :
    Fogged x (b.drive s i) (c.drive s i) :=
  fogged.onVersus (f := fun v => v.modify s i.applyToGame) (fogged.versus.drive s i purchase)

theorem record (fogged : Fogged x b c) (s : Side) (i : Input) :
    Fogged x (b.record s i) (c.record s i) := by
  have fog := fogged.versus
  rw [fogged.rest] at fog ⊢
  exact ⟨fog, rfl⟩

theorem setAck (fogged : Fogged x b c) (s : Side) (seq : Nat) :
    Fogged x (b.setAck s seq) (c.setAck s seq) := by
  have fog := fogged.versus
  rw [fogged.rest] at fog ⊢
  exact ⟨fog, rfl⟩

/-- The same input passes or fails the same gates. -/
theorem applyInput (fogged : Fogged x b c) (s : Side) (i : Input) (seq : Nat)
    (purchase : ∀ index t, i = .buyWeapon index → WeaponToken.fromIndex index = some t → s ≠ x →
      ((b.versus.game s).buyWeapon t).1 = ((c.versus.game s).buyWeapon t).1) :
    Fogged x (b.applyInput s i seq).2 (c.applyInput s i seq).2 := by
  have acked := fogged.setAck s seq
  unfold Bout.applyInput
  rw [fogged.ack]
  split
  · exact fogged
  · dsimp only
    rw [acked.versus.barrier]
    split
    · exact acked
    · exact (acked.drive s i purchase).record s i

theorem recordGrant (fogged : Fogged x b c) (s : Side) (landed : Bool) (i : Option Input) :
    Fogged x (b.recordGrant s landed i) (c.recordGrant s landed i) := by
  cases landed with
  | false => exact fogged
  | true =>
    cases i with
    | none => exact fogged
    | some i => exact fogged.record s i

theorem debugGrant (fogged : Fogged x b c) (s : Side) (weapon : Option WeaponToken)
    (funds : Option Int) :
    Fogged x (b.debugGrant s weapon funds).2 (c.debugGrant s weapon funds).2 := by
  have armed : (b.grantWeapon s weapon).1 = (c.grantWeapon s weapon).1 ∧
      Fogged x (b.grantWeapon s weapon).2 (c.grantWeapon s weapon).2 := by
    cases weapon with
    | none => exact ⟨rfl, fogged⟩
    | some t =>
      have alike := fogged.versus.games s
      refine ⟨alike.read (f := fun g => (g.grantWeapon t).1) fun _ _ => rfl, ?_⟩
      exact fogged.onVersus (f := fun v => v.modify s fun g => (g.grantWeapon t).2)
        (fogged.versus.setGame s (alike.map (f := fun g => (g.grantWeapon t).2) fun _ _ => rfl))
  have funded {b c : Bout} (fogged : Fogged x b c) :
      (b.grantFunds s funds).1 = (c.grantFunds s funds).1 ∧
        Fogged x (b.grantFunds s funds).2 (c.grantFunds s funds).2 := by
    cases funds with
    | none => exact ⟨rfl, fogged⟩
    | some amount =>
      unfold Bout.grantFunds
      dsimp only
      split
      · exact ⟨rfl, fogged.onVersus (f := fun v => v.modify s fun g => g.addFunds amount)
          (fogged.versus.setGame s ((fogged.versus.games s).addFunds amount))⟩
      · exact ⟨rfl, fogged⟩
  obtain ⟨weaponGranted, granted⟩ := armed
  obtain ⟨fundsApplied, credited⟩ := funded granted
  unfold Bout.debugGrant
  dsimp only
  rw [weaponGranted, fundsApplied]
  exact (credited.recordGrant s _ _).recordGrant s _ _

/-- The observer is sent the same, as long as it has no spy. -/
theorem buildSnapshot (fogged : Fogged x b c) (blind : b.spy x = none) (keyframe spy : Bool) :
    b.buildSnapshot x keyframe spy = c.buildSnapshot x keyframe spy := by
  have fog := fogged.versus
  have mine {α : Type} {f : Game → α} (blind : ∀ g : Game, f (g.framed [] 0) = f g) :
      f (b.versus.game x) = f (c.versus.game x) := by
    rw [← blind, ← blind (c.versus.game x), (fog.games x).own]
  have theirs {α : Type} {f : Game → α} (blind : ∀ φ g, f (g.dressed φ) = f g) :
      f (b.versus.game x.other) = f (c.versus.game x.other) :=
    (fog.games x.other).read blind
  have you : (⟨(b.versus.game x).score.funds, (b.versus.game x).inBazaar,
      (b.versus.game x).linesTilBaz⟩ : SelfStatus) =
        ⟨(c.versus.game x).score.funds, (c.versus.game x).inBazaar,
          (c.versus.game x).linesTilBaz⟩ :=
    mine (f := fun g => SelfStatus.mk g.score.funds g.inBazaar g.linesTilBaz) fun _ => rfl
  have opp : (⟨(b.versus.game x.other).score.score, (b.versus.game x.other).score.lines,
      (b.versus.game x.other).isGameOver, (b.versus.game x.other).inBazaar⟩ : OppView) =
        ⟨(c.versus.game x.other).score.score, (c.versus.game x.other).score.lines,
          (c.versus.game x.other).isGameOver, (c.versus.game x.other).inBazaar⟩ :=
    theirs (f := fun g => OppView.mk g.score.score g.score.lines g.isGameOver g.inBazaar)
      fun _ _ => rfl
  have bytes : (b.versus.game x).clientKeyframeBytes = (c.versus.game x).clientKeyframeBytes :=
    mine (f := clientKeyframeBytes) fun _ => rfl
  have lockSeq : (b.versus.game x).lockSeq = (c.versus.game x).lockSeq := mine fun _ => rfl
  have lockHash : (b.versus.game x).lockHash = (c.versus.game x).lockHash := mine fun _ => rfl
  have rest : (c.tick, c.ack x, c.spy x) = (b.tick, b.ack x, b.spy x) := by
    rw [fogged.rest]
    rfl
  obtain ⟨tick, ack, spies⟩ : c.tick = b.tick ∧ c.ack x = b.ack x ∧ c.spy x = b.spy x :=
    ⟨congrArg (·.1) rest, congrArg (·.2.1) rest, congrArg (·.2.2) rest⟩
  have result : b.resultFor x = c.resultFor x := by
    unfold resultFor
    rw [fog.result]
  have none_ : (if spy = true then (none : Option (WeaponToken × Int)) else none) = none := by
    split <;> rfl
  unfold Bout.buildSnapshot
  dsimp only
  rw [spies, blind, none_, tick, ack, result, you, opp, bytes, lockSeq, lockHash]
  rfl

theorem takeEventsFor (fogged : Fogged x b c) (side : Side) :
    (b.takeEventsFor side).1 = (c.takeEventsFor side).1 ∧
      Fogged x (b.takeEventsFor side).2 (c.takeEventsFor side).2 := by
  have fog := fogged.versus
  refine ⟨?_, fogged.onVersus (f := fun v => (v.takeOutbox side).2) ⟨fun s => ?_, ?_⟩⟩
  · change (b.versus.outbox side).map _ = (c.versus.outbox side).map _
    rw [fog.outbox]
  · cases s <;> exact fog.games _
  · unfold Versus.host takeOutbox
    dsimp only
    rw [fog.result, fog.dirty, fog.spyLaunch, fog.outbox]

theorem takeDirty (fogged : Fogged x b c) :
    (b.takeDirty).1 = (c.takeDirty).1 ∧ Fogged x b.takeDirty.2 c.takeDirty.2 := by
  have fog := fogged.versus
  refine ⟨fog.dirty, fogged.onVersus (f := fun v => v.takeDirty.2) ⟨fun s => ?_, ?_⟩⟩
  · cases s <;> exact fog.games _
  · unfold Versus.host Versus.takeDirty
    dsimp only
    rw [fog.result, fog.spyLaunch, fog.outbox]

end Fogged

/-! ## Two runs -/

/-- What a host does to a bout. -/
inductive HostCall where
  | applyInput (side : Side) (input : Input) (seq : Nat)
  | debugGrant (side : Side) (weapon : Option WeaponToken) (funds : Option Int)
  | resetAck (side : Side)
  | tick (dtMs : Int)
  | takeDirty
  | takeEventsFor (side : Side)

def host (b : Bout) : HostCall → Bout
  | .applyInput side input seq => (b.applyInput side input seq).2
  | .debugGrant side weapon funds => (b.debugGrant side weapon funds).2
  | .resetAck side => b.resetAck side
  | .tick dtMs => b.tickMs dtMs
  | .takeDirty => b.takeDirty.2
  | .takeEventsFor side => (b.takeEventsFor side).2

/-- The same call on both bouts. -/
def hostBoth (p : Bout × Bout) (e : HostCall) : Bout × Bout := (p.1.host e, p.2.host e)

/-- No Keating of the observer is delivered, and the opponent's purchases turn out
alike. -/
def Veiled (x : Side) (p : Bout × Bout) : HostCall → Prop
  | .applyInput side (.buyWeapon index) _ => ∀ t, WeaponToken.fromIndex index = some t →
      side ≠ x → ((p.1.versus.game side).buyWeapon t).1 = ((p.2.versus.game side).buyWeapon t).1
  | .tick dtMs => p.1.versus.result = 0 → Veils x (p.1.versus.advance dtMs)
  | _ => True

/-- The same bout, but for the opponent's funds and the observer's mirror of them. -/
def refunded (b : Bout) (x : Side) (mirror funds : Int) : Bout :=
  b.withVersus ((b.versus.modify x fun g =>
    { g with score := { g.score with opFunds := mirror } }).modify x.other (·.setFunds funds))

theorem fogged_refunded (b : Bout) (x : Side) (mirror funds : Int) :
    Fogged x b (b.refunded x mirror funds) := by
  refine .of_versus ⟨fun s => ?_, ?_⟩
  · rcases s.eq_or_eq_other x with rfl | rfl
    · refine Alike.of_own ?_
      cases s <;> rfl
    · refine Alike.of_theirs x.other_ne ?_
      cases x <;> rfl
  · cases x <;> rfl

theorem Fogged.host {x : Side} {b c : Bout} (fogged : Fogged x b c) {e : HostCall}
    (veiled : Veiled x (b, c) e) : Fogged x (b.host e) (c.host e) := by
  cases e with
  | applyInput side input seq =>
    refine fogged.applyInput side input seq fun index t same found apart => ?_
    subst same
    exact veiled t found apart
  | debugGrant side weapon funds => exact fogged.debugGrant side weapon funds
  | resetAck side => exact fogged.setAck side 0
  | tick dtMs => exact fogged.tickMs veiled
  | takeDirty => exact fogged.takeDirty.2
  | takeEventsFor side => exact (fogged.takeEventsFor side).2

theorem spy_applyInput (b : Bout) (side : Side) (input : Input) (seq : Nat) :
    (b.host (.applyInput side input seq)).spy = b.spy := by
  unfold host applyInput
  dsimp only
  split
  · rfl
  · split <;> rfl

theorem spy_new (seedA seedB : Nat) (x : Side) : (new seedA seedB).spy x = none := rfl

/-- Change the opponent's funds and the mirror of them, and drive both bouts alike:
without a spy, the observer is sent the same snapshots and the same events. -/
theorem fog_of_war {x : Side} {b : Bout} {mirror funds : Int} {calls : List HostCall}
    {p : Bout × Bout}
    (run : Run (Veiled x) hostBoth (b, b.refunded x mirror funds) calls p)
    (blind : p.1.spy x = none) :
    (∀ keyframe spy, p.1.buildSnapshot x keyframe spy = p.2.buildSnapshot x keyframe spy) ∧
      (p.1.takeEventsFor x).1 = (p.2.takeEventsFor x).1 := by
  have fogged : Fogged x p.1 p.2 :=
    run.invariant (P := fun p : Bout × Bout => Fogged x p.1 p.2)
      (fun _ _ fogged veiled => fogged.host veiled)
      (b.fogged_refunded x mirror funds)
  exact ⟨fun keyframe spy => fogged.buildSnapshot blind keyframe spy,
    (fogged.takeEventsFor x).1⟩

theorem fog_of_war_moveLeft :
    (((new 7 3).host (.applyInput .b .moveLeft 1)).takeEventsFor .a).1 =
      ((((new 7 3).refunded .a 250 250).host (.applyInput .b .moveLeft 1)).takeEventsFor .a).1 := by
  have run : Run (Veiled .a) hostBoth (new 7 3, (new 7 3).refunded .a 250 250)
      [.applyInput .b .moveLeft 1] ((new 7 3).host (.applyInput .b .moveLeft 1),
        ((new 7 3).refunded .a 250 250).host (.applyInput .b .moveLeft 1)) :=
    Run.nil.snoc trivial
  have blind : (host (new 7 3) (.applyInput .b .moveLeft 1)).spy .a = none := by
    rw [spy_applyInput]
    exact spy_new 7 3 .a
  have both := fog_of_war run (by dsimp only; exact blind)
  dsimp only at both
  exact both.2

end Bout

end BattleTris
