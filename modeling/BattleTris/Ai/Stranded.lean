import BattleTris.Ai.Orders

/-!
The computer's orders against its arsenal, over whole matches.  One kind of tick strands a
weapon: the computer's own piece locks before it is placed, opens the bazaar, and the turn comes
due in the same tick, so the launch it makes is refused.
-/

namespace BattleTris

open Loop

/-! ## Weapons under the relay -/

namespace Game

/-- A Susan waits to be relayed, and would not fizzle. -/
def SendsSusan (g : Game) : Prop := g.Launched .susan ∧ g.weaponActive .mirror = false

theorem Steady.sendsSusan {g h : Game} (steady : Steady g h) (sends : h.SendsSusan) :
    g.SendsSusan := by
  refine ⟨steady.launched _ sends.1, ?_⟩
  have same := steady.weapons
  have clear := sends.2
  unfold weaponActive at clear ⊢
  rw [← same, clear]

end Game

/-- A delivery turns no weapon on or off, and only an uncursed Susan moves weapons between the
arsenals. -/
theorem deliverWeapon_keeps (attacker victim : Game) (t : WeaponToken) :
    let games := deliverWeapon attacker victim t
    Game.Steady attacker games.1 ∧ Game.Steady victim games.2.1 ∧
      ((t = .susan → attacker.weaponActive .mirror = true) →
        games.1.arsenal = attacker.arsenal ∧ games.2.1.arsenal = victim.arsenal) := by
  have received (g : Game) : Game.Steady g (g.receiveWeapon t) := ⟨rfl, fun _ launched => launched⟩
  have swapped (g : Game) (cells : List Int) : Game.Steady g (g.queueBoardSwap cells) :=
    ⟨rfl, fun _ launched => launched⟩
  have applied (r : Recipient) :
      let games := applyWeapon attacker victim t r
      Game.Steady attacker games.1 ∧ Game.Steady victim games.2.1 ∧
        (t ≠ .susan → games.1.arsenal = attacker.arsenal ∧ games.2.1.arsenal = victim.arsenal) := by
    cases t with
    | swap => exact ⟨swapped _ _, swapped _ _, fun _ => ⟨rfl, rfl⟩⟩
    | susan =>
      exact ⟨⟨rfl, fun _ launched => launched⟩, ⟨rfl, fun _ launched => launched⟩,
        fun other => absurd rfl other⟩
    | keating =>
      exact ⟨Game.steady_addFunds _ _, received _,
        fun _ => ⟨Game.addFunds_arsenal _ _, rfl⟩⟩
    | _ =>
      cases r with
      | attacker => exact ⟨received _, .refl _, fun _ => ⟨rfl, rfl⟩⟩
      | victim => exact ⟨.refl _, received _, fun _ => ⟨rfl, rfl⟩⟩
  unfold deliverWeapon
  dsimp only
  split
  · next cursed =>
    split
    · exact ⟨.refl _, .refl _, fun _ => ⟨rfl, rfl⟩⟩
    · next fizzles =>
      have other : t ≠ .susan := by
        rintro rfl
        exact fizzles rfl
      exact ⟨(applied _).1, (applied _).2.1, fun _ => (applied _).2.2 other⟩
  · next clear =>
    exact ⟨(applied _).1, (applied _).2.1, fun plain => (applied _).2.2 fun susan =>
      clear (plain susan)⟩

namespace VsComputer

/-- What the relay keeps of the computer's game while no Susan is relayed. -/
structure Keeps (vs vs' : VsComputer) : Prop where
  player : Game.Steady vs.player vs'.player
  ai : Game.Steady vs.ai vs'.ai
  arsenal : vs'.ai.arsenal = vs.ai.arsenal

theorem Keeps.refl (vs : VsComputer) : Keeps vs vs := ⟨.refl _, .refl _, rfl⟩

theorem Keeps.trans {vs vs' vs'' : VsComputer} (left : Keeps vs vs') (right : Keeps vs' vs'') :
    Keeps vs vs'' :=
  ⟨left.player.trans right.player, left.ai.trans right.ai, right.arsenal.trans left.arsenal⟩

theorem relayPlayer_keeps (vs : VsComputer) {e : GameEvent}
    (plain : e = .weaponLaunched .susan → vs.player.weaponActive .mirror = true) :
    Keeps vs (vs.relayPlayer e) := by
  cases e with
  | weaponLaunched t =>
    obtain ⟨player, ai, stores⟩ := deliverWeapon_keeps vs.player vs.ai t
    exact ⟨player, ai, (stores fun susan => plain (congrArg _ susan)).2⟩
  | scored score lines funds =>
    exact ⟨.refl _, Game.steady_receiveOpScore _ _ _ _, Game.receiveOpScore_arsenal _ _ _ _⟩
  | fundsStolen amount => exact ⟨.refl _, Game.steady_addFunds _ _, Game.addFunds_arsenal _ _⟩
  | _ => exact ⟨.refl _, .refl _, rfl⟩

theorem relayAi_keeps (vs : VsComputer) {e : GameEvent}
    (plain : e = .weaponLaunched .susan → vs.ai.weaponActive .mirror = true) :
    Keeps vs (vs.relayAi e) := by
  cases e with
  | weaponLaunched t =>
    obtain ⟨ai, player, stores⟩ := deliverWeapon_keeps vs.ai vs.player t
    exact ⟨player, ai, (stores fun susan => plain (congrArg _ susan)).1⟩
  | scored score lines funds => exact ⟨Game.steady_receiveOpScore _ _ _ _, .refl _, rfl⟩
  | fundsStolen amount => exact ⟨Game.steady_addFunds _ _, .refl _, rfl⟩
  | _ => exact ⟨.refl _, .refl _, rfl⟩

/-- Without a Susan to relay the computer keeps its arsenal. -/
theorem relay_arsenal {vs : VsComputer} (player : ¬vs.player.SendsSusan)
    (ai : ¬vs.ai.SendsSusan) : vs.relay.ai.arsenal = vs.ai.arsenal := by
  have cursed {g : Game} (plain : ¬g.SendsSusan) {e : GameEvent} (mem : e ∈ g.events)
      (susan : e = .weaponLaunched .susan) : g.weaponActive .mirror = true := by
    by_contra clear
    rw [susan] at mem
    exact plain ⟨mem, eq_false_of_ne_true clear⟩
  have drained (g : Game) : Game.Steady g g.takeEvents.2 :=
    ⟨rfl, fun _ launched => by cases launched⟩
  have mirrored {g h : Game} (steady : Game.Steady g h) (active : g.weaponActive .mirror = true) :
      h.weaponActive .mirror = true := by
    have same := steady.weapons
    unfold Game.weaponActive at active ⊢
    rw [same, active]
  have first : Keeps vs vs.relayFromPlayer := by
    have start : Game.Steady vs.player vs.player.takeEvents.2 ∧
        Keeps vs { vs with player := vs.player.takeEvents.2 } :=
      ⟨drained _, ⟨drained _, .refl _, rfl⟩⟩
    refine foldl_invariant (P := Keeps vs) (fun e mem w kept => ?_) start.2
    exact kept.trans (relayPlayer_keeps w fun susan =>
      mirrored kept.player (cursed player mem susan))
  have start : Keeps vs { vs.relayFromPlayer with ai := vs.relayFromPlayer.ai.takeEvents.2 } :=
    first.trans ⟨.refl _, drained _, rfl⟩
  have second : Keeps vs vs.relayFromPlayer.relayFromAi := by
    refine foldl_invariant (P := Keeps vs) (fun e mem w kept => ?_) start
    refine kept.trans (relayAi_keeps w fun susan => ?_)
    rw [susan] at mem
    have waits : vs.ai.Launched .susan := first.ai.launched _ mem
    exact mirrored kept.ai (cursed ai waits rfl)
  exact second.arsenal

end VsComputer

/-! ## A turn -/

namespace Game

theorem shift_arsenal (g : Game) (dx : Int) : (g.shift dx).arsenal = g.arsenal :=
  arsenal_of_still (g.shift_still dx)

end Game

namespace Computer

theorem rotateTo_arsenal (orientation : Int) (n : Nat) (g : Game) :
    (rotateTo orientation n g).2.arsenal = g.arsenal := by
  induction n generalizing g with
  | zero => rfl
  | succ n ih =>
    unfold rotateTo
    split
    · rfl
    · split
      · rfl
      · exact (ih g.rotate).trans (Game.arsenal_of_still g.rotate_still)

theorem slideTo_arsenal (x : Int) (n : Nat) (g : Game) :
    (slideTo x n g).2.arsenal = g.arsenal := by
  induction n generalizing g with
  | zero => rfl
  | succ n ih =>
    unfold slideTo
    split
    · rfl
    · split
      · rfl
      · refine (ih _).trans ?_
        split
        · exact g.shift_arsenal _
        · exact g.shift_arsenal _

theorem steerTo_arsenal (g : Game) (piece : Piece) (placement : Placement) :
    (steerTo g piece placement).arsenal = g.arsenal := by
  have turned := rotateTo_arsenal placement.orientation (max piece.orientations 1).toNat g
  unfold steerTo
  split
  · next stopped =>
    rw [stopped] at turned
    exact turned
  · next h reached =>
    rw [reached] at turned
    have slid := (slideTo_arsenal placement.x (h.board.width * 2).toNat h).trans turned
    split
    · next stopped =>
      rw [stopped] at slid
      exact slid
    · next k reached =>
      rw [reached] at slid
      exact (Game.arsenal_of_still (k.dropFor_still _)).trans slid

/-- A turn keeps the orders matched unless a launch of it is refused. -/
theorem takeTurn_matched_iff {c : Computer} {g : Game} (matched : c.strategy.Matched g)
    (playing : g.phase ≠ .over) :
    (c.takeTurn g).1.strategy.Matched (c.takeTurn g).2 ↔
      ¬(g.inBazaar = true ∧ g.weaponActive .mirror = false ∧
        Strategy.launchDue g.score.opLines c.strategy.bazaarNo g.board.boardTop (-1)
          c.strategy.commando = true) := by
  have fired := matched.activateCommando_iff playing
  unfold takeTurn
  rw [if_neg (by simpa [Game.isGameOver] using playing)]
  generalize c.strategy.activateCommando g = r at fired
  obtain ⟨s, h⟩ := r
  dsimp only at fired ⊢
  rw [← fired]
  split
  · exact Iff.rfl
  · next piece _ =>
    have kept := steerTo_arsenal h piece (bestPlacementTuned h.board piece (.forActiveWeapons h))
    exact ⟨fun matched => matched.congr (fun _ => rfl) kept.symm,
      fun matched => matched.congr (fun _ => rfl) kept⟩

end Computer

/-! ## The match -/

namespace ComputerMatch

/-- The computer's orders match its arsenal. -/
def Matched (m : ComputerMatch) : Prop := m.computer.strategy.Matched m.ai

/-- What the relay of a tick starts from. -/
def beforeRelay (m : ComputerMatch) (dt : Int) : ComputerMatch :=
  if m.player.inBazaar ∨ m.ai.inBazaar then m.visitBazaar else (m.tickPlayer dt).aiLogic dt

/-- A tick that relays a Susan. -/
def RelaysSusan (m : ComputerMatch) (dt : Int) : Prop :=
  m.result = 0 ∧ ((m.beforeRelay dt).player.SendsSusan ∨ (m.beforeRelay dt).ai.SendsSusan)

/-- The turn is due in a game that opened the bazaar, and a pass over the orders reaches a launch:
the launch is refused, and the order is gone. -/
def Strands (m : ComputerMatch) (dt : Int) : Prop :=
  m.result = 0 ∧ m.player.inBazaar = false ∧ m.ai.inBazaar = false ∧
    m.aiCommitted = false ∧ m.placeAccum + dt ≥ m.placePeriod ∧
    (m.ai.tick dt).current.isSome ∧ (m.ai.tick dt).phase ≠ .over ∧
    (m.ai.tick dt).inBazaar = true ∧ (m.ai.tick dt).weaponActive .mirror = false ∧
    Strategy.launchDue (m.ai.tick dt).score.opLines m.computer.strategy.bazaarNo
      (m.ai.tick dt).board.boardTop (-1) m.computer.strategy.commando = true

variable {m : ComputerMatch} {dt : Int}

theorem tick_eq (m : ComputerMatch) (dt : Int) :
    m.tick dt = if m.result ≠ 0 then m else (m.beforeRelay dt).relay := by
  unfold tick beforeRelay
  split
  · rfl
  · split <;> rfl

theorem Matched.visitBazaar (matched : m.Matched) : m.visitBazaar.Matched := by
  unfold ComputerMatch.visitBazaar
  split
  · exact (Strategy.Matched.goShopping matched).congr (fun _ => rfl) rfl
  · exact matched

theorem Matched.aiLogic_iff (matched : m.Matched) : (m.aiLogic dt).Matched ↔
    ¬(m.aiCommitted = false ∧ m.placeAccum + dt ≥ m.placePeriod ∧
      (m.ai.tick dt).current.isSome ∧ (m.ai.tick dt).phase ≠ .over ∧
      (m.ai.tick dt).inBazaar = true ∧ (m.ai.tick dt).weaponActive .mirror = false ∧
      Strategy.launchDue (m.ai.tick dt).score.opLines m.computer.strategy.bazaarNo
        (m.ai.tick dt).board.boardTop (-1) m.computer.strategy.commando = true) := by
  have ticked : m.computer.strategy.Matched (m.ai.tick dt) :=
    Strategy.Matched.congr matched (fun _ => rfl) (m.ai.tick_arsenal dt)
  unfold aiLogic place
  dsimp only
  by_cases due : ¬m.aiCommitted ∧ m.placeAccum + dt ≥ m.placePeriod
  · rw [if_pos due]
    by_cases playing : ¬(m.ai.tick dt).isGameOver ∧ (m.ai.tick dt).current.isSome
    · rw [if_pos playing]
      have alive : (m.ai.tick dt).phase ≠ .over := by simpa [Game.isGameOver] using playing.1
      have turn := Computer.takeTurn_matched_iff ticked alive
      have clear : m.aiCommitted = false := by simpa using due.1
      refine turn.trans (not_congr ?_)
      exact ⟨fun lost => ⟨clear, due.2, playing.2, alive, lost⟩,
        fun lost => lost.2.2.2.2⟩
    · rw [if_neg playing]
      refine iff_of_true ticked fun lost => playing ⟨?_, lost.2.2.1⟩
      simpa [Game.isGameOver] using lost.2.2.2.1
  · rw [if_neg due]
    exact iff_of_true ticked fun lost => due ⟨by simp [lost.1], lost.2.1⟩

/-- A tick without a Susan keeps the orders matched unless it strands a weapon. -/
theorem tick_matched_iff (matched : m.Matched) (plain : ¬m.RelaysSusan dt) :
    (m.tick dt).Matched ↔ ¬m.Strands dt := by
  rw [tick_eq]
  by_cases ongoing : m.result = 0
  · rw [if_neg (not_not.mpr ongoing)]
    have silent := not_or.mp fun sends => plain ⟨ongoing, sends⟩
    have relayed : (m.beforeRelay dt).relay.Matched ↔ (m.beforeRelay dt).Matched := by
      have same : (m.beforeRelay dt).relay.ai.arsenal = (m.beforeRelay dt).ai.arsenal :=
        VsComputer.relay_arsenal silent.1 silent.2
      exact ⟨fun kept => Strategy.Matched.congr kept (fun _ => rfl) same.symm,
        fun kept => Strategy.Matched.congr kept (fun _ => rfl) same⟩
    rw [relayed]
    unfold beforeRelay Strands
    by_cases barrier : m.player.inBazaar ∨ m.ai.inBazaar
    · rw [if_pos barrier]
      refine iff_of_true matched.visitBazaar fun lost => ?_
      rcases barrier with player | ai
      · rw [lost.2.1] at player
        cases player
      · rw [lost.2.2.1] at ai
        cases ai
    · rw [if_neg barrier]
      have outside : m.player.inBazaar = false ∧ m.ai.inBazaar = false := by simpa using barrier
      have ticked : (m.tickPlayer dt).Matched := matched
      refine ticked.aiLogic_iff.trans (not_congr ?_)
      exact ⟨fun lost => ⟨ongoing, outside.1, outside.2, lost⟩, fun lost => lost.2.2.2⟩
  · rw [if_pos ongoing]
    exact iff_of_true matched fun lost => ongoing lost.1

/-! ## Runs -/

/-- What a host does with a match: drive the player's game, advance the clock, fetch the
events. -/
inductive HostAct where
  | drive (f : Game → Game)
  | tick (dt : Int)
  | drain

def act (m : ComputerMatch) : HostAct → ComputerMatch
  | .drive f => { m with player := f m.player }
  | .tick dt => m.tick dt
  | .drain => m.drainEvents.2

/-- An act keeps the orders matched unless it is a tick that strands a weapon. -/
theorem act_matched_iff (matched : m.Matched) {a : HostAct}
    (plain : ∀ dt, a = .tick dt → ¬m.RelaysSusan dt) :
    (m.act a).Matched ↔ ∀ dt, a = .tick dt → ¬m.Strands dt := by
  cases a with
  | tick dt =>
    refine (tick_matched_iff matched (plain dt rfl)).trans ⟨?_, fun safe => safe dt rfl⟩
    rintro safe _ ⟨⟩
    exact safe
  | drive f => exact iff_of_true matched fun dt other => by cases other
  | drain => exact iff_of_true matched fun dt other => by cases other

theorem new_matched (seed level : Nat) : (new seed level).Matched := by
  intro w _
  have empty : (ComputerMatch.new seed level).ai.arsenal = .new := Game.spawn_arsenal (.blank _)
  have none : Arsenal.new.stock w = 0 := Finset.sum_eq_zero fun _ _ => rfl
  rw [empty, none]
  exact (List.countP_eq_zero.mpr fun o only => by
    rw [List.mem_singleton.mp only]
    simp [Strategy.asksFor, Strategy.orderAt]).symm

/-- Over every run without a Susan, the orders match the arsenal all along exactly if no tick
strands a weapon. -/
theorem orders_match_iff (seed level : Nat) (acts : List HostAct)
    (plain : ∀ before dt, before ++ [.tick dt] <+: acts →
      ¬(before.foldl act (new seed level)).RelaysSusan dt) :
    (∀ before, before <+: acts → (before.foldl act (new seed level)).Matched) ↔
      ∀ before dt, before ++ [.tick dt] <+: acts →
        ¬(before.foldl act (new seed level)).Strands dt := by
  refine (foldl_prefixes_iff (Q := fun m a => ∀ dt, a = .tick dt → ¬m.Strands dt)
    (fun before a start matched => act_matched_iff matched fun dt ticks => ?_)
    (new_matched seed level)).trans ⟨?_, ?_⟩
  · rw [ticks] at start
    exact plain before dt start
  · exact fun safe before dt start => safe before _ start dt rfl
  · rintro safe before _ start dt rfl
    exact safe before dt start

/-- A match whose clock has been read once, and no time passed. -/
theorem orders_match_iff_first : ([.tick 0].foldl act (new 7 0)).Matched := by
  have quiet : ((new 7 0).beforeRelay 0).player.events = [] ∧
      ((new 7 0).beforeRelay 0).ai.events = [] := by
    decide +kernel
  have early : ¬(new 7 0).Strands 0 := by
    rintro ⟨-, -, -, -, due, -⟩
    revert due
    decide
  have only {before : List HostAct} {dt : Int} (start : before ++ [.tick dt] <+: [.tick 0]) :
      before = [] ∧ dt = 0 := by
    obtain ⟨rest, whole⟩ := start
    cases before with
    | nil =>
      obtain ⟨same, -⟩ := List.cons.inj whole
      exact ⟨rfl, HostAct.tick.inj same⟩
    | cons a before => exact absurd whole (by simp)
  have plain : ∀ before dt, before ++ [.tick dt] <+: [.tick 0] →
      ¬(before.foldl act (new 7 0)).RelaysSusan dt := by
    intro before dt start
    obtain ⟨rfl, rfl⟩ := only start
    rintro ⟨-, ⟨sent, -⟩ | ⟨sent, -⟩⟩
    · rw [Game.Launched, List.foldl_nil, quiet.1] at sent
      cases sent
    · rw [Game.Launched, List.foldl_nil, quiet.2] at sent
      cases sent
  have safe : ∀ before dt, before ++ [.tick dt] <+: [.tick 0] →
      ¬(before.foldl act (new 7 0)).Strands dt := by
    intro before dt start
    obtain ⟨rfl, rfl⟩ := only start
    rw [List.foldl_nil]
    exact early
  exact (orders_match_iff 7 0 [.tick 0] plain).mpr safe [.tick 0] (List.prefix_refl _)

end ComputerMatch

end BattleTris
