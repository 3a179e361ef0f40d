import BattleTris.Core.Exports
import BattleTris.Core.Regular
import BattleTris.Core.Versus

/-!
What resolving one event does to a match: `Relayed` lists the outcomes, and
`relayed_relayEvent` says that there are no others.
-/

namespace BattleTris

namespace Versus

/-! ## Reading and writing one side -/

@[simp] theorem game_setGame (v : Versus) (s : Side) (g : Game) (x : Side) :
    (v.setGame s g).game x = if x = s then g else v.game x := by
  cases s <;> cases x <;> rfl

@[simp] theorem setGame_game (v : Versus) (s : Side) : v.setGame s (v.game s) = v := by
  cases s <;> rfl

@[simp] theorem outbox_setGame (v : Versus) (s : Side) (g : Game) :
    (v.setGame s g).outbox = v.outbox := by
  cases s <;> rfl

@[simp] theorem result_setGame (v : Versus) (s : Side) (g : Game) :
    (v.setGame s g).result = v.result := by
  cases s <;> rfl

@[simp] theorem game_modify (v : Versus) (s : Side) (f : Game → Game) (x : Side) :
    (v.modify s f).game x = if x = s then f (v.game x) else v.game x := by
  rw [modify, game_setGame]
  split
  · next same => rw [same]
  · rfl

@[simp] theorem outbox_modify (v : Versus) (s : Side) (f : Game → Game) :
    (v.modify s f).outbox = v.outbox :=
  outbox_setGame v s _

@[simp] theorem result_modify (v : Versus) (s : Side) (f : Game → Game) :
    (v.modify s f).result = v.result :=
  result_setGame v s _

@[simp] theorem game_pushOutbox (v : Versus) (s : Side) (e : RelayEvent) (x : Side) :
    (v.pushOutbox s e).game x = v.game x := by
  cases x <;> rfl

@[simp] theorem outbox_pushOutbox (v : Versus) (s : Side) (e : RelayEvent) (x : Side) :
    (v.pushOutbox s e).outbox x = if x = s then v.outbox x ++ [e] else v.outbox x := by
  unfold pushOutbox
  rcases eq_or_ne x s with rfl | apart
  · simp
  · simp [apart]

@[simp] theorem result_pushOutbox (v : Versus) (s : Side) (e : RelayEvent) :
    (v.pushOutbox s e).result = v.result := rfl

/-! ## The outcomes of one event -/

/-- The outcomes of resolving an event of side `s` in the match `v`. -/
inductive Relayed (s : Side) (v : Versus) : GameEvent → Versus → Prop where
  /-- Nothing reaches a game: a spy, a fizzle, or an event for the host alone. -/
  | quiet {e : GameEvent} {v' : Versus} (games : ∀ x, v'.game x = v.game x)
    (outbox : v'.outbox = v.outbox) : Relayed s v e v'
  /-- A weapon is queued on one side, its victim or its cursed launcher. -/
  | weapon {t : WeaponToken} {v' : Versus} (r : Side)
    (games : ∀ x, v'.game x = if x = r then (v.game x).receiveWeapon t else v.game x)
    (outbox : ∀ x, v'.outbox x =
      if x = r then v.outbox x ++ [.receiveWeapon t] else v.outbox x) :
    Relayed s v (.weaponLaunched t) v'
  /-- Keating also credits its launcher with the victim's funds. -/
  | keating {v' : Versus}
    (games : ∀ x, v'.game x = if x = s then (v.game x).addFunds (v.game s.other).score.funds
      else (v.game x).receiveWeapon .keating)
    (outbox : ∀ x, v'.outbox x = v.outbox x ++
      [if x = s then .addFunds (v.game s.other).score.funds else .receiveWeapon .keating]) :
    Relayed s v (.weaponLaunched .keating) v'
  /-- Swap puts each side's board in waiting on the other. -/
  | swap {v' : Versus} (clear : (v.game s).weaponActive .mirror = false)
    (games : ∀ x, v'.game x = (v.game x).queueBoardSwap (v.game x.other).exportBoard)
    (outbox : v'.outbox = v.outbox) : Relayed s v (.weaponLaunched .swap) v'
  /-- Susan exchanges the arsenals. -/
  | susan {v' : Versus} (clear : (v.game s).weaponActive .mirror = false)
    (games : ∀ x, v'.game x = { v.game x with arsenal := (v.game x.other).arsenal })
    (outbox : v'.outbox = v.outbox) : Relayed s v (.weaponLaunched .susan) v'
  | scored {score lines funds : Int} {v' : Versus}
    (games : ∀ x, v'.game x =
      if x = s.other then (v.game x).receiveOpScore score lines funds else v.game x)
    (outbox : ∀ x, v'.outbox x =
      if x = s.other then v.outbox x ++ [.receiveOpScore score lines] else v.outbox x) :
    Relayed s v (.scored score lines funds) v'
  | fundsStolen {amount : Int} {v' : Versus}
    (games : ∀ x, v'.game x =
      if x = s.other then (v.game x).addFunds amount else v.game x)
    (outbox : ∀ x, v'.outbox x =
      if x = s.other then v.outbox x ++ [.addFunds amount] else v.outbox x) :
    Relayed s v (.fundsStolen amount) v'

/-- A weapon that only its recipient feels. -/
def Ordinary (t : WeaponToken) : Prop := t ≠ .swap ∧ t ≠ .susan ∧ t ≠ .keating

theorem applyWeapon_attacker {t : WeaponToken} (ordinary : Ordinary t) (attacker victim : Game) :
    applyWeapon attacker victim t .attacker =
      (attacker.receiveWeapon t, victim, { Delivery.none with queuedOnAttacker := some t }) := by
  obtain ⟨swap, susan, keating⟩ := ordinary
  cases t <;> first | rfl | contradiction

theorem applyWeapon_victim {t : WeaponToken} (ordinary : Ordinary t) (attacker victim : Game) :
    applyWeapon attacker victim t .victim =
      (attacker, victim.receiveWeapon t, { Delivery.none with queuedOnVictim := some t }) := by
  obtain ⟨swap, susan, keating⟩ := ordinary
  cases t <;> first | rfl | contradiction

theorem relayLaunch_of_deliver {s : Side} {v : Versus} {t : WeaponToken}
    (spy : isSpy t = false) {attacker victim : Game} {d : Delivery}
    (delivered : deliverWeapon (v.game s) (v.game s.other) t = (attacker, victim, d)) :
    v.relayLaunch s t =
      { ((v.setGame s attacker).setGame s.other victim).recordDelivery d s s.other with
        dirty := d.needsKeyframe || v.dirty } := by
  unfold relayLaunch
  rw [if_neg (by simp [spy]), delivered]
  obtain ⟨onVictim, onAttacker, credit, needsKeyframe⟩ := d
  cases needsKeyframe <;> cases onVictim <;> cases onAttacker <;> cases credit <;> cases s <;> rfl

/-- A Swap that no Mirror stops puts each board in waiting on the other side. -/
theorem game_relayEvent_swap {s : Side} {v : Versus}
    (clear : (v.game s).weaponActive .mirror = false) (x : Side) :
    (relayEvent s v (.weaponLaunched .swap)).game x =
      (v.game x).queueBoardSwap (v.game x.other).exportBoard := by
  have direct : deliverWeapon (v.game s) (v.game s.other) .swap =
      applyWeapon (v.game s) (v.game s.other) .swap .victim := by
    rw [deliverWeapon, if_neg (by simp [clear])]
  change (v.relayLaunch s .swap).game x = _
  rw [relayLaunch_of_deliver rfl direct]
  cases s <;> cases x <;> rfl

theorem relayed_relayLaunch (s : Side) (v : Versus) (t : WeaponToken) :
    Relayed s v (.weaponLaunched t) (v.relayLaunch s t) := by
  by_cases spy : isSpy t = true
  · unfold relayLaunch
    rw [if_pos spy]
    split
    · exact .quiet (fun _ => rfl) rfl
    · exact .quiet (fun x => by cases x <;> rfl) rfl
  have spy : isSpy t = false := by simpa using spy
  by_cases cursed : (v.game s).weaponActive .mirror = true
  · by_cases null : mirrorNullifies t = true
    · have delivered : deliverWeapon (v.game s) (v.game s.other) t =
          (v.game s, v.game s.other, .none) := by
        rw [deliverWeapon, if_pos cursed, if_pos null]
      rw [relayLaunch_of_deliver spy delivered]
      refine .quiet (fun x => ?_) ?_
      · cases s <;> cases x <;> rfl
      · cases s <;> rfl
    · have ordinary : Ordinary t := by
        refine ⟨?_, ?_, ?_⟩ <;> rintro rfl <;> exact null rfl
      have backfires : deliverWeapon (v.game s) (v.game s.other) t =
          applyWeapon (v.game s) (v.game s.other) t .attacker := by
        rw [deliverWeapon, if_pos cursed, if_neg null]
      rw [relayLaunch_of_deliver spy (backfires.trans (applyWeapon_attacker ordinary _ _))]
      refine .weapon s (fun x => ?_) (fun x => ?_)
      · cases s <;> cases x <;> rfl
      · cases s <;> cases x <;> rfl
  have clear : (v.game s).weaponActive .mirror = false := by simpa using cursed
  have direct : deliverWeapon (v.game s) (v.game s.other) t =
      applyWeapon (v.game s) (v.game s.other) t .victim := by
    rw [deliverWeapon, if_neg cursed]
  by_cases swap : t = .swap
  · subst swap
    rw [relayLaunch_of_deliver spy direct]
    refine .swap clear (fun x => ?_) ?_
    · cases s <;> cases x <;> rfl
    · cases s <;> rfl
  by_cases susan : t = .susan
  · subst susan
    rw [relayLaunch_of_deliver spy direct]
    refine .susan clear (fun x => ?_) ?_
    · cases s <;> cases x <;> rfl
    · cases s <;> rfl
  by_cases keating : t = .keating
  · subst keating
    rw [relayLaunch_of_deliver spy direct]
    refine .keating (fun x => ?_) (fun x => ?_)
    · cases s <;> cases x <;> rfl
    · cases s <;> cases x <;> rfl
  rw [relayLaunch_of_deliver spy (direct.trans (applyWeapon_victim ⟨swap, susan, keating⟩ _ _))]
  refine .weapon s.other (fun x => ?_) (fun x => ?_)
  · cases s <;> cases x <;> rfl
  · cases s <;> cases x <;> rfl

/-- One event resolves in one of the listed ways. -/
theorem relayed_relayEvent (s : Side) (v : Versus) (e : GameEvent) :
    Relayed s v e (relayEvent s v e) := by
  cases e with
  | weaponLaunched t => exact relayed_relayLaunch s v t
  | scored score lines funds =>
    exact .scored (fun x => by simp [relayEvent]) (fun x => by simp [relayEvent])
  | fundsStolen amount =>
    exact .fundsStolen (fun x => by simp [relayEvent]) (fun x => by simp [relayEvent])
  | gameOver =>
    unfold relayEvent
    dsimp only
    split
    · exact .quiet (fun x => by cases x <;> rfl) rfl
    · exact .quiet (fun _ => rfl) rfl
  | enterBazaar => exact .quiet (fun x => by cases x <;> rfl) rfl
  | locked => exact .quiet (fun _ => rfl) rfl
  | airslide => exact .quiet (fun _ => rfl) rfl
  | idiot => exact .quiet (fun _ => rfl) rfl

end Versus

/-! ## What the relay leaves alone -/

namespace Game

/-- A launch waits in the queue. -/
def Launched (g : Game) (t : WeaponToken) : Prop := .weaponLaunched t ∈ g.events

theorem raiseStack_fields (g : Game) (lines : Int) :
    (g.raiseStack lines).weapons = g.weapons ∧ (g.raiseStack lines).events = g.events := by
  unfold raiseStack
  split
  · refine Loop.forRange_invariant
      (P := fun h : Game => h.weapons = g.weapons ∧ h.events = g.events) ?_ ⟨rfl, rfl⟩
    intro _ h _ _ kept
    exact kept
  · exact ⟨rfl, rfl⟩

theorem receiveOpScore_weapons (g : Game) (score lines funds : Int) :
    (g.receiveOpScore score lines funds).weapons = g.weapons := by
  have raised := ((g.mirrorScore score funds).raiseStack_fields (lines - g.score.opLines)).1
  unfold receiveOpScore updateBazaar
  dsimp only
  split <;> exact raised

/-- A score message queues a bazaar entry at most. -/
theorem receiveOpScore_events (g : Game) (score lines funds : Int) :
    (g.receiveOpScore score lines funds).events = g.events ∨
      (g.receiveOpScore score lines funds).events = g.events ++ [.enterBazaar] := by
  have raised := ((g.mirrorScore score funds).raiseStack_fields (lines - g.score.opLines)).2
  unfold receiveOpScore updateBazaar
  dsimp only
  split
  · right
    exact congrArg (· ++ [GameEvent.enterBazaar]) raised
  · left
    exact raised

theorem addFunds_weapons (g : Game) (amount : Int) :
    (g.addFunds amount).weapons = g.weapons := by
  unfold addFunds
  split <;> rfl

/-- A credit queues a score at most. -/
theorem addFunds_events (g : Game) (amount : Int) :
    (g.addFunds amount).events = g.events ∨
      ∃ score lines funds,
        (g.addFunds amount).events = g.events ++ [.scored score lines funds] := by
  unfold addFunds
  split
  · exact .inl rfl
  · exact .inr ⟨_, _, _, rfl⟩

/-- No weapon turns on or off, and no launch is queued. -/
structure Steady (g h : Game) : Prop where
  weapons : h.weapons = g.weapons
  launched : ∀ t, h.Launched t → g.Launched t

theorem Steady.refl (g : Game) : Steady g g := ⟨rfl, fun _ launched => launched⟩

theorem Steady.trans {g h k : Game} (left : Steady g h) (right : Steady h k) : Steady g k :=
  ⟨right.weapons.trans left.weapons, fun t launched => left.launched t (right.launched t launched)⟩

theorem steady_receiveOpScore (g : Game) (score lines funds : Int) :
    Steady g (g.receiveOpScore score lines funds) := by
  refine ⟨g.receiveOpScore_weapons score lines funds, fun t launched => ?_⟩
  unfold Launched at *
  rcases g.receiveOpScore_events score lines funds with same | entered
  · rwa [same] at launched
  · simpa [entered] using launched

theorem steady_addFunds (g : Game) (amount : Int) : Steady g (g.addFunds amount) := by
  refine ⟨g.addFunds_weapons amount, fun t launched => ?_⟩
  unfold Launched at *
  rcases g.addFunds_events amount with same | ⟨_, _, _, scored⟩
  · rwa [same] at launched
  · simpa [scored] using launched

end Game

namespace Versus

variable {s : Side} {v v' : Versus} {e : GameEvent}

theorem Relayed.steady (relayed : Relayed s v e v') (x : Side) :
    Game.Steady (v.game x) (v'.game x) := by
  cases relayed with
  | quiet games => rw [games]; exact .refl _
  | weapon r games =>
    rw [games]
    split
    · exact ⟨rfl, fun _ launched => launched⟩
    · exact .refl _
  | keating games =>
    rw [games]
    split
    · exact Game.steady_addFunds _ _
    · exact ⟨rfl, fun _ launched => launched⟩
  | swap _ games => rw [games]; exact ⟨rfl, fun _ launched => launched⟩
  | susan _ games => rw [games]; exact ⟨rfl, fun _ launched => launched⟩
  | scored games =>
    rw [games]
    split
    · exact Game.steady_receiveOpScore _ _ _ _
    · exact .refl _
  | fundsStolen games =>
    rw [games]
    split
    · exact Game.steady_addFunds _ _
    · exact .refl _

/-- Resolving an event takes nothing out of a queue. -/
theorem Relayed.grows (relayed : Relayed s v e v') (x : Side) {f : GameEvent}
    (mem : f ∈ (v.game x).events) : f ∈ (v'.game x).events := by
  have credited (g : Game) (amount : Int) (mem : f ∈ g.events) :
      f ∈ (g.addFunds amount).events := by
    rcases g.addFunds_events amount with same | ⟨_, _, _, scored⟩
    · rwa [same]
    · rw [scored]
      exact List.mem_append_left _ mem
  cases relayed with
  | quiet games => rwa [games]
  | weapon r games =>
    rw [games]
    split <;> exact mem
  | keating games =>
    rw [games]
    split
    · exact credited _ _ mem
    · exact mem
  | swap _ games => rwa [games]
  | susan _ games => rwa [games]
  | scored games =>
    rw [games]
    split
    · rcases Game.receiveOpScore_events _ _ _ _ with same | entered
      · rwa [same]
      · rw [entered]
        exact List.mem_append_left _ mem
    · exact mem
  | fundsStolen games =>
    rw [games]
    split
    · exact credited _ _ mem
    · exact mem

theorem Relayed.regular (relayed : Relayed s v e v') (regular : ∀ x, (v.game x).Regular)
    (x : Side) : (v'.game x).Regular := by
  have here := regular x
  cases relayed with
  | quiet games => rw [games]; exact here
  | weapon r games =>
    rw [games]
    split <;> exact here
  | keating games =>
    rw [games]
    split
    · exact here.addFunds _
    · exact here
  | swap _ games =>
    rw [games]
    exact here.queueBoardSwap (Game.length_standardExport (regular x.other).board.width
      (regular x.other).board.height)
  | susan _ games => rw [games]; exact here
  | scored games =>
    rw [games]
    split
    · exact here.receiveOpScore _ _ _
    · exact here
  | fundsStolen games =>
    rw [games]
    split
    · exact here.addFunds _
    · exact here

/-- What every outcome keeps, once a side's queue is drained, that half of the
relay keeps. -/
theorem relayFrom_invariant {P : Versus → Prop} (s : Side)
    (drain : P v → P (v.setGame s (v.game s).takeEvents.2))
    (step : ∀ w e w', e ∈ (v.game s).events → Relayed s w e w' → P w → P w') (init : P v) :
    P (v.relayFrom s) :=
  Loop.foldl_invariant (P := P) (fun e mem w held => step w e _ mem (relayed_relayEvent s w e) held)
    (drain init)

theorem regular_relay (regular : ∀ x, (v.game x).Regular) (x : Side) :
    (v.relay.game x).Regular := by
  have half (v : Versus) (s : Side) (regular : ∀ x, (v.game x).Regular) :
      ∀ x, ((v.relayFrom s).game x).Regular := by
    refine relayFrom_invariant (P := fun w => ∀ x, (w.game x).Regular) s (fun regular x => ?_)
      (fun w e w' _ relayed held => relayed.regular held) regular
    rw [game_setGame]
    split
    · exact regular s
    · exact regular x
  exact half _ .b (half v .a regular) x

theorem game_advance (v : Versus) (dtMs : Int) (x : Side) :
    (v.advance dtMs).game x = if v.barrier then v.game x else (v.game x).tick dtMs := by
  unfold advance
  split
  · rfl
  · cases x <;> rfl

theorem regular_tick (regular : ∀ x, (v.game x).Regular) (dtMs : Int) (x : Side) :
    ((v.tick dtMs).game x).Regular := by
  unfold tick
  split
  · exact regular x
  · refine regular_relay (fun y => ?_) x
    rw [game_advance]
    split
    · exact regular y
    · exact (regular y).tick dtMs

end Versus

end BattleTris
