import BattleTris.Match.Play
import BattleTris.Replay.VersusReplay

/-!
Two copies of a match of which one still holds events that the other has drained.

`Echo L v w` says so: the games of `v` are those of `w` with the events `L` in front of
their queues.  The relay resolves the extra events first; as long as they are the host's
business alone, both copies go on alike.
-/

namespace BattleTris

open Loop

namespace Game

/-- The game with earlier events in front of its queue. -/
def trailing (L : List GameEvent) (g : Game) : Game := { g with events := L ++ g.events }

theorem trailing_nil (g : Game) : g.trailing [] = g := rfl

theorem trailing_eq (L : List GameEvent) (g : Game) :
    g.trailing L = g.framed L g.score.opFunds := rfl

/-- An operation that commutes with every frame commutes with earlier events. -/
theorem trailing_map {f : Game → Game} (comm : ∀ es n g, f (framed es n g) = framed es n (f g))
    (L : List GameEvent) (g : Game) : f (g.trailing L) = (f g).trailing L := by
  rw [trailing_eq, trailing_eq, comm, opFunds_of_framed comm]

theorem receiveOpScore_trailing (L : List GameEvent) (g : Game) (score lines funds : Int) :
    (g.trailing L).receiveOpScore score lines funds =
      (g.receiveOpScore score lines funds).trailing L := by
  have written : (g.receiveOpScore score lines funds).score.opFunds = funds := by
    rw [receiveOpScore_funds g score lines funds funds]
    rfl
  rw [trailing_eq, trailing_eq, receiveOpScore_framed, written]

theorem onToken_trailing {f : WeaponToken → Game → Game}
    (comm : ∀ t es n g, f t (framed es n g) = framed es n (f t g)) (L : List GameEvent)
    (g : Game) (index : Int) :
    Input.onToken index f (g.trailing L) = (Input.onToken index f g).trailing L := by
  unfold Input.onToken
  cases WeaponToken.fromIndex index with
  | none => rfl
  | some t => exact trailing_map (comm t) L g

/-- No input looks at the events queued before it. -/
theorem applyToGame_trailing (i : Input) (L : List GameEvent) (g : Game) :
    i.applyToGame (g.trailing L) = (i.applyToGame g).trailing L := by
  cases i with
  | moveLeft => exact trailing_map (fun es n => moveLeft_dressed (frame es n)) L g
  | moveRight => exact trailing_map (fun es n => moveRight_dressed (frame es n)) L g
  | rotate => exact trailing_map (fun es n => rotate_dressed (frame es n)) L g
  | beginDrop => exact trailing_map (fun es n g => dropFor_dressed (frame es n) g _) L g
  | aiDrop => exact trailing_map (fun es n g => dropFor_dressed (frame es n) g _) L g
  | softDrop => exact trailing_map (fun es n => softDrop_dressed (frame es n)) L g
  | launchWeapon slot =>
    exact trailing_map (fun es n g => launchWeapon_dressed (frame es n) g slot) L g
  | buyWeapon t =>
    exact onToken_trailing (f := fun t g => (g.buyWeapon t).2)
      (fun t es n g => buyWeapon_framed es n g t) L g t
  | sellWeapon t =>
    exact onToken_trailing (f := fun t g => (g.sellWeapon t).2)
      (fun t es n g => sellWeapon_framed es n g t) L g t
  | leaveBazaar => rfl
  | setPaused p => rfl
  | receiveWeapon t =>
    exact onToken_trailing (f := fun t g => g.receiveWeapon t) (fun _ _ _ _ => rfl) L g t
  | receiveOpScore score lines funds => exact receiveOpScore_trailing L g score lines funds
  | addFunds amount => exact trailing_map (fun es n g => addFunds_framed es n g amount) L g
  | grantWeapon t =>
    exact onToken_trailing (f := fun t g => (g.grantWeapon t).2)
      (fun t es n g => grantWeapon_dressed (frame es n) g t) L g t

end Game

/-- A delivery reads no queue. -/
theorem deliverWeapon_trailing (L K : List GameEvent) (attacker victim : Game) (t : WeaponToken) :
    deliverWeapon (attacker.trailing L) (victim.trailing K) t =
      ((deliverWeapon attacker victim t).1.trailing L,
        (deliverWeapon attacker victim t).2.1.trailing K,
        (deliverWeapon attacker victim t).2.2) := by
  have credited (amount : Int) : (attacker.trailing L).addFunds amount =
      (attacker.addFunds amount).trailing L :=
    Game.trailing_map (f := (·.addFunds amount)) (fun es n g => Game.addFunds_framed es n g amount)
      L attacker
  have applied (r : Recipient) : applyWeapon (attacker.trailing L) (victim.trailing K) t r =
      ((applyWeapon attacker victim t r).1.trailing L,
        (applyWeapon attacker victim t r).2.1.trailing K,
        (applyWeapon attacker victim t r).2.2) := by
    cases t with
    | keating =>
      unfold applyWeapon
      dsimp only
      rw [show (victim.trailing K).score = victim.score from rfl, credited]
      rfl
    | _ => cases r <;> rfl
  have mirror : (attacker.trailing L).weaponActive .mirror = attacker.weaponActive .mirror := rfl
  unfold deliverWeapon
  rw [mirror]
  split
  · split
    · rfl
    · exact applied .attacker
  · exact applied .victim

namespace Versus

/-! ## Two copies -/

/-- `v` is `w` with the events `L` in front of its queues. -/
structure Echo (L : Side → List GameEvent) (v w : Versus) : Prop where
  games : ∀ x, v.game x = (w.game x).trailing (L x)
  result : v.result = w.result

variable {L : Side → List GameEvent} {v w : Versus}

theorem Echo.modify (echo : Echo L v w) {f : Game → Game}
    (comm : ∀ L g, f (Game.trailing L g) = (f g).trailing L) (s : Side) :
    Echo L (v.modify s f) (w.modify s f) := by
  refine ⟨fun x => ?_, ?_⟩
  · rw [game_modify, game_modify]
    split
    · rw [echo.games, comm]
    · exact echo.games x
  · rw [result_modify, result_modify, echo.result]

/-- The copies agree on whether somebody is shopping. -/
theorem Echo.barrier (echo : Echo L v w) : v.barrier = w.barrier := by
  have flag (x : Side) : (v.game x).inBazaar = (w.game x).inBazaar := by
    rw [echo.games]
    rfl
  have a := flag .a
  have b := flag .b
  unfold Versus.barrier
  change v.a.inBazaar = w.a.inBazaar at a
  change v.b.inBazaar = w.b.inBazaar at b
  rw [a, b]

theorem Echo.advance (echo : Echo L v w) (dtMs : Int) :
    Echo L (v.advance dtMs) (w.advance dtMs) := by
  have result (v : Versus) : (v.advance dtMs).result = v.result := by
    unfold Versus.advance
    split <;> rfl
  refine ⟨fun x => ?_, by rw [result, result, echo.result]⟩
  rw [game_advance, game_advance, echo.barrier, echo.games]
  split
  · rfl
  · exact Game.trailing_map (f := (·.tick dtMs)) (fun es n g => Game.tick_framed es n g dtMs) _ _

/-- What a launch makes of the games. -/
theorem game_relayLaunch (s : Side) (v : Versus) (t : WeaponToken) (x : Side) :
    (v.relayLaunch s t).game x =
      if isSpy t then v.game x
      else if x = s then (deliverWeapon (v.game s) (v.game s.other) t).1
      else (deliverWeapon (v.game s) (v.game s.other) t).2.1 := by
  by_cases spy : isSpy t = true
  · rw [if_pos spy]
    unfold relayLaunch
    rw [if_pos spy]
    split
    · rfl
    · cases x <;> rfl
  · rw [if_neg spy]
    generalize delivered : deliverWeapon (v.game s) (v.game s.other) t = r
    obtain ⟨attacker, victim, d⟩ := r
    rw [relayLaunch_of_deliver (eq_false_of_ne_true spy) delivered]
    obtain ⟨onVictim, onAttacker, credit, needsKeyframe⟩ := d
    cases onVictim <;> cases onAttacker <;> cases credit <;> cases s <;> cases x <;> rfl

theorem result_relayLaunch (s : Side) (v : Versus) (t : WeaponToken) :
    (v.relayLaunch s t).result = v.result := by
  by_cases spy : isSpy t = true
  · unfold relayLaunch
    rw [if_pos spy]
    split <;> rfl
  · generalize delivered : deliverWeapon (v.game s) (v.game s.other) t = r
    obtain ⟨attacker, victim, d⟩ := r
    rw [relayLaunch_of_deliver (eq_false_of_ne_true spy) delivered]
    obtain ⟨onVictim, onAttacker, credit, needsKeyframe⟩ := d
    cases onVictim <;> cases onAttacker <;> cases credit <;> cases s <;> rfl

/-- Both copies resolve an event alike. -/
theorem Echo.relayEvent (echo : Echo L v w) (s : Side) (e : GameEvent) :
    Echo L (Versus.relayEvent s v e) (Versus.relayEvent s w e) := by
  have outbox {v w : Versus} (echo : Echo L v w) (x : Side) (e e' : RelayEvent) :
      Echo L (v.pushOutbox x e) (w.pushOutbox x e') := ⟨echo.games, echo.result⟩
  cases e with
  | weaponLaunched t =>
    refine ⟨fun x => ?_, ?_⟩
    · change (v.relayLaunch s t).game x = ((w.relayLaunch s t).game x).trailing (L x)
      rw [game_relayLaunch, game_relayLaunch, echo.games s, echo.games s.other,
        deliverWeapon_trailing]
      rcases x.eq_or_eq_other s with rfl | rfl
      · split
        · exact echo.games x
        · rw [if_pos rfl, if_pos rfl]
      · split
        · exact echo.games s.other
        · rw [if_neg (Side.other_ne s), if_neg (Side.other_ne s)]
    · change (v.relayLaunch s t).result = (w.relayLaunch s t).result
      rw [result_relayLaunch, result_relayLaunch, echo.result]
  | scored score lines funds =>
    exact outbox (echo.modify (fun L g => Game.receiveOpScore_trailing L g score lines funds)
      s.other) s.other _ _
  | fundsStolen amount =>
    exact outbox (echo.modify (fun L g =>
      Game.trailing_map (f := (·.addFunds amount))
        (fun es n g => Game.addFunds_framed es n g amount)
        L g) s.other) s.other _ _
  | gameOver =>
    have result := echo.result
    unfold Versus.relayEvent
    dsimp only
    rw [result]
    split
    · exact ⟨echo.games, rfl⟩
    · exact echo
  | enterBazaar => exact ⟨echo.games, echo.result⟩
  | locked => exact echo
  | airslide => exact echo
  | idiot => exact echo

/-- Both copies resolve a list of events alike. -/
theorem Echo.relayEvents (echo : Echo L v w) (s : Side) (es : List GameEvent) :
    Echo L (es.foldl (Versus.relayEvent s) v) (es.foldl (Versus.relayEvent s) w) :=
  foldl_rel (R := Echo L) (fun e _ _ _ echo => echo.relayEvent s e) echo

/-- Bazaar entries are the host's business alone. -/
theorem Echo.entries (echo : Echo L v w) (s : Side) {es : List GameEvent}
    (entries : ∀ e ∈ es, e = .enterBazaar) : Echo L (es.foldl (Versus.relayEvent s) v) w := by
  refine foldl_invariant (P := fun v => Echo L v w) (fun e mem v echo => ?_) echo
  rw [entries e mem]
  exact ⟨echo.games, echo.result⟩

/-- A half of the relay drains the extra events of its side along with the others. -/
theorem Echo.relayFrom (echo : Echo L v w) (s : Side) (entries : ∀ e ∈ L s, e = .enterBazaar) :
    Echo (Function.update L s []) (v.relayFrom s) (w.relayFrom s) := by
  have drained : Echo (Function.update L s []) (v.setGame s (v.game s).takeEvents.2)
      (w.setGame s (w.game s).takeEvents.2) := by
    refine ⟨fun x => ?_, ?_⟩
    · rw [game_setGame, game_setGame]
      split
      · next same =>
        subst same
        rw [Function.update_self, echo.games]
        rfl
      · next apart =>
        rw [Function.update_of_ne apart]
        exact echo.games x
    · rw [result_setGame, result_setGame]
      exact echo.result
  have queue : (v.game s).events = L s ++ (w.game s).events := by
    rw [echo.games]
    rfl
  unfold Versus.relayFrom Game.takeEvents
  dsimp only
  rw [queue, List.foldl_append]
  exact (drained.entries s entries).relayEvents s _

/-- A tick of a running match brings the copies together. -/
theorem Echo.tick (echo : Echo L v w) (entries : v.result = 0 → ∀ x, ∀ e ∈ L x, e = .enterBazaar)
    (dtMs : Int) : ∃ K, Echo K (v.tick dtMs) (w.tick dtMs) := by
  unfold Versus.tick
  rw [← echo.result]
  by_cases ongoing : v.result = 0
  · rw [if_neg (by simp [ongoing]), if_neg (by simp [ongoing])]
    have first := (echo.advance dtMs).relayFrom .a (entries ongoing .a)
    have second := first.relayFrom .b (by
      rw [Function.update_of_ne (by decide)]
      exact entries ongoing .b)
    exact ⟨_, second⟩
  · rw [if_pos ongoing, if_pos ongoing]
    exact ⟨L, echo⟩

/-! ## What the relay leaves in the queues -/

/-- What an event leaves in a queue was there, publishes a score, or opens the bazaar. -/
theorem Relayed.queued {s : Side} {e : GameEvent} {v v' : Versus} (relayed : Relayed s v e v')
    (x : Side) {f : GameEvent} (mem : f ∈ (v'.game x).events) :
    f ∈ (v.game x).events ∨ f.isScored = true ∨ f = .enterBazaar := by
  have credit (g : Game) (amount : Int) (mem : f ∈ (g.addFunds amount).events) :
      f ∈ g.events ∨ f.isScored = true ∨ f = .enterBazaar := by
    rcases g.addFunds_events amount with same | ⟨score, lines, funds, scored⟩
    · exact .inl (same ▸ mem)
    · rw [scored] at mem
      rcases List.mem_append.mp mem with old | new
      · exact .inl old
      · rw [List.mem_singleton.mp new]
        exact .inr (.inl rfl)
  have mirrored (g : Game) (score lines funds : Int)
      (mem : f ∈ (g.receiveOpScore score lines funds).events) :
      f ∈ g.events ∨ f.isScored = true ∨ f = .enterBazaar := by
    rcases g.receiveOpScore_events score lines funds with same | entered
    · exact .inl (same ▸ mem)
    · rw [entered] at mem
      rcases List.mem_append.mp mem with old | new
      · exact .inl old
      · exact .inr (.inr (List.mem_singleton.mp new))
  cases relayed with
  | quiet games =>
    rw [games] at mem
    exact .inl mem
  | weapon r games =>
    rw [games] at mem
    split at mem <;> exact .inl mem
  | keating games =>
    rw [games] at mem
    split at mem
    · exact credit _ _ mem
    · exact .inl mem
  | swap _ games =>
    rw [games] at mem
    exact .inl mem
  | susan _ games =>
    rw [games] at mem
    exact .inl mem
  | scored games =>
    rw [games] at mem
    split at mem
    · exact mirrored _ _ _ _ mem
    · exact .inl mem
  | fundsStolen games =>
    rw [games] at mem
    split at mem
    · exact credit _ _ mem
    · exact .inl mem

/-- A half of the relay leaves scores and bazaar entries behind, and the other side's queue. -/
theorem queued_relayFrom (v : Versus) (s x : Side) {f : GameEvent}
    (mem : f ∈ ((v.relayFrom s).game x).events) :
    (x ≠ s ∧ f ∈ (v.game x).events) ∨ f.isScored = true ∨ f = .enterBazaar := by
  have resolved : ∀ x, ∀ f ∈ ((v.relayFrom s).game x).events,
      (x ≠ s ∧ f ∈ (v.game x).events) ∨ f.isScored = true ∨ f = .enterBazaar := by
    unfold relayFrom
    refine foldl_invariant (P := fun w : Versus => ∀ x, ∀ f ∈ (w.game x).events,
      (x ≠ s ∧ f ∈ (v.game x).events) ∨ f.isScored = true ∨ f = .enterBazaar)
      (fun e _ w held x f mem => ?_) (fun x f mem => ?_)
    · rcases (relayed_relayEvent s w e).queued x mem with old | new
      · exact held x f old
      · exact .inr new
    · rw [game_setGame] at mem
      split at mem
      · cases mem
      · next apart => exact .inl ⟨apart, mem⟩
  exact resolved x f mem

/-- So does the relay of a tick, in both queues. -/
theorem queued_relay (v : Versus) (x : Side) {f : GameEvent} (mem : f ∈ (v.relay.game x).events) :
    f.isScored = true ∨ f = .enterBazaar := by
  rcases queued_relayFrom (v.relayFrom .a) .b x mem with ⟨notB, before⟩ | new
  · rcases queued_relayFrom v .a x before with ⟨notA, -⟩ | new
    · cases x
      · exact absurd rfl notA
      · exact absurd rfl notB
    · exact new
  · exact new

end Versus

end BattleTris
