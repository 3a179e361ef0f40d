import BattleTris.Match.ClearFunds

/-!
Mondale over whole matches.

A theft leaves its sender in one half of the relay and reaches the other side at once,
so the holdings of the two sides only grow by the clear funds of their ticks.
-/

namespace BattleTris

open Loop

/-- The input changes funds by hand. -/
def Input.deals : Input → Bool
  | .buyWeapon _ => true
  | .sellWeapon _ => true
  | .addFunds _ => true
  | _ => false

namespace Game

variable {g h : Game}

/-- The funds of a player and the thefts on their way from it. -/
def cash (g : Game) : Int × List Int := (g.purse.1, g.purse.2.1)

theorem cash_of_purse (same : h.purse = g.purse) : h.cash = g.cash := by
  unfold cash
  rw [same]

theorem holdings_of_cash (same : h.cash = g.cash) : h.holdings = g.holdings :=
  congrArg (fun c : Int × List Int => c.1 + c.2.sum) same

theorem Solvent.of_cash (solvent : g.Solvent) (same : h.cash = g.cash) : h.Solvent := by
  obtain ⟨funds, thefts⟩ := Prod.mk.inj same
  refine ⟨?_, ?_⟩
  · rw [funds]
    exact solvent.1
  · rw [thefts]
    exact solvent.2

theorem receiveOpScore_purse (g : Game) (score lines funds : Int) :
    (g.receiveOpScore score lines funds).purse = g.purse := by
  have raised : ((g.mirrorScore score funds).raiseStack (lines - g.score.opLines)).purse =
      g.purse := by
    unfold raiseStack
    split
    · refine forRange_invariant (P := fun h : Game => h.purse = g.purse) ?_ rfl
      intro _ h _ _ kept
      exact kept
    · rfl
  exact (updateBazaar_purse _).trans raised

theorem addFunds_purse (g : Game) (amount : Int) :
    (g.addFunds amount).purse = (g.purse.1 + amount, g.purse.2) := by
  unfold addFunds
  split
  · next zero =>
    rw [zero, add_zero]
  · exact emit_purse rfl (g.setFunds (g.score.funds + amount))

/-- No input but a deal moves money. -/
theorem applyToGame_cash {i : Input} (honest : i.deals = false) (g : Game) :
    (i.applyToGame g).cash = g.cash := by
  have still {h : Game} (same : h.still = g.still) : h.cash = g.cash :=
    cash_of_purse (of_still_purse same)
  cases i with
  | moveLeft => exact still (g.shift_still g.leftX)
  | moveRight => exact still (g.shift_still g.rightX)
  | rotate => exact still g.rotate_still
  | beginDrop => exact still (g.dropFor_still _)
  | aiDrop => exact still (g.dropFor_still _)
  | softDrop => exact still g.softDrop_still
  | launchWeapon slot =>
    change (g.launchWeapon slot).cash = g.cash
    apply cash_of_purse
    unfold launchWeapon
    split
    · rfl
    · cases g.arsenal.token slot with
      | none => rfl
      | some t => exact emit_purse (e := .weaponLaunched t) rfl _
  | buyWeapon t => cases honest
  | sellWeapon t => cases honest
  | leaveBazaar => rfl
  | setPaused p => rfl
  | receiveWeapon t =>
    exact Input.onToken_kept (f := fun t g => g.receiveWeapon t) cash (fun _ _ => rfl) t g
  | receiveOpScore score lines funds =>
    exact cash_of_purse (g.receiveOpScore_purse score lines funds)
  | addFunds amount => cases honest
  | grantWeapon t =>
    exact Input.onToken_kept (f := fun t g => (g.grantWeapon t).2) cash (fun _ _ => rfl) t g

theorem Valued.act (valued : g.Valued) {a : Action}
    (swaps : ∀ cells, a = .queueBoardSwap cells →
      ∃ h : Game, h.board.Tiled Board.valued ∧ cells = h.exportBoard) : (g.act a).Valued :=
  Tiled.act Board.tiling_valued imports_valued valued swaps

theorem valued_new (seed : Nat) : (new seed).Valued := Tiled.new Board.tiling_valued seed

theorem new_purse (seed : Nat) : (new seed).purse = (0, [], []) := spawn_purse (blank seed)

end Game

namespace Versus

open Game

variable {s : Side} {v v' : Versus} {e : GameEvent}

/-! ## One event of the relay -/

/-- A weapon that waits goes on waiting while the relay runs. -/
theorem Relayed.pending (relayed : Relayed s v e v') (x : Side) {t : WeaponToken}
    (waits : t ∈ (v.game x).pending) : t ∈ (v'.game x).pending := by
  have credited (g : Game) (amount : Int) : (g.addFunds amount).pending = g.pending :=
    congrArg (·.2.2) (g.addFunds_purse amount)
  cases relayed with
  | quiet games => rwa [games]
  | weapon r games =>
    rw [games]
    split
    · exact List.mem_append_left _ waits
    · exact waits
  | keating games =>
    rw [games]
    split
    · rwa [credited]
    · exact List.mem_append_left _ waits
  | swap _ games => rwa [games]
  | susan _ games => rwa [games]
  | scored games =>
    rw [games]
    split
    · change t ∈ ((v.game x).receiveOpScore _ _ _).purse.2.2
      rw [receiveOpScore_purse]
      exact waits
    · exact waits
  | fundsStolen games =>
    rw [games]
    split
    · rwa [credited]
    · exact waits

/-- Without Keating, an event that is no theft moves no money. -/
theorem Relayed.cash (relayed : Relayed s v e v') (plain : theft e = none)
    (untouched : ∀ x, (v'.game x).Untouched) (x : Side) :
    (v'.game x).cash = (v.game x).cash := by
  cases relayed with
  | quiet games => rw [games]
  | weapon r games =>
    rw [games]
    split <;> rfl
  | keating games =>
    have delivered : .keating ∈ (v'.game s.other).pending := by
      rw [games, if_neg s.other_ne]
      exact List.mem_append_right _ List.mem_cons_self
    exact absurd delivered (untouched s.other).1
  | swap _ games => rw [games]; rfl
  | susan _ games => rw [games]; rfl
  | scored games =>
    rw [games]
    split
    · exact cash_of_purse (receiveOpScore_purse _ _ _ _)
    · rfl
  | fundsStolen => cases plain

theorem Relayed.valued (relayed : Relayed s v e v') (valued : ∀ x, (v.game x).Valued) (x : Side) :
    (v'.game x).Valued := by
  have here := valued x
  have input (i : Input) : (i.applyToGame (v.game x)).Valued :=
    here.act (a := .input i) nofun
  cases relayed with
  | quiet games => rw [games]; exact here
  | weapon r games =>
    rw [games]
    split
    · exact ⟨here.board, here.stands, here.waiting⟩
    · exact here
  | keating games =>
    rw [games]
    split
    · exact input (.addFunds _)
    · exact ⟨here.board, here.stands, here.waiting⟩
  | swap _ games =>
    rw [games]
    exact here.act (a := .queueBoardSwap (v.game x.other).exportBoard) fun cells same => by
      cases same
      exact ⟨_, (valued x.other).board, rfl⟩
  | susan _ games =>
    rw [games]
    exact here.act (a := .setArsenal (v.game x.other).arsenal) nofun
  | scored games =>
    rw [games]
    split
    · exact input (.receiveOpScore _ _ _)
    · exact here
  | fundsStolen games =>
    rw [games]
    split
    · exact input (.addFunds _)
    · exact here

/-! ## The relay -/

/-- The money of a match: the holdings of the two sides. -/
def holdings (v : Versus) : Int := v.a.holdings + v.b.holdings

theorem holdings_side (v : Versus) (s : Side) :
    v.holdings = (v.game s).holdings + (v.game s.other).holdings := by
  cases s
  · rfl
  · exact add_comm _ _

/-- Both sides are solvent. -/
def Sound (v : Versus) : Prop := ∀ x, (v.game x).Solvent

/-- A relayed theft reaches the other side whole; nothing else moves money. -/
theorem relayEvent_pays (sound : v.Sound) (due : ∀ n, theft e = some n → 0 ≤ n)
    (untouched : ∀ x, ((relayEvent s v e).game x).Untouched) :
    (relayEvent s v e).holdings = v.holdings + ((theft e).getD 0) ∧ (relayEvent s v e).Sound ∧
      ∀ x, ((relayEvent s v e).game x).purse.2.1 = (v.game x).purse.2.1 := by
  have relayed := relayed_relayEvent s v e
  by_cases plain : theft e = none
  · have cash := relayed.cash plain untouched
    generalize relayEvent s v e = w at cash ⊢
    refine ⟨?_, fun x => (sound x).of_cash (cash x), fun x => congrArg Prod.snd (cash x)⟩
    rw [plain, Option.getD_none, add_zero]
    exact congrArg₂ (· + ·) (holdings_of_cash (cash .a)) (holdings_of_cash (cash .b))
  · cases e with
    | fundsStolen amount =>
      have games (x : Side) : ((relayEvent s v (.fundsStolen amount)).game x).purse =
          if x = s.other then ((v.game x).purse.1 + amount, (v.game x).purse.2)
          else (v.game x).purse := by
        unfold relayEvent
        dsimp only
        rw [game_pushOutbox, game_modify]
        split
        · exact addFunds_purse _ _
        · rfl
      generalize relayEvent s v (.fundsStolen amount) = w at games ⊢
      have here := games s
      have there := games s.other
      rw [if_neg s.ne_other] at here
      rw [if_pos rfl] at there
      refine ⟨?_, fun x => ?_, fun x => ?_⟩
      · rw [holdings_side w s, holdings_side v s]
        unfold Game.holdings
        rw [here, there]
        dsimp only
        rw [show (theft (.fundsStolen amount)).getD 0 = amount from rfl]
        omega
      · have solvent := sound x
        unfold Solvent
        rw [games]
        split
        · exact ⟨Int.add_nonneg solvent.1 (due amount rfl), solvent.2⟩
        · exact solvent
      · rw [games]
        split <;> rfl
    | _ => exact absurd rfl plain

/-- The events of a half pay the thefts among them, and put no theft in a queue. -/
theorem relayEvents_pay (es : List GameEvent) {v : Versus} (sound : v.Sound)
    (due : ∀ n ∈ es.filterMap theft, 0 ≤ n)
    (untouched : ∀ x, ((es.foldl (relayEvent s) v).game x).Untouched) :
    (es.foldl (relayEvent s) v).holdings = v.holdings + (es.filterMap theft).sum ∧
      (es.foldl (relayEvent s) v).Sound ∧
      ∀ x, ((es.foldl (relayEvent s) v).game x).purse.2.1 = (v.game x).purse.2.1 := by
  induction es generalizing v with
  | nil => exact ⟨(add_zero _).symm, sound, fun _ => rfl⟩
  | cons e es ih =>
    rw [List.foldl_cons] at untouched ⊢
    -- what waits after the first event still waits at the end
    have kept (x : Side) (t : WeaponToken) (waits : t ∈ ((relayEvent s v e).game x).pending) :
        t ∈ ((es.foldl (relayEvent s) (relayEvent s v e)).game x).pending :=
      foldl_invariant (P := fun w : Versus => t ∈ (w.game x).pending)
        (fun f _ w waits => (relayed_relayEvent s w f).pending x waits) waits
    have first := relayEvent_pays (s := s) (v := v) (e := e) sound
      (fun n same => due n (List.mem_filterMap.mpr ⟨e, List.mem_cons_self, same⟩))
      fun x => ⟨fun waits => (untouched x).1 (kept x _ waits),
        fun waits => (untouched x).2 (kept x _ waits)⟩
    have dues : ∀ n ∈ es.filterMap theft, 0 ≤ n := by
      intro n mem
      obtain ⟨f, queued, same⟩ := List.mem_filterMap.mp mem
      exact due n (List.mem_filterMap.mpr ⟨f, List.mem_cons_of_mem e queued, same⟩)
    obtain ⟨money, solvent, thefts⟩ := ih first.2.1 dues untouched
    refine ⟨?_, solvent, fun x => (thefts x).trans (first.2.2 x)⟩
    rw [money, first.1, add_assoc]
    cases same : theft e with
    | none => rw [List.filterMap_cons_none same, Option.getD_none, zero_add]
    | some n => rw [List.filterMap_cons_some same, Option.getD_some, List.sum_cons]

/-- A half of the relay keeps the money of the match and drains the thefts of its side. -/
theorem relayFrom_pays (sound : v.Sound) (untouched : ∀ x, ((v.relayFrom s).game x).Untouched) :
    (v.relayFrom s).holdings = v.holdings ∧ (v.relayFrom s).Sound ∧
      ((v.relayFrom s).game s).purse.2.1 = [] ∧
      ((v.relayFrom s).game s.other).purse.2.1 = (v.game s.other).purse.2.1 := by
  have here : ((v.setGame s (v.game s).takeEvents.2).game s).purse =
      ((v.game s).purse.1, [], (v.game s).purse.2.2) := by
    rw [game_setGame, if_pos rfl]
    rfl
  have there : (v.setGame s (v.game s).takeEvents.2).game s.other = v.game s.other := by
    rw [game_setGame, if_neg s.other_ne]
  have drained : (v.setGame s (v.game s).takeEvents.2).Sound := by
    intro x
    rcases Side.eq_or_eq_other x s with rfl | rfl
    · unfold Solvent
      rw [here]
      exact ⟨(sound x).1, nofun⟩
    · rw [there]
      exact sound s.other
  obtain ⟨money, solvent, thefts⟩ := relayEvents_pay (v.game s).events drained (sound s).2 untouched
  refine ⟨?_, solvent, ?_, ?_⟩
  · refine money.trans ?_
    rw [holdings_side _ s, there, holdings_side v s]
    unfold Game.holdings
    rw [here]
    change (v.game s).purse.1 + 0 + _ + (v.game s).purse.2.1.sum = _
    omega
  · refine (thefts s).trans ?_
    rw [here]
  · refine (thefts s.other).trans ?_
    rw [there]

theorem relayFrom_pending (v : Versus) (s x : Side) {t : WeaponToken}
    (waits : t ∈ (v.game x).pending) : t ∈ ((v.relayFrom s).game x).pending := by
  refine relayFrom_invariant (P := fun w : Versus => t ∈ (w.game x).pending) s (fun waits => ?_)
    (fun w e w' _ relayed waits => relayed.pending x waits) waits
  rw [game_setGame]
  split
  · next same => exact same ▸ waits
  · exact waits

theorem relay_pays (sound : v.Sound) (untouched : ∀ x, (v.relay.game x).Untouched) :
    v.relay.holdings = v.holdings ∧ v.relay.Sound ∧ ∀ x, (v.relay.game x).purse.2.1 = [] := by
  have between (x : Side) : ((v.relayFrom .a).game x).Untouched :=
    ⟨fun waits => (untouched x).1 (relayFrom_pending _ .b x waits),
      fun waits => (untouched x).2 (relayFrom_pending _ .b x waits)⟩
  obtain ⟨first, sound, drained, -⟩ := relayFrom_pays sound between
  obtain ⟨second, sound, drained', kept⟩ := relayFrom_pays sound untouched
  refine ⟨second.trans first, sound, fun x => ?_⟩
  cases x
  · exact kept.trans drained
  · exact drained'

theorem valued_relay (valued : ∀ x, (v.game x).Valued) (x : Side) : (v.relay.game x).Valued := by
  have half (v : Versus) (s : Side) (valued : ∀ x, (v.game x).Valued) :
      ∀ x, ((v.relayFrom s).game x).Valued := by
    refine relayFrom_invariant (P := fun w => ∀ x, (w.game x).Valued) s (fun valued x => ?_)
      (fun w e w' _ relayed held => relayed.valued held) valued
    rw [game_setGame]
    split
    · exact (valued s).act (a := .takeEvents) nofun
    · exact valued x
  exact half _ .b (half v .a valued) x

/-! ## Whole matches -/

/-- The clear funds that a tick of the match credits. -/
def clearFunds (v : Versus) (dtMs : Int) : Int :=
  if v.ticks then v.a.tickFunds dtMs + v.b.tickFunds dtMs else 0

/-- `step`, with the clear funds credited so far. -/
def ledger (s : Versus × Int) (e : MatchEvent) : Versus × Int :=
  (s.1.step e, match e with
    | .input _ _ => s.2
    | .tick dtMs => s.2 + s.1.clearFunds dtMs)

/-- The event deals no money by hand and delivers no Keating and no Reagan: a weapon
that is delivered waits in its victim's queue when the event is over. -/
def NoLevy (v : Versus) (e : MatchEvent) : Prop :=
  (∀ s i, e = .input s i → i.deals = false) ∧ ∀ x, ((v.step e).game x).Untouched

/-- The money of a match between two events: all of it is in the funds. -/
structure Balanced (v : Versus) (credited : Int) : Prop where
  valued : ∀ x, (v.game x).Valued
  untouched : ∀ x, (v.game x).Untouched
  sound : v.Sound
  settled : ∀ x, (v.game x).purse.2.1 = []
  money : v.holdings = credited

theorem balanced_new (seedA seedB : Nat) : (new seedA seedB).Balanced 0 := by
  have purse (x : Side) : ((new seedA seedB).game x).purse = (0, [], []) := by
    cases x
    · exact Game.new_purse seedA
    · exact Game.new_purse seedB
  refine ⟨fun x => ?_, fun x => ?_, fun x => ?_, fun x => ?_, ?_⟩
  · cases x
    · exact Game.valued_new seedA
    · exact Game.valued_new seedB
  · have none : ((new seedA seedB).game x).pending = [] := congrArg (·.2.2) (purse x)
    unfold Untouched
    rw [none]
    exact ⟨nofun, nofun⟩
  · unfold Solvent
    rw [purse]
    exact ⟨le_rfl, nofun⟩
  · rw [purse]
  · rw [holdings_side _ .a]
    unfold Game.holdings
    rw [purse, purse]
    rfl

theorem Balanced.advance {n : Int} (balanced : v.Balanced n) (dtMs : Int)
    (ongoing : v.result = 0) :
    (v.advance dtMs).holdings = n + v.clearFunds dtMs ∧ (v.advance dtMs).Sound ∧
      ∀ x, ((v.advance dtMs).game x).Valued := by
  have pays (x : Side) := pays_tick (balanced.valued x) (balanced.untouched x) dtMs
  have money := balanced.money
  have games := v.game_advance dtMs
  unfold clearFunds ticks
  by_cases barred : v.barrier = true
  · have still (x : Side) : (v.advance dtMs).game x = v.game x := by
      rw [games, if_pos barred]
    rw [if_neg (by simp [barred]), add_zero, ← money]
    refine ⟨?_, fun x => ?_, fun x => ?_⟩
    · rw [holdings_side _ .a, still, still]
      rfl
    · rw [still]
      exact balanced.sound x
    · rw [still]
      exact balanced.valued x
  · have ticked (x : Side) : (v.advance dtMs).game x = (v.game x).tick dtMs := by
      rw [games, if_neg barred]
    rw [if_pos (by simp [ongoing, barred]), ← money]
    refine ⟨?_, fun x => ?_, fun x => ?_⟩
    · rw [holdings_side _ .a, ticked, ticked, (pays _).holdings, (pays _).holdings]
      change v.a.holdings + v.a.tickFunds dtMs + (v.b.holdings + v.b.tickFunds dtMs) =
        v.a.holdings + v.b.holdings + (v.a.tickFunds dtMs + v.b.tickFunds dtMs)
      omega
    · rw [ticked]
      exact (pays x).solvent (balanced.sound x)
    · rw [ticked]
      exact (balanced.valued x).tick dtMs

theorem Balanced.tick {n : Int} (balanced : v.Balanced n) (dtMs : Int)
    (untouched : ∀ x, ((v.tick dtMs).game x).Untouched) :
    (v.tick dtMs).Balanced (n + v.clearFunds dtMs) := by
  unfold Versus.tick at untouched ⊢
  by_cases ended : v.result ≠ 0
  · have idle : v.clearFunds dtMs = 0 := by
      unfold clearFunds ticks
      rw [if_neg (by simp [ended])]
    rw [if_pos ended, idle, add_zero]
    exact balanced
  · rw [if_neg ended] at untouched ⊢
    obtain ⟨money, sound, valued⟩ := balanced.advance dtMs (not_not.mp ended)
    obtain ⟨same, sound, settled⟩ := relay_pays sound untouched
    exact ⟨valued_relay valued, untouched, sound, settled, same.trans money⟩

theorem Balanced.input {n : Int} (balanced : v.Balanced n) {s : Side} {i : Input}
    (honest : i.deals = false) (untouched : ∀ x, ((v.modify s i.applyToGame).game x).Untouched) :
    (v.modify s i.applyToGame).Balanced n := by
  have cash (x : Side) : ((v.modify s i.applyToGame).game x).cash = (v.game x).cash := by
    rw [game_modify]
    split
    · exact applyToGame_cash honest _
    · rfl
  refine ⟨fun x => ?_, untouched, fun x => (balanced.sound x).of_cash (cash x), fun x => ?_, ?_⟩
  · rw [game_modify]
    split
    · exact (balanced.valued x).act (a := .input i) nofun
    · exact balanced.valued x
  · exact (congrArg Prod.snd (cash x)).trans (balanced.settled x)
  · refine Eq.trans ?_ balanced.money
    exact congrArg₂ (· + ·) (holdings_of_cash (cash .a)) (holdings_of_cash (cash .b))

/-- Whatever Mondales come and go on either side: the funds of the two sides sum to the
clear funds credited, and neither is negative. -/
theorem mondale_conserves {seedA seedB : Nat} {events : List MatchEvent} {v : Versus}
    {credited : Int}
    (run : Run (fun s e => NoLevy s.1 e) ledger (new seedA seedB, 0) events (v, credited)) :
    v.a.score.funds + v.b.score.funds = credited ∧ 0 ≤ v.a.score.funds ∧
      0 ≤ v.b.score.funds := by
  have balanced : v.Balanced credited := by
    refine run.invariant (P := fun s : Versus × Int => s.1.Balanced s.2) ?_
      (balanced_new seedA seedB)
    rintro ⟨v, n⟩ e balanced ⟨honest, untouched⟩
    cases e with
    | input s i => exact balanced.input (honest s i rfl) untouched
    | tick dtMs => exact balanced.tick dtMs untouched
  refine ⟨?_, (balanced.sound .a).1, (balanced.sound .b).1⟩
  have money := balanced.money
  have a := balanced.settled .a
  have b := balanced.settled .b
  rw [holdings_side _ .a] at money
  unfold Game.holdings at money
  change (v.game .a).purse.1 + (v.game .a).purse.2.1.sum +
    ((v.game .b).purse.1 + (v.game .b).purse.2.1.sum) = credited at money
  rw [a, b, List.sum_nil, add_zero, add_zero] at money
  exact money

theorem mondale_conserves_received :
    let v := ((new 7 3).step (.input .a (.receiveWeapon 13))).step (.tick 20)
    let credited := ((new 7 3).step (.input .a (.receiveWeapon 13))).clearFunds 20
    v.a.score.funds + v.b.score.funds = 0 + credited ∧ 0 ≤ v.a.score.funds ∧
      0 ≤ v.b.score.funds := by
  have received : NoLevy (new 7 3) (.input .a (.receiveWeapon 13)) := by
    refine ⟨fun s i same => by cases same; rfl, fun x => ?_⟩
    unfold Untouched
    cases x <;> decide +kernel
  have ticked : NoLevy ((new 7 3).step (.input .a (.receiveWeapon 13))) (.tick 20) := by
    refine ⟨nofun, fun x => ?_⟩
    unfold Untouched
    cases x <;> decide +kernel
  have run {v : Versus} {s : Side} {i : Input} {dtMs : Int} (first : NoLevy v (.input s i))
      (second : NoLevy (v.step (.input s i)) (.tick dtMs)) :
      Run (fun s e => NoLevy s.1 e) ledger (v, 0) [.input s i, .tick dtMs]
        ((v.step (.input s i)).step (.tick dtMs), 0 + (v.step (.input s i)).clearFunds dtMs) := by
    have start : Run (fun s e => NoLevy s.1 e) ledger (v, 0) [] (v, 0) := .nil
    have given : Run (fun s e => NoLevy s.1 e) ledger (v, 0) [.input s i]
        (v.step (.input s i), 0) := start.snoc first
    exact given.snoc second
  exact mondale_conserves (run received ticked)

end Versus

end BattleTris
