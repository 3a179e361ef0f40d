import BattleTris.Ai.Computer
import BattleTris.Core.Slots
import BattleTris.Core.Stock

/-!
The computer's orders against its arsenal: every weapon it may launch is ordered as often as
it is held, as long as no order is fired into an open bazaar.
-/

namespace BattleTris

open Loop

/-! ## What an arsenal holds -/

namespace Arsenal

/-- How often the arsenal holds a weapon, over all its slots. -/
def stock (a : Arsenal) (w : WeaponToken) : Nat :=
  ∑ i, if a.rep i = some w then a.quantities i else 0

variable {a a' : Arsenal} {w t : WeaponToken}

theorem stock_eq_worth (a : Arsenal) (w : WeaponToken) :
    (a.stock w : Int) = a.worth fun t => if t = w then 1 else 0 := by
  unfold stock worth slotWorth
  push_cast
  refine Finset.sum_congr rfl fun i _ => ?_
  cases a.rep i with
  | none => simp
  | some t => by_cases same : t = w <;> simp [same]

theorem stock_buy (bought : a.buy w = (true, a')) (t : WeaponToken) :
    a'.stock t = a.stock t + if w = t then 1 else 0 := by
  have worth := worth_buy bought fun u => if u = t then 1 else 0
  rw [← stock_eq_worth, ← stock_eq_worth] at worth
  split at worth <;> rename_i same
  · rw [if_pos same]
    omega
  · rw [if_neg same]
    omega

theorem stock_useSlot {slot : Nat} (held : a.token slot = some w) (stocked : 0 < a.quantity slot)
    (t : WeaponToken) : (a.useSlot slot).stock t + (if w = t then 1 else 0) = a.stock t := by
  unfold token at held
  unfold quantity at stocked
  split at held
  · next inside =>
    rw [dif_pos inside] at stocked
    obtain ⟨n, count⟩ := Nat.exists_eq_succ_of_ne_zero (Nat.ne_of_gt stocked)
    have worth := a.worth_useSlot inside held count fun u => if u = t then 1 else 0
    rw [← stock_eq_worth, ← stock_eq_worth] at worth
    split at worth <;> rename_i same
    · rw [if_pos same]
      omega
    · rw [if_neg same]
      omega
  · cases held

/-- A weapon in no slot is not in stock. -/
theorem stock_eq_zero (none : ∀ slot < btArsenalSize,
    ¬(a.token slot = some w ∧ 0 < a.quantity slot)) : a.stock w = 0 := by
  unfold stock
  refine Finset.sum_eq_zero fun i _ => ?_
  split
  · next held =>
    have empty := none i.val i.isLt
    unfold token quantity at empty
    rw [dif_pos i.isLt, dif_pos i.isLt] at empty
    exact Nat.eq_zero_of_not_pos fun stocked => empty ⟨held, stocked⟩
  · rfl

end Arsenal

namespace Strategy

/-! ## What the orders ask for -/

/-- A launch of `w`, now or once its combo is complete. -/
def asksFor (w : WeaponToken) (o : Order) : Bool :=
  o.weapon = w && o.kind ≠ .canPurchase

/-- The pending launches of a weapon. -/
def pending (s : Strategy) (w : WeaponToken) : Nat := s.commando.countP (asksFor w)

/-- Every weapon that may be launched is held as often as it is ordered. -/
def Matched (s : Strategy) (g : Game) : Prop :=
  ∀ w, barred w = false → g.arsenal.stock w = s.pending w

/-- Whether a pass over the orders reaches a launch it may make. -/
def launchDue (opLines bazaarNo top : Int) : Int → List Order → Bool
  | _, [] => false
  | prevLine, o :: os =>
    let o := reschedule o prevLine opLines
    if fires o opLines bazaarNo top ∧ o.kind = .launch then
      if barred o.weapon then
        launchDue opLines bazaarNo top
          (if prevLine = -1 ∧ o.lineNo > -1 then o.lineNo else prevLine) os
      else true
    else launchDue opLines bazaarNo top prevLine os

theorem launchDue_cons (opLines bazaarNo top prevLine : Int) (o : Order) (os : List Order) :
    launchDue opLines bazaarNo top prevLine (o :: os) =
      let o := reschedule o prevLine opLines
      if fires o opLines bazaarNo top ∧ o.kind = .launch then
        if barred o.weapon then
          launchDue opLines bazaarNo top
            (if prevLine = -1 ∧ o.lineNo > -1 then o.lineNo else prevLine) os
        else true
      else launchDue opLines bazaarNo top prevLine os := rfl

theorem reschedule_launches (w : WeaponToken) (o : Order) (prevLine opLines : Int) :
    asksFor w (reschedule o prevLine opLines) = asksFor w o := by
  unfold reschedule
  split <;> rfl

theorem reschedule_kind (o : Order) (prevLine opLines : Int) :
    (reschedule o prevLine opLines).kind = o.kind := by
  unfold reschedule
  split <;> rfl

theorem reschedule_weapon (o : Order) (prevLine opLines : Int) :
    (reschedule o prevLine opLines).weapon = o.weapon := by
  unfold reschedule
  split <;> rfl

/-! ## Shopping -/

theorem pending_queue (s : Strategy) (o : Order) (w : WeaponToken) :
    (s.queue o).pending w = s.pending w + if asksFor w o then 1 else 0 := by
  unfold pending queue
  rw [List.countP_append, List.countP_singleton]

theorem pending_chain (s : Strategy) (w t : WeaponToken) : (s.chain w).pending t = s.pending t := by
  unfold chain
  cases w <;> first | rfl | (dsimp only; split <;> rfl)

theorem pending_complete (s : Strategy) (w t : WeaponToken) :
    (s.complete w).pending t = s.pending t := by
  unfold complete
  split <;> rfl

/-- A purchase is ordered once. -/
theorem pending_bought (s : Strategy) (w : WeaponToken) (price : Int) (t : WeaponToken) :
    (s.bought w price).pending t = s.pending t + if w = t then 1 else 0 := by
  have ordered (lineNo : Int) : asksFor t (orderAt (orderKind w) w lineNo) =
      decide (w = t) := by
    unfold orderKind orderAt asksFor
    dsimp only
    split <;> simp
  unfold bought
  dsimp only
  rw [pending_complete, pending_chain, pending_queue, ordered]
  by_cases reagan : w = .reagan
  · rw [if_pos reagan]
    simp only [decide_eq_true_eq]
    rfl
  · rw [if_neg reagan]
    simp only [decide_eq_true_eq]
    rfl

theorem pending_pickWeapon (n : Nat) (s : Strategy) (w : WeaponToken) :
    (s.pickWeapon n).pending w = s.pending w := by
  induction n generalizing s with
  | zero => rfl
  | succ n ih =>
    have drawn : s.drawWeapon.2.pending w = s.pending w := rfl
    unfold pickWeapon
    generalize s.drawWeapon = draw at drawn
    obtain ⟨_ | t, s'⟩ := draw
    · exact drawn
    · unfold settle
      dsimp only
      split
      · exact drawn
      · exact (ih s').trans drawn

theorem pending_promote (s : Strategy) (w : WeaponToken) : s.promote.pending w = s.pending w := by
  unfold promote
  split
  · unfold pending
    dsimp only
    rw [List.countP_map]
    refine List.countP_congr fun o _ => ?_
    rw [Function.comp_apply]
    split
    · next promoted =>
      unfold asksFor
      rw [promoted.1]
      simp
    · rfl
  · rfl

namespace Matched

variable {s s' : Strategy} {g g' : Game}

/-- Only the orders and the arsenal matter. -/
theorem congr (matched : s.Matched g) (orders : ∀ w, s'.pending w = s.pending w)
    (arsenal : g'.arsenal = g.arsenal) : s'.Matched g' := by
  intro w free
  rw [arsenal, orders, matched w free]

theorem buyNext (matched : s.Matched g) {carter : Bool}
    (bought : Strategy.buyNext carter s g = some (s', g')) : s'.Matched g' := by
  unfold Strategy.buyNext at bought
  split at bought
  · cases bought
  next w _ =>
  dsimp only at bought
  split at bought
  · cases bought
  rcases g.buyWeapon_cases w with refused | ⟨-, -, a, deal, paid⟩
  · rw [refused] at bought
    cases bought
  · rw [paid] at bought
    cases bought
    intro t free
    have held : (g.dealt (g.score.funds - g.bazaarPrice w) a).arsenal = a := rfl
    rw [held, Arsenal.stock_buy deal, matched t free, pending_bought]

theorem buyChain {carter : Bool} (n : Nat) (matched : s.Matched g) :
    (Strategy.buyChain carter n s g).1.Matched (Strategy.buyChain carter n s g).2 := by
  induction n generalizing s g with
  | zero => exact matched
  | succ n ih =>
    unfold Strategy.buyChain
    split
    · next bought => exact ih (matched.buyNext bought)
    · exact matched

theorem shopRound (carter : Bool) (matched : s.Matched g) :
    (Strategy.shopRound carter s g).2.1.Matched (Strategy.shopRound carter s g).2.2 := by
  have picked : (if s.nextWeapon = none then s.pickWeapon 256 else s).Matched g := by
    split
    · exact matched.congr (pending_pickWeapon 256 s) rfl
    · exact matched
  unfold Strategy.shopRound
  generalize (if s.nextWeapon = none then s.pickWeapon 256 else s) = t at picked
  dsimp only
  by_cases none : t.nextWeapon = none
  · rw [if_pos none]
    exact picked
  · rw [if_neg none]
    exact picked.buyChain _

theorem shopRounds (carter : Bool) (n : Nat) (matched : s.Matched g) :
    (Strategy.shopRounds carter n s g).1.Matched (Strategy.shopRounds carter n s g).2 := by
  induction n generalizing s g with
  | zero => exact matched
  | succ n ih =>
    have round := matched.shopRound carter
    unfold Strategy.shopRounds
    split
    · next visited =>
      rw [visited] at round
      exact ih round
    · next visited =>
      rw [visited] at round
      exact round

theorem goShopping (matched : s.Matched g) : (s.goShopping g).1.Matched (s.goShopping g).2 := by
  have opened : (allow { s with bazaarNo := s.bazaarNo + 1 } .swap
      (g.board.boardTop ≤ btSwapline)).Matched g := matched.congr (fun _ => rfl) rfl
  have shopped := opened.shopRounds (g.weaponActive .carter) 256
  unfold Strategy.goShopping
  dsimp only
  exact shopped.congr (pending_promote _) rfl

end Matched

/-! ## One order of the pass -/

/-- The orders behind the place `i`, with the one that stands there. -/
def Pass.ahead (p : Pass) : List Order := p.strategy.commando.drop p.i

section Visit

variable {opLines top : Int} {mirror : Bool} {p : Pass} {o : Order} {os : List Order}

/-- What is ordered, counted from the place on. -/
theorem pending_ahead (ahead : p.ahead = o :: os) (w : WeaponToken) :
    p.strategy.pending w = (p.strategy.commando.take p.i).countP (asksFor w) +
      ((if asksFor w o then 1 else 0) + os.countP (asksFor w)) := by
  unfold Pass.ahead at ahead
  unfold pending
  conv_lhs => rw [← List.take_append_drop p.i p.strategy.commando, ahead]
  rw [List.countP_append, List.countP_cons, Nat.add_comm (os.countP _)]

/-- The order at the place, and the queue without it. -/
theorem commando_ahead (ahead : p.ahead = o :: os) (o' : Order) :
    p.strategy.commando[p.i]? = some o ∧
      p.strategy.commando.set p.i o' = p.strategy.commando.take p.i ++ o' :: os ∧
      (p.strategy.commando.set p.i o').eraseIdx p.i = p.strategy.commando.take p.i ++ os ∧
      (p.strategy.commando.take p.i).length = p.i := by
  unfold Pass.ahead at ahead
  have split : p.strategy.commando = p.strategy.commando.take p.i ++ o :: os := by
    rw [← ahead, List.take_append_drop]
  have inside : p.i < p.strategy.commando.length := by
    have some := congrArg List.length ahead
    rw [List.length_drop, List.length_cons] at some
    omega
  have length : (p.strategy.commando.take p.i).length = p.i := List.length_take_of_le inside.le
  generalize p.strategy.commando.take p.i = before at split length
  rw [split, ← length]
  refine ⟨?_, ?_, ?_, rfl⟩
  · rw [List.getElem?_append_right le_rfl, Nat.sub_self]
    rfl
  · rw [List.set_append_right _ _ le_rfl, Nat.sub_self]
    rfl
  · rw [List.set_append_right _ _ le_rfl, Nat.sub_self, List.eraseIdx_append_of_length_le le_rfl,
      Nat.sub_self]
    rfl

/-- The strategy with other orders. -/
def withOrders (s : Strategy) (commando : List Order) : Strategy := { s with commando := commando }

/-- A rescheduled order is still counted once. -/
theorem pending_kept (ahead : p.ahead = o :: os) (w : WeaponToken) {o' : Order}
    (same : asksFor w o' = asksFor w o) :
    (p.strategy.withOrders (p.strategy.commando.take p.i ++ o' :: os)).pending w =
      p.strategy.pending w := by
  have before := pending_ahead ahead w
  have after : (p.strategy.withOrders (p.strategy.commando.take p.i ++ o' :: os)).pending w =
      (p.strategy.commando.take p.i).countP (asksFor w) + (o' :: os).countP (asksFor w) :=
    List.countP_append
  rw [List.countP_cons, same] at after
  omega

/-- The order taken out was counted once. -/
theorem pending_rest (ahead : p.ahead = o :: os) (w : WeaponToken) :
    (p.strategy.withOrders (p.strategy.commando.take p.i ++ os)).pending w +
      (if asksFor w o then 1 else 0) = p.strategy.pending w := by
  have before := pending_ahead ahead w
  have after : (p.strategy.withOrders (p.strategy.commando.take p.i ++ os)).pending w =
      (p.strategy.commando.take p.i).countP (asksFor w) + os.countP (asksFor w) :=
    List.countP_append
  omega

/-- What a visit does to the order `o`, rescheduled to `o'`, with `os` behind it. -/
inductive Visited (opLines top : Int) (mirror : Bool) (p : Pass) (o' : Order) (os : List Order) :
    Pass → Prop where
  | stays (idle : mirror = false →
      ¬(fires o' opLines p.strategy.bazaarNo top = true ∧ o'.kind = .launch))
    (shut : o'.kind = .canPurchase → fires o' opLines p.strategy.bazaarNo top = false) :
    Visited opLines top mirror p o' os { p with
      i := p.i + 1
      strategy := p.strategy.withOrders (p.strategy.commando.take p.i ++ o' :: os) }
  | unlocks (fired : fires o' opLines p.strategy.bazaarNo top = true)
    (kind : o'.kind = .canPurchase) :
    Visited opLines top mirror p o' os { p with
      strategy :=
        (p.strategy.withOrders (p.strategy.commando.take p.i ++ os)).allow o'.weapon true }
  | launches (fired : fires o' opLines p.strategy.bazaarNo top = true) (kind : o'.kind = .launch)
    (clear : mirror = false) :
    Visited opLines top mirror p o' os { p with
      prevLine := if p.prevLine = -1 ∧ o'.lineNo > -1 then o'.lineNo else p.prevLine
      strategy := ((p.strategy.withOrders (p.strategy.commando.take p.i ++ os)).launchWeapon
        p.game o'.weapon).1
      game := ((p.strategy.withOrders (p.strategy.commando.take p.i ++ os)).launchWeapon
        p.game o'.weapon).2 }

theorem visited (opLines top : Int) (mirror : Bool) (ahead : p.ahead = o :: os) :
    Visited opLines top mirror p (reschedule o p.prevLine opLines) os
      (visit opLines top mirror p) := by
  obtain ⟨here, replaced, removed, -⟩ := commando_ahead ahead (reschedule o p.prevLine opLines)
  unfold visit
  rw [here]
  dsimp only
  rw [removed, replaced]
  generalize reschedule o p.prevLine opLines = o'
  cases fired : fires o' opLines p.strategy.bazaarNo top with
  | false =>
    rw [if_neg (by simp)]
    exact .stays (fun _ due => absurd due.1 (by simp [fired])) fun _ => fired
  | true =>
    rw [if_pos rfl]
    cases kind : o'.kind with
    | launch =>
      cases mirror with
      | true =>
      exact .stays (fun clear => by cases clear) fun unlock => by cases kind.symm.trans unlock
      | false => exact .launches fired kind rfl
    | canPurchase => exact .unlocks fired kind
    | combo =>
      refine .stays (fun _ due => ?_) fun unlock => by cases kind.symm.trans unlock
      rw [kind] at due
      cases due.2

/-- At the end of the queue a visit does nothing. -/
theorem ahead_nil (inside : p.i < p.strategy.commando.length) : ∃ o os, p.ahead = o :: os := by
  unfold Pass.ahead
  exact ⟨_, _, List.drop_eq_getElem_cons inside⟩

end Visit

/-! ## A launch -/

theorem pending_coolDown (s : Strategy) (opLines : Int) (w : WeaponToken) :
    (s.coolDown opLines).pending w = s.pending w := by
  have unlock (t : WeaponToken) (lineNo : Int) :
      asksFor w (orderAt .canPurchase t lineNo) = false := by
    simp [asksFor, orderAt]
  unfold coolDown
  dsimp only [List.foldl_cons, List.foldl_nil]
  rw [pending_queue, pending_queue, pending_queue, unlock, unlock, unlock]
  rfl

theorem pending_launchWeapon (s : Strategy) (g : Game) (w t : WeaponToken) :
    (s.launchWeapon g w).1.pending t = s.pending t := by
  unfold launchWeapon
  split
  · rfl
  · split
    · dsimp only
      split
      · exact pending_coolDown _ _ t
      · rfl
    · rfl

theorem slotOf_some {g : Game} {w : WeaponToken} {slot : Nat} (found : slotOf g w = some slot) :
    g.arsenal.token slot = some w ∧ 0 < g.arsenal.quantity slot := by
  have held := List.find?_some found
  simpa using held

theorem slotOf_none {g : Game} {w : WeaponToken} (missing : slotOf g w = none) :
    g.arsenal.stock w = 0 := by
  refine Arsenal.stock_eq_zero fun slot less held => ?_
  have passed := List.find?_eq_none.mp missing slot (List.mem_range.mpr less)
  exact passed (by simpa using held)

/-- A game that takes launches. -/
def Ready (g : Game) : Prop := g.inBazaar = false ∧ g.phase ≠ .over

theorem ready_launchWeapon {s : Strategy} {g : Game} (ready : Ready g) (w : WeaponToken) :
    Ready (s.launchWeapon g w).2 := by
  have launched (slot : Nat) : Ready (g.launchWeapon slot) := by
    unfold Game.launchWeapon
    split
    · exact ready
    · cases g.arsenal.token slot <;> exact ready
  unfold launchWeapon
  split
  · exact ready
  · split
    · exact launched _
    · exact ready

/-- Outside the bazaar a launch takes one of the weapon, if there is any. -/
theorem stock_launchWeapon {s : Strategy} {g : Game} (ready : Ready g) {w : WeaponToken}
    (free : barred w = false) (t : WeaponToken) :
    (s.launchWeapon g w).2.arsenal.stock t + (if w = t ∧ 0 < g.arsenal.stock w then 1 else 0) =
      g.arsenal.stock t := by
  unfold launchWeapon
  rw [if_neg (by simp [free])]
  cases found : slotOf g w with
  | none =>
    dsimp only
    rw [slotOf_none found, if_neg (by simp)]
    rfl
  | some slot =>
    obtain ⟨held, stocked⟩ := slotOf_some found
    have launched : (g.launchWeapon slot).arsenal = g.arsenal.useSlot slot := by
      unfold Game.launchWeapon
      rw [if_neg (by simp [ready.1, ready.2]), held]
      rfl
    have used := Arsenal.stock_useSlot held stocked
    have some : 0 < g.arsenal.stock w := by
      have one := used w
      rw [if_pos rfl] at one
      omega
    dsimp only
    rw [launched]
    simp only [some, and_true]
    exact used t

/-! ## The pass -/

section Pass

variable {opLines top : Int} {mirror : Bool} {p q : Pass} {o : Order} {os : List Order}

theorem asksFor_weapon {w : WeaponToken} (asked : asksFor w o = true) : o.weapon = w := by
  unfold asksFor at asked
  simp only [Bool.and_eq_true, decide_eq_true_eq] at asked
  exact asked.1

theorem asksFor_launch {w : WeaponToken} (kind : o.kind = .launch) :
    asksFor w o = decide (o.weapon = w) := by
  simp [asksFor, kind]

theorem asksFor_unlock {w : WeaponToken} (kind : o.kind = .canPurchase) :
    asksFor w o = false := by
  simp [asksFor, kind]

/-- A visit takes an order for a launch away only to fire it. -/
theorem Visited.pending (step : Visited opLines top mirror p (reschedule o p.prevLine opLines) os q)
    (ahead : p.ahead = o :: os) (w : WeaponToken) :
    q.strategy.pending w = p.strategy.pending w ∨
      mirror = false ∧ asksFor w o = true ∧ o.kind = .launch ∧
        q.strategy.pending w + 1 = p.strategy.pending w := by
  have same := reschedule_launches w o p.prevLine opLines
  have kinds := reschedule_kind o p.prevLine opLines
  have rest := pending_rest ahead w
  generalize reschedule o p.prevLine opLines = o' at step same kinds
  cases step with
  | stays => exact .inl (pending_kept ahead w same)
  | unlocks _ kind =>
    left
    rw [← same, asksFor_unlock kind] at rest
    exact rest
  | launches _ kind clear =>
    have launched := pending_launchWeapon
      (p.strategy.withOrders (p.strategy.commando.take p.i ++ os)) p.game o'.weapon w
    cases asked : asksFor w o with
    | false =>
      left
      rw [asked] at rest
      exact launched.trans rest
    | true =>
      right
      rw [if_pos asked] at rest
      refine ⟨clear, rfl, kinds.symm.trans kind, ?_⟩
      dsimp only
      rw [launched]
      exact rest

/-- Outside the bazaar a visit keeps orders and arsenal matched. -/
theorem Matched.visited (matched : p.strategy.Matched p.game) (ready : Ready p.game)
    (ahead : p.ahead = o :: os)
    (step : Visited opLines top mirror p (reschedule o p.prevLine opLines) os q) :
    q.strategy.Matched q.game ∧ Ready q.game := by
  have same (w : WeaponToken) := reschedule_launches w o p.prevLine opLines
  have rest := pending_rest ahead
  generalize reschedule o p.prevLine opLines = o' at step same
  cases step with
  | stays => exact ⟨matched.congr (fun w => pending_kept ahead w (same w)) rfl, ready⟩
  | unlocks _ kind =>
    refine ⟨matched.congr (fun w => ?_) rfl, ready⟩
    have kept := rest w
    rw [← same, asksFor_unlock kind] at kept
    exact kept
  | launches _ kind _ =>
    refine ⟨?_, ready_launchWeapon ready _⟩
    intro t free
    have ordered := matched t free
    have kept := rest t
    have launched := pending_launchWeapon
      (p.strategy.withOrders (p.strategy.commando.take p.i ++ os)) p.game o'.weapon t
    rw [← same, asksFor_launch kind] at kept
    simp only [decide_eq_true_eq] at kept
    dsimp only
    cases bar : barred o'.weapon with
    | true =>
      have other : o'.weapon ≠ t := by
        rintro rfl
        rw [bar] at free
        cases free
      have held : ((p.strategy.withOrders (p.strategy.commando.take p.i ++ os)).launchWeapon
          p.game o'.weapon).2 = p.game := by
        unfold launchWeapon
        rw [if_pos bar]
      rw [if_neg other] at kept
      rw [launched, held, ordered]
      exact kept.symm
    | false =>
      have taken := stock_launchWeapon
        (s := p.strategy.withOrders (p.strategy.commando.take p.i ++ os)) ready bar t
      by_cases aimed : o'.weapon = t
      · rw [if_pos aimed] at kept
        have stocked : 0 < p.game.arsenal.stock o'.weapon := by
          rw [aimed, ordered]
          omega
        rw [if_pos ⟨aimed, stocked⟩] at taken
        omega
      · rw [if_neg aimed] at kept
        rw [if_neg (fun both => aimed both.1)] at taken
        omega

/-- The visits of a pass, up to its end. -/
def visits (opLines top : Int) (mirror : Bool) (fuel : Nat) (p : Pass) : Pass :=
  whileN fuel (fun p => p.i < p.strategy.commando.length) (visit opLines top mirror) p

theorem activateCommando_eq (s : Strategy) (g : Game) : s.activateCommando g =
    ((visits g.score.opLines g.board.boardTop (g.weaponActive .mirror) (4 * s.commando.length)
        ⟨0, -1, s, g⟩).strategy,
      (visits g.score.opLines g.board.boardTop (g.weaponActive .mirror) (4 * s.commando.length)
        ⟨0, -1, s, g⟩).game) := rfl

/-- What every visit keeps, the pass keeps. -/
theorem visits_invariant {P : Pass → Prop}
    (step : ∀ p q o os, P p → p.ahead = o :: os →
      Visited opLines top mirror p (reschedule o p.prevLine opLines) os q → P q)
    (fuel : Nat) (init : P p) : P (visits opLines top mirror fuel p) := by
  refine whileN_invariant (fun p more kept => ?_) fuel init
  obtain ⟨o, os, ahead⟩ := ahead_nil (of_decide_eq_true more)
  exact step p _ o os kept ahead (visited _ _ _ ahead)

/-- In the bazaar the game takes no launch. -/
theorem launchWeapon_inside (s : Strategy) {g : Game} (inside : g.inBazaar = true)
    (w : WeaponToken) : (s.launchWeapon g w).2 = g := by
  unfold launchWeapon
  split
  · rfl
  · split
    · unfold Game.launchWeapon
      rw [if_pos (.inl inside)]
    · rfl

theorem Visited.inside (step : Visited opLines top mirror p (reschedule o p.prevLine opLines) os q)
    (inside : p.game.inBazaar = true) : q.game = p.game := by
  cases step with
  | stays => rfl
  | unlocks => rfl
  | launches => exact launchWeapon_inside _ inside _

/-- In the bazaar orders only go away. -/
theorem visits_inside (opLines top : Int) (mirror : Bool) (fuel : Nat)
    (inside : p.game.inBazaar = true) :
    (visits opLines top mirror fuel p).game = p.game ∧
      ∀ w, (visits opLines top mirror fuel p).strategy.pending w ≤ p.strategy.pending w := by
  refine visits_invariant (P := fun q => q.game = p.game ∧
    ∀ w, q.strategy.pending w ≤ p.strategy.pending w) (fun q q' o os kept ahead step => ?_) fuel
    ⟨rfl, fun _ => le_rfl⟩
  have game := step.inside (kept.1 ▸ inside)
  refine ⟨game.trans kept.1, fun w => ?_⟩
  have before := kept.2 w
  rcases step.pending ahead w with same | ⟨-, -, -, less⟩
  · omega
  · omega

/-- Under Mirror no order goes away. -/
theorem visits_held (opLines top : Int) (p : Pass) (fuel : Nat) (held : mirror = true) :
    (visits opLines top mirror fuel p).game = p.game ∧
      ∀ w, (visits opLines top mirror fuel p).strategy.pending w = p.strategy.pending w := by
  refine visits_invariant (P := fun q => q.game = p.game ∧
    ∀ w, q.strategy.pending w = p.strategy.pending w) (fun q q' o os kept ahead step => ?_) fuel
    ⟨rfl, fun _ => rfl⟩
  refine ⟨?_, fun w => ?_⟩
  · cases step with
    | stays => exact kept.1
    | unlocks => exact kept.1
    | launches _ _ clear =>
      rw [held] at clear
      cases clear
  · rcases step.pending ahead w with same | ⟨clear, -, -, -⟩
    · exact same.trans (kept.2 w)
    · rw [held] at clear
      cases clear

/-- The pass goes on to the orders behind the place, and the lines it counts from there. -/
theorem Visited.onwards
    (step : Visited opLines top false p (reschedule o p.prevLine opLines) os q)
    (ahead : p.ahead = o :: os) :
    (o.kind = .launch ∧ barred o.weapon = false ∧
        launchDue opLines p.strategy.bazaarNo top p.prevLine p.ahead = true ∧
        q.strategy.pending o.weapon + 1 = p.strategy.pending o.weapon) ∨
      (q.ahead = os ∧ launchDue opLines q.strategy.bazaarNo top q.prevLine q.ahead =
          launchDue opLines p.strategy.bazaarNo top p.prevLine p.ahead ∧
        ∀ w, barred w = false → q.strategy.pending w = p.strategy.pending w) := by
  have same (w : WeaponToken) := reschedule_launches w o p.prevLine opLines
  have kinds := reschedule_kind o p.prevLine opLines
  have weapons := reschedule_weapon o p.prevLine opLines
  have rest := pending_rest ahead
  have length := (commando_ahead ahead o).2.2.2
  have due := launchDue_cons opLines p.strategy.bazaarNo top p.prevLine o os
  rw [← ahead] at due
  dsimp only at due
  generalize reschedule o p.prevLine opLines = o' at step same kinds weapons due
  cases step with
  | stays idle =>
    right
    rw [if_neg (idle rfl)] at due
    have behind : List.drop (p.i + 1) (p.strategy.commando.take p.i ++ o' :: os) = os := by
      rw [List.drop_append, length, Nat.add_sub_cancel_left,
        List.drop_eq_nil_of_le (by rw [length]; exact Nat.le_succ _)]
      rfl
    refine ⟨behind, ?_, fun w _ => pending_kept ahead w (same w)⟩
    rw [due]
    exact congrArg _ behind
  | unlocks _ kind =>
    right
    rw [if_neg (fun fired => by rw [kind] at fired; cases fired.2)] at due
    have behind : List.drop p.i (p.strategy.commando.take p.i ++ os) = os :=
      List.drop_left' length
    refine ⟨behind, ?_, fun w _ => ?_⟩
    · rw [due]
      exact congrArg _ behind
    · have kept := rest w
      rw [← same, asksFor_unlock kind] at kept
      exact kept
  | launches fired kind _ =>
    rw [if_pos ⟨fired, kind⟩] at due
    cases bar : barred o'.weapon with
    | false =>
      left
      rw [if_neg (by simp [bar])] at due
      rw [← kinds, ← weapons]
      refine ⟨kind, bar, due, ?_⟩
      have kept := rest o'.weapon
      rw [← same, asksFor_launch kind, if_pos (by simp)] at kept
      dsimp only
      rw [pending_launchWeapon]
      exact kept
    | true =>
      right
      rw [if_pos bar] at due
      have behind : List.drop p.i (p.strategy.commando.take p.i ++ os) = os :=
        List.drop_left' length
      have held : (p.strategy.withOrders (p.strategy.commando.take p.i ++ os)).launchWeapon
          p.game o'.weapon =
            (p.strategy.withOrders (p.strategy.commando.take p.i ++ os), p.game) := by
        unfold launchWeapon
        rw [if_pos bar]
      rw [held]
      refine ⟨behind, ?_, fun w free => ?_⟩
      · rw [due]
        exact congrArg _ behind
      · have kept := rest w
        rw [← same, asksFor_launch kind, if_neg] at kept
        · exact kept
        · rw [decide_eq_true_eq]
          rintro rfl
          rw [bar] at free
          cases free

/-- In the bazaar a pass drops an order exactly when it reaches a launch it may make. -/
theorem visits_stuck (opLines top : Int) (p : Pass) (fuel : Nat) (enough : p.ahead.length ≤ fuel)
    (inside : p.game.inBazaar = true) :
    if launchDue opLines p.strategy.bazaarNo top p.prevLine p.ahead then
      ∃ w, barred w = false ∧
        (visits opLines top false fuel p).strategy.pending w < p.strategy.pending w
    else
      ∀ w, barred w = false →
        (visits opLines top false fuel p).strategy.pending w = p.strategy.pending w := by
  induction fuel generalizing p with
  | zero =>
    rw [List.eq_nil_of_length_eq_zero (Nat.le_zero.mp enough)]
    exact fun _ _ => rfl
  | succ fuel ih =>
    by_cases more : p.i < p.strategy.commando.length
    · obtain ⟨o, os, ahead⟩ := ahead_nil more
      have step := visited opLines top false ahead
      have next : visits opLines top false (fuel + 1) p =
          visits opLines top false fuel (visit opLines top false p) := by
        unfold visits
        rw [whileN, if_pos (decide_eq_true more)]
      have game := step.inside inside
      rw [next]
      generalize visit opLines top false p = q at step game
      have inside' : q.game.inBazaar = true := by rw [game, inside]
      rcases step.onwards ahead with ⟨-, free, due, less⟩ | ⟨behind, same, kept⟩
      · rw [if_pos due]
        have later := (visits_inside opLines top false fuel inside').2 o.weapon
        exact ⟨o.weapon, free, by omega⟩
      · have rest := ih q (by
          rw [ahead, List.length_cons] at enough
          rw [behind]
          omega) inside'
        rw [same] at rest
        split at rest
        · next due =>
          obtain ⟨w, free, less⟩ := rest
          rw [if_pos due]
          exact ⟨w, free, lt_of_lt_of_eq less (kept w free)⟩
        · next due =>
          rw [if_neg due]
          exact fun w free => (rest w free).trans (kept w free)
    · have ended : p.ahead = [] := List.drop_eq_nil_of_le (Nat.le_of_not_lt more)
      have stop : visits opLines top false (fuel + 1) p = p := by
        unfold visits
        rw [whileN, if_neg (by simpa using more)]
      rw [ended, stop]
      exact fun _ _ => rfl

/-- The pass loses an order exactly when it fires one into an open bazaar. -/
theorem Matched.activateCommando_iff {s : Strategy} {g : Game} (matched : s.Matched g)
    (playing : g.phase ≠ .over) :
    (s.activateCommando g).1.Matched (s.activateCommando g).2 ↔
      ¬(g.inBazaar = true ∧ g.weaponActive .mirror = false ∧
        launchDue g.score.opLines s.bazaarNo g.board.boardTop (-1) s.commando = true) := by
  rw [activateCommando_eq]
  generalize g.board.boardTop = top
  generalize g.score.opLines = opLines
  generalize fuels : 4 * s.commando.length = fuel
  cases inside : g.inBazaar with
  | false =>
    have ready : s.Matched g ∧ Ready g := ⟨matched, inside, playing⟩
    have kept : (visits opLines top (g.weaponActive .mirror) fuel ⟨0, -1, s, g⟩).strategy.Matched
          (visits opLines top (g.weaponActive .mirror) fuel ⟨0, -1, s, g⟩).game ∧ Ready _ :=
      visits_invariant (P := fun q => q.strategy.Matched q.game ∧ Ready q.game)
        (fun q q' o os held ahead step => held.1.visited held.2 ahead step) fuel ready
    simpa using kept.1
  | true =>
    cases mirror : g.weaponActive .mirror with
    | true =>
      obtain ⟨game, kept⟩ := visits_held opLines top ⟨0, -1, s, g⟩ fuel rfl
      have same := matched.congr kept (congrArg Game.arsenal game)
      simpa using same
    | false =>
      have game := (visits_inside (p := ⟨0, -1, s, g⟩) opLines top false fuel inside).1
      have stuck := visits_stuck opLines top ⟨0, -1, s, g⟩ fuel
        (by
          rw [← fuels]
          exact Nat.le_mul_of_pos_left _ (by omega)) inside
      have whole : Pass.ahead ⟨0, -1, s, g⟩ = s.commando := rfl
      rw [whole] at stuck
      dsimp only at stuck
      split at stuck
      · next due =>
        obtain ⟨w, free, less⟩ := stuck
        refine iff_of_false (fun still => ?_) fun safe => safe ⟨rfl, rfl, due⟩
        have held := still w free
        dsimp only at held
        rw [game, matched w free] at held
        omega
      · next due =>
        refine iff_of_true ?_ fun lost => due lost.2.2
        intro w free
        rw [game, stuck w free, matched w free]

end Pass

end Strategy

end BattleTris
