import BattleTris.Ai.Orders

/-!
# The economy cooldown

A Reagan takes three weapons off the market and queues an order for each that puts
it back 50 of the opponent's lines later.  `Cool` is the strategy in between;
`Orderly` says which steps leave those orders alone.

* `Steady`: what the rest of a pass may do to the orders that reopen the market.
* `Held`: what every visit of an orderly pass keeps.
* `cooldown_kept`: in a run of orderly steps the market is shut for 50 lines, and
  open again after them.
-/

namespace BattleTris

open Loop Machine

namespace Strategy

/-! ## The orders that reopen the market -/

/-- The weapons a Reagan takes off the market. -/
def economy : List WeaponToken := [.reagan, .keating, .niceDay]

def reopens (o : Order) : Bool := o.kind = .canPurchase ∧ o.weapon ∈ economy

def sendsReagan (o : Order) : Bool := o.kind = .launch ∧ o.weapon = .reagan

/-- An order that only the opponent's lines trigger. -/
def Plain (o : Order) : Prop := o.bazaarNo = -1 ∧ o.myLineNo = -1

/-- The orders a Reagan queues. -/
def resumes (lineNo : Int) : List Order := economy.map fun w => orderAt .canPurchase w lineNo

section Order

variable {o : Order} {opLines bazaarNo top prevLine : Int}

theorem fires_plain (plain : Plain o) :
    fires o opLines bazaarNo top = true ↔ -1 < o.lineNo ∧ o.lineNo ≤ opLines := by
  unfold fires
  rw [plain.1, plain.2]
  simp

theorem reschedule_plain (plain : Plain o) : Plain (reschedule o prevLine opLines) := by
  unfold reschedule
  split <;> exact plain

/-- Before the first launch of a pass no order moves. -/
theorem reschedule_first : reschedule o (-1) opLines = o :=
  if_neg fun moves => by omega

theorem reschedule_reopens :
    reopens (reschedule o prevLine opLines) = reopens o := by
  unfold reschedule
  split <;> rfl

theorem reschedule_sends (o : Order) (prevLine opLines : Int) :
    sendsReagan (reschedule o prevLine opLines) = sendsReagan o := by
  unfold reschedule
  split <;> rfl

theorem reopens_kind (reopened : reopens o = true) : o.kind = .canPurchase := by
  unfold reopens at reopened
  simp only [decide_eq_true_eq] at reopened
  exact reopened.1

theorem reopens_launch (kind : o.kind = .launch) : reopens o = false := by
  simp [reopens, kind]

theorem sendsReagan_kind (sends : sendsReagan o = true) :
    o.kind = .launch ∧ o.weapon = .reagan := by
  unfold sendsReagan at sends
  simpa using sends

theorem sendsReagan_reopens (sends : sendsReagan o = true) : reopens o = false :=
  reopens_launch (sendsReagan_kind sends).1

theorem mem_resumes {lineNo : Int} : o ∈ resumes lineNo ↔
    ∃ w ∈ economy, orderAt .canPurchase w lineNo = o := List.mem_map

theorem reopens_resumes {lineNo : Int} (queued : o ∈ resumes lineNo) :
    reopens o = true ∧ o.lineNo = lineNo ∧ Plain o := by
  obtain ⟨w, mem, rfl⟩ := mem_resumes.mp queued
  exact ⟨by simpa [reopens, orderAt] using mem, rfl, rfl, rfl⟩

end Order

/-! ## The market -/

theorem allow_canPurchase (s : Strategy) (w t : WeaponToken) (on : Bool) :
    (s.allow w on).canPurchase t = if t = w then on else s.canPurchase t :=
  Function.update_apply ..

theorem coolDown_commando (s : Strategy) (opLines : Int) :
    (s.coolDown opLines).commando = s.commando ++ resumes (asI32 (opLines + 50)) := by
  unfold coolDown queue
  simp only [List.foldl_cons, List.foldl_nil, List.append_assoc]
  rfl

theorem coolDown_canPurchase (s : Strategy) (opLines : Int) (w : WeaponToken) :
    (s.coolDown opLines).canPurchase w = if w ∈ economy then false else s.canPurchase w := by
  have flags : (s.coolDown opLines).canPurchase =
      (((s.allow .reagan false).allow .keating false).allow .niceDay false).canPurchase := rfl
  rw [flags, allow_canPurchase, allow_canPurchase, allow_canPurchase]
  unfold economy
  by_cases niceDay : w = .niceDay
  · simp [niceDay]
  · by_cases keating : w = .keating
    · simp [keating]
    · simp [niceDay, keating]

/-- The market is shut, and reopens at 50 lines after `opLines`. -/
structure Cool (opLines : Int) (s : Strategy) : Prop where
  shut : ∀ w ∈ economy, s.canPurchase w = false
  lines : ∀ o ∈ s.commando, reopens o = true → o.lineNo = opLines + 50
  queued : resumes (opLines + 50) ⊆ s.commando

/-- Only the orders that reopen the market matter. -/
theorem Cool.congr {opLines : Int} {s t : Strategy} (cool : s.Cool opLines)
    (flags : ∀ w ∈ economy, t.canPurchase w = true → s.canPurchase w = true)
    (orders : ∀ o, reopens o = true → (o ∈ t.commando ↔ o ∈ s.commando)) : t.Cool opLines where
  shut w mem := by
    have shut := cool.shut w mem
    refine Bool.eq_false_of_not_eq_true fun free => ?_
    rw [flags w mem free] at shut
    cases shut
  lines o mem reopened := cool.lines o ((orders o reopened).mp mem) reopened
  queued o mem := (orders o (reopens_resumes mem).1).mpr (cool.queued mem)

/-- A Reagan shuts the market, if no other order reopens it at another line. -/
theorem cool_coolDown {s : Strategy} {opLines : Int} (fits : -1 < opLines ∧ opLines + 50 < 2 ^ 31)
    (lines : ∀ o ∈ s.commando, reopens o = true → o.lineNo = opLines + 50) :
    (s.coolDown opLines).Cool opLines := by
  have resume : asI32 (opLines + 50) = opLines + 50 :=
    asI32_of_fits ⟨by omega, fits.2⟩
  have commando := s.coolDown_commando opLines
  rw [resume] at commando
  refine ⟨fun w mem => ?_, fun o mem reopened => ?_, fun o mem => ?_⟩
  · rw [coolDown_canPurchase, if_pos mem]
  · rw [commando, List.mem_append] at mem
    rcases mem with before | queued
    · exact lines o before reopened
    · exact (reopens_resumes queued).2.1
  · rw [commando]
    exact List.mem_append_right _ mem

/-! ## Orderly steps -/

/-- Behind a first launch of the line `prevLine`, no order that reopens the market moves; and if a
Reagan of the stock is sent, the launch is on time, and no such order is due behind the Reagan or
stays in the queue for another line. -/
structure Steady (opLines bazaarNo top : Int) (stocked : Prop) (prevLine : Int)
    (kept ahead : List Order) : Prop where
  unmoved : ∀ r ∈ ahead, reopens r = true → reschedule r prevLine opLines = r
  alone : stocked → ∀ mid o after, ahead = mid ++ o :: after → sendsReagan o = true →
    fires (reschedule o prevLine opLines) opLines bazaarNo top = true →
      (prevLine = opLines ∧ opLines + 50 < 2 ^ 31) ∧
        (∀ r ∈ kept ++ mid, reopens r = true →
          fires r opLines bazaarNo top = true ∨ r.lineNo = opLines + 50) ∧
        ∀ r ∈ after, reopens r = true → r.lineNo = opLines + 50

/-- The same of a pass that has launched nothing yet. -/
def Unstarted (opLines bazaarNo top : Int) (stocked : Prop) (kept ahead : List Order) : Prop :=
  ∀ before first behind, ahead = before ++ first :: behind →
    first.kind = .launch ∧ fires first opLines bazaarNo top = true →
    (∀ o ∈ before, ¬(o.kind = .launch ∧ fires o opLines bazaarNo top = true)) →
      Steady opLines bazaarNo top stocked first.lineNo (kept ++ before) (first :: behind)

section Steady

variable {opLines bazaarNo top prevLine : Int} {stocked : Prop} {kept ahead os : List Order}
  {o : Order}

/-- The order in front was visited, and stays or leaves. -/
theorem Steady.next {kept' : List Order}
    (steady : Steady opLines bazaarNo top stocked prevLine kept (o :: os))
    (sub : ∀ r ∈ kept', reopens r = true → r ∈ kept ++ [o]) :
    Steady opLines bazaarNo top stocked prevLine kept' os where
  unmoved r mem := steady.unmoved r (List.mem_cons_of_mem o mem)
  alone stock mid first after split sends fired := by
    obtain ⟨onTime, earlier, later⟩ := steady.alone stock (o :: mid) first after
      (congrArg (o :: ·) split) sends fired
    refine ⟨onTime, fun r mem reopened => earlier r ?_ reopened, later⟩
    rcases List.mem_append.mp mem with before | between
    · have listed := sub r before reopened
      simp only [List.mem_append, List.mem_cons, List.not_mem_nil, or_false] at listed ⊢
      rcases listed with kept | here
      · exact .inl kept
      · exact .inr (.inl here)
    · exact List.mem_append_right _ (List.mem_cons_of_mem o between)

/-- What a Reagan queues on time is for its own line, and stays so. -/
theorem Steady.append (steady : Steady opLines bazaarNo top stocked opLines kept ahead)
    (fits : -1 < opLines ∧ opLines + 50 < 2 ^ 31) :
    Steady opLines bazaarNo top stocked opLines kept (ahead ++ resumes (opLines + 50)) where
  unmoved r mem reopened := by
    rcases List.mem_append.mp mem with before | queued
    · exact steady.unmoved r before reopened
    · obtain ⟨w, -, rfl⟩ := mem_resumes.mp queued
      have line : opLines + 50 - opLines + opLines = opLines + 50 := by omega
      unfold reschedule orderAt
      dsimp only
      rw [line, asI32_of_fits ⟨by omega, fits.2⟩]
      exact ite_self _
  alone stock mid first after split sends fired := by
    -- the Reagan is none of the orders that were queued
    have place : ∃ after', after = after' ++ resumes (opLines + 50) ∧
        ahead = mid ++ first :: after' := by
      have other : first ∉ resumes (opLines + 50) := fun queued => by
        have reopened := (reopens_resumes queued).1
        rw [sendsReagan_reopens sends] at reopened
        cases reopened
      rcases List.append_eq_append_iff.mp split with ⟨c, -, queued⟩ | ⟨c, whole, rest⟩
      · exact absurd (queued ▸ List.mem_append_right c List.mem_cons_self) other
      · cases c with
        | nil =>
          change first :: after = resumes (opLines + 50) at rest
          exact absurd (rest ▸ List.mem_cons_self) other
        | cons r c =>
          cases rest
          exact ⟨c, rfl, whole⟩
    obtain ⟨after', rfl, whole⟩ := place
    obtain ⟨onTime, earlier, later⟩ := steady.alone stock mid first after' whole sends fired
    refine ⟨onTime, earlier, fun r mem reopened => ?_⟩
    rcases List.mem_append.mp mem with before | queued
    · exact later r before reopened
    · exact (reopens_resumes queued).2.1

/-- An order that launches nothing was visited. -/
theorem Unstarted.next {kept' : List Order}
    (unstarted : Unstarted opLines bazaarNo top stocked kept (o :: os))
    (idle : ¬(o.kind = .launch ∧ fires o opLines bazaarNo top = true))
    (sub : ∀ r ∈ kept', reopens r = true → r ∈ kept ++ [o]) :
    Unstarted opLines bazaarNo top stocked kept' os := by
  intro before first behind split launch quiet
  have steady := unstarted (o :: before) first behind (congrArg (o :: ·) split) launch
    (List.forall_mem_cons.mpr ⟨idle, quiet⟩)
  refine ⟨steady.unmoved, fun stock mid r after split sends fired => ?_⟩
  obtain ⟨onTime, earlier, later⟩ := steady.alone stock mid r after split sends fired
  refine ⟨onTime, fun r mem reopened => earlier r ?_ reopened, later⟩
  simp only [List.mem_append, List.mem_cons, or_assoc] at mem ⊢
  rcases mem with before | rest
  · have listed := sub r before reopened
    simp only [List.mem_append, List.mem_cons, List.not_mem_nil, or_false] at listed
    rcases listed with kept | here
    · exact .inl kept
    · exact .inr (.inl here)
  · exact .inr (.inr rest)

theorem Unstarted.start (unstarted : Unstarted opLines bazaarNo top stocked kept (o :: os))
    (launch : o.kind = .launch ∧ fires o opLines bazaarNo top = true) :
    Steady opLines bazaarNo top stocked o.lineNo kept (o :: os) := by
  have steady := unstarted [] o os rfl launch (by simp)
  rwa [List.append_nil] at steady

end Steady

/-! ## A launch -/

theorem launchWeapon_cases (s : Strategy) (g : Game) (w : WeaponToken) :
    ((s.launchWeapon g w).1 = s ∧ ¬(w = .reagan ∧ (slotOf g w).isSome = true)) ∨
      (w = .reagan ∧ (slotOf g w).isSome = true) ∧
        (s.launchWeapon g w).1 = s.coolDown g.score.opLines := by
  unfold launchWeapon
  by_cases bar : barred w = true
  · rw [if_pos bar]
    refine .inl ⟨rfl, ?_⟩
    rintro ⟨rfl, -⟩
    cases bar
  · rw [if_neg bar]
    cases found : slotOf g w with
    | none => exact .inl ⟨rfl, fun sent => by cases sent.2⟩
    | some slot =>
      dsimp only
      by_cases reagan : w = .reagan
      · rw [if_pos reagan]
        refine .inr ⟨⟨reagan, rfl⟩, ?_⟩
        have score : (g.launchWeapon slot).score = g.score := by
          unfold Game.launchWeapon
          split
          · rfl
          · split <;> rfl
        rw [score]
      · rw [if_neg reagan]
        exact .inl ⟨rfl, fun sent => reagan sent.1⟩

/-- A launch leaves the score, and no weapon comes back into the arsenal. -/
theorem launchWeapon_game (s : Strategy) (g : Game) (w t : WeaponToken) :
    (s.launchWeapon g w).2.score = g.score ∧
      ((slotOf (s.launchWeapon g w).2 t).isSome = true → (slotOf g t).isSome = true) := by
  unfold launchWeapon
  by_cases bar : barred w = true
  · rw [if_pos bar]
    exact ⟨rfl, id⟩
  rw [if_neg bar]
  cases found : slotOf g w with
  | none => exact ⟨rfl, id⟩
  | some slot =>
    obtain ⟨held, stocked⟩ := slotOf_some found
    have used := Arsenal.stock_useSlot held stocked t
    dsimp only
    unfold Game.launchWeapon
    split
    · exact ⟨rfl, id⟩
    rw [held]
    refine ⟨rfl, fun left => ?_⟩
    by_contra missing
    rw [Option.not_isSome_iff_eq_none] at missing
    obtain ⟨there, found'⟩ := Option.isSome_iff_exists.mp left
    obtain ⟨held', stocked'⟩ := slotOf_some found'
    have before := slotOf_none missing
    have after := Arsenal.stock_useSlot held' stocked' t
    rw [if_pos rfl] at after
    change _ + 1 = (g.arsenal.useSlot slot).stock t at after
    omega

/-! ## A visit -/

/-- The orders before the place `i`. -/
def Pass.kept (p : Pass) : List Order := p.strategy.commando.take p.i

/-- What every visit of an orderly pass keeps. -/
structure Pass.Held (opLines top : Int) (mirror : Bool) (bazaarNo : Int) (stocked : Prop)
    (p : Pass) : Prop where
  score : p.game.score.opLines = opLines
  bazaar : p.strategy.bazaarNo = bazaarNo
  plain : ∀ o ∈ p.strategy.commando, Plain o
  unfired : ∀ r ∈ p.kept, reopens r = true → fires r opLines bazaarNo top = false
  stock : (slotOf p.game .reagan).isSome = true → stocked
  stage : if p.prevLine = -1 then
      mirror = false → Unstarted opLines bazaarNo top stocked p.kept p.ahead
    else Steady opLines bazaarNo top stocked p.prevLine p.kept p.ahead

section Visit

variable {opLines top bazaarNo : Int} {mirror : Bool} {stocked : Prop} {p q : Pass} {o : Order}
  {os : List Order}

theorem Pass.kept_ahead (p : Pass) : p.kept ++ p.ahead = p.strategy.commando :=
  List.take_append_drop ..

/-- An order that reopens the market does not move. -/
theorem Pass.Held.unmoved (held : p.Held opLines top mirror bazaarNo stocked)
    (ahead : p.ahead = o :: os) (reopened : reopens o = true) :
    reschedule o p.prevLine opLines = o := by
  have stage := held.stage
  split at stage
  · next none =>
    rw [none]
    exact reschedule_first
  · rw [ahead] at stage
    exact stage.unmoved o List.mem_cons_self reopened

/-- The first launch of a pass sets the line for the orders behind it. -/
theorem Pass.Held.steady (held : p.Held opLines top mirror bazaarNo stocked)
    (ahead : p.ahead = o :: os) (clear : mirror = false) {o' : Order}
    (moved : o' = reschedule o p.prevLine opLines)
    (launch : o'.kind = .launch ∧ fires o' opLines bazaarNo top = true) :
    (if p.prevLine = -1 ∧ o'.lineNo > -1 then o'.lineNo else p.prevLine) ≠ -1 ∧
      reschedule o (if p.prevLine = -1 ∧ o'.lineNo > -1 then o'.lineNo else p.prevLine) opLines =
        o' ∧
      Steady opLines bazaarNo top stocked
        (if p.prevLine = -1 ∧ o'.lineNo > -1 then o'.lineNo else p.prevLine) p.kept (o :: os) := by
  have stage := held.stage
  have listed : o ∈ p.strategy.commando := by
    rw [← p.kept_ahead, ahead]
    exact List.mem_append_right _ List.mem_cons_self
  by_cases none : p.prevLine = -1
  · rw [none, reschedule_first] at moved
    subst moved
    have due := (fires_plain (held.plain _ listed)).mp launch.2
    rw [if_pos none, ahead] at stage
    rw [if_pos ⟨none, due.1⟩]
    exact ⟨by omega, if_neg (by omega), (stage clear).start launch⟩
  · rw [if_neg none, ahead] at stage
    rw [if_neg fun both => none both.1]
    exact ⟨none, moved.symm, stage⟩

/-- A Reagan is sent on time, and all that reopens the market does so 50 lines later. -/
theorem Pass.Held.sent (held : p.Held opLines top mirror bazaarNo stocked)
    (ahead : p.ahead = o :: os) (clear : mirror = false) {o' : Order}
    (moved : o' = reschedule o p.prevLine opLines)
    (launch : o'.kind = .launch ∧ fires o' opLines bazaarNo top = true)
    (reagan : o'.weapon = .reagan ∧ (slotOf p.game o'.weapon).isSome = true) :
    (if p.prevLine = -1 ∧ o'.lineNo > -1 then o'.lineNo else p.prevLine) = opLines ∧
      (-1 < opLines ∧ opLines + 50 < 2 ^ 31) ∧
      ∀ r ∈ p.kept ++ os, reopens r = true → r.lineNo = opLines + 50 := by
  obtain ⟨-, fixed, steady⟩ := held.steady ahead clear moved launch
  have plain : Plain o' := by
    rw [moved]
    refine reschedule_plain (held.plain o ?_)
    rw [← p.kept_ahead, ahead]
    exact List.mem_append_right _ List.mem_cons_self
  have due := (fires_plain plain).mp launch.2
  have sends : sendsReagan o = true := by
    rw [← reschedule_sends o p.prevLine opLines, ← moved]
    simp [sendsReagan, launch.1, reagan.1]
  obtain ⟨⟨onTime, fits⟩, earlier, later⟩ := steady.alone (held.stock (reagan.1 ▸ reagan.2)) [] o os
    rfl sends (fixed.symm ▸ launch.2)
  refine ⟨onTime, ⟨by omega, fits⟩, fun r mem reopened => ?_⟩
  rcases List.mem_append.mp mem with kept | behind
  · rcases earlier r (List.mem_append_left _ kept) reopened with fired | line
    · rw [held.unfired r kept reopened] at fired
      cases fired
    · exact line
  · exact later r behind reopened

theorem Pass.places {rest : List Order} (length : p.kept.length = p.i)
    (queue : q.strategy.commando = p.kept ++ rest) (place : q.i = p.i) :
    q.kept = p.kept ∧ q.ahead = rest := by
  unfold Pass.kept Pass.ahead
  rw [queue, place]
  exact ⟨List.take_left' length, List.drop_left' length⟩

theorem Pass.places_succ {o' : Order} (length : p.kept.length = p.i)
    (queue : q.strategy.commando = p.kept ++ o' :: os) (place : q.i = p.i + 1) :
    q.kept = p.kept ++ [o'] ∧ q.ahead = os := by
  unfold Pass.kept Pass.ahead
  rw [queue, place, ← List.singleton_append, ← List.append_assoc]
  have longer : (p.kept ++ [o']).length = p.i + 1 := by
    rw [List.length_append, length, List.length_singleton]
  exact ⟨List.take_left' longer, List.drop_left' longer⟩

/-- Every visit of an orderly pass keeps what the pass holds. -/
theorem Pass.Held.visited (held : p.Held opLines top mirror bazaarNo stocked)
    (ahead : p.ahead = o :: os)
    (step : Visited opLines top mirror p (reschedule o p.prevLine opLines) os q) :
    q.Held opLines top mirror bazaarNo stocked := by
  have length : p.kept.length = p.i := (commando_ahead ahead o).2.2.2
  have listed : o ∈ p.strategy.commando := by
    rw [← p.kept_ahead, ahead]
    exact List.mem_append_right _ List.mem_cons_self
  have queue {r : Order} (mem : r ∈ p.kept ∨ r ∈ os) : r ∈ p.strategy.commando := by
    rw [← p.kept_ahead, ahead]
    rcases mem with kept | behind
    · exact List.mem_append_left _ kept
    · exact List.mem_append_right _ (List.mem_cons_of_mem o behind)
  have plain' : Plain (reschedule o p.prevLine opLines) := reschedule_plain (held.plain o listed)
  have same := held.unmoved ahead
  have bazaar := held.bazaar
  generalize moved : reschedule o p.prevLine opLines = o' at step plain' same
  have reopened' : reopens o' = reopens o := moved ▸ reschedule_reopens
  cases step with
  | stays idle shut =>
    rw [bazaar] at idle shut
    obtain ⟨kept, behind⟩ := Pass.places_succ
      (q := { p with
        i := p.i + 1
        strategy := p.strategy.withOrders (p.strategy.commando.take p.i ++ o' :: os) })
      length rfl rfl
    have sub : ∀ r ∈ p.kept ++ [o'], reopens r = true → r ∈ p.kept ++ [o] := by
      intro r mem reopened
      rcases List.mem_append.mp mem with before | here
      · exact List.mem_append_left _ before
      · rw [List.mem_singleton] at here
        rw [here] at reopened ⊢
        rw [same (reopened' ▸ reopened)]
        exact List.mem_append_right _ (List.mem_singleton.mpr rfl)
    refine ⟨held.score, bazaar, fun r mem => ?_, fun r mem reopened => ?_, held.stock, ?_⟩
    · rcases List.mem_append.mp mem with before | rest
      · exact held.plain r (queue (.inl before))
      · rcases List.mem_cons.mp rest with rfl | later
        · exact plain'
        · exact held.plain r (queue (.inr later))
    · rw [kept] at mem
      rcases List.mem_append.mp mem with before | here
      · exact held.unfired r before reopened
      · rw [List.mem_singleton.mp here] at reopened ⊢
        exact shut (reopens_kind reopened)
    · rw [kept, behind]
      have stage := held.stage
      rw [ahead] at stage
      dsimp only
      split
      · next none =>
        rw [if_pos none] at stage
        intro clear
        rw [none, reschedule_first] at moved
        refine (stage clear).next (fun due => idle clear ?_) sub
        rw [← moved]
        exact ⟨due.2, due.1⟩
      · next started =>
        rw [if_neg started] at stage
        exact stage.next sub
  | unlocks fired kind =>
    obtain ⟨kept, behind⟩ := Pass.places
      (q := { p with strategy :=
        (p.strategy.withOrders (p.strategy.commando.take p.i ++ os)).allow o'.weapon true })
      length rfl rfl
    have sub : ∀ r ∈ p.kept, reopens r = true → r ∈ p.kept ++ [o] :=
      fun r mem _ => List.mem_append_left _ mem
    refine ⟨held.score, bazaar, fun r mem => ?_, fun r mem reopened => ?_, held.stock, ?_⟩
    · exact held.plain r (queue (List.mem_append.mp mem))
    · rw [kept] at mem
      exact held.unfired r mem reopened
    · rw [kept, behind]
      have stage := held.stage
      rw [ahead] at stage
      dsimp only
      split
      · next none =>
        rw [if_pos none] at stage
        intro clear
        rw [none, reschedule_first] at moved
        refine (stage clear).next (fun due => ?_) sub
        rw [← moved] at kind
        cases kind.symm.trans due.1
      · next started =>
        rw [if_neg started] at stage
        exact stage.next sub
  | launches fired kind clear =>
    rw [bazaar] at fired
    obtain ⟨started, -, steady⟩ := held.steady ahead clear moved.symm ⟨kind, fired⟩
    have sub : ∀ r ∈ p.kept, reopens r = true → r ∈ p.kept ++ [o] :=
      fun r mem _ => List.mem_append_left _ mem
    have stage := steady.next sub
    obtain ⟨score, stock⟩ := launchWeapon_game
      (p.strategy.withOrders (p.strategy.commando.take p.i ++ os)) p.game o'.weapon .reagan
    rcases launchWeapon_cases (p.strategy.withOrders (p.strategy.commando.take p.i ++ os)) p.game
      o'.weapon with ⟨same, -⟩ | ⟨reagan, cooled⟩
    · rw [same]
      generalize (launchWeapon _ p.game o'.weapon).2 = game at score stock
      obtain ⟨kept, behind⟩ := Pass.places
        (q := { p with
          prevLine := if p.prevLine = -1 ∧ o'.lineNo > -1 then o'.lineNo else p.prevLine
          strategy := p.strategy.withOrders (p.strategy.commando.take p.i ++ os), game := game })
        length rfl rfl
      refine ⟨?_, bazaar, fun r mem => ?_, fun r mem reopened => ?_,
        fun left => held.stock (stock left), ?_⟩
      · exact (congrArg Score.opLines score).trans held.score
      · exact held.plain r (queue (List.mem_append.mp mem))
      · rw [kept] at mem
        exact held.unfired r mem reopened
      · rw [kept, behind]
        dsimp only
        rw [if_neg started]
        exact stage
    · obtain ⟨onTime, fits, -⟩ := held.sent ahead clear moved.symm ⟨kind, fired⟩ reagan
      have queued := coolDown_commando
        (p.strategy.withOrders (p.strategy.commando.take p.i ++ os)) opLines
      rw [asI32_of_fits ⟨by omega, fits.2⟩] at queued
      rw [held.score] at cooled
      have bazaar' : (coolDown (p.strategy.withOrders (p.strategy.commando.take p.i ++ os))
        opLines).bazaarNo = bazaarNo := bazaar
      rw [cooled]
      generalize (launchWeapon _ p.game o'.weapon).2 = game at score stock
      generalize coolDown _ opLines = t at queued bazaar'
      obtain ⟨kept, behind⟩ := Pass.places
        (q := { p with
          prevLine := if p.prevLine = -1 ∧ o'.lineNo > -1 then o'.lineNo else p.prevLine
          strategy := t, game := game })
        length (queued.trans (List.append_assoc ..)) rfl
      refine ⟨?_, bazaar', fun r mem => ?_, fun r mem reopened => ?_,
        fun left => held.stock (stock left), ?_⟩
      · exact (congrArg Score.opLines score).trans held.score
      · change r ∈ t.commando at mem
        rw [queued] at mem
        rcases List.mem_append.mp mem with before | late
        · exact held.plain r (queue (List.mem_append.mp before))
        · exact (reopens_resumes late).2.2
      · rw [kept] at mem
        exact held.unfired r mem reopened
      · rw [kept, behind]
        dsimp only
        rw [if_neg started]
        rw [onTime] at stage ⊢
        exact stage.append fits

/-! ## The market through a visit -/

/-- The orders of a pass, with the one at the place. -/
theorem Pass.mem_queue (ahead : p.ahead = o :: os) {r : Order} :
    r ∈ p.strategy.commando ↔ r ∈ p.kept ++ os ∨ r = o := by
  rw [← p.kept_ahead, ahead]
  simp only [List.mem_append, List.mem_cons]
  tauto

/-- A Reagan that is sent shuts the market. -/
theorem Pass.Held.cools (held : p.Held opLines top mirror bazaarNo stocked)
    (ahead : p.ahead = o :: os) (clear : mirror = false) {o' : Order}
    (moved : o' = reschedule o p.prevLine opLines)
    (launch : o'.kind = .launch ∧ fires o' opLines bazaarNo top = true)
    (reagan : o'.weapon = .reagan ∧ (slotOf p.game o'.weapon).isSome = true) :
    (coolDown (p.strategy.withOrders (p.kept ++ os)) opLines).Cool opLines := by
  obtain ⟨-, fits, lines⟩ := held.sent ahead clear moved launch reagan
  exact cool_coolDown fits lines

/-- Until the line comes, a pass leaves the market shut. -/
theorem Cool.visited {line : Int} (cool : p.strategy.Cool line)
    (held : p.Held opLines top mirror bazaarNo stocked) (early : opLines < line + 50)
    (ahead : p.ahead = o :: os)
    (step : Visited opLines top mirror p (reschedule o p.prevLine opLines) os q) :
    q.strategy.Cool line := by
  have here : o ∈ p.strategy.commando := (Pass.mem_queue ahead).mpr (.inr rfl)
  have plain' : Plain (reschedule o p.prevLine opLines) := reschedule_plain (held.plain o here)
  have same := held.unmoved ahead
  have bazaar := held.bazaar
  generalize moved : reschedule o p.prevLine opLines = o' at step plain' same
  have reopened' : reopens o' = reopens o := moved ▸ reschedule_reopens
  have others (closed : reopens o = false) (r : Order) (reopened : reopens r = true) :
      r ∈ p.kept ++ os ↔ r ∈ p.strategy.commando := by
    rw [Pass.mem_queue ahead, or_iff_left]
    rintro rfl
    rw [closed] at reopened
    cases reopened
  cases step with
  | stays =>
    refine cool.congr (fun _ _ => id) fun r reopened => ?_
    change r ∈ p.kept ++ o' :: os ↔ r ∈ p.strategy.commando
    rw [Pass.mem_queue ahead]
    by_cases opens : reopens o = true
    · rw [same opens]
      simp only [List.mem_append, List.mem_cons]
      tauto
    · have other (x : Order) (shut : ¬reopens x = true) : r ≠ x :=
        fun this => shut (this ▸ reopened)
      simp only [List.mem_append, List.mem_cons, other o opens,
        other o' (reopened'.symm ▸ opens), false_or, or_false]
  | unlocks fired kind =>
    rw [bazaar] at fired
    have due := (fires_plain plain').mp fired
    have closed : ¬reopens o' = true := fun reopened => by
      have line := cool.lines o here (reopened' ▸ reopened)
      rw [same (reopened' ▸ reopened)] at due
      omega
    refine cool.congr (fun w mem => ?_) (others (by simpa [reopened'] using closed))
    have other : w ≠ o'.weapon := fun weapon => closed (by
      simpa [reopens, kind, ← weapon] using mem)
    rw [allow_canPurchase, if_neg other]
    exact id
  | launches fired kind clear =>
    rw [bazaar] at fired
    have closed : reopens o = false := reopened' ▸ reopens_launch kind
    rcases launchWeapon_cases (p.strategy.withOrders (p.strategy.commando.take p.i ++ os)) p.game
      o'.weapon with ⟨kept, -⟩ | ⟨reagan, cooled⟩
    · rw [kept]
      exact cool.congr (fun _ _ => id) (others closed)
    · -- the market was shut for the same line
      obtain ⟨-, -, lines⟩ := held.sent ahead clear moved.symm ⟨kind, fired⟩ reagan
      have queued : orderAt .canPurchase .reagan (line + 50) ∈ resumes (line + 50) :=
        mem_resumes.mpr ⟨.reagan, List.mem_cons_self, rfl⟩
      have again := lines _ ((others closed _ (reopens_resumes queued).1).mpr (cool.queued queued))
        (reopens_resumes queued).1
      obtain rfl : line = opLines := by
        have written : (orderAt .canPurchase .reagan (line + 50)).lineNo = line + 50 := rfl
        omega
      rw [cooled, held.score]
      exact held.cools ahead clear moved.symm ⟨kind, fired⟩ reagan

/-- Whether the visit sends a weapon of the arsenal. -/
def Pass.Launching (opLines top : Int) (mirror : Bool) (p : Pass) (w : WeaponToken) : Prop :=
  ∃ o, p.strategy.commando[p.i]? = some o ∧
    (fires (reschedule o p.prevLine opLines) opLines p.strategy.bazaarNo top = true ∧
      o.kind = .launch ∧ mirror = false) ∧
    o.weapon = w ∧ barred w = false ∧ (slotOf p.game w).isSome = true

/-- Once the line has come, a pass reopens the market, unless it sends a Reagan. -/
theorem opens_visited {line : Int} (opening : ∀ w ∈ economy, p.strategy.canPurchase w = true ∨
      orderAt .canPurchase w (line + 50) ∈ p.ahead)
    (held : p.Held opLines top mirror bazaarNo stocked) (late : line + 50 ≤ opLines)
    (positive : -1 < line) (none : ¬p.Launching opLines top mirror .reagan)
    (ahead : p.ahead = o :: os)
    (step : Visited opLines top mirror p (reschedule o p.prevLine opLines) os q) :
    ∀ w ∈ economy, q.strategy.canPurchase w = true ∨
      orderAt .canPurchase w (line + 50) ∈ q.ahead := by
  have length : p.kept.length = p.i := (commando_ahead ahead o).2.2.2
  have place := (commando_ahead ahead o).1
  have same := held.unmoved ahead
  have bazaar := held.bazaar
  have kinds := reschedule_kind o p.prevLine opLines
  have weapons := reschedule_weapon o p.prevLine opLines
  have due (w : WeaponToken) :
      fires (orderAt .canPurchase w (line + 50)) opLines bazaarNo top = true :=
    (fires_plain ⟨rfl, rfl⟩).mpr ⟨by change -1 < line + 50; omega, late⟩
  have reopened (w : WeaponToken) (mem : w ∈ economy) :=
    (reopens_resumes (mem_resumes.mpr ⟨w, mem, rfl⟩ :
      orderAt .canPurchase w (line + 50) ∈ resumes (line + 50))).1
  generalize moved : reschedule o p.prevLine opLines = o' at step same kinds weapons
  intro w mem
  have before := opening w mem
  rw [ahead, List.mem_cons] at before
  cases step with
  | stays idle shut =>
    obtain ⟨-, behind⟩ := Pass.places_succ
      (q := { p with
        i := p.i + 1
        strategy := p.strategy.withOrders (p.strategy.commando.take p.i ++ o' :: os) })
      length rfl rfl
    rw [behind]
    refine before.imp_right fun queued => queued.resolve_left ?_
    -- that order would have fired
    rintro rfl
    rw [same (reopened w mem), bazaar, due w] at shut
    cases shut rfl
  | unlocks fired kind =>
    obtain ⟨-, behind⟩ := Pass.places
      (q := { p with strategy :=
        (p.strategy.withOrders (p.strategy.commando.take p.i ++ os)).allow o'.weapon true })
      length rfl rfl
    rw [behind, allow_canPurchase]
    by_cases this : w = o'.weapon
    · rw [if_pos this]
      exact .inl rfl
    · rw [if_neg this]
      refine before.imp_right fun queued => queued.resolve_left ?_
      rintro rfl
      exact this weapons.symm
  | launches fired kind clear =>
    rcases launchWeapon_cases (p.strategy.withOrders (p.strategy.commando.take p.i ++ os)) p.game
      o'.weapon with ⟨kept, -⟩ | ⟨reagan, -⟩
    · rw [kept]
      obtain ⟨-, behind⟩ := Pass.places
        (q := { p with
          prevLine := if p.prevLine = -1 ∧ o'.lineNo > -1 then o'.lineNo else p.prevLine
          strategy := p.strategy.withOrders (p.strategy.commando.take p.i ++ os)
          game := (launchWeapon (p.strategy.withOrders (p.strategy.commando.take p.i ++ os)) p.game
            o'.weapon).2 })
        length rfl rfl
      rw [behind]
      refine before.imp_right fun queued => queued.resolve_left ?_
      rintro rfl
      cases kinds.symm.trans kind
    · refine absurd ⟨o, place, ⟨?_, kinds.symm.trans kind, clear⟩, ?_⟩ none
      · rw [moved]
        exact fired
      · rw [← weapons]
        exact ⟨reagan.1, rfl, reagan.1 ▸ reagan.2⟩

end Visit

/-! ## A pass -/

section Walk

variable {opLines top bazaarNo : Int} {mirror : Bool} {stocked : Prop} {p : Pass}

/-- How many visits the orders ahead may take: a Reagan queues three more. -/
def Pass.visitsLeft (p : Pass) : Nat :=
  (p.ahead.map fun o => if o.kind = .launch then 4 else 1).sum

theorem visit_end (ended : p.ahead = []) : visit opLines top mirror p = p := by
  unfold Pass.ahead at ended
  unfold visit
  rw [List.getElem?_eq_none (List.drop_eq_nil_iff.mp ended)]

theorem visitsLeft_visit (opLines top : Int) (mirror : Bool) {o : Order} {os : List Order}
    (ahead : p.ahead = o :: os) :
    (visit opLines top mirror p).visitsLeft < p.visitsLeft := by
  have length : p.kept.length = p.i := (commando_ahead ahead o).2.2.2
  have kinds := reschedule_kind o p.prevLine opLines
  have step := visited opLines top mirror ahead
  generalize visit opLines top mirror p = q at step ⊢
  generalize reschedule o p.prevLine opLines = o' at step kinds
  have count : p.visitsLeft = (if o.kind = .launch then 4 else 1) +
      (os.map fun o => if o.kind = .launch then 4 else 1).sum := by
    unfold Pass.visitsLeft
    rw [ahead, List.map_cons, List.sum_cons]
  rw [count]
  have rest {q : Pass} {queued : List Order} (behind : q.ahead = os ++ queued) : q.visitsLeft =
      (os.map fun o => if o.kind = .launch then 4 else 1).sum +
        (queued.map fun o => if o.kind = .launch then 4 else 1).sum := by
    unfold Pass.visitsLeft
    rw [behind, List.map_append, List.sum_append]
  cases step with
  | stays =>
    have behind := (Pass.places_succ
      (q := { p with
        i := p.i + 1
        strategy := p.strategy.withOrders (p.strategy.commando.take p.i ++ o' :: os) })
      length rfl rfl).2
    rw [rest (behind.trans (List.append_nil os).symm)]
    split <;> simp
  | unlocks =>
    have behind := (Pass.places
      (q := { p with strategy :=
        (p.strategy.withOrders (p.strategy.commando.take p.i ++ os)).allow o'.weapon true })
      length rfl rfl).2
    rw [rest (behind.trans (List.append_nil os).symm)]
    split <;> simp
  | launches _ kind =>
    rw [if_pos (kinds.symm.trans kind)]
    rcases launchWeapon_cases (p.strategy.withOrders (p.strategy.commando.take p.i ++ os)) p.game
      o'.weapon with ⟨kept, -⟩ | ⟨-, cooled⟩
    · rw [kept]
      have behind := (Pass.places
        (q := { p with
          prevLine := if p.prevLine = -1 ∧ o'.lineNo > -1 then o'.lineNo else p.prevLine
          strategy := p.strategy.withOrders (p.strategy.commando.take p.i ++ os)
          game := (launchWeapon (p.strategy.withOrders (p.strategy.commando.take p.i ++ os)) p.game
            o'.weapon).2 })
        length rfl rfl).2
      rw [rest (behind.trans (List.append_nil os).symm)]
      simp
    · have queued := coolDown_commando
        (p.strategy.withOrders (p.strategy.commando.take p.i ++ os)) p.game.score.opLines
      rw [cooled]
      generalize coolDown _ p.game.score.opLines = t at queued
      have behind := (Pass.places
        (q := { p with
          prevLine := if p.prevLine = -1 ∧ o'.lineNo > -1 then o'.lineNo else p.prevLine
          strategy := t
          game := (launchWeapon (p.strategy.withOrders (p.strategy.commando.take p.i ++ os)) p.game
            o'.weapon).2 })
        length (queued.trans (List.append_assoc ..)) rfl).2
      rw [rest behind]
      have three (line : Int) :
          ((resumes line).map fun o => if o.kind = .launch then 4 else 1).sum = 3 := rfl
      rw [three]
      omega

/-- What every visit keeps, every number of visits keeps. -/
theorem iterate_visit {P : Pass → Prop}
    (step : ∀ p o os, P p → p.ahead = o :: os → P (visit opLines top mirror p)) (n : Nat)
    (init : P p) : P ((visit opLines top mirror)^[n] p) := by
  induction n with
  | zero => exact init
  | succ n ih =>
    rw [Function.iterate_succ_apply']
    cases ahead : ((visit opLines top mirror)^[n] p).ahead with
    | nil =>
      rw [visit_end ahead]
      exact ih
    | cons o os => exact step _ o os ih ahead

theorem iterate_ended (n : Nat) (enough : p.visitsLeft ≤ n) :
    ((visit opLines top mirror)^[n] p).ahead = [] := by
  induction n generalizing p with
  | zero =>
    cases ahead : p.ahead with
    | nil => exact ahead
    | cons o os =>
      have less := visitsLeft_visit opLines top mirror ahead
      omega
  | succ n ih =>
    rw [Function.iterate_succ_apply]
    cases ahead : p.ahead with
    | nil =>
      rw [visit_end ahead]
      refine ih ?_
      unfold Pass.visitsLeft
      rw [ahead]
      exact Nat.zero_le n
    | cons o os =>
      have less := visitsLeft_visit opLines top mirror ahead
      exact ih (by omega)

end Walk

/-- The state of a pass after `n` visits. -/
def passAt (s : Strategy) (g : Game) (n : Nat) : Pass :=
  (visit g.score.opLines g.board.boardTop (g.weaponActive .mirror))^[n] ⟨0, -1, s, g⟩

/-- The pass over the orders sends a weapon. -/
def Launches (s : Strategy) (g : Game) (w : WeaponToken) : Prop :=
  ∃ n, (s.passAt g n).Launching g.score.opLines g.board.boardTop (g.weaponActive .mirror) w

theorem passAt_succ (s : Strategy) (g : Game) (n : Nat) : s.passAt g (n + 1) =
    visit g.score.opLines g.board.boardTop (g.weaponActive .mirror) (s.passAt g n) :=
  Function.iterate_succ_apply' ..

theorem passAt_visited {s : Strategy} {g : Game} {n : Nat} {o : Order} {os : List Order}
    (ahead : (s.passAt g n).ahead = o :: os) :
    Visited g.score.opLines g.board.boardTop (g.weaponActive .mirror) (s.passAt g n)
      (reschedule o (s.passAt g n).prevLine g.score.opLines) os (s.passAt g (n + 1)) := by
  rw [passAt_succ]
  exact visited _ _ _ ahead

theorem passAt_still {s : Strategy} {g : Game} {n : Nat} (ended : (s.passAt g n).ahead = []) :
    s.passAt g (n + 1) = s.passAt g n := by
  rw [passAt_succ, visit_end ended]

/-- A pass ends, and then stands still. -/
theorem passAt_ended (s : Strategy) (g : Game) {n : Nat} (enough : 4 * s.commando.length ≤ n) :
    (s.passAt g n).ahead = [] ∧ (s.passAt g n).strategy = (s.activateCommando g).1 := by
  have weights (os : List Order) :
      (os.map fun o => if o.kind = .launch then 4 else 1).sum ≤ 4 * os.length := by
    induction os with
    | nil => exact le_rfl
    | cons o os ih =>
      rw [List.map_cons, List.sum_cons, List.length_cons]
      split <;> omega
  have ended {n : Nat} (enough : 4 * s.commando.length ≤ n) : (s.passAt g n).ahead = [] :=
    iterate_ended n ((weights s.commando).trans enough)
  refine ⟨ended enough, ?_⟩
  obtain ⟨k, rfl⟩ := Nat.exists_eq_add_of_le' enough
  have settled : s.passAt g (k + 4 * s.commando.length) =
      s.passAt g (4 * s.commando.length) := by
    unfold passAt
    rw [Function.iterate_add_apply]
    exact Function.iterate_fixed (visit_end (ended le_rfl)) k
  rw [settled, activateCommando_eq]
  unfold visits
  rw [whileN_eq_iterate fun p ended =>
    visit_end (List.drop_eq_nil_iff.mpr (by simpa using ended))]
  rfl

/-! ## Steps -/

/-- What the computer does with its strategy: it shops, or goes through its orders. -/
inductive Chore where
  | shop (g : Game)
  | activate (g : Game)

def perform (s : Strategy) : Chore → Strategy
  | .shop g => (s.goShopping g).1
  | .activate g => (s.activateCommando g).1

/-- The steps that leave the orders of a Reagan alone: no NiceDay is bought that was picked before
the market was shut, and a pass is steady behind its first launch. -/
def Orderly (s : Strategy) : Chore → Prop
  | .shop g => s.nextWeapon = some .niceDay → s.canPurchase .niceDay = false →
    g.score.funds < priceWeapon .niceDay (g.weaponActive .carter) ∨
      (g.buyWeapon .niceDay).1 = false
  | .activate g => g.weaponActive .mirror = false →
    Unstarted g.score.opLines s.bazaarNo g.board.boardTop ((slotOf g .reagan).isSome = true) []
      s.commando

section activate

variable {s : Strategy} {g : Game} {line : Int}

theorem passAt_held (plain : ∀ o ∈ s.commando, Plain o) (orderly : s.Orderly (.activate g))
    (n : Nat) : (s.passAt g n).Held g.score.opLines g.board.boardTop (g.weaponActive .mirror)
      s.bazaarNo ((slotOf g .reagan).isSome = true) := by
  refine iterate_visit (fun p o os held ahead => held.visited ahead (visited _ _ _ ahead)) n ?_
  have none : Pass.kept ⟨0, -1, s, g⟩ = [] := rfl
  refine ⟨rfl, rfl, plain, fun r mem => ?_, id, ?_⟩
  · rw [none] at mem
    cases mem
  · exact orderly

theorem plain_activate (plain : ∀ o ∈ s.commando, Plain o) (orderly : s.Orderly (.activate g)) :
    ∀ o ∈ (s.activateCommando g).1.commando, Plain o := by
  rw [← (passAt_ended s g le_rfl).2]
  exact (passAt_held plain orderly _).plain

/-- Until its line comes the market stays shut through a pass. -/
theorem Cool.later (plain : ∀ o ∈ s.commando, Plain o) (orderly : s.Orderly (.activate g))
    (early : g.score.opLines < line + 50) {n : Nat} (cool : (s.passAt g n).strategy.Cool line)
    (k : Nat) : (s.passAt g (n + k)).strategy.Cool line := by
  induction k with
  | zero => exact cool
  | succ k ih =>
    rw [← Nat.add_assoc]
    cases ahead : (s.passAt g (n + k)).ahead with
    | nil =>
      rw [passAt_still ahead]
      exact ih
    | cons o os => exact ih.visited (passAt_held plain orderly _) early ahead (passAt_visited ahead)

theorem Cool.activate (cool : s.Cool line) (plain : ∀ o ∈ s.commando, Plain o)
    (orderly : s.Orderly (.activate g)) (early : g.score.opLines < line + 50) :
    (s.activateCommando g).1.Cool line := by
  rw [← (passAt_ended s g le_rfl).2, ← Nat.zero_add (4 * _)]
  exact Cool.later plain orderly early (n := 0) cool _

/-- The first pass to see its line opens the market. -/
theorem Cool.opens (cool : s.Cool line) (positive : -1 < line)
    (plain : ∀ o ∈ s.commando, Plain o) (orderly : s.Orderly (.activate g))
    (late : line + 50 ≤ g.score.opLines) (none : ¬s.Launches g .reagan) :
    ∀ w ∈ economy, (s.activateCommando g).1.canPurchase w = true := by
  have opening (n : Nat) : ∀ w ∈ economy, (s.passAt g n).strategy.canPurchase w = true ∨
      orderAt .canPurchase w (line + 50) ∈ (s.passAt g n).ahead := by
    induction n with
    | zero => exact fun w mem => .inr (cool.queued (mem_resumes.mpr ⟨w, mem, rfl⟩))
    | succ n ih =>
      cases ahead : (s.passAt g n).ahead with
      | nil =>
        rw [passAt_still ahead]
        exact ih
      | cons o os =>
        exact opens_visited ih (passAt_held plain orderly n) late positive
          (fun launching => none ⟨n, launching⟩) ahead (passAt_visited ahead)
  obtain ⟨ended, last⟩ := passAt_ended s g le_rfl
  intro w mem
  rw [← last]
  refine (opening _ w mem).resolve_right fun queued => ?_
  rw [ended] at queued
  cases queued

/-- A pass that sends a Reagan shuts the market. -/
theorem Launches.cools (sent : s.Launches g .reagan) (plain : ∀ o ∈ s.commando, Plain o)
    (orderly : s.Orderly (.activate g)) :
    -1 < g.score.opLines ∧ (s.activateCommando g).1.Cool g.score.opLines := by
  obtain ⟨n, o, here, ⟨fired, kind, clear⟩, weapon, free, stocked⟩ := sent
  have held := passAt_held plain orderly n
  obtain ⟨o', os, ahead⟩ := ahead_nil (List.getElem?_eq_some_iff.mp here).1
  have first := (commando_ahead ahead o').1
  rw [here] at first
  cases first
  have step := passAt_visited ahead
  rw [held.bazaar] at fired
  have kinds := reschedule_kind o (s.passAt g n).prevLine g.score.opLines
  have weapons := reschedule_weapon o (s.passAt g n).prevLine g.score.opLines
  generalize moved : reschedule o (s.passAt g n).prevLine g.score.opLines = o' at step kinds weapons
  rw [moved] at fired
  have launch : o'.kind = .launch ∧
      fires o' g.score.opLines s.bazaarNo g.board.boardTop = true := ⟨kinds.trans kind, fired⟩
  have reagan : o'.weapon = .reagan ∧ (slotOf (s.passAt g n).game o'.weapon).isSome = true := by
    rw [weapons, weapon]
    exact ⟨rfl, stocked⟩
  have shut : (s.passAt g (n + 1)).strategy.Cool g.score.opLines := by
    have cools := held.cools ahead clear moved.symm launch reagan
    generalize s.passAt g (n + 1) = q at step
    cases step with
    | stays idle => exact absurd ⟨held.bazaar.symm ▸ launch.2, launch.1⟩ (idle clear)
    | unlocks _ unlock => cases launch.1.symm.trans unlock
    | launches =>
      rcases launchWeapon_cases ((s.passAt g n).strategy.withOrders
        ((s.passAt g n).strategy.commando.take (s.passAt g n).i ++ os)) (s.passAt g n).game
        o'.weapon with ⟨-, other⟩ | ⟨-, cooled⟩
      · exact absurd reagan other
      · rw [cooled, held.score]
        exact cools
  refine ⟨(held.sent ahead clear moved.symm launch reagan).2.1.1, ?_⟩
  obtain ⟨-, last⟩ := passAt_ended s g (Nat.le_add_left (4 * s.commando.length) (n + 1))
  rw [← last]
  exact Cool.later plain orderly (by omega) shut _

end activate

/-! ## Shopping -/

/-- What every pick, every purchase and the promotion keep, the shopping keeps. -/
theorem goShopping_kept {P : Strategy → Prop} {g : Game}
    (pick : ∀ s, P s → s.nextWeapon = none → P (s.pickWeapon 256))
    (buy : ∀ s w price, P s → s.nextWeapon = some w → P (s.bought w price))
    (promote : ∀ s, P s → P s.promote) {s : Strategy}
    (opened : P (allow { s with bazaarNo := s.bazaarNo + 1 } .swap
      (g.board.boardTop ≤ btSwapline))) : P (s.goShopping g).1 := by
  have chained (carter : Bool) (n : Nat) (s : Strategy) (g : Game) (kept : P s) :
      P (buyChain carter n s g).1 := by
    induction n generalizing s g with
    | zero => exact kept
    | succ n ih =>
      unfold buyChain
      split
      · next t h bought =>
        refine ih t h ?_
        unfold buyNext at bought
        split at bought
        · cases bought
        next w next =>
        dsimp only at bought
        split at bought
        · cases bought
        split at bought
        · cases bought
          exact buy s w _ kept next
        · cases bought
      · exact kept
  have round (carter : Bool) (s : Strategy) (g : Game) (kept : P s) :
      P (shopRound carter s g).2.1 := by
    have picked : P (if s.nextWeapon = none then s.pickWeapon 256 else s) := by
      split
      · next none => exact pick s kept none
      · exact kept
    unfold shopRound
    generalize (if s.nextWeapon = none then s.pickWeapon 256 else s) = t at picked
    dsimp only
    split
    · exact picked
    · exact chained carter _ t g picked
  have rounds (carter : Bool) (n : Nat) (s : Strategy) (g : Game) (kept : P s) :
      P (shopRounds carter n s g).1 := by
    induction n generalizing s g with
    | zero => exact kept
    | succ n ih =>
      have next := round carter s g kept
      unfold shopRounds
      split
      · next visited =>
        rw [visited] at next
        exact ih _ _ next
      · next visited =>
        rw [visited] at next
        exact next
  exact promote _ (rounds _ 256 _ g opened)

/-- A pick changes the weapon in mind only, to one that is approved. -/
theorem pickWeapon_eq (n : Nat) (s : Strategy) : ∃ rng, s.pickWeapon n = { s with rng := rng } ∨
    ∃ w, s.canPurchase w = true ∧ s.pickWeapon n = { s with nextWeapon := some w, rng := rng } := by
  induction n generalizing s with
  | zero => exact ⟨s.rng, .inl rfl⟩
  | succ n ih =>
    have drawn : s.drawWeapon.2 = { s with rng := s.drawWeapon.2.rng } := rfl
    unfold pickWeapon
    generalize s.drawWeapon = draw at drawn
    obtain ⟨_ | t, s'⟩ := draw
    · exact ⟨s'.rng, .inl drawn⟩
    · unfold settle
      dsimp only at drawn ⊢
      split
      · next approved =>
        unfold purchaseApproved at approved
        rw [Bool.and_eq_true] at approved
        refine ⟨s'.rng, .inr ⟨t, ?_, ?_⟩⟩
        · rw [drawn] at approved
          exact approved.1
        · rw [drawn]
      · obtain ⟨rng, same | ⟨w, free, picked⟩⟩ := ih s'
        · refine ⟨rng, .inl ?_⟩
          rw [same, drawn]
        · refine ⟨rng, .inr ⟨w, ?_, ?_⟩⟩
          · rw [drawn] at free
            exact free
          · rw [picked, drawn]

section bought

variable (s : Strategy) (w t : WeaponToken) (price : Int)

theorem chain_commando : (s.chain w).commando = s.commando := by
  unfold chain
  cases w <;> first | rfl | (dsimp only; split <;> rfl)

theorem complete_eq : ∃ cost, s.complete w = { s with comboCost := cost } := by
  unfold complete
  split
  · exact ⟨0, rfl⟩
  · exact ⟨s.comboCost, rfl⟩

theorem bought_commando : (s.bought w price).commando =
    s.commando ++ [orderAt (orderKind w) w s.nextLaunch] := by
  unfold bought
  dsimp only
  obtain ⟨cost, done⟩ := complete_eq (chain (queue (if w = .reagan then _ else _)
    (orderAt (orderKind w) w _)) w) w
  rw [done]
  dsimp only
  rw [chain_commando]
  split <;> rfl

theorem chain_next : (s.chain w).nextWeapon ≠ some .niceDay := by
  unfold chain
  cases w with
  | speedy =>
    dsimp only
    split
    · nofun
    · nofun
  | _ => nofun

theorem bought_next : (s.bought w price).nextWeapon ≠ some .niceDay := by
  unfold bought
  dsimp only
  obtain ⟨cost, done⟩ := complete_eq (chain (queue (if w = .reagan then _ else _)
    (orderAt (orderKind w) w _)) w) w
  rw [done]
  exact chain_next _ w

theorem chain_canPurchase (other : w ≠ .niceDay) :
    (s.chain w).canPurchase t = true → s.canPurchase t = true := by
  unfold chain
  cases w with
  | niceDay => exact absurd rfl other
  | speedy =>
    dsimp only
    split <;> exact id
  | reagan =>
    intro free
    dsimp only at free
    rw [allow_canPurchase] at free
    split at free
    · cases free
    · exact free
  | _ => exact id

/-- Only a NiceDay puts a weapon on the market. -/
theorem bought_canPurchase (other : w ≠ .niceDay) :
    (s.bought w price).canPurchase t = true → s.canPurchase t = true := by
  unfold bought
  dsimp only
  obtain ⟨cost, done⟩ := complete_eq (chain (queue (if w = .reagan then _ else _)
    (orderAt (orderKind w) w _)) w) w
  rw [done]
  intro free
  have before := chain_canPurchase _ w t other free
  split at before <;> exact before

end bought

theorem orderKind_reopens (w : WeaponToken) (lineNo : Int) :
    reopens (orderAt (orderKind w) w lineNo) = false := by
  unfold orderKind
  split <;> simp [reopens, orderAt]

theorem promote_orders (s : Strategy) : s.promote.canPurchase = s.canPurchase ∧
    (∀ o, reopens o = true → (o ∈ s.promote.commando ↔ o ∈ s.commando)) ∧
      ((∀ o ∈ s.commando, Plain o) → ∀ o ∈ s.promote.commando, Plain o) := by
  unfold promote
  split
  · refine ⟨rfl, fun o reopened => ?_, fun plain o mem => ?_⟩
    · dsimp only
      rw [List.mem_map]
      have launch (r : Order) : reopens { r with kind := .launch } = false := reopens_launch rfl
      constructor
      · rintro ⟨r, mem, same⟩
        split at same
        · rw [← same, launch] at reopened
          cases reopened
        · rwa [← same]
      · intro mem
        refine ⟨o, mem, if_neg fun promoted => ?_⟩
        cases (reopens_kind reopened).symm.trans promoted.1
    · obtain ⟨r, listed, rfl⟩ := List.mem_map.mp mem
      split
      · exact plain r listed
      · exact plain r listed
  · exact ⟨rfl, fun _ _ => Iff.rfl, id⟩

section shop

variable {s : Strategy} {g : Game} {line : Int}

theorem plain_shop (plain : ∀ o ∈ s.commando, Plain o) :
    ∀ o ∈ (s.goShopping g).1.commando, Plain o := by
  refine goShopping_kept (P := fun s => ∀ o ∈ s.commando, Plain o)
    (fun s plain _ => ?_) (fun s w price plain _ => ?_)
    (fun s plain => (promote_orders s).2.2 plain) plain
  · obtain ⟨rng, same | ⟨w, -, picked⟩⟩ := s.pickWeapon_eq 256
    · rw [same]
      exact plain
    · rw [picked]
      exact plain
  · rw [bought_commando]
    intro o mem
    rcases List.mem_append.mp mem with before | last
    · exact plain o before
    · rw [List.mem_singleton.mp last]
      exact ⟨rfl, rfl⟩

theorem shopRound_stuck {carter : Bool} {w : WeaponToken} (next : s.nextWeapon = some w)
    (refused : g.score.funds < priceWeapon w carter ∨ (g.buyWeapon w).1 = false) :
    shopRound carter s g = (false, s, g) := by
  have stops : buyNext carter s g = none := by
    unfold buyNext
    rw [next]
    dsimp only
    rcases refused with poor | full
    · exact if_pos poor
    · split
      · rfl
      · generalize g.buyWeapon w = bought at full
        obtain ⟨done, h⟩ := bought
        cases full
        rfl
  have settled : s.nextWeapon ≠ none := by
    rw [next]
    exact Option.some_ne_none w
  unfold shopRound
  rw [if_neg settled]
  dsimp only
  rw [if_neg settled]
  unfold buyChain
  rw [stops]
  simp

/-- An orderly visit to the bazaar leaves the market shut. -/
theorem Cool.shop (cool : s.Cool line) (orderly : s.Orderly (.shop g)) :
    (s.goShopping g).1.Cool line := by
  have opened : (allow { s with bazaarNo := s.bazaarNo + 1 } .swap
      (g.board.boardTop ≤ btSwapline)).Cool line := by
    refine cool.congr (fun w mem => ?_) fun _ _ => Iff.rfl
    have other : w ≠ .swap := by
      rintro rfl
      revert mem
      decide
    rw [allow_canPurchase, if_neg other]
    exact id
  have promoted {t : Strategy} (cool : t.Cool line) : t.promote.Cool line := by
    obtain ⟨flags, orders, -⟩ := promote_orders t
    exact cool.congr (fun w _ free => by rwa [flags] at free) orders
  by_cases left : s.nextWeapon = some .niceDay
  · have refused := orderly left (cool.shut _ (by decide))
    have stuck := shopRound_stuck (s := allow { s with bazaarNo := s.bazaarNo + 1 } .swap
      (g.board.boardTop ≤ btSwapline)) left refused
    have rounds : shopRounds (g.weaponActive .carter) 256 (allow { s with
        bazaarNo := s.bazaarNo + 1 } .swap (g.board.boardTop ≤ btSwapline)) g =
        (allow { s with bazaarNo := s.bazaarNo + 1 } .swap (g.board.boardTop ≤ btSwapline), g) := by
      unfold shopRounds
      rw [stuck]
    unfold goShopping
    dsimp only
    rw [rounds]
    exact promoted opened
  · refine (goShopping_kept (P := fun t => t.Cool line ∧ t.nextWeapon ≠ some .niceDay)
      (fun t kept _ => ?_) (fun t w price kept next => ?_) (fun t kept => ⟨promoted kept.1, ?_⟩)
      ⟨opened, left⟩).1
    · obtain ⟨rng, same | ⟨w, free, picked⟩⟩ := t.pickWeapon_eq 256
      · rw [same]
        exact ⟨kept.1.congr (fun _ _ => id) fun _ _ => Iff.rfl, kept.2⟩
      · rw [picked]
        refine ⟨kept.1.congr (fun _ _ => id) fun _ _ => Iff.rfl, ?_⟩
        -- what is picked is on the market
        rintro this
        cases this
        rw [kept.1.shut .niceDay (by decide)] at free
        cases free
    · have other : w ≠ .niceDay := fun this => kept.2 (this ▸ next)
      refine ⟨kept.1.congr (fun t _ => bought_canPurchase _ w t price other) fun o reopened => ?_,
        bought_next t w price⟩
      rw [bought_commando, List.mem_append, List.mem_singleton, or_iff_left]
      rintro rfl
      rw [orderKind_reopens] at reopened
      cases reopened
    · have same : t.promote.nextWeapon = t.nextWeapon := by
        unfold promote
        split <;> rfl
      rw [same]
      exact kept.2

end shop

/-! ## Runs -/

/-- In a run of orderly steps the market is shut once a Reagan is sent, until a pass sees 50 more
of the opponent's lines; and that pass opens it, unless it sends another Reagan. -/
theorem cooldown_kept {seed : Nat} {before after : List Chore} {s t : Strategy} {g : Game}
    (run : Run Orderly perform (new seed) before s) (orderly : s.Orderly (.activate g))
    (sent : s.Launches g .reagan)
    (later : Run Orderly perform (s.perform (.activate g)) after t)
    (early : ∀ h, .activate h ∈ after → h.score.opLines < g.score.opLines + 50) :
    (∀ w ∈ economy, t.canPurchase w = false) ∧
      ∀ h, t.Orderly (.activate h) → g.score.opLines + 50 ≤ h.score.opLines →
        t.Launches h .reagan ∨ ∀ w ∈ economy, (t.perform (.activate h)).canPurchase w = true := by
  have plain_step (s : Strategy) (c : Chore) (plain : ∀ o ∈ s.commando, Plain o)
      (orderly : s.Orderly c) : ∀ o ∈ (s.perform c).commando, Plain o := by
    cases c with
    | shop g => exact plain_shop plain
    | activate g => exact plain_activate plain orderly
  have plain : ∀ o ∈ s.commando, Plain o := by
    refine run.invariant plain_step fun o mem => ?_
    rw [List.mem_singleton.mp mem]
    exact ⟨rfl, rfl⟩
  obtain ⟨positive, shut⟩ := sent.cools plain orderly
  have kept : t.Cool g.score.opLines ∧ ∀ o ∈ t.commando, Plain o := by
    have walk : (∀ h, .activate h ∈ after → h.score.opLines < g.score.opLines + 50) →
        t.Cool g.score.opLines ∧ ∀ o ∈ t.commando, Plain o := by
      refine later.history_invariant (P := fun chores t =>
        (∀ h, .activate h ∈ chores → h.score.opLines < g.score.opLines + 50) →
          t.Cool g.score.opLines ∧ ∀ o ∈ t.commando, Plain o)
        (fun chores t c ih orderly early => ?_) fun _ => ⟨shut, plain_activate plain orderly⟩
      obtain ⟨cool, plain⟩ := ih fun h mem => early h (List.mem_append_left _ mem)
      refine ⟨?_, plain_step t c plain orderly⟩
      cases c with
      | shop g => exact cool.shop orderly
      | activate h =>
        exact cool.activate plain orderly (early h (List.mem_append_right _ List.mem_cons_self))
    exact walk early
  refine ⟨kept.1.shut, fun h orderly late => ?_⟩
  by_cases again : t.Launches h .reagan
  · exact .inl again
  · exact .inr (kept.1.opens positive kept.2 orderly late again)

/-- With the market open, and every launch that is due on time, a pass is orderly. -/
theorem orderly_of_open {s : Strategy} {g : Game} (opened : ∀ r ∈ s.commando, reopens r = false)
    (onTime : ∀ o ∈ s.commando, o.kind = .launch ∧
      fires o g.score.opLines s.bazaarNo g.board.boardTop = true → o.lineNo = g.score.opLines)
    (fits : g.score.opLines + 50 < 2 ^ 31) : s.Orderly (.activate g) := by
  intro _ before first behind split launch _
  have due := onTime first (split ▸ List.mem_append_right _ List.mem_cons_self) launch
  have none (r : Order) (mem : r ∈ before ++ first :: behind) : ¬reopens r = true := by
    rw [opened r (split ▸ mem)]
    decide
  refine ⟨fun r mem reopened => absurd reopened (none r (List.mem_append_right _ mem)),
    fun _ mid o after parts _ _ =>
      ⟨⟨due, fits⟩, fun r mem reopened => ?_, fun r mem reopened => ?_⟩⟩
  · refine absurd reopened (none r ?_)
    rw [parts, ← List.append_assoc]
    exact List.mem_append_left _ mem
  · refine absurd reopened (none r ?_)
    rw [parts]
    exact List.mem_append_right _ (List.mem_append_right _ (List.mem_cons_of_mem o mem))

/-- No pass sends a Reagan that the arsenal lacks. -/
theorem not_launches {s : Strategy} {g : Game} {w : WeaponToken} (none : slotOf g w = none) :
    ¬s.Launches g w := by
  rintro ⟨n, o, -, -, -, -, stocked⟩
  have lacks : (slotOf (s.passAt g n).game w).isSome = true → (slotOf g w).isSome = true := by
    refine iterate_visit
      (P := fun p => (slotOf p.game w).isSome = true → (slotOf g w).isSome = true)
      (fun p o os kept ahead => ?_) n id
    have step := visited g.score.opLines g.board.boardTop (g.weaponActive .mirror) ahead
    generalize visit _ _ _ p = q at step
    cases step with
    | stays => exact kept
    | unlocks => exact kept
    | launches => exact kept ∘ (launchWeapon_game _ p.game _ w).2
  rw [none] at lacks
  cases lacks stocked

/-- A bazaar with funds for a NiceDay, a Reagan and more. -/
def market : Game :=
  { Game.new 1 with inBazaar := true, score := ⟨0, 0, 0, 0, 2000, 0⟩ }

/-- The game after the bazaar, with the opponent at `opLines`. -/
def seeing (opLines : Int) (g : Game) : Game :=
  { g with inBazaar := false, score := { g.score with opLines := opLines } }

/-- The purchases of one visit. -/
def shopped : Strategy × Game := (new 17).goShopping market

/-- A pass that sees the opponent at `opLines`. -/
def passed (r : Strategy × Game) (opLines : Int) : Strategy × Game :=
  r.1.activateCommando (seeing opLines r.2)

theorem passed_perform (r : Strategy × Game) (opLines : Int) :
    (passed r opLines).1 = r.1.perform (.activate (seeing opLines r.2)) := rfl

theorem run_passed {ok : Strategy → Chore → Prop} {opLines : Int}
    (shops : ok (new 17) (.shop market))
    (goes : ok shopped.1 (.activate (seeing opLines shopped.2))) :
    Run ok perform (new 17) [.shop market, .activate (seeing opLines shopped.2)]
      (passed shopped opLines).1 := by
  have first : Run ok perform (new 17) [.shop market] shopped.1 := Run.nil.snoc shops
  rw [passed_perform shopped opLines]
  exact first.snoc goes

/-- A Reagan that goes out four lines late keeps the market shut for 54 lines. -/
theorem cooldown_overrun : ¬∀ (seed : Nat) (before after : List Chore) (s t : Strategy) (g : Game),
    Run (fun _ _ => True) perform (new seed) before s → s.Launches g .reagan →
      Run (fun _ _ => True) perform (s.perform (.activate g)) after t →
        (∀ h, .activate h ∈ after → h.score.opLines < g.score.opLines + 50) →
          (∀ w ∈ economy, t.canPurchase w = false) ∧
            ∀ h, g.score.opLines + 50 ≤ h.score.opLines → t.Launches h .reagan ∨
              ∀ w ∈ economy, (t.perform (.activate h)).canPurchase w = true := by
  intro all
  have sent : (passed shopped 5).1.Launches (seeing 10 (passed shopped 5).2) .reagan := by
    refine ⟨1, orderAt .launch .reagan 6, ?_, ⟨?_, rfl, ?_⟩, rfl, rfl, ?_⟩ <;> decide +kernel
  have empty : slotOf (seeing 60 (passed (passed shopped 5) 10).2) .reagan = none := by
    decide +kernel
  have shut : (passed (passed (passed shopped 5) 10) 60).1.canPurchase .reagan = false := by
    decide +kernel
  obtain ⟨-, opens⟩ := all 17 _ [] _ _ _ (run_passed trivial trivial) sent .nil
    fun _ mem => absurd mem List.not_mem_nil
  rw [← passed_perform (passed shopped 5) 10] at opens
  rcases opens (seeing 60 (passed (passed shopped 5) 10).2) le_rfl with again | free
  · exact not_launches empty again
  · have opened := free .reagan (by decide)
    rw [← passed_perform (passed (passed shopped 5) 10) 60, shut] at opened
    cases opened

theorem cooldown_kept_onTime :
    (passed (passed shopped 0) 1).1.canPurchase .reagan = false ∧
      (passed (passed shopped 0) 1).1.canPurchase .keating = false ∧
      (passed (passed shopped 0) 1).1.canPurchase .niceDay = false := by
  have first : shopped.1.Orderly (.activate (seeing 0 shopped.2)) := by
    refine orderly_of_open ?_ ?_ ?_ <;> decide +kernel
  have orderly : (passed shopped 0).1.Orderly (.activate (seeing 1 (passed shopped 0).2)) := by
    refine orderly_of_open ?_ ?_ ?_ <;> decide +kernel
  have sent : (passed shopped 0).1.Launches (seeing 1 (passed shopped 0).2) .reagan := by
    refine ⟨1, orderAt .launch .reagan 1, ?_, ⟨?_, rfl, ?_⟩, rfl, rfl, ?_⟩ <;> decide +kernel
  have shops : (new 17).Orderly (.shop market) := nofun
  have shut := (cooldown_kept (run_passed shops first) orderly sent .nil
    (fun _ mem => absurd mem List.not_mem_nil)).1
  rw [passed_perform (passed shopped 0) 1]
  exact ⟨shut .reagan (by decide), shut .keating (by decide), shut .niceDay (by decide)⟩

end Strategy

end BattleTris
