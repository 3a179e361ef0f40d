import BattleTris.Core.Bazaar
import BattleTris.Lib.Loop

/-!
What a networked bot buys in the bazaar: one list, made up from the funds and the slots before
anything is bought, and then submitted purchase by purchase.
-/

namespace BattleTris

open Loop

/-! ## The plan -/

/-- What a weapon is good for, from the attacker's side. -/
inductive WClass where
  | garbage
  | harass
  | economy
  | spy
  | skip
  deriving DecidableEq

def weaponClass : WeaponToken → WClass
  | .riseUp | .lawyers | .bottle | .blind | .pieceIt | .bug | .fallOut | .fourByFour
  | .twilight => .garbage
  | .fearedWeird | .hatter | .speedy | .soLong | .noDice | .slick | .broken | .force
  | .noSlide | .upbyside | .flipOut => .harass
  | .mondale | .keating | .reagan | .carter => .economy
  | .ames | .ace | .condor => .spy
  | .swap | .susan | .mirror | .meadow | .niceDay | .missing | .gimp => .skip

/-- An empty slot reads as `-1`. -/
def tokenFromIndex (idx : Int) : Option WeaponToken :=
  if idx < 0 then none else WeaponToken.all[idx.toNat]?

/-- Best first; a weapon may come again in the next round. -/
def buyPriority : List WeaponToken :=
  [.riseUp, .upbyside, .bottle, .mondale, .pieceIt, .soLong, .speedy, .broken, .force, .bug,
    .lawyers, .hatter, .blind, .fearedWeird, .fourByFour, .keating, .twilight, .slick, .noDice]

def priceOf (t : WeaponToken) (carter : Bool) : Int :=
  let p := (weaponTable t).price
  if carter then p * 2 else p

def arsenalHasSpy (arsenal : List Int) : Bool :=
  (arsenal.filterMap tokenFromIndex).any fun t => weaponClass t = .spy

/-- The plan so far, and the funds and the slots that it leaves. -/
structure Basket where
  budget : Int
  slots : Int
  plan : List WeaponToken

namespace Basket

def new (funds : Int) (arsenal : List Int) : Basket where
  budget := funds
  slots := (arsenal.filter (· < 0)).length
  plan := []

def affords (b : Basket) (carter : Bool) (t : WeaponToken) : Bool :=
  0 < b.slots ∧ priceOf t carter ≤ b.budget

def add (b : Basket) (carter : Bool) (t : WeaponToken) : Basket where
  budget := b.budget - priceOf t carter
  slots := b.slots - 1
  plan := b.plan ++ [t]

/-- The first spy that it can pay, unless there is one in the arsenal. -/
def buySpy (b : Basket) (carter : Bool) (arsenal : List Int) : Basket :=
  if arsenalHasSpy arsenal then b
  else
    match [WeaponToken.ace, .ames, .condor].find? (b.affords carter) with
    | some spy => b.add carter spy
    | none => b

/-- One weapon of the priority list; the flag is whether the round has bought anything. -/
def consider (carter : Bool) (s : Bool × Basket) (t : WeaponToken) : Bool × Basket :=
  if s.2.affords carter t then (true, s.2.add carter t) else s

/-- One round through the priority list, and whether there is to be another. -/
def round (carter : Bool) (b : Basket) : Bool × Basket :=
  let (bought, b) := buyPriority.foldl (consider carter) (false, b)
  (bought && 0 < b.slots, b)

end Basket

def buyPlan (fuel : Nat) (funds : Int) (arsenal : List Int) (carter : Bool) :
    Option (List WeaponToken) :=
  (loopN fuel (Basket.round carter) ((Basket.new funds arsenal).buySpy carter arsenal)).map
    Basket.plan

/-! ## The books of the plan -/

/-- What the plan costs. -/
def planCost (carter : Bool) (plan : List WeaponToken) : Int :=
  (plan.map fun t => priceOf t carter).sum

theorem priceOf_nonneg (t : WeaponToken) (carter : Bool) : 0 ≤ priceOf t carter := by
  have listed : 0 ≤ (weaponTable t).price := by cases t <;> decide
  unfold priceOf
  dsimp only
  split <;> omega

theorem planCost_nonneg (carter : Bool) (plan : List WeaponToken) : 0 ≤ planCost carter plan :=
  List.sum_nonneg fun _ member => by
    obtain ⟨t, -, rfl⟩ := List.mem_map.mp member
    exact priceOf_nonneg t carter

namespace Basket

variable {carter : Bool} {funds slots : Int} {b : Basket} {t : WeaponToken}

/-- The counters agree with the plan, which has not run over either of them. -/
structure Balanced (carter : Bool) (funds slots : Int) (b : Basket) : Prop where
  paid : b.budget + planCost carter b.plan = funds
  filled : b.slots + b.plan.length = slots
  room : 0 ≤ b.slots
  solvent : b.plan = [] ∨ 0 ≤ b.budget

theorem affords_iff : b.affords carter t = true ↔ 0 < b.slots ∧ priceOf t carter ≤ b.budget :=
  decide_eq_true_iff

theorem Balanced.add (balanced : Balanced carter funds slots b)
    (affordable : b.affords carter t = true) : Balanced carter funds slots (b.add carter t) := by
  obtain ⟨paid, filled, room, -⟩ := balanced
  obtain ⟨free, cheap⟩ := affords_iff.mp affordable
  have cost : planCost carter (b.plan ++ [t]) = planCost carter b.plan + priceOf t carter := by
    simp [planCost]
  constructor
  · change b.budget - priceOf t carter + planCost carter (b.plan ++ [t]) = funds
    rw [cost]
    linarith
  · change b.slots - 1 + ((b.plan ++ [t]).length : Int) = slots
    rw [List.length_append, List.length_singleton]
    push_cast
    linarith
  · exact Int.sub_nonneg_of_le free
  · exact .inr (Int.sub_nonneg_of_le cheap)

theorem balanced_new (carter : Bool) (funds : Int) (arsenal : List Int) :
    Balanced carter funds (arsenal.filter (· < 0)).length (new funds arsenal) :=
  ⟨add_zero _, add_zero _, Int.natCast_nonneg _, .inl rfl⟩

theorem Balanced.buySpy (balanced : Balanced carter funds slots b) (arsenal : List Int) :
    Balanced carter funds slots (b.buySpy carter arsenal) := by
  unfold Basket.buySpy
  split
  · exact balanced
  · cases found : [WeaponToken.ace, .ames, .condor].find? (b.affords carter) with
    | none => exact balanced
    | some spy => exact balanced.add (List.find?_some found)

/-- Through a part of the list: the books balance, slots only go, and they go exactly when
something was bought; what was passed over in a round without purchases is out of reach. -/
structure Considered (carter : Bool) (b : Basket) (ts : List WeaponToken) (s : Bool × Basket) :
    Prop where
  fewer : s.2.slots ≤ b.slots
  bought : s.1 = true → s.2.slots < b.slots
  idle : s.1 = false → s.2 = b ∧ ∀ t ∈ ts, b.affords carter t = false

theorem considered (carter : Bool) (b : Basket) (ts : List WeaponToken) :
    Considered carter b ts (ts.foldl (consider carter) (false, b)) := by
  induction ts using List.reverseRecOn with
  | nil =>
    refine ⟨le_rfl, ?_, fun _ => ⟨rfl, ?_⟩⟩
    · rintro ⟨⟩
    · rintro t ⟨⟩
  | append_singleton ts t ih =>
    rw [List.foldl_append, List.foldl_cons, List.foldl_nil]
    generalize ts.foldl (consider carter) (false, b) = s at ih
    unfold consider
    split
    · have less : s.2.slots - 1 < b.slots := by
        have := ih.fewer
        omega
      refine ⟨less.le, fun _ => less, ?_⟩
      rintro ⟨⟩
    · next dear =>
      refine ⟨ih.fewer, ih.bought, fun none => ?_⟩
      obtain ⟨same, before⟩ := ih.idle none
      refine ⟨same, fun u member => ?_⟩
      rcases List.mem_append.mp member with early | late
      · exact before u early
      · rw [List.mem_singleton.mp late, ← same]
        exact Bool.eq_false_iff.mpr dear

theorem Balanced.foldl (balanced : Balanced carter funds slots b) (ts : List WeaponToken) :
    Balanced carter funds slots (ts.foldl (consider carter) (false, b)).2 := by
  refine foldl_invariant (P := fun s : Bool × Basket => Balanced carter funds slots s.2)
    (fun t _ s kept => ?_) balanced
  unfold consider
  split
  · next affordable => exact kept.add affordable
  · exact kept

/-- A round is the pass through the priority list. -/
theorem round_pass (carter : Bool) (b : Basket) :
    ∃ s : Bool × Basket, Considered carter b buyPriority s ∧
      (∀ {funds slots}, Balanced carter funds slots b → Balanced carter funds slots s.2) ∧
      b.round carter = (s.1 && 0 < s.2.slots, s.2) := by
  refine ⟨_, considered carter b buyPriority, fun balanced => balanced.foldl buyPriority, ?_⟩
  unfold round
  generalize buyPriority.foldl (consider carter) (false, b) = s
  rfl

/-- A round that goes on has filled a slot. -/
theorem Balanced.round (balanced : Balanced carter funds slots b) :
    Balanced carter funds slots (b.round carter).2 ∧
      ((b.round carter).1 = true → (b.round carter).2.slots.toNat < b.slots.toNat) := by
  obtain ⟨s, pass, kept, whole⟩ := round_pass carter b
  rw [whole]
  refine ⟨kept balanced, fun again => ?_⟩
  obtain ⟨bought, free⟩ := Bool.and_eq_true_iff.mp again
  have less := pass.bought bought
  have positive : 0 < s.2.slots := of_decide_eq_true free
  change s.2.slots.toNat < b.slots.toNat
  omega

/-- The last round left no slot, or bought nothing because nothing was in reach. -/
theorem Balanced.stopped (balanced : Balanced carter funds slots b)
    (stops : (b.round carter).1 = false) :
    (b.round carter).2.slots = 0 ∨
      ∀ t ∈ buyPriority, (b.round carter).2.budget < priceOf t carter := by
  have kept := balanced.round.1
  obtain ⟨s, pass, -, whole⟩ := round_pass carter b
  rw [whole] at stops kept ⊢
  rcases Bool.and_eq_false_iff.mp stops with idle | full
  · obtain ⟨same, dear⟩ := pass.idle idle
    dsimp only
    rw [same]
    by_cases free : 0 < b.slots
    · refine .inr fun t member => ?_
      have out := of_decide_eq_false (dear t member)
      exact not_le.mp fun cheap => out ⟨free, cheap⟩
    · exact .inl (le_antisymm (not_lt.mp free) balanced.room)
  · exact .inl (le_antisymm (not_lt.mp (of_decide_eq_false full)) kept.room)

end Basket

/-- With more fuel than slots there is a plan, whatever the fuel. -/
theorem buyPlan_total (funds : Int) (arsenal : List Int) (carter : Bool) :
    ∃ b : Basket, b.Balanced carter funds (arsenal.filter (· < 0)).length ∧
      (b.slots = 0 ∨ ∀ t ∈ buyPriority, b.budget < priceOf t carter) ∧
      ∀ fuel, arsenal.length < fuel → buyPlan fuel funds arsenal carter = some b.plan := by
  have start := (Basket.balanced_new carter funds arsenal).buySpy arsenal
  obtain ⟨last, before, after, stops, found⟩ := loopN_exit
    (P := Basket.Balanced carter funds (arsenal.filter (· < 0)).length)
    (fun b => b.slots.toNat) (fun b balanced => balanced.round) start
  refine ⟨_, after, before.stopped stops, fun fuel enough => ?_⟩
  rw [buyPlan, found fuel (lt_of_le_of_lt ?_ enough)]
  · rfl
  · have filled := start.filled
    have short := List.length_filter_le (fun t : Int => decide (t < 0)) arsenal
    omega

/-! ## The purchases -/

namespace Arsenal

def emptySlots (a : Arsenal) : Nat := (Finset.univ.filter fun i => a.rep i = none).card

/-- A purchase fills at most one empty slot. -/
theorem emptySlots_buy {a a' : Arsenal} {w : WeaponToken} (bought : a.buy w = (true, a')) :
    a.emptySlots ≤ a'.emptySlots + 1 := by
  rcases a.buy_cases w with refused | ⟨i, -, stacked⟩
  · rw [refused] at bought
    cases bought
  · rw [stacked] at bought
    cases bought
    refine (Finset.card_le_card fun j member => ?_).trans (Finset.card_insert_le i _)
    rcases eq_or_ne j i with rfl | apart
    · exact Finset.mem_insert_self j _
    · have empty := (Finset.mem_filter.mp member).2
      refine Finset.mem_insert_of_mem (Finset.mem_filter.mpr ⟨Finset.mem_univ j, ?_⟩)
      change Function.update a.rep i (some w) j = none
      rw [Function.update_of_ne apart]
      exact empty

/-- An arsenal with an empty slot takes any weapon. -/
theorem buy_of_emptySlots {a : Arsenal} (free : 0 < a.emptySlots) (w : WeaponToken) :
    ∃ a', a.buy w = (true, a') := by
  obtain ⟨i, member⟩ := Finset.card_pos.mp free
  have empty := (Finset.mem_filter.mp member).2
  unfold buy
  cases found : (List.finRange btArsenalSize).find? fun i => a.rep i = some w ∨ a.rep i = none with
  | some j => exact ⟨_, rfl⟩
  | none =>
    have passed := List.find?_eq_none.mp found i (List.mem_finRange i)
    exact absurd (decide_eq_true (.inr empty)) passed

end Arsenal

namespace Game

variable {g : Game}

/-- The arsenal as the ten protocol indices. -/
def arsenalTokens (g : Game) : List Int :=
  (List.finRange btArsenalSize).map fun i =>
    ((g.arsenal.rep i).map fun t => (t.index : Int)).getD (-1)

theorem arsenalTokens_empty (g : Game) :
    ((g.arsenalTokens.filter (· < 0)).length : Int) = g.arsenal.emptySlots := by
  have slot (i : Fin btArsenalSize) :
      decide (((g.arsenal.rep i).map fun t => (t.index : Int)).getD (-1) < 0) =
        decide (g.arsenal.rep i = none) := by
    cases g.arsenal.rep i <;> simp
  rw [arsenalTokens, List.filter_map, List.length_map, Arsenal.emptySlots]
  refine congrArg (fun ts : List (Fin btArsenalSize) => (ts.length : Int)) ?_
  exact List.filter_congr fun i _ => slot i

/-- Whether each purchase was made, and the game after them. -/
def submit : Game → List WeaponToken → List Bool × Game
  | g, [] => ([], g)
  | g, t :: ts =>
    let rest := (g.buyWeapon t).2.submit ts
    ((g.buyWeapon t).1 :: rest.1, rest.2)

theorem bazaarPrice_eq (g : Game) (t : WeaponToken) :
    g.bazaarPrice t = priceOf t (g.weaponActive .carter) := rfl

/-- A list within the funds and the empty slots is bought to its end. -/
theorem submit_fulfilled {carter : Bool} (plan : List WeaponToken) (inside : g.inBazaar = true)
    (doubled : g.weaponActive .carter = carter)
    (within : plan = [] ∨ planCost carter plan ≤ g.score.funds)
    (room : plan.length ≤ g.arsenal.emptySlots) :
    (∀ bought ∈ (g.submit plan).1, bought = true) ∧
      (g.submit plan).1.length = plan.length ∧
      (g.submit plan).2.weaponActive .carter = carter ∧
      (g.submit plan).2.score.funds = g.score.funds - planCost carter plan := by
  induction plan generalizing g with
  | nil =>
    refine ⟨?_, rfl, doubled, (sub_zero _).symm⟩
    rintro bought ⟨⟩
  | cons t ts ih =>
    have cost : planCost carter (t :: ts) = priceOf t carter + planCost carter ts :=
      List.sum_cons
    have rest := planCost_nonneg carter ts
    have whole := within.resolve_left (List.cons_ne_nil t ts)
    obtain ⟨a, taken⟩ := Arsenal.buy_of_emptySlots (Nat.lt_of_lt_of_le (Nat.succ_pos _) room) t
    have price : g.bazaarPrice t = priceOf t carter := by rw [bazaarPrice_eq, doubled]
    have bought : g.buyWeapon t = (true, g.dealt (g.score.funds - priceOf t carter) a) := by
      unfold buyWeapon
      rw [if_neg (not_not.mpr inside)]
      dsimp only
      rw [price, if_neg (by linarith), taken]
      rfl
    have left := Arsenal.emptySlots_buy taken
    rw [List.length_cons] at room
    obtain ⟨all, long, same, funds⟩ := ih (g := g.dealt (g.score.funds - priceOf t carter) a)
      inside doubled (.inr (by change _ ≤ g.score.funds - _; linarith))
      (by change _ ≤ a.emptySlots; omega)
    rw [submit, bought]
    refine ⟨fun made member => ?_, ?_, same, ?_⟩
    · rcases List.mem_cons.mp member with rfl | later
      · rfl
      · exact all made later
    · rw [List.length_cons, List.length_cons, long]
    · rw [funds, cost]
      change g.score.funds - _ - _ = _
      ring

/-- The plan of a bot in the bazaar is bought as it stands, costs no more than there is to spend,
and stops for want of slots or of funds. -/
theorem buyPlan_bought (g : Game) (inside : g.inBazaar = true) :
    ∃ plan,
      (∀ fuel, btArsenalSize < fuel →
        buyPlan fuel g.score.funds g.arsenalTokens (g.weaponActive .carter) = some plan) ∧
      (∀ bought ∈ (g.submit plan).1, bought = true) ∧
      (plan.map g.bazaarPrice).sum ≤ max g.score.funds 0 ∧
      (g.submit plan).2.score.funds = g.score.funds - (plan.map g.bazaarPrice).sum ∧
      (plan.length = g.arsenal.emptySlots ∨
        ∀ t ∈ buyPriority, (g.submit plan).2.score.funds < (g.submit plan).2.bazaarPrice t) := by
  obtain ⟨b, balanced, stopped, found⟩ :=
    buyPlan_total g.score.funds g.arsenalTokens (g.weaponActive .carter)
  obtain ⟨paid, filled, room, solvent⟩ := balanced
  rw [arsenalTokens_empty] at filled
  have within : b.plan = [] ∨ planCost (g.weaponActive .carter) b.plan ≤ g.score.funds := by
    rcases solvent with none | funds
    · exact .inl none
    · exact .inr (by linarith)
  obtain ⟨all, -, same, funds⟩ := submit_fulfilled b.plan inside rfl within (by omega)
  refine ⟨b.plan, fun fuel enough => found fuel ?_, all, ?_, funds, ?_⟩
  · simpa [arsenalTokens] using enough
  · change planCost _ b.plan ≤ _
    rcases within with none | cheap
    · rw [none]
      exact le_max_right _ 0
    · exact cheap.trans (le_max_left _ _)
  · rcases stopped with full | dear
    · exact .inl (by omega)
    · refine .inr fun t member => ?_
      rw [bazaarPrice_eq, same, funds]
      have := dear t member
      linarith

/-- A bazaar opened over a game with the given funds. -/
def shopper (funds : Int) : Game :=
  let g := Game.new 0
  { g with inBazaar := true, score := { g.score with funds := funds } }

theorem buyPlan_bought_shopper :
    ∃ plan,
      (∀ fuel, btArsenalSize < fuel →
        buyPlan fuel 1000 (shopper 1000).arsenalTokens ((shopper 1000).weaponActive .carter) =
          some plan) ∧
      (∀ bought ∈ ((shopper 1000).submit plan).1, bought = true) ∧
      (plan.map (shopper 1000).bazaarPrice).sum ≤ 1000 :=
  have ⟨plan, found, all, cost, _⟩ := buyPlan_bought (shopper 1000) rfl
  ⟨plan, found, all, cost⟩

/-- A Reagan leaves debts, and even the empty list costs more than those. -/
theorem buyPlan_owing :
    (shopper (-425)).inBazaar = true ∧
      ¬∃ fuel plan, buyPlan fuel (shopper (-425)).score.funds (shopper (-425)).arsenalTokens
          ((shopper (-425)).weaponActive .carter) = some plan ∧
        (plan.map (shopper (-425)).bazaarPrice).sum ≤ (shopper (-425)).score.funds := by
  refine ⟨rfl, ?_⟩
  rintro ⟨fuel, plan, -, cost⟩
  have none : 0 ≤ (plan.map (shopper (-425)).bazaarPrice).sum := planCost_nonneg _ plan
  change _ ≤ (-425 : Int) at cost
  linarith

end Game

end BattleTris
