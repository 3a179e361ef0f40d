import BattleTris.Core.Bazaar
import BattleTris.Lib.Run

/-!
The arsenal at the widths of the code, and what a history of calls leaves in it.

`Slots` counts in 16 bits; it follows an `Arsenal` as long as no count passes them.
`Account` keeps beside it what has been bought, sold and used.
-/

namespace BattleTris

/-- A search through the slots stops at the first that fits. -/
theorem find_finRange {n : Nat} {p : Fin n → Bool} {i : Fin n}
    (found : (List.finRange n).find? p = some i) : p i = true ∧ ∀ j, j < i → p j = false := by
  obtain ⟨fits, before, after, split, passed⟩ := List.find?_eq_some_iff_append.mp found
  refine ⟨fits, fun j lower => ?_⟩
  have sorted := List.pairwise_lt_finRange n
  have mem := List.mem_finRange j
  rw [split] at sorted mem
  rcases List.mem_append.mp mem with early | late
  · exact eq_false_of_ne_true fun here => by simpa [here] using passed j early
  · rcases List.mem_cons.mp late with rfl | late
    · exact absurd lower (lt_irrefl j)
    · have later := (List.pairwise_append.mp sorted).2.1
      exact absurd lower (not_lt.mpr (List.rel_of_pairwise_cons later late).le)

/-- The ten slots: which weapon is in each, and how many of it. -/
structure Slots where
  rep : Fin btArsenalSize → Option WeaponToken
  quantity : Fin btArsenalSize → UInt16

namespace Slots

variable {s s' : Slots} {a : Arsenal} {w : WeaponToken}

def new : Slots := ⟨fun _ => none, fun _ => 0⟩

/-- Stack onto the first slot that holds `w` or is empty. -/
def buy (s : Slots) (w : WeaponToken) : Bool × Slots :=
  match (List.finRange btArsenalSize).find? fun i => s.rep i = some w ∨ s.rep i = none with
  | some i =>
    (true, ⟨Function.update s.rep i (some w), Function.update s.quantity i (s.quantity i + 1)⟩)
  | none => (false, s)

/-- Consume one from slot `index`; the slot empties with its last weapon. -/
def useSlot (s : Slots) (index : Nat) : Slots :=
  if inside : index < btArsenalSize then
    let i : Fin btArsenalSize := ⟨index, inside⟩
    if s.quantity i = 0 then s
    else
      let left := s.quantity i - 1
      ⟨if left = 0 then Function.update s.rep i none else s.rep, Function.update s.quantity i left⟩
  else s

def sell (s : Slots) (w : WeaponToken) : Bool × Slots :=
  match (List.finRange btArsenalSize).find? fun i => s.rep i = some w ∧ 0 < s.quantity i with
  | some i => (true, s.useSlot i)
  | none => (false, s)

def Holds (s : Slots) (w : WeaponToken) : Prop := ∃ i, s.rep i = some w

/-- How much of a weapon is in all the slots. -/
def total (s : Slots) (w : WeaponToken) : Nat :=
  ∑ i, if s.rep i = some w then (s.quantity i).toNat else 0

/-- A purchase that has a slot to go to stores there. -/
theorem buy_first {s : Slots} {w : WeaponToken} {i : Fin btArsenalSize}
    (fits : s.rep i = some w ∨ s.rep i = none) :
    ∃ j, j ≤ i ∧ (s.rep j = some w ∨ s.rep j = none) ∧
      (s.buy w).2 = ⟨Function.update s.rep j (some w),
        Function.update s.quantity j (s.quantity j + 1)⟩ := by
  unfold buy
  cases found : (List.finRange btArsenalSize).find? fun i => s.rep i = some w ∨ s.rep i = none with
  | none =>
    exact absurd (decide_eq_true fits) (List.find?_eq_none.mp found i (List.mem_finRange i))
  | some j =>
    obtain ⟨here, first⟩ := find_finRange found
    refine ⟨j, not_lt.mp fun lower => ?_, of_decide_eq_true here, rfl⟩
    exact of_decide_eq_false (first i lower) fits

/-! ## The arsenal behind it -/

/-- The slots hold what the arsenal does. -/
structure Embeds (s : Slots) (a : Arsenal) : Prop where
  rep : s.rep = a.rep
  quantity : ∀ i, (s.quantity i).toNat = a.quantities i

theorem embeds_new : new.Embeds .new := ⟨rfl, fun _ => rfl⟩

/-- Storing in one slot keeps the two together. -/
theorem Embeds.put (embeds : s.Embeds a) (i : Fin btArsenalSize) {token : Option WeaponToken}
    {n : UInt16} {qty : Nat} (filled : token = none ↔ qty = 0) (same : n.toNat = qty) :
    (⟨Function.update s.rep i token, Function.update s.quantity i n⟩ : Slots).Embeds
      (a.put i token qty) := by
  obtain ⟨rep, quantities⟩ := a.put_rep_quantities i filled
  refine ⟨?_, fun j => ?_⟩
  · rw [rep, embeds.rep]
  · rw [quantities]
    dsimp only
    rcases eq_or_ne j i with rfl | apart
    · rw [Function.update_self, Function.update_self]
      exact same
    · rw [Function.update_of_ne apart, Function.update_of_ne apart]
      exact embeds.quantity j

theorem Embeds.quantity_eq_zero (embeds : s.Embeds a) (i : Fin btArsenalSize) :
    s.quantity i = 0 ↔ a.quantities i = 0 := by
  rw [← embeds.quantity i]
  exact UInt16.toNat_inj.symm

/-- A purchase is refused where the arsenal's is. -/
theorem Embeds.buy_fst (embeds : s.Embeds a) (w : WeaponToken) : (s.buy w).1 = (a.buy w).1 := by
  unfold Slots.buy Arsenal.buy
  rw [embeds.rep]
  cases (List.finRange btArsenalSize).find? fun i => a.rep i = some w ∨ a.rep i = none <;> rfl

/-- A purchase goes where the arsenal's does, and counts like it while there is room. -/
theorem Embeds.buy (embeds : s.Embeds a) (w : WeaponToken)
    (room : ∀ i, s.rep i = some w → s.quantity i ≠ 65535) :
    (s.buy w).1 = (a.buy w).1 ∧ (s.buy w).2.Embeds (a.buy w).2 := by
  unfold Slots.buy Arsenal.buy
  rw [embeds.rep]
  cases found : (List.finRange btArsenalSize).find? fun i => a.rep i = some w ∨ a.rep i = none with
  | none => exact ⟨rfl, embeds⟩
  | some i =>
    refine ⟨rfl, ?_⟩
    have slot : a.rep i = some w ∨ a.rep i = none := by simpa using List.find?_some found
    dsimp only
    rw [← embeds.rep]
    have named : some w = none ↔ a.quantities i + 1 = 0 :=
      iff_of_false (Option.some_ne_none w) (Nat.succ_ne_zero _)
    refine embeds.put i named ?_
    have below : s.quantity i ≠ 65535 := by
      rcases slot with holds | empty
      · exact room i (by rw [embeds.rep]; exact holds)
      · rw [(embeds.quantity_eq_zero i).mpr ((a.filled i).mp empty)]
        decide
    have small := (s.quantity i).toNat_lt
    have short : (s.quantity i).toNat ≠ 65535 := fun same => below (UInt16.toNat_inj.mp same)
    rw [UInt16.toNat_add, ← embeds.quantity i]
    exact Nat.mod_eq_of_lt (by simp; omega)

theorem Embeds.useSlot (embeds : s.Embeds a) (index : Nat) :
    (s.useSlot index).Embeds (a.useSlot index) := by
  unfold Slots.useSlot Arsenal.useSlot
  split
  swap
  · exact embeds
  next inside =>
  dsimp only
  have empty := embeds.quantity_eq_zero ⟨index, inside⟩
  by_cases none : s.quantity ⟨index, inside⟩ = 0
  · rw [if_pos none, if_pos (empty.mp none)]
    exact embeds
  rw [if_neg none, if_neg fun same => none (empty.mpr same)]
  have stocked : 1 ≤ s.quantity ⟨index, inside⟩ := by
    rw [UInt16.le_iff_toNat_le]
    exact Nat.one_le_iff_ne_zero.mpr fun same => none (UInt16.toNat_inj.mp same)
  have left : (s.quantity ⟨index, inside⟩ - 1).toNat = a.quantities ⟨index, inside⟩ - 1 := by
    rw [UInt16.toNat_sub_of_le _ _ stocked, embeds.quantity]
    rfl
  have held : ∃ w, a.rep ⟨index, inside⟩ = some w := by
    refine Option.ne_none_iff_exists'.mp fun nothing => none ?_
    exact empty.mpr ((a.filled _).mp nothing)
  obtain ⟨w, held⟩ := held
  split
  · next last =>
    have gone : a.quantities ⟨index, inside⟩ - 1 = 0 := by
      rw [← left, last]
      rfl
    rw [gone, held]
    exact embeds.put _ (iff_of_true rfl rfl) (by rw [left, gone])
  · next more =>
    have rest : a.quantities ⟨index, inside⟩ - 1 ≠ 0 := by
      rw [← left]
      exact fun same => more (UInt16.toNat_inj.mp same)
    have kept : s.rep = Function.update s.rep ⟨index, inside⟩ (some w) := by
      rw [← held, ← embeds.rep, Function.update_eq_self]
    rw [kept, held]
    exact embeds.put _ (iff_of_false nofun rest) left

theorem Embeds.sell (embeds : s.Embeds a) (w : WeaponToken) :
    (s.sell w).1 = (a.sell w).1 ∧ (s.sell w).2.Embeds (a.sell w).2 := by
  have same : (fun i => decide (s.rep i = some w ∧ 0 < s.quantity i)) =
      fun i => decide (a.rep i = some w ∧ 0 < a.quantities i) := by
    funext i
    rw [embeds.rep, ← embeds.quantity i]
    rfl
  unfold Slots.sell Arsenal.sell
  rw [same]
  cases (List.finRange btArsenalSize).find? fun i => a.rep i = some w ∧ 0 < a.quantities i with
  | none => exact ⟨rfl, embeds⟩
  | some i => exact ⟨rfl, embeds.useSlot i⟩

theorem Embeds.total (embeds : s.Embeds a) (w : WeaponToken) :
    (s.total w : Int) = a.worth fun t => if t = w then 1 else 0 := by
  unfold Slots.total Arsenal.worth Arsenal.slotWorth
  rw [embeds.rep]
  push_cast
  refine Finset.sum_congr rfl fun i _ => ?_
  rw [embeds.quantity]
  cases a.rep i with
  | none => simp
  | some t => by_cases same : t = w <;> simp [same]

end Slots

/-! ## Stacking -/

namespace Arsenal

variable {a : Arsenal} {w : WeaponToken}

/-- No weapon is in two slots. -/
def Stacked (a : Arsenal) : Prop := ∀ i j w, a.rep i = some w → a.rep j = some w → i = j

/-- No empty slot comes before one that holds the weapon. -/
def Reaches (a : Arsenal) (w : WeaponToken) : Prop :=
  ∀ i j, a.rep i = none → a.rep j = some w → j < i

theorem rep_put (a : Arsenal) (i : Fin btArsenalSize) (w : WeaponToken) (n : Nat)
    (j : Fin btArsenalSize) (t : WeaponToken) (here : (a.put i (some w) n).rep j = some t) :
    (j = i ∧ t = w) ∨ (j ≠ i ∧ a.rep j = some t) := by
  rcases eq_or_ne j i with rfl | apart
  · cases n with
    | zero =>
      rw [show (a.put j (some w) 0).rep j = none from Function.update_self ..] at here
      cases here
    | succ n =>
      rw [show (a.put j (some w) (n + 1)).rep j = some w from Function.update_self ..] at here
      cases here
      exact .inl ⟨rfl, rfl⟩
  · refine .inr ⟨apart, ?_⟩
    cases n with
    | zero => exact (Function.update_of_ne apart _ _).symm.trans here
    | succ n => exact (Function.update_of_ne apart _ _).symm.trans here

/-- A count that goes down, or a purchase that goes to the slot which holds the weapon,
puts no weapon into a second slot. -/
theorem Stacked.put (stacked : a.Stacked) {i : Fin btArsenalSize} {n : Nat}
    (alone : ∀ j, a.rep j = some w → j = i) : (a.put i (some w) n).Stacked := by
  intro j k t first second
  rcases rep_put a i w n j t first with ⟨rfl, rfl⟩ | ⟨apart, before⟩
  · rcases rep_put a j t n k t second with ⟨rfl, -⟩ | ⟨-, before⟩
    · rfl
    · exact (alone k before).symm
  · rcases rep_put a i w n k t second with ⟨rfl, rfl⟩ | ⟨-, before'⟩
    · exact alone j before
    · exact stacked j k t before before'

/-- A purchase goes into the first slot that fits, or is refused because none does. -/
theorem buy_first (a : Arsenal) (w : WeaponToken) :
    (a.buy w = (false, a) ∧ ∀ i, ¬(a.rep i = some w ∨ a.rep i = none)) ∨
      ∃ i, (a.rep i = some w ∨ a.rep i = none) ∧
        (∀ j, j < i → ¬(a.rep j = some w ∨ a.rep j = none)) ∧
        a.buy w = (true, a.put i (some w) (a.quantities i + 1)) := by
  unfold buy
  cases found : (List.finRange btArsenalSize).find? fun i => a.rep i = some w ∨ a.rep i = none with
  | none =>
    refine .inl ⟨rfl, fun i fits => ?_⟩
    exact List.find?_eq_none.mp found i (List.mem_finRange i) (decide_eq_true fits)
  | some i =>
    obtain ⟨fits, first⟩ := find_finRange found
    refine .inr ⟨i, of_decide_eq_true fits, fun j lower => ?_, rfl⟩
    exact of_decide_eq_false (first j lower)

theorem Stacked.buy (stacked : a.Stacked) (reaches : a.Reaches w) : (a.buy w).2.Stacked := by
  rcases a.buy_first w with ⟨refused, -⟩ | ⟨i, fits, first, bought⟩
  · rw [refused]
    exact stacked
  · rw [bought]
    change (a.put i (some w) (a.quantities i + 1)).Stacked
    refine stacked.put fun j holds => ?_
    rcases fits with here | empty
    · exact stacked j i w holds here
    · exact absurd (.inl holds) (first j (reaches i j empty holds))

theorem Stacked.useSlot (stacked : a.Stacked) (index : Nat) : (a.useSlot index).Stacked := by
  unfold Arsenal.useSlot
  split
  swap
  · exact stacked
  next inside =>
  split
  · exact stacked
  next stocked =>
  cases held : a.rep ⟨index, inside⟩ with
  | none => exact absurd ((a.filled _).mp held) stocked
  | some w => exact stacked.put fun j holds => stacked j _ w holds held

theorem Stacked.sell (stacked : a.Stacked) (w : WeaponToken) : (a.sell w).2.Stacked := by
  unfold Arsenal.sell
  split
  · exact stacked.useSlot _
  · exact stacked

/-- A weapon that is held is never refused, and one that is refused faces ten others. -/
theorem Stacked.refused (stacked : a.Stacked) (refused : (a.buy w).1 = false) :
    ∃ kinds : Fin btArsenalSize → WeaponToken, Function.Injective kinds ∧
      ∀ i, kinds i ≠ w ∧ a.rep i = some (kinds i) := by
  rcases a.buy_first w with ⟨-, full⟩ | ⟨i, -, -, bought⟩
  · have taken (i : Fin btArsenalSize) : ∃ t, a.rep i = some t :=
      Option.ne_none_iff_exists'.mp fun empty => full i (.inr empty)
    choose kinds held using taken
    refine ⟨kinds, fun i j same => stacked i j _ (held i) ?_, fun i => ⟨?_, held i⟩⟩
    · rw [same]
      exact held j
    · rintro rfl
      exact full i (.inl (held i))
  · rw [bought] at refused
    cases refused

theorem worth_useSlot (a : Arsenal) {index : Nat} {w : WeaponToken} {n : Nat}
    (inside : index < btArsenalSize) (held : a.rep ⟨index, inside⟩ = some w)
    (stocked : a.quantities ⟨index, inside⟩ = n + 1) (price : WeaponToken → Int) :
    (a.useSlot index).worth price + price w = a.worth price := by
  unfold Arsenal.useSlot
  rw [dif_pos inside, if_neg (by rw [stocked]; exact Nat.succ_ne_zero n), held, stocked]
  have change := a.worth_put price ⟨index, inside⟩ (some w) n
  rw [slotWorth_put, slotWorth_of_rep (.inl held), stocked] at change
  push_cast at change
  change (a.put ⟨index, inside⟩ (some w) n).worth price + price w = a.worth price
  linarith

end Arsenal

/-! ## A history of calls -/

namespace Slots

variable {s s' : Slots} {a : Arsenal} {w : WeaponToken}

inductive Call where
  | buy (w : WeaponToken)
  | sell (w : WeaponToken)
  | useSlot (index : Nat)

/-- What a call takes from the slots: a sale one of its weapon, a use one of its slot's. -/
def taken (s : Slots) : Call → Option WeaponToken
  | .buy _ => none
  | .sell w => if (s.sell w).1 then some w else none
  | .useSlot index =>
    if inside : index < btArsenalSize then
      if s.quantity ⟨index, inside⟩ = 0 then none else s.rep ⟨index, inside⟩
    else none

end Slots

/-- The slots, and how much of each weapon was bought, sold and used. -/
structure Account where
  slots : Slots
  bought : WeaponToken → Nat
  sold : WeaponToken → Nat
  used : WeaponToken → Nat

namespace Account

def new : Account := ⟨.new, fun _ => 0, fun _ => 0, fun _ => 0⟩

/-- One more of the weapon, if any. -/
def count (f : WeaponToken → Nat) (t : Option WeaponToken) (w : WeaponToken) : Nat :=
  f w + if t = some w then 1 else 0

def step (k : Account) : Slots.Call → Account
  | .buy w =>
    { k with
      slots := (k.slots.buy w).2
      bought := count k.bought (if (k.slots.buy w).1 then some w else none) }
  | .sell w =>
    { k with slots := (k.slots.sell w).2, sold := count k.sold (k.slots.taken (.sell w)) }
  | .useSlot index =>
    { k with
      slots := k.slots.useSlot index, used := count k.used (k.slots.taken (.useSlot index)) }

/-- A purchase finds no empty slot before one that holds the weapon, and there fewer than
the 16 bits can count. -/
def Stackable (k : Account) : Slots.Call → Prop
  | .buy w =>
    (∀ i j, k.slots.rep i = none → k.slots.rep j = some w → j < i) ∧
      ∀ i, k.slots.rep i = some w → k.slots.quantity i ≠ 65535
  | _ => True

/-- A slot names a weapon exactly when its count is positive, no weapon is in two slots, one
that is held can be bought again, one that is refused faces ten others, and of each weapon
there is what was bought and neither sold nor used. -/
structure Sound (k : Account) : Prop where
  named : ∀ i, k.slots.rep i = none ↔ k.slots.quantity i = 0
  once : ∀ i j w, k.slots.rep i = some w → k.slots.rep j = some w → i = j
  again : ∀ w, k.slots.Holds w → (k.slots.buy w).1 = true
  full : ∀ w, (k.slots.buy w).1 = false →
    ∃ kinds : Fin btArsenalSize → WeaponToken, Function.Injective kinds ∧
      ∀ i, kinds i ≠ w ∧ k.slots.rep i = some (kinds i)
  books : ∀ w, k.bought w = k.slots.total w + k.sold w + k.used w

variable {k : Account} {a : Arsenal}

/-- The slots of an arsenal that stacks, with balanced books. -/
theorem Sound.of_embeds (embeds : k.slots.Embeds a) (stacked : a.Stacked)
    (books : ∀ w, (k.bought w : Int) =
      (a.worth fun t => if t = w then 1 else 0) + k.sold w + k.used w) : k.Sound := by
  refine ⟨fun i => ?_, fun i j w => ?_, fun w holds => ?_, fun w refused => ?_, fun w => ?_⟩
  · rw [embeds.rep, embeds.quantity_eq_zero]
    exact a.filled i
  · rw [embeds.rep]
    exact stacked i j w
  · obtain ⟨i, held⟩ := holds
    rw [embeds.rep] at held
    rw [embeds.buy_fst]
    rcases a.buy_first w with ⟨-, full⟩ | ⟨_, -, -, bought⟩
    · exact absurd (.inl held) (full i)
    · rw [bought]
  · rw [embeds.buy_fst] at refused
    rw [embeds.rep]
    exact stacked.refused refused
  · have balanced := books w
    rw [← embeds.total] at balanced
    exact_mod_cast balanced

theorem Sound.embeds (sound : k.Sound) :
    ∃ a : Arsenal, k.slots.Embeds a ∧ a.Stacked ∧ ∀ w, (k.bought w : Int) =
      (a.worth fun t => if t = w then 1 else 0) + k.sold w + k.used w := by
  let a : Arsenal := {
    rep := k.slots.rep
    quantities := fun i => (k.slots.quantity i).toNat
    filled := fun i => (sound.named i).trans UInt16.toNat_inj.symm }
  have embeds : k.slots.Embeds a := ⟨rfl, fun _ => rfl⟩
  refine ⟨a, embeds, sound.once, fun w => ?_⟩
  rw [← embeds.total]
  exact_mod_cast sound.books w

theorem count_none (f : WeaponToken → Nat) (w : WeaponToken) : count f none w = f w := by
  unfold count
  rw [if_neg nofun, Nat.add_zero]

theorem count_some (f : WeaponToken → Nat) (t w : WeaponToken) :
    (count f (some t) w : Int) = f w + if t = w then 1 else 0 := by
  unfold count
  by_cases same : t = w <;> simp [same]

/-- A call that can stack keeps the account sound. -/
theorem Sound.step (sound : k.Sound) {c : Slots.Call} (stackable : k.Stackable c) :
    (k.step c).Sound := by
  obtain ⟨a, embeds, stacked, books⟩ := sound.embeds
  cases c with
  | buy w =>
    obtain ⟨reaches, room⟩ := stackable
    rw [embeds.rep] at reaches
    obtain ⟨same, after⟩ := embeds.buy w room
    refine .of_embeds after (stacked.buy reaches) fun t => ?_
    change (count k.bought (if (k.slots.buy w).1 then some w else none) t : Int) = _
    rw [same]
    rcases bought : a.buy w with ⟨_ | _, a'⟩
    · have kept : a' = a := by
        rcases a.buy_first w with ⟨refused, -⟩ | ⟨_, -, -, taken⟩
        · exact (Prod.mk.inj (bought.symm.trans refused)).2
        · cases (Prod.mk.inj (bought.symm.trans taken)).1
      rw [kept, if_neg Bool.false_ne_true, count_none]
      exact books t
    · rw [if_pos rfl, count_some, Arsenal.worth_buy bought, books t]
      change _ = _ + (k.sold t : Int) + k.used t
      ring
  | sell w =>
    obtain ⟨same, after⟩ := embeds.sell w
    refine .of_embeds after (stacked.sell w) fun t => ?_
    change (k.bought t : Int) = _ + (count k.sold (if (k.slots.sell w).1 then some w else none) t :
      Int) + k.used t
    rw [same]
    rcases sold : a.sell w with ⟨_ | _, a'⟩
    · have kept : a' = a := by
        rcases a.sell_cases w with refused | ⟨_, -, -, taken⟩
        · exact (Prod.mk.inj (sold.symm.trans refused)).2
        · cases (Prod.mk.inj (sold.symm.trans taken)).1
      rw [kept, if_neg Bool.false_ne_true, count_none]
      exact books t
    · rw [if_pos rfl, count_some, books t, ← Arsenal.worth_sell sold]
      ring
  | useSlot index =>
    refine .of_embeds (embeds.useSlot index) (stacked.useSlot index) fun t => ?_
    change (k.bought t : Int) = _ + k.sold t + count k.used (k.slots.taken (.useSlot index)) t
    unfold Slots.taken
    dsimp only
    split
    · next inside =>
      have empty := embeds.quantity_eq_zero ⟨index, inside⟩
      split
      · next none =>
        have idle : a.useSlot index = a := by
          unfold Arsenal.useSlot
          rw [dif_pos inside, if_pos (empty.mp none)]
        rw [count_none, idle]
        exact books t
      · next stocked =>
        obtain ⟨n, more⟩ := Nat.exists_eq_succ_of_ne_zero fun same => stocked (empty.mpr same)
        cases held : a.rep ⟨index, inside⟩ with
        | none => exact absurd (empty.mpr ((a.filled _).mp held)) stocked
        | some w =>
          rw [embeds.rep, held, count_some, books t, ← a.worth_useSlot inside held more]
          ring
    · next outside =>
      have idle : a.useSlot index = a := dif_neg outside
      rw [count_none, idle]
      exact books t

/-- A purchase that leaves the account sound has found its weapon's slot, with room in it. -/
theorem stackable_of_sound {c : Slots.Call} (after : (k.step c).Sound) : k.Stackable c := by
  cases c with
  | buy w =>
    -- the slot that the purchase goes to is the one that holds the weapon
    have single {i j : Fin btArsenalSize} (fits : k.slots.rep i = some w ∨ k.slots.rep i = none)
        (held : k.slots.rep j = some w) : j ≤ i ∧ (k.slots.buy w).2 =
          ⟨Function.update k.slots.rep j (some w),
            Function.update k.slots.quantity j (k.slots.quantity j + 1)⟩ := by
      obtain ⟨f, le, -, bought⟩ := Slots.buy_first fits
      have rep : (k.step (.buy w)).slots.rep = Function.update k.slots.rep f (some w) :=
        congrArg Slots.rep bought
      have stored : (k.step (.buy w)).slots.rep f = some w := by
        rw [rep]
        exact Function.update_self ..
      rcases eq_or_ne j f with rfl | apart
      · exact ⟨le, bought⟩
      · have kept : (k.step (.buy w)).slots.rep j = some w := by
          rw [rep]
          exact (Function.update_of_ne apart _ _).trans held
        exact absurd (after.once j f w kept stored) apart
    refine ⟨fun i j empty held => ?_, fun i held brim => ?_⟩
    · obtain ⟨le, -⟩ := single (.inr empty) held
      refine lt_of_le_of_ne le ?_
      rintro rfl
      rw [empty] at held
      cases held
    · obtain ⟨-, bought⟩ := single (.inl held) held
      have rep : (k.step (.buy w)).slots.rep i = some w := by
        change (k.slots.buy w).2.rep i = some w
        rw [bought]
        exact Function.update_self ..
      have spent : (k.step (.buy w)).slots.quantity i = 0 := by
        change (k.slots.buy w).2.quantity i = 0
        rw [bought]
        dsimp only
        rw [Function.update_self, brim]
        rfl
      rw [(after.named i).mpr spent] at rep
      cases rep
  | sell w => trivial
  | useSlot index => trivial

theorem sound_new : new.Sound := by
  refine .of_embeds Slots.embeds_new (fun i j w held => by cases held) fun w => ?_
  unfold Arsenal.worth Arsenal.slotWorth
  rw [Finset.sum_eq_zero fun i _ => zero_mul _]
  rfl

/-- Over every history of calls, the account is sound all along exactly if every purchase
could stack. -/
theorem sound_iff (calls : List Slots.Call) :
    (∀ before, before <+: calls → (before.foldl step new).Sound) ↔
      ∀ before c, before ++ [c] <+: calls → (before.foldl step new).Stackable c :=
  Loop.foldl_prefixes_iff (fun _ _ _ sound => ⟨stackable_of_sound, sound.step⟩) sound_new

/-- The second Blind opens a slot of its own, before the one that holds the first. -/
theorem hole_splits_stack :
    let k := [Slots.Call.buy .riseUp, .buy .blind, .useSlot 0, .buy .blind].foldl step new
    k.slots.rep 0 = some .blind ∧ k.slots.rep 1 = some .blind := by
  decide

end Account

end BattleTris
