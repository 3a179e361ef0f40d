import BattleTris.Core.Exports

/-!
The bazaar: what a visit does to the funds and the arsenal together.
-/

namespace BattleTris

namespace Arsenal

/-! ## The worth of an arsenal -/

/-- What slot `i` is worth at the given prices. -/
def slotWorth (a : Arsenal) (price : WeaponToken → Int) (i : Fin btArsenalSize) : Int :=
  a.quantities i * ((a.rep i).map price).getD 0

/-- The sum over the slots of quantity times price. -/
def worth (a : Arsenal) (price : WeaponToken → Int) : Int := ∑ i, a.slotWorth price i

/-- Only the slot that is stored into changes its worth. -/
theorem worth_put (a : Arsenal) (price : WeaponToken → Int) (i : Fin btArsenalSize)
    (token : Option WeaponToken) (qty : Nat) :
    (a.put i token qty).worth price - a.worth price =
      (a.put i token qty).slotWorth price i - a.slotWorth price i := by
  have others (j : Fin btArsenalSize) (apart : j ≠ i) :
      (a.put i token qty).slotWorth price j = a.slotWorth price j := by
    unfold slotWorth put
    split <;> simp only [Function.update_of_ne apart]
  unfold worth
  rw [← Finset.sum_sub_distrib]
  refine Finset.sum_eq_single i (fun j _ apart => ?_) (fun out => ?_)
  · rw [others j apart, sub_self]
  · exact absurd (Finset.mem_univ i) out

theorem slotWorth_put (a : Arsenal) (price : WeaponToken → Int) (i : Fin btArsenalSize)
    (w : WeaponToken) (n : Nat) : (a.put i (some w) n).slotWorth price i = n * price w := by
  cases n with
  | zero => simp [slotWorth, put]
  | succ n => simp [slotWorth, put]

/-- An empty slot is worth nothing, whatever it is filled with next. -/
theorem slotWorth_of_rep {a : Arsenal} {i : Fin btArsenalSize} {w : WeaponToken}
    (slot : a.rep i = some w ∨ a.rep i = none) (price : WeaponToken → Int) :
    a.slotWorth price i = a.quantities i * price w := by
  unfold slotWorth
  rcases slot with holds | empty
  · rw [holds]
    rfl
  · have none : a.quantities i = 0 := (a.filled i).mp empty
    rw [none, Nat.cast_zero, zero_mul, zero_mul]

/-- A sale takes one weapon from the first slot that holds it, or is refused. -/
theorem sell_cases (a : Arsenal) (w : WeaponToken) :
    a.sell w = (false, a) ∨ ∃ i, a.rep i = some w ∧ 0 < a.quantities i ∧
      a.sell w = (true, a.put i (some w) (a.quantities i - 1)) := by
  unfold sell
  cases found : (List.finRange btArsenalSize).find? fun i =>
      a.rep i = some w ∧ 0 < a.quantities i with
  | none => exact .inl rfl
  | some i =>
    have slot := List.find?_some found
    simp only [decide_eq_true_eq] at slot
    obtain ⟨holds, stocked⟩ := slot
    refine .inr ⟨i, holds, stocked, ?_⟩
    have used : a.useSlot i = a.put i (some w) (a.quantities i - 1) := by
      unfold useSlot
      rw [dif_pos i.isLt, if_neg (Nat.pos_iff_ne_zero.mp stocked), holds]
    exact congrArg (Prod.mk true) used

theorem worth_buy {a a' : Arsenal} {w : WeaponToken} (bought : a.buy w = (true, a'))
    (price : WeaponToken → Int) : a'.worth price = a.worth price + price w := by
  rcases a.buy_cases w with refused | ⟨i, slot, stacked⟩
  · rw [refused] at bought
    cases bought
  · rw [stacked] at bought
    cases bought
    have change := a.worth_put price i (some w) (a.quantities i + 1)
    rw [slotWorth_put, slotWorth_of_rep slot] at change
    push_cast at change
    linarith

theorem worth_sell {a a' : Arsenal} {w : WeaponToken} (sold : a.sell w = (true, a'))
    (price : WeaponToken → Int) : a'.worth price + price w = a.worth price := by
  rcases a.sell_cases w with refused | ⟨i, holds, stocked, taken⟩
  · rw [refused] at sold
    cases sold
  · rw [taken] at sold
    cases sold
    have change := a.worth_put price i (some w) (a.quantities i - 1)
    rw [slotWorth_put, slotWorth_of_rep (.inl holds)] at change
    push_cast [Nat.cast_sub stocked] at change
    linarith

end Arsenal

namespace Game

/-! ## A visit -/

/-- A call the bazaar takes. -/
inductive Deal where
  | buy (t : WeaponToken)
  | sell (t : WeaponToken)

def deal (g : Game) : Deal → Bool × Game
  | .buy t => g.buyWeapon t
  | .sell t => g.sellWeapon t

/-- The game once a deal has been paid. -/
def dealt (g : Game) (funds : Int) (arsenal : Arsenal) : Game :=
  { g with arsenal := arsenal, score := { g.score with funds := funds } }

/-- A purchase is refused and leaves the game alone, or pays for what it stacks. -/
theorem buyWeapon_cases (g : Game) (t : WeaponToken) :
    g.buyWeapon t = (false, g) ∨ g.inBazaar = true ∧ g.bazaarPrice t ≤ g.score.funds ∧
      ∃ a, g.arsenal.buy t = (true, a) ∧
        g.buyWeapon t = (true, g.dealt (g.score.funds - g.bazaarPrice t) a) := by
  unfold buyWeapon
  split
  · exact .inl rfl
  next inside =>
  dsimp only
  split
  · exact .inl rfl
  next affordable =>
  rcases deal : g.arsenal.buy t with ⟨_ | _, a⟩
  · exact .inl rfl
  · exact .inr ⟨by simpa using inside, not_lt.mp affordable, a, rfl, rfl⟩

/-- A sale is refused and leaves the game alone, or is paid for what it takes. -/
theorem sellWeapon_cases (g : Game) (t : WeaponToken) :
    g.sellWeapon t = (false, g) ∨ ∃ a, g.arsenal.sell t = (true, a) ∧
      g.sellWeapon t = (true, g.dealt (g.score.funds + g.bazaarPrice t) a) := by
  unfold sellWeapon
  split
  · exact .inl rfl
  · dsimp only
    rcases deal : g.arsenal.sell t with ⟨_ | _, a⟩
    · exact .inl rfl
    · exact .inr ⟨a, rfl, rfl⟩

theorem bazaarPrice_nonneg (g : Game) (t : WeaponToken) : 0 ≤ g.bazaarPrice t := by
  have listed : 0 ≤ (weaponTable t).price := by cases t <;> decide
  unfold bazaarPrice
  dsimp only
  split <;> omega

end Game

end BattleTris
