import BattleTris.Match.Gears

/-!
What a game keeps beside its active weapons agrees with them.
-/

namespace BattleTris

open Loop

namespace Game

/-! ## Durations -/

/-- A geared game whose weapons are active as long as they have lines left. -/
structure Timed (g : Game) : Prop where
  geared : g.Geared
  nonneg : ∀ t, 0 ≤ g.remaining t
  left : ∀ t, 0 < (weaponTable t).duration → g.weapons.isActive t = true → 0 < g.remaining t

theorem duration_nonneg (t : WeaponToken) : 0 ≤ (weaponTable t).duration := by
  cases t <;> decide

namespace Timed

variable {g h : Game}

theorem of_gears (timed : g.Timed) (same : h.gears = g.gears) : h.Timed := by
  refine ⟨timed.geared.of_gears same, ?_, ?_⟩
  · rw [remaining_of_gears same]
    exact timed.nonneg
  · rw [weapons_of_gears same, remaining_of_gears same]
    exact timed.left

/-- A weapon that is off may have its duration set to zero. -/
theorem applyWeaponOff {t : WeaponToken} (geared : (g.applyWeaponOff t).Geared)
    (nonneg : ∀ u, 0 ≤ g.remaining u)
    (left : ∀ u, u ≠ t → 0 < (weaponTable u).duration → g.weapons.isActive u = true →
      0 < g.remaining u) : (g.applyWeaponOff t).Timed := by
  obtain ⟨-, weapons, -, remaining, -, -⟩ := weaponUnframe_kept (g.switchOff t) t
  have weapons' : (g.applyWeaponOff t).weapons = g.weapons.set t false := weapons
  have remaining' : (g.applyWeaponOff t).remaining = g.remaining := remaining
  refine ⟨geared, ?_, fun u lasts active => ?_⟩
  · rw [remaining']
    exact nonneg
  · rw [weapons', ActiveFlags.isActive_set] at active
    rcases eq_or_ne u t with rfl | apart
    · rw [if_pos rfl] at active
      cases active
    · rw [if_neg apart] at active
      rw [remaining']
      exact left u apart lasts active

theorem tickDuration {g : Game} (lines : Int) (t : WeaponToken) (timed : g.Timed) :
    (tickDuration lines g t).Timed := by
  have geared := timed.geared.tickDuration lines t
  have others (n : Int) (u : WeaponToken) (apart : u ≠ t) :
      (g.setRemaining t n).remaining u = g.remaining u := Function.update_of_ne apart ..
  have own (n : Int) : (g.setRemaining t n).remaining t = n := Function.update_self ..
  have nonneg {n : Int} (low : 0 ≤ n) (u : WeaponToken) : 0 ≤ (g.setRemaining t n).remaining u := by
    rcases eq_or_ne u t with rfl | apart
    · rwa [own n]
    · rw [others n u apart]
      exact timed.nonneg u
  have left (n : Int) (u : WeaponToken) (apart : u ≠ t) (lasts : 0 < (weaponTable u).duration)
      (active : (g.setRemaining t n).weapons.isActive u = true) :
      0 < (g.setRemaining t n).remaining u := by
    rw [others n u apart]
    exact timed.left u lasts active
  unfold Game.tickDuration at *
  split at geared
  · next spent =>
    rw [if_pos spent]
    exact timed
  next counting =>
  rw [if_neg counting]
  dsimp only at *
  generalize counted : max (g.remaining t - lines) 0 = n at *
  have low : 0 ≤ n := by omega
  split at geared
  · next spent =>
    rw [if_pos spent]
    exact applyWeaponOff geared (nonneg low) (left n)
  · next more =>
    rw [if_neg more]
    refine ⟨geared, nonneg low, fun u lasts active => ?_⟩
    rcases eq_or_ne u t with rfl | apart
    · rw [own n]
      omega
    · exact left n u apart lasts active

/-- The flag and the duration of a weapon are raised together. -/
theorem switchOn_timed (timed : g.Timed) (t : WeaponToken) :
    (∀ u, 0 ≤ (g.switchOn t).2.remaining u) ∧
      ∀ u, 0 < (weaponTable u).duration → (g.switchOn t).2.weapons.isActive u = true →
        0 < (g.switchOn t).2.remaining u := by
  have raised (u : WeaponToken) : (g.switchOn t).2.remaining u =
      if u = t then g.remaining t + (weaponTable t).duration else g.remaining u := by
    change Function.update g.remaining t _ u = _
    rw [Function.update_apply]
  have flags : (g.switchOn t).2.weapons = g.weapons.set t true := rfl
  refine ⟨fun u => ?_, fun u lasts active => ?_⟩
  · rw [raised u]
    have before := timed.nonneg u
    have more := duration_nonneg t
    split
    · next same =>
      subst same
      omega
    · exact before
  · rw [raised u]
    rw [flags, ActiveFlags.isActive_set] at active
    split
    · next same =>
      subst same
      have before := timed.nonneg u
      omega
    · next apart =>
      rw [if_neg apart] at active
      exact timed.left u lasts active

theorem applyWeaponOn (timed : g.Timed) (t : WeaponToken) : (g.applyWeaponOn t).Timed := by
  have geared := timed.geared.applyWeaponOn t
  obtain ⟨nonneg, left⟩ := timed.switchOn_timed t
  rcases eq_or_ne t .bottle with rfl | other
  · rw [applyWeaponOn_bottle]
    have walled : (g.switchOn .bottle).2.Timed := ⟨timed.geared.switchOn_bottle, nonneg, left⟩
    exact creditWeaponClear_walk of_gears walled _ fun _ _ same =>
      tickDurations_walk tickDuration (walled.of_gears same) _
  rw [applyWeaponOn_other other] at *
  obtain ⟨-, weapons, -, remaining, -, -⟩ := weaponFrame_kept
    ((g.switchOn t).2.streamOn t) t (g.weapons.isActive t)
  refine ⟨geared, ?_, ?_⟩
  · rw [remaining]
    exact nonneg
  · rw [weapons, remaining]
    exact left

theorem forceWeaponOff (timed : g.Timed) (t : WeaponToken) : (g.forceWeaponOff t).Timed := by
  have geared := timed.geared.forceWeaponOff t
  have forced : (g.forceWeaponOff t).weapons.isActive t = false ∧
      ∀ u, u ≠ t → (g.forceWeaponOff t).weapons.isActive u = g.weapons.isActive u := by
    unfold Game.forceWeaponOff
    split
    · obtain ⟨-, weapons, -, -, -, -⟩ := weaponUnframe_kept (g.switchOff t) t
      have weapons' : ((g.applyWeaponOff t).setRemaining t 0).weapons = g.weapons.set t false :=
        weapons
      rw [weapons']
      refine ⟨by rw [ActiveFlags.isActive_set, if_pos rfl], fun u apart => ?_⟩
      rw [ActiveFlags.isActive_set, if_neg apart]
    · next inactive =>
      have off : g.weapons.isActive t = false := by simpa using inactive
      exact ⟨off, fun _ _ => rfl⟩
  have remaining (u : WeaponToken) :
      (g.forceWeaponOff t).remaining u = if u = t then 0 else g.remaining u := by
    unfold Game.forceWeaponOff
    split
    · obtain ⟨-, -, -, remaining, -, -⟩ := weaponUnframe_kept (g.switchOff t) t
      change Function.update (g.applyWeaponOff t).remaining t 0 u = _
      rw [show (g.applyWeaponOff t).remaining = g.remaining from remaining,
        Function.update_apply]
    · exact Function.update_apply ..
  refine ⟨geared, fun u => ?_, fun u lasts active => ?_⟩
  · rw [remaining u]
    split
    · exact le_rfl
    · exact timed.nonneg u
  · rw [remaining u]
    rcases eq_or_ne u t with rfl | apart
    · rw [forced.1] at active
      cases active
    · rw [forced.2 u apart] at active
      rw [if_neg apart]
      exact timed.left u lasts active

end Timed

theorem Timed.switchOn_bottle {g : Game} (timed : g.Timed) : (g.switchOn .bottle).2.Timed :=
  ⟨timed.geared.switchOn_bottle, (timed.switchOn_timed .bottle).1, (timed.switchOn_timed .bottle).2⟩

theorem gearSteps_timed : GearSteps Timed Unguarded where
  respects := Timed.of_gears
  guarded _ _ := trivial
  queues ts timed := ⟨gearSteps_geared.queues ts timed.geared, timed.nonneg, timed.left⟩
  counts _ _ timed := tickDurations_walk Timed.tickDuration timed _
  arms _ timed := timed.applyWeaponOn _
  walls timed := timed.switchOn_bottle
  disarms _ timed := timed.forceWeaponOff _
  draws timed := ⟨gearSteps_geared.draws timed.geared, timed.nonneg, timed.left⟩
  raises timed := ⟨timed.geared.lawyersRow, timed.nonneg, timed.left⟩

theorem timed_blank (seed : Nat) : (blank seed).Timed := by
  refine ⟨geared_blank seed, fun _ => le_rfl, fun t _ active => ?_⟩
  change ActiveFlags.new.isActive t = true at active
  rw [ActiveFlags.isActive_new] at active
  cases active

theorem timed_new (seed : Nat) : (new seed).Timed := gearSteps_timed.spawn (timed_blank seed)

/-! ## Moves -/

/-- An action, or an immediate board swap with another game, from either end. -/
inductive Move where
  | act (a : Action)
  | swapBoardWith (other : Game)
  | swapBoardOf (other : Game)

def move (g : Game) : Move → Game
  | .act a => g.act a
  | .swapBoardWith other => (g.swapBoardWith other).1
  | .swapBoardOf other => (other.swapBoardWith g).2

theorem Timed.move {g : Game} (timed : g.Timed) (m : Move) : (g.move m).Timed := by
  have stripped := (timed.forceWeaponOff .bottle).forceWeaponOff .upbyside
  have swapped (grid : Grid Cell) : Timed
      { (g.forceWeaponOff .bottle).forceWeaponOff .upbyside with
        board := { ((g.forceWeaponOff .bottle).forceWeaponOff .upbyside).board with
          toGrid := grid } } :=
    stripped.of_gears rfl
  cases m with
  | act a => exact gearSteps_timed.act timed a fun _ _ _ => trivial
  | swapBoardWith other => exact swapped _
  | swapBoardOf other => exact swapped _

/-- After any play, what is derived from the active weapons agrees with them. -/
theorem derived_state (seed : Nat) (moves : List Move) :
    let g := moves.foldl move (new seed)
    let upbyside := g.weapons.isActive .upbyside = true
    let speedy := g.weapons.isActive .speedy = true
    let meadow := g.weapons.isActive .meadow = true
    (∀ t, 0 < (weaponTable t).duration → (g.weapons.isActive t = true ↔ 0 < g.remaining t)) ∧
      g.board.active = g.weapons ∧
      (upbyside ↔ g.defY = btBoardHgt - 4 ∧ g.deltaY = -1 ∧ g.leftX = 1 ∧ g.rightX = -1 ∧
        g.board.upside = true) ∧
      (¬upbyside ↔ g.defY = btDefaultY ∧ g.deltaY = 1 ∧ g.leftX = -1 ∧ g.rightX = 1 ∧
        g.board.upside = false) ∧
      (g.baseDropTime = (if meadow then (if speedy then 512 / 2 else 512) * 2
        else if speedy then 512 / 2 else 512)) ∧
      (g.fastDropTime = if meadow then 10 * 2 else 10) ∧
      g.pieces.broken = g.weapons.isActive .broken := by
  intro g upbyside speedy meadow
  have timed : g.Timed :=
    foldl_invariant (P := Timed) (fun m _ _ timed => timed.move m) (timed_new seed)
  have geared := timed.geared
  have upside := geared.upside
  have defY : g.defY = _ := congrArg (·.2.1) geared.frame
  have deltaY : g.deltaY = _ := congrArg (·.2.2.1) geared.frame
  have leftX : g.leftX = _ := congrArg (·.2.2.2.1) geared.frame
  have rightX : g.rightX = _ := congrArg (·.2.2.2.2) geared.frame
  have base : g.baseDropTime = _ := congrArg Prod.fst geared.clock
  have fast : g.fastDropTime = _ := congrArg Prod.snd geared.clock
  clear_value g
  refine ⟨fun t lasts => ⟨timed.left t lasts, fun left => ?_⟩, geared.active, ?_, ?_, ?_, ?_,
    geared.broken⟩
  · exact geared.lasting t (ne_of_gt left)
  · rw [defY, deltaY, leftX, rightX, upside]
    change g.weapons.isActive .upbyside = true ↔ _
    cases g.weapons.isActive .upbyside <;> decide
  · rw [defY, deltaY, leftX, rightX, upside]
    change ¬g.weapons.isActive .upbyside = true ↔ _
    cases g.weapons.isActive .upbyside <;> decide
  · rw [base]
    simp only [meadow, speedy]
    cases g.weapons.isActive .meadow <;> cases g.weapons.isActive .speedy <;> decide
  · rw [fast]
    simp only [meadow]
    cases g.weapons.isActive .meadow <;> cases g.weapons.isActive .speedy <;> decide

end Game

end BattleTris
