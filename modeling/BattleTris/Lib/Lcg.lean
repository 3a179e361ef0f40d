import Mathlib

/-!
Linear congruential generators modulo a power of two.

With a multiplier of the form `4 t + 1` and an odd increment the generator has the full period;
two steps at a time it goes through the states of one parity.
-/

namespace Lcg

open Function

/-! ## Affine maps -/

section ring

variable {R : Type _} [CommRing R]

def affine (a c z : R) : R := a * z + c

/-- `2 ^ j` steps add an odd multiple of `2 ^ j`, and a multiple of `2 ^ (j + 2)` of the state. -/
theorem iterate_two_pow {a c t s : R} (multiplier : a = 1 + 4 * t) (increment : c = 1 + 2 * s)
    (j : Nat) : ∃ t s : R, ∀ z,
      (affine a c)^[2 ^ j] z = (1 + 2 ^ (j + 2) * t) * z + 2 ^ j * (1 + 2 * s) := by
  induction j with
  | zero =>
    refine ⟨t, s, fun z => ?_⟩
    rw [pow_zero, iterate_one, affine, multiplier, increment]
    ring
  | succ j ih =>
    obtain ⟨t, s, steps⟩ := ih
    refine ⟨t + 2 ^ (j + 1) * t ^ 2, s + 2 ^ j * t * (1 + 2 * s), fun z => ?_⟩
    rw [pow_succ 2 j, mul_two, iterate_add_apply, steps, steps]
    ring

end ring

/-! ## The period -/

section period

variable {k : Nat} {a c t s : ZMod (2 ^ k)}

theorem two_pow_eq_zero : (2 : ZMod (2 ^ k)) ^ k = 0 := by
  have cast := ZMod.natCast_self (2 ^ k)
  push_cast at cast
  exact cast

/-- From every state the first return is after `2 ^ k` steps. -/
theorem minimalPeriod_affine (multiplier : a = 1 + 4 * t) (increment : c = 1 + 2 * s)
    (z : ZMod (2 ^ k)) : minimalPeriod (affine a c) z = 2 ^ k := by
  cases k with
  | zero =>
    have single : affine a c z = z := Subsingleton.elim (α := ZMod 1) _ _
    exact (minimalPeriod_eq_one_iff_isFixedPt.mpr single)
  | succ k =>
    have prime : Fact (Nat.Prime 2) := ⟨Nat.prime_two⟩
    have zero : (2 : ZMod (2 ^ (k + 1))) ^ (k + 1) = 0 := two_pow_eq_zero
    refine minimalPeriod_eq_prime_pow (fun half => ?_) ?_
    · obtain ⟨t, s, steps⟩ := iterate_two_pow multiplier increment k
      have moved : (affine a c)^[2 ^ k] z = z + 2 ^ k := by
        rw [steps]
        linear_combination (2 * t * z + s) * zero
      have none : (2 : ZMod (2 ^ (k + 1))) ^ k = 0 := by
        have same : z + 2 ^ k = z := moved.symm.trans half
        simpa using same
      have cast : ((2 ^ k : Nat) : ZMod (2 ^ (k + 1))) = 0 := by
        push_cast
        exact none
      rw [ZMod.natCast_eq_zero_iff] at cast
      have less : 2 ^ k < 2 ^ (k + 1) := Nat.pow_lt_pow_right one_lt_two (Nat.lt_succ_self k)
      exact absurd (Nat.le_of_dvd (Nat.two_pow_pos k) cast) (not_le.mpr less)
    · obtain ⟨t, s, steps⟩ := iterate_two_pow multiplier increment (k + 1)
      change (affine a c)^[2 ^ (k + 1)] z = z
      rw [steps]
      linear_combination (4 * t * z + 1 + 2 * s) * zero

/-- Every state is reached from every state. -/
theorem affine_reaches (multiplier : a = 1 + 4 * t) (increment : c = 1 + 2 * s)
    (z w : ZMod (2 ^ k)) : ∃ n < 2 ^ k, (affine a c)^[n] z = w := by
  have period := minimalPeriod_affine multiplier increment z
  have apart := iterate_injOn_Iio_minimalPeriod (f := affine a c) (x := z)
  rw [period] at apart
  have finite : NeZero (2 ^ k) := ⟨(Nat.two_pow_pos k).ne'⟩
  have all : Finset.image (fun n => (affine a c)^[n] z) (Finset.range (2 ^ k)) = Finset.univ := by
    refine Finset.eq_univ_of_card _ ?_
    rw [Finset.card_image_of_injOn, Finset.card_range, ZMod.card]
    intro n hn m hm same
    exact apart (Finset.mem_range.mp hn) (Finset.mem_range.mp hm) same
  obtain ⟨n, member, found⟩ := Finset.mem_image.mp (all ▸ Finset.mem_univ w)
  exact ⟨n, Finset.mem_range.mp member, found⟩

end period

/-! ## The generator -/

/-- `x := (a * x + c) mod 2 ^ k`. -/
def next (a c k x : Nat) : Nat := (a * x + c) % 2 ^ k

variable {a c k : Nat}

theorem next_lt (a c k x : Nat) : next a c k x < 2 ^ k := Nat.mod_lt _ (Nat.two_pow_pos k)

theorem cast_next (a c k x : Nat) :
    ((next a c k x : Nat) : ZMod (2 ^ k)) = affine (a : ZMod (2 ^ k)) c x := by
  rw [next, ZMod.natCast_mod, affine]
  push_cast
  rfl

theorem cast_iterate (a c k x n : Nat) :
    (((next a c k)^[n] x : Nat) : ZMod (2 ^ k)) = (affine (a : ZMod (2 ^ k)) c)^[n] x := by
  induction n generalizing x with
  | zero => rfl
  | succ n ih => rw [iterate_succ_apply, iterate_succ_apply, ih, cast_next]

theorem iterate_lt {x : Nat} (small : x < 2 ^ k) (n : Nat) : (next a c k)^[n] x < 2 ^ k := by
  cases n with
  | zero => exact small
  | succ n =>
    rw [iterate_succ_apply']
    exact next_lt a c k _

/-- The full period: every state is reached from every state. -/
theorem reaches (multiplier : a % 4 = 1) (increment : c % 2 = 1) {x y : Nat} (start : x < 2 ^ k)
    (goal : y < 2 ^ k) : ∃ n < 2 ^ k, (next a c k)^[n] x = y := by
  have multiple : (a : ZMod (2 ^ k)) = 1 + 4 * ((a / 4 : Nat) : ZMod (2 ^ k)) := by
    have split : a = 1 + 4 * (a / 4) := by omega
    exact_mod_cast congrArg (Nat.cast (R := ZMod (2 ^ k))) split
  have odd : (c : ZMod (2 ^ k)) = 1 + 2 * ((c / 2 : Nat) : ZMod (2 ^ k)) := by
    have split : c = 1 + 2 * (c / 2) := by omega
    exact_mod_cast congrArg (Nat.cast (R := ZMod (2 ^ k))) split
  obtain ⟨n, less, found⟩ := affine_reaches multiple odd (x : ZMod (2 ^ k)) y
  refine ⟨n, less, ?_⟩
  rw [← cast_iterate, ZMod.natCast_eq_natCast_iff'] at found
  rwa [Nat.mod_eq_of_lt (iterate_lt start n), Nat.mod_eq_of_lt goal] at found

/-- A step changes the parity. -/
theorem next_parity (multiplier : a % 4 = 1) (increment : c % 2 = 1) (k x : Nat) :
    next a c (k + 1) x % 2 = (x + 1) % 2 := by
  have even : 2 ∣ 2 ^ (k + 1) := Dvd.intro_left (2 ^ k) rfl
  rw [next, Nat.mod_mod_of_dvd _ even, Nat.add_mod, Nat.mul_mod]
  have odd : a % 2 = 1 := by omega
  rw [odd, increment]
  omega

theorem iterate_parity (multiplier : a % 4 = 1) (increment : c % 2 = 1) (k x n : Nat) :
    (next a c (k + 1))^[n] x % 2 = (x + n) % 2 := by
  induction n with
  | zero => rfl
  | succ n ih =>
    rw [iterate_succ_apply', next_parity multiplier increment]
    omega

/-- Two steps at a time, every state of the same parity is reached. -/
theorem reaches_twice (multiplier : a % 4 = 1) (increment : c % 2 = 1) {x y : Nat}
    (start : x < 2 ^ (k + 1)) (goal : y < 2 ^ (k + 1)) (same : x % 2 = y % 2) :
    ∃ n < 2 ^ k, ((next a c (k + 1))^[2])^[n] x = y := by
  obtain ⟨n, less, found⟩ := reaches multiplier increment start goal
  have parity := iterate_parity multiplier increment k x n
  rw [found] at parity
  have even : n = 2 * (n / 2) := by omega
  refine ⟨n / 2, by rw [pow_succ] at less; omega, ?_⟩
  rw [← iterate_mul, ← even, found]

end Lcg
