import Mathlib

/-!
Machine integers over `Int` and `Nat`: the casts of a fixed-width language, the
ranges on which they lose nothing, and little-endian bytes.
-/

namespace Machine

/-! ## Casts -/

def asI16 (v : Int) : Int := v.bmod (2 ^ 16)

def asI32 (v : Int) : Int := v.bmod (2 ^ 32)

def asI64 (v : Int) : Int := v.bmod (2 ^ 64)

def asU8 (v : Int) : Nat := (v % 2 ^ 8).toNat

def asU32 (v : Int) : Nat := (v % 2 ^ 32).toNat

def asU64 (v : Int) : Nat := (v % 2 ^ 64).toNat

/-- `f64 as i64`: truncation towards zero, saturating. -/
def f64AsI64 (v : Float) : Int := v.toModel.toInt64.toInt

def FitsI16 (v : Int) : Prop := -2 ^ 15 ≤ v ∧ v < 2 ^ 15

def FitsI32 (v : Int) : Prop := -2 ^ 31 ≤ v ∧ v < 2 ^ 31

def FitsI64 (v : Int) : Prop := -2 ^ 63 ≤ v ∧ v < 2 ^ 63

theorem asI16_of_fits {v : Int} (fits : FitsI16 v) : asI16 v = v :=
  Int.bmod_eq_of_le (by norm_num; exact fits.1) (by norm_num; exact fits.2)

theorem asI32_of_fits {v : Int} (fits : FitsI32 v) : asI32 v = v :=
  Int.bmod_eq_of_le (by norm_num; exact fits.1) (by norm_num; exact fits.2)

theorem asI64_of_fits {v : Int} (fits : FitsI64 v) : asI64 v = v :=
  Int.bmod_eq_of_le (by norm_num; exact fits.1) (by norm_num; exact fits.2)

theorem asU8_of_lt {n : Nat} (small : n < 2 ^ 8) : asU8 n = n := by
  unfold asU8
  omega

theorem asU32_of_lt {n : Nat} (small : n < 2 ^ 32) : asU32 n = n := by
  unfold asU32
  omega

/-- An unsigned 64-bit value survives the trip through a signed one. -/
theorem asU64_asI64 {n : Nat} (small : n < 2 ^ 64) : asU64 (asI64 n) = n := by
  unfold asU64 asI64
  rw [show (2 : Int) ^ 64 = ((2 ^ 64 : Nat) : Int) by norm_num, Int.bmod_emod]
  omega

theorem fitsI64_asI64 (v : Int) : FitsI64 (asI64 v) := by
  have low := Int.le_bmod (x := v) (m := 2 ^ 64) (by norm_num)
  have high := Int.bmod_lt (x := v) (m := 2 ^ 64) (by norm_num)
  norm_num at low high
  exact ⟨low, high⟩

theorem FitsI32.fitsI64 {v : Int} (fits : FitsI32 v) : FitsI64 v := by
  unfold FitsI32 FitsI64 at *
  omega

/-! ## Little-endian bytes -/

/-- The `k` low bytes of `n`, lowest first. -/
def leBytes : Nat → Nat → List UInt8
  | 0, _ => []
  | k + 1, n => UInt8.ofNat n :: leBytes k (n / 256)

def ofLeBytes : List UInt8 → Nat
  | [] => 0
  | b :: bs => b.toNat + 256 * ofLeBytes bs

@[simp] theorem length_leBytes (k n : Nat) : (leBytes k n).length = k := by
  induction k generalizing n with
  | zero => rfl
  | succ k ih => simp [leBytes, ih]

theorem ofLeBytes_leBytes (k n : Nat) : ofLeBytes (leBytes k n) = n % 256 ^ k := by
  induction k generalizing n with
  | zero => simp [leBytes, ofLeBytes, Nat.mod_one]
  | succ k ih =>
    have digit : (UInt8.ofNat n).toNat = n % 256 := UInt8.toNat_ofNat'
    have split : n % 256 ^ (k + 1) = n % 256 + 256 * (n / 256 % 256 ^ k) := by
      rw [pow_succ', Nat.mod_mul]
    rw [leBytes, ofLeBytes, ih, digit, split]

/-- `i64::to_le_bytes`. -/
def i64Bytes (v : Int) : List UInt8 := leBytes 8 (asU64 v)

/-- `i64::from_le_bytes`. -/
def i64OfBytes (bs : List UInt8) : Int := asI64 (ofLeBytes bs)

@[simp] theorem length_i64Bytes (v : Int) : (i64Bytes v).length = 8 :=
  length_leBytes 8 _

theorem i64OfBytes_i64Bytes {v : Int} (fits : FitsI64 v) : i64OfBytes (i64Bytes v) = v := by
  unfold i64OfBytes i64Bytes
  rw [ofLeBytes_leBytes]
  have low : asU64 v % 256 ^ 8 = asU64 v := by
    unfold asU64
    omega
  rw [low]
  have lift : ((asU64 v : Nat) : Int) = v % ((2 ^ 64 : Nat) : Int) := by
    unfold asU64
    omega
  rw [lift, asI64, Int.emod_bmod]
  exact asI64_of_fits fits

end Machine
