import Mathlib

/-!
The 64-bit floats of the language, read through their model: a sign, a mantissa and
an exponent, rounded to nearest after every operation.
-/

namespace Binary64

open Float.Model (UnpackedFloat Format totalExponent)

open Float.Model.UnpackedFloat

/-! ## Signs -/

/-- No negative number; a zero has its positive sign. -/
def Nonneg : UnpackedFloat → Prop
  | .infinity s => s = .positive
  | .notANumber => True
  | .zero s => s = .positive
  | .finite s _ _ _ => s = .positive

theorem nonneg_roundWithAccuracy (spec : Format) (m : Nat) (e : Int) (acc : Accuracy) :
    Nonneg (roundWithAccuracy spec .positive m e acc) := by
  unfold roundWithAccuracy
  dsimp only
  split <;> rfl

theorem nonneg_ofNat (spec : Format) (n : Nat) : Nonneg (ofNat spec n) := by
  unfold ofNat ofInt UnpackedFloat.normalize
  split
  · next negative =>
    have below : (n : Int) < 0 := Int.compare_eq_lt.mp negative
    omega
  · rfl
  · exact nonneg_roundWithAccuracy _ _ _ _

theorem nonneg_div (spec : Format) {a b : UnpackedFloat} (left : Nonneg a) (right : Nonneg b) :
    Nonneg (div spec a b) := by
  cases a <;> cases b <;> cases left <;> cases right <;>
    first
    | rfl
    | trivial
    | exact nonneg_roundWithAccuracy _ _ _ _

theorem nonneg_mul (spec : Format) {a b : UnpackedFloat} (left : Nonneg a) (right : Nonneg b) :
    Nonneg (mul spec a b) := by
  cases a <;> cases b <;> cases left <;> cases right <;>
    first
    | rfl
    | trivial
    | exact nonneg_roundWithAccuracy _ _ _ _

theorem nonneg_ofScientific (spec : Format) (m : Nat) (e : Int) :
    Nonneg (ofScientific spec m e) := by
  unfold ofScientific
  split
  · rfl
  split
  · rfl
  split
  · rfl
  split
  · exact nonneg_mul spec rfl rfl
  · exact nonneg_div spec rfl rfl

/-! ### Packing -/

theorem unpackSign_packComponents (spec : Format) (s : Sign) (e : BitVec spec.exponentBits)
    (m : BitVec spec.mantissaBitsWithoutImplicit) :
    unpackSign (packComponents spec s e m) = s.toBitVec := by
  ext i hi
  obtain rfl : i = 0 := by omega
  simp [unpackSign, packComponents, BitVec.getLsbD_append, BitVec.getElem_append]

theorem nonneg_unpack (spec : Format) (e : BitVec spec.exponentBits)
    (m : BitVec spec.mantissaBitsWithoutImplicit) :
    Nonneg (unpack spec (packComponents spec .positive e m)) := by
  have sign : Sign.ofBitVec (unpackSign (packComponents spec .positive e m)) = .positive := by
    rw [unpackSign_packComponents]
    rfl
  unfold unpack
  dsimp only
  rw [sign]
  split
  · split
    · rfl
    · trivial
  · split
    · split <;> rfl
    · rfl

/-- A float that is not negative stays so in memory. -/
theorem nonneg_pack (spec : Format) {f : UnpackedFloat} (nonneg : Nonneg f) :
    Nonneg (unpack spec (pack spec f)) := by
  cases f with
  | infinity s =>
    cases nonneg
    exact nonneg_unpack spec _ _
  | notANumber => exact nonneg_unpack spec _ _
  | zero s =>
    cases nonneg
    exact nonneg_unpack spec _ _
  | finite s m e pos =>
    cases nonneg
    unfold pack
    dsimp only
    split
    · exact nonneg_unpack spec _ _
    · split <;> exact nonneg_unpack spec _ _

/-! ### In memory -/

/-- A float of the language that is no negative number. -/
def Positive (f : Float) : Prop := Nonneg f.toModel.unpack

theorem positive_div {a b : Float} (left : Positive a) (right : Positive b) : Positive (a / b) :=
  nonneg_pack _ (nonneg_div _ left right)

theorem positive_mul {a b : Float} (left : Positive a) (right : Positive b) : Positive (a * b) :=
  nonneg_pack _ (nonneg_mul _ left right)

theorem positive_ofNat (n : Nat) : Positive (Float.ofNat n) := by
  unfold Float.ofNat
  change Positive (Float.ofScientific n false 0)
  unfold Float.ofScientific
  split
  · have one : Float.exactlyRepresentablePowersOfTen[0].toModel.unpack =
        .finite .positive (2 ^ 52) (-52) (by decide) := rfl
    refine positive_mul (nonneg_pack _ (nonneg_ofNat _ _)) ?_
    unfold Positive
    rw [one]
    rfl
  · exact nonneg_pack _ (nonneg_ofScientific _ _ _)

theorem not_lt_zero {f : Float} (positive : Positive f) : ¬f < 0.0 := by
  intro less
  have below : f.toModel.unpack.lt (0.0 : Float).toModel.unpack = true := of_decide_eq_true less
  rw [show (0.0 : Float).toModel.unpack = .zero .positive from rfl] at below
  unfold Positive at positive
  cases unpacked : f.toModel.unpack <;> rw [unpacked] at positive below <;> cases positive <;>
    cases below

/-! ## Size -/

/-- The value of a mantissa and an exponent. -/
def valueOf (m : Nat) (e : Int) : ℚ := m * 2 ^ e

/-- The relative error of one rounding. -/
def unitError : ℚ := 2 ^ (-52 : Int)

theorem mantissa_shiftRight (em : ExtendedMantissa) (k : Nat) :
    (em >>> k).mantissa = em.mantissa / 2 ^ k := by
  induction k generalizing em with
  | zero => exact (Nat.div_one _).symm
  | succ k ih =>
    change (em >>> k).shiftRightOne.mantissa = _
    change (em >>> k).mantissa / 2 = _
    rw [ih, Nat.div_div_eq_div_mul, Nat.pow_succ]

theorem roundedMantissa_bounds (em : ExtendedMantissa) :
    em.mantissa ≤ em.roundedMantissa ∧ em.roundedMantissa ≤ em.mantissa + 1 := by
  obtain ⟨m, r, s⟩ := em
  change m ≤ Accuracy.roundToNearestEven m _ ∧ Accuracy.roundToNearestEven m _ ≤ m + 1
  rcases r with _ | _ <;> rcases s with _ | _
  · exact ⟨le_rfl, Nat.le_succ m⟩
  · exact ⟨le_rfl, Nat.le_succ m⟩
  · change m ≤ m + m % 2 ∧ m + m % 2 ≤ m + 1
    omega
  · exact ⟨Nat.le_succ m, le_rfl⟩

theorem shiftToTargetExponent_of_log2 {m k : Nat} {e : Int} (bits : m.log2 = 52 + k)
    (low : -1074 ≤ e + k) : shiftToTargetExponent Format.binary64 m e .exact =
      (ExtendedMantissa.ofMantissaAndAccuracy m .exact >>> k, e + k) := by
  have target : Format.binary64.targetExponent (totalExponent m e) = e + k := by
    change max ((m.log2 + 1 + e : Int) - 53) (-1074) = e + k
    rw [bits]
    push_cast
    omega
  unfold shiftToTargetExponent shiftToExponent
  dsimp only
  rw [target, show (e + k - e).toNat = k by omega]

theorem log2_of_normal {m : Nat} (low : 2 ^ 52 ≤ m) (high : m < 2 ^ 53) : m.log2 = 52 := by
  have pos : m ≠ 0 := by omega
  exact (Nat.log2_eq_iff pos).mpr ⟨low, high⟩

/-- Rounding a mantissa of at least 53 bits. -/
theorem round_normal (s : Sign) {m k : Nat} {e : Int} (bits : m.log2 = 52 + k)
    (low : -1074 ≤ e + k) : ∃ m' e' pos,
    roundWithAccuracy Format.binary64 s m e .exact = .finite s m' e' pos ∧
      2 ^ 52 ≤ m' ∧ m' < 2 ^ 53 ∧ e + k ≤ e' ∧ e' ≤ e + k + 1 ∧
      valueOf m' e' ≤ valueOf m e * (1 + unitError) := by
  have nonzero : m ≠ 0 := by
    rintro rfl
    rw [Nat.log2_zero] at bits
    omega
  obtain ⟨least, most⟩ := (Nat.log2_eq_iff nonzero).mp bits
  have first := shiftToTargetExponent_of_log2 bits low
  generalize shifted : ExtendedMantissa.ofMantissaAndAccuracy m .exact >>> k = em at first
  have quotient : em.mantissa = m / 2 ^ k := by
    rw [← shifted, mantissa_shiftRight]
    rfl
  have qlow : 2 ^ 52 ≤ m / 2 ^ k := by
    rw [Nat.le_div_iff_mul_le (by positivity), ← Nat.pow_add]
    exact least
  have qhigh : m / 2 ^ k < 2 ^ 53 := by
    rw [Nat.div_lt_iff_lt_mul (by positivity), ← Nat.pow_add]
    calc m < 2 ^ (52 + k + 1) := most
      _ = 2 ^ (53 + k) := by congr 1; omega
  obtain ⟨rlow, rhigh⟩ := roundedMantissa_bounds em
  rw [quotient] at rlow rhigh
  -- one more in the last place is within the relative error
  have bound : valueOf em.roundedMantissa (e + k) ≤ valueOf m e * (1 + unitError) := by
    have whole : ((m / 2 ^ k : Nat) : ℚ) * 2 ^ k ≤ m := by
      exact_mod_cast Nat.div_mul_le_self m (2 ^ k)
    have place : (2 : ℚ) ^ k ≤ m * unitError := by
      have large : (2 : ℚ) ^ (52 + k) ≤ m := by exact_mod_cast least
      unfold unitError
      rw [zpow_neg, ← div_eq_mul_inv, le_div_iff₀ (by positivity)]
      calc (2 : ℚ) ^ k * 2 ^ (52 : Int) = 2 ^ (52 + k) := by rw [pow_add]; ring
        _ ≤ m := large
    have up : (em.roundedMantissa : ℚ) ≤ (m / 2 ^ k : Nat) + 1 := by exact_mod_cast rhigh
    have scale : (0 : ℚ) < 2 ^ e := by positivity
    unfold valueOf
    rw [zpow_add₀ two_ne_zero, zpow_natCast]
    calc (em.roundedMantissa : ℚ) * (2 ^ e * 2 ^ k)
        ≤ ((m / 2 ^ k : Nat) + 1) * (2 ^ e * 2 ^ k) := by gcongr
      _ = (((m / 2 ^ k : Nat) : ℚ) * 2 ^ k + 2 ^ k) * 2 ^ e := by ring
      _ ≤ (m + m * unitError) * 2 ^ e := by gcongr
      _ = m * 2 ^ e * (1 + unitError) := by ring
  unfold roundWithAccuracy
  rw [first]
  dsimp only
  rcases Nat.lt_or_ge em.roundedMantissa (2 ^ 53) with fits | carries
  · have second := shiftToTargetExponent_of_log2 (k := 0) (e := e + k)
      (log2_of_normal (qlow.trans rlow) fits) (by omega)
    rw [second]
    dsimp only
    have same : (ExtendedMantissa.ofMantissaAndAccuracy em.roundedMantissa .exact >>> 0).mantissa =
        em.roundedMantissa := by
      rw [mantissa_shiftRight, Nat.pow_zero, Nat.div_one]
      rfl
    have pos : 0 < em.roundedMantissa := lt_of_lt_of_le (by decide) (qlow.trans rlow)
    refine ⟨em.roundedMantissa, e + k, pos, ?_, qlow.trans rlow, fits, le_rfl, by omega, bound⟩
    rw [dif_neg (by rw [same]; omega)]
    simp only [same, Nat.cast_zero, add_zero]
  · have full : em.roundedMantissa = 2 ^ 53 := by omega
    have second := shiftToTargetExponent_of_log2 (m := 2 ^ 53) (k := 1) (e := e + k)
      (by rw [Nat.log2_two_pow]) (by omega)
    rw [full, second]
    dsimp only
    have half : (ExtendedMantissa.ofMantissaAndAccuracy (2 ^ 53) .exact >>> 1).mantissa =
        2 ^ 52 := by
      rw [mantissa_shiftRight]
      rfl
    refine ⟨2 ^ 52, e + k + 1, by decide, ?_, le_rfl, by decide, by omega, le_rfl, ?_⟩
    · rw [dif_neg (by rw [half]; decide)]
      simp only [half, Nat.cast_one]
    · refine le_of_eq_of_le ?_ bound
      unfold valueOf
      rw [full, zpow_add₀ two_ne_zero, zpow_one]
      push_cast
      ring

/-! ### In memory -/

theorem unpack_packComponents (spec : Format) (s : Sign) {e : BitVec spec.exponentBits}
    {m : BitVec spec.mantissaBitsWithoutImplicit} (finite : e ≠ -1#_) (normal : e ≠ 0#_) :
    unpack spec (packComponents spec s e m) = .finite s (1#1 ++ m).toNat
      ((e.toNat : Int) - (spec.exponentBias + spec.mantissaBitsWithoutImplicit)) (by simp) := by
  have sign : Sign.ofBitVec s.toBitVec = s := by cases s <;> rfl
  unfold unpack
  dsimp only
  simp only [unpackExponent_packComponents, unpackMantissa_packComponents,
    unpackSign_packComponents, sign]
  rw [if_neg finite, if_neg normal]

theorem finite_congr (s : Sign) {m m' : Nat} {e e' : Int} {pos : 0 < m} {pos' : 0 < m'}
    (mantissa : m = m') (exponent : e = e') :
    UnpackedFloat.finite s m e pos = .finite s m' e' pos' := by
  subst mantissa exponent
  rfl

/-- A normal number with the mantissa `m` and the exponent `e` is kept as it is. -/
theorem unpack_pack_normal (s : Sign) {m : Nat} {e : Int} {pos : 0 < m} (low : 2 ^ 52 ≤ m)
    (high : m < 2 ^ 53) (elow : -1074 ≤ e) (ehigh : e ≤ 971) :
    unpack Format.binary64 (pack Format.binary64 (.finite s m e pos)) = .finite s m e pos := by
  obtain ⟨biased, exponent⟩ : ∃ k : Nat, e = (k : Int) - 1075 :=
    ⟨(e + 1075).toNat, by omega⟩
  have bias : (e + (Format.binary64.exponentBias : Nat) +
      (Format.binary64.mantissaBitsWithoutImplicit : Nat)).toNat = biased := by
    change (e + 1023 + 52).toNat = biased
    omega
  have packed : pack Format.binary64 (.finite s m e pos) =
      packComponents Format.binary64 s (BitVec.ofNat _ biased) (BitVec.ofNat _ m) := by
    unfold pack
    dsimp only
    rw [bias, if_neg (by omega),
      if_pos (by rw [log2_of_normal low high]; rfl)]
  have stored : (BitVec.ofNat 11 biased).toNat = biased := by
    rw [BitVec.toNat_ofNat]
    exact Nat.mod_eq_of_lt (by omega)
  have fraction : (BitVec.ofNat 52 m).toNat = m - 2 ^ 52 := by
    rw [BitVec.toNat_ofNat]
    omega
  rw [packed, unpack_packComponents]
  · apply finite_congr
    · refine (BitVec.toNat_append _ _).trans ?_
      change 1 <<< 52 ||| (BitVec.ofNat 52 m).toNat = m
      rw [fraction, ← Nat.shiftLeft_add_eq_or_of_lt (by omega)]
      omega
    · change ((BitVec.ofNat 11 biased).toNat : Int) - (1023 + 52) = e
      omega
  · intro same
    have value : (BitVec.ofNat 11 biased).toNat = 2047 := congrArg BitVec.toNat same
    omega
  · intro same
    have value : (BitVec.ofNat 11 biased).toNat = 0 := congrArg BitVec.toNat same
    omega

/-- A positive normal number with a mantissa and an exponent. -/
structure Normal (f : Float) (m : Nat) (e : Int) : Prop where
  unpacked : ∃ pos, f.toModel.unpack = .finite .positive m e pos
  low : 2 ^ 52 ≤ m
  high : m < 2 ^ 53

theorem normal_round {f : Float} {m k : Nat} {e : Int}
    (rounded : f.toModel.unpack = unpack Format.binary64 (pack Format.binary64
      (roundWithAccuracy Format.binary64 .positive m e .exact)))
    (bits : m.log2 = 52 + k) (low : -1074 ≤ e + k) (high : e + k ≤ 970) :
    ∃ m' e', Normal f m' e' ∧ e + k ≤ e' ∧ e' ≤ e + k + 1 ∧
      valueOf m' e' ≤ valueOf m e * (1 + unitError) := by
  obtain ⟨m', e', pos, result, mlow, mhigh, elow, ehigh, bound⟩ :=
    round_normal .positive bits low
  rw [result, unpack_pack_normal .positive mlow mhigh (by omega) (by omega)] at rounded
  exact ⟨m', e', ⟨⟨pos, rounded⟩, mlow, mhigh⟩, elow, ehigh, bound⟩

/-- A product of normal numbers is off by one rounding. -/
theorem normal_mul {a b : Float} {m n : Nat} {e f : Int} (left : Normal a m e)
    (right : Normal b n f) (low : -1126 ≤ e + f) (high : e + f ≤ 917) :
    ∃ m' e', Normal (a * b) m' e' ∧ e + f + 52 ≤ e' ∧ e' ≤ e + f + 54 ∧
      valueOf m' e' ≤ valueOf m e * valueOf n f * (1 + unitError) := by
  obtain ⟨⟨_, left⟩, mlow, mhigh⟩ := left
  obtain ⟨⟨_, right⟩, nlow, nhigh⟩ := right
  obtain ⟨k, bits, small⟩ : ∃ k, (m * n).log2 = 52 + k ∧ (k = 52 ∨ k = 53) := by
    have least : 2 ^ 104 ≤ m * n := by
      calc 2 ^ 104 = 2 ^ 52 * 2 ^ 52 := by norm_num
        _ ≤ m * n := Nat.mul_le_mul mlow nlow
    have most : m * n < 2 ^ 106 := by
      calc m * n < 2 ^ 53 * 2 ^ 53 := Nat.mul_lt_mul'' mhigh nhigh
        _ = 2 ^ 106 := by norm_num
    have nonzero : m * n ≠ 0 := by omega
    rcases Nat.lt_or_ge (m * n) (2 ^ 105) with short | long
    · exact ⟨52, (Nat.log2_eq_iff nonzero).mpr ⟨least, short⟩, .inl rfl⟩
    · exact ⟨53, (Nat.log2_eq_iff nonzero).mpr ⟨long, most⟩, .inr rfl⟩
  have product : (a * b).toModel.unpack = unpack Format.binary64 (pack Format.binary64
      (roundWithAccuracy Format.binary64 .positive (m * n) (e + f) .exact)) := by
    change unpack Format.binary64 (pack Format.binary64
      (mul Format.binary64 a.toModel.unpack b.toModel.unpack)) = _
    rw [left, right]
    rfl
  obtain ⟨m', e', normal, elow, ehigh, bound⟩ := normal_round product bits (by omega) (by omega)
  refine ⟨m', e', normal, by omega, by omega, bound.trans (le_of_eq ?_)⟩
  unfold valueOf
  rw [zpow_add₀ two_ne_zero]
  push_cast
  ring

/-- A small whole number is off by two roundings at most. -/
theorem normal_ofNat {n : Nat} (pos : 0 < n) (small : n < 2 ^ 53) :
    ∃ m e, Normal (Float.ofNat n) m e ∧ -53 ≤ e ∧ e ≤ 4 ∧
      valueOf m e ≤ n * (1 + unitError) * (1 + unitError) := by
  obtain ⟨j, bits⟩ : ∃ j, n.log2 + j = 52 := by
    have short := (Nat.log2_lt (by omega)).mpr small
    exact ⟨52 - n.log2, by omega⟩
  have target : Format.binary64.targetExponent (totalExponent n 0) = -j := by
    change max ((n.log2 + 1 + 0 : Int) - 53) (-1074) = -j
    omega
  have shifted : (n <<< j).log2 = 52 + 0 := by
    rw [add_zero]
    refine log2_of_normal ?_ ?_
    · calc 2 ^ 52 = 2 ^ n.log2 * 2 ^ j := by rw [← Nat.pow_add, bits]
        _ ≤ n * 2 ^ j := Nat.mul_le_mul_right _ (Nat.log2_self_le pos.ne')
        _ = n <<< j := (Nat.shiftLeft_eq n j).symm
    · calc n <<< j = n * 2 ^ j := Nat.shiftLeft_eq n j
        _ < 2 ^ (n.log2 + 1) * 2 ^ j := (Nat.mul_lt_mul_right (by positivity)).mpr Nat.lt_log2_self
        _ = 2 ^ 53 := by rw [← Nat.pow_add]; congr 1; omega
  have word : n.toUInt64.toNat = n := UInt64.toNat_ofNat_of_lt (by
    rw [UInt64.size]
    omega)
  have stored : n.toUInt64.toFloat.toModel.unpack = unpack Format.binary64 (pack Format.binary64
      (roundWithAccuracy Format.binary64 .positive (n <<< j) (-j) .exact)) := by
    change unpack Format.binary64 (pack Format.binary64
      (UnpackedFloat.normalize Format.binary64 (n.toUInt64.toNat : Int) 0 .positive)) = _
    have positive : compare (n : Int) 0 = .gt := Int.compare_eq_gt.mpr (by omega)
    unfold UnpackedFloat.normalize UnpackedFloat.round decreaseExponent
    rw [word, positive]
    dsimp only
    rw [Int.toNat_natCast, target]
    simp
  obtain ⟨m, e, normal, elow, ehigh, bound⟩ := normal_round stored shifted (by omega) (by omega)
  have one : Normal Float.exactlyRepresentablePowersOfTen[0] (2 ^ 52) (-52) :=
    ⟨⟨by decide, rfl⟩, le_rfl, by decide⟩
  obtain ⟨m', e', normal', elow', ehigh', bound'⟩ := normal_mul normal one (by omega) (by omega)
  have read : Float.ofNat n =
      n.toUInt64.toFloat * Float.exactlyRepresentablePowersOfTen[0] := by
    unfold Float.ofNat
    change Float.ofScientific n false 0 = _
    unfold Float.ofScientific
    rw [dif_pos ⟨small, by decide⟩]
    rfl
  refine ⟨m', e', by rwa [read], by omega, by omega, bound'.trans ?_⟩
  have unit : valueOf (2 ^ 52) (-52) = 1 := by
    unfold valueOf
    norm_num
  have whole : valueOf (n <<< j) (-j) = n := by
    unfold valueOf
    rw [Nat.shiftLeft_eq]
    push_cast
    rw [mul_assoc, zpow_neg, zpow_natCast, mul_inv_cancel₀ (by positivity), mul_one]
  have error : (0 : ℚ) < unitError := by
    unfold unitError
    positivity
  rw [unit, mul_one]
  rw [whole] at bound
  gcongr

/-- Truncation does not go above the value. -/
theorem toInt64_normal {f : Float} {m : Nat} {e : Int} (normal : Normal f m e)
    {n : Nat} (bound : valueOf m e ≤ n) (fits : n < 2 ^ 63) :
    0 ≤ f.toModel.toInt64.toInt ∧ f.toModel.toInt64.toInt ≤ n := by
  obtain ⟨⟨_, unpacked⟩, -, -⟩ := normal
  have truncated : f.toModel.toInt64 =
      Int64.ofIntClamp ((m <<< e.toNat / 2 ^ (-(e - e.toNat)).toNat : Nat) : Int) := by
    change f.toModel.unpack.toInt64 = _
    rw [unpacked]
    change Int64.ofIntClamp ((ExtendedMantissa.ofMantissaAndAccuracy (m <<< (e - 0).toNat)
      .exact >>> (0 - (e - (e - 0).toNat)).toNat).mantissa : Int) = _
    rw [mantissa_shiftRight, sub_zero, zero_sub]
    rfl
  have below : m <<< e.toNat / 2 ^ (-(e - e.toNat)).toNat ≤ n := by
    have whole : ((m <<< e.toNat / 2 ^ (-(e - e.toNat)).toNat : Nat) : ℚ) ≤ valueOf m e := by
      refine Nat.cast_div_le.trans (le_of_eq ?_)
      unfold valueOf
      rw [Nat.shiftLeft_eq]
      rcases Int.le_total 0 e with up | down
      · obtain ⟨k, rfl⟩ := Int.eq_ofNat_of_zero_le up
        simp
      · obtain ⟨k, rfl⟩ := Int.exists_eq_neg_ofNat down
        have none : (-(k : Int)).toNat = 0 := by omega
        rw [none]
        simp [div_eq_mul_inv]
    exact_mod_cast whole.trans bound
  rw [truncated]
  generalize m <<< e.toNat / 2 ^ (-(e - e.toNat)).toNat = q at below
  rw [Int64.toInt_ofIntClamp]
  · omega
  · refine le_trans ?_ (Int.natCast_nonneg _)
    decide
  · change _ ≤ (2 ^ 63 - 1 : Int)
    omega

/-- The truncated share of a whole number, at a rate below one by a few roundings. -/
theorem share_bounds {r : Float} {m : Nat} {e : Int} (rate : Normal r m e) (elow : -1000 ≤ e)
    (ehigh : e ≤ 900) (less : valueOf m e * (1 + unitError) ^ 3 ≤ 1) {n : Nat}
    (small : n < 2 ^ 53) :
    0 ≤ (Float.ofNat n * r).toModel.toInt64.toInt ∧
      (Float.ofNat n * r).toModel.toInt64.toInt ≤ n := by
  rcases Nat.eq_zero_or_pos n with rfl | pos
  · have none : (Float.ofNat 0 * r).toModel.toInt64 = 0 := by
      obtain ⟨⟨_, unpacked⟩, -, -⟩ := rate
      change (unpack Format.binary64 (pack Format.binary64
        (mul Format.binary64 (Float.ofNat 0).toModel.unpack r.toModel.unpack))).toInt64 = 0
      have zero : (Float.ofNat 0).toModel.unpack = .zero .positive := rfl
      rw [unpacked, zero]
      change (unpack Format.binary64 (pack Format.binary64 (.zero .positive))).toInt64 = 0
      have kept : unpack Format.binary64 (pack Format.binary64 (.zero .positive)) =
        .zero .positive := rfl
      rw [kept]
      rfl
    rw [none]
    decide
  · obtain ⟨m', e', whole, wlow, whigh, bound⟩ := normal_ofNat pos small
    obtain ⟨m'', e'', share, -, -, bound'⟩ := normal_mul whole rate (by omega) (by omega)
    have error : (0 : ℚ) < unitError := by
      unfold unitError
      positivity
    have amount : (0 : ℚ) ≤ valueOf m e := by
      unfold valueOf
      positivity
    refine toInt64_normal share (bound'.trans ?_) (by omega)
    calc valueOf m' e' * valueOf m e * (1 + unitError)
        ≤ n * (1 + unitError) * (1 + unitError) * valueOf m e * (1 + unitError) := by gcongr
      _ = n * (valueOf m e * (1 + unitError) ^ 3) := by ring
      _ ≤ n * 1 := by gcongr
      _ = n := mul_one _

end Binary64
