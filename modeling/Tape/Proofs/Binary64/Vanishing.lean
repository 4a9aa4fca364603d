import Tape.Binary64.Reader
import Tape.Binary64.Shortest
import Tape.Proofs.Binary64.Rounding

/-!
# Decimals that vanish

The smallest number above zero is `2 ^ -1074`. A decimal is read as zero exactly when it does not
exceed half of that; every larger one is read as a number with a magnitude, be it infinity. The sign
of a number has no part in this.
-/

namespace Tape.Binary64

open Float.Model (Format totalExponent)
open Float.Model.UnpackedFloat

/-! ## Magnitudes -/

theorem magnitude_ofModel (u : Float.Model.UnpackedFloat) :
    magnitude (.ofModel (.pack u)) = (pack Format.binary64 u).toNat % 2 ^ 63 := rfl

/-- The magnitude is what stands after the sign. -/
theorem toNat_packComponents (sign : Sign) (exponent : BitVec 11) (mantissa : BitVec 52) :
    (packComponents Format.binary64 sign exponent mantissa).toNat % 2 ^ 63 =
      exponent.toNat * 2 ^ 52 + mantissa.toNat := by
  change (sign.toBitVec ++ exponent ++ mantissa).toNat % 2 ^ 63 = _
  have first := exponent.isLt
  have second := mantissa.isLt
  rw [BitVec.toNat_append, BitVec.toNat_append, ← Nat.shiftLeft_add_eq_or_of_lt first,
    ← Nat.shiftLeft_add_eq_or_of_lt second, Nat.shiftLeft_eq, Nat.shiftLeft_eq]
  omega

theorem magnitude_zero (sign : Sign) : magnitude (.ofModel (.pack (.zero sign))) = 0 := by
  rw [magnitude_ofModel]
  exact toNat_packComponents sign 0 0

theorem magnitude_infinity (sign : Sign) :
    magnitude (.ofModel (.pack (.infinity sign))) = infinityMagnitude := by
  rw [magnitude_ofModel]
  exact toNat_packComponents sign (-1#11) 0

/-- The magnitude of a packed number: infinity beyond the largest exponent, and no leading bit below
the precision. -/
theorem magnitude_finite {m : Nat} {e : Int} (sign : Sign) (positive : 0 < m) (fits : Fits m e) :
    magnitude (.ofModel (.pack (.finite sign m e positive))) =
      if 971 < e then infinityMagnitude
      else if 2 ^ 52 ≤ m then (e + 1075).toNat * 2 ^ 52 + (m - 2 ^ 52)
      else m := by
  have least := fits.least
  have bits := fits.bits
  obtain ⟨field, biased⟩ : ∃ field, field =
      (e + Format.binary64.exponentBias + Format.binary64.mantissaBitsWithoutImplicit).toNat :=
    ⟨_, rfl⟩
  have value : field = (e + 1075).toNat := by
    rw [biased]
    change (e + 1023 + 52).toNat = _
    omega
  rw [magnitude_ofModel]
  simp only [pack, ← biased]
  by_cases large : 2 ^ Format.binary64.exponentBits ≤ field + 1
  · have beyond : 971 < e := by
      change 2048 ≤ field + 1 at large
      omega
    rw [if_pos large, if_pos beyond]
    exact toNat_packComponents sign (-1#11) 0
  · have within : ¬971 < e := by
      change ¬2048 ≤ field + 1 at large
      omega
    rw [if_neg large, if_neg within]
    by_cases normal : 2 ^ 52 ≤ m
    · rw [log2_eq_52 normal bits, if_pos (show 52 + 1 = Format.binary64.mantissaBits from rfl),
        if_pos normal]
      refine (toNat_packComponents sign (.ofNat 11 field) (.ofNat 52 m)).trans ?_
      rw [BitVec.toNat_ofNat, BitVec.toNat_ofNat]
      omega
    · have short : m.log2 + 1 ≠ Format.binary64.mantissaBits := by
        change m.log2 + 1 ≠ 53
        have := (Nat.log2_lt (by omega)).2 (Nat.not_le.1 normal)
        omega
      rw [if_neg short, if_neg normal]
      refine (toNat_packComponents sign 0#11 (.ofNat 52 m)).trans ?_
      rw [BitVec.toNat_ofNat]
      change 0 * 2 ^ 52 + m % 2 ^ 52 = m
      omega

theorem magnitude_finite_pos {m : Nat} {e : Int} (sign : Sign) (positive : 0 < m)
    (fits : Fits m e) : 0 < magnitude (.ofModel (.pack (.finite sign m e positive))) := by
  have least := fits.least
  rw [magnitude_finite sign positive fits, infinityMagnitude]
  split
  · decide
  · split <;> omega

/-! ## Negation -/

/-- The two parts of a magnitude, read from the bits. -/
theorem toNat_unpacked (b : BitVec 64) :
    b.toNat % 2 ^ 63 = (@unpackExponent Format.binary64 b).toNat * 2 ^ 52 +
      (@unpackMantissa Format.binary64 b).toNat := by
  have exponent : (@unpackExponent Format.binary64 b).toNat = b.toNat / 2 ^ 52 % 2 ^ 11 := by
    simp [unpackExponent, Nat.shiftRight_eq_div_pow]
  have mantissa : (@unpackMantissa Format.binary64 b).toNat = b.toNat % 2 ^ 52 := by
    simp [unpackMantissa]
  rw [exponent, mantissa]
  omega

theorem magnitude_neg (x : Float) : magnitude (-x) = magnitude x := by
  obtain ⟨⟨bits, valid⟩⟩ := x
  change (pack Format.binary64 (neg (unpack Format.binary64 bits.toBitVec))).toNat % 2 ^ 63 =
    bits.toBitVec.toNat % 2 ^ 63
  generalize bits.toBitVec = b at valid
  rw [toNat_unpacked b]
  have field : (@unpackExponent Format.binary64 b).toNat < 2 ^ 11 := BitVec.isLt _
  have rest : (@unpackMantissa Format.binary64 b).toNat < 2 ^ 52 := BitVec.isLt _
  simp only [unpack]
  split
  next top =>
    rw [top]
    split
    next none =>
      rw [none]
      exact toNat_packComponents _ (-1#11) 0
    next other =>
      rw [← top, ← toNat_unpacked b]
      exact congrArg (fun b => BitVec.toNat b % 2 ^ 63) (valid.eq_packedNaN top other).symm
  next notTop =>
    split
    next bottom =>
      rw [bottom]
      split
      next none =>
        rw [none]
        exact toNat_packComponents _ 0#11 0
      next some =>
        have positive : 0 < (@unpackMantissa Format.binary64 b).toNat :=
          Nat.pos_of_ne_zero fun zero => some (BitVec.toNat_inj.1 zero)
        refine (magnitude_finite _ positive ⟨by omega, ?_⟩).trans ?_
        · change -1074 ≤ (0 : Int) - (1023 + 52) + 1
          omega
        · change (if 971 < (0 : Int) - (1023 + 52) + 1 then _ else _) = 0 * 2 ^ 52 + _
          rw [if_neg (by omega), if_neg (by omega)]
          omega
    next notBottom =>
      have leading : (1#1 ++ @unpackMantissa Format.binary64 b).toNat =
          2 ^ 52 + (@unpackMantissa Format.binary64 b).toNat := by
        rw [BitVec.toNat_append, ← Nat.shiftLeft_add_eq_or_of_lt rest, Nat.shiftLeft_eq]
        simp
      have below : (@unpackExponent Format.binary64 b).toNat ≠ 2047 := fun last =>
        notTop (BitVec.toNat_inj.1 last)
      have above : (@unpackExponent Format.binary64 b).toNat ≠ 0 := fun first =>
        notBottom (BitVec.toNat_inj.1 first)
      have shifted : ((@unpackExponent Format.binary64 b).toNat : Int) -
          (Format.binary64.exponentBias + Format.binary64.mantissaBitsWithoutImplicit) =
          (@unpackExponent Format.binary64 b).toNat - 1075 := by
        change _ - (1023 + 52 : Int) = _
        omega
      refine (magnitude_finite _ (by omega) ⟨by omega, by rw [shifted]; omega⟩).trans ?_
      rw [shifted, leading, if_neg (by omega), if_pos (by omega)]
      omega

/-! ## Values -/

/-- Half of the smallest number above zero. -/
def vanishingBound : ℚ := 2 ^ (-1075 : Int)

theorem vanishingBound_lt_two_zpow {e : Int} (above : -1075 < e) : vanishingBound < 2 ^ e :=
  zpow_lt_zpow_right₀ (by norm_num) above

theorem vanishingBound_lt_of_one_le {v : ℚ} (whole : 1 ≤ v) : vanishingBound < v :=
  lt_of_lt_of_le (vanishingBound_lt_two_zpow (by decide : -1075 < (0 : Int))) (by simpa using whole)

/-- A value is rounded to zero exactly when it does not exceed the bound, or half of the unit that
it starts from where that is larger. -/
theorem magnitude_roundWithAccuracy_eq_zero_iff {m : Nat} {e : Int} {accuracy : Accuracy} {v : ℚ}
    (sign : Sign) (represents : Represents (ExtendedMantissa.ofMantissaAndAccuracy m accuracy) v) :
    magnitude (.ofModel (.pack (roundWithAccuracy Format.binary64 sign m e accuracy))) = 0 ↔
      v * 2 ^ min e (-1074) ≤ vanishingBound := by
  obtain ⟨final, j, fits, _, zero, _, rounded⟩ := roundWithAccuracy_eq (e := e) sign represents
  rw [rounded, vanishingBound, ← zero]
  by_cases none : final = 0
  · rw [dif_pos none, magnitude_zero]
    exact iff_of_true rfl none
  · rw [dif_neg none]
    exact iff_of_false (Nat.ne_of_gt (magnitude_finite_pos sign _ fits)) none

/-- A whole number of units that are not too small is not rounded to zero. -/
theorem magnitude_roundWithAccuracy_exact_ne_zero {m : Nat} {e : Int} (sign : Sign)
    (positive : 0 < m) (least : -1074 ≤ e) :
    magnitude (.ofModel (.pack (roundWithAccuracy Format.binary64 sign m e .exact))) ≠ 0 := by
  rw [Ne, magnitude_roundWithAccuracy_eq_zero_iff sign (represents_exact m), min_eq_right least,
    not_le]
  have one : (1 : ℚ) ≤ m := by exact_mod_cast positive
  calc vanishingBound < 2 ^ (-1074 : Int) := vanishingBound_lt_two_zpow (by decide)
    _ ≤ m * 2 ^ (-1074 : Int) := le_mul_of_one_le_left (by positivity) one

/-- The exact value of a finite number. -/
def value (x : Float) : ℚ :=
  let size : ℚ := (parts x).mantissa * 2 ^ (parts x).exponent
  if isNegative x then -size else size

/-- The value of a number is zero with its magnitude, or twice the bound at least. -/
theorem magnitude_eq_zero_iff_value (x : Float) : magnitude x = 0 ↔ |value x| ≤ vanishingBound := by
  obtain ⟨size, same⟩ : ∃ size, size = ((parts x).mantissa : ℚ) * 2 ^ (parts x).exponent := ⟨_, rfl⟩
  have nonnegative : 0 ≤ size := by
    rw [same]
    positivity
  have absolute : |value x| = size := by
    rw [value, ← same]
    split
    · rw [abs_neg, abs_of_nonneg nonnegative]
    · exact abs_of_nonneg nonnegative
  have held : (magnitude x = 0 ↔ (parts x).mantissa = 0) ∧ -1074 ≤ (parts x).exponent := by
    by_cases subnormal : magnitude x / fractionBound = 0
    · simp only [parts, if_pos subnormal]
      simp only [fractionBound] at subnormal ⊢
      omega
    · simp only [parts, if_neg subnormal]
      simp only [fractionBound] at subnormal ⊢
      omega
  rw [absolute, held.1, same]
  constructor
  · intro zero
    rw [zero, Nat.cast_zero, zero_mul, vanishingBound]
    positivity
  · intro small
    by_contra some
    have one : (1 : ℚ) ≤ (parts x).mantissa := by exact_mod_cast Nat.pos_of_ne_zero some
    have least : vanishingBound < 2 ^ (parts x).exponent :=
      vanishingBound_lt_two_zpow (by have := held.2; omega)
    have whole : (2 : ℚ) ^ (parts x).exponent ≤ (parts x).mantissa * 2 ^ (parts x).exponent :=
      le_mul_of_one_le_left (by positivity) one
    linarith

theorem value_pos {x : Float} (positive : isPositive x = true) : 0 < value x := by
  have above := (isPositive_iff.1 positive).1
  have sign : isNegative x = false := by
    rw [rank] at above
    cases negative : isNegative x with
    | false => rfl
    | true =>
        rw [negative, if_pos rfl] at above
        omega
  have some : ¬magnitude x = 0 := by
    rw [rank, sign] at above
    simp only [Bool.false_eq_true, if_false] at above
    omega
  rw [magnitude_eq_zero_iff_value, not_le] at some
  have size : 0 ≤ value x := by
    simp only [value, sign, Bool.false_eq_true, if_false]
    positivity
  have bound : 0 < vanishingBound := zpow_pos (by norm_num) _
  rw [abs_of_nonneg size] at some
  exact bound.trans some

/-! ## Decimals -/

/-- A quotient of positive numbers vanishes exactly when the exact quotient does not exceed the
bound: it is rounded from a unit that is small against it, or from one that is not larger than the
smallest. -/
theorem magnitude_div_eq_zero_iff {m n : Nat} {d e : Int} (mPositive : 0 < m)
    (nPositive : 0 < n) :
    magnitude (.ofModel (.pack (Float.Model.UnpackedFloat.div Format.binary64
      (.finite .positive m d mPositive) (.finite .positive n e nPositive)))) = 0 ↔
        m * 2 ^ d / (n * 2 ^ e) ≤ vanishingBound := by
  obtain ⟨whole, start, accuracy, v, same, represents, value, unit, _⟩ :=
    div_eq_roundWithAccuracy (d := d) (e := e) mPositive nPositive
  rw [same, magnitude_roundWithAccuracy_eq_zero_iff .positive represents, ← value]
  by_cases least : start ≤ -1074
  · rw [min_eq_left least]
  · have scale : (0 : ℚ) < 2 ^ start := by positivity
    have size : (2 : ℚ) ^ (start + 52) < v * 2 ^ start := by
      have unit' : (0 : ℚ) < n * 2 ^ e := by positivity
      rw [value, lt_div_iff₀ unit']
      calc (2 : ℚ) ^ (start + 52) * (n * 2 ^ e)
          < 2 ^ (start + 52) * (2 ^ (n.log2 + 1 : Int) * 2 ^ e) := by
            have above := lt_two_zpow_log2 n
            gcongr
        _ = 2 ^ (start + 52 + (n.log2 + 1 + e)) := by
            rw [← zpow_add₀ (by norm_num), ← zpow_add₀ (by norm_num)]
        _ ≤ 2 ^ (m.log2 + d : Int) := zpow_le_zpow_right₀ (by norm_num) (by omega)
        _ = 2 ^ (m.log2 : Int) * 2 ^ d := zpow_add₀ (by norm_num) _ _
        _ ≤ m * 2 ^ d := by
            have below := two_zpow_log2_le mPositive
            gcongr
    have large : vanishingBound < v * 2 ^ start :=
      (vanishingBound_lt_two_zpow (by omega)).trans size
    have more : (2 : ℚ) ^ (52 : Int) < v := by
      rw [add_comm, zpow_add₀ (by norm_num)] at size
      exact lt_of_mul_lt_mul_right size scale.le
    have more' : vanishingBound < v * 2 ^ min start (-1074) := by
      rw [min_eq_right (by omega)]
      calc vanishingBound < 2 ^ (52 + -1074 : Int) := vanishingBound_lt_two_zpow (by decide)
        _ = 2 ^ (52 : Int) * 2 ^ (-1074 : Int) := zpow_add₀ (by norm_num) _ _
        _ ≤ v * 2 ^ (-1074 : Int) := mul_le_mul_of_nonneg_right more.le (by positivity)
    exact iff_of_false (not_le.2 more') (not_le.2 large)

/-- A scientific number vanishes exactly when it does not exceed the bound; the limits on the
exponent agree with that. -/
theorem magnitude_ofModel_ofScientific_eq_zero_iff {m : Nat} (positive : 0 < m) (e : Int) :
    magnitude (.ofModel (.ofScientific m e)) = 0 ↔ (m : ℚ) * 10 ^ e ≤ vanishingBound := by
  have unit : (1 : ℚ) ≤ m := by exact_mod_cast positive
  have atLeastOne (whole : 0 ≤ e) : vanishingBound < (m : ℚ) * 10 ^ e :=
    vanishingBound_lt_of_one_le (one_le_mul_of_one_le_of_one_le unit
      (one_le_zpow₀ (by norm_num) whole))
  change magnitude (.ofModel (.pack (Float.Model.UnpackedFloat.ofScientific Format.binary64 m e))) =
    0 ↔ _
  rw [Float.Model.UnpackedFloat.ofScientific, dif_neg (Nat.ne_of_gt positive)]
  split
  next high =>
    have whole : 0 ≤ e := le_trans (by norm_num) (le_of_lt high)
    rw [magnitude_infinity]
    exact iff_of_false (by decide) (not_le.2 (atLeastOne whole))
  · split
    next low =>
      change e < -((2 ^ 11 : Int) + m.log2) at low
      refine iff_of_true (magnitude_zero _) ?_
      have tens : (10 : ℚ) ^ e ≤ 2 ^ e := by
        have powers : (2 : ℚ) ^ (-e) ≤ 10 ^ (-e) :=
          zpow_le_zpow_left₀ (by omega) (by norm_num) (by norm_num)
        rw [← neg_neg e, zpow_neg (10 : ℚ), zpow_neg (2 : ℚ)]
        exact inv_anti₀ (by positivity) powers
      calc (m : ℚ) * 10 ^ e ≤ 2 ^ (m.log2 + 1 : Int) * 2 ^ e :=
            mul_le_mul (lt_two_zpow_log2 m).le tens (by positivity) (by positivity)
        _ = 2 ^ (m.log2 + 1 + e) := (zpow_add₀ (by norm_num) _ _).symm
        _ ≤ vanishingBound := zpow_le_zpow_right₀ (by norm_num) (by omega)
    · split
      next whole =>
        refine iff_of_false ?_ (not_le.2 (atLeastOne whole))
        have scaled : 0 < m <<< Format.binary64.mantissaBits * 10 ^ e.toNat := by
          rw [Nat.shiftLeft_eq]
          positivity
        exact magnitude_roundWithAccuracy_exact_ne_zero .positive scaled (by decide)
      next part =>
        have power : (10 : ℚ) ^ e = ((10 ^ (-e).toNat : Nat) : ℚ)⁻¹ := by
          rw [Nat.cast_pow, Nat.cast_ofNat, ← zpow_natCast, Int.toNat_of_nonneg (by omega), zpow_neg,
            inv_inv]
        have vanishes := @magnitude_div_eq_zero_iff m (10 ^ (-e).toNat) 0 0 positive
          (Nat.pow_pos (by decide))
        rw [zpow_zero, mul_one, mul_one] at vanishes
        rw [power, ← div_eq_mul_inv]
        exact vanishes

theorem Near.magnitude_ne_zero {x : Float} {low high : Int} (near : Near x low high) :
    magnitude x ≠ 0 := by
  obtain ⟨k, binade, _⟩ := near
  intro zero
  apply binade.compareKey_ne_zero
  rw [compareKey, zero]
  split <;> rfl

/-- The powers of ten that are exact numbers lie in the binades of the whole numbers. -/
theorem binade_exactlyRepresentable : ∀ n : Fin 23,
    Binade (Float.exactlyRepresentablePowersOfTen[n]) (10 ^ n.val : Nat).log2 := by
  decide +kernel

theorem log2_ten_pow_lt {n : Nat} (small : n ≤ 22) : (10 ^ n : Nat).log2 < 74 :=
  (Nat.log2_lt (Nat.ne_of_gt (Nat.pow_pos (by decide)))).2
    (Nat.lt_of_le_of_lt (Nat.pow_le_pow_right (by decide) small) (by decide))

/-- A small decimal is the product or the quotient of two exact numbers, and does not vanish. -/
theorem magnitude_ofScientific_eq_zero_iff {m : Nat} (positive : 0 < m) (down : Bool) (n : Nat) :
    magnitude (Float.ofScientific m down n) = 0 ↔
      (m : ℚ) * 10 ^ (if down then -(n : Int) else n) ≤ vanishingBound := by
  rw [Float.ofScientific]
  split
  next small =>
    have word : m.toUInt64.toNat = m :=
      UInt64.toNat_ofNat_of_lt' (Nat.lt_trans small.1 (by decide))
    have whole := near_toFloat (w := m.toUInt64) (by omega)
    have log : m.log2 < 53 := (Nat.log2_lt (by omega)).2 small.1
    have powerLog := log2_ten_pow_lt small.2
    have held : n < Float.exactlyRepresentablePowersOfTen.size := by
      change n < 23
      omega
    have power : Near Float.exactlyRepresentablePowersOfTen[n] (10 ^ n : Nat).log2
        (10 ^ n : Nat).log2 :=
      .of_binade (binade_exactlyRepresentable ⟨n, held⟩)
    rw [word] at whole
    refine iff_of_false ?_ (not_le.2 ?_)
    · cases down
      · exact (whole.mul power (by omega) (by omega)).magnitude_ne_zero
      · exact (whole.div power (by omega) (by omega)).magnitude_ne_zero
    · have unit : (1 : ℚ) ≤ m := by exact_mod_cast positive
      have least : (2 : ℚ) ^ (-88 : Int) ≤ 10 ^ (if down then -(n : Int) else n) := by
        calc (2 : ℚ) ^ (-88 : Int) ≤ 10 ^ (-22 : Int) := by norm_num
          _ ≤ _ := zpow_le_zpow_right₀ (by norm_num) (by split <;> omega)
      calc vanishingBound < 2 ^ (-88 : Int) := vanishingBound_lt_two_zpow (by decide)
        _ ≤ 10 ^ (if down then -(n : Int) else n) := least
        _ = 1 * 10 ^ (if down then -(n : Int) else n) := (one_mul _).symm
        _ ≤ m * 10 ^ (if down then -(n : Int) else n) :=
            mul_le_mul_of_nonneg_right unit (by positivity)
  next large =>
    have same : (if down then Int.negOfNat n else Int.ofNat n) = if down then -(n : Int) else n := by
      cases down
      · rfl
      · exact Int.negOfNat_eq
    rw [← same]
    exact magnitude_ofModel_ofScientific_eq_zero_iff positive _

theorem magnitude_ofDecimal_eq_zero_iff (m : Nat) (e : Int) :
    magnitude (ofDecimal m e) = 0 ↔ (m : ℚ) * 10 ^ e ≤ vanishingBound := by
  rw [ofDecimal]
  split
  next zero =>
    rw [zero, Nat.cast_zero, zero_mul]
    exact iff_of_true (by decide) (by rw [vanishingBound]; positivity)
  next some =>
    have positive := Nat.pos_of_ne_zero some
    split
    · rw [magnitude_ofScientific_eq_zero_iff positive, if_pos rfl,
        Int.toNat_of_nonneg (by omega), neg_neg]
    · rw [magnitude_ofScientific_eq_zero_iff positive, if_neg (by decide),
        Int.toNat_of_nonneg (by omega)]

/-! ## Whole numbers and equality -/

theorem magnitude_ofNat_eq_zero_iff (n : Nat) : magnitude (Float.ofNat n) = 0 ↔ n = 0 := by
  rcases Nat.eq_zero_or_pos n with rfl | positive
  · exact iff_of_true (by decide) rfl
  · refine iff_of_false ?_ (by omega)
    change ¬magnitude (Float.ofScientific n false 0) = 0
    have unit : (1 : ℚ) ≤ n := by exact_mod_cast positive
    rw [magnitude_ofScientific_eq_zero_iff positive, not_le]
    exact vanishingBound_lt_of_one_le (by simpa using unit)

theorem magnitude_ofInt_eq_zero_iff (n : Int) : magnitude (Float.ofInt n) = 0 ↔ n = 0 := by
  cases n with
  | ofNat n => exact (magnitude_ofNat_eq_zero_iff n).trans (by simp)
  | negSucc n =>
      change magnitude (-Float.ofNat (n + 1)) = 0 ↔ _
      rw [magnitude_neg, magnitude_ofNat_eq_zero_iff]
      simp

theorem compareKey_eq_zero_iff (x : Float) : compareKey x = 0 ↔ magnitude x = 0 := by
  rw [compareKey]
  split <;> omega

theorem equal_zero_iff (x : Float) : equal x 0 = true ↔ magnitude x = 0 := by
  have none := not_isNaN_of_isFinite isFinite_zero
  simp only [equal, none, compareKey_zero, Bool.not_false, Bool.and_true, Bool.and_eq_true,
    Bool.not_eq_true', beq_iff_eq, compareKey_eq_zero_iff]
  refine and_iff_right_of_imp fun zero => ?_
  rw [isNaN, zero]
  rfl

end Tape.Binary64
