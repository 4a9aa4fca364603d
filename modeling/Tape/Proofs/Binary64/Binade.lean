import Tape.Proofs.Binary64.Order

/-!
# Binades

A positive number between a power of two and the next one has the exponent of the first in its bits.
Rounding an exact value keeps the exponent of its leading bit, or carries into the next one.
-/

namespace Tape.Binary64

open Float.Model (Format totalExponent)
open Float.Model.UnpackedFloat

/-- A positive normal number from `2 ^ k` to below `2 ^ (k + 1)`. -/
structure Binade (x : Float) (k : Int) : Prop where
  low : -1022 ≤ k
  high : k ≤ 1023
  bits : ((x.toBits.toNat / fractionBound : Nat) : Int) = k + 1023

theorem binade_iff (x : Float) (k : Int) :
    Binade x k ↔ -1022 ≤ k ∧ k ≤ 1023 ∧ ((x.toBits.toNat / fractionBound : Nat) : Int) = k + 1023 :=
  ⟨fun h => ⟨h.low, h.high, h.bits⟩, fun h => ⟨h.1, h.2.1, h.2.2⟩⟩

instance (x : Float) (k : Int) : Decidable (Binade x k) := decidable_of_iff' _ (binade_iff x k)

namespace Binade

variable {x y : Float} {j k : Int}

/-- A number of a binade ranks by its bits. -/
theorem rank (binade : Binade x k) : rank x = x.toBits.toNat := by
  have bits := binade.bits
  have high := binade.high
  simp only [fractionBound] at bits
  have nonnegative : isNegative x = false := by
    rw [isNegative, decide_eq_false_iff_not]
    simp only [signBit]
    omega
  rw [Binary64.rank, if_neg (by rw [nonnegative]; decide), magnitude]
  simp only [signBit]
  omega

theorem isPositive (binade : Binade x k) : isPositive x = true := by
  have bits := binade.bits
  have low := binade.low
  have high := binade.high
  rw [isPositive_iff, binade.rank]
  simp only [fractionBound, infinityMagnitude] at bits ⊢
  omega

theorem isNegative (binade : Binade x k) : isNegative x = false := by
  have above := (isPositive_iff.1 binade.isPositive).1
  cases sign : Binary64.isNegative x with
  | false => rfl
  | true =>
      rw [Binary64.rank, if_pos sign] at above
      omega

theorem less_iff (hx : Binade x j) (hy : Binade y k) :
    less x y = true ↔ x.toBits.toNat < y.toBits.toNat := by
  rw [less_iff_rank_lt hx.isPositive hy.isPositive, hx.rank, hy.rank, Int.ofNat_lt]

/-- Numbers of different binades compare as the binades do. -/
theorem less_of_lt (hx : Binade x j) (hy : Binade y k) (below : j < k) : less x y = true := by
  rw [hx.less_iff hy]
  have first := hx.bits
  have second := hy.bits
  simp only [fractionBound] at first second
  omega

/-- No number of a binade is below the power of two that begins it or an earlier one. -/
theorem not_less (hx : Binade x j) (hy : Binade y k) (least : y.toBits.toNat % fractionBound = 0)
    (reaches : k ≤ j) : less x y = false := by
  rw [← Bool.not_eq_true, hx.less_iff hy]
  have first := hx.bits
  have second := hy.bits
  simp only [fractionBound] at first second least
  omega

theorem compareKey_ne_zero (binade : Binade x k) : compareKey x ≠ 0 := by
  have above := (isPositive_iff.1 binade.isPositive).1
  rw [compareKey_eq_rank above]
  omega

end Binade

/-! ## Packing -/

theorem log2_eq_52 {m : Nat} (low : 2 ^ 52 ≤ m) (high : m < 2 ^ 53) : m.log2 = 52 :=
  (Nat.log2_eq_iff (by omega)).2 ⟨low, high⟩

theorem pack_finite {m : Nat} {k : Int} (positive : 0 < m) (low : 2 ^ 52 ≤ m) (high : m < 2 ^ 53)
    (kLow : -1022 ≤ k) (kHigh : k ≤ 1023) :
    pack Format.binary64 (.finite .positive m (k - 52) positive) =
      packComponents Format.binary64 .positive (.ofNat 11 (k + 1023).toNat) (.ofNat 52 m) := by
  have exponent : (k - 52 + Format.binary64.exponentBias +
      Format.binary64.mantissaBitsWithoutImplicit).toNat = (k + 1023).toNat := by
    change (k - 52 + 1023 + 52).toNat = _
    omega
  have fits : ¬2 ^ Format.binary64.exponentBits ≤ (k + 1023).toNat + 1 := by
    change ¬2048 ≤ _
    omega
  simp only [pack, exponent, if_neg fits, log2_eq_52 low high]
  rw [if_pos (show 52 + 1 = Format.binary64.mantissaBits from rfl)]

theorem toNat_exponentField {k : Int} (high : k ≤ 1023) :
    (BitVec.ofNat 11 (k + 1023).toNat).toNat = (k + 1023).toNat := by
  rw [BitVec.toNat_ofNat]
  omega

theorem toBits_pack {m : Nat} {k : Int} (positive : 0 < m) (low : 2 ^ 52 ≤ m) (high : m < 2 ^ 53)
    (kLow : -1022 ≤ k) (kHigh : k ≤ 1023) :
    (Float.ofModel (.pack (.finite .positive m (k - 52) positive))).toBits.toNat =
      (k + 1023).toNat * 2 ^ 52 + (m - 2 ^ 52) := by
  change (pack Format.binary64 (.finite .positive m (k - 52) positive)).toNat = _
  rw [pack_finite positive low high kLow kHigh]
  change (0#1 ++ BitVec.ofNat 11 (k + 1023).toNat ++ BitVec.ofNat 52 m).toNat = _
  have fraction : (BitVec.ofNat 52 m).toNat = m - 2 ^ 52 := by
    rw [BitVec.toNat_ofNat]
    omega
  rw [BitVec.toNat_append, BitVec.toNat_append, toNat_exponentField kHigh, fraction,
    ← Nat.shiftLeft_add_eq_or_of_lt (by omega), ← Nat.shiftLeft_add_eq_or_of_lt (by omega),
    Nat.shiftLeft_eq, Nat.shiftLeft_eq]
  simp

theorem binade_pack {m : Nat} {k : Int} (positive : 0 < m) (low : 2 ^ 52 ≤ m) (high : m < 2 ^ 53)
    (kLow : -1022 ≤ k) (kHigh : k ≤ 1023) :
    Binade (.ofModel (.pack (.finite .positive m (k - 52) positive))) k where
  low := kLow
  high := kHigh
  bits := by
    rw [toBits_pack positive low high kLow kHigh, fractionBound]
    omega

/-- A number of a binade is the packed form of its mantissa. -/
theorem Binade.eq_pack {x : Float} {k : Int} (binade : Binade x k) :
    ∃ (m : Nat) (positive : 0 < m), 2 ^ 52 ≤ m ∧ m < 2 ^ 53 ∧
      x = .ofModel (.pack (.finite .positive m (k - 52) positive)) := by
  have bits := binade.bits
  have kLow := binade.low
  have low : 2 ^ 52 ≤ 2 ^ 52 + x.toBits.toNat % 2 ^ 52 := by omega
  have high : 2 ^ 52 + x.toBits.toNat % 2 ^ 52 < 2 ^ 53 := by omega
  refine ⟨2 ^ 52 + x.toBits.toNat % 2 ^ 52, by omega, low, high, ?_⟩
  apply Float.toBits_inj.1
  apply UInt64.toNat_inj.1
  rw [toBits_pack _ low high kLow binade.high]
  simp only [fractionBound] at bits
  omega

theorem unpack_pack {m : Nat} {k : Int} (positive : 0 < m) (low : 2 ^ 52 ≤ m) (high : m < 2 ^ 53)
    (kLow : -1022 ≤ k) (kHigh : k ≤ 1023) :
    (Float.Model.pack (.finite .positive m (k - 52) positive)).unpack =
      .finite .positive m (k - 52) positive := by
  have field := toNat_exponentField kHigh
  have notTop : BitVec.ofNat 11 (k + 1023).toNat ≠ -1#11 := by
    intro top
    have same := congrArg BitVec.toNat top
    rw [field] at same
    change (k + 1023).toNat = 2047 at same
    omega
  have notBottom : BitVec.ofNat 11 (k + 1023).toNat ≠ 0#11 := by
    intro bottom
    have same := congrArg BitVec.toNat bottom
    rw [field] at same
    change (k + 1023).toNat = 0 at same
    omega
  have mantissa : (1#1 ++ BitVec.ofNat 52 m).toNat = m := by
    rw [BitVec.toNat_append, BitVec.toNat_ofNat, ← Nat.shiftLeft_add_eq_or_of_lt (by omega),
      Nat.shiftLeft_eq]
    simp only [BitVec.toNat_ofNat]
    omega
  have back : ((BitVec.ofNat 11 (k + 1023).toNat).toNat : Int) -
      (Format.binary64.exponentBias + 52) = k - 52 := by
    rw [field]
    change ((k + 1023).toNat : Int) - (1023 + 52) = k - 52
    omega
  change unpack Format.binary64 (pack Format.binary64 _) = _
  rw [pack_finite positive low high kLow kHigh]
  simp only [unpack, unpackMantissa_packComponents, unpackExponent_packComponents,
    unpackSign_packComponents, Sign.ofBitVec_toBitVec]
  rw [if_neg notTop, if_neg notBottom]
  congr 1

/-! ## Negation -/

/-- A packed number keeps its sign. -/
theorem isNegative_pack {m : Nat} (e : Int) (positive : 0 < m) :
    isNegative (.ofModel (.pack (.finite .negative m e positive))) = true := by
  have signed : ∀ (exponent : BitVec 11) (mantissa : BitVec 52),
      signBit ≤ (packComponents Format.binary64 .negative exponent mantissa).toNat := by
    intro exponent mantissa
    change _ ≤ (1#1 ++ exponent ++ mantissa).toNat
    rw [BitVec.toNat_append, BitVec.toNat_append, ← Nat.shiftLeft_add_eq_or_of_lt exponent.isLt,
      ← Nat.shiftLeft_add_eq_or_of_lt mantissa.isLt, Nat.shiftLeft_eq, Nat.shiftLeft_eq]
    change 2 ^ 63 ≤ (1 * 2 ^ 11 + _) * 2 ^ 52 + _
    omega
  change decide (_ ≤ (pack Format.binary64 (.finite .negative m e positive)).toNat) = true
  rw [decide_eq_true_eq]
  simp only [pack]
  split
  · exact signed _ _
  · split <;> exact signed _ _

theorem Binade.isNegative_neg {x : Float} {k : Int} (binade : Binade x k) :
    Binary64.isNegative (-x) = true := by
  obtain ⟨m, positive, low, high, rfl⟩ := binade.eq_pack
  change Binary64.isNegative (.ofModel (.pack
    (Float.Model.UnpackedFloat.neg (Float.Model.pack _).unpack))) = true
  rw [unpack_pack positive low high binade.low binade.high]
  exact isNegative_pack _ positive

theorem Binade.not_isPositive_neg {x : Float} {k : Int} (binade : Binade x k) :
    Binary64.isPositive (-x) = false := by
  rw [← Bool.not_eq_true, isPositive_iff, Binary64.rank, if_pos binade.isNegative_neg]
  omega

/-! ## Rounding -/

theorem mantissa_shiftRight (em : ExtendedMantissa) (n : Nat) :
    (em >>> n).mantissa = em.mantissa / 2 ^ n := by
  induction n with
  | zero =>
      change em.mantissa = em.mantissa / 1
      rw [Nat.div_one]
  | succ n ih =>
      change (em >>> n).mantissa / 2 = em.mantissa / 2 ^ (n + 1)
      rw [ih, Nat.div_div_eq_div_mul, Nat.pow_succ]

theorem roundedMantissa_bounds (em : ExtendedMantissa) :
    em.mantissa ≤ em.roundedMantissa ∧ em.roundedMantissa ≤ em.mantissa + 1 := by
  obtain ⟨m, round, sticky⟩ := em
  cases round with
  | false =>
      cases sticky with
      | false => exact ⟨Nat.le_refl _, Nat.le_succ _⟩
      | true => exact ⟨Nat.le_refl _, Nat.le_succ _⟩
  | true =>
      cases sticky with
      | false =>
          change m ≤ m + m % 2 ∧ m + m % 2 ≤ m + 1
          omega
      | true => exact ⟨Nat.le_succ _, Nat.le_refl _⟩

theorem mantissa_ofMantissaAndAccuracy (m : Nat) (accuracy : Accuracy) :
    (ExtendedMantissa.ofMantissaAndAccuracy m accuracy).mantissa = m := by
  cases accuracy with
  | exact => rfl
  | inexact place => cases place <;> rfl

theorem targetExponent_eq {k : Int} (low : -1022 ≤ k) :
    Format.binary64.targetExponent (k + 1) = k - 52 := by
  change max (k + 1 - 53) (3 - 2 ^ 10 - 53 : Int) = k - 52
  omega

theorem div_two_pow_bounds {m : Nat} (held : 2 ^ 52 ≤ m) :
    2 ^ 52 ≤ m / 2 ^ (m.log2 - 52) ∧ m / 2 ^ (m.log2 - 52) < 2 ^ 53 := by
  have wide : 52 ≤ m.log2 := (Nat.le_log2 (by omega)).2 held
  have low := Nat.log2_self_le (n := m) (by omega)
  have high := Nat.lt_log2_self (n := m)
  have split : m.log2 = 52 + (m.log2 - 52) := by omega
  have positive : 0 < 2 ^ (m.log2 - 52) := Nat.two_pow_pos _
  constructor
  · rw [Nat.le_div_iff_mul_le positive, ← Nat.pow_add, ← split]
    exact low
  · rw [Nat.div_lt_iff_lt_mul positive, ← Nat.pow_add]
    have next : 53 + (m.log2 - 52) = m.log2 + 1 := by omega
    rw [next]
    exact high

/-- A rounded mantissa has its place already, or gives one bit to the exponent. -/
theorem shiftToTargetExponent_rounded {m : Nat} {k : Int} (low : -1022 ≤ k) (held : 2 ^ 52 ≤ m)
    (bound : m ≤ 2 ^ 53) :
    ∃ (final : Nat) (j : Int),
      shiftToTargetExponent Format.binary64 m (k - 52) .exact = (⟨final, false, false⟩, j - 52) ∧
        2 ^ 52 ≤ final ∧ final < 2 ^ 53 ∧ k ≤ j ∧ j ≤ k + 1 := by
  by_cases fits : m < 2 ^ 53
  · have total : totalExponent m (k - 52) = k + 1 := by
      rw [totalExponent, log2_eq_52 held fits]
      omega
    refine ⟨m, k, ?_, held, fits, Int.le_refl _, by omega⟩
    simp only [shiftToTargetExponent, shiftToExponent, total, targetExponent_eq low, Int.sub_self,
      Int.toNat_zero, Int.natCast_zero, Int.add_zero]
    rfl
  · have full : m = 2 ^ 53 := by omega
    have total : totalExponent (2 ^ 53) (k - 52) = k + 1 + 1 := by
      rw [totalExponent, Nat.log2_two_pow]
      omega
    have one : (k + 1 - 52 - (k - 52)).toNat = 1 := by omega
    have next : k - 52 + ((1 : Nat) : Int) = k + 1 - 52 := by omega
    refine ⟨2 ^ 52, k + 1, ?_, by decide, by decide, by omega, Int.le_refl _⟩
    rw [full]
    simp only [shiftToTargetExponent, shiftToExponent, total,
      targetExponent_eq (by omega : -1022 ≤ k + 1), one, next]
    rfl

/-- Rounding keeps the exponent of the leading bit or carries into the next one. -/
theorem roundWithAccuracy_normal {m : Nat} {e : Int} (accuracy : Accuracy) (held : 2 ^ 52 ≤ m)
    (low : -1022 ≤ m.log2 + e) :
    ∃ (rounded : Nat) (k : Int) (positive : 0 < rounded),
      roundWithAccuracy Format.binary64 .positive m e accuracy =
        .finite .positive rounded (k - 52) positive ∧
      2 ^ 52 ≤ rounded ∧ rounded < 2 ^ 53 ∧ m.log2 + e ≤ k ∧ k ≤ m.log2 + e + 1 := by
  have wide : 52 ≤ m.log2 := (Nat.le_log2 (by omega)).2 held
  have total : totalExponent m e = m.log2 + e + 1 := by
    rw [totalExponent]
    omega
  have shift : (m.log2 + e - 52 - e).toNat = m.log2 - 52 := by omega
  have moved : e + ((m.log2 - 52 : Nat) : Int) = m.log2 + e - 52 := by omega
  have first : shiftToTargetExponent Format.binary64 m e accuracy =
      (ExtendedMantissa.ofMantissaAndAccuracy m accuracy >>> (m.log2 - 52), m.log2 + e - 52) := by
    simp only [shiftToTargetExponent, shiftToExponent, total, targetExponent_eq low, shift, moved]
  have kept : (ExtendedMantissa.ofMantissaAndAccuracy m accuracy >>> (m.log2 - 52)).mantissa =
      m / 2 ^ (m.log2 - 52) := by
    rw [mantissa_shiftRight, mantissa_ofMantissaAndAccuracy]
  have fits := div_two_pow_bounds held
  have near := roundedMantissa_bounds
    (ExtendedMantissa.ofMantissaAndAccuracy m accuracy >>> (m.log2 - 52))
  rw [kept] at near
  obtain ⟨final, k, second, finalLow, finalHigh, above, below⟩ :=
    shiftToTargetExponent_rounded low (Nat.le_trans fits.1 near.1) (by omega)
  refine ⟨final, k, by omega, ?_, finalLow, finalHigh, above, below⟩
  simp only [roundWithAccuracy, first, second]
  rw [dif_neg (by omega)]

end Tape.Binary64
