import Tape.Proofs.Binary64.Binade

/-!
# Ranges of exponents under arithmetic

Each operation on positive normal numbers keeps the exponent of its result within a range that
follows from the exponents of its operands, so that a chain of operations neither vanishes nor
overflows.
-/

namespace Tape.Binary64

open Float.Model (Format totalExponent)
open Float.Model.UnpackedFloat

/-- A positive normal number whose exponent lies in a range. -/
def Near (x : Float) (low high : Int) : Prop := ∃ k, Binade x k ∧ low ≤ k ∧ k ≤ high

namespace Near

variable {x y : Float} {a b c d : Int}

theorem of_binade {k : Int} (binade : Binade x k) : Near x k k :=
  ⟨k, binade, Int.le_refl _, Int.le_refl _⟩

theorem widen (near : Near x a b) (low : c ≤ a) (high : b ≤ d) : Near x c d := by
  obtain ⟨k, binade, above, below⟩ := near
  exact ⟨k, binade, Int.le_trans low above, Int.le_trans below high⟩

theorem isPositive (near : Near x a b) : isPositive x = true := by
  obtain ⟨k, binade, _, _⟩ := near
  exact binade.isPositive

end Near

/-! ## Rounding into a range -/

theorem near_roundWithAccuracy {m : Nat} {e low high : Int} (accuracy : Accuracy)
    (held : 2 ^ 52 ≤ m) (above : low ≤ m.log2 + e) (below : m.log2 + e + 1 ≤ high)
    (normal : -1022 ≤ low) (finite : high ≤ 1023) :
    Near (.ofModel (.pack (roundWithAccuracy Format.binary64 .positive m e accuracy))) low high := by
  obtain ⟨rounded, k, positive, same, roundedLow, roundedHigh, kLow, kHigh⟩ :=
    roundWithAccuracy_normal accuracy held (e := e) (by omega)
  rw [same]
  exact ⟨k, binade_pack positive roundedLow roundedHigh (by omega) (by omega), by omega, by omega⟩

theorem log2_mul_two_pow {m : Nat} (positive : 0 < m) (n : Nat) :
    (m * 2 ^ n).log2 = m.log2 + n := by
  have scaled : 0 < m * 2 ^ n := Nat.mul_pos positive (Nat.two_pow_pos n)
  rw [Nat.log2_eq_iff (by omega)]
  constructor
  · rw [Nat.pow_add]
    exact Nat.mul_le_mul_right _ (Nat.log2_self_le (by omega))
  · have next : m.log2 + n + 1 = m.log2 + 1 + n := by omega
    rw [next, Nat.pow_add]
    exact Nat.mul_lt_mul_of_pos_right Nat.lt_log2_self (Nat.two_pow_pos n)

theorem near_round {m : Nat} {e low high : Int} (positive : 0 < m) (above : low ≤ m.log2 + e)
    (below : m.log2 + e + 1 ≤ high) (normal : -1022 ≤ low) (finite : high ≤ 1023) :
    Near (.ofModel (.pack (Float.Model.UnpackedFloat.round Format.binary64 .positive m e))) low high := by
  have total : totalExponent m e = m.log2 + e + 1 := by
    rw [totalExponent]
    omega
  have shift : (e - (m.log2 + e - 52)).toNat = 52 - m.log2 := by omega
  have log := log2_mul_two_pow positive (52 - m.log2)
  have held : 2 ^ 52 ≤ m * 2 ^ (52 - m.log2) := by
    have scaled : 0 < m * 2 ^ (52 - m.log2) := Nat.mul_pos positive (Nat.two_pow_pos _)
    rw [← Nat.le_log2 (by omega), log]
    omega
  simp only [Float.Model.UnpackedFloat.round, total,
    targetExponent_eq (by omega : -1022 ≤ m.log2 + e), decreaseExponent, shift, Nat.shiftLeft_eq]
  apply near_roundWithAccuracy _ held
  · omega
  · omega
  · exact normal
  · exact finite

theorem normalize_natCast {n : Nat} (positive : 0 < n) (e : Int) (zeroSign : Sign) :
    Float.Model.UnpackedFloat.normalize Format.binary64 (n : Int) e zeroSign =
      Float.Model.UnpackedFloat.round Format.binary64 .positive n e := by
  have above : compare (n : Int) 0 = .gt := Int.compare_eq_gt.2 (by omega)
  simp only [Float.Model.UnpackedFloat.normalize, above, Int.toNat_natCast]

/-! ## Operations -/

namespace Near

variable {x y : Float} {a b c d : Int}

theorem mul (hx : Near x a b) (hy : Near y c d) (normal : -1022 ≤ a + c)
    (finite : b + d + 2 ≤ 1023) : Near (x * y) (a + c) (b + d + 2) := by
  obtain ⟨j, first, ja, jb⟩ := hx
  obtain ⟨k, second, kc, kd⟩ := hy
  obtain ⟨m, mPositive, mLow, mHigh, rfl⟩ := first.eq_pack
  obtain ⟨n, nPositive, nLow, nHigh, rfl⟩ := second.eq_pack
  change Near (.ofModel (.pack (Float.Model.UnpackedFloat.mul Format.binary64
    (Float.Model.pack _).unpack (Float.Model.pack _).unpack))) _ _
  rw [unpack_pack mPositive mLow mHigh first.low first.high,
    unpack_pack nPositive nLow nHigh second.low second.high]
  have low : 2 ^ 104 ≤ m * n := by
    calc 2 ^ 104 = 2 ^ 52 * 2 ^ 52 := by decide
      _ ≤ m * n := Nat.mul_le_mul mLow nLow
  have high : m * n < 2 ^ 106 := by
    calc m * n < 2 ^ 53 * 2 ^ 53 := Nat.mul_lt_mul'' mHigh nHigh
      _ = 2 ^ 106 := by decide
  have logLow : 104 ≤ (m * n).log2 := (Nat.le_log2 (by omega)).2 low
  have logHigh : (m * n).log2 < 106 := (Nat.log2_lt (by omega)).2 high
  apply near_roundWithAccuracy
  · omega
  · omega
  · omega
  · exact normal
  · exact finite

theorem div (hx : Near x a b) (hy : Near y c d) (normal : -1021 ≤ a - d)
    (finite : b - c + 1 ≤ 1023) : Near (x / y) (a - d - 1) (b - c + 1) := by
  obtain ⟨j, first, ja, jb⟩ := hx
  obtain ⟨k, second, kc, kd⟩ := hy
  obtain ⟨m, mPositive, mLow, mHigh, rfl⟩ := first.eq_pack
  obtain ⟨n, nPositive, nLow, nHigh, rfl⟩ := second.eq_pack
  change Near (.ofModel (.pack (Float.Model.UnpackedFloat.div Format.binary64
    (Float.Model.pack _).unpack (Float.Model.pack _).unpack))) _ _
  rw [unpack_pack mPositive mLow mHigh first.low first.high,
    unpack_pack nPositive nLow nHigh second.low second.high]
  have difference : totalExponent m (j - 52) - totalExponent n (k - 52) = j - k - 1 + 1 := by
    rw [totalExponent, totalExponent, log2_eq_52 mLow mHigh, log2_eq_52 nLow nHigh]
    omega
  have target : min (j - 52 - (k - 52)) (Format.binary64.targetExponent (j - k - 1 + 1)) =
      j - k - 53 := by
    rw [targetExponent_eq (by omega : -1022 ≤ j - k - 1)]
    omega
  have shift : (j - 52 - (k - 52) - (j - k - 53)).toNat = 53 := by omega
  have quotientLow : 2 ^ 52 ≤ m * 2 ^ 53 / n := by
    rw [Nat.le_div_iff_mul_le nPositive]
    calc 2 ^ 52 * n ≤ m * n := Nat.mul_le_mul_right _ mLow
      _ ≤ m * 2 ^ 53 := Nat.mul_le_mul_left _ (Nat.le_of_lt nHigh)
  have quotientHigh : m * 2 ^ 53 / n < 2 ^ 54 := by
    rw [Nat.div_lt_iff_lt_mul nPositive]
    calc m * 2 ^ 53 < 2 ^ 53 * 2 ^ 53 := by omega
      _ = 2 ^ 54 * 2 ^ 52 := by decide
      _ ≤ 2 ^ 54 * n := Nat.mul_le_mul_left _ nLow
  have logLow : 52 ≤ (m * 2 ^ 53 / n).log2 := (Nat.le_log2 (by omega)).2 quotientLow
  have logHigh : (m * 2 ^ 53 / n).log2 < 54 := (Nat.log2_lt (by omega)).2 quotientHigh
  simp only [Float.Model.UnpackedFloat.div, divCore, difference, target, shift, Nat.shiftLeft_eq]
  apply near_roundWithAccuracy _ quotientLow
  · omega
  · omega
  · omega
  · exact finite

/-- A sum is as large as either part, and at most four times the larger one. -/
theorem add (hx : Near x a b) (hy : Near y c d) (finiteLeft : b + 2 ≤ 1023)
    (finiteRight : d + 2 ≤ 1023) (normal : -1022 ≤ c) : Near (x + y) c (max b d + 2) := by
  obtain ⟨j, first, ja, jb⟩ := hx
  obtain ⟨k, second, kc, kd⟩ := hy
  obtain ⟨m, mPositive, mLow, mHigh, rfl⟩ := first.eq_pack
  obtain ⟨n, nPositive, nLow, nHigh, rfl⟩ := second.eq_pack
  change Near (.ofModel (.pack (Float.Model.UnpackedFloat.add Format.binary64
    (Float.Model.pack _).unpack (Float.Model.pack _).unpack))) _ _
  rw [unpack_pack mPositive mLow mHigh first.low first.high,
    unpack_pack nPositive nLow nHigh second.low second.high]
  simp only [Float.Model.UnpackedFloat.add, decreaseExponent, Sign.apply, Nat.shiftLeft_eq]
  obtain ⟨e, least⟩ : ∃ e, e = min (j - 52) (k - 52) := ⟨_, rfl⟩
  obtain ⟨p, left⟩ : ∃ p, p = (j - 52 - e).toNat := ⟨_, rfl⟩
  obtain ⟨q, right⟩ : ∃ q, q = (k - 52 - e).toNat := ⟨_, rfl⟩
  rw [← least, ← left, ← right, ← Int.natCast_add]
  have scaled : 0 < n * 2 ^ q := Nat.mul_pos nPositive (Nat.two_pow_pos q)
  have positive : 0 < m * 2 ^ p + n * 2 ^ q := by omega
  have logLow : 52 + q ≤ (m * 2 ^ p + n * 2 ^ q).log2 := by
    rw [Nat.le_log2 (by omega), Nat.pow_add]
    exact Nat.le_trans (Nat.mul_le_mul_right _ nLow) (Nat.le_add_left _ _)
  have logHigh : (m * 2 ^ p + n * 2 ^ q).log2 < 54 + max p q := by
    rw [Nat.log2_lt (by omega), Nat.pow_add]
    have mScaled : m * 2 ^ p ≤ m * 2 ^ max p q :=
      Nat.mul_le_mul_left _ (Nat.pow_le_pow_right (by decide) (Nat.le_max_left p q))
    have nScaled : n * 2 ^ q ≤ n * 2 ^ max p q :=
      Nat.mul_le_mul_left _ (Nat.pow_le_pow_right (by decide) (Nat.le_max_right p q))
    calc m * 2 ^ p + n * 2 ^ q ≤ (m + n) * 2 ^ max p q := by
          rw [Nat.add_mul]
          exact Nat.add_le_add mScaled nScaled
      _ < 2 ^ 54 * 2 ^ max p q := Nat.mul_lt_mul_of_pos_right (by omega) (Nat.two_pow_pos _)
  rw [normalize_natCast positive]
  apply near_round positive
  · omega
  · omega
  · exact normal
  · omega

end Near

/-! ## Whole numbers -/

theorem near_toFloat {w : UInt64} (positive : 0 < w.toNat) :
    Near w.toFloat w.toNat.log2 (w.toNat.log2 + 1) := by
  have bound : w.toNat.log2 < 64 := (Nat.log2_lt (by omega)).2 w.toNat_lt
  change Near (.ofModel (.pack
    (Float.Model.UnpackedFloat.normalize Format.binary64 w.toNat 0 .positive))) _ _
  rw [normalize_natCast positive]
  apply near_round positive <;> omega

theorem near_ofNat {n : Nat} (positive : 0 < n) (bound : n.log2 ≤ 1000) :
    Near (Float.ofNat n) n.log2 (n.log2 + 3) := by
  change Near (Float.ofScientific n false 0) _ _
  rw [Float.ofScientific]
  split
  next small =>
    have word : n.toUInt64.toNat = n :=
      UInt64.toNat_ofNat_of_lt' (Nat.lt_trans small.1 (by decide))
    have whole := near_toFloat (w := n.toUInt64) (by omega)
    rw [word] at whole
    have one : Near Float.exactlyRepresentablePowersOfTen[0] 0 0 := .of_binade (by decide)
    have product := whole.mul one (by omega) (by omega)
    exact product.widen (by omega) (by omega)
  next large =>
    have wide : 53 ≤ n.log2 := (Nat.le_log2 (by omega)).2 (by omega)
    have bits : Format.binary64.mantissaBits = 53 := rfl
    have unit : 10 ^ Int.toNat 0 = 1 := rfl
    have log := log2_mul_two_pow positive 53
    have scaled : 0 < n * 2 ^ 53 := Nat.mul_pos positive (Nat.two_pow_pos 53)
    have held : 2 ^ 52 ≤ n * 2 ^ 53 := by omega
    change Near (.ofModel (.pack (Float.Model.UnpackedFloat.ofScientific Format.binary64 n 0))) _ _
    rw [Float.Model.UnpackedFloat.ofScientific, dif_neg (by omega), if_neg (by decide),
      if_neg (by change ¬(0 : Int) < -((2 ^ 11 : Int) + n.log2); omega), if_pos (by decide)]
    simp only [Float.Model.UnpackedFloat.mul, bits, unit, Nat.mul_one, Nat.shiftLeft_eq]
    apply near_roundWithAccuracy _ held
    · omega
    · omega
    · omega
    · omega

/-! ## Zero -/

theorem ofNat_zero : Float.ofNat 0 = .ofModel (.pack (.zero .positive)) := by decide

theorem unpack_zero : (Float.Model.pack (.zero .positive)).unpack = .zero .positive := rfl

theorem ofNat_zero_div {y : Float} {k : Int} (binade : Binade y k) :
    Float.ofNat 0 / y = Float.ofNat 0 := by
  obtain ⟨n, positive, low, high, rfl⟩ := binade.eq_pack
  rw [ofNat_zero]
  change Float.ofModel (.pack (Float.Model.UnpackedFloat.div Format.binary64
    (Float.Model.pack _).unpack (Float.Model.pack _).unpack)) = _
  rw [unpack_zero, unpack_pack positive low high binade.low binade.high]
  rfl

theorem ofNat_zero_mul {y : Float} {k : Int} (binade : Binade y k) :
    Float.ofNat 0 * y = Float.ofNat 0 := by
  obtain ⟨n, positive, low, high, rfl⟩ := binade.eq_pack
  rw [ofNat_zero]
  change Float.ofModel (.pack (Float.Model.UnpackedFloat.mul Format.binary64
    (Float.Model.pack _).unpack (Float.Model.pack _).unpack)) = _
  rw [unpack_zero, unpack_pack positive low high binade.low binade.high]
  rfl

theorem ofNat_zero_add {y : Float} {k : Int} (binade : Binade y k) : Float.ofNat 0 + y = y := by
  obtain ⟨n, positive, low, high, rfl⟩ := binade.eq_pack
  rw [ofNat_zero]
  change Float.ofModel (.pack (Float.Model.UnpackedFloat.add Format.binary64
    (Float.Model.pack _).unpack (Float.Model.pack _).unpack)) = _
  rw [unpack_zero, unpack_pack positive low high binade.low binade.high]
  rfl

theorem sub_toFloat_zero {y : Float} {k : Int} (binade : Binade y k) {w : UInt64}
    (zero : w.toNat = 0) : y - w.toFloat = y := by
  obtain ⟨n, positive, low, high, rfl⟩ := binade.eq_pack
  have word : w = 0 := UInt64.toNat_inj.1 zero
  rw [word]
  change Float.ofModel (.pack (Float.Model.UnpackedFloat.sub Format.binary64
    (Float.Model.pack _).unpack (Float.Model.pack (.zero .positive)).unpack)) = _
  rw [unpack_zero, unpack_pack positive low high binade.low binade.high]
  rfl

/-! ## The nearest whole number -/

theorem abs_eq_self {x : Float} {k : Int} (binade : Binade x k) : x.abs = x := by
  obtain ⟨n, positive, low, high, rfl⟩ := binade.eq_pack
  change Float.ofModel (.pack (Float.Model.UnpackedFloat.abs (Float.Model.pack _).unpack)) = _
  rw [unpack_pack positive low high binade.low binade.high]
  rfl

/-- The whole part of a number below the limit is its mantissa without the bits after the point. -/
theorem toNat_toUInt64 {m : Nat} {k : Int} (positive : 0 < m) (low : 2 ^ 52 ≤ m) (high : m < 2 ^ 53)
    (kLow : -1022 ≤ k) (kHigh : k < 52) :
    (Float.ofModel (.pack (.finite .positive m (k - 52) positive))).toUInt64.toNat =
      m / 2 ^ (52 - k).toNat := by
  change (UInt64.ofNatClamp ((Float.Model.pack _).unpack.toInt 0 _).toNat).toNat = _
  rw [unpack_pack positive low high kLow (by omega)]
  have none : (k - 52 - 0).toNat = 0 := by omega
  have shift : (0 - (k - 52 - ((0 : Nat) : Int))).toNat = (52 - k).toNat := by omega
  simp only [toInt, roundToInt, decreaseExponent, shiftToExponent, none, shift, Sign.apply,
    mantissa_shiftRight, mantissa_ofMantissaAndAccuracy, Int.toNat_natCast, Nat.shiftLeft_zero]
  have small : m / 2 ^ (52 - k).toNat < UInt64.size := by
    have less := Nat.div_le_self m (2 ^ (52 - k).toNat)
    change _ < 18446744073709551616
    omega
  rw [UInt64.ofNatClamp, dif_pos small]
  rfl

theorem binade_exactBound : Binade exactBound 52 := by decide

theorem binade_half : Binade 0.5 (-1) := by decide

/-- What is at least one half rounds to at least one. -/
theorem near_roundHalfAway {x : Float} {low high : Int} (near : Near x low high)
    (reaches : -1 ≤ low) : Near (roundHalfAway x) 0 (max high 53) := by
  obtain ⟨k, binade, above, below⟩ := near
  rw [roundHalfAway]
  simp only [abs_eq_self binade, binade.isNegative]
  by_cases large : 52 ≤ k
  · rw [binade.not_less binade_exactBound (by decide) large]
    exact ⟨k, binade, by omega, by omega⟩
  · rw [binade.less_of_lt binade_exactBound (by omega)]
    obtain ⟨m, positive, mLow, mHigh, same⟩ := binade.eq_pack
    have whole : x.toUInt64.toNat = m / 2 ^ (52 - k).toNat := by
      rw [same]
      exact toNat_toUInt64 positive mLow mHigh binade.low (by omega)
    have small : x.toUInt64.toNat < 2 ^ 52 := by
      rw [whole, Nat.div_lt_iff_lt_mul (Nat.two_pow_pos _), ← Nat.pow_add]
      exact Nat.lt_of_lt_of_le mHigh (Nat.pow_le_pow_right (by decide) (by omega))
    have next : (x.toUInt64 + 1).toNat = x.toUInt64.toNat + 1 := by
      rw [UInt64.toNat_add]
      change (x.toUInt64.toNat + 1) % 2 ^ 64 = _
      omega
    have upper := near_toFloat (w := x.toUInt64 + 1) (by omega)
    have upperLog : (x.toUInt64.toNat + 1).log2 < 53 := (Nat.log2_lt (by omega)).2 (by omega)
    rw [next] at upper
    by_cases empty : x.toUInt64.toNat = 0
    · have start : k = -1 := by
        rw [whole] at empty
        by_contra later
        have divisor : 2 ^ (52 - k).toNat ≤ 2 ^ 52 := Nat.pow_le_pow_right (by decide) (by omega)
        have one : 1 ≤ m / 2 ^ (52 - k).toNat :=
          (Nat.one_le_div_iff (Nat.two_pow_pos _)).2 (Nat.le_trans divisor mLow)
        omega
      rw [sub_toFloat_zero binade empty, binade.not_less binade_half (by decide) (by omega)]
      exact upper.widen (by omega) (by omega)
    · have lower := near_toFloat (w := x.toUInt64) (by omega)
      have lowerLog : x.toUInt64.toNat.log2 < 52 := (Nat.log2_lt empty).2 small
      cases less (x - x.toUInt64.toFloat) 0.5 with
      | true => exact lower.widen (by omega) (by omega)
      | false => exact upper.widen (by omega) (by omega)

end Tape.Binary64
