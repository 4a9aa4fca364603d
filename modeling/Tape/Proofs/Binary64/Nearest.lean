import Tape.Json.Number
import Tape.Proofs.Binary64.Vanishing

/-!
# Nearest numbers

Whole numbers below `2 ^ 53` and the powers of ten up to `10 ^ 22` are binary64 numbers. One product
or one quotient of such numbers is therefore the number nearest to the exact product or quotient: it
is off by half a unit of its last place at most.
-/

namespace Tape.Binary64

open Float.Model (Format)
open Float.Model.UnpackedFloat

/-- The number with a given whole value. -/
def IsWhole (x : Float) (n : Nat) : Prop :=
  ∃ (m : Nat) (positive : 0 < m), 2 ^ 52 ≤ m ∧ m < 2 ^ 53 ∧
    x = .ofModel (.pack (.finite .positive m ((n.log2 : Int) - 52) positive)) ∧
    (m : ℚ) * 2 ^ ((n.log2 : Int) - 52) = n

/-- A normal number that is off an exact value by half a unit of its last place at most. -/
def Rounds (x : Float) (v : ℚ) : Prop :=
  ∃ (m : Nat) (e : Int) (positive : 0 < m), 2 ^ 52 ≤ m ∧ Fits m e ∧ e ≤ 971 ∧
    x = .ofModel (.pack (.finite .positive m e positive)) ∧ |(m : ℚ) * 2 ^ e - v| ≤ 2 ^ (e - 1)

/-! ## Whole numbers -/

/-- Zero bits are cut off without a trace. -/
theorem ofMantissaAndAccuracy_shiftRight (m n : Nat) :
    ExtendedMantissa.ofMantissaAndAccuracy (m * 2 ^ n) .exact >>> n = ⟨m, false, false⟩ := by
  induction n generalizing m with
  | zero =>
      rw [pow_zero, mul_one]
      rfl
  | succ n ih =>
      have twice : m * 2 ^ (n + 1) = 2 * m * 2 ^ n := by ring
      have last : ⟨2 * m, false, false⟩ = ExtendedMantissa.mk (2 * m) false false := rfl
      change (ExtendedMantissa.ofMantissaAndAccuracy (m * 2 ^ (n + 1)) .exact >>> n).shiftRightOne = _
      rw [twice, ih]
      simp [ExtendedMantissa.shiftRightOne]

/-- A mantissa of the precision with zero bits after it is rounded to itself. -/
theorem roundWithAccuracy_exact {m : Nat} {e : Int} (sign : Sign) (positive : 0 < m)
    (low : 2 ^ 52 ≤ m) (high : m < 2 ^ 53) (least : -1074 ≤ e) (n : Nat) :
    roundWithAccuracy Format.binary64 sign (m * 2 ^ n) e .exact =
      .finite sign m (e + n) positive := by
  have wide : (m * 2 ^ n).log2 - 52 = n := by
    rw [log2_mul_two_pow positive, log2_eq_52 low high]
    omega
  have first := shiftToTargetExponent_eq (m * 2 ^ n) e .exact
  rw [cutBits_of_least _ least, wide, ofMantissaAndAccuracy_shiftRight] at first
  have none : m.log2 - 52 = 0 := by rw [log2_eq_52 low high]
  have second := shiftToTargetExponent_eq m (e + n) .exact
  rw [cutBits_of_least m (by omega), none, Nat.cast_zero, add_zero] at second
  have rounded : ExtendedMantissa.roundedMantissa ⟨m, false, false⟩ = m := rfl
  simp only [roundWithAccuracy, first, rounded, second]
  rw [dif_neg]
  · rfl
  · exact Nat.ne_of_gt positive

theorem isWhole_toFloat {w : UInt64} (positive : 0 < w.toNat) (small : w.toNat < 2 ^ 53) :
    IsWhole w.toFloat w.toNat := by
  obtain ⟨n, same⟩ : ∃ n, n = w.toNat := ⟨_, rfl⟩
  rw [← same] at positive small ⊢
  have log : n.log2 < 53 := (Nat.log2_lt (by omega)).2 small
  have filled := log2_mul_two_pow positive (52 - n.log2)
  have scaled : 0 < n * 2 ^ (52 - n.log2) := Nat.mul_pos positive (Nat.two_pow_pos _)
  have low : 2 ^ 52 ≤ n * 2 ^ (52 - n.log2) := (Nat.le_log2 (by omega)).1 (by omega)
  have high : n * 2 ^ (52 - n.log2) < 2 ^ 53 := (Nat.log2_lt (by omega)).1 (by omega)
  refine ⟨n * 2 ^ (52 - n.log2), scaled, low, high, ?_, ?_⟩
  · have exact' := roundWithAccuracy_exact .positive scaled low high (e := n.log2 - 52) (by omega) 0
    rw [pow_zero, mul_one, Nat.cast_zero, add_zero] at exact'
    have target : max ((n.log2 : Int) + 0 - 52) (-1074) = n.log2 - 52 := by omega
    have shift : (0 - ((n.log2 : Int) - 52)).toNat = 52 - n.log2 := by omega
    have moved : (0 : Int) - (52 - n.log2 : Nat) = n.log2 - 52 := by omega
    change Float.ofModel (.pack
      (Float.Model.UnpackedFloat.normalize Format.binary64 (w.toNat : Int) 0 .positive)) = _
    rw [← same, normalize_natCast positive]
    simp only [Float.Model.UnpackedFloat.round, targetExponent_sub, target, decreaseExponent, shift,
      moved, Nat.shiftLeft_eq, exact']
  · have back : ((52 - n.log2 : Nat) : Int) + (n.log2 - 52) = 0 := by omega
    rw [Nat.cast_mul, Nat.cast_pow, Nat.cast_ofNat, mul_assoc, ← zpow_natCast,
      ← zpow_add₀ (by norm_num), back, zpow_zero, mul_one]

theorem IsWhole.binade {x : Float} {n : Nat} (whole : IsWhole x n) (bound : n.log2 ≤ 1023) :
    Binade x n.log2 := by
  obtain ⟨m, positive, low, high, rfl, _⟩ := whole
  exact binade_pack positive low high (by omega) (by exact_mod_cast bound)

theorem isWhole_of_bits {x : Float} {n : Nat} (binade : Binade x n.log2)
    (value : (2 ^ 52 + x.toBits.toNat % 2 ^ 52) * 2 ^ n.log2 = n * 2 ^ 52) : IsWhole x n := by
  obtain ⟨m, positive, low, high, rfl⟩ := binade.eq_pack
  have bits := toBits_pack positive low high binade.low binade.high
  have mantissa : 2 ^ 52 + (m - 2 ^ 52 + (n.log2 + 1023 : Int).toNat * 2 ^ 52) % 2 ^ 52 = m := by
    omega
  rw [bits, Nat.add_comm (_ * _), mantissa] at value
  have value' : (m : ℚ) * 2 ^ n.log2 = n * 2 ^ 52 := by exact_mod_cast value
  refine ⟨m, positive, low, high, rfl, ?_⟩
  rw [zpow_sub₀ (by norm_num), zpow_natCast, ← mul_div_assoc, value']
  norm_num

/-- The powers of ten that are exact numbers. -/
theorem isWhole_powerOfTen {k : Nat} (small : k ≤ 22) : IsWhole (Json.powerOfTen k) (10 ^ k) := by
  have all : ∀ k < 23, Binade (Json.powerOfTen k) (10 ^ k : Nat).log2 ∧
      (2 ^ 52 + (Json.powerOfTen k).toBits.toNat % 2 ^ 52) * 2 ^ (10 ^ k : Nat).log2 =
        10 ^ k * 2 ^ 52 := by
    decide +kernel
  obtain ⟨binade, value⟩ := all k (by omega)
  exact isWhole_of_bits binade value

/-! ## Products and quotients -/

/-- The largest numbers are beyond `10 ^ 308`. -/
theorem ten_pow_308_lt : (10 : ℚ) ^ 308 < (2 ^ 52 - 1 / 2) * 2 ^ (972 : Int) := by
  have whole : 10 ^ 308 * 2 + 2 ^ 972 < 2 ^ 53 * 2 ^ 972 := by decide +kernel
  have whole' : (10 : ℚ) ^ 308 * 2 + 2 ^ 972 < 2 ^ 53 * 2 ^ 972 := by exact_mod_cast whole
  rw [show (972 : Int) = (972 : Nat) from rfl, zpow_natCast]
  generalize (10 : ℚ) ^ 308 = tens at whole' ⊢
  generalize (2 : ℚ) ^ 972 = unit at whole' ⊢
  linarith

/-- A rounded result that does not exceed `10 ^ 308` is not infinite. -/
theorem rounds_roundWithAccuracy {m : Nat} {e : Int} {accuracy : Accuracy} {v w : ℚ}
    (represents : Represents (ExtendedMantissa.ofMantissaAndAccuracy m accuracy) v)
    (held : 2 ^ 52 ≤ m) (least : -1074 ≤ e) (value : v * 2 ^ e = w) (bound : w ≤ 10 ^ 308) :
    Rounds (.ofModel (.pack (roundWithAccuracy Format.binary64 .positive m e accuracy))) w := by
  obtain ⟨final, j, fits, near, zero, large, rounded⟩ :=
    roundWithAccuracy_eq (e := e) .positive represents
  have low := large least held
  have some : final ≠ 0 := by omega
  rw [dif_neg some] at rounded
  rw [rounded]
  refine ⟨final, j, Nat.pos_of_ne_zero some, low, fits, ?_, rfl, value ▸ near⟩
  by_contra high
  have size : (2 : ℚ) ^ 52 ≤ final := by exact_mod_cast low
  have unit : (2 : ℚ) ^ (972 : Int) ≤ 2 ^ j := zpow_le_zpow_right₀ (by norm_num) (by omega)
  have half : (2 : ℚ) ^ (j - 1) = 2 ^ j / 2 := by rw [zpow_sub_one₀ (by norm_num)]; ring
  have whole : (2 ^ 52 - 1 / 2) * (2 : ℚ) ^ (972 : Int) ≤ (final - 1 / 2) * 2 ^ j :=
    mul_le_mul (by linarith) unit (by positivity) (by linarith)
  have beyond : w < (final - 1 / 2) * 2 ^ j :=
    lt_of_le_of_lt bound (lt_of_lt_of_le ten_pow_308_lt whole)
  rw [value, half, abs_le] at near
  linarith only [near.2, beyond]

/-- A quotient of numbers with all the bits of the precision has them too, when the exponents are
not too far apart. -/
theorem rounds_div {m n : Nat} {d e : Int} (mLow : 2 ^ 52 ≤ m) (mHigh : m < 2 ^ 53)
    (nLow : 2 ^ 52 ≤ n) (nHigh : n < 2 ^ 53) (mPositive : 0 < m) (nPositive : 0 < n)
    (apart : -1021 ≤ d - e) (bound : m * 2 ^ d / (n * 2 ^ e) ≤ (10 : ℚ) ^ 308) :
    Rounds (.ofModel (.pack (Float.Model.UnpackedFloat.div Format.binary64
      (.finite .positive m d mPositive) (.finite .positive n e nPositive))))
        (m * 2 ^ d / (n * 2 ^ e)) := by
  obtain ⟨whole, start, accuracy, v, same, represents, value, unit, quotient⟩ :=
    div_eq_roundWithAccuracy (d := d) (e := e) mPositive nPositive
  rw [log2_eq_52 mLow mHigh, log2_eq_52 nLow nHigh] at unit
  have shift : (d - e - start).toNat = 53 := by omega
  rw [shift] at quotient
  have held : 2 ^ 52 ≤ whole := by
    rw [quotient, Nat.le_div_iff_mul_le nPositive]
    calc 2 ^ 52 * n ≤ m * n := Nat.mul_le_mul_right _ mLow
      _ ≤ m * 2 ^ 53 := Nat.mul_le_mul_left _ (Nat.le_of_lt nHigh)
  rw [same]
  exact rounds_roundWithAccuracy represents held (by omega) value bound

/-- The results of operations on small numbers do not come near the largest numbers. -/
theorem two_zpow_le_ten_pow {e : Int} (small : e ≤ 900) : (2 : ℚ) ^ e ≤ 10 ^ 308 :=
  calc (2 : ℚ) ^ e ≤ 2 ^ (924 : Int) := zpow_le_zpow_right₀ (by norm_num) (by omega)
    _ = (2 ^ 3) ^ 308 := by rw [← pow_mul]; exact zpow_natCast _ _
    _ ≤ 10 ^ 308 := pow_le_pow_left₀ (by norm_num) (by norm_num) _

section Operations

variable {x y : Float} {a b : Nat} (hx : IsWhole x a) (hy : IsWhole y b) (aSmall : a.log2 ≤ 400)
  (bSmall : b.log2 ≤ 400)
include hx hy aSmall bSmall

theorem IsWhole.mul : Rounds (x * y) (a * b) := by
  obtain ⟨m, mPositive, mLow, mHigh, rfl, mValue⟩ := hx
  obtain ⟨n, nPositive, nLow, nHigh, rfl, nValue⟩ := hy
  have held : 2 ^ 52 ≤ m * n :=
    calc 2 ^ 52 ≤ m * 1 := by omega
      _ ≤ m * n := Nat.mul_le_mul_left _ nPositive
  have value : ((m * n : Nat) : ℚ) * 2 ^ ((a.log2 : Int) - 52 + (b.log2 - 52)) = a * b := by
    rw [zpow_add₀ (by norm_num), ← mValue, ← nValue]
    push_cast
    ring
  have bound : (a : ℚ) * b ≤ 10 ^ 308 :=
    calc (a : ℚ) * b ≤ 2 ^ (a.log2 + 1 : Int) * 2 ^ (b.log2 + 1 : Int) :=
          mul_le_mul (lt_two_zpow_log2 a).le (lt_two_zpow_log2 b).le (by positivity) (by positivity)
      _ = 2 ^ ((a.log2 + 1 : Int) + (b.log2 + 1)) := (zpow_add₀ (by norm_num) _ _).symm
      _ ≤ 10 ^ 308 := two_zpow_le_ten_pow (by omega)
  change Rounds (.ofModel (.pack (Float.Model.UnpackedFloat.mul Format.binary64
    (Float.Model.pack _).unpack (Float.Model.pack _).unpack))) _
  rw [unpack_pack mPositive mLow mHigh (by omega) (by omega),
    unpack_pack nPositive nLow nHigh (by omega) (by omega)]
  exact rounds_roundWithAccuracy (represents_exact (m * n)) held (by omega) value bound

theorem IsWhole.div : Rounds (x / y) (a / b) := by
  obtain ⟨m, mPositive, mLow, mHigh, rfl, mValue⟩ := hx
  obtain ⟨n, nPositive, nLow, nHigh, rfl, nValue⟩ := hy
  have positive : (0 : ℚ) < b := by
    rw [← nValue]
    positivity
  have one : (1 : ℚ) ≤ b := by exact_mod_cast positive
  have bound : (a : ℚ) / b ≤ 10 ^ 308 :=
    calc (a : ℚ) / b ≤ a := div_le_self (by positivity) one
      _ ≤ 2 ^ (a.log2 + 1 : Int) := (lt_two_zpow_log2 a).le
      _ ≤ 10 ^ 308 := two_zpow_le_ten_pow (by omega)
  change Rounds (.ofModel (.pack (Float.Model.UnpackedFloat.div Format.binary64
    (Float.Model.pack _).unpack (Float.Model.pack _).unpack))) _
  rw [unpack_pack mPositive mLow mHigh (by omega) (by omega),
    unpack_pack nPositive nLow nHigh (by omega) (by omega)]
  have rounds := rounds_div (d := a.log2 - 52) (e := b.log2 - 52) mLow mHigh nLow nHigh mPositive
    nPositive (by omega)
  rw [mValue, nValue] at rounds
  exact rounds bound

end Operations

/-! ## Conversions -/

theorem isWhole_ofNat {n : Nat} (positive : 0 < n) (small : n < 2 ^ 53) :
    IsWhole (Float.ofNat n) n := by
  change IsWhole (Float.ofScientific n false 0) n
  have word : n.toUInt64.toNat = n := UInt64.toNat_ofNat_of_lt' (Nat.lt_trans small (by decide))
  have whole := isWhole_toFloat (w := n.toUInt64) (by omega) (by omega)
  rw [word] at whole
  obtain ⟨m, mPositive, low, high, same, value⟩ := whole
  have log : n.log2 < 53 := (Nat.log2_lt (by omega)).2 small
  have one : Float.exactlyRepresentablePowersOfTen[0] =
      .ofModel (.pack (.finite .positive (2 ^ 52) (0 - 52) (by decide))) := by decide
  refine ⟨m, mPositive, low, high, ?_, value⟩
  rw [Float.ofScientific, dif_pos ⟨small, by decide⟩]
  change n.toUInt64.toFloat * Float.exactlyRepresentablePowersOfTen[0] = _
  rw [same, one]
  change Float.ofModel (.pack (Float.Model.UnpackedFloat.mul Format.binary64
    (Float.Model.pack _).unpack (Float.Model.pack _).unpack)) = _
  rw [unpack_pack mPositive low high (by omega) (by omega),
    unpack_pack (by decide) (by decide) (by decide) (by decide) (by decide)]
  have exact' := roundWithAccuracy_exact .positive mPositive low high
    (e := (n.log2 : Int) - 52 + (0 - 52)) (by omega) 52
  have back : (n.log2 : Int) - 52 + (0 - 52) + (52 : Nat) = n.log2 - 52 := by omega
  rw [back] at exact'
  exact congrArg (fun u => Float.ofModel (.pack u)) exact'

/-! ## Parts -/

/-- The parts of a number, its sign aside, are within half a unit of an exact value. -/
structure SizeRounds (x : Float) (v : ℚ) : Prop where
  finite : isFinite x = true
  nonzero : magnitude x ≠ 0
  low : 2 ^ 52 ≤ (parts x).mantissa
  high : (parts x).mantissa < 2 ^ 53
  least : -1074 ≤ (parts x).exponent
  near : |((parts x).mantissa : ℚ) * 2 ^ (parts x).exponent - v| ≤ 2 ^ ((parts x).exponent - 1)

theorem Rounds.size {x : Float} {v : ℚ} (rounds : Rounds x v) : SizeRounds x v := by
  obtain ⟨m, e, positive, low, fits, high, rfl, near⟩ := rounds
  have least := fits.least
  have bits := fits.bits
  have size := magnitude_finite .positive positive fits
  rw [if_neg (by omega), if_pos low] at size
  obtain ⟨x, same⟩ : ∃ x, x = Float.ofModel (.pack (.finite .positive m e positive)) := ⟨_, rfl⟩
  rw [← same] at size ⊢
  have field : magnitude x / fractionBound = (e + 1075).toNat := by
    rw [size, fractionBound]
    omega
  have fraction : magnitude x % fractionBound = m - 2 ^ 52 := by
    rw [size, fractionBound]
    omega
  have some : ¬(e + 1075).toNat = 0 := by omega
  have mantissa : (parts x).mantissa = m := by
    simp only [parts, field, fraction, if_neg some]
    simp only [fractionBound]
    omega
  have exponent : (parts x).exponent = e := by
    simp only [parts, field, if_neg some]
    omega
  refine ⟨?_, by omega, ?_, ?_, ?_, ?_⟩
  · rw [isFinite, decide_eq_true_eq, size, infinityMagnitude]
    omega
  · rwa [mantissa]
  · rwa [mantissa]
  · rwa [exponent]
  · rwa [mantissa, exponent]

theorem Rounds.exists_binade {x : Float} {v : ℚ} (rounds : Rounds x v) : ∃ k, Binade x k := by
  obtain ⟨m, e, positive, low, fits, high, rfl, _⟩ := rounds
  have least := fits.least
  obtain ⟨k, rfl⟩ : ∃ k, e = k - 52 := ⟨e + 52, by omega⟩
  exact ⟨k, binade_pack positive low fits.bits (by omega) (by omega)⟩

theorem Rounds.isNegative {x : Float} {v : ℚ} (rounds : Rounds x v) : isNegative x = false := by
  obtain ⟨k, binade⟩ := rounds.exists_binade
  exact binade.isNegative

theorem Rounds.isNegative_neg {x : Float} {v : ℚ} (rounds : Rounds x v) :
    Binary64.isNegative (-x) = true := by
  obtain ⟨k, binade⟩ := rounds.exists_binade
  exact binade.isNegative_neg

theorem SizeRounds.neg {x : Float} {v : ℚ} (rounds : SizeRounds x v) : SizeRounds (-x) v := by
  have same : parts (-x) = parts x := by rw [parts, parts, magnitude_neg]
  have finite := rounds.finite
  refine ⟨?_, ?_, same ▸ rounds.low, same ▸ rounds.high, same ▸ rounds.least, same ▸ rounds.near⟩
  · rw [isFinite, magnitude_neg]
    exact finite
  · rw [magnitude_neg]
    exact rounds.nonzero

end Tape.Binary64
