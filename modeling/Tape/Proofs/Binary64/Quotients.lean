import Tape.Proofs.Binary64.Nearest

/-!
# Quotients by powers of ten

A whole number is divided by a large power of ten in two steps. Each step divides by a rounded power
and rounds the result, which together moves the exact quotient by less than one part in `2 ^ 50`. No
whole number below `2 ^ 53` is so close to the bound that this could change its side, but for four
that are computed. So the rounded quotient vanishes exactly when the exact one does not exceed the
bound.
-/

namespace Tape.Binary64

open Float.Model (Format)
open Float.Model.UnpackedFloat

/-! ## The bound as a quotient -/

theorem div_le_vanishingBound_iff {a b : ℚ} (positive : 0 < b) :
    a / b ≤ vanishingBound ↔ a * (2 ^ 1075 : Nat) ≤ b := by
  have power : vanishingBound = ((2 ^ 1075 : Nat) : ℚ)⁻¹ := by
    rw [vanishingBound, zpow_neg, zpow_ofNat, Nat.cast_pow, Nat.cast_ofNat]
  have unit : 0 < 2 ^ 1075 := by positivity
  rw [power]
  generalize 2 ^ 1075 = c at unit ⊢
  have unit' : (0 : ℚ) < c := by exact_mod_cast unit
  rw [div_le_iff₀ positive, ← div_eq_inv_mul, le_div_iff₀ unit']

/-! ## Exact values -/

/-- A positive number with its exact value. -/
def Holds (x : Float) (u : ℚ) : Prop :=
  ∃ (m : Nat) (e : Int) (positive : 0 < m),
    x.toModel.unpack = .finite .positive m e positive ∧ (m : ℚ) * 2 ^ e = u

namespace Holds

variable {x y : Float} {u w : ℚ}

theorem pos (holds : Holds x u) : 0 < u := by
  obtain ⟨m, e, positive, _, rfl⟩ := holds
  positivity

theorem magnitude_div_eq_zero_iff (hx : Holds x u) (hy : Holds y w) :
    magnitude (x / y) = 0 ↔ u / w ≤ vanishingBound := by
  obtain ⟨m, d, mPositive, first, rfl⟩ := hx
  obtain ⟨n, e, nPositive, second, rfl⟩ := hy
  change magnitude (.ofModel (.pack (Float.Model.UnpackedFloat.div Format.binary64
    x.toModel.unpack y.toModel.unpack))) = 0 ↔ _
  rw [first, second]
  exact Binary64.magnitude_div_eq_zero_iff mPositive nPositive

/-- A quotient of positive numbers that vanishes is the positive zero. -/
theorem div_eq_zero (hx : Holds x u) (hy : Holds y w) (vanishes : magnitude (x / y) = 0) :
    x / y = Float.ofNat 0 := by
  obtain ⟨m, d, mPositive, first, _⟩ := hx
  obtain ⟨n, e, nPositive, second, _⟩ := hy
  have quotient : x / y = .ofModel (.pack (Float.Model.UnpackedFloat.div Format.binary64
      (.finite .positive m d mPositive) (.finite .positive n e nPositive))) := by
    rw [← first, ← second]
    rfl
  obtain ⟨whole, start, accuracy, v, same, represents, _⟩ :=
    div_eq_roundWithAccuracy (d := d) (e := e) mPositive nPositive
  obtain ⟨final, j, fits, _, _, _, rounded⟩ :=
    roundWithAccuracy_eq (e := start) .positive represents
  rw [quotient, same, rounded] at vanishes ⊢
  by_cases none : final = 0
  · rw [dif_pos none, ofNat_zero]
  · rw [dif_neg none] at vanishes
    exact absurd vanishes (Nat.ne_of_gt (magnitude_finite_pos .positive _ fits))

/-- A product of positive numbers vanishes only when the exact one does not exceed the bound. -/
theorem mul_le_of_magnitude_eq_zero (hx : Holds x u) (hy : Holds y w)
    (vanishes : magnitude (x * y) = 0) : u * w ≤ vanishingBound := by
  obtain ⟨m, d, mPositive, first, rfl⟩ := hx
  obtain ⟨n, e, nPositive, second, rfl⟩ := hy
  change magnitude (.ofModel (.pack (Float.Model.UnpackedFloat.mul Format.binary64
    x.toModel.unpack y.toModel.unpack))) = 0 at vanishes
  rw [first, second] at vanishes
  have positive : 0 < m * n := Nat.mul_pos mPositive nPositive
  change magnitude (.ofModel (.pack (roundWithAccuracy Format.binary64 .positive
    (m * n) (d + e) .exact))) = 0 at vanishes
  have product : (m : ℚ) * 2 ^ d * (n * 2 ^ e) = (m * n : Nat) * 2 ^ (d + e) := by
    rw [zpow_add₀ (by norm_num)]
    push_cast
    ring
  rcases lt_or_ge (d + e) (-1074) with small | least
  · rw [magnitude_roundWithAccuracy_eq_zero_iff .positive (represents_exact (m * n)),
      min_eq_left small.le] at vanishes
    rwa [product]
  · exact absurd vanishes (magnitude_roundWithAccuracy_exact_ne_zero .positive positive least)

end Holds

/-- The most that rounding a normal number moves it, in parts of the result. -/
def roundingUnit : ℚ := 2 ^ (-53 : Int)

theorem roundingUnit_eq : roundingUnit = 1 / 2 ^ 53 := by
  rw [roundingUnit]
  norm_num

/-- A value and what it is rounded to are within a factor of two. -/
theorem le_two_mul_of_near {w t : ℚ} (positive : 0 < w) (near : |w - t| ≤ w * roundingUnit) :
    w ≤ 2 * t ∧ t ≤ 2 * w := by
  rw [abs_le, roundingUnit_eq] at near
  exact ⟨by linarith, by linarith⟩

theorem holds_pack {m : Nat} {e : Int} (positive : 0 < m) (low : 2 ^ 52 ≤ m) (high : m < 2 ^ 53)
    (least : -1074 ≤ e) (most : e ≤ 971) :
    Holds (.ofModel (.pack (.finite .positive m e positive))) (m * 2 ^ e) := by
  obtain ⟨k, rfl⟩ : ∃ k, e = k - 52 := ⟨e + 52, by omega⟩
  exact ⟨m, k - 52, positive, unpack_pack positive low high (by omega) (by omega), rfl⟩

theorem half_unit_le {m : Nat} (low : 2 ^ 52 ≤ m) (e : Int) :
    (2 : ℚ) ^ (e - 1) ≤ m * 2 ^ e * roundingUnit := by
  have size : (2 : ℚ) ^ (52 : Int) ≤ m := by exact_mod_cast low
  calc (2 : ℚ) ^ (e - 1) = 2 ^ (52 : Int) * 2 ^ e * roundingUnit := by
        rw [roundingUnit, ← zpow_add₀ (by norm_num), ← zpow_add₀ (by norm_num)]
        congr 1
        omega
    _ ≤ m * 2 ^ e * roundingUnit := by
        rw [roundingUnit]
        gcongr

theorem Rounds.exists_holds {x : Float} {v : ℚ} (rounds : Rounds x v) :
    ∃ u, Holds x u ∧ |u - v| ≤ u * roundingUnit := by
  obtain ⟨m, e, positive, low, fits, most, rfl, near⟩ := rounds
  exact ⟨_, holds_pack positive low fits.bits fits.least most, near.trans (half_unit_le low e)⟩

namespace IsWhole

variable {x : Float} {n : Nat} (whole : IsWhole x n) (bound : n.log2 ≤ 1023)
include whole bound

theorem holds : Holds x n := by
  obtain ⟨m, positive, low, high, rfl, value⟩ := whole
  rw [← value]
  exact holds_pack positive low high (by omega) (by omega)

theorem rounds : Rounds x n := by
  obtain ⟨m, positive, low, high, rfl, value⟩ := whole
  refine ⟨m, _, positive, low, ⟨high, by omega⟩, by omega, rfl, ?_⟩
  rw [value, sub_self, abs_zero]
  positivity

end IsWhole

/-! ## Powers of ten -/

/-- A power of ten is rounded once. -/
theorem rounds_powerOfTen {k : Nat} (small : k ≤ 308) : Rounds (Json.powerOfTen k) (10 ^ k) := by
  by_cases exact' : k ≤ 22
  · have log := log2_ten_pow_lt exact'
    have rounds := (isWhole_powerOfTen exact').rounds (by omega)
    exact_mod_cast rounds
  · have held : 2 ^ 52 ≤ 1 <<< Format.binary64.mantissaBits * 10 ^ (k : Int).toNat :=
      calc 2 ^ 52 ≤ 1 <<< 53 * 1 := by decide
        _ ≤ 1 <<< 53 * 10 ^ k := Nat.mul_le_mul_left _ (Nat.one_le_pow _ _ (by decide))
    change Rounds (Float.ofScientific 1 false k) _
    rw [Float.ofScientific, dif_neg (by omega)]
    change Rounds (.ofModel (.pack
      (Float.Model.UnpackedFloat.ofScientific Format.binary64 1 (k : Int)))) _
    rw [Float.Model.UnpackedFloat.ofScientific, dif_neg (by decide),
      if_neg (by change ¬(2 ^ 11 : Int) < k; omega),
      if_neg (by change ¬(k : Int) < -((2 ^ 11 : Int) + (1 : Nat).log2); omega),
      if_pos (by omega)]
    refine rounds_roundWithAccuracy (represents_exact _) held (by decide) ?_
      (pow_le_pow_right₀ (by norm_num) small)
    change ((1 <<< 53 * 10 ^ k : Nat) : ℚ) * 2 ^ (-53 + 0 : Int) = 10 ^ k
    rw [Nat.shiftLeft_eq, Nat.cast_mul, Nat.cast_pow, mul_right_comm]
    norm_num

theorem exists_holds_powerOfTen {k : Nat} (small : k ≤ 308) :
    ∃ w, Holds (Json.powerOfTen k) w ∧ |w - 10 ^ k| ≤ w * roundingUnit :=
  (rounds_powerOfTen small).exists_holds

/-! ## Quotients -/

/-- A value that is off a quotient by a rounding, and the divisor off its own exact value. -/
theorem abs_mul_sub_le {u w t m : ℚ} (uPositive : 0 < u) (wPositive : 0 < w)
    (quotient : |u - m / w| ≤ u * roundingUnit) (divisor : |w - t| ≤ w * roundingUnit) :
    |u * t - m| ≤ u * t * (4 * roundingUnit) := by
  have least := (le_two_mul_of_near wPositive divisor).1
  have first : |u * w - m| ≤ u * w * roundingUnit :=
    calc |u * w - m| = |u - m / w| * w := by
          rw [← abs_of_pos wPositive, ← abs_mul, abs_of_pos wPositive, sub_mul,
            div_mul_cancel₀ _ (ne_of_gt wPositive)]
      _ ≤ u * roundingUnit * w := mul_le_mul_of_nonneg_right quotient wPositive.le
      _ = u * w * roundingUnit := by ring
  have second : |u * t - u * w| ≤ u * w * roundingUnit :=
    calc |u * t - u * w| = u * |w - t| := by
          rw [← mul_sub, abs_mul, abs_of_pos uPositive, abs_sub_comm]
      _ ≤ u * (w * roundingUnit) := mul_le_mul_of_nonneg_left divisor uPositive.le
      _ = u * w * roundingUnit := by ring
  calc |u * t - m| ≤ |u * t - u * w| + |u * w - m| := abs_sub_le _ _ _
    _ ≤ u * w * roundingUnit + u * w * roundingUnit := add_le_add second first
    _ = u * roundingUnit * (2 * w) := by ring
    _ ≤ u * roundingUnit * (2 * (2 * t)) := by
        rw [roundingUnit_eq]
        gcongr
    _ = u * t * (4 * roundingUnit) := by ring

/-- How far a number of the smallest units is off a whole number over the largest power of ten. -/
theorem abs_subnormal_sub_le {m n : Nat}
    (above : n * 10 ^ 308 * 2 ^ 51 ≤ m * 2 ^ 1074 * 2 ^ 51 + n * 10 ^ 308)
    (below : m * 2 ^ 1074 * 2 ^ 51 ≤ n * 10 ^ 308 * 2 ^ 51 + n * 10 ^ 308) :
    |(n : ℚ) * 2 ^ (-1074 : Int) * 10 ^ 308 - m| ≤
      n * 2 ^ (-1074 : Int) * 10 ^ 308 * (4 * roundingUnit) := by
  have unit : 4 * roundingUnit = 1 / 2 ^ 51 := by
    rw [roundingUnit_eq]
    norm_num
  have tens : (10 : ℚ) ^ 308 = (10 ^ 308 : Nat) := by rw [Nat.cast_pow, Nat.cast_ofNat]
  have power : (2 : ℚ) ^ (-1074 : Int) = ((2 ^ 1074 : Nat) : ℚ)⁻¹ := by
    rw [zpow_neg, zpow_ofNat, Nat.cast_pow, Nat.cast_ofNat]
  have positive : 0 < 2 ^ 1074 := by positivity
  rw [unit, power, tens]
  generalize 2 ^ 1074 = b at above below positive ⊢
  generalize 10 ^ 308 = t at above below ⊢
  have above' : (n : ℚ) * t * 2 ^ 51 ≤ m * b * 2 ^ 51 + n * t := by exact_mod_cast above
  have below' : (m : ℚ) * b * 2 ^ 51 ≤ n * t * 2 ^ 51 + n * t := by exact_mod_cast below
  have scale : (0 : ℚ) < b := by exact_mod_cast positive
  obtain ⟨q, same⟩ : ∃ q : ℚ, q = n * (b : ℚ)⁻¹ * t := ⟨_, rfl⟩
  have back : (n : ℚ) * t = q * b := by
    rw [same]
    field_simp
  rw [back] at above' below'
  have least : q * 2 ^ 51 ≤ m * 2 ^ 51 + q := le_of_mul_le_mul_right (by linarith) scale
  have most : (m : ℚ) * 2 ^ 51 ≤ q * 2 ^ 51 + q := le_of_mul_le_mul_right (by linarith) scale
  rw [← same, abs_le]
  exact ⟨by linarith, by linarith⟩

/-- A whole number divided by the largest power of ten, whether the quotient is normal or not. -/
theorem exists_holds_div_largest {m : Nat} (positive : 0 < m) (small : m < 2 ^ 53) :
    ∃ u, Holds (Float.ofNat m / Json.powerOfTen 308) u ∧
      |u * 10 ^ 308 - m| ≤ u * 10 ^ 308 * (4 * roundingUnit) := by
  by_cases few : m < 4
  · have bits {n : Nat} (some : 0 < n)
        (same : Float.ofNat m / Json.powerOfTen 308 = .ofBits (.ofNat n))
        (unpacked : (Float.ofBits (.ofNat n)).toModel.unpack = .finite .positive n (-1074) some) :
        Holds (Float.ofNat m / Json.powerOfTen 308) (n * 2 ^ (-1074 : Int)) :=
      ⟨n, -1074, some, by rw [same, unpacked], rfl⟩
    interval_cases m
    · exact ⟨_, bits (n := 2024022533073106) (by decide) (by decide +kernel) rfl,
        abs_subnormal_sub_le (by decide +kernel) (by decide +kernel)⟩
    · exact ⟨_, bits (n := 4048045066146212) (by decide) (by decide +kernel) rfl,
        abs_subnormal_sub_le (by decide +kernel) (by decide +kernel)⟩
    · exact ⟨_, bits (n := 6072067599219318) (by decide) (by decide +kernel) rfl,
        abs_subnormal_sub_le (by decide +kernel) (by decide +kernel)⟩
  · have log : 2 ≤ m.log2 := (Nat.le_log2 (by omega)).2 (by omega)
    have logHigh : m.log2 < 53 := (Nat.log2_lt (by omega)).2 small
    obtain ⟨a, aPositive, aLow, aHigh, number, value⟩ := isWhole_ofNat positive small
    obtain ⟨b, e, bPositive, bLow, fits, most, power, near⟩ := rounds_powerOfTen (le_refl 308)
    have divisor : |(b : ℚ) * 2 ^ e - 10 ^ 308| ≤ b * 2 ^ e * roundingUnit :=
      near.trans (half_unit_le bLow e)
    have one : (1 : ℚ) ≤ b * 2 ^ e := by
      have tens : (10 : ℚ) ^ 1 ≤ 10 ^ 308 := pow_le_pow_right₀ (by norm_num) (by decide)
      have most := (le_two_mul_of_near (by positivity) divisor).2
      generalize (10 : ℚ) ^ 308 = t at tens most
      linarith
    have bound : (m : ℚ) / (b * 2 ^ e) ≤ 10 ^ 308 :=
      calc (m : ℚ) / (b * 2 ^ e) ≤ m := div_le_self (by positivity) one
        _ ≤ 2 ^ (m.log2 + 1 : Int) := (lt_two_zpow_log2 m).le
        _ ≤ 10 ^ 308 := two_zpow_le_ten_pow (by omega)
    have quotient : Rounds (Float.ofNat m / Json.powerOfTen 308) (m / (b * 2 ^ e)) := by
      have least := fits.least
      obtain ⟨k, rfl⟩ : ∃ k, e = k - 52 := ⟨e + 52, by omega⟩
      rw [number, power]
      change Rounds (.ofModel (.pack (Float.Model.UnpackedFloat.div Format.binary64
        (Float.Model.pack _).unpack (Float.Model.pack _).unpack))) _
      rw [unpack_pack aPositive aLow aHigh (by omega) (by omega),
        unpack_pack bPositive bLow fits.bits (by omega) (by omega), ← value]
      rw [← value] at bound
      exact rounds_div aLow aHigh bLow fits.bits aPositive bPositive (by omega) bound
    obtain ⟨u, holds, off⟩ := quotient.exists_holds
    exact ⟨u, holds, abs_mul_sub_le holds.pos (by positivity) off divisor⟩

/-- Two values that are off by roundings have a quotient between those of their exact values. -/
theorem div_between {u w t m : ℚ} (uPositive : 0 < u) (wPositive : 0 < w)
    (number : |u - m| ≤ u * (4 * roundingUnit)) (divisor : |w - t| ≤ w * roundingUnit) :
    m * (2 ^ 50 - 1) * w ≤ 2 ^ 50 * t * u ∧ 2 ^ 50 * t * u ≤ m * (2 ^ 50 + 1) * w := by
  rw [abs_le, roundingUnit_eq] at number divisor
  constructor
  · calc m * (2 ^ 50 - 1) * w ≤ u * (1 + 1 / 2 ^ 51) * (2 ^ 50 - 1) * w := by
          have most : m ≤ u * (1 + 1 / 2 ^ 51) := by linarith
          gcongr
      _ = (1 + 1 / 2 ^ 51) * (2 ^ 50 - 1) * (u * w) := by ring
      _ ≤ 2 ^ 50 * (1 - 1 / 2 ^ 53) * (u * w) := by
          gcongr ?_ * _
          norm_num
      _ = 2 ^ 50 * (w * (1 - 1 / 2 ^ 53)) * u := by ring
      _ ≤ 2 ^ 50 * t * u := by
          have least : w * (1 - 1 / 2 ^ 53) ≤ t := by linarith
          gcongr
  · calc 2 ^ 50 * t * u ≤ 2 ^ 50 * (w * (1 + 1 / 2 ^ 53)) * u := by
          have most : t ≤ w * (1 + 1 / 2 ^ 53) := by linarith
          gcongr
      _ = 2 ^ 50 * (1 + 1 / 2 ^ 53) * (u * w) := by ring
      _ ≤ (1 - 1 / 2 ^ 51) * (2 ^ 50 + 1) * (u * w) := by
          gcongr ?_ * _
          norm_num
      _ = u * (1 - 1 / 2 ^ 51) * (2 ^ 50 + 1) * w := by ring
      _ ≤ m * (2 ^ 50 + 1) * w := by
          have least : u * (1 - 1 / 2 ^ 51) ≤ m := by linarith
          gcongr

/-! ## The bound -/

/-- The quotient of a whole number by `10 ^ k`, taken in two steps. -/
def largeQuotient (m k : Nat) : Float :=
  Float.ofNat m / Json.powerOfTen 308 / Json.powerOfTen (k - 308)

/-- A whole number over `10 ^ k` does not exceed the bound, not even with one part in `2 ^ 50`
more. -/
def FarBelow (m k : Nat) : Prop := m * (2 ^ 50 + 1) * 2 ^ 1075 ≤ 2 ^ 50 * 10 ^ k

/-- It exceeds the bound, also with one part in `2 ^ 50` less. -/
def FarAbove (m k : Nat) : Prop := 2 ^ 50 * 10 ^ k + m * 2 ^ 1075 < m * 2 ^ 50 * 2 ^ 1075

instance (m k : Nat) : Decidable (FarBelow m k) := inferInstanceAs (Decidable (_ ≤ _))

instance (m k : Nat) : Decidable (FarAbove m k) := inferInstanceAs (Decidable (_ < _))

theorem FarBelow.mono {m n k l : Nat} (below : FarBelow n k) (less : m ≤ n) (more : k ≤ l) :
    FarBelow m l :=
  calc m * (2 ^ 50 + 1) * 2 ^ 1075 ≤ n * (2 ^ 50 + 1) * 2 ^ 1075 :=
        Nat.mul_le_mul_right _ (Nat.mul_le_mul_right _ less)
    _ ≤ 2 ^ 50 * 10 ^ k := below
    _ ≤ 2 ^ 50 * 10 ^ l := Nat.mul_le_mul_left _ (Nat.pow_le_pow_right (by decide) more)

theorem FarAbove.mono {m n k : Nat} (above : FarAbove m k) (more : m ≤ n) : FarAbove n k := by
  obtain ⟨r, rfl⟩ := Nat.exists_eq_add_of_le more
  rw [FarAbove] at above ⊢
  have rest : r * 2 ^ 1075 ≤ r * 2 ^ 50 * 2 ^ 1075 :=
    Nat.mul_le_mul_right _ (Nat.le_mul_of_pos_right r (by decide))
  simp only [Nat.add_mul]
  generalize 2 ^ 1075 = b at above rest ⊢
  omega

theorem magnitude_largeQuotient_of_far {m k : Nat} (far : FarBelow m k ∨ FarAbove m k)
    (positive : 0 < m) (small : m < 2 ^ 53) (low : 308 ≤ k) (high : k ≤ 616) :
    magnitude (largeQuotient m k) = 0 ↔ m * 2 ^ 1075 ≤ 10 ^ k := by
  obtain ⟨u, number, off⟩ := exists_holds_div_largest positive small
  obtain ⟨w, divisor, off'⟩ := exists_holds_powerOfTen (k := k - 308) (by omega)
  have uPositive := number.pos
  have wPositive := divisor.pos
  have scale : (10 : ℚ) ^ (k - 308) * (u * 10 ^ 308) = (10 ^ k : Nat) * u := by
    rw [mul_left_comm, ← pow_add, Nat.sub_add_cancel low, Nat.cast_pow, Nat.cast_ofNat, mul_comm]
  have between := div_between (mul_pos uPositive (by positivity)) wPositive off off'
  rw [mul_assoc (2 ^ 50), scale] at between
  have unit : 0 < 2 ^ 1075 := by positivity
  have tens : 0 < 10 ^ k := Nat.pow_pos (by decide)
  rw [largeQuotient, number.magnitude_div_eq_zero_iff divisor, div_le_vanishingBound_iff wPositive]
  rw [FarBelow, FarAbove] at far
  generalize 2 ^ 1075 = b at far unit ⊢
  generalize 10 ^ k = t at far between tens ⊢
  have unit' : (0 : ℚ) < b := by exact_mod_cast unit
  have tens' : (0 : ℚ) < t := by exact_mod_cast tens
  rcases far with below | above
  · have below' : (m : ℚ) * (2 ^ 50 + 1) * b ≤ 2 ^ 50 * t := by exact_mod_cast below
    refine iff_of_true ?_ ?_
    · refine le_of_mul_le_mul_left ?_ (by positivity : (0 : ℚ) < 2 ^ 50 * t)
      calc 2 ^ 50 * (t : ℚ) * (u * b) = 2 ^ 50 * (t * u) * b := by ring
        _ ≤ m * (2 ^ 50 + 1) * w * b := mul_le_mul_of_nonneg_right between.2 unit'.le
        _ = m * (2 ^ 50 + 1) * b * w := by ring
        _ ≤ 2 ^ 50 * t * w := mul_le_mul_of_nonneg_right below' wPositive.le
    · nlinarith
  · have above' : 2 ^ 50 * (t : ℚ) + m * b < m * 2 ^ 50 * b := by exact_mod_cast above
    refine iff_of_false (not_le.2 ?_) (not_le.2 ?_)
    · refine lt_of_mul_lt_mul_left ?_ (by positivity : (0 : ℚ) ≤ 2 ^ 50 * t)
      calc 2 ^ 50 * (t : ℚ) * w < (m * 2 ^ 50 * b - m * b) * w :=
            mul_lt_mul_of_pos_right (by linarith) wPositive
        _ = m * (2 ^ 50 - 1) * w * b := by ring
        _ ≤ 2 ^ 50 * (t * u) * b := mul_le_mul_of_nonneg_right between.1 unit'.le
        _ = 2 ^ 50 * t * (u * b) := by ring
    · nlinarith

/-- Only four whole numbers below `2 ^ 53` are close to the bound, over one power of ten. -/
theorem far_or_close {m : Nat} (small : m < 2 ^ 53) (k : Nat) :
    (FarBelow m k ∨ FarAbove m k) ∨ k = 339 ∧ ∃ i < 4, m = 2470328229206231 + i := by
  rcases Nat.lt_trichotomy k 339 with less | rfl | more
  · have sides : ∀ k < 339,
        FarBelow (10 ^ k / 2 ^ 1075) k ∧ FarAbove (10 ^ k / 2 ^ 1075 + 1) k := by
      decide +kernel
    obtain ⟨below, above⟩ := sides k less
    rcases Nat.lt_or_ge (10 ^ k / 2 ^ 1075) m with after | before
    · exact .inl (.inr (above.mono after))
    · exact .inl (.inl (below.mono before (le_refl k)))
  · rcases Nat.lt_or_ge m 2470328229206231 with before | after
    · have below : FarBelow 2470328229206230 339 := by decide +kernel
      exact .inl (.inl (below.mono (by omega) (le_refl _)))
    · rcases Nat.lt_or_ge m 2470328229206235 with close | after
      · exact .inr ⟨rfl, m - 2470328229206231, by omega, by omega⟩
      · have above : FarAbove 2470328229206235 339 := by decide +kernel
        exact .inl (.inr (above.mono after))
  · have below : FarBelow (2 ^ 53) 340 := by decide +kernel
    exact .inl (.inl (below.mono (le_of_lt small) more))

theorem magnitude_largeQuotient_of_close : ∀ i < 4,
    magnitude (largeQuotient (2470328229206231 + i) 339) = 0 ↔
      (2470328229206231 + i) * 2 ^ 1075 ≤ 10 ^ 339 := by
  decide +kernel

/-- The quotient in two steps vanishes exactly when the exact one does not exceed the bound. -/
theorem magnitude_largeQuotient_eq_zero_iff {m k : Nat} (positive : 0 < m) (small : m < 2 ^ 53)
    (low : 308 ≤ k) (high : k ≤ 616) :
    magnitude (largeQuotient m k) = 0 ↔ m * 2 ^ 1075 ≤ 10 ^ k := by
  rcases far_or_close small k with far | ⟨rfl, i, held, rfl⟩
  · exact magnitude_largeQuotient_of_far far positive small low high
  · exact magnitude_largeQuotient_of_close i held

end Tape.Binary64
