import Tape.Proofs.Binary64.Quotients
import Tape.Proofs.Json.Literals

/-!
# Number literals that vanish

A number literal is its digits, taken by a power of ten in steps that each round. One whose digits
are below `2 ^ 53` is still read as a zero exactly when the number it denotes does not exceed half
of the smallest binary64 number above zero.
-/

namespace Tape

open Binary64 (Holds vanishingBound magnitude largeQuotient)
open Text (Numeral Power numeral)

namespace Json

open Binary64 (compareKey_eq_zero_iff exists_holds_powerOfTen rounds_powerOfTen isWhole_ofNat)

/-! ## Division in steps -/

theorem divideByPower_zero (fuel exponent : Nat) :
    divideByPower (fuel + 1) (Float.ofNat 0) exponent = Float.ofNat 0 := by
  rw [divideByPower]
  split
  next small =>
    obtain ⟨k, binade⟩ := (rounds_powerOfTen small).exists_binade
    exact Binary64.ofNat_zero_div binade
  next => rfl

theorem holds_ofNat {m : Nat} (positive : 0 < m) (small : m < 2 ^ 53) :
    Holds (Float.ofNat m) m := by
  have log : m.log2 < 53 := (Nat.log2_lt (by omega)).2 small
  exact (isWhole_ofNat positive small).holds (by omega)

theorem ten_pow_lt {k : Nat} (step : k ≤ 308) : 2 * 10 ^ k < 2 ^ 1075 := by
  have less : 10 ^ k ≤ 10 ^ 308 := pow_le_pow_right₀ (by decide) step
  have largest : 2 * 10 ^ 308 < 2 ^ 1075 := by decide +kernel
  exact lt_of_le_of_lt (Nat.mul_le_mul_left 2 less) largest

/-- One step does not make a zero. -/
theorem magnitude_div_powerOfTen_ne_zero {m k : Nat} (positive : 0 < m) (small : m < 2 ^ 53)
    (step : k ≤ 308) : magnitude (Float.ofNat m / powerOfTen k) ≠ 0 := by
  obtain ⟨w, divisor, near⟩ := exists_holds_powerOfTen step
  rw [Ne, (holds_ofNat positive small).magnitude_div_eq_zero_iff divisor,
    Binary64.div_le_vanishingBound_iff divisor.pos, not_le]
  have most := (Binary64.le_two_mul_of_near divisor.pos near).1
  have beyond := ten_pow_lt step
  generalize 2 ^ 1075 = b at beyond ⊢
  have one : (1 : ℚ) ≤ m := by exact_mod_cast positive
  calc w ≤ 2 * 10 ^ k := most
    _ < b := by exact_mod_cast beyond
    _ ≤ m * b := le_mul_of_one_le_left (by positivity) one

/-- Far below the bound nothing is left of the digits. -/
theorem mul_le_ten_pow {m k : Nat} (small : m < 2 ^ 53) (far : 400 ≤ k) :
    m * 2 ^ 1075 ≤ 10 ^ k := by
  have least : 2 ^ 53 * 2 ^ 1075 ≤ 10 ^ 400 := by decide +kernel
  calc m * 2 ^ 1075 ≤ 2 ^ 53 * 2 ^ 1075 := Nat.mul_le_mul_right _ small.le
    _ ≤ 10 ^ 400 := least
    _ ≤ 10 ^ k := pow_le_pow_right₀ (by decide) far

/-- A division in steps vanishes exactly when the exact quotient does not exceed the bound. -/
theorem magnitude_divideByPower_eq_zero_iff {m : Nat} (small : m < 2 ^ 53) (k : Nat) :
    magnitude (divideByPower 4 (Float.ofNat m) k) = 0 ↔ m * 2 ^ 1075 ≤ 10 ^ k := by
  have largest : largestPower = 308 := rfl
  rcases Nat.eq_zero_or_pos m with rfl | positive
  · rw [divideByPower_zero, Nat.zero_mul]
    exact iff_of_true (by decide) (Nat.zero_le _)
  · have number := holds_ofNat positive small
    have some : Binary64.compareKey (Float.ofNat m) ≠ 0 := by
      rw [Ne, compareKey_eq_zero_iff]
      exact fun zero => Nat.ne_of_gt positive ((Binary64.magnitude_ofNat_eq_zero_iff m).1 zero)
    rcases Nat.lt_or_ge 308 k with more | one
    · have first : Binary64.compareKey (Float.ofNat m / powerOfTen largestPower) ≠ 0 := by
        rw [Ne, compareKey_eq_zero_iff]
        exact magnitude_div_powerOfTen_ne_zero positive small (le_refl _)
      rw [divideByPower, if_neg (by omega), if_neg some, divideByPower]
      rcases Nat.lt_or_ge 616 k with many | two
      · -- two steps leave a zero, which later steps keep
        have gone : Float.ofNat m / powerOfTen largestPower / powerOfTen largestPower =
            Float.ofNat 0 := by
          obtain ⟨u, quotient, _⟩ := Binary64.exists_holds_div_largest positive small
          obtain ⟨w, divisor, _⟩ := exists_holds_powerOfTen (le_refl 308)
          exact quotient.div_eq_zero divisor
            ((Binary64.magnitude_largeQuotient_eq_zero_iff positive small (by decide)
              (le_refl 616)).2 (mul_le_ten_pow small (by decide)))
        rw [if_neg (by omega), if_neg first, gone, divideByPower_zero]
        exact iff_of_true (by decide) (mul_le_ten_pow small (by omega))
      · rw [if_pos (by omega)]
        exact Binary64.magnitude_largeQuotient_eq_zero_iff positive small more.le two
    · rw [divideByPower, if_pos (show k ≤ largestPower from one)]
      have beyond := ten_pow_lt one
      have whole : 2 ^ 1075 ≤ m * 2 ^ 1075 := Nat.le_mul_of_pos_left _ positive
      exact iff_of_false (magnitude_div_powerOfTen_ne_zero positive small one) (by omega)

/-! ## Scaling -/

theorem mul_ten_zpow_neg_le_iff (m k : Nat) :
    (m : ℚ) * 10 ^ (-(k : Int)) ≤ vanishingBound ↔ m * 2 ^ 1075 ≤ 10 ^ k := by
  rw [zpow_neg, zpow_natCast, ← div_eq_mul_inv,
    Binary64.div_le_vanishingBound_iff (by positivity)]
  generalize 2 ^ 1075 = b
  exact_mod_cast Iff.rfl

theorem vanishingBound_lt_of_whole {m : Nat} (positive : 0 < m) {e : Int} (whole : 0 ≤ e) :
    vanishingBound < m * 10 ^ e := by
  have one : (1 : ℚ) ≤ m := by exact_mod_cast positive
  exact Binary64.vanishingBound_lt_of_one_le
    (one_le_mul_of_one_le_of_one_le one (one_le_zpow₀ (by norm_num) whole))

theorem zero_mul_le (e : Int) : ((0 : Nat) : ℚ) * 10 ^ e ≤ vanishingBound := by
  rw [Nat.cast_zero, zero_mul, vanishingBound]
  positivity

/-- A product with a power of ten vanishes with the digits alone. -/
theorem magnitude_mul_powerOfTen_eq_zero_iff {m k : Nat} (small : m < 2 ^ 53) (step : k ≤ 308) :
    magnitude (Float.ofNat m * powerOfTen k) = 0 ↔ (m : ℚ) * 10 ^ (k : Int) ≤ vanishingBound := by
  rcases Nat.eq_zero_or_pos m with rfl | positive
  · obtain ⟨_, binade⟩ := (rounds_powerOfTen step).exists_binade
    rw [Binary64.ofNat_zero_mul binade]
    exact iff_of_true (by decide) (zero_mul_le _)
  · refine iff_of_false (fun vanishes => ?_)
      (not_le.2 (vanishingBound_lt_of_whole positive (Int.natCast_nonneg k)))
    obtain ⟨w, power, near⟩ := exists_holds_powerOfTen step
    have tens : (1 : ℚ) ≤ 10 ^ k := one_le_pow₀ (by norm_num)
    have least := (Binary64.le_two_mul_of_near power.pos near).2
    have one : (1 : ℚ) ≤ m := by exact_mod_cast positive
    have product := (holds_ofNat positive small).mul_le_of_magnitude_eq_zero power vanishes
    have half : vanishingBound < 2 ^ (-1 : Int) := Binary64.vanishingBound_lt_two_zpow (by decide)
    have whole : w ≤ m * w := le_mul_of_one_le_left power.pos.le one
    rw [zpow_neg_one] at half
    linarith

theorem magnitude_signed (negative : Bool) (x : Float) :
    magnitude (signed negative x) = magnitude x := by
  rw [signed]
  split
  · exact Binary64.magnitude_neg x
  · rfl

section Scaled

variable {m : Nat} (small : m < 2 ^ 53) {e : Int}
include small

theorem mul_ten_zpow_le_of_le (far : e ≤ -400) : (m : ℚ) * 10 ^ e ≤ vanishingBound := by
  obtain ⟨k, rfl⟩ : ∃ k : Nat, e = -(k : Int) := ⟨e.natAbs, by omega⟩
  exact (mul_ten_zpow_neg_le_iff m k).2 (mul_le_ten_pow small (by omega))

/-- Digits with a power of ten vanish exactly when the exact product does not exceed the bound. -/
theorem magnitude_scaled?_eq_zero_iff {x : Float} (found : scaled? m e = some x) :
    magnitude x = 0 ↔ (m : ℚ) * 10 ^ e ≤ vanishingBound := by
  simp only [scaled?] at found
  split at found
  next down =>
    cases found
    obtain ⟨k, rfl⟩ : ∃ k : Nat, e = -(k : Int) := ⟨e.natAbs, by omega⟩
    rw [neg_neg, Int.toNat_natCast, magnitude_divideByPower_eq_zero_iff small,
      mul_ten_zpow_neg_le_iff]
  next up =>
    obtain ⟨k, rfl⟩ : ∃ k : Nat, e = k := ⟨e.natAbs, by omega⟩
    rw [Int.toNat_natCast] at found
    split at found
    next step =>
      split at found
      next =>
        cases found
        exact magnitude_mul_powerOfTen_eq_zero_iff small step
      next => cases found
    next =>
      split at found
      next none =>
        cases found
        rw [none]
        exact iff_of_true (by decide) (zero_mul_le _)
      next => cases found

/-- Exponents beyond 32 bits might as well be the last ones within. -/
theorem clampExponent_mul_le_iff :
    (m : ℚ) * 10 ^ clampExponent e ≤ vanishingBound ↔ (m : ℚ) * 10 ^ e ≤ vanishingBound := by
  have largest : largestExponent = 2147483647 := rfl
  rcases Nat.eq_zero_or_pos m with rfl | positive
  · exact iff_of_true (zero_mul_le _) (zero_mul_le _)
  · rcases lt_or_ge e 0 with down | up
    · by_cases far : e ≤ -400
      · exact iff_of_true (mul_ten_zpow_le_of_le small (by rw [clampExponent]; omega))
          (mul_ten_zpow_le_of_le small far)
      · have same : clampExponent e = e := by
          rw [clampExponent]
          omega
        rw [same]
    · exact iff_of_false
        (not_le.2 (vanishingBound_lt_of_whole positive (by rw [clampExponent]; omega)))
        (not_le.2 (vanishingBound_lt_of_whole positive up))

/-! ## Literals -/

theorem magnitude_realScan_eq_zero_iff {negative : Bool} {rest : List Char} {n : Number}
    (read : (realScan negative m e rest).value = .ok n) :
    magnitude n.toFloat = 0 ↔ (m : ℚ) * 10 ^ e ≤ vanishingBound := by
  rw [realScan] at read
  cases found : scaled? m e with
  | none =>
      rw [found] at read
      cases read
  | some x =>
      rw [found] at read
      cases read
      rw [Number.toFloat, magnitude_signed]
      exact magnitude_scaled?_eq_zero_iff small found

/-- An exponent that is too large leaves a zero only of zeros, or of digits far below the bound. -/
theorem magnitude_exponentScan_eq_zero_iff {negative : Bool} {start : Int} (after : start ≤ 0)
    {p : Power} {n : Number} (read : (exponentScan negative m start p).value = .ok n) :
    magnitude n.toFloat = 0 ↔ (m : ℚ) * 10 ^ (start + p.value) ≤ vanishingBound := by
  have largest : largestExponent = 2147483647 := rfl
  rw [exponentScan] at read
  split at read
  next large =>
    split at read
    next => cases read
    next kept =>
      cases read
      rw [Number.toFloat, magnitude_signed]
      refine iff_of_true (by decide) ?_
      cases down : p.mark.isNegative with
      | false =>
          have none : m = 0 := by simpa [down] using kept
          rw [none]
          exact zero_mul_le _
      | true =>
          refine mul_ten_zpow_le_of_le small ?_
          rw [Power.value, down, if_pos rfl]
          omega
  next => exact (magnitude_realScan_eq_zero_iff small read).trans (clampExponent_mul_le_iff small)

end Scaled

theorem magnitude_wholeNumber_eq_zero_iff (negative : Bool) (m : Nat) :
    magnitude (wholeNumber negative m).toFloat = 0 ↔ m = 0 := by
  rw [wholeNumber]
  split
  · split
    · rw [Number.toFloat, Binary64.magnitude_ofInt_eq_zero_iff]
      omega
    · rw [Number.toFloat, Binary64.magnitude_neg, Binary64.magnitude_ofNat_eq_zero_iff]
  · rw [Number.toFloat, Binary64.magnitude_ofInt_eq_zero_iff]
    omega

/-- A literal with digits below `2 ^ 53` is read as a zero exactly when what it denotes does not
exceed the bound. -/
theorem magnitude_toFloat_eq_zero_iff {t : Numeral} (literal : t.IsLiteral)
    (short : t.significand < 2 ^ 53) {n : Number} (read : readChars t.chars = .ok (.number n)) :
    magnitude n.toFloat = 0 ↔ |t.value| ≤ vanishingBound := by
  obtain ⟨rest, scan⟩ := scanNumber_of_readChars literal read
  have fits : t.significand < significandBound := Nat.lt_trans short (by decide)
  rw [t.abs_value, Text.Numeral.size]
  by_cases real : t.fraction ≠ none ∨ t.power ≠ none
  · rw [scanNumber_real literal fits real] at scan
    have value : (realEndScan t.mark.isNegative t.significand (0 - (t.places.length : Int))
        t.power).value = .ok n := by rw [Except.ok.inj scan]
    have shift : t.shift = 0 - (t.places.length : Int) + t.exponent := by
      rw [Text.Numeral.shift]
      omega
    rw [shift, Text.Numeral.exponent]
    cases power : t.power with
    | none =>
        rw [power] at value
        rw [Option.map_none, Option.getD_none, add_zero]
        exact magnitude_realScan_eq_zero_iff short value
    | some p =>
        rw [power] at value
        exact magnitude_exponentScan_eq_zero_iff short (by omega) value
  · rw [not_or, not_not, not_not] at real
    rw [scanNumber_integer literal fits real.1 real.2] at scan
    cases scan
    have shift : t.shift = 0 := by
      rw [Text.Numeral.shift, Text.Numeral.exponent, Text.Numeral.places_of_none real.1, real.2]
      rfl
    rw [magnitude_wholeNumber_eq_zero_iff, shift]
    constructor
    · intro none
      rw [none]
      exact zero_mul_le 0
    · intro vanishes
      by_contra some
      exact absurd vanishes
        (not_le.2 (vanishingBound_lt_of_whole (Nat.pos_of_ne_zero some) (le_refl 0)))

/-- More digits are rounded before they are divided, here from above the bound to a zero. -/
example : 10 ^ 340 < 24703282292062328 * 2 ^ 1075 ∧
    (scaled? 24703282292062328 (-340)).map magnitude = some 0 := by
  decide +kernel

end Json

end Tape
