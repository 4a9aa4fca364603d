import Mathlib
import Tape.Proofs.Binary64.Arithmetic

/-!
# Rounding an exact value

A mantissa with its residual bits stands for an exact rational value in units of its last place.
Cutting bits off keeps that value, and rounding moves it by half a unit at most. So a quotient or a
product of whole numbers is rounded to within half a unit of the last place that it keeps, and gives
zero exactly when it does not exceed half of the smallest unit.
-/

namespace Tape.Binary64

open Float.Model (Format totalExponent)
open Float.Model.UnpackedFloat

/-! ## Residual bits -/

/-- The exact value of a mantissa with its residual bits, in units of the last place. -/
def Represents : ExtendedMantissa → ℚ → Prop
  | ⟨m, false, false⟩, v => v = m
  | ⟨m, false, true⟩, v => (m : ℚ) < v ∧ v < m + 1 / 2
  | ⟨m, true, false⟩, v => v = m + 1 / 2
  | ⟨m, true, true⟩, v => (m : ℚ) + 1 / 2 < v ∧ v < m + 1

theorem represents_exact (m : Nat) :
    Represents (ExtendedMantissa.ofMantissaAndAccuracy m .exact) m := rfl

/-- A whole quotient with the accuracy of its remainder stands for the exact quotient. -/
theorem represents_div (m : Nat) {n : Nat} (positive : 0 < n) :
    Represents (ExtendedMantissa.ofMantissaAndAccuracy (m / n) (accuracyOfFraction (m % n) n))
      ((m : ℚ) / n) := by
  have unit : (0 : ℚ) < n := by exact_mod_cast positive
  have split : (m : ℚ) = n * (m / n : Nat) + (m % n : Nat) := by exact_mod_cast (Nat.div_add_mod m n).symm
  have below : ((m % n : Nat) : ℚ) < n := by exact_mod_cast Nat.mod_lt m positive
  have value : (m : ℚ) / n = (m / n : Nat) + (m % n : Nat) / n := by
    rw [split]
    field_simp
  rw [value, accuracyOfFraction]
  by_cases exact' : m % n = 0
  · rw [if_pos exact', exact']
    simp [ExtendedMantissa.ofMantissaAndAccuracy, Represents]
  · have above : (0 : ℚ) < (m % n : Nat) := by exact_mod_cast Nat.pos_of_ne_zero exact'
    rw [if_neg exact']
    rcases lt_trichotomy (2 * (m % n)) n with less | half | more
    · rw [Nat.compare_eq_lt.2 less]
      have less' : (2 : ℚ) * (m % n : Nat) < n := by exact_mod_cast less
      refine ⟨by simpa using div_pos above unit, ?_⟩
      have : ((m % n : Nat) : ℚ) / n < 1 / 2 := by
        rw [div_lt_div_iff₀ unit (by norm_num)]
        linarith
      linarith
    · rw [Nat.compare_eq_eq.2 half]
      have half' : (2 : ℚ) * (m % n : Nat) = n := by exact_mod_cast half
      have : ((m % n : Nat) : ℚ) / n = 1 / 2 := by
        rw [div_eq_div_iff (ne_of_gt unit) (by norm_num)]
        linarith
      simp only [ExtendedMantissa.ofMantissaAndAccuracy, Represents]
      rw [this]
    · rw [Nat.compare_eq_gt.2 more]
      have more' : (n : ℚ) < 2 * (m % n : Nat) := by exact_mod_cast more
      have above' : 1 / 2 < ((m % n : Nat) : ℚ) / n := by
        rw [div_lt_div_iff₀ (by norm_num) unit]
        linarith
      have below' : ((m % n : Nat) : ℚ) / n < 1 := by
        rw [div_lt_one unit]
        exact below
      exact ⟨by linarith, by linarith⟩

namespace Represents

variable {em : ExtendedMantissa} {v : ℚ}

theorem mantissa_le (represents : Represents em v) : (em.mantissa : ℚ) ≤ v := by
  obtain ⟨m, round, sticky⟩ := em
  cases round <;> cases sticky <;> simp only [Represents] at represents ⊢ <;> linarith

theorem shiftRightOne (represents : Represents em v) : Represents em.shiftRightOne (v / 2) := by
  obtain ⟨m, round, sticky⟩ := em
  have whole : (m : ℚ) = 2 * (m / 2 : Nat) + (m % 2 : Nat) := by
    exact_mod_cast (Nat.div_add_mod m 2).symm
  rcases Nat.mod_two_eq_zero_or_one m with even | odd
  · have bit : (m % 2 != 0) = false := by rw [even]; rfl
    rw [even, Nat.cast_zero, add_zero] at whole
    cases round <;> cases sticky <;>
      simp only [Represents, ExtendedMantissa.shiftRightOne, bit, Bool.or_false, Bool.or_true, whole] at represents ⊢ <;>
      first
        | linarith
        | exact ⟨by linarith, by linarith⟩
  · have bit : (m % 2 != 0) = true := by rw [odd]; rfl
    rw [odd, Nat.cast_one] at whole
    cases round <;> cases sticky <;>
      simp only [Represents, ExtendedMantissa.shiftRightOne, bit, Bool.or_false, Bool.or_true, whole] at represents ⊢ <;>
      first
        | linarith
        | exact ⟨by linarith, by linarith⟩

theorem shiftRight (represents : Represents em v) (n : Nat) :
    Represents (em >>> n) (v / 2 ^ n) := by
  induction n with
  | zero =>
      rw [pow_zero, div_one]
      exact represents
  | succ n ih =>
      rw [pow_succ, ← div_div]
      exact ih.shiftRightOne

/-- Rounding moves a value by half a unit at most. -/
theorem rounded (represents : Represents em v) :
    v - 1 / 2 ≤ em.roundedMantissa ∧ (em.roundedMantissa : ℚ) ≤ v + 1 / 2 := by
  obtain ⟨m, round, sticky⟩ := em
  have parity : ((m % 2 : Nat) : ℚ) ≤ 1 := by
    exact_mod_cast Nat.lt_succ_iff.1 (Nat.mod_lt m (by decide))
  have size : (0 : ℚ) ≤ (m % 2 : Nat) := by positivity
  cases round <;> cases sticky <;>
    simp only [Represents, ExtendedMantissa.roundedMantissa, ExtendedMantissa.accuracy,
      Accuracy.roundToNearestEven, Nat.cast_add, Nat.cast_one] at represents ⊢ <;>
    exact ⟨by linarith, by linarith⟩

/-- The even one of two equally near whole numbers is taken, so one half gives zero. -/
theorem rounded_eq_zero_iff (represents : Represents em v) :
    em.roundedMantissa = 0 ↔ v ≤ 1 / 2 := by
  constructor
  · intro zero
    have near := represents.rounded.1
    rw [zero, Nat.cast_zero] at near
    linarith
  · intro half
    have start := represents.mantissa_le
    have small : (em.mantissa : ℚ) < 1 := by linarith
    have none : em.mantissa = 0 := by
      have : em.mantissa < 1 := by exact_mod_cast small
      omega
    obtain ⟨m, round, sticky⟩ := em
    cases round with
    | false => cases sticky <;> exact none
    | true =>
        simp only at none
        cases sticky with
        | false => simp [ExtendedMantissa.roundedMantissa, ExtendedMantissa.accuracy,
            Accuracy.roundToNearestEven, none]
        | true =>
            simp only [Represents, none, Nat.cast_zero] at represents
            linarith

end Represents

/-! ## Rounding to the format -/

/-- A mantissa and an exponent that the format can hold. -/
structure Fits (m : Nat) (e : Int) : Prop where
  bits : m < 2 ^ 53
  least : -1074 ≤ e

theorem targetExponent_sub (m : Nat) (e : Int) :
    Format.binary64.targetExponent (totalExponent m e) = max (m.log2 + e - 52) (-1074) := by
  change max ((m.log2 + 1 + e : Int) - 53) (3 - 2 ^ 10 - 53 : Int) = _
  omega

/-- The bits that rounding cuts off: those beyond the precision, and those below the smallest
unit. -/
def cutBits (m : Nat) (e : Int) : Nat := max (m.log2 - 52) (-1074 - e).toNat

theorem cutBits_of_least (m : Nat) {e : Int} (least : -1074 ≤ e) : cutBits m e = m.log2 - 52 := by
  rw [cutBits]
  omega

theorem shiftToTargetExponent_eq (m : Nat) (e : Int) (accuracy : Accuracy) :
    shiftToTargetExponent Format.binary64 m e accuracy =
      (ExtendedMantissa.ofMantissaAndAccuracy m accuracy >>> cutBits m e, e + cutBits m e) := by
  have shift : (max (m.log2 + e - 52) (-1074) - e).toNat = cutBits m e := by
    rw [cutBits]
    omega
  simp only [shiftToTargetExponent, shiftToExponent, targetExponent_sub, shift]

theorem div_two_pow_cutBits_lt (m : Nat) (e : Int) : m / 2 ^ cutBits m e < 2 ^ 53 := by
  have enough : m.log2 - 52 ≤ cutBits m e := Nat.le_max_left _ _
  rw [Nat.div_lt_iff_lt_mul (Nat.two_pow_pos _), ← Nat.pow_add]
  exact Nat.lt_of_lt_of_le Nat.lt_log2_self (Nat.pow_le_pow_right (by decide) (by omega))

/-- A rounded mantissa that carried loses a zero bit. -/
theorem shiftToTargetExponent_exact {m : Nat} {e : Int} (bound : m ≤ 2 ^ 53) (least : -1074 ≤ e) :
    ∃ (final : Nat) (j : Int),
      shiftToTargetExponent Format.binary64 m e .exact = (⟨final, false, false⟩, j) ∧
        Fits final j ∧ e ≤ j ∧ (final : ℚ) * 2 ^ j = m * 2 ^ e ∧ (2 ^ 52 ≤ m → 2 ^ 52 ≤ final) := by
  rw [shiftToTargetExponent_eq, cutBits_of_least m least]
  by_cases small : m < 2 ^ 53
  · have none : m.log2 - 52 = 0 := by
      rcases Nat.eq_zero_or_pos m with rfl | positive
      · rfl
      · have := (Nat.log2_lt (by omega)).2 small
        omega
    refine ⟨m, e, ?_, ⟨small, least⟩, le_refl _, rfl, id⟩
    rw [none]
    simp only [Nat.cast_zero, add_zero]
    rfl
  · have full : m = 2 ^ 53 := by omega
    subst full
    have one : (2 ^ 53 : Nat).log2 - 52 = 1 := by decide
    refine ⟨2 ^ 52, e + 1, ?_, ⟨by decide, by omega⟩, by omega, ?_, fun _ => le_refl _⟩
    · rw [one]
      rfl
    · rw [zpow_add_one₀ (by norm_num)]
      norm_num
      ring

/-- A rounded mantissa is zero exactly when the value does not exceed half of the smallest unit, or
of the unit that it starts from where that is larger. -/
theorem roundedMantissa_cutBits_eq_zero_iff {m : Nat} (e : Int) {accuracy : Accuracy} {v : ℚ}
    (represents : Represents (ExtendedMantissa.ofMantissaAndAccuracy m accuracy) v) :
    (ExtendedMantissa.ofMantissaAndAccuracy m accuracy >>> cutBits m e).roundedMantissa = 0 ↔
      v * 2 ^ min e (-1074) ≤ 2 ^ (-1075 : Int) := by
  obtain ⟨n, cut⟩ : ∃ n, n = cutBits m e := ⟨_, rfl⟩
  have same := represents.shiftRight n
  have kept : (ExtendedMantissa.ofMantissaAndAccuracy m accuracy >>> n).mantissa = m / 2 ^ n := by
    rw [mantissa_shiftRight, mantissa_ofMantissaAndAccuracy]
  have scaled : v * 2 ^ min e (-1074) = v / 2 ^ n * 2 ^ (min e (-1074) + n) := by
    rw [zpow_add₀ (by norm_num), zpow_natCast]
    field_simp
  have half : (1 : ℚ) / 2 * 2 ^ (-1074 : Int) = 2 ^ (-1075 : Int) := by
    rw [show (-1075 : Int) = -1074 - 1 from rfl, zpow_sub_one₀ (by norm_num)]
    ring
  rw [← cut, same.rounded_eq_zero_iff, scaled, ← half]
  rw [cutBits] at cut
  by_cases none : min e (-1074) + n = -1074
  · rw [none]
    exact (mul_le_mul_iff_left₀ (by positivity)).symm
  · -- more bits are cut off only from a mantissa that keeps all the bits of the precision
    have wide : 2 ^ 52 ≤ m / 2 ^ n := by
      have beyond : n = m.log2 - 52 := by omega
      have held : 2 ^ 52 ≤ m := (Nat.le_log2 (by rintro rfl; simp at beyond; omega)).1 (by omega)
      exact beyond ▸ (div_two_pow_bounds held).1
    have above : (2 : ℚ) ^ 52 ≤ v / 2 ^ n := by
      have := same.mantissa_le
      rw [kept] at this
      exact le_trans (by exact_mod_cast wide) this
    have unit : (2 : ℚ) ^ (-1074 : Int) ≤ 2 ^ (min e (-1074) + n) :=
      zpow_le_zpow_right₀ (by norm_num) (by omega)
    have large : (2 : ℚ) ^ 52 * 2 ^ (-1074 : Int) ≤ v / 2 ^ n * 2 ^ (min e (-1074) + n) :=
      mul_le_mul above unit (by positivity) (le_trans (by positivity) above)
    refine iff_of_false (not_le.2 (lt_of_lt_of_le (by norm_num) above)) (not_le.2 ?_)
    refine lt_of_lt_of_le ?_ large
    exact mul_lt_mul_of_pos_right (by norm_num) (by positivity)

/-- A value is rounded to within half a unit of the last place kept, and is zero exactly when it
does not exceed half of the smallest unit, or of the unit that it starts from where that is
larger. -/
theorem roundWithAccuracy_eq {m : Nat} {e : Int} {accuracy : Accuracy} {v : ℚ} (sign : Sign)
    (represents : Represents (ExtendedMantissa.ofMantissaAndAccuracy m accuracy) v) :
    ∃ (final : Nat) (j : Int), Fits final j ∧ |(final : ℚ) * 2 ^ j - v * 2 ^ e| ≤ 2 ^ (j - 1) ∧
      (final = 0 ↔ v * 2 ^ min e (-1074) ≤ 2 ^ (-1075 : Int)) ∧
      (-1074 ≤ e → 2 ^ 52 ≤ m → 2 ^ 52 ≤ final) ∧
      roundWithAccuracy Format.binary64 sign m e accuracy =
        if h : final = 0 then .zero sign else .finite sign final j (Nat.pos_of_ne_zero h) := by
  obtain ⟨n, cut⟩ : ∃ n, n = cutBits m e := ⟨_, rfl⟩
  obtain ⟨em, shifted⟩ : ∃ em, em = ExtendedMantissa.ofMantissaAndAccuracy m accuracy >>> n :=
    ⟨_, rfl⟩
  have kept : em.mantissa = m / 2 ^ n := by
    rw [shifted, mantissa_shiftRight, mantissa_ofMantissaAndAccuracy]
  have same : Represents em (v / 2 ^ n) := shifted ▸ represents.shiftRight n
  have bounds := roundedMantissa_bounds em
  have fits : m / 2 ^ n < 2 ^ 53 := cut ▸ div_two_pow_cutBits_lt m e
  have least : -1074 ≤ e + n := by
    rw [cut, cutBits]
    omega
  have first := shiftToTargetExponent_eq m e accuracy
  have vanishes := roundedMantissa_cutBits_eq_zero_iff e represents
  rw [← cut, ← shifted] at first vanishes
  obtain ⟨final, j, second, holds, later, value, large⟩ :=
    shiftToTargetExponent_exact (m := em.roundedMantissa) (e := e + n) (by omega) least
  refine ⟨final, j, holds, ?_, ?_, ?_, ?_⟩
  · rw [value]
    have unit : (0 : ℚ) < 2 ^ (e + n) := by positivity
    have whole : v * 2 ^ e = v / 2 ^ n * 2 ^ (e + n) := by
      rw [zpow_add₀ (by norm_num), zpow_natCast]
      field_simp
    have half : (2 : ℚ) ^ (e + n) * (1 / 2) ≤ 2 ^ (j - 1) := by
      calc (2 : ℚ) ^ (e + n) * (1 / 2) = 2 ^ (e + n - 1) := by
            rw [zpow_sub_one₀ (by norm_num)]
            ring
        _ ≤ 2 ^ (j - 1) := zpow_le_zpow_right₀ (by norm_num) (by omega)
    refine le_trans ?_ half
    rw [whole, ← sub_mul, abs_mul, abs_of_pos unit, mul_comm]
    refine mul_le_mul_of_nonneg_left ?_ unit.le
    have near := same.rounded
    rw [abs_le]
    exact ⟨by linarith, by linarith⟩
  · have unit : (0 : ℚ) < 2 ^ j := by positivity
    have unit' : (0 : ℚ) < 2 ^ (e + n) := by positivity
    rw [← vanishes]
    constructor
    · intro zero
      rw [zero, Nat.cast_zero, zero_mul] at value
      exact_mod_cast (mul_eq_zero.1 value.symm).resolve_right (ne_of_gt unit')
    · intro zero
      rw [zero, Nat.cast_zero, zero_mul] at value
      exact_mod_cast (mul_eq_zero.1 value).resolve_right (ne_of_gt unit)
  · intro start held
    apply large
    have := (div_two_pow_bounds held).1
    rw [← cutBits_of_least m start, ← cut, ← kept] at this
    omega
  · simp only [roundWithAccuracy, first, second]

/-! ## Quotients -/

theorem two_zpow_log2_le {m : Nat} (positive : 0 < m) : (2 : ℚ) ^ (m.log2 : Int) ≤ m := by
  rw [zpow_natCast]
  exact_mod_cast Nat.log2_self_le (by omega)

theorem lt_two_zpow_log2 (m : Nat) : (m : ℚ) < 2 ^ (m.log2 + 1 : Int) := by
  have below : (m : ℚ) < 2 ^ (m.log2 + 1) := by exact_mod_cast Nat.lt_log2_self
  exact_mod_cast below

/-- A quotient is rounded from a unit that leaves it the bits of the precision, as far as there are
such units and without raising the exponent. -/
theorem div_eq_roundWithAccuracy {m n : Nat} {d e : Int} (mPositive : 0 < m) (nPositive : 0 < n) :
    ∃ (whole : Nat) (start : Int) (accuracy : Accuracy) (v : ℚ),
      Float.Model.UnpackedFloat.div Format.binary64 (.finite .positive m d mPositive)
        (.finite .positive n e nPositive) =
          roundWithAccuracy Format.binary64 .positive whole start accuracy ∧
      Represents (ExtendedMantissa.ofMantissaAndAccuracy whole accuracy) v ∧
      v * 2 ^ start = m * 2 ^ d / (n * 2 ^ e) ∧
      start = min (d - e) (max (m.log2 + d - (n.log2 + e) - 53) (-1074)) ∧
      whole = m * 2 ^ (d - e - start).toNat / n := by
  obtain ⟨start, chosen⟩ : ∃ start, start = min (d - e)
      (Format.binary64.targetExponent (totalExponent m d - totalExponent n e)) := ⟨_, rfl⟩
  have unit : start = min (d - e) (max (m.log2 + d - (n.log2 + e) - 53) (-1074)) := by
    rw [chosen]
    change min (d - e) (max ((m.log2 + 1 + d - (n.log2 + 1 + e) : Int) - 53) (3 - 2 ^ 10 - 53)) = _
    omega
  refine ⟨_, start, _, _, ?_, represents_div (m * 2 ^ (d - e - start).toNat) nPositive, ?_, unit,
    rfl⟩
  · simp only [Float.Model.UnpackedFloat.div, divCore, ← chosen, Nat.shiftLeft_eq]
    rfl
  · have scale : (((d - e - start).toNat : Nat) : Int) = d - e - start := Int.toNat_of_nonneg (by omega)
    rw [Nat.cast_mul, Nat.cast_pow, Nat.cast_ofNat, ← zpow_natCast, scale, sub_sub,
      zpow_sub₀ (by norm_num), zpow_add₀ (by norm_num)]
    field_simp

end Tape.Binary64
