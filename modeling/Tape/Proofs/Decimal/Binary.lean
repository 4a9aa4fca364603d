import Tape.Decimal.Binary
import Tape.Proofs.Binary64.Arithmetic

/-!
# Positive decimals as binary64 numbers

A positive decimal becomes a finite number above zero. Its fraction is at least one unit of its last
place, so that scaling by the places brings it to one half at least, and rounding to one.
-/

namespace Tape.Decimal

open Tape.Binary64

/-- A power of ten and its computed power lie in the binade of the whole number. -/
theorem binade_power : ∀ scale < maxScale + 1,
    Binade (Float.ofNat (Nat.pow 10 scale)) (Nat.pow 10 scale).log2 ∧
      Binade (power 10 scale) (Nat.pow 10 scale).log2 := by
  decide +kernel

theorem log2_le_log2 {m n : Nat} (positive : 0 < m) (below : m ≤ n) : m.log2 ≤ n.log2 :=
  (Nat.le_log2 (by omega)).2 (Nat.le_trans (Nat.log2_self_le (by omega)) below)

theorem log2_power_le {scale : Nat} (bound : scale ≤ maxScale) : (Nat.pow 10 scale).log2 ≤ 93 := by
  have below : Nat.pow 10 scale ≤ Nat.pow 10 28 := Nat.pow_le_pow_right (by decide) bound
  have log := log2_le_log2 (m := Nat.pow 10 scale) (Nat.pow_pos (by decide)) below
  have top : (Nat.pow 10 28).log2 = 93 := by decide
  omega

theorem log2_lt_of_mantissa {n : Nat} (bound : n < mantissaBound) : n.log2 < 96 := by
  by_cases zero : n = 0
  · rw [zero]
    decide
  · rw [Nat.log2_lt zero]
    exact bound

section Places

variable {scale rest : Nat} (bound : scale ≤ maxScale)
include bound

/-- What stands after the point is at least a unit of the last place. -/
theorem near_fraction (positive : 0 < rest) (below : rest < Nat.pow 10 scale) :
    Near (Float.ofNat rest / Float.ofNat (Nat.pow 10 scale)) (-(Nat.pow 10 scale).log2 - 1) 4 := by
  have log := log2_le_log2 positive (Nat.le_of_lt below)
  have unit := log2_power_le bound
  have part := near_ofNat positive (by omega)
  have whole := Near.of_binade (binade_power scale (by omega)).1
  exact (part.div whole (by omega) (by omega)).widen (by omega) (by omega)

theorem near_sum {whole : Nat} (held : whole < mantissaBound) (positive : 0 < rest)
    (below : rest < Nat.pow 10 scale) :
    Near (Float.ofNat whole + Float.ofNat rest / Float.ofNat (Nat.pow 10 scale))
      (-(Nat.pow 10 scale).log2 - 1) 100 := by
  have fraction := near_fraction bound positive below
  have unit := log2_power_le bound
  by_cases empty : whole = 0
  · obtain ⟨k, binade, _, _⟩ := near_fraction bound positive below
    rw [empty, ofNat_zero_add binade]
    exact fraction.widen (by omega) (by omega)
  · have log := log2_lt_of_mantissa held
    have left := near_ofNat (n := whole) (by omega) (by omega)
    exact (left.add fraction (by omega) (by omega) (by omega)).widen (by omega) (by omega)

theorem near_placed {x : Float} (near : Near x (-(Nat.pow 10 scale).log2 - 1) 100) :
    Near (roundHalfAway (x * power 10 scale) / power 10 scale) (-(Nat.pow 10 scale).log2 - 1)
      200 := by
  have unit := log2_power_le bound
  have places := Near.of_binade (binade_power scale (by omega)).2
  have scaled := near.mul places (by omega) (by omega)
  have rounded := near_roundHalfAway scaled (by omega)
  exact (rounded.div places (by omega) (by omega)).widen (by omega) (by omega)

end Places

/-- A positive decimal is a normal number above zero. -/
theorem exists_near_toFloat {d : Decimal} (positive : d.isPositive = true) :
    ∃ low high, Near d.toFloat low high := by
  obtain ⟨sign, size⟩ := (isPositive_iff d).1 positive
  have mantissa := log2_lt_of_mantissa d.mantissa_lt
  rw [toFloat]
  by_cases whole : d.scale = 0
  · rw [if_pos whole, sign]
    exact ⟨_, _, near_ofNat size (by omega)⟩
  · rw [if_neg whole, sign]
    have unit : 0 < Nat.pow 10 d.scale := Nat.pow_pos (by decide)
    have quotient : d.mantissa / Nat.pow 10 d.scale < mantissaBound :=
      Nat.lt_of_le_of_lt (Nat.div_le_self _ _) d.mantissa_lt
    have below := Nat.mod_lt d.mantissa unit
    by_cases exact' : d.mantissa % Nat.pow 10 d.scale = 0
    · have binade := (binade_power d.scale (Nat.lt_succ_of_le d.scale_le)).1
      have divides := Nat.le_of_dvd size (Nat.dvd_of_mod_eq_zero exact')
      have size' : 0 < d.mantissa / Nat.pow 10 d.scale := Nat.div_pos divides unit
      have log := log2_lt_of_mantissa quotient
      have none : compareKey (Float.ofNat 0) = 0 := compareKey_zero
      simp only [exact', ofNat_zero_div binade, none]
      exact ⟨_, _, near_ofNat size' (by omega)⟩
    · have fraction := near_fraction d.scale_le (Nat.pos_of_ne_zero exact') below
      obtain ⟨k, binade, _, _⟩ := fraction
      simp only [binade.compareKey_ne_zero]
      exact ⟨_, _, near_placed d.scale_le
        (near_sum d.scale_le quotient (Nat.pos_of_ne_zero exact') below)⟩

/-- A positive decimal is a finite number above zero. -/
theorem isPositive_toFloat {d : Decimal} (positive : d.isPositive = true) :
    Binary64.isPositive d.toFloat = true := by
  obtain ⟨low, high, near⟩ := exists_near_toFloat positive
  exact near.isPositive

/-! ## Decimals that are not positive -/

/-- A decimal without its sign. -/
def abs (d : Decimal) : Decimal := { d with negative := false }

theorem toFloat_of_zero {d : Decimal} (zero : d.mantissa = 0) :
    d.toFloat = Float.ofNat 0 ∨ d.toFloat = -Float.ofNat 0 := by
  have none : compareKey (Float.ofNat 0) = 0 := compareKey_zero
  rw [toFloat]
  by_cases whole : d.scale = 0
  · rw [if_pos whole, zero]
    exact .inl (by simp)
  · rw [if_neg whole]
    have binade := (binade_power d.scale (Nat.lt_succ_of_le d.scale_le)).1
    simp only [zero, Nat.zero_div, Nat.zero_mod, ofNat_zero_div binade, none, if_true]
    cases d.negative with
    | true => exact .inr (if_pos rfl)
    | false => exact .inl (if_neg Bool.false_ne_true)

theorem toFloat_of_negative {d : Decimal} (negative : d.negative = true) (size : 0 < d.mantissa) :
    d.toFloat = -d.abs.toFloat := by
  have held : d.mantissa ≠ 0 := Nat.ne_of_gt size
  rw [toFloat, toFloat]
  by_cases whole : d.scale = 0
  · simp [abs, whole, negative, held]
  · rw [if_neg whole, if_neg (show ¬d.abs.scale = 0 from whole), negative]
    rfl

/-- A decimal is positive exactly when its number is. -/
theorem isPositive_toFloat_iff (d : Decimal) :
    Binary64.isPositive d.toFloat = true ↔ d.isPositive = true := by
  refine ⟨fun positive => ?_, isPositive_toFloat⟩
  by_contra other
  rcases Nat.eq_zero_or_pos d.mantissa with zero | size
  · rcases toFloat_of_zero zero with same | same
    · rw [same] at positive
      exact absurd positive (by decide)
    · rw [same] at positive
      exact absurd positive (by decide)
  · have negative : d.negative = true := by
      by_contra sign
      exact other ((isPositive_iff d).2 ⟨by simpa using sign, size⟩)
    have above : d.abs.isPositive = true := (isPositive_iff _).2 ⟨rfl, size⟩
    obtain ⟨low, high, k, binade, _⟩ := exists_near_toFloat above
    rw [toFloat_of_negative negative size, binade.not_isPositive_neg] at positive
    cases positive

end Tape.Decimal
