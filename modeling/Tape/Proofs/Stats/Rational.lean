import Mathlib
import Tape.Stats.Scalar

/-!
# Statistics of rational numbers

Rational numbers as scalars: nothing is rounded. They have no square root, and any function may stand
in its place. The population variance of a list is the mean of its squares less the square of its
mean.
-/

namespace Tape

/-- A function in the place of the square root. Nothing is asked of it. -/
class RationalRoot where
  root : ℚ → ℚ

instance [RationalRoot] : Scalar ℚ where
  zero := 0
  sumStart := 0
  ofCount := Nat.cast
  isPositive x := 0 < x
  sqrt := RationalRoot.root

namespace Scalar

variable [RationalRoot]

theorem sum_eq (values : List ℚ) : Scalar.sum values = values.sum :=
  List.sum_eq_foldl.symm

theorem clamp_of_nonneg {x : ℚ} (nonnegative : 0 ≤ x) : Scalar.clamp x = x := by
  rcases nonnegative.eq_or_lt with rfl | positive
  · exact ite_self _
  · exact if_pos (decide_eq_true positive)

end Scalar

/-! ## Lists of rational numbers -/

/-- The sum over the count; zero for an empty list. -/
def average (values : List ℚ) : ℚ := values.sum / values.length

/-- The average square of what the values differ from their average. -/
def populationVariance (values : List ℚ) : ℚ :=
  average (values.map fun x => (x - average values) ^ 2)

theorem average_nonneg {values : List ℚ} (nonnegative : ∀ x ∈ values, 0 ≤ x) :
    0 ≤ average values :=
  div_nonneg (List.sum_nonneg nonnegative) (Nat.cast_nonneg _)

theorem populationVariance_nonneg (values : List ℚ) : 0 ≤ populationVariance values := by
  refine average_nonneg fun square member => ?_
  obtain ⟨x, _, rfl⟩ := List.mem_map.1 member
  exact sq_nonneg _

theorem sum_map_sub_sq (center : ℚ) (values : List ℚ) :
    (values.map fun x => (x - center) ^ 2).sum =
      (values.map (· ^ 2)).sum - 2 * center * values.sum + values.length * center ^ 2 := by
  induction values with
  | nil => simp
  | cons x rest ih =>
      simp only [List.map_cons, List.sum_cons, List.length_cons, Nat.cast_succ, ih]
      ring

/-- The mean of the squares less the square of the mean. -/
theorem populationVariance_eq (values : List ℚ) :
    populationVariance values =
      (values.map (· ^ 2)).sum / values.length - average values * average values := by
  rw [populationVariance, average, sum_map_sub_sq, List.length_map]
  rcases eq_or_ne (values.length : ℚ) 0 with none | some
  · simp only [average, none, div_zero, mul_zero, sub_zero]
  · simp only [average]
    field_simp
    ring

end Tape
