import Tape.Proofs.Stats.Rational
import Tape.Proofs.Stats.Steps

/-!
# Moments of a window

The sums that follow each value in and out are at any time the sums over the values that the window
keeps. So its mean is their average, and its variance their population variance.
-/

namespace Tape

namespace Window

section Run

variable [RationalRoot] {w : Window ℚ}

/-- The sums are those of the values in the window. -/
structure Sums (w : Window ℚ) : Prop where
  sum : w.sum = w.values.sum
  sumOfSquares : w.sumOfSquares = (w.values.map (· ^ 2)).sum

namespace Sums

theorem makeRoom (sums : w.Sums) : w.makeRoom.Sums := by
  obtain ⟨same, _⟩ | ⟨oldest, rest, held, _, same⟩ := w.makeRoom_cases
  · rw [same]
    exact sums
  · rw [same]
    constructor
    · change w.sum - oldest = rest.sum
      rw [sums.sum, held, List.sum_cons]
      ring
    · change w.sumOfSquares - oldest * oldest = (rest.map (· ^ 2)).sum
      rw [sums.sumOfSquares, held, List.map_cons, List.sum_cons]
      ring

theorem push (sums : w.Sums) (x : ℚ) : (w.push x).Sums where
  sum := by
    change w.makeRoom.sum + x = (w.makeRoom.values ++ [x]).sum
    rw [sums.makeRoom.sum, List.sum_append, List.sum_singleton]
  sumOfSquares := by
    change w.makeRoom.sumOfSquares + x * x = ((w.makeRoom.values ++ [x]).map (· ^ 2)).sum
    rw [sums.makeRoom.sumOfSquares, List.map_append, List.sum_append, List.map_singleton,
      List.sum_singleton, sq]

theorem pushSizes (sums : w.Sums) (bid ask : ℚ) : (w.pushSizes bid ask).Sums :=
  ⟨sums.sum, sums.sumOfSquares⟩

theorem reset (w : Window ℚ) : w.reset.Sums := ⟨rfl, rfl⟩

theorem empty (capacity : ℕ) : (empty capacity : Window ℚ).Sums := ⟨rfl, rfl⟩

theorem ofSize? {size : ℕ} (made : ofSize? size = some w) : w.Sums :=
  (ofSize?_eq_some_iff.1 made).2 ▸ empty _

theorem advance (sums : w.Sums) (step : Step ℚ) : (w.advance step).Sums := by
  cases step with
  | midpoint x => exact sums.push x
  | tradePrice x => exact sums.push x
  | bestSizes bid ask => exact sums.pushSizes bid ask
  | reset => exact reset w

theorem advanceAll (sums : w.Sums) (steps : List (Step ℚ)) : (w.advanceAll steps).Sums := by
  induction steps generalizing w with
  | nil => exact sums
  | cons step rest ih => exact ih (sums.advance step)

end Sums

/-- All statistics of a window are those of the values in it, and the variance needs no clamp. -/
structure Recomputes (w : Window ℚ) : Prop extends Sums w where
  mean : w.mean = if w.values = [] then 0 else average w.values
  variance : w.variance = populationVariance w.values
  clamp_variance : Scalar.clamp w.variance = w.variance
  volatility : w.volatility =
    if w.values.length < 2 then 0 else RationalRoot.root (populationVariance w.values)

theorem Sums.recomputes (sums : w.Sums) : w.Recomputes := by
  have variance : w.variance = populationVariance w.values := by
    rw [populationVariance_eq, average, ← sums.sum, ← sums.sumOfSquares]
    rfl
  have kept : Scalar.clamp w.variance = w.variance :=
    Scalar.clamp_of_nonneg (variance ▸ populationVariance_nonneg _)
  refine ⟨sums, ?_, variance, kept, ?_⟩
  · simp only [mean, sums.sum, List.isEmpty_iff]
    rfl
  · rw [volatility, kept, variance]
    rfl

/-- What a new window comes to after any steps. It holds the latest of the values since it was
emptied, as many as there are or as it has room for, all its statistics are those of these values,
and the sizes of a book change none of them. -/
theorem statistics_recomputed {size : ℕ} {new : Window ℚ} (made : ofSize? size = some new)
    (steps : List (Step ℚ)) :
    let pushed := Step.valuesSinceReset steps
    let w := new.advanceAll steps
    w.values <:+ pushed ∧ w.values.length = min pushed.length (max size 1) ∧ w.Recomputes ∧
      ∀ bid ask, let later := w.pushSizes bid ask
        later.values = w.values ∧ later.sum = w.sum ∧ later.sumOfSquares = w.sumOfSquares ∧
          later.mean = w.mean ∧ later.variance = w.variance ∧ later.volatility = w.volatility := by
  intro pushed w
  have values : w.values = pushed.rtake (max size 1) := (keeps_advanceAll made steps).values
  refine ⟨?_, ?_, ((Sums.ofSize? made).advanceAll steps).recomputes, ?_⟩
  · rw [values]
    exact List.drop_suffix _ _
  · rw [values, length_rtake]
  · intro bid ask later
    exact ⟨rfl, rfl, rfl, rfl, rfl, rfl⟩

end Run

/-- Of three values since the window was emptied it keeps two, one and five. -/
theorem statistics_recomputed_of_two :
    let _ : RationalRoot := ⟨id⟩
    let steps : List (Step ℚ) := [.midpoint 9, .reset, .tradePrice 7, .midpoint 1, .tradePrice 5]
    ∃ new : Window ℚ, ofSize? 2 = some new ∧ (new.advanceAll steps).values.length = 2 ∧
      (new.advanceAll steps).mean = 3 ∧ (new.advanceAll steps).variance = 4 := by
  intro _ steps
  have made : ofSize? 2 = some (empty 2 : Window ℚ) := rfl
  obtain ⟨_, length, recomputes, _⟩ := statistics_recomputed made steps
  refine ⟨_, made, length, recomputes.mean.trans ?_, recomputes.variance.trans ?_⟩ <;>
    decide +kernel

end Window

end Tape
