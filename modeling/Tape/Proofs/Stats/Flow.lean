import Tape.Proofs.Stats.Rational
import Tape.Proofs.Stats.Steps

/-!
# The mean flow of a window

The flows between books telescope: their sum over any stretch is the lead of the bid size over the ask
size after the last book less the lead before the first. So the mean flow of a window depends on two
books only.
-/

namespace Tape

namespace Window

/-- By how much the bid size is ahead of the ask size. -/
def lead (sizes : ℚ × ℚ) : ℚ := sizes.1 - sizes.2

/-- The lead after so many books; before the first both sizes count as zero. -/
def leadAfter (sizes : List (ℚ × ℚ)) (count : ℕ) : ℚ := lead (((0, 0) :: sizes).getD count (0, 0))

section Run

variable [RationalRoot]

theorem length_flowsAfter (last : ℚ × ℚ) (sizes : List (ℚ × ℚ)) :
    (flowsAfter last sizes).length = sizes.length := by
  induction sizes generalizing last with
  | nil => rfl
  | cons next rest ih => rw [flowsAfter, List.length_cons, List.length_cons, ih]

theorem sum_take_flowsAfter (last : ℚ × ℚ) {sizes : List (ℚ × ℚ)} {count : ℕ}
    (within : count ≤ sizes.length) :
    ((flowsAfter last sizes).take count).sum =
      lead ((last :: sizes).getD count (0, 0)) - lead last := by
  induction sizes generalizing last count with
  | nil =>
      have none : count = 0 := Nat.le_zero.1 within
      simp [none, flowsAfter]
  | cons next rest ih =>
      cases count with
      | zero => simp
      | succ count =>
          rw [flowsAfter, List.take_succ_cons, List.sum_cons, ih next (Nat.le_of_succ_le_succ within),
            List.getD_cons_succ, lead, lead, lead]
          ring

theorem sum_take_flows {sizes : List (ℚ × ℚ)} {count : ℕ} (within : count ≤ sizes.length) :
    ((flowsAfter noSizes sizes).take count).sum = leadAfter sizes count := by
  have start : lead noSizes = 0 := sub_self (0 : ℚ)
  rw [sum_take_flowsAfter noSizes within, start, sub_zero]
  rfl

/-- The latest flows add up to what the lead has changed by. -/
theorem sum_rtake_flows (sizes : List (ℚ × ℚ)) (count : ℕ) :
    ((flowsAfter noSizes sizes).rtake count).sum =
      leadAfter sizes sizes.length - leadAfter sizes (sizes.length - count) := by
  have all : (flowsAfter noSizes sizes).sum = leadAfter sizes sizes.length := by
    rw [← sum_take_flows (Nat.le_refl _), ← length_flowsAfter noSizes sizes, List.take_length]
  rw [List.rtake, length_flowsAfter, ← all, ← sum_take_flows (Nat.sub_le _ _), eq_sub_iff_add_eq',
    List.sum_take_add_sum_drop]

/-- The mean flow of a new window is what the lead has changed by over the latest books, shared
among them: as many as came in since the window was emptied, or as it has room for. -/
theorem meanFlow_telescopes {size : ℕ} {new : Window ℚ} (made : ofSize? size = some new)
    (steps : List (Step ℚ)) :
    let sizes := Step.sizesSinceReset steps
    let count := min sizes.length (max size 1)
    (new.advanceAll steps).meanFlow =
      if sizes.length = 0 then 0
      else (leadAfter sizes sizes.length - leadAfter sizes (sizes.length - count)) / count := by
  intro sizes count
  obtain ⟨w, run⟩ : ∃ w, w = new.advanceAll steps := ⟨_, rfl⟩
  have flows : w.flows = (flowsAfter noSizes sizes).rtake (max size 1) :=
    run ▸ (keeps_advanceAll made steps).flows
  have length : w.flows.length = count := by rw [flows, length_rtake, length_flowsAfter]
  have sum : w.flows.sum =
      leadAfter sizes sizes.length - leadAfter sizes (sizes.length - count) := by
    have first : sizes.length - count = sizes.length - max size 1 := by omega
    rw [flows, sum_rtake_flows, first]
  have empty : w.flows.isEmpty = true ↔ sizes.length = 0 := by
    rw [List.isEmpty_iff_length_eq_zero, length]
    omega
  simp only [← run, meanFlow, Scalar.sum_eq, sum, length, empty]
  rfl

end Run

/-- The lead is three after the first book and two after the third, and there are two flows
between. -/
theorem meanFlow_telescopes_of_two :
    let _ : RationalRoot := ⟨id⟩
    let steps : List (Step ℚ) := [.bestSizes 9 1, .reset, .bestSizes 5 2, .midpoint 100,
      .bestSizes 6 2, .bestSizes 6 4]
    ∃ new : Window ℚ, ofSize? 2 = some new ∧ (new.advanceAll steps).meanFlow = -1 / 2 := by
  intro _ steps
  have made : ofSize? 2 = some (Window.empty 2 : Window ℚ) := rfl
  refine ⟨_, made, (meanFlow_telescopes made steps).trans ?_⟩
  decide +kernel

end Window

end Tape
