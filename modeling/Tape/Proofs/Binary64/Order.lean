import Mathlib
import Tape.Binary64.Basic

/-!
# The numeric order of binary64 numbers

Numeric comparison goes by the compare key, which forgets the sign of zero. Between finite numbers
above zero it is the order of the ranks, and numeric equality is identity.
-/

namespace Tape.Binary64

theorem eq_of_rank_eq {x y : Float} (same : rank x = rank y) : x = y :=
  Float.toBits_inj.1 (toBits_eq_of_rank_eq same)

/-! ## Zero -/

theorem compareKey_zero : compareKey 0 = 0 := by decide

theorem isFinite_zero : isFinite 0 = true := by decide

theorem not_isNaN_of_isFinite {x : Float} (finite : isFinite x = true) : isNaN x = false := by
  simp only [isFinite, isNaN, decide_eq_true_eq, decide_eq_false_iff_not] at finite ⊢
  omega

/-! ## Comparison -/

theorem less_iff {x y : Float} (hx : isNaN x = false) (hy : isNaN y = false) :
    less x y = true ↔ compareKey x < compareKey y := by
  simp [less, hx, hy]

theorem less_irrefl (x : Float) : less x x = false := by
  simp [less]

theorem less_trans {x y z : Float} (xy : less x y = true) (yz : less y z = true) :
    less x z = true := by
  simp only [less, Bool.and_eq_true, decide_eq_true_eq] at xy yz ⊢
  exact ⟨⟨xy.1.1, yz.1.2⟩, Int.lt_trans xy.2 yz.2⟩

theorem compareKey_eq_rank {x : Float} (positive : 0 < rank x) : compareKey x = rank x := by
  simp only [rank, compareKey] at positive ⊢
  split
  next negative =>
    rw [if_pos negative] at positive
    omega
  next => rfl

theorem isNaN_of_isPositive {x : Float} (positive : isPositive x = true) : isNaN x = false :=
  not_isNaN_of_isFinite (isFinite_of_isPositive positive)

theorem less_iff_rank_lt {x y : Float} (hx : isPositive x = true) (hy : isPositive y = true) :
    less x y = true ↔ rank x < rank y := by
  rw [less_iff (isNaN_of_isPositive hx) (isNaN_of_isPositive hy),
    compareKey_eq_rank (isPositive_iff.1 hx).1, compareKey_eq_rank (isPositive_iff.1 hy).1]

theorem equal_iff_eq {x y : Float} (hx : isPositive x = true) (hy : isPositive y = true) :
    equal x y = true ↔ x = y := by
  rw [equal_iff_rank_eq hx hy]
  exact ⟨eq_of_rank_eq, congrArg rank⟩

theorem less_or_eq_or_less {x y : Float} (hx : isPositive x = true) (hy : isPositive y = true) :
    less x y = true ∨ x = y ∨ less y x = true := by
  rw [less_iff_rank_lt hx hy, less_iff_rank_lt hy hx]
  rcases Int.lt_trichotomy (rank x) (rank y) with below | same | above
  · exact .inl below
  · exact .inr (.inl (eq_of_rank_eq same))
  · exact .inr (.inr above)

/-- A number is positive in the sense of levels when it is finite and compares above zero. -/
theorem isPositive_iff_less {x : Float} :
    isPositive x = true ↔ isFinite x = true ∧ less 0 x = true := by
  constructor
  · intro positive
    refine ⟨isFinite_of_isPositive positive, ?_⟩
    have above := (isPositive_iff.1 positive).1
    rw [less_iff (not_isNaN_of_isFinite isFinite_zero) (isNaN_of_isPositive positive),
      compareKey_zero, compareKey_eq_rank above]
    exact above
  · rintro ⟨finite, above⟩
    rw [less_iff (not_isNaN_of_isFinite isFinite_zero) (not_isNaN_of_isFinite finite),
      compareKey_zero] at above
    rw [isPositive_iff]
    simp only [isFinite, decide_eq_true_eq] at finite
    simp only [rank, compareKey] at above ⊢
    split at above
    · omega
    next nonnegative =>
      rw [if_neg nonnegative]
      omega

theorem equal_zero_of_isPositive {x : Float} (positive : isPositive x = true) :
    equal x 0 = false := by
  have above := (isPositive_iff.1 positive).1
  have key := compareKey_eq_rank above
  have apart : compareKey x ≠ compareKey 0 := by
    rw [key, compareKey_zero]
    omega
  simp [equal, apart]

theorem equal_zero_zero : equal 0 0 = true := by decide

end Tape.Binary64
