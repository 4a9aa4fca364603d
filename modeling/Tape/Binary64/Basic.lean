/-!
# Order and value of binary64 numbers

Every statement about a floating-point number goes through its bits. `rank` places all numbers in
one total order, with the negative zero just below the positive one; `compareKey` forgets the sign
of zero, so that two numbers are equal exactly when neither is NaN and their keys agree.
-/

namespace Tape.Binary64

/-- The bit that is set in negative numbers. -/
def signBit : Nat := 0x8000000000000000

/-- The bits of a fraction stay below this one. -/
def fractionBound : Nat := 0x10000000000000

def infinityMagnitude : Nat := 0x7FF0000000000000

def isNegative (x : Float) : Bool := signBit ≤ x.toBits.toNat

/-- The bits below the sign. -/
def magnitude (x : Float) : Nat := x.toBits.toNat % signBit

def isFinite (x : Float) : Bool := magnitude x < infinityMagnitude

def isNaN (x : Float) : Bool := infinityMagnitude < magnitude x

/-- The place of a number in the total order of all bit patterns. -/
def rank (x : Float) : Int :=
  if isNegative x then -(magnitude x : Int) - 1 else magnitude x

theorem toBits_eq_of_rank_eq {x y : Float} (h : rank x = rank y) : x.toBits = y.toBits := by
  apply UInt64.toNat_inj.1
  have hx := x.toBits.toNat_lt
  have hy := y.toBits.toNat_lt
  simp only [rank, isNegative, magnitude, decide_eq_true_eq] at h
  split at h <;> split at h <;> simp only [signBit] at * <;> omega

/-- A number that can price a level or measure one: finite and above zero. -/
def isPositive (x : Float) : Bool := 0 < rank x && rank x < infinityMagnitude

theorem isPositive_iff {x : Float} :
    isPositive x = true ↔ 0 < rank x ∧ rank x < infinityMagnitude := by
  simp [isPositive]

theorem isFinite_of_isPositive {x : Float} (h : isPositive x = true) : isFinite x = true := by
  rw [isPositive_iff] at h
  simp only [isFinite, decide_eq_true_eq]
  simp only [rank] at h
  split at h <;> omega

def compareKey (x : Float) : Int :=
  if isNegative x then -(magnitude x : Int) else magnitude x

/-- Numeric equality: NaN equals nothing, and the two zeros are equal. -/
def equal (x y : Float) : Bool := !isNaN x && !isNaN y && compareKey x == compareKey y

def less (x y : Float) : Bool := !isNaN x && !isNaN y && compareKey x < compareKey y

theorem equal_iff_rank_eq {x y : Float} (hx : isPositive x = true) (hy : isPositive y = true) :
    equal x y = true ↔ rank x = rank y := by
  rw [isPositive_iff] at hx hy
  simp only [equal, isNaN, compareKey, Bool.and_eq_true, Bool.not_eq_true', decide_eq_false_iff_not,
    beq_iff_eq]
  simp only [rank] at hx hy ⊢
  cases hsx : isNegative x <;> cases hsy : isNegative y <;> simp_all <;> omega

/-- Whole numbers up to this one have every value between them represented. -/
def exactBound : Float := 4503599627370496

/-- The nearest whole number, a half going away from zero. -/
def roundHalfAway (x : Float) : Float :=
  let size := x.abs
  if !less size exactBound then x
  else
    let whole := size.toUInt64
    let rest := size - whole.toFloat
    let rounded := if less rest 0.5 then whole.toFloat else (whole + 1).toFloat
    if isNegative x then -rounded else rounded

/-- A power by repeated squaring. -/
def power (base : Float) (exponent : Nat) : Float :=
  go exponent base 1 exponent
where
  go : Nat → Float → Float → Nat → Float
    | 0, _, total, _ => total
    | fuel + 1, square, total, left =>
        let total := if left % 2 == 1 then total * square else total
        if left / 2 == 0 then total else go fuel (square * square) total (left / 2)

end Tape.Binary64
