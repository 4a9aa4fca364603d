import Tape.Binary64.Basic

/-!
# The fewest digits that read back

A finite nonzero number stands for an interval of reals, those that round to it. Among the decimals
with the fewest digits in that interval the one nearest to the number is chosen, and of two equally
near ones the even one.
-/

namespace Tape.Binary64

/-- The decimal `digits · 10 ^ exponent`. -/
structure Scientific where
  digits : Nat
  exponent : Int
  deriving DecidableEq, Repr

/-- A positive number as `mantissa · 2 ^ exponent`. -/
structure Parts where
  mantissa : Nat
  exponent : Int
  /-- The gap to the next smaller number is half the gap to the next larger one. -/
  narrowBelow : Bool
  deriving DecidableEq, Repr

def parts (x : Float) : Parts :=
  let field : Nat := magnitude x / fractionBound
  let fraction : Nat := magnitude x % fractionBound
  if field = 0 then ⟨fraction, -1074, false⟩
  else ⟨fractionBound + fraction, (field : Int) - 1075, fraction = 0 && 1 < field⟩

/-- The interval of a number, and the number itself, as fractions with one denominator. -/
structure Interval where
  low : Nat
  value : Nat
  high : Nat
  denominator : Nat
  closed : Bool
  deriving DecidableEq, Repr

def Parts.interval (p : Parts) : Interval :=
  let value := 4 * p.mantissa
  let low := if p.narrowBelow then value - 1 else value - 2
  let up := Nat.pow 2 (p.exponent - 2).toNat
  let down := Nat.pow 2 (2 - p.exponent).toNat
  ⟨low * up, value * up, (value + 2) * up, down, p.mantissa % 2 = 0⟩

def Interval.contains (i : Interval) (numerator : Nat) : Bool :=
  if i.closed then i.low ≤ numerator && numerator ≤ i.high
  else i.low < numerator && numerator < i.high

/-- The interval measured in units of `10 ^ exponent`. -/
def Interval.inUnits (i : Interval) (exponent : Int) : Interval :=
  let down := Nat.pow 10 exponent.toNat
  let up := Nat.pow 10 (-exponent).toNat
  ⟨i.low * up, i.value * up, i.high * up, i.denominator * down, i.closed⟩

def decimalLength (n : Nat) : Nat :=
  if n < 10 then 1 else decimalLength (n / 10) + 1
termination_by n
decreasing_by omega

/-- How many places the point of a fraction below one moves until the first digit is before it. -/
def leadingPlaces (value denominator : Nat) : Nat → Nat
  | 0 => 0
  | fuel + 1 =>
      if denominator ≤ value then 0 else leadingPlaces (value * 10) denominator fuel + 1

/-- The exponent of the first decimal digit of the value. -/
def Interval.leadingExponent (i : Interval) : Int :=
  if i.denominator ≤ i.value then (decimalLength (i.value / i.denominator) : Int) - 1
  else -(leadingPlaces i.value i.denominator 400 : Int)

/-- The multiple of one unit that stands in the interval, if one does. -/
def Interval.gridPoint? (i : Interval) : Option Nat :=
  let below := i.value / i.denominator
  let above := below + 1
  let belowIn := i.contains (below * i.denominator)
  let aboveIn := i.contains (above * i.denominator)
  if belowIn && aboveIn then
    let gapBelow := i.value - below * i.denominator
    let gapAbove := above * i.denominator - i.value
    if gapBelow < gapAbove then some below
    else if gapAbove < gapBelow then some above
    else some (if below % 2 = 0 then below else above)
  else if belowIn then some below
  else if aboveIn then some above
  else none

def searchGrid (i : Interval) (exponent : Int) : Nat → Scientific
  | 0 => ⟨i.value / i.denominator, 0⟩
  | fuel + 1 =>
      match (i.inUnits exponent).gridPoint? with
      | some digits => ⟨digits, exponent⟩
      | none => searchGrid i (exponent - 1) fuel

def dropZeros (digits : Nat) (exponent : Int) : Scientific :=
  if digits = 0 then ⟨0, 0⟩
  else if digits % 10 = 0 then dropZeros (digits / 10) (exponent + 1)
  else ⟨digits, exponent⟩
termination_by digits
decreasing_by omega

/-- The shortest decimal of the size of a finite nonzero number. -/
def shortest (x : Float) : Scientific :=
  let i := (parts x).interval
  let found := searchGrid i i.leadingExponent 18
  dropZeros found.digits found.exponent

end Tape.Binary64
