import Tape.Binary64.Basic

/-!
# Numbers that statistics are computed with

The statistics are written once for every kind of number that has the four operations, a count, a
square root and a test for being above zero. The program runs them on binary64 numbers.
-/

namespace Tape

class Scalar (α : Type) extends Add α, Sub α, Mul α, Div α where
  zero : α
  /-- What a sum of many numbers starts from. -/
  sumStart : α
  ofCount : Nat → α
  isPositive : α → Bool
  sqrt : α → α

namespace Scalar

def sum [Scalar α] (values : List α) : α := values.foldl (· + ·) sumStart

/-- The number itself when it is above zero, and zero otherwise. -/
def clamp [Scalar α] (x : α) : α := if isPositive x then x else zero

end Scalar

/-- A sum of binary64 numbers starts from the negative zero, which changes no number. -/
instance : Scalar Float where
  zero := 0
  sumStart := -0.0
  ofCount := Float.ofNat
  isPositive x := Binary64.less 0 x
  sqrt := Float.sqrt

end Tape
