/-!
# Words

How large whole numbers of a fixed number of bits can be. The bounds themselves do not fit any more.
-/

namespace Tape.Word

def bound16 : Nat := 65536

def bound32 : Nat := 4294967296

def bound64 : Nat := 18446744073709551616

/-- The bound of the numbers of 64 bits of which one is the sign. -/
def signedBound64 : Nat := 9223372036854775808

/-- Whether a number has 64 bits with its sign. -/
def isSigned64 (n : Int) : Bool := -(signedBound64 : Int) ≤ n && n < signedBound64

theorem isSigned64_iff (n : Int) :
    isSigned64 n = true ↔ -(signedBound64 : Int) ≤ n ∧ n < signedBound64 := by
  simp [isSigned64]

end Tape.Word
