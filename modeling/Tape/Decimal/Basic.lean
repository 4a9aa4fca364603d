import Tape.Text.Basic

/-!
# Exact decimal prices

A decimal is a signed whole number of at most 96 bits over a power of ten of at most 28 places.
Prices are compared by the exact number that they denote, which `units` gives as a whole number of
the smallest place.
-/

namespace Tape

/-- The first number that 96 bits cannot hold. -/
def Decimal.mantissaBound : Nat := 79228162514264337593543950336

def Decimal.maxScale : Nat := 28

structure Decimal where
  negative : Bool
  mantissa : Nat
  scale : Nat
  mantissa_lt : mantissa < Decimal.mantissaBound
  scale_le : scale ≤ Decimal.maxScale
  deriving DecidableEq

namespace Decimal

def zero : Decimal := ⟨false, 0, 0, by decide, by decide⟩

instance : Inhabited Decimal := ⟨zero⟩

/-- The decimal with the given parts, when they fit. -/
def ofParts? (negative : Bool) (mantissa scale : Nat) : Option Decimal :=
  if h : mantissa < mantissaBound ∧ scale ≤ maxScale then
    some ⟨negative, mantissa, scale, h.1, h.2⟩
  else none

def ofInt? (n : Int) : Option Decimal := ofParts? (n < 0) n.natAbs 0

/-- The number in units of the smallest place. -/
def units (d : Decimal) : Int :=
  let size : Int := d.mantissa * (Nat.pow 10 (maxScale - d.scale) : Nat)
  if d.negative then -size else size

def isPositive (d : Decimal) : Bool := 0 < d.units

theorem isPositive_iff (d : Decimal) :
    d.isPositive = true ↔ d.negative = false ∧ 0 < d.mantissa := by
  have power : 0 < Nat.pow 10 (maxScale - d.scale) := Nat.pow_pos (by decide)
  have unit : (0 : Int) < (Nat.pow 10 (maxScale - d.scale) : Nat) := by exact_mod_cast power
  have size : (0 : Int) ≤ d.mantissa * (Nat.pow 10 (maxScale - d.scale) : Nat) :=
    Int.mul_nonneg (Int.natCast_nonneg _) (Int.le_of_lt unit)
  unfold isPositive units
  by_cases sign : d.negative = true
  · simp only [sign, if_true, decide_eq_true_eq]
    constructor
    · intro h
      omega
    · rintro ⟨h, _⟩
      cases h
  · simp only [sign, decide_eq_true_eq]
    constructor
    · intro h
      refine ⟨trivial, Nat.pos_of_ne_zero fun zero => ?_⟩
      simp [zero] at h
    · exact fun h => Int.mul_pos (by exact_mod_cast h.2) unit

/-! ## Lowest terms -/

/-- The parts without the zeros that end the places after the point. -/
def lowestParts : Nat → Nat → Nat × Nat
  | mantissa, 0 => (mantissa, 0)
  | mantissa, scale + 1 =>
      if mantissa % 10 = 0 then lowestParts (mantissa / 10) scale else (mantissa, scale + 1)

theorem lowestParts_le (mantissa scale : Nat) :
    (lowestParts mantissa scale).1 ≤ mantissa ∧ (lowestParts mantissa scale).2 ≤ scale := by
  induction scale generalizing mantissa with
  | zero => simp [lowestParts]
  | succ scale ih =>
    rw [lowestParts]
    split
    · have := ih (mantissa / 10)
      omega
    · simp

/-- The same number with the fewest places; zero has no sign. -/
def normalize (d : Decimal) : Decimal :=
  if d.mantissa = 0 then zero
  else
    have bound := lowestParts_le d.mantissa d.scale
    ⟨d.negative, (lowestParts d.mantissa d.scale).1, (lowestParts d.mantissa d.scale).2,
      Nat.lt_of_le_of_lt bound.1 d.mantissa_lt, Nat.le_trans bound.2 d.scale_le⟩

/-! ## Written form -/

def chars (d : Decimal) : List Char :=
  let ds := Text.digits d.mantissa
  let body :=
    if d.scale = 0 then ds
    else
      let padded := List.replicate (d.scale + 1 - ds.length) '0' ++ ds
      let whole := padded.length - d.scale
      padded.take whole ++ '.' :: padded.drop whole
  if d.negative then '-' :: body else body

def text (d : Decimal) : String := String.ofList d.chars

instance : Repr Decimal := ⟨fun d _ => d.text⟩

end Decimal

end Tape
