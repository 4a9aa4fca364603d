import Mathlib
import Tape.Text.Basic

/-!
# Decimal numerals

A numeral is a sign, digits with at most one point among them, and an exponent. Whatever a reader
makes of its characters, it denotes one exact rational number.
-/

namespace Tape.Text

theorem toNat_of_isDigit {c : Char} (digit : c.isDigit = true) : 48 ≤ c.toNat ∧ c.toNat ≤ 57 := by
  simp only [Char.isDigit, Bool.and_eq_true, decide_eq_true_eq] at digit
  exact ⟨digit.1, digit.2⟩

/-- Nothing that a digit could begin. -/
def Stops (cs : List Char) : Prop := ∀ c ∈ cs.head?, c.isDigit = false

theorem stops_nil : Stops [] := fun _ member => by cases member

theorem stops_cons {c : Char} (other : c.isDigit = false) (rest : List Char) : Stops (c :: rest) :=
  fun _ member => by cases member; exact other

section Digits

variable {ds tail : List Char} (all : ∀ c ∈ ds, c.isDigit = true) (stops : Stops tail)
include all stops

theorem takeWhile_digits_append : (ds ++ tail).takeWhile Char.isDigit = ds := by
  rw [List.takeWhile_append_of_pos all]
  cases tail with
  | nil => simp
  | cons c rest => rw [List.takeWhile_cons, stops c rfl]; simp

theorem dropWhile_digits_append : (ds ++ tail).dropWhile Char.isDigit = tail := by
  rw [List.dropWhile_append_of_pos all]
  cases tail with
  | nil => rfl
  | cons c rest => rw [List.dropWhile_cons, stops c rfl]; rfl

end Digits

/-- A sign as it stands before digits. -/
inductive Mark where
  | absent
  | plus
  | minus
  deriving DecidableEq

namespace Mark

def chars : Mark → List Char
  | absent => []
  | plus => ['+']
  | minus => ['-']

def isNegative : Mark → Bool
  | minus => true
  | _ => false

end Mark

/-- An exponent as it is written. -/
structure Power where
  letter : Char
  mark : Mark
  size : List Char
  isLetter : letter = 'e' ∨ letter = 'E'
  digits : ∀ c ∈ size, c.isDigit = true
  size_ne_nil : size ≠ []

namespace Power

def chars (p : Power) : List Char := p.letter :: (p.mark.chars ++ p.size)

def value (p : Power) : Int :=
  if p.mark.isNegative then -(numeral 0 p.size : Int) else numeral 0 p.size

end Power

structure Numeral where
  mark : Mark
  whole : List Char
  /-- The digits after the point, where there is a point. -/
  fraction : Option (List Char)
  power : Option Power
  whole_digits : ∀ c ∈ whole, c.isDigit = true
  fraction_digits : ∀ c ∈ fraction.getD [], c.isDigit = true
  some_digit : whole ++ fraction.getD [] ≠ []

namespace Numeral

def places (t : Numeral) : List Char := t.fraction.getD []

def pointChars : Option (List Char) → List Char
  | none => []
  | some ds => '.' :: ds

def powerChars : Option Power → List Char
  | none => []
  | some p => p.chars

/-- A numeral without its sign. -/
def body (t : Numeral) : List Char := t.whole ++ (pointChars t.fraction ++ powerChars t.power)

def chars (t : Numeral) : List Char := t.mark.chars ++ t.body

/-! ## Value -/

/-- All digits as one whole number. -/
def significand (t : Numeral) : Nat := numeral 0 (t.whole ++ t.places)

def exponent (t : Numeral) : Int := (t.power.map Power.value).getD 0

/-- The power of ten that the significand is taken by. -/
def shift (t : Numeral) : Int := t.exponent - t.places.length

/-- The number denoted without its sign. -/
def size (t : Numeral) : ℚ := t.significand * 10 ^ t.shift

/-- The number denoted. -/
def value (t : Numeral) : ℚ := if t.mark.isNegative then -t.size else t.size

theorem places_of_none {t : Numeral} (noPoint : t.fraction = none) : t.places = [] := by
  rw [places, noPoint, Option.getD_none]

theorem significand_of_none {t : Numeral} (noPoint : t.fraction = none) :
    t.significand = numeral 0 t.whole := by
  rw [significand, places_of_none noPoint, List.append_nil]

theorem places_of_some {t : Numeral} {ds : List Char} (point : t.fraction = some ds) :
    t.places = ds := by
  rw [places, point, Option.getD_some]

theorem digits_of_some {t : Numeral} {ds : List Char} (point : t.fraction = some ds) :
    ∀ c ∈ ds, c.isDigit = true := by
  have digits := t.fraction_digits
  rwa [point] at digits

theorem size_nonneg (t : Numeral) : 0 ≤ t.size := by
  rw [size]
  positivity

theorem abs_value (t : Numeral) : |t.value| = t.size := by
  rw [value]
  split
  · rw [abs_neg, abs_of_nonneg t.size_nonneg]
  · exact abs_of_nonneg t.size_nonneg

/-- The whole number that the size is over a power of ten. -/
def coefficient (t : Numeral) : Nat := t.significand * 10 ^ t.shift.toNat

def scale (t : Numeral) : Nat := (-t.shift).toNat

theorem size_eq (t : Numeral) : t.size = t.coefficient / 10 ^ t.scale := by
  rw [size, coefficient, scale]
  rcases Int.le_total 0 t.shift with whole | part
  · obtain ⟨n, same⟩ := Int.eq_ofNat_of_zero_le whole
    rw [same]
    simp
  · obtain ⟨n, same⟩ := Int.eq_ofNat_of_zero_le (Int.neg_nonneg.2 part)
    have shift : t.shift = -(n : Int) := by omega
    rw [shift]
    simp [div_eq_mul_inv]

theorem significand_le_coefficient (t : Numeral) : t.significand ≤ t.coefficient :=
  Nat.le_mul_of_pos_right _ (Nat.pow_pos (by decide))

/-! ## Characters -/

/-- A numeral without its exponent. -/
def base (t : Numeral) : Numeral := { t with power := none }

theorem chars_eq_base_append (t : Numeral) : t.chars = t.base.chars ++ powerChars t.power := by
  simp [chars, body, base, powerChars]

/-- The characters of numerals without an exponent. -/
def isPlain (c : Char) : Bool := c.isDigit || c = '+' || c = '-' || c = '.'

theorem isPlain_of_isDigit {c : Char} (digit : c.isDigit = true) : isPlain c = true := by
  simp [isPlain, digit]

theorem isPlain_of_mem_mark {mark : Mark} {c : Char} (member : c ∈ mark.chars) :
    isPlain c = true := by
  cases mark with
  | absent => cases member
  | plus => rw [List.mem_singleton.1 member]; rfl
  | minus => rw [List.mem_singleton.1 member]; rfl

theorem isPlain_of_mem_base (t : Numeral) : ∀ c ∈ t.base.chars, isPlain c = true := by
  intro c member
  simp only [chars, body, base, powerChars, List.append_nil, List.mem_append] at member
  rcases member with sign | whole | point
  · exact isPlain_of_mem_mark sign
  · exact isPlain_of_isDigit (t.whole_digits c whole)
  · cases fraction : t.fraction with
    | none => rw [fraction] at point; cases point
    | some ds =>
        rw [fraction] at point
        rcases List.mem_cons.1 point with rfl | place
        · rfl
        · exact isPlain_of_isDigit (digits_of_some fraction c place)

theorem isPlain_or_letter_of_mem_chars (t : Numeral) :
    ∀ c ∈ t.chars, isPlain c = true ∨ c = 'e' ∨ c = 'E' := by
  intro c member
  rw [chars_eq_base_append, List.mem_append] at member
  rcases member with front | power
  · exact .inl (t.isPlain_of_mem_base c front)
  · cases known : t.power with
    | none => rw [known] at power; cases power
    | some p =>
        rw [known] at power
        rcases List.mem_cons.1 power with rfl | rest
        · exact .inr p.isLetter
        · rcases List.mem_append.1 rest with sign | size
          · exact .inl (isPlain_of_mem_mark sign)
          · exact .inl (isPlain_of_isDigit (p.digits c size))

theorem not_isBlank_of_mem_chars (t : Numeral) : ∀ c ∈ t.chars, isBlank c = false := by
  intro c member
  have known := t.isPlain_or_letter_of_mem_chars c member
  simp only [isPlain, Bool.or_eq_true, decide_eq_true_eq] at known
  rcases known with (((digit | rfl) | rfl) | rfl) | rfl | rfl
  · obtain ⟨low, high⟩ := toNat_of_isDigit digit
    simp only [isBlank, Bool.or_eq_false_iff, Bool.and_eq_false_iff, decide_eq_false_iff_not,
      beq_eq_false_iff_ne]
    omega
  all_goals decide

/-- A numeral has no blanks to trim. -/
theorem trim_chars (t : Numeral) : trim t.chars = t.chars := by
  have solid := t.not_isBlank_of_mem_chars
  have kept (cs : List Char) (all : ∀ c ∈ cs, isBlank c = false) : cs.dropWhile isBlank = cs := by
    cases cs with
    | nil => rfl
    | cons c rest => rw [List.dropWhile_cons, all c List.mem_cons_self]; rfl
  rw [trim, trimStart, kept _ solid, trimEnd, kept _ (by simpa using solid), List.reverse_reverse]

theorem stops_powerChars (power : Option Power) : Stops (powerChars power) := by
  cases power with
  | none => exact stops_nil
  | some p =>
      refine stops_cons ?_ _
      rcases p.isLetter with letter | letter <;> rw [letter] <;> rfl

theorem stops_pointChars (fraction : Option (List Char)) (power : Option Power) :
    Stops (pointChars fraction ++ powerChars power) := by
  cases fraction with
  | none => exact stops_powerChars power
  | some ds => exact stops_cons rfl _

/-- A numeral without its sign begins with a digit or with the point. -/
theorem exists_body_eq_cons (t : Numeral) :
    ∃ c rest, t.body = c :: rest ∧ (c.isDigit = true ∨ c = '.') := by
  obtain ⟨mark, whole, fraction, power, wholeDigits, fractionDigits, someDigit⟩ := t
  cases whole with
  | cons c rest => exact ⟨c, _, rfl, .inl (wholeDigits c List.mem_cons_self)⟩
  | nil =>
      cases fraction with
      | none => exact absurd rfl someDigit
      | some ds => exact ⟨'.', _, rfl, .inr rfl⟩

end Numeral

end Tape.Text
