import Tape.Proofs.Json.ReadBack
import Tape.Proofs.Text.Numeral

/-!
# Number literals

A numeral that JSON admits has no plus sign, no zero before other digits and a digit on each side of
its point. One whose digits fit in 64 bits is read whole: as an integer where it has neither point
nor exponent, and else as its digits scaled once.
-/

namespace Tape

open Text (Mark Power Numeral Stops numeral digitValue)
open Text.Numeral (pointChars powerChars)

/-- A numeral as JSON admits it. -/
structure Text.Numeral.IsLiteral (t : Numeral) : Prop where
  mark : t.mark ≠ .plus
  whole : t.whole = ['0'] ∨ ∃ c rest, t.whole = c :: rest ∧ c ≠ '0'
  fraction : t.fraction ≠ some []

namespace Json

variable {negative : Bool} {tail : List Char}

/-! ## Digits -/

theorem gather_of_stops (significand taken : Nat) (stops : Stops tail) :
    gather significand taken tail = (significand, taken, tail) := by
  cases tail with
  | nil => rfl
  | cons c rest => simp [gather, stops c rfl]

/-- All digits are gathered when the number fits, whatever other character follows them. -/
theorem gather_digits_stops {ds : List Char} (all : ∀ c ∈ ds, c.isDigit = true) {significand : Nat}
    (fits : numeral significand ds < significandBound) (taken : Nat) (stops : Stops tail) :
    gather significand taken (ds ++ tail) = (numeral significand ds, taken + ds.length, tail) := by
  induction ds generalizing significand taken with
  | nil => exact gather_of_stops significand taken stops
  | cons c ds ih =>
      have digit := all c List.mem_cons_self
      have room := Nat.lt_of_le_of_lt (le_numeral (significand * 10 + digitValue c) ds) fits
      rw [List.cons_append, gather, digit, decide_eq_true room]
      simp only [Bool.and_self, if_true]
      rw [ih (fun d member => all d (List.mem_cons_of_mem _ member)) fits, List.length_cons,
        Nat.add_assoc, Nat.add_comm 1]
      rfl

/-- What is read after the digits before the point, or after the only digit, a zero. -/
theorem scanNumber_whole {whole : List Char} (digits : ∀ c ∈ whole, c.isDigit = true)
    (shape : whole = ['0'] ∨ ∃ c rest, whole = c :: rest ∧ c ≠ '0')
    (fits : numeral 0 whole < significandBound) (stops : Stops tail) :
    scanNumber negative (whole ++ tail) = scanWholeEnd negative (numeral 0 whole) tail := by
  rcases shape with rfl | ⟨c, rest, rfl, nonzero⟩
  · have none : numeral 0 ['0'] = 0 := rfl
    rw [none]
    cases tail with
    | nil => rfl
    | cons d after =>
        rw [List.singleton_append, scanNumber]
        simp [stops d rfl]
  · have first := digits c List.mem_cons_self
    have value : numeral 0 (c :: rest) = numeral (digitValue c) rest := by simp [numeral]
    have gathered := gather_digits_stops (fun d member => digits d (List.mem_cons_of_mem _ member))
      (value ▸ fits) 1 stops
    simp only [List.cons_append, scanNumber, if_neg nonzero, if_pos first, gathered, value]

/-! ## Exponents -/

/-- What an exponent makes of the digits before it. One beyond 32 bits makes a zero of them, or
nothing. -/
def exponentScan (negative : Bool) (significand : Nat) (start : Int) (p : Power) : NumberScan :=
  if largestExponent < numeral 0 p.size then
    if significand ≠ 0 && !p.mark.isNegative then
      ⟨.error (.before .numberTooLarge (afterLargeExponent 0 p.size)), []⟩
    else ⟨.ok (.real (signed negative 0)), []⟩
  else realScan negative significand (clampExponent (start + p.value)) []

/-- The sign of an exponent is read before its digits. -/
theorem scanExponent_mark (significand : Nat) (start : Int) (mark : Mark) {size : List Char}
    (digits : ∀ c ∈ size, c.isDigit = true) (some : size ≠ []) :
    scanExponent negative significand start (mark.chars ++ size) =
      if largestExponent < numeral 0 size then
        if significand ≠ 0 && !mark.isNegative then
          .ok ⟨.error (.before .numberTooLarge (afterLargeExponent 0 size)), []⟩
        else .ok ⟨.ok (.real (signed negative 0)), []⟩
      else .ok (realScan negative significand (clampExponent
        (if mark.isNegative then start - numeral 0 size else start + numeral 0 size)) []) := by
  have taken := Text.takeWhile_digits_append digits Text.stops_nil
  have left := Text.dropWhile_digits_append digits Text.stops_nil
  rw [List.append_nil] at taken left
  obtain ⟨c, rest, rfl⟩ := List.exists_cons_of_ne_nil some
  have first := digits c List.mem_cons_self
  cases mark with
  | absent =>
      have notMinus : c ≠ '-' := by rintro rfl; cases first
      have notPlus : c ≠ '+' := by rintro rfl; cases first
      simp only [Mark.chars, List.nil_append, scanExponent, List.cons.injEq, notMinus, notPlus,
        false_and, imp_self, implies_true, if_pos first, taken, left]
      rfl
  | plus =>
      simp only [Mark.chars, List.cons_append, List.nil_append, scanExponent, if_pos first, taken,
        left]
      rfl
  | minus =>
      simp only [Mark.chars, List.cons_append, List.nil_append, scanExponent, if_pos first, taken,
        left]
      rfl

theorem scanExponent_power (significand : Nat) (start : Int) (p : Power) :
    scanExponent negative significand start (p.mark.chars ++ p.size) =
      .ok (exponentScan negative significand start p) := by
  have value : (if p.mark.isNegative then start - (numeral 0 p.size : Int)
      else start + numeral 0 p.size) = start + p.value := by
    rw [Power.value]
    split <;> omega
  rw [scanExponent_mark significand start p.mark p.digits p.size_ne_nil, value, exponentScan]
  split
  · split <;> rfl
  · rfl

/-- What an exponent or the end of the numeral makes of the digits before it. -/
def realEndScan (negative : Bool) (significand : Nat) (start : Int) : Option Power → NumberScan
  | none => realScan negative significand start []
  | some p => exponentScan negative significand start p

theorem scanRealEnd_power (significand : Nat) (start : Int) (power : Option Power) :
    scanRealEnd negative significand start (powerChars power) =
      .ok (realEndScan negative significand start power) := by
  cases power with
  | none => rfl
  | some p =>
      have letter : (p.letter = 'e' || p.letter = 'E') = true := by simpa using p.isLetter
      simp only [powerChars, Power.chars, scanRealEnd, if_pos letter]
      exact scanExponent_power significand start p

/-- Exponents of 32 bits are taken as they are. -/
theorem realEndScan_of_range {significand : Nat} {start : Int} {power : Option Power}
    (small : ∀ p ∈ power, numeral 0 p.size ≤ largestExponent)
    (range : (start + (power.map Power.value).getD 0).natAbs ≤ largestExponent) :
    realEndScan negative significand start power =
      realScan negative significand (start + (power.map Power.value).getD 0) [] := by
  cases power with
  | none =>
      rw [Option.map_none, Option.getD_none, add_zero]
      rfl
  | some p =>
      have clamped : clampExponent (start + p.value) = start + p.value := by
        change (start + p.value).natAbs ≤ largestExponent at range
        rw [clampExponent]
        omega
      change exponentScan negative significand start p =
        realScan negative significand (start + p.value) []
      rw [exponentScan, if_neg (Nat.not_lt.2 (small p rfl)), clamped]

/-! ## Literals -/

theorem numeral_whole_le (t : Numeral) : numeral 0 t.whole ≤ t.significand := by
  rw [Text.Numeral.significand, Text.numeral_append]
  exact le_numeral _ _

section Literals

variable {t : Numeral} (literal : t.IsLiteral)
include literal

theorem scanNumber_body (fits : t.significand < significandBound) :
    scanNumber negative t.body =
      scanWholeEnd negative (numeral 0 t.whole) (pointChars t.fraction ++ powerChars t.power) :=
  scanNumber_whole t.whole_digits literal.whole
    (Nat.lt_of_le_of_lt (numeral_whole_le t) fits) (Text.Numeral.stops_pointChars _ _)

/-- A literal without point and exponent is a whole number. -/
theorem scanNumber_integer (fits : t.significand < significandBound) (noPoint : t.fraction = none)
    (noPower : t.power = none) :
    scanNumber negative t.body = .ok ⟨.ok (wholeNumber negative t.significand), []⟩ := by
  rw [scanNumber_body literal fits, noPoint, noPower, Text.Numeral.significand_of_none noPoint]
  rfl

/-- Any other literal is its digits with a power of ten. -/
theorem scanNumber_real (fits : t.significand < significandBound)
    (real : t.fraction ≠ none ∨ t.power ≠ none) :
    scanNumber negative t.body =
      .ok (realEndScan negative t.significand (0 - (t.places.length : Int)) t.power) := by
  rw [scanNumber_body literal fits]
  have last := @scanRealEnd_power negative t.significand (0 - (t.places.length : Int)) t.power
  cases point : t.fraction with
  | none =>
      rw [← last, Text.Numeral.places_of_none point, List.length_nil,
        ← Text.Numeral.significand_of_none point]
      cases power : t.power with
      | none => exact absurd power (by simpa [point] using real)
      | some p =>
          rcases p.isLetter with letter | letter <;>
            simp only [pointChars, powerChars, Power.chars, List.nil_append, letter, scanWholeEnd,
              scanRealEnd] <;> rfl
  | some ds =>
      have digits := Text.Numeral.digits_of_some point
      have some : ds ≠ [] := fun none => literal.fraction (none ▸ point)
      have places := Text.Numeral.places_of_some point
      have all : numeral (numeral 0 t.whole) ds = t.significand := by
        rw [Text.Numeral.significand, places, Text.numeral_append]
      have stops := Text.Numeral.stops_powerChars t.power
      have gathered := gather_digits_stops digits (all ▸ fits) 0 stops
      rw [all, Nat.zero_add] at gathered
      have taken : ds.length ≠ 0 := by simpa using some
      rw [← last, places]
      simp only [pointChars, List.cons_append, scanWholeEnd, if_true, scanFraction, gathered]
      cases power : t.power with
      | none => simp only [powerChars, if_neg taken]
      | some p =>
          have letter : p.letter.isDigit = false := by
            rcases p.isLetter with letter | letter <;> rw [letter] <;> rfl
          simp only [powerChars, Power.chars, letter, Bool.false_eq_true, if_false, if_neg taken]

/-- A literal with exponents of 32 bits is its digits scaled once. -/
theorem scanNumber_scaled (fits : t.significand < significandBound)
    (real : t.fraction ≠ none ∨ t.power ≠ none)
    (small : ∀ p ∈ t.power, numeral 0 p.size ≤ largestExponent)
    (range : t.shift.natAbs ≤ largestExponent) :
    scanNumber negative t.body = .ok (realScan negative t.significand t.shift []) := by
  have value : t.shift = 0 - (t.places.length : Int) + (t.power.map Power.value).getD 0 := by
    rw [Text.Numeral.shift, Text.Numeral.exponent]
    omega
  rw [value] at range ⊢
  rw [scanNumber_real literal fits real, realEndScan_of_range small range]

/-! ## Reading -/

/-- The value of a literal is scanned after its sign. -/
theorem scanValue_literal (fuel depth : Nat) :
    scanValue (fuel + 1) depth t.chars = scanNumberOutline t.mark.isNegative t.body := by
  obtain ⟨c, rest, start, digit⟩ : ∃ c rest, t.body = c :: rest ∧ c.isDigit = true := by
    rw [Text.Numeral.body]
    rcases literal.whole with whole | ⟨c, rest, whole, _⟩
    · exact ⟨'0', _, by rw [whole]; rfl, rfl⟩
    · exact ⟨c, _, by rw [whole]; rfl, t.whole_digits c (whole ▸ List.mem_cons_self)⟩
  rw [Text.Numeral.chars]
  cases mark : t.mark with
  | absent =>
      rw [Mark.chars, List.nil_append, start, scanValue_of_isDigit digit]
      rfl
  | minus =>
      rw [Mark.chars, List.singleton_append, scanValue_minus]
      rfl
  | plus => exact absurd mark literal.mark

/-- A literal is read as the number that its characters after the sign are. -/
theorem readChars_literal {n : Number}
    (scan : scanNumber t.mark.isNegative t.body = .ok ⟨.ok n, []⟩) :
    readChars t.chars = .ok (.number n) := by
  have outline : scanNumberOutline t.mark.isNegative t.body = ⟨.number n, some []⟩ := by
    rw [scanNumberOutline, scan]
  obtain ⟨content, last⟩ := ofChars_eq t.chars
  rw [scanValue_literal literal, outline] at content last
  rw [readChars_eq_ok, content]
  refine ⟨rfl, last.2 fun left same => ?_⟩
  cases same
  rfl

/-- The number that a literal is read as was scanned. -/
theorem scanNumber_of_readChars {n : Number} (read : readChars t.chars = .ok (.number n)) :
    ∃ rest, scanNumber t.mark.isNegative t.body = .ok ⟨.ok n, rest⟩ := by
  obtain ⟨value, _⟩ := readChars_eq_ok.1 read
  have outline := content_of_value value
  rw [(ofChars_eq t.chars).1, scanValue_literal literal, scanNumberOutline] at outline
  cases scan : scanNumber t.mark.isNegative t.body with
  | error flaw =>
      rw [scan] at outline
      cases outline
  | ok found =>
      obtain ⟨value, rest⟩ := found
      rw [scan] at outline
      cases value with
      | error flaw => cases outline
      | ok m =>
          cases outline
          exact ⟨rest, rfl⟩

end Literals

end Json

end Tape
