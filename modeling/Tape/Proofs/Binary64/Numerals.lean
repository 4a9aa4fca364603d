import Tape.Proofs.Binary64.Vanishing
import Tape.Proofs.Text.Numeral

/-!
# Numerals as binary64 numbers

The texts that are read as finite numbers are the numerals, and each is read as the number nearest
to what it denotes. In particular it is read as a zero exactly when what it denotes does not exceed
half of the smallest number above zero.
-/

namespace Tape.Binary64

open Tape.Text (Mark Power Numeral numeral Stops)
open Tape.Text.Numeral (powerChars pointChars)

/-! ## Exponents -/

theorem isExponentLetter_iff (c : Char) : (c = 'e' || c = 'E') = true ↔ c = 'e' ∨ c = 'E' := by
  simp

theorem exponent?_powerChars (power : Option Power) :
    exponent? (powerChars power) = some ((power.map Power.value).getD 0) := by
  cases power with
  | none => rfl
  | some p =>
      obtain ⟨letter, mark, size, isLetter, digits, sizeNeNil⟩ := p
      have known := (isExponentLetter_iff letter).2 isLetter
      have all : size.all Char.isDigit = true := List.all_eq_true.2 digits
      obtain ⟨c, rest, rfl⟩ := List.exists_cons_of_ne_nil sizeNeNil
      cases mark with
      | absent =>
          have first := digits c List.mem_cons_self
          simp only [powerChars, Power.chars, Mark.chars, List.nil_append, exponent?, if_pos known]
          split
          next same => cases same; cases first
          next same => cases same; cases first
          next => simp [all, Power.value, Mark.isNegative]
      | plus => simp [powerChars, Power.chars, Mark.chars, exponent?, known, all, Power.value, Mark.isNegative]
      | minus => simp [powerChars, Power.chars, Mark.chars, exponent?, known, all, Power.value, Mark.isNegative]

theorem exists_powerChars_of_size {letter : Char} (isLetter : letter = 'e' ∨ letter = 'E')
    (mark : Mark) {body : List Char} {d e : Int}
    (read : (if body ≠ [] && body.all Char.isDigit then some d else none) = some e) :
    ∃ power, letter :: (mark.chars ++ body) = powerChars power := by
  split at read
  next held =>
    rw [Bool.and_eq_true, decide_eq_true_eq, List.all_eq_true] at held
    exact ⟨some ⟨letter, mark, body, isLetter, held.2, held.1⟩, rfl⟩
  next => cases read

theorem exists_powerChars_of_exponent? {cs : List Char} {e : Int} (read : exponent? cs = some e) :
    ∃ power, cs = powerChars power := by
  cases cs with
  | nil => exact ⟨none, rfl⟩
  | cons letter rest =>
      simp only [exponent?] at read
      split at read
      next known =>
        have isLetter := (isExponentLetter_iff letter).1 known
        split at read
        · exact exists_powerChars_of_size isLetter .minus read
        · exact exists_powerChars_of_size isLetter .plus read
        · exact exists_powerChars_of_size isLetter .absent read
      next => cases read

/-! ## Numerals without a sign -/

theorem toLower_of_body {c : Char} (start : c.isDigit = true ∨ c = '.') :
    c.toLower ≠ 'i' ∧ c.toLower ≠ 'n' := by
  rcases start with digit | rfl
  · have bounds := Text.toNat_of_isDigit digit
    have plain : c.toLower = c := by
      rw [Char.toLower, dif_neg]
      rintro ⟨upper, _⟩
      have above : 65 ≤ c.toNat := UInt32.le_iff_toNat_le.1 upper
      omega
    rw [plain]
    constructor <;> rintro rfl <;> cases digit
  · decide

theorem unsigned?_body (t : Numeral) :
    unsigned? t.body = some (ofDecimal t.significand t.shift) := by
  obtain ⟨c, rest, start, first⟩ := t.exists_body_eq_cons
  have letter := toLower_of_body first
  have notInf : t.body.map Char.toLower ≠ "inf".toList := by
    rw [start]
    exact fun same => letter.1 (List.cons.inj same).1
  have notInfinity : t.body.map Char.toLower ≠ "infinity".toList := by
    rw [start]
    exact fun same => letter.1 (List.cons.inj same).1
  have notNaN : t.body.map Char.toLower ≠ "nan".toList := by
    rw [start]
    exact fun same => letter.2 (List.cons.inj same).1
  have stops := Text.Numeral.stops_pointChars t.fraction t.power
  have taken := Text.takeWhile_digits_append t.whole_digits stops
  have left := Text.dropWhile_digits_append t.whole_digits stops
  rw [unsigned?]
  simp only [notInf, notInfinity, notNaN, decide_false, Bool.or_self, Bool.false_eq_true, if_false]
  rw [Text.Numeral.body]
  simp only [taken, left]
  obtain ⟨mark, whole, fraction, power, wholeDigits, fractionDigits, someDigit⟩ := t
  have later := Text.Numeral.stops_powerChars power
  cases fraction with
  | none =>
      have held : decide (whole = []) = false := by
        simpa using someDigit
      have reads := exponent?_powerChars power
      cases power with
      | none =>
          simp only [powerChars] at reads
          simp only [pointChars, powerChars, List.nil_append, held, Bool.false_and, reads]
          rfl
      | some p =>
          obtain ⟨letter, sign, size, isLetter, digits, sizeNeNil⟩ := p
          rcases isLetter with rfl | rfl
          all_goals
            simp only [powerChars, Power.chars] at reads
            simp only [pointChars, powerChars, Power.chars, List.nil_append, held, Bool.false_and,
              List.cons.injEq, Char.reduceEq, false_and, imp_self, implies_true, reads]
            rfl
  | some ds =>
      have held : (whole = [] && ds = []) = false := by
        simpa using someDigit
      have digits : ∀ c ∈ ds, c.isDigit = true := fractionDigits
      simp only [pointChars, List.cons_append, Text.takeWhile_digits_append digits later,
        Text.dropWhile_digits_append digits later, held, Bool.false_eq_true, if_false,
        exponent?_powerChars, Option.map_some]
      rfl

theorem exists_body_of_parts {whole : List Char} (fraction : Option (List Char)) (tail : List Char)
    (wholeDigits : ∀ c ∈ whole, c.isDigit = true)
    (fractionDigits : ∀ c ∈ fraction.getD [], c.isDigit = true) {f : Int → Float} {x : Float}
    (read : (if whole = [] && fraction.getD [] = [] then none else (exponent? tail).map f) =
      some x) (mark : Mark) :
    ∃ t : Numeral, t.mark = mark ∧ whole ++ (pointChars fraction ++ tail) = t.body := by
  split at read
  next => cases read
  next some =>
    obtain ⟨e, known, _⟩ := Option.map_eq_some_iff.1 read
    obtain ⟨power, rfl⟩ := exists_powerChars_of_exponent? known
    have someDigit : whole ++ fraction.getD [] ≠ [] := by simpa using some
    exact ⟨⟨mark, whole, fraction, power, wholeDigits, fractionDigits, someDigit⟩, rfl, rfl⟩

/-- A text without a sign that is read as a finite number is a numeral. -/
theorem exists_body_of_unsigned? {cs : List Char} {x : Float} (read : unsigned? cs = some x)
    (finite : isFinite x = true) (mark : Mark) : ∃ t : Numeral, t.mark = mark ∧ cs = t.body := by
  have wholeDigits : ∀ c ∈ cs.takeWhile Char.isDigit, c.isDigit = true := fun _ member =>
    List.mem_takeWhile_imp member
  have split := List.takeWhile_append_dropWhile (p := Char.isDigit) (l := cs)
  rw [unsigned?] at read
  simp only at read
  split at read
  next => cases read; cases finite
  next =>
    split at read
    next => cases read; cases finite
    next =>
      rw [← split]
      generalize cs.dropWhile Char.isDigit = after at read
      rcases after with _ | ⟨c, rest⟩
      · exact exists_body_of_parts none _ wholeDigits (fun _ member => by cases member)
          read mark
      · by_cases point : c = '.'
        · subst point
          have digits : ∀ c ∈ rest.takeWhile Char.isDigit, c.isDigit = true := fun _ member =>
            List.mem_takeWhile_imp member
          have parts := exists_body_of_parts (some (rest.takeWhile Char.isDigit))
            (rest.dropWhile Char.isDigit) wholeDigits digits read mark
          rwa [pointChars, List.cons_append, List.takeWhile_append_dropWhile] at parts
        · simp only [List.cons.injEq, point, false_and, imp_self, implies_true] at read
          exact exists_body_of_parts none _ wholeDigits
            (fun _ member => by cases member) read mark

/-! ## Numerals -/

/-- A numeral is read as the number nearest to what it denotes. -/
theorem ofChars?_chars (t : Numeral) :
    ofChars? t.chars = some (if t.mark.isNegative then -(ofDecimal t.significand t.shift)
      else ofDecimal t.significand t.shift) := by
  obtain ⟨c, rest, start, first⟩ := t.exists_body_eq_cons
  have reads := unsigned?_body t
  rw [Text.Numeral.chars]
  cases t.mark with
  | minus => simp [Mark.chars, ofChars?, reads, Mark.isNegative]
  | plus => simp [Mark.chars, ofChars?, reads, Mark.isNegative]
  | absent =>
      rw [start] at reads
      have notMinus : c ≠ '-' := by rintro rfl; rcases first with first | first <;> cases first
      have notPlus : c ≠ '+' := by rintro rfl; rcases first with first | first <;> cases first
      simp [Mark.chars, ofChars?, start, notMinus, notPlus, reads, Mark.isNegative]

/-- A text that is read as a finite number is a numeral. -/
theorem exists_numeral_of_ofChars? {cs : List Char} {x : Float} (read : ofChars? cs = some x)
    (finite : isFinite x = true) : ∃ t : Numeral, cs = t.chars := by
  rw [ofChars?.eq_def] at read
  split at read
  next rest =>
    obtain ⟨y, known, rfl⟩ := Option.map_eq_some_iff.1 read
    rw [isFinite, magnitude_neg] at finite
    obtain ⟨t, mark, rfl⟩ := exists_body_of_unsigned? known finite .minus
    exact ⟨t, by rw [Text.Numeral.chars, mark]; rfl⟩
  next rest =>
    obtain ⟨t, mark, rfl⟩ := exists_body_of_unsigned? read finite .plus
    exact ⟨t, by rw [Text.Numeral.chars, mark]; rfl⟩
  next =>
    obtain ⟨t, mark, rfl⟩ := exists_body_of_unsigned? read finite .absent
    exact ⟨t, by rw [Text.Numeral.chars, mark]; rfl⟩

/-- A numeral is read as a zero exactly when it denotes at most half of the smallest number. -/
theorem magnitude_ofChars?_eq_zero_iff {t : Numeral} {x : Float} (read : ofChars? t.chars = some x) :
    magnitude x = 0 ↔ |t.value| ≤ vanishingBound := by
  rw [ofChars?_chars] at read
  cases read
  rw [t.abs_value, Text.Numeral.size, ← magnitude_ofDecimal_eq_zero_iff]
  split
  · rw [magnitude_neg]
  · rfl

end Tape.Binary64
