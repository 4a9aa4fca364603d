import Tape.Decimal.Reader
import Tape.Proofs.Json.Numerals
import Tape.Proofs.Text.Numeral

/-!
# Numerals as decimals

A numeral whose digits fit in 96 bits and whose places fit in the scale is read exactly: with an
exponent or without one, the decimal is the number that it denotes.
-/

namespace Tape.Decimal

open Tape.Json (le_numeral)
open Tape.Text (Mark Power Numeral numeral digitValue)
open Tape.Text.Numeral (pointChars powerChars)

/-! ## Digits -/

/-- Digits that fit are taken one by one, each a place more behind the point. -/
theorem readPlaces?_digits {ds : List Char} (all : ∀ c ∈ ds, c.isDigit = true) (point started : Bool)
    (p : Places) (tail : List Char) (fits : numeral p.mantissa ds < mantissaBound)
    (places : point = true → p.scale + ds.length < maxScale) :
    readPlaces? point started p (ds ++ tail) = readPlaces? point (started || ds ≠ [])
      ⟨numeral p.mantissa ds, if point then p.scale + ds.length else p.scale⟩ tail := by
  induction ds generalizing started p with
  | nil => cases point <;> simp [numeral]
  | cons c ds ih =>
      have digit := all c List.mem_cons_self
      have step : numeral p.mantissa (c :: ds) = numeral (p.mantissa * 10 + digitValue c) ds := rfl
      have room := le_numeral (p.mantissa * 10 + digitValue c) ds
      rw [step] at fits ⊢
      rw [List.cons_append, readPlaces?, if_pos digit]
      simp only [if_neg (show ¬mantissaBound ≤ p.mantissa * 10 + digitValue c by omega)]
      cases point with
      | false =>
          simp only [Bool.false_and, Bool.false_eq_true, if_false]
          rw [ih (fun d member => all d (List.mem_cons_of_mem _ member)) true _ fits
            (fun yes => by cases yes)]
          simp
      | true =>
          have later := places rfl
          rw [List.length_cons] at later
          simp only [Bool.true_and, if_true, decide_eq_true_eq,
            if_neg (show ¬maxScale ≤ p.scale + 1 by omega)]
          rw [ih (fun d member => all d (List.mem_cons_of_mem _ member)) true _ fits
            (fun _ => by simp only; omega)]
          simp only [Bool.true_or, if_true, ne_eq, reduceCtorEq, not_false_eq_true, decide_true,
            Bool.or_true, List.length_cons]
          congr 2
          omega

/-- A numeral up to its exponent is read exactly, if its digits and places fit. -/
theorem readPlaces?_body (t : Numeral) (tail : List Char) (fits : t.significand < mantissaBound)
    (places : t.places.length < maxScale) :
    readPlaces? false false ⟨0, 0⟩ (t.whole ++ (pointChars t.fraction ++ tail)) =
      readPlaces? t.fraction.isSome true ⟨t.significand, t.places.length⟩ tail := by
  have split : t.significand = numeral (numeral 0 t.whole) t.places := by
    rw [Text.Numeral.significand, Text.numeral_append]
  have wholeFits := Nat.lt_of_le_of_lt (le_numeral (numeral 0 t.whole) t.places) (split ▸ fits)
  have first := readPlaces?_digits t.whole_digits false false ⟨0, 0⟩
    (pointChars t.fraction ++ tail) wholeFits (fun yes => by cases yes)
  have someDigit := t.some_digit
  rw [first]
  cases point : t.fraction with
  | none =>
      have none := Text.Numeral.places_of_none point
      rw [point, Option.getD_none, List.append_nil] at someDigit
      rw [none] at split ⊢
      simp [pointChars, someDigit, split, numeral]
  | some ds =>
      have places' := Text.Numeral.places_of_some point
      have digits := Text.Numeral.digits_of_some point
      rw [point, Option.getD_some] at someDigit
      rw [places'] at split places ⊢
      have second := readPlaces?_digits digits true (t.whole ≠ []) ⟨numeral 0 t.whole, 0⟩ tail
        (split ▸ fits) (fun _ => by simpa using places)
      have started : (decide (t.whole ≠ []) || decide (ds ≠ [])) = true := by
        by_contra none
        simp only [ne_eq, decide_not, Bool.or_eq_true, Bool.not_eq_true', decide_eq_false_iff_not,
          not_or, not_not] at none
        exact someDigit (by rw [none.1, none.2]; rfl)
      rw [started] at second
      simp only [pointChars, List.cons_append, Bool.false_or, Bool.false_eq_true, if_false]
      rw [readPlaces?, if_neg (by decide), if_pos (by decide), second, split]
      simp

theorem splitSign_chars (t : Numeral) : splitSign t.chars = (t.mark.isNegative, t.body) := by
  obtain ⟨c, rest, start, first⟩ := t.exists_body_eq_cons
  rw [Text.Numeral.chars]
  cases t.mark with
  | minus => rfl
  | plus => rfl
  | absent =>
      have notMinus : c ≠ '-' := by rintro rfl; rcases first with first | first <;> cases first
      have notPlus : c ≠ '+' := by rintro rfl; rcases first with first | first <;> cases first
      simp [Mark.chars, splitSign, start, notMinus, notPlus, Mark.isNegative]

/-! ## Exponents -/

theorem unsigned?_base (t : Numeral) (fits : t.significand < mantissaBound)
    (places : t.places.length < maxScale) :
    unsigned? t.base.body = some ⟨t.significand, t.places.length⟩ := by
  rw [unsigned?, Text.Numeral.body, readPlaces?_body t.base _ fits places]
  rfl

theorem not_isExponentMark_of_mem_base (t : Numeral) :
    ∀ c ∈ t.base.chars, (!isExponentMark c) = true := by
  intro c member
  have plain := t.isPlain_of_mem_base c member
  simp only [Text.Numeral.isPlain, Bool.or_eq_true, decide_eq_true_eq] at plain
  rw [isExponentMark, Bool.not_eq_true', Bool.or_eq_false_iff, decide_eq_false_iff_not,
    decide_eq_false_iff_not]
  constructor <;> rintro rfl <;> simp at plain

theorem toNat?_plus (ds : List Char) (digits : ∀ c ∈ ds, c.isDigit = true) (some : ds ≠ []) :
    Text.toNat? ('+' :: ds) = .some (numeral 0 ds) := by
  have all : ds.all Char.isDigit = true := List.all_eq_true.2 digits
  simp [Text.toNat?, some, all]

theorem toNat?_digits (ds : List Char) (digits : ∀ c ∈ ds, c.isDigit = true) (some : ds ≠ []) :
    Text.toNat? ds = .some (numeral 0 ds) := by
  have all : ds.all Char.isDigit = true := List.all_eq_true.2 digits
  obtain ⟨c, rest, rfl⟩ := List.exists_cons_of_ne_nil some
  have notPlus : c ≠ '+' := by
    rintro rfl
    cases digits '+' List.mem_cons_self
  simp only [Text.toNat?, List.cons.injEq, notPlus, false_and, imp_self, implies_true, all]
  rfl

theorem scientific?_chars (t : Numeral) {p : Power} (power : t.power = some p)
    (fits : t.significand < mantissaBound) (places : t.places.length < maxScale) :
    scientific? t.chars = (shift? ⟨t.significand, t.places.length⟩ p.mark.isNegative
      (numeral 0 p.size)).bind fun q => ofParts? t.mark.isNegative q.mantissa q.scale := by
  have letter : (!isExponentMark p.letter) = false := by
    rcases p.isLetter with letter | letter <;> rw [letter] <;> rfl
  have front : t.chars.takeWhile (fun c => !isExponentMark c) = t.base.chars := by
    rw [t.chars_eq_base_append, power, List.takeWhile_append_of_pos (not_isExponentMark_of_mem_base t)]
    simp [powerChars, Power.chars, letter]
  have back : t.chars.dropWhile (fun c => !isExponentMark c) =
      p.letter :: (p.mark.chars ++ p.size) := by
    rw [t.chars_eq_base_append, power, List.dropWhile_append_of_pos (not_isExponentMark_of_mem_base t)]
    simp [powerChars, Power.chars, letter]
  have sign := splitSign_chars t.base
  have digits := unsigned?_base t fits places
  have mark : t.base.mark = t.mark := rfl
  rw [scientific?]
  simp only [front, back, sign, digits, mark, Option.bind_some]
  have some := p.size_ne_nil
  cases power : p.mark with
  | minus =>
      simp only [Mark.chars, List.cons_append, List.nil_append, toNat?_digits p.size p.digits some,
        Option.bind_some, Mark.isNegative]
  | plus =>
      simp only [Mark.chars, List.cons_append, List.nil_append, toNat?_plus p.size p.digits some,
        List.cons.injEq, Char.reduceEq, false_and, imp_self, implies_true, Option.bind_some,
        Mark.isNegative]
  | absent =>
      have known := toNat?_digits p.size p.digits some
      obtain ⟨c, rest, size⟩ := List.exists_cons_of_ne_nil some
      have notMinus : c ≠ '-' := by
        rintro rfl
        cases p.digits '-' (size ▸ List.mem_cons_self)
      rw [size] at known ⊢
      simp only [Mark.chars, List.nil_append, List.cons.injEq, notMinus, false_and, imp_self,
        implies_true, known, Option.bind_some, Mark.isNegative]

theorem positional?_chars_of_power (t : Numeral) {p : Power} (power : t.power = some p)
    (fits : t.significand < mantissaBound) (places : t.places.length < maxScale) :
    positional? t.chars = none := by
  rw [positional?, splitSign_chars]
  simp only [unsigned?, Text.Numeral.body, readPlaces?_body t _ fits places, power, powerChars,
    Power.chars]
  rcases p.isLetter with letter | letter <;> rw [letter] <;> simp [readPlaces?]

/-! ## Lowest terms -/

theorem lowestParts_value (m s : Nat) :
    (lowestParts m s).1 * 10 ^ s = m * 10 ^ (lowestParts m s).2 := by
  induction s generalizing m with
  | zero => rfl
  | succ s ih =>
      rw [lowestParts]
      split
      next ends =>
        rw [pow_succ, ← mul_assoc, ih, mul_right_comm, Nat.div_mul_cancel (Nat.dvd_of_mod_eq_zero ends)]
      next => rfl

/-- In units of the smallest place, lowest terms make no difference. -/
theorem lowestParts_scaled (m : Nat) {s : Nat} (scale : s ≤ maxScale) :
    (lowestParts m s).1 * 10 ^ (maxScale - (lowestParts m s).2) = m * 10 ^ (maxScale - s) := by
  have less := (lowestParts_le m s).2
  have split : maxScale - (lowestParts m s).2 + (lowestParts m s).2 = s + (maxScale - s) := by omega
  apply Nat.eq_of_mul_eq_mul_right (Nat.pow_pos (n := (lowestParts m s).2) (by decide : 0 < 10))
  rw [mul_assoc, ← pow_add, split, pow_add, ← mul_assoc, lowestParts_value]
  ring

theorem normalize_units (d : Decimal) : d.normalize.units = d.units := by
  rw [normalize]
  split
  next zero => simp [units, zero, Decimal.zero]
  next =>
    have scaled := lowestParts_scaled d.mantissa d.scale_le
    have scaled' : ((lowestParts d.mantissa d.scale).1 : Int) *
        (Nat.pow 10 (maxScale - (lowestParts d.mantissa d.scale).2) : Nat) =
          d.mantissa * (Nat.pow 10 (maxScale - d.scale) : Nat) := by
      exact_mod_cast scaled
    simp only [units, scaled']

/-! ## The number denoted -/

/-- A decimal with the sign and the digits of a numeral is the number that the numeral denotes. -/
theorem units_eq_value {d : Decimal} {t : Numeral} (scale : t.scale ≤ maxScale)
    (negative : d.negative = t.mark.isNegative)
    (digits : d.mantissa * 10 ^ (maxScale - d.scale) = t.coefficient * 10 ^ (maxScale - t.scale)) :
    (d.units : ℚ) = t.value * 10 ^ maxScale := by
  have size : t.size * 10 ^ maxScale = t.coefficient * 10 ^ (maxScale - t.scale) := by
    have split : (10 : ℚ) ^ maxScale = 10 ^ t.scale * 10 ^ (maxScale - t.scale) := by
      rw [← pow_add, Nat.add_sub_cancel' scale]
    rw [t.size_eq, split]
    field_simp
  have digits' : (d.mantissa : ℚ) * (Nat.pow 10 (maxScale - d.scale) : Nat) =
      t.coefficient * 10 ^ (maxScale - t.scale) := by
    exact_mod_cast digits
  rw [Text.Numeral.value, ← negative]
  simp only [units]
  cases d.negative with
  | true =>
      simp only [if_true]
      push_cast at digits' ⊢
      rw [digits', neg_mul, size]
  | false =>
      simp only [Bool.false_eq_true, if_false]
      push_cast at digits' ⊢
      rw [digits', size]

/-- The exponent of a numeral as it is written moves the point to its scale. -/
theorem shift?_power (t : Numeral) {p : Power} (power : t.power = some p)
    (size : numeral 0 p.size ≤ maxScale) (scale : t.scale ≤ maxScale) :
    shift? ⟨t.significand, t.places.length⟩ p.mark.isNegative (numeral 0 p.size) =
      some ⟨t.coefficient, t.scale⟩ := by
  have exponent : t.exponent = p.value := by rw [Text.Numeral.exponent, power]; rfl
  have shift : t.shift = p.value - t.places.length := by rw [Text.Numeral.shift, exponent]
  rw [Text.Numeral.coefficient]
  rw [Text.Numeral.scale] at scale ⊢
  rw [Power.value] at shift
  rw [shift?]
  cases down : p.mark.isNegative with
  | true =>
      rw [down, if_pos rfl] at shift
      have none : t.shift.toNat = 0 := by omega
      have places : (-t.shift).toNat = t.places.length + numeral 0 p.size := by omega
      rw [if_pos rfl, if_neg (by omega), if_pos (by simp only; omega), none, places, pow_zero,
        mul_one]
  | false =>
      rw [down, if_neg (by decide)] at shift
      rw [if_neg (by decide)]
      by_cases small : numeral 0 p.size ≤ t.places.length
      · have none : t.shift.toNat = 0 := by omega
        have places : (-t.shift).toNat = t.places.length - numeral 0 p.size := by omega
        rw [if_pos small, none, places, pow_zero, mul_one]
      · have grown : t.shift.toNat = numeral 0 p.size - t.places.length := by omega
        have places : (-t.shift).toNat = 0 := by omega
        rw [if_neg small, if_pos size, grown, places]
        rfl

/-- A numeral that fits is read as the number that it denotes. -/
theorem ofChars?_chars (t : Numeral) (fits : t.coefficient < mantissaBound)
    (places : t.places.length < maxScale) (scale : t.scale ≤ maxScale)
    (size : ∀ p ∈ t.power, numeral 0 p.size ≤ maxScale) :
    ∃ d, ofChars? t.chars = some d ∧ (d.units : ℚ) = t.value * 10 ^ maxScale := by
  have small := Nat.lt_of_le_of_lt t.significand_le_coefficient fits
  obtain ⟨d, made⟩ : ∃ d, d = (⟨t.mark.isNegative, t.coefficient, t.scale, fits, scale⟩ : Decimal) :=
    ⟨_, rfl⟩
  have parts : ofParts? t.mark.isNegative t.coefficient t.scale = some d := by
    rw [ofParts?, dif_pos ⟨fits, scale⟩, made]
  have read : (positional? t.chars).or (scientific? t.chars) = some d := by
    cases power : t.power with
    | none =>
        have exponent : t.exponent = 0 := by rw [Text.Numeral.exponent, power]; rfl
        have shift : t.shift = -(t.places.length : Int) := by
          rw [Text.Numeral.shift, exponent]
          omega
        have coefficient : t.coefficient = t.significand := by
          rw [Text.Numeral.coefficient, shift]
          simp
        have length : t.scale = t.places.length := by
          rw [Text.Numeral.scale, shift]
          omega
        have whole : unsigned? t.body = some ⟨t.significand, t.places.length⟩ := by
          have same : t = t.base := by rw [Text.Numeral.base, ← power]
          rw [same]
          exact unsigned?_base t small places
        rw [positional?, splitSign_chars]
        simp only [whole, Option.bind_some]
        rw [← coefficient, ← length, parts]
        rfl
    | some p =>
        rw [positional?_chars_of_power t power small places, scientific?_chars t power small places,
          shift?_power t power (size p power) scale]
        exact parts
  refine ⟨d.normalize, ?_, ?_⟩
  · simp only [ofChars?, t.trim_chars, read, Option.map_some]
  · rw [normalize_units]
    exact units_eq_value scale (by rw [made]) (by rw [made])

end Tape.Decimal
