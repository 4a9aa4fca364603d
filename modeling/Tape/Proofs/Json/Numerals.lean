import Tape.Json.Outline
import Tape.Proofs.Json.Printed

/-!
# Where numbers end

A number that stands at the end of a text is read in the same way when a comma or a closing bracket
follows it. Whole numbers are read as they were written.
-/

namespace Tape.Json

open Tape.Text (digits digitChar digitValue numeral)

/-- What may follow a value: nothing, a comma or a closing bracket. -/
def ends : List Char → Bool
  | [] => true
  | c :: _ => c = ',' || c = ']' || c = '\x7d'

theorem not_isNumeral_of_ends {c : Char} {rest : List Char} (last : ends (c :: rest) = true) :
    Binary64.isNumeral c = false ∧ c ≠ 'E' := by
  simp only [ends, Bool.or_eq_true, decide_eq_true_eq] at last
  rcases last with (rfl | rfl) | rfl <;> decide

theorem not_isDigit_of_ends {c : Char} {rest : List Char} (last : ends (c :: rest) = true) :
    c.isDigit = false := by
  have apart := (not_isNumeral_of_ends last).1
  simp only [Binary64.isNumeral, Bool.or_eq_false_iff] at apart
  exact apart.1.1.1.1

variable {cs rest tail : List Char}

theorem takeWhile_append_of_ends (cs : List Char) (last : ends tail = true) :
    (cs ++ tail).takeWhile Char.isDigit = cs.takeWhile Char.isDigit := by
  induction cs with
  | nil =>
      cases tail with
      | nil => rfl
      | cons c after => rw [List.nil_append, List.takeWhile_cons, not_isDigit_of_ends last]; rfl
  | cons c cs ih => rw [List.cons_append, List.takeWhile_cons, List.takeWhile_cons, ih]

theorem dropWhile_append_of_ends (cs : List Char) (last : ends tail = true) :
    (cs ++ tail).dropWhile Char.isDigit = cs.dropWhile Char.isDigit ++ tail := by
  induction cs with
  | nil =>
      cases tail with
      | nil => rfl
      | cons c after => rw [List.nil_append, List.dropWhile_cons, not_isDigit_of_ends last]; rfl
  | cons c cs ih =>
      rw [List.cons_append, List.dropWhile_cons, List.dropWhile_cons, ih]
      split <;> rfl

/-! ## Real numbers -/

theorem gather_append (significand taken : Nat) (cs : List Char) (last : ends tail = true) :
    gather significand taken (cs ++ tail) =
      ((gather significand taken cs).1, (gather significand taken cs).2.1,
        (gather significand taken cs).2.2 ++ tail) := by
  induction cs generalizing significand taken with
  | nil =>
      cases tail with
      | nil => rfl
      | cons c after =>
          simp only [List.nil_append, gather, not_isDigit_of_ends last, Bool.false_and,
            Bool.false_eq_true, if_false]
  | cons c cs ih =>
      rw [List.cons_append, gather, gather]
      split
      · exact ih _ _
      · rfl

theorem gather_rest_suffix (significand taken : Nat) (cs : List Char) :
    (gather significand taken cs).2.2 <:+ cs := by
  induction cs generalizing significand taken with
  | nil => exact List.suffix_refl _
  | cons c cs ih =>
      rw [gather]
      split
      · exact (ih _ _).trans (List.suffix_cons _ _)
      · exact List.suffix_refl _

/-- A number is read in the same way whatever follows it. -/
structure Closes (scan : List Char → Except Flaw NumberScan) (cs : List Char) (n : Number)
    (rest : List Char) : Prop where
  suffix : rest <:+ cs
  onward : ∀ tail, ends tail = true → scan (cs ++ tail) = .ok ⟨.ok n, rest ++ tail⟩

variable {negative : Bool} {significand : Nat} {exponent : Int} {n : Number}

theorem realScan_append (read : realScan negative significand exponent cs = ⟨.ok n, rest⟩) :
    cs = rest ∧ ∀ tail, realScan negative significand exponent (cs ++ tail) =
      ⟨.ok n, rest ++ tail⟩ := by
  unfold realScan at read ⊢
  split at read
  · cases read
    exact ⟨rfl, fun tail => rfl⟩
  · cases read

/-- An exponent after its sign. -/
theorem closes_scanExponent_of_sign {sign : Char} (isSign : sign = '-' ∨ sign = '+') {start : Int}
    {body : List Char}
    (read : scanExponent negative significand start (sign :: body) = .ok ⟨.ok n, rest⟩) :
    Closes (fun cs => scanExponent negative significand start (sign :: cs)) body n rest := by
  cases body with
  | nil => rcases isSign with rfl | rfl <;> cases read
  | cons c after =>
      have digits : ∀ tail, ends tail = true →
          (c :: (after ++ tail)).takeWhile Char.isDigit = (c :: after).takeWhile Char.isDigit :=
        fun tail last => takeWhile_append_of_ends (c :: after) last
      have others : ∀ tail, ends tail = true →
          (c :: (after ++ tail)).dropWhile Char.isDigit =
            (c :: after).dropWhile Char.isDigit ++ tail :=
        fun tail last => dropWhile_append_of_ends (c :: after) last
      rcases isSign with rfl | rfl
      all_goals
        simp only [scanExponent] at read
        split at read
        next digit =>
          split at read
          next large =>
            split at read
            next => cases read
            next small =>
              cases read
              refine ⟨List.dropWhile_suffix _, fun tail last => ?_⟩
              simp only [scanExponent, List.cons_append, if_pos digit, digits tail last,
                if_pos large, if_neg small, others tail last]
          next small =>
            obtain ⟨same, onward⟩ := realScan_append (Except.ok.inj read)
            refine ⟨same ▸ List.dropWhile_suffix _, fun tail last => ?_⟩
            simp only [scanExponent, List.cons_append, if_pos digit, digits tail last, if_neg small,
              others tail last, onward tail]
        next => cases read

theorem closes_scanExponent {start : Int}
    (read : scanExponent negative significand start cs = .ok ⟨.ok n, rest⟩) :
    Closes (scanExponent negative significand start) cs n rest := by
  cases cs with
  | nil => cases read
  | cons c body =>
      by_cases isSign : c = '-' ∨ c = '+'
      · have closes := closes_scanExponent_of_sign isSign read
        exact ⟨closes.suffix.trans (List.suffix_cons _ _), closes.onward⟩
      · have unsigned : ∀ cs, scanExponent negative significand start (c :: cs) =
            scanExponent negative significand start ('+' :: c :: cs) := by
          intro cs
          rw [not_or] at isSign
          unfold scanExponent
          split
          next sign =>
            split at sign
            next same => exact absurd (List.cons.inj same).1 isSign.1
            next same => exact absurd (List.cons.inj same).1 isSign.2
            next =>
              cases sign
              rfl
        rw [unsigned] at read
        have closes := closes_scanExponent_of_sign (.inr rfl) read
        refine ⟨closes.suffix, fun tail last => ?_⟩
        rw [List.cons_append, unsigned]
        exact closes.onward tail last

theorem closes_scanRealEnd
    (read : scanRealEnd negative significand exponent cs = .ok ⟨.ok n, rest⟩) :
    Closes (scanRealEnd negative significand exponent) cs n rest := by
  cases cs with
  | nil =>
      obtain ⟨rfl, onward⟩ := realScan_append (Except.ok.inj read)
      refine ⟨List.suffix_refl _, fun tail last => ?_⟩
      cases tail with
      | nil => exact read
      | cons c after =>
          have mark : ¬ (c = 'e' ∨ c = 'E') := by
            obtain ⟨apart, upper⟩ := not_isNumeral_of_ends last
            rintro (rfl | rfl)
            · cases apart
            · exact upper rfl
          rw [List.nil_append, scanRealEnd]
          simp only [Bool.or_eq_true, decide_eq_true_eq, if_neg mark]
          exact congrArg Except.ok (onward _)
  | cons c after =>
      simp only [scanRealEnd] at read
      split at read
      next mark =>
        have closes := closes_scanExponent read
        refine ⟨closes.suffix.trans (List.suffix_cons _ _), fun tail last => ?_⟩
        simp only [List.cons_append, scanRealEnd, if_pos mark]
        exact closes.onward tail last
      next mark =>
        obtain ⟨rfl, onward⟩ := realScan_append (Except.ok.inj read)
        refine ⟨List.suffix_refl _, fun tail last => ?_⟩
        simp only [List.cons_append, scanRealEnd, if_neg mark]
        exact congrArg Except.ok (onward _)


theorem closes_scanFraction
    (read : scanFraction negative significand exponent cs = .ok ⟨.ok n, rest⟩) :
    Closes (scanFraction negative significand exponent) cs n rest := by
  have suffix := gather_rest_suffix significand 0 cs
  have gathers := fun tail (last : ends tail = true) => gather_append significand 0 cs last
  unfold scanFraction at read ⊢
  generalize gather significand 0 cs = gathered at read suffix gathers
  obtain ⟨total, taken, left⟩ := gathered
  simp only at read suffix gathers
  cases left with
  | nil =>
      simp only at read
      split at read
      next => cases read
      next some =>
        have closes := closes_scanRealEnd read
        refine ⟨closes.suffix.trans suffix, fun tail last => ?_⟩
        have onward := closes.onward tail last
        simp only [gathers tail last, List.nil_append, if_neg some] at onward ⊢
        cases tail with
        | nil => exact onward
        | cons c after =>
            simp only [not_isDigit_of_ends last, Bool.false_eq_true, if_false]
            exact onward
  | cons c after =>
      simp only at read
      split at read
      next digit =>
        have closes := closes_scanRealEnd read
        refine ⟨(closes.suffix.trans (List.dropWhile_suffix _)).trans suffix, fun tail last => ?_⟩
        simp only [gathers tail last, List.cons_append, if_pos digit]
        rw [← List.cons_append, dropWhile_append_of_ends _ last]
        exact closes.onward tail last
      next digit =>
        split at read
        next => cases read
        next some =>
          have closes := closes_scanRealEnd read
          refine ⟨closes.suffix.trans suffix, fun tail last => ?_⟩
          simp only [gathers tail last, List.cons_append, if_neg digit, if_neg some]
          exact closes.onward tail last

/-! ## Numbers -/

/-- What follows the digits of a whole number of which not all were gathered. -/
def scanLongEnd (negative : Bool) (significand extra : Nat) : List Char → Except Flaw NumberScan
  | '.' :: more => scanFraction negative significand extra more
  | more => scanRealEnd negative significand extra more

theorem scanWholeEnd_of_digit {c : Char} (negative : Bool) (significand : Nat)
    (digit : c.isDigit = true) (after : List Char) :
    scanWholeEnd negative significand (c :: after) =
      scanLongEnd negative significand ((c :: after).takeWhile Char.isDigit).length
        ((c :: after).dropWhile Char.isDigit) := by
  have point : c ≠ '.' := by rintro rfl; cases digit
  have mark : ¬ (c = 'e' ∨ c = 'E') := by rintro (rfl | rfl) <;> cases digit
  simp only [scanWholeEnd, if_neg point, Bool.or_eq_true, decide_eq_true_eq, if_neg mark,
    if_pos digit]
  rfl

theorem closes_scanLongEnd {extra : Nat}
    (read : scanLongEnd negative significand extra cs = .ok ⟨.ok n, rest⟩) :
    Closes (scanLongEnd negative significand extra) cs n rest := by
  unfold scanLongEnd at read
  split at read
  next more =>
    have closes := closes_scanFraction read
    exact ⟨closes.suffix.trans (List.suffix_cons _ _), closes.onward⟩
  next noPoint =>
    have closes := closes_scanRealEnd read
    refine ⟨closes.suffix, fun tail last => ?_⟩
    rw [scanLongEnd]
    · exact closes.onward tail last
    · intro further pointed
      cases cs with
      | nil =>
          rw [List.nil_append] at pointed
          rw [pointed] at last
          cases last
      | cons d others => exact noPoint others (by rw [(List.cons.inj pointed).1])

theorem closes_scanWholeEnd
    (read : scanWholeEnd negative significand cs = .ok ⟨.ok n, rest⟩) :
    Closes (scanWholeEnd negative significand) cs n rest := by
  cases cs with
  | nil =>
      cases read
      refine ⟨List.suffix_refl _, fun tail last => ?_⟩
      cases tail with
      | nil => rfl
      | cons c after =>
          have digit := not_isDigit_of_ends last
          obtain ⟨apart, upper⟩ := not_isNumeral_of_ends last
          have point : c ≠ '.' := by rintro rfl; cases apart
          have mark : ¬ (c = 'e' ∨ c = 'E') := by
            rintro (rfl | rfl)
            · cases apart
            · exact upper rfl
          simp only [List.nil_append, scanWholeEnd, if_neg point, Bool.or_eq_true,
            decide_eq_true_eq, if_neg mark, digit, Bool.false_eq_true, if_false]
  | cons c after =>
      have whole := read
      simp only [scanWholeEnd] at read
      split at read
      next point =>
        have closes := closes_scanFraction read
        refine ⟨closes.suffix.trans (List.suffix_cons _ _), fun tail last => ?_⟩
        simp only [List.cons_append, scanWholeEnd, if_pos point]
        exact closes.onward tail last
      next point =>
        split at read
        next mark =>
          have closes := closes_scanExponent read
          refine ⟨closes.suffix.trans (List.suffix_cons _ _), fun tail last => ?_⟩
          simp only [List.cons_append, scanWholeEnd, if_neg point, if_pos mark]
          exact closes.onward tail last
        next mark =>
          split at read
          next digit =>
            have long := scanWholeEnd_of_digit negative significand digit
            have closes : Closes (scanLongEnd negative significand
                ((c :: after).takeWhile Char.isDigit).length)
                ((c :: after).dropWhile Char.isDigit) n rest :=
              closes_scanLongEnd ((long after).symm.trans whole)
            refine ⟨closes.suffix.trans (List.dropWhile_suffix _), fun tail last => ?_⟩
            rw [List.cons_append, long, ← List.cons_append, takeWhile_append_of_ends _ last,
              dropWhile_append_of_ends _ last]
            exact closes.onward tail last
          next digit =>
            cases read
            refine ⟨List.suffix_refl _, fun tail last => ?_⟩
            simp only [List.cons_append, scanWholeEnd, if_neg point, if_neg mark, if_neg digit]

theorem closes_scanNumber (read : scanNumber negative cs = .ok ⟨.ok n, rest⟩) :
    Closes (scanNumber negative) cs n rest := by
  cases cs with
  | nil => cases read
  | cons c after =>
      by_cases zero : c = '0'
      · subst zero
        cases after with
        | nil =>
            have closes : Closes (scanWholeEnd negative 0) [] n rest := closes_scanWholeEnd read
            refine ⟨closes.suffix.trans (List.suffix_cons _ _), fun tail last => ?_⟩
            have onward := closes.onward tail last
            cases tail with
            | nil => exact onward
            | cons d after =>
                simp only [List.cons_append, List.nil_append, scanNumber, if_true,
                  not_isDigit_of_ends last, Bool.false_eq_true, if_false]
                exact onward
        | cons d after =>
            simp only [scanNumber, if_true] at read
            split at read
            next => cases read
            next digit =>
              have closes := closes_scanWholeEnd read
              refine ⟨closes.suffix.trans (List.suffix_cons _ _), fun tail last => ?_⟩
              simp only [List.cons_append, scanNumber, if_true, if_neg digit]
              exact closes.onward tail last
      · simp only [scanNumber, if_neg zero] at read
        split at read
        next digit =>
          have closes := closes_scanWholeEnd read
          refine ⟨?_, fun tail last => ?_⟩
          · exact (closes.suffix.trans (gather_rest_suffix _ _ _)).trans (List.suffix_cons _ _)
          · simp only [List.cons_append, scanNumber, if_neg zero, if_pos digit,
              gather_append _ _ after last]
            exact closes.onward tail last
        next => cases read

/-! ## Whole numbers -/

theorem le_numeral (start : Nat) (ds : List Char) : start ≤ numeral start ds := by
  induction ds generalizing start with
  | nil => exact Nat.le_refl _
  | cons c ds ih =>
      have step : numeral start (c :: ds) = numeral (start * 10 + digitValue c) ds := rfl
      have later := ih (start * 10 + digitValue c)
      omega

/-- All digits are gathered when the number fits. -/
theorem gather_digits {ds : List Char} (all : ∀ c ∈ ds, c.isDigit = true) {significand : Nat}
    (fits : numeral significand ds < significandBound) (taken : Nat) (last : ends tail = true) :
    gather significand taken (ds ++ tail) = (numeral significand ds, taken + ds.length, tail) := by
  induction ds generalizing significand taken with
  | nil => exact gather_append significand taken [] last
  | cons c ds ih =>
      have digit := all c List.mem_cons_self
      have room := Nat.lt_of_le_of_lt (le_numeral (significand * 10 + digitValue c) ds) fits
      rw [List.cons_append, gather, digit, decide_eq_true room]
      simp only [Bool.and_self, if_true]
      rw [ih (fun d member => all d (List.mem_cons_of_mem _ member)) fits, List.length_cons,
        Nat.add_assoc, Nat.add_comm 1]
      rfl

theorem scanNumber_digits {n : Nat} (fits : n < significandBound) (negative : Bool)
    (last : ends tail = true) :
    scanNumber negative (digits n ++ tail) = .ok ⟨.ok (wholeNumber negative n), tail⟩ := by
  have wholeEnd : ∀ significand, scanWholeEnd negative significand tail =
      .ok ⟨.ok (wholeNumber negative significand), tail⟩ := by
    intro significand
    have closes : Closes (scanWholeEnd negative significand) [] (wholeNumber negative significand)
      [] := closes_scanWholeEnd rfl
    exact closes.onward tail last
  rcases Nat.eq_zero_or_pos n with rfl | positive
  · have closes : Closes (scanNumber negative) (digits 0) (wholeNumber negative 0) [] := by
      apply closes_scanNumber
      rw [digits]
      rfl
    exact closes.onward tail last
  · obtain ⟨d, rest, same, nonzero, small⟩ := Text.digits_of_pos positive
    have all := Text.isDigit_of_mem_digits n
    have total := Text.numeral_digits n
    rw [same] at all total ⊢
    have apart : digitChar d ≠ '0' := by
      intro zero
      have none := Text.digitValue_digitChar small
      rw [zero] at none
      exact absurd none (Nat.ne_of_lt nonzero)
    have first := all _ List.mem_cons_self
    have later : ∀ c ∈ rest, c.isDigit = true :=
      fun c member => all c (List.mem_cons_of_mem _ member)
    have value : numeral (digitValue (digitChar d)) rest = n := by
      rw [← total, numeral, numeral, List.foldl_cons, Nat.zero_mul, Nat.zero_add]
    simp only [List.cons_append, scanNumber, if_neg apart, if_pos first,
      gather_digits later (value ▸ fits) 1 last, value]
    exact wholeEnd n

/-- A whole number is read as it was written. -/
theorem scanNumberOutline_digits {n : Nat} (fits : n < significandBound)
    (last : ends tail = true) :
    scanNumberOutline false (digits n ++ tail) = ⟨.number (.int n), some tail⟩ := by
  rw [scanNumberOutline, scanNumber_digits fits false last]
  rfl

end Tape.Json
