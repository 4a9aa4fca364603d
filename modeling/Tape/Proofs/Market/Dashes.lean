import Mathlib
import Tape.Market.Symbol

/-!
# Dashes left out and put back

A venue leaves out the dash of a symbol, and its letter case may be another. When all characters are
upper-case letters and digits the dash is put back where it was, if the quote has the length that is
guessed; a text that is too short stays without one.
-/

namespace Tape

/-! ## Letter case -/

namespace Text

theorem upper_of_not_isLower {s : String} (none : ∀ c ∈ s.toList, ¬ c.isLower = true) :
    upper s = s := by
  have same : s.toList.map Char.toUpper = s.toList.map id :=
    List.map_congr_left fun c held => Char.toUpper_eq_of_not_isLower (none c held)
  rw [upper, same, List.map_id, String.ofList_toList]

theorem upper_lower (s : String) : upper (lower s) = upper s := by
  rw [upper, lower, String.toList_ofList, List.map_map]
  exact congrArg String.ofList
    (List.map_congr_left fun c _ => Char.toUpper_toLower_eq_toUpper c)

theorem upper_append (s t : String) : upper (s ++ t) = upper s ++ upper t := by
  rw [upper, String.toList_append, List.map_append, String.ofList_append]
  rfl

end Text

namespace Symbol

/-! ## Plain parts -/

/-- An upper-case letter or a digit of ASCII. -/
def isPlainChar (c : Char) : Bool := c.isUpper || c.isDigit

/-- The characters that are meant come before the lower-case letters. -/
theorem toNat_lt_of_isPlainChar {c : Char} (plain : isPlainChar c = true) : c.toNat < 97 := by
  simp only [isPlainChar, Char.isUpper, Char.isDigit, Bool.or_eq_true, Bool.and_eq_true,
    decide_eq_true_eq, ge_iff_le, UInt32.le_iff_toNat_le] at plain
  rcases plain with ⟨_, letter⟩ | ⟨_, digit⟩
  · exact Nat.lt_of_le_of_lt letter (by decide)
  · exact Nat.lt_of_le_of_lt digit (by decide)

/-- A base or a quote of upper-case letters and digits alone. -/
def isPlain (s : String) : Bool := s.toList.all isPlainChar

theorem isPlain_append {s t : String} (first : isPlain s = true) (second : isPlain t = true) :
    isPlain (s ++ t) = true := by
  rw [isPlain, String.toList_append, List.all_append]
  exact Bool.and_eq_true_iff.2 ⟨first, second⟩

section Plain

variable {s : String} (plain : isPlain s = true)
include plain

theorem isPlainChar_of_mem {c : Char} (held : c ∈ s.toList) : isPlainChar c = true :=
  List.all_eq_true.1 plain c held

theorem dash_notMem_of_isPlain : '-' ∉ s.toList := by
  intro held
  cases isPlainChar_of_mem plain held

theorem upper_of_isPlain : Text.upper s = s := by
  apply Text.upper_of_not_isLower
  intro c held lower
  have small := toNat_lt_of_isPlainChar (isPlainChar_of_mem plain held)
  simp only [Char.isLower, Bool.and_eq_true, decide_eq_true_eq, ge_iff_le,
    UInt32.le_iff_toNat_le] at lower
  exact absurd lower.1 (Nat.not_le.2 small)

theorem isAscii_of_isPlain : s.toList.all Text.isAscii = true := by
  refine List.all_eq_true.2 fun c held => decide_eq_true ?_
  have small := toNat_lt_of_isPlainChar (isPlainChar_of_mem plain held)
  omega

end Plain

/-! ## Dashes left out -/

theorem stripDashes_append (s t : String) :
    stripDashes (s ++ t) = stripDashes s ++ stripDashes t := by
  rw [stripDashes, String.toList_append, List.filter_append, String.ofList_append]
  rfl

theorem stripDashes_of_notMem {s : String} (free : '-' ∉ s.toList) : stripDashes s = s := by
  have kept : ∀ c ∈ s.toList, decide (c ≠ '-') = true := by
    intro c held
    refine decide_eq_true ?_
    rintro rfl
    exact free held
  rw [stripDashes, List.filter_eq_self.2 kept, String.ofList_toList]

/-- A symbol without its dash. -/
theorem stripDashes_pair {base quote : String} (plainBase : isPlain base = true)
    (plainQuote : isPlain quote = true) : stripDashes (base ++ "-" ++ quote) = base ++ quote := by
  have dash : stripDashes "-" = "" := rfl
  rw [stripDashes_append, stripDashes_append, dash,
    stripDashes_of_notMem (dash_notMem_of_isPlain plainBase),
    stripDashes_of_notMem (dash_notMem_of_isPlain plainQuote), String.append_empty]

/-! ## Dashes put back -/

theorem dashBeforeLast_of_short {quote least : Nat} {s : String} (short : s.length < least) :
    dashBeforeLast quote least s = Text.upper s := by
  have size : (Text.upper s).toList.length < least := by
    rw [Text.upper, String.toList_ofList, List.length_map]
    exact short
  simp only [dashBeforeLast, size, decide_true, Bool.or_true, Bool.true_or, if_true]

theorem dashBeforeLast_of_long {quote least : Nat} {s : String} (plain : isPlain s = true)
    (long : least ≤ s.length) (more : quote < s.length) :
    dashBeforeLast quote least s =
      String.ofList (s.toList.take (s.length - quote) ++
        '-' :: s.toList.drop (s.length - quote)) := by
  have free : s.toList.contains '-' = false := by
    simpa using dash_notMem_of_isPlain plain
  simp only [dashBeforeLast, upper_of_isPlain plain, free, String.length_toList,
    decide_eq_false (Nat.not_lt.2 long), decide_eq_false (Nat.not_le.2 more),
    isAscii_of_isPlain plain, Bool.or_self, Bool.not_true, Bool.false_eq_true, if_false]

/-- The dash stands before the quote when that has the length that is guessed. -/
theorem dashBeforeLast_append {base quote : String} (plainBase : isPlain base = true)
    (plainQuote : isPlain quote = true) (nonempty : base ≠ "") {least : Nat}
    (long : least ≤ base.length + quote.length) :
    dashBeforeLast quote.length least (base ++ quote) = base ++ "-" ++ quote := by
  have plain := isPlain_append plainBase plainQuote
  have begun : base.length ≠ 0 := fun none => nonempty (String.length_eq_zero_iff.1 none)
  have size : (base ++ quote).length = base.length + quote.length :=
    String.length_append base quote
  have split : (base ++ quote).length - quote.length = base.toList.length := by
    rw [size, Nat.add_sub_cancel, String.length_toList]
  have dashed : String.ofList ('-' :: quote.toList) = "-" ++ quote :=
    String.toList_injective (by rw [String.toList_ofList, String.toList_append]; rfl)
  rw [dashBeforeLast_of_long plain (by omega) (by omega), split, String.toList_append,
    List.take_left, List.drop_left, String.ofList_append, String.ofList_toList, dashed,
    String.append_assoc]

/-- A text that has a dash gets no other. -/
theorem dashBeforeLast_of_dash {s : String} (dashed : '-' ∈ s.toList) (quote least : Nat) :
    dashBeforeLast quote least s = Text.upper s := by
  have kept : (Text.upper s).toList.contains '-' = true := by
    rw [Text.upper, String.toList_ofList, List.contains_iff_mem]
    exact List.mem_map.2 ⟨'-', dashed, rfl⟩
  simp only [dashBeforeLast, kept, Bool.true_or, if_true]

/-- The dash that is put into a text without lower-case letters can be left out again, wherever it
stands. -/
theorem stripDashes_dashBeforeLast {s : String} (free : '-' ∉ s.toList) (raised : Text.upper s = s)
    (quote least : Nat) : stripDashes (dashBeforeLast quote least s) = s := by
  simp only [dashBeforeLast, raised]
  split
  next => exact stripDashes_of_notMem free
  next =>
    rw [stripDashes, String.toList_ofList, List.filter_append, List.filter_cons_of_neg (by simp),
      ← List.filter_append, List.take_append_drop]
    exact stripDashes_of_notMem free

end Symbol

end Tape
