import Tape.Json.Printer

/-!
# The characters of written JSON

Whatever a value holds, its written form has no control character in it: line breaks and the like
are escaped, and numbers are written with digits, points, signs and exponents alone. So a written
value stands on one line.
-/

namespace Tape

namespace Text

theorem isDigit_digitChar {d : Nat} (small : d < 10) : (digitChar d).isDigit = true := by
  have all : ∀ d < 10, (digitChar d).isDigit = true := by decide
  exact all d small

theorem isDigit_of_mem_digits (n : Nat) : ∀ c ∈ digits n, c.isDigit = true := by
  induction n using digits.induct with
  | case1 n small =>
      rw [digits, if_pos small]
      intro c member
      rw [List.mem_singleton.1 member]
      exact isDigit_digitChar small
  | case2 n large ih =>
      rw [digits, if_neg large]
      intro c member
      rcases List.mem_append.1 member with before | last
      · exact ih c before
      · rw [List.mem_singleton.1 last]
        exact isDigit_digitChar (Nat.mod_lt n (by decide))

/-- The first digit of a positive number is not zero. -/
theorem digits_of_pos {n : Nat} (positive : 0 < n) :
    ∃ d rest, digits n = digitChar d :: rest ∧ 0 < d ∧ d < 10 := by
  induction n using digits.induct with
  | case1 n small =>
      rw [digits, if_pos small]
      exact ⟨n, [], rfl, positive, small⟩
  | case2 n large ih =>
      obtain ⟨d, rest, same, bounds⟩ := ih (by omega)
      rw [digits, if_neg large, same]
      exact ⟨d, _, rfl, bounds⟩

end Text

namespace Binary64

/-- The characters that numbers are written with. -/
def isNumeral (c : Char) : Bool := c.isDigit || c = '.' || c = '-' || c = '+' || c = 'e'

theorem isNumeral_of_isDigit {c : Char} (digit : c.isDigit = true) : isNumeral c = true := by
  simp [isNumeral, digit]

theorem isNumeral_of_mem_digits {n : Nat} {c : Char} (member : c ∈ Text.digits n) :
    isNumeral c = true :=
  isNumeral_of_isDigit (Text.isDigit_of_mem_digits n c member)

theorem isNumeral_of_mem_zeros {n : Nat} {c : Char} (member : c ∈ zeros n) :
    isNumeral c = true := by
  rw [(List.mem_replicate.1 member).2]
  rfl

theorem isNumeral_of_mem_positional {ds point : List Char} {leading : Int}
    (digits : ∀ c ∈ ds, isNumeral c = true) (mark : ∀ c ∈ point, isNumeral c = true) :
    ∀ c ∈ positional ds leading point, isNumeral c = true := by
  intro c member
  rw [positional] at member
  split at member
  · simp only [List.cons_append, List.mem_cons, List.mem_append] at member
    rcases member with rfl | rfl | zero | digit
    · rfl
    · rfl
    · exact isNumeral_of_mem_zeros zero
    · exact digits c digit
  · simp only at member
    split at member
    · simp only [List.mem_append] at member
      rcases member with (digit | zero) | last
      · exact digits c digit
      · exact isNumeral_of_mem_zeros zero
      · exact mark c last
    · simp only [List.mem_append, List.mem_cons] at member
      rcases member with whole | rfl | fraction
      · exact digits c (List.mem_of_mem_take whole)
      · rfl
      · exact digits c (List.mem_of_mem_drop fraction)

theorem isNumeral_of_mem_scientific {ds : List Char} {leading : Int}
    (digits : ∀ c ∈ ds, isNumeral c = true) :
    ∀ c ∈ scientific ds leading, isNumeral c = true := by
  intro c member
  simp only [scientific, List.mem_append, List.mem_cons] at member
  rcases member with body | rfl | power
  · split at body
    · cases body
    · exact digits c body
    next d rest _ =>
      simp only [List.mem_cons] at body
      rcases body with rfl | rfl | later
      · exact digits _ List.mem_cons_self
      · rfl
      · exact digits c (List.mem_cons_of_mem _ later)
  · rfl
  · split at power
    all_goals
      rcases List.mem_cons.1 power with rfl | digit
      · rfl
      · exact isNumeral_of_mem_digits digit

theorem isNumeral_of_mem_signed {x : Float} {cs : List Char}
    (numerals : ∀ c ∈ cs, isNumeral c = true) : ∀ c ∈ (signed x cs).toList, isNumeral c = true := by
  intro c member
  rw [signed, String.toList_ofList] at member
  split at member
  · rcases List.mem_cons.1 member with rfl | later
    · rfl
    · exact numerals c later
  · exact numerals c member

theorem isNumeral_of_mem_text (x : Float) : ∀ c ∈ (text x).toList, isNumeral c = true := by
  rw [text]
  split
  · exact isNumeral_of_mem_signed (List.all_eq_true.1 rfl)
  · apply isNumeral_of_mem_signed
    split
    · exact isNumeral_of_mem_positional (fun c => isNumeral_of_mem_digits)
        (List.all_eq_true.1 rfl)
    · exact isNumeral_of_mem_scientific fun c => isNumeral_of_mem_digits

end Binary64

namespace Json

/-- A character that is no control character. -/
def isPrintable (c : Char) : Bool := 32 ≤ c.toNat

theorem isPrintable_of_isNumeral {c : Char} (numeral : Binary64.isNumeral c = true) :
    isPrintable c = true := by
  simp only [Binary64.isNumeral, Bool.or_eq_true, decide_eq_true_eq] at numeral
  rcases numeral with (((digit | rfl) | rfl) | rfl) | rfl
  · simp only [Char.isDigit, Bool.and_eq_true, decide_eq_true_eq] at digit
    have low : (48 : Nat) ≤ c.toNat := digit.1
    simp only [isPrintable, decide_eq_true_eq]
    omega
  all_goals rfl

theorem isPrintable_hexDigit {d : Nat} (small : d < 16) :
    isPrintable (Text.Quoted.hexDigit d) = true := by
  have all : ∀ d < 16, isPrintable (Text.Quoted.hexDigit d) = true := by decide
  exact all d small

/-- What a control character is written as has none in it. -/
theorem isPrintable_of_mem_escape (c : Char) : ∀ d ∈ escape c, isPrintable d = true := by
  intro d member
  unfold escape at member
  iterate 7
    split at member
    · exact List.all_eq_true.1 rfl d member
  split at member
  next control =>
    simp only [List.mem_cons, List.not_mem_nil, or_false] at member
    rcases member with rfl | rfl | rfl | rfl | rfl | rfl
    · rfl
    · rfl
    · rfl
    · rfl
    · exact isPrintable_hexDigit (by omega)
    · exact isPrintable_hexDigit (by omega)
  next plain =>
    rw [List.mem_singleton.1 member, isPrintable, decide_eq_true_eq]
    omega

theorem isPrintable_of_mem_quoted (s : String) : ∀ c ∈ quoted s, isPrintable c = true := by
  intro c member
  simp only [quoted, List.cons_append, List.mem_cons, List.mem_append, List.mem_flatMap,
    List.not_mem_nil, or_false] at member
  rcases member with rfl | ⟨d, _, escaped⟩ | rfl
  · rfl
  · exact isPrintable_of_mem_escape d c escaped
  · rfl

theorem isPrintable_of_mem_numberChars (n : Number) :
    ∀ c ∈ numberChars n, isPrintable c = true := by
  intro c member
  unfold numberChars at member
  split at member
  · exact isPrintable_of_isNumeral (Binary64.isNumeral_of_mem_digits member)
  · rcases List.mem_cons.1 member with rfl | digit
    · rfl
    · exact isPrintable_of_isNumeral (Binary64.isNumeral_of_mem_digits digit)
  · split at member
    · exact isPrintable_of_isNumeral (Binary64.isNumeral_of_mem_text _ c member)
    · exact List.all_eq_true.1 rfl c member

mutual

theorem isPrintable_of_mem_chars : ∀ (v : Json), ∀ c ∈ v.chars, isPrintable c = true
  | .null => by
      rw [chars]
      exact List.all_eq_true.1 rfl
  | .flag true => by
      rw [chars]
      exact List.all_eq_true.1 rfl
  | .flag false => by
      rw [chars]
      exact List.all_eq_true.1 rfl
  | .number n => by
      rw [chars]
      exact isPrintable_of_mem_numberChars n
  | .text s => by
      rw [chars]
      exact isPrintable_of_mem_quoted s
  | .list items => by
      intro c member
      simp only [chars, List.cons_append, List.mem_cons, List.mem_append, List.not_mem_nil,
        or_false] at member
      rcases member with rfl | inner | rfl
      · rfl
      · exact isPrintable_of_mem_itemChars items c inner
      · rfl
  | .record members => by
      intro c member
      simp only [chars, List.cons_append, List.mem_cons, List.mem_append, List.not_mem_nil,
        or_false] at member
      rcases member with rfl | inner | rfl
      · rfl
      · exact isPrintable_of_mem_memberChars members c inner
      · rfl

theorem isPrintable_of_mem_itemChars :
    ∀ (items : List Json), ∀ c ∈ itemChars items, isPrintable c = true
  | [] => by
      rw [itemChars]
      intro c member
      cases member
  | [item] => by
      rw [itemChars]
      exact isPrintable_of_mem_chars item
  | item :: next :: rest => by
      intro c member
      simp only [itemChars, List.mem_append, List.mem_cons] at member
      rcases member with first | rfl | later
      · exact isPrintable_of_mem_chars item c first
      · rfl
      · exact isPrintable_of_mem_itemChars (next :: rest) c later

theorem isPrintable_of_mem_memberChars :
    ∀ (members : List (String × Json)), ∀ c ∈ memberChars members, isPrintable c = true
  | [] => by
      rw [memberChars]
      intro c member
      cases member
  | [(name, value)] => by
      intro c member
      simp only [memberChars, List.mem_append, List.mem_cons] at member
      rcases member with named | rfl | valued
      · exact isPrintable_of_mem_quoted name c named
      · rfl
      · exact isPrintable_of_mem_chars value c valued
  | (name, value) :: next :: rest => by
      intro c member
      simp only [memberChars, List.mem_append, List.mem_cons] at member
      rcases member with (named | rfl | valued) | rfl | later
      · exact isPrintable_of_mem_quoted name c named
      · rfl
      · exact isPrintable_of_mem_chars value c valued
      · rfl
      · exact isPrintable_of_mem_memberChars (next :: rest) c later

end

/-- A written value has no line break in it. -/
theorem lineBreak_notMem_render (v : Json) : '\n' ∉ v.render.toList := by
  rw [render, String.toList_ofList]
  intro member
  have printable := isPrintable_of_mem_chars v '\n' member
  cases printable

end Json

end Tape
