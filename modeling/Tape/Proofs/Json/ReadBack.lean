import Tape.Json.Reader
import Tape.Proofs.Json.Numerals
import Tape.Proofs.Outcome

/-!
# Reading what was written

The outline of a written value is the value itself, but for numbers that are not finite, which are
written as `null`. Of the digits of finite numbers it is supposed that they read back.
-/

namespace Tape.Json

open Tape.Text (digits numeral)

variable {cs rest tail : List Char} {fuel depth : Nat}

/-! ## Numbers -/

/-- The written form of a number reads back as the number. -/
def ReadsBack (x : Float) : Prop := read (Binary64.text x) = .ok (.number (.real x))

/-- Whether a number is what was read. -/
def isReal (x : Float) : Except Flaw Json → Bool
  | .ok (.number (.real y)) => y = x
  | _ => false

theorem isReal_iff {x : Float} {answer : Except Flaw Json} :
    isReal x answer = true ↔ answer = .ok (.number (.real x)) := by
  constructor
  · intro real
    unfold isReal at real
    split at real
    · rw [of_decide_eq_true real]
    · cases real
  · rintro rfl
    exact decide_eq_true rfl

instance (x : Float) : Decidable (ReadsBack x) := decidable_of_iff _ isReal_iff

theorem not_isSpace_of_isNumeral {c : Char} (written : Binary64.isNumeral c = true) :
    isSpace c = false := by
  cases space : isSpace c with
  | false => rfl
  | true =>
      simp only [isSpace, Bool.or_eq_true, decide_eq_true_eq] at space
      rcases space with ((rfl | rfl) | rfl) | rfl <;> cases written

theorem skipSpace_of_not_isSpace {c : Char} (solid : isSpace c = false) (rest : List Char) :
    skipSpace (c :: rest) = c :: rest := by
  rw [skipSpace, List.dropWhile_cons, solid]
  rfl

theorem scanValue_minus (fuel depth : Nat) (rest : List Char) :
    scanValue (fuel + 1) depth ('-' :: rest) = scanNumberOutline true rest := by
  rw [scanValue, skipSpace_of_not_isSpace rfl]
  rfl

theorem scanValue_of_isDigit {c : Char} (digit : c.isDigit = true) (fuel depth : Nat)
    (rest : List Char) :
    scanValue (fuel + 1) depth (c :: rest) = scanNumberOutline false (c :: rest) := by
  have apart : ∀ d : Char, d.isDigit = false → c ≠ d := by
    rintro d other rfl
    rw [digit] at other
    cases other
  rw [scanValue, skipSpace_of_not_isSpace
    (not_isSpace_of_isNumeral (Binary64.isNumeral_of_isDigit digit))]
  simp only [if_neg (apart '"' rfl), if_neg (apart '[' rfl), if_neg (apart '\x7b' rfl),
    if_neg (apart '-' rfl), if_pos digit]

/-- A number is read in the same way where something follows it. -/
theorem scanNumberOutline_append {negative : Bool} {n : Number}
    (read : scanNumberOutline negative cs = ⟨.number n, some rest⟩) (last : ends tail = true) :
    rest <:+ cs ∧ scanNumberOutline negative (cs ++ tail) = ⟨.number n, some (rest ++ tail)⟩ := by
  rw [scanNumberOutline] at read
  split at read
  next => cases read
  next scan found =>
    split at read
    next n' value =>
      obtain ⟨value', rest'⟩ := scan
      cases value
      cases read
      have closes := closes_scanNumber found
      rw [scanNumberOutline, closes.onward tail last]
      exact ⟨closes.suffix, rfl⟩
    next => cases read

theorem scanNumberOutline_rest {negative : Bool} {n : Number} {after : Option (List Char)}
    (read : scanNumberOutline negative cs = ⟨.number n, after⟩) : ∃ rest, after = some rest := by
  rw [scanNumberOutline] at read
  split at read
  next => cases read
  next =>
    split at read
    next =>
      cases read
      exact ⟨_, rfl⟩
    next => cases read

theorem content_of_value {outline : Outline} {n : Number}
    (value : outline.value = .ok (.number n)) : outline = .number n := by
  cases outline with
  | null => cases value
  | flag b => cases value
  | number m =>
      cases value
      rfl
  | text s => cases value
  | list items close =>
      rw [Outline.value] at value
      obtain ⟨_, _, value⟩ := bind_eq_ok.1 value
      cases close <;> cases value
  | record members close =>
      rw [Outline.value] at value
      obtain ⟨_, _, value⟩ := bind_eq_ok.1 value
      cases close <;> cases value
  | broken flaw => cases value
  | suspect flaw content => cases value

theorem readChars_eq_ok {v : Json} :
    readChars cs = .ok v ↔
      (Outline.ofChars cs).1.value = .ok v ∧ (Outline.ofChars cs).2 = none := by
  rw [readChars]
  obtain ⟨outline, tail⟩ := Outline.ofChars cs
  cases value : outline.value with
  | error flaw => simp [value]
  | ok w => cases tail <;> simp [value]

theorem ofChars_eq (cs : List Char) :
    (Outline.ofChars cs).1 = (scanValue (2 * cs.length + 2) depthLimit cs).content ∧
      ((Outline.ofChars cs).2 = none ↔
        ∀ left, (scanValue (2 * cs.length + 2) depthLimit cs).rest = some left →
          skipSpace left = []) := by
  unfold Outline.ofChars
  obtain ⟨content, rest⟩ := scanValue (2 * cs.length + 2) depthLimit cs
  cases rest with
  | none => exact ⟨rfl, iff_of_true rfl (by rintro left same; cases same)⟩
  | some left =>
      cases blank : skipSpace left with
      | nil =>
          refine ⟨by simp [blank], iff_of_true (by simp [blank]) ?_⟩
          rintro left same
          cases same
          exact blank
      | cons c more =>
          refine ⟨by simp [blank], iff_of_false (by simp [blank]) fun all => ?_⟩
          rw [all left rfl] at blank
          cases blank

/-- A text of numerals that is one number is read as that number whatever follows it. -/
theorem scanNumberOutline_of_numerals {negative : Bool} {n : Number}
    (written : ∀ c ∈ cs, Binary64.isNumeral c = true)
    (number : (scanNumberOutline negative cs).content = .number n)
    (blank : ∀ left, (scanNumberOutline negative cs).rest = some left → skipSpace left = [])
    (last : ends tail = true) :
    scanNumberOutline negative (cs ++ tail) = ⟨.number n, some tail⟩ := by
  cases scan : scanNumberOutline negative cs with
  | mk content after =>
  rw [scan] at number blank
  subst number
  obtain ⟨rest, rfl⟩ := scanNumberOutline_rest scan
  obtain ⟨suffix, onward⟩ := scanNumberOutline_append scan last
  have none := blank rest rfl
  cases rest with
  | nil => exact onward
  | cons c more =>
      have solid := not_isSpace_of_isNumeral (written c (suffix.subset List.mem_cons_self))
      rw [skipSpace_of_not_isSpace solid] at none
      cases none

/-- A number that reads back by itself is read as well where something follows it. -/
theorem scanValue_text {x : Float} (back : ReadsBack x) (fuel depth : Nat)
    (last : ends tail = true) :
    scanValue (fuel + 1) depth ((Binary64.text x).toList ++ tail) =
      ⟨.number (.real x), some tail⟩ := by
  have written := Binary64.isNumeral_of_mem_text x
  obtain ⟨value, closed⟩ := readChars_eq_ok.1 back
  generalize (Binary64.text x).toList = cs at value closed written
  obtain ⟨content, rest⟩ := ofChars_eq cs
  have number := content_of_value value
  have blank := rest.1 closed
  rw [content] at number
  cases cs with
  | nil => cases number
  | cons c more =>
      have first := written c List.mem_cons_self
      simp only [Binary64.isNumeral, Bool.or_eq_true, decide_eq_true_eq] at first
      rcases first with (((digit | rfl) | rfl) | rfl) | rfl
      · rw [List.cons_append, scanValue_of_isDigit digit]
        rw [scanValue_of_isDigit digit] at number blank
        exact scanNumberOutline_of_numerals written number blank last
      · rw [scanValue, skipSpace_of_not_isSpace rfl] at number
        cases number
      · have others : ∀ c ∈ more, Binary64.isNumeral c = true :=
          fun c member => written c (List.mem_cons_of_mem _ member)
        rw [List.cons_append, scanValue_minus]
        rw [scanValue_minus] at number blank
        exact scanNumberOutline_of_numerals others number blank last
      · rw [scanValue, skipSpace_of_not_isSpace rfl] at number
        cases number
      · rw [scanValue, skipSpace_of_not_isSpace rfl] at number
        cases number

/-! ## Texts -/

theorem TextDraft.settle_of_whole {d : TextDraft} (whole : d.half = none) (rest : List Char) :
    d.settle rest = d := by
  rw [settle, whole]

theorem scanText_letter {d : TextDraft} (whole : d.half = none) {c meant : Char}
    (letter : c ≠ 'u') (means : escapeOf? c = some meant) (more : List Char) :
    scanText d ('\\' :: c :: more) = scanText (d.push meant) more := by
  rw [scanText]
  · simp only [means, TextDraft.settle_of_whole whole]
  · intro _ _ _ _ _ same _
    exact letter same

theorem hexUnit?_hexDigit {n : Nat} (control : n < 32) :
    hexUnit? '0' '0' (Text.Quoted.hexDigit (n / 16)) (Text.Quoted.hexDigit (n % 16)) = some n := by
  have all : ∀ n < 32, hexUnit? '0' '0' (Text.Quoted.hexDigit (n / 16))
      (Text.Quoted.hexDigit (n % 16)) = some n := by decide
  exact all n control

theorem scanText_control {d : TextDraft} (whole : d.half = none) {c : Char} (control : c.toNat < 32)
    (more : List Char) :
    scanText d ('\\' :: 'u' :: '0' :: '0' :: Text.Quoted.hexDigit (c.toNat / 16) ::
      Text.Quoted.hexDigit (c.toNat % 16) :: more) = scanText (d.push c) more := by
  have noTrail : isTrailingHalf c.toNat = false := by
    simp only [isTrailingHalf, Bool.and_eq_false_iff, decide_eq_false_iff_not]
    omega
  have noLead : isLeadingHalf c.toNat = false := by
    simp only [isLeadingHalf, Bool.and_eq_false_iff, decide_eq_false_iff_not]
    omega
  rw [scanText, hexUnit?_hexDigit control]
  simp only [TextDraft.pushUnit, whole, noTrail, noLead, Bool.false_eq_true, if_false,
    Char.ofNat_toNat]

theorem scanText_plain {d : TextDraft} (whole : d.half = none) {c : Char} (quote : c ≠ '"')
    (backslash : c ≠ '\\') (printable : ¬ c.toNat < 32) (more : List Char) :
    scanText d (c :: more) = scanText (d.push c) more := by
  rw [scanText]
  · simp only [if_neg printable, TextDraft.settle_of_whole whole]
  · exact quote
  · exact fun same => absurd same backslash
  · exact fun _ _ _ _ _ same => absurd same backslash
  · exact fun _ _ same => absurd same backslash

/-- An escaped character is read as the character. -/
theorem scanText_escape {d : TextDraft} (whole : d.half = none) (c : Char) (more : List Char) :
    scanText d (escape c ++ more) = scanText (d.push c) more := by
  have letter : ∀ meant, c = meant → ∀ spelled, escape meant = ['\\', spelled] → spelled ≠ 'u' →
      escapeOf? spelled = some meant →
        scanText d (escape c ++ more) = scanText (d.push c) more := by
    rintro meant rfl spelled spelling apart means
    rw [spelling]
    exact scanText_letter whole apart means more
  have coded : ∀ n, c.toNat = n → c = Char.ofNat n := by
    rintro n rfl
    exact (Char.ofNat_toNat c).symm
  by_cases quote : c = '"'
  · exact letter '"' quote '"' rfl (by decide) rfl
  by_cases backslash : c = '\\'
  · exact letter '\\' backslash '\\' rfl (by decide) rfl
  by_cases line : c = '\n'
  · exact letter '\n' line 'n' rfl (by decide) rfl
  by_cases carriage : c = '\r'
  · exact letter '\r' carriage 'r' rfl (by decide) rfl
  by_cases tab : c = '\t'
  · exact letter '\t' tab 't' rfl (by decide) rfl
  by_cases back : c.toNat = 8
  · exact letter '\x08' (coded 8 back) 'b' rfl (by decide) rfl
  by_cases form : c.toNat = 12
  · exact letter '\x0c' (coded 12 form) 'f' rfl (by decide) rfl
  rw [escape, if_neg quote, if_neg backslash, if_neg line, if_neg carriage, if_neg tab,
    if_neg back, if_neg form]
  split
  next control => exact scanText_control whole control more
  next printable => exact scanText_plain whole quote backslash printable more

theorem scanText_escaped (d : TextDraft) (whole : d.half = none) (cs rest : List Char) :
    scanText d (cs.flatMap escape ++ '"' :: rest) = ⟨cs.foldl TextDraft.push d, .ok rest⟩ := by
  induction cs generalizing d with
  | nil =>
      rw [List.flatMap_nil, List.nil_append, scanText, TextDraft.settle_of_whole whole]
      rfl
  | cons c cs ih =>
      rw [List.flatMap_cons, List.append_assoc, scanText_escape whole]
      exact ih (d.push c) whole

theorem foldl_push (d : TextDraft) (cs : List Char) :
    cs.foldl TextDraft.push d = { d with latest := cs.reverse ++ d.latest } := by
  induction cs generalizing d with
  | nil => rfl
  | cons c cs ih =>
      rw [List.foldl_cons, ih, List.reverse_cons, List.append_assoc]
      rfl

/-- A quoted text is read as the text. -/
theorem scanText_quoted (s : String) (rest : List Char) :
    scanText .empty (s.toList.flatMap escape ++ '"' :: rest) =
      ⟨⟨s.toList.reverse, none, none⟩, .ok rest⟩ := by
  rw [scanText_escaped .empty rfl, foldl_push]
  simp [TextDraft.empty]

theorem text_reverse (s : String) : TextDraft.text ⟨s.toList.reverse, none, none⟩ = s := by
  rw [TextDraft.text, List.reverse_reverse, String.ofList_toList]

theorem scanTextOutline_quoted (s : String) (rest : List Char) :
    scanTextOutline (s.toList.flatMap escape ++ '"' :: rest) = ⟨.text s, some rest⟩ := by
  rw [scanTextOutline, scanText_quoted]
  simp only [text_reverse]

/-! ## Values -/

mutual

/-- The outline of the written form of a value. -/
def outline : Json → Outline
  | .null => .null
  | .flag b => .flag b
  | .number (.int n) => .number (.int n)
  | .number (.real x) => if Binary64.isFinite x then .number (.real x) else .null
  | .text s => .text s
  | .list items => .list (itemOutlines items) none
  | .record members => .record (memberOutlines members) none

def itemOutlines : List Json → List Outline
  | [] => []
  | item :: rest => outline item :: itemOutlines rest

def memberOutlines : List (String × Json) → List (Except Flaw String × Outline)
  | [] => []
  | member :: rest => (.ok member.1, outline member.2) :: memberOutlines rest

end

theorem itemOutlines_eq_map (items : List Json) : itemOutlines items = items.map outline := by
  induction items with
  | nil => rfl
  | cons item rest ih => rw [itemOutlines, ih, List.map_cons]

theorem memberOutlines_eq_map (members : List (String × Json)) :
    memberOutlines members = members.map fun m => (.ok m.1, outline m.2) := by
  induction members with
  | nil => rfl
  | cons member rest ih => rw [memberOutlines, ih, List.map_cons]

/-- A value that can be read from its written form: its whole numbers fit, its finite numbers read
back, and its containers stand inside one another at most so deep. -/
inductive Legible : Nat → Json → Prop where
  | null (depth : Nat) : Legible depth .null
  | flag (depth : Nat) (b : Bool) : Legible depth (.flag b)
  | nat (depth : Nat) (n : Nat) (fits : n < significandBound) : Legible depth (.nat n)
  | real (depth : Nat) (x : Float) (back : Binary64.isFinite x = true → ReadsBack x) :
      Legible depth (.real x)
  | text (depth : Nat) (s : String) : Legible depth (.text s)
  | list {depth : Nat} {items : List Json} (inner : ∀ item ∈ items, Legible depth item) :
      Legible (depth + 1) (.list items)
  | record {depth : Nat} {members : List (String × Json)}
      (inner : ∀ member ∈ members, Legible depth member.2) :
      Legible (depth + 1) (.record members)

/-- The value is read from its written form, whatever follows it. -/
def IsRead (depth : Nat) (v : Json) : Prop :=
  ∀ fuel tail, 2 * v.chars.length ≤ fuel → ends tail = true →
    scanValue fuel (depth + 1) (v.chars ++ tail) = ⟨v.outline, some tail⟩

/-- What a value may start with: neither a blank nor a bracket that closes a list. -/
def begins : List Char → Bool
  | [] => false
  | c :: _ => !isSpace c && c ≠ ']'

theorem begins_of_isNumeral {c : Char} (numeral : Binary64.isNumeral c = true) (rest : List Char) :
    begins (c :: rest) = true := by
  rw [begins, not_isSpace_of_isNumeral numeral]
  have apart : c ≠ ']' := by rintro rfl; cases numeral
  simpa using apart

theorem begins_digits (n : Nat) : begins (digits n) = true := by
  cases same : digits n with
  | nil => exact absurd same (Text.digits_ne_nil n)
  | cons c rest =>
      have digit := Text.isDigit_of_mem_digits n c (same ▸ List.mem_cons_self)
      exact begins_of_isNumeral (Binary64.isNumeral_of_isDigit digit) rest

theorem begins_text {x : Float} (back : ReadsBack x) : begins (Binary64.text x).toList = true := by
  have written := Binary64.isNumeral_of_mem_text x
  cases same : (Binary64.text x).toList with
  | nil =>
      rw [ReadsBack, read, same] at back
      cases back
  | cons c rest =>
      rw [same] at written
      exact begins_of_isNumeral (written c List.mem_cons_self) rest

theorem begins_chars {v : Json} (legible : Legible depth v) : begins v.chars = true := by
  cases legible with
  | null => rfl
  | flag _ b => cases b <;> rfl
  | nat _ n fits => exact begins_digits n
  | real _ x back =>
      rw [real, chars, numberChars]
      split
      next finite => exact begins_text (back finite)
      next => rfl
  | text _ s => rfl
  | list inner => rfl
  | record inner => rfl

theorem exists_of_begins (start : begins cs = true) :
    ∃ c rest, cs = c :: rest ∧ isSpace c = false ∧ c ≠ ']' := by
  cases cs with
  | nil => cases start
  | cons c rest =>
      simp only [begins, Bool.and_eq_true, Bool.not_eq_true', decide_eq_true_eq] at start
      exact ⟨c, rest, rfl, start⟩

theorem begins_append (start : begins cs = true) (rest : List Char) :
    begins (cs ++ rest) = true := by
  obtain ⟨c, more, rfl, _, _⟩ := exists_of_begins start
  exact start

/-! ## Lists -/

/-- The items of a list after the first, each with the comma before it. -/
def laterItems (items : List Json) : List Char := items.flatMap fun item => ',' :: item.chars

theorem laterItems_cons (item : Json) (rest : List Json) :
    laterItems (item :: rest) = ',' :: (item.chars ++ laterItems rest) := rfl

theorem itemChars_cons (item : Json) (rest : List Json) :
    itemChars (item :: rest) = item.chars ++ laterItems rest := by
  induction rest generalizing item with
  | nil => rw [itemChars, laterItems, List.flatMap_nil, List.append_nil]
  | cons next rest ih => rw [itemChars, ih, laterItems_cons]

theorem ends_laterItems (items : List Json) (rest : List Char) :
    ends (laterItems items ++ ']' :: rest) = true := by
  cases items <;> rfl

/-- After a comma an item is read like the first one. -/
theorem scanItems_comma (start : begins cs = true) :
    scanItems (fuel + 1) depth false (',' :: cs) = scanItems (fuel + 1) depth true cs := by
  obtain ⟨c, more, rfl, solid, apart⟩ := exists_of_begins start
  rw [scanItems, scanItems, skipSpace_of_not_isSpace rfl, skipSpace_of_not_isSpace solid]
  simp only [if_neg (by decide : ¬ ',' = ']'), if_neg apart, skipSpace_of_not_isSpace solid,
    Bool.false_eq_true, if_false, if_true]
  split
  next closing => exact absurd (List.cons.inj closing).1 apart
  next => rfl

theorem scanItems_item {item : Json} (start : begins item.chars = true)
    (read : IsRead depth item) (room : 2 * item.chars.length ≤ fuel) (last : ends rest = true)
    {items : List Outline} {close : Option Flaw} {after : Option (List Char)}
    (later : scanItems fuel (depth + 1) false rest = (items, close, after)) :
    scanItems (fuel + 1) (depth + 1) true (item.chars ++ rest) =
      (item.outline :: items, close, after) := by
  have first := read fuel rest room last
  obtain ⟨c, more, same, solid, apart⟩ := exists_of_begins start
  rw [same, List.cons_append] at first ⊢
  rw [scanItems, skipSpace_of_not_isSpace solid]
  simp only [if_neg apart, if_true, first, later]

theorem scanItems_laterItems {items : List Json} (start : ∀ item ∈ items, begins item.chars = true)
    (inner : ∀ item ∈ items, IsRead depth item)
    (room : 2 * (laterItems items).length + 1 ≤ fuel) (tail : List Char) :
    scanItems fuel (depth + 1) false (laterItems items ++ ']' :: tail) =
      (items.map outline, none, some tail) := by
  induction items generalizing fuel with
  | nil =>
      obtain ⟨fuel, rfl⟩ : ∃ k, fuel = k + 1 := ⟨fuel - 1, by omega⟩
      rfl
  | cons item rest ih =>
      obtain ⟨fuel, rfl⟩ : ∃ k, fuel = k + 1 := ⟨fuel - 1, by omega⟩
      simp only [laterItems_cons, List.length_cons, List.length_append] at room
      have begun := start item List.mem_cons_self
      have later : scanItems fuel (depth + 1) false (laterItems rest ++ ']' :: tail) =
          (rest.map outline, none, some tail) :=
        ih (fun i member => start i (List.mem_cons_of_mem _ member))
          (fun i member => inner i (List.mem_cons_of_mem _ member)) (by omega)
      rw [laterItems_cons, List.cons_append, List.append_assoc,
        scanItems_comma (begins_append begun _)]
      exact scanItems_item begun (inner item List.mem_cons_self) (by omega)
        (ends_laterItems rest tail) later

theorem scanItems_itemChars {items : List Json} (start : ∀ item ∈ items, begins item.chars = true)
    (inner : ∀ item ∈ items, IsRead depth item)
    (room : 2 * (itemChars items).length + 2 ≤ fuel) (tail : List Char) :
    scanItems fuel (depth + 1) true (itemChars items ++ ']' :: tail) =
      (items.map outline, none, some tail) := by
  obtain ⟨fuel, rfl⟩ : ∃ k, fuel = k + 1 := ⟨fuel - 1, by omega⟩
  cases items with
  | nil => rfl
  | cons item rest =>
      simp only [itemChars_cons, List.length_append] at room
      have later : scanItems fuel (depth + 1) false (laterItems rest ++ ']' :: tail) =
          (rest.map outline, none, some tail) :=
        scanItems_laterItems (fun i member => start i (List.mem_cons_of_mem _ member))
          (fun i member => inner i (List.mem_cons_of_mem _ member)) (by omega) tail
      rw [itemChars_cons, List.append_assoc]
      exact scanItems_item (start item List.mem_cons_self) (inner item List.mem_cons_self)
        (by omega) (ends_laterItems rest tail) later

/-! ## Records -/

/-- The characters of one member. -/
def oneMember (member : String × Json) : List Char := quoted member.1 ++ ':' :: member.2.chars

/-- The members of a record after the first, each with the comma before it. -/
def laterMembers (members : List (String × Json)) : List Char :=
  members.flatMap fun member => ',' :: oneMember member

theorem laterMembers_cons (member : String × Json) (rest : List (String × Json)) :
    laterMembers (member :: rest) = ',' :: (oneMember member ++ laterMembers rest) := rfl

theorem memberChars_cons (member : String × Json) (rest : List (String × Json)) :
    memberChars (member :: rest) = oneMember member ++ laterMembers rest := by
  induction rest generalizing member with
  | nil => rw [memberChars, laterMembers, List.flatMap_nil, List.append_nil, oneMember]
  | cons next rest ih =>
      rw [memberChars, ih]
      rfl

theorem ends_laterMembers (members : List (String × Json)) (rest : List Char) :
    ends (laterMembers members ++ '\x7d' :: rest) = true := by
  cases members <;> rfl

/-- After a comma a member is read like the first one. -/
theorem scanMembers_comma (member : String × Json) (rest : List Char) :
    scanMembers (fuel + 1) depth false (',' :: (oneMember member ++ rest)) =
      scanMembers (fuel + 1) depth true (oneMember member ++ rest) := by
  simp only [oneMember, quoted, List.cons_append]
  rw [scanMembers, scanMembers, skipSpace_of_not_isSpace rfl, skipSpace_of_not_isSpace rfl]
  simp only [if_neg (by decide : ¬ ',' = '\x7d'), if_neg (by decide : ¬ '"' = '\x7d'),
    skipSpace_of_not_isSpace (by decide : isSpace '"' = false), Bool.false_eq_true, if_false,
    if_true]

theorem scanMembers_member {member : String × Json} (read : IsRead depth member.2)
    (room : 2 * member.2.chars.length ≤ fuel) (last : ends rest = true)
    {members : List (Except Flaw String × Outline)} {close : Option Flaw}
    {after : Option (List Char)}
    (later : scanMembers fuel (depth + 1) false rest = (members, close, after)) :
    scanMembers (fuel + 1) (depth + 1) true (oneMember member ++ rest) =
      ((.ok member.1, member.2.outline) :: members, close, after) := by
  have first := read fuel rest room last
  simp only [oneMember, quoted, List.cons_append, List.append_assoc, List.nil_append]
  rw [scanMembers, skipSpace_of_not_isSpace rfl]
  simp only [if_neg (by decide : ¬ '"' = '\x7d'), if_true, scanText_quoted,
    skipSpace_of_not_isSpace (by decide : isSpace ':' = false), first, later, TextDraft.content,
    text_reverse]

theorem scanMembers_laterMembers {members : List (String × Json)}
    (inner : ∀ member ∈ members, IsRead depth member.2)
    (room : 2 * (laterMembers members).length + 1 ≤ fuel) (tail : List Char) :
    scanMembers fuel (depth + 1) false (laterMembers members ++ '\x7d' :: tail) =
      (members.map fun m => (.ok m.1, outline m.2), none, some tail) := by
  induction members generalizing fuel with
  | nil =>
      obtain ⟨fuel, rfl⟩ : ∃ k, fuel = k + 1 := ⟨fuel - 1, by omega⟩
      rfl
  | cons member rest ih =>
      obtain ⟨fuel, rfl⟩ : ∃ k, fuel = k + 1 := ⟨fuel - 1, by omega⟩
      simp only [laterMembers_cons, oneMember, List.length_cons, List.length_append] at room
      have later : scanMembers fuel (depth + 1) false (laterMembers rest ++ '\x7d' :: tail) =
          (rest.map fun m => (.ok m.1, outline m.2), none, some tail) :=
        ih (fun m member => inner m (List.mem_cons_of_mem _ member)) (by omega)
      rw [laterMembers_cons, List.cons_append, List.append_assoc, scanMembers_comma]
      exact scanMembers_member (inner member List.mem_cons_self) (by omega)
        (ends_laterMembers rest tail) later

theorem scanMembers_memberChars {members : List (String × Json)}
    (inner : ∀ member ∈ members, IsRead depth member.2)
    (room : 2 * (memberChars members).length + 2 ≤ fuel) (tail : List Char) :
    scanMembers fuel (depth + 1) true (memberChars members ++ '\x7d' :: tail) =
      (members.map fun m => (.ok m.1, outline m.2), none, some tail) := by
  obtain ⟨fuel, rfl⟩ : ∃ k, fuel = k + 1 := ⟨fuel - 1, by omega⟩
  cases members with
  | nil => rfl
  | cons member rest =>
      simp only [memberChars_cons, oneMember, List.length_cons, List.length_append] at room
      have later : scanMembers fuel (depth + 1) false (laterMembers rest ++ '\x7d' :: tail) =
          (rest.map fun m => (.ok m.1, outline m.2), none, some tail) :=
        scanMembers_laterMembers (fun m member => inner m (List.mem_cons_of_mem _ member))
          (by omega) tail
      rw [memberChars_cons, List.append_assoc]
      exact scanMembers_member (inner member List.mem_cons_self) (by omega)
        (ends_laterMembers rest tail) later

/-! ## Written values -/

theorem exists_fuel_of_legible {v : Json} (legible : Legible depth v)
    (room : 2 * v.chars.length ≤ fuel) : ∃ k, fuel = k + 1 := by
  obtain ⟨c, rest, same, _, _⟩ := exists_of_begins (begins_chars legible)
  rw [same, List.length_cons] at room
  exact ⟨fuel - 1, by omega⟩

theorem isRead_digits (depth : Nat) {n : Nat} (fits : n < significandBound) :
    IsRead depth (.nat n) := by
  intro fuel tail room last
  obtain ⟨fuel, rfl⟩ := exists_fuel_of_legible (.nat depth n fits) room
  show scanValue (fuel + 1) (depth + 1) (digits n ++ tail) = ⟨.number (.int n), some tail⟩
  rw [← scanNumberOutline_digits fits last]
  have all := Text.isDigit_of_mem_digits n
  cases same : digits n with
  | nil => exact absurd same (Text.digits_ne_nil n)
  | cons c rest => exact scanValue_of_isDigit (all c (same ▸ List.mem_cons_self)) _ _ _

/-- A number that is not finite is written as `null`, and read as that. -/
theorem isRead_real (depth : Nat) {x : Float}
    (back : Binary64.isFinite x = true → ReadsBack x) : IsRead depth (.real x) := by
  intro fuel tail room last
  obtain ⟨fuel, rfl⟩ := exists_fuel_of_legible (.real depth x back) room
  rw [real, chars, numberChars, outline]
  split
  next finite => exact scanValue_text (back finite) fuel (depth + 1) last
  next => rfl

/-- The written form of a legible value is read as its outline. -/
theorem isRead_of_legible {v : Json} (legible : Legible depth v) : IsRead depth v := by
  induction legible with
  | nat depth n fits => exact isRead_digits depth fits
  | real depth x back => exact isRead_real depth back
  | null depth =>
      intro fuel tail room last
      obtain ⟨fuel, rfl⟩ := exists_fuel_of_legible (.null depth) room
      rfl
  | flag depth b =>
      intro fuel tail room last
      obtain ⟨fuel, rfl⟩ := exists_fuel_of_legible (.flag depth b) room
      cases b <;> rfl
  | text depth s =>
      intro fuel tail room last
      obtain ⟨fuel, rfl⟩ := exists_fuel_of_legible (.text depth s) room
      simp only [chars, quoted, List.cons_append, List.append_assoc, List.nil_append]
      rw [scanValue, skipSpace_of_not_isSpace rfl]
      exact scanTextOutline_quoted s tail
  | @list depth items inner ih =>
      intro fuel tail room last
      obtain ⟨fuel, rfl⟩ := exists_fuel_of_legible (.list inner) room
      have scan : scanItems fuel (depth + 1) true (itemChars items ++ ']' :: tail) =
          (items.map outline, none, some tail) :=
        scanItems_itemChars (fun item member => begins_chars (inner item member)) ih
          (by simp only [chars, List.length_append, List.length_cons] at room; omega) tail
      simp only [chars, List.cons_append, List.append_assoc, List.nil_append]
      rw [scanValue, skipSpace_of_not_isSpace rfl]
      simp only [if_neg (by decide : ¬ '[' = '"'), if_true, Nat.add_sub_cancel, scan, markDepth,
        if_neg (by omega : ¬ depth + 1 + 1 = 1), outline, itemOutlines_eq_map]
  | @record depth members inner ih =>
      intro fuel tail room last
      obtain ⟨fuel, rfl⟩ := exists_fuel_of_legible (.record inner) room
      have scan : scanMembers fuel (depth + 1) true (memberChars members ++ '\x7d' :: tail) =
          (members.map fun m => (.ok m.1, outline m.2), none, some tail) :=
        scanMembers_memberChars ih
          (by simp only [chars, List.length_append, List.length_cons] at room; omega) tail
      simp only [chars, List.cons_append, List.append_assoc, List.nil_append]
      rw [scanValue, skipSpace_of_not_isSpace rfl]
      simp only [if_neg (by decide : ¬ '\x7b' = '"'), if_neg (by decide : ¬ '\x7b' = '['), if_true,
        Nat.add_sub_cancel, scan, markDepth, if_neg (by omega : ¬ depth + 1 + 1 = 1), outline,
        memberOutlines_eq_map]

/-- The outline of a written value is the value, and nothing stands after it. -/
theorem ofChars_chars {v : Json} (legible : Legible (depthLimit - 1) v) :
    Outline.ofChars v.render.toList = (v.outline, none) := by
  have scan : scanValue (2 * v.chars.length + 2) depthLimit (v.chars ++ []) =
      ⟨v.outline, some []⟩ := isRead_of_legible legible _ [] (by omega) rfl
  rw [List.append_nil] at scan
  rw [render, String.toList_ofList, Outline.ofChars, scan]
  rfl

end Tape.Json
