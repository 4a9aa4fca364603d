import Tape.Json.Number

/-!
# The outline of a text that should be JSON

Reading a text never fails: where it stops being JSON the outline holds the flaw in that place.
A strict reader takes the first flaw in the order of the text; a reader that knows what it wants
may find a value of the wrong shape before it comes to a flaw, and one that passes over a value
does not see the flaws that only matter for its content (`suspect`).
-/

namespace Tape.Json

inductive Outline where
  | null
  | flag (value : Bool)
  | number (value : Number)
  | text (value : String)
  /-- A list, with the flaw where it should go on or close. -/
  | list (items : List Outline) (close : Option Flaw)
  /-- A record, with the flaw where it should go on or close. A name may be flawed by itself. -/
  | record (members : List (Except Flaw String × Outline)) (close : Option Flaw)
  | broken (flaw : Flaw)
  | suspect (flaw : Flaw) (content : Outline)

/-! ## Texts -/

def hexUnit? (a b c d : Char) : Option Nat := do
  let a ← Text.hexValue? a
  let b ← Text.hexValue? b
  let c ← Text.hexValue? c
  let d ← Text.hexValue? d
  return ((a * 16 + b) * 16 + c) * 16 + d

/-- The character that a backslash and a letter stand for. -/
def escapeOf? : Char → Option Char
  | '"' => some '"'
  | '\\' => some '\\'
  | '/' => some '/'
  | 'b' => some '\x08'
  | 'f' => some '\x0c'
  | 'n' => some '\n'
  | 'r' => some '\r'
  | 't' => some '\t'
  | _ => none

/-- The flaw of an escape whose four digits are not there; `rest` follows the letter. -/
def unitFlaw (rest : List Char) : Flaw :=
  let left := Text.byteLength rest
  if left < 4 then ⟨.endInText, 0⟩ else ⟨.badEscape, left - 4⟩

def isLeadingHalf (n : Nat) : Bool := 0xD800 ≤ n && n ≤ 0xDBFF

def isTrailingHalf (n : Nat) : Bool := 0xDC00 ≤ n && n ≤ 0xDFFF

/-- The character that two halves stand for. -/
def joinHalves (leading trailing : Nat) : Char :=
  Char.ofNat (0x10000 + (leading - 0xD800) * 1024 + (trailing - 0xDC00))

/-- A quoted text up to some place of it. -/
structure TextDraft where
  /-- The characters so far, latest first. -/
  latest : List Char
  /-- The leading half of a character, right after which the text must go on with the other. -/
  half : Option Nat
  /-- The first flaw that does not keep the text from closing. -/
  flaw : Option Flaw

namespace TextDraft

def empty : TextDraft := ⟨[], none, none⟩

def push (d : TextDraft) (c : Char) : TextDraft := { d with latest := c :: d.latest }

def mark (d : TextDraft) (flaw : Flaw) : TextDraft := ⟨d.latest, none, d.flaw.or (some flaw)⟩

/-- The draft when something other than a half follows; `rest` starts with it. -/
def settle (d : TextDraft) (rest : List Char) : TextDraft :=
  match d.half with
  | some _ => d.mark (.inside .escapeCutShort rest)
  | none => d

/-- The draft after a character, or half of one, that is written as a number before `rest`. -/
def pushUnit (d : TextDraft) (value : Nat) (rest : List Char) : TextDraft :=
  match d.half with
  | some leading =>
      if isTrailingHalf value then ⟨joinHalves leading value :: d.latest, none, d.flaw⟩
      else d.mark (.before .loneSurrogate rest)
  | none =>
      if isTrailingHalf value then d.mark (.before .loneSurrogate rest)
      else if isLeadingHalf value then { d with half := some value }
      else d.push (Char.ofNat value)

end TextDraft

/-- A text up to its closing quote, and what follows it or the flaw that keeps it from closing. -/
structure TextScan where
  draft : TextDraft
  rest : Except Flaw (List Char)

/-- Scans a text after its opening quote. -/
def scanText (d : TextDraft) : List Char → TextScan
  | [] => ⟨d, .error ⟨.endInText, 0⟩⟩
  | '"' :: rest => ⟨d.settle ('"' :: rest), .ok rest⟩
  | ['\\'] => ⟨d, .error ⟨.endInText, 0⟩⟩
  | '\\' :: 'u' :: a :: b :: c :: e :: rest =>
      match hexUnit? a b c e with
      | some value => scanText (d.pushUnit value rest) rest
      | none => ⟨d, .error (unitFlaw (a :: b :: c :: e :: rest))⟩
  | '\\' :: c :: rest =>
      match escapeOf? c with
      | some meant => scanText ((d.settle (c :: rest)).push meant) rest
      | none =>
          if c = 'u' then ⟨d, .error (unitFlaw rest)⟩
          else ⟨d.settle (c :: rest), .error (.inside .badEscape (c :: rest))⟩
  | c :: rest =>
      if c.toNat < 32 then
        ⟨d.settle (c :: rest), .error (.before .controlCharacter rest)⟩
      else scanText ((d.settle (c :: rest)).push c) rest

def TextDraft.text (d : TextDraft) : String := String.ofList d.latest.reverse

/-- The content of a text, unless there is a flaw in it. -/
def TextDraft.content (d : TextDraft) : Except Flaw String :=
  match d.flaw with
  | some flaw => .error flaw
  | none => .ok d.text

/-! ## Values -/

def isSpace (c : Char) : Bool := c = ' ' || c = '\n' || c = '\r' || c = '\t'

def skipSpace (cs : List Char) : List Char := cs.dropWhile isSpace

/-- A part of the outline, and the text after it; nothing can be read after a flaw. -/
structure Scan (α : Type) where
  content : α
  rest : Option (List Char)

def stopped (flaw : Flaw) : Scan Outline := ⟨.broken flaw, none⟩

/-- The letters of a word that must follow its first. -/
def scanWord (meaning : Outline) : List Char → List Char → Scan Outline
  | [], cs => ⟨meaning, some cs⟩
  | _ :: _, [] => stopped ⟨.endOfValue, 0⟩
  | w :: ws, c :: cs =>
      if w = c then scanWord meaning ws cs else stopped (.inside .expectedWord (c :: cs))

def scanNumberOutline (negative : Bool) (cs : List Char) : Scan Outline :=
  match scanNumber negative cs with
  | .error flaw => stopped flaw
  | .ok scan =>
      match scan.value with
      | .ok n => ⟨.number n, some scan.rest⟩
      | .error flaw => ⟨.suspect flaw (.number (.int 0)), some scan.rest⟩

def scanTextOutline (cs : List Char) : Scan Outline :=
  let scan := scanText .empty cs
  let (outline, rest) : Outline × Option (List Char) := match scan.rest with
    | .ok rest => (.text scan.draft.text, some rest)
    | .error stop => (.broken stop, none)
  match scan.draft.flaw with
  | none => ⟨outline, rest⟩
  | some flaw => ⟨.suspect flaw outline, rest⟩

/-- Containers may stand inside one another this deep, less one. -/
def depthLimit : Nat := 128

/-- Marks the container that stands too deep; `opening` starts with its bracket. What is inside it
needs no mark of its own. -/
def markDepth (depth : Nat) (opening : List Char) (content : Outline) : Outline :=
  if depth = 1 then .suspect (.inside .tooDeep opening) content else content

mutual

/-- A value; `depth` containers may still be opened, less one. -/
def scanValue : Nat → Nat → List Char → Scan Outline
  | 0, _, cs => stopped (.inside .expectedValue cs)
  | fuel + 1, depth, cs =>
      match skipSpace cs with
      | [] => stopped ⟨.endOfValue, 0⟩
      | c :: rest =>
          if c = '"' then scanTextOutline rest
          else if c = '[' then
            let (items, close, after) := scanItems fuel (depth - 1) true rest
            ⟨markDepth depth (c :: rest) (.list items close), after⟩
          else if c = '\x7b' then
            let (members, close, after) := scanMembers fuel (depth - 1) true rest
            ⟨markDepth depth (c :: rest) (.record members close), after⟩
          else if c = '-' then scanNumberOutline true rest
          else if c.isDigit then scanNumberOutline false (c :: rest)
          else if c = 'n' then scanWord .null "ull".toList rest
          else if c = 't' then scanWord (.flag true) "rue".toList rest
          else if c = 'f' then scanWord (.flag false) "alse".toList rest
          else stopped (.inside .expectedValue (c :: rest))

/-- The items of a list up to its bracket. -/
def scanItems : Nat → Nat → Bool → List Char →
    List Outline × Option Flaw × Option (List Char)
  | 0, _, _, cs => ([], some (.inside .expectedValue cs), none)
  | fuel + 1, depth, first, cs =>
      let onward (start : List Char) : List Outline × Option Flaw × Option (List Char) :=
        let item := scanValue fuel depth start
        match item.rest with
        | none => ([item.content], none, none)
        | some after =>
            let (items, close, last) := scanItems fuel depth false after
            (item.content :: items, close, last)
      match skipSpace cs with
      | [] => ([], some ⟨.endInList, 0⟩, none)
      | c :: rest =>
          if c = ']' then ([], none, some rest)
          else if first then onward (c :: rest)
          else if c = ',' then
            match skipSpace rest with
            | ']' :: after => ([.broken (.inside .trailingComma (']' :: after))], none, none)
            | start => onward start
          else ([], some (.inside .expectedListEnd (c :: rest)), none)

/-- The members of a record up to its brace. -/
def scanMembers : Nat → Nat → Bool → List Char →
    List (Except Flaw String × Outline) × Option Flaw × Option (List Char)
  | 0, _, _, cs => ([], some (.inside .expectedValue cs), none)
  | fuel + 1, depth, first, cs =>
      let onward (start : List Char) :
          List (Except Flaw String × Outline) × Option Flaw × Option (List Char) :=
        match start with
        | [] => ([], some ⟨.endOfValue, 0⟩, none)
        | '\x7d' :: after => ([], some (.inside .trailingComma ('\x7d' :: after)), none)
        | '"' :: inner =>
            let scan := scanText .empty inner
            let name := scan.draft.content
            match scan.rest with
            | .error stop => ([(name, .broken stop)], none, none)
            | .ok afterName =>
                match skipSpace afterName with
                | [] => ([(name, .broken ⟨.endInRecord, 0⟩)], none, none)
                | ':' :: afterColon =>
                    let value := scanValue fuel depth afterColon
                    match value.rest with
                    | none => ([(name, value.content)], none, none)
                    | some after =>
                        let (members, close, last) := scanMembers fuel depth false after
                        ((name, value.content) :: members, close, last)
                | other => ([(name, .broken (.inside .expectedColon other))], none, none)
        | other => ([], some (.inside .nameNotText other), none)
      match skipSpace cs with
      | [] => ([], some ⟨.endInRecord, 0⟩, none)
      | c :: rest =>
          if c = '\x7d' then ([], none, some rest)
          else if first then onward (c :: rest)
          else if c = ',' then onward (skipSpace rest)
          else ([], some (.inside .expectedRecordEnd (c :: rest)), none)

end

/-- The outline of a whole text, and the flaw of what follows its value. -/
def Outline.ofChars (cs : List Char) : Outline × Option Flaw :=
  let scan := scanValue (2 * cs.length + 2) depthLimit cs
  match scan.rest.map skipSpace with
  | none | some [] => (scan.content, none)
  | some rest => (scan.content, some (.inside .trailingText rest))

end Tape.Json
