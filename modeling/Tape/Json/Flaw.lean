import Tape.Text.Basic

/-!
# Flaws of a JSON text

A flaw is what is wrong at one place of a text that is not JSON. Its place is kept as the number of
bytes that were not read yet, and shown as a line and a column of bytes.
-/

namespace Tape.Json

inductive Flaw.Kind where
  | endInList
  | endInRecord
  | endInText
  | endOfValue
  /-- The text ends inside a number. -/
  | endInNumber
  | expectedColon
  | expectedListEnd
  | expectedRecordEnd
  | expectedWord
  | expectedValue
  | badEscape
  | badNumber
  | numberTooLarge
  | controlCharacter
  | nameNotText
  | loneSurrogate
  | trailingComma
  | trailingText
  | escapeCutShort
  | tooDeep
  deriving DecidableEq, Repr

namespace Flaw.Kind

/-- Whether more text could have mended the flaw. -/
def isEnd : Kind → Bool
  | endInList | endInRecord | endInText | endOfValue | endInNumber => true
  | _ => false

/-- The same, for a reader that passes over the value: it takes a cut number for a wrong one. -/
def isEndWhenSkipped : Kind → Bool
  | endInNumber => false
  | kind => kind.isEnd

def message : Kind → String
  | endInList => "EOF while parsing a list"
  | endInRecord => "EOF while parsing an object"
  | endInText => "EOF while parsing a string"
  | endOfValue | endInNumber => "EOF while parsing a value"
  | expectedColon => "expected \x60:\x60"
  | expectedListEnd => "expected \x60,\x60 or \x60]\x60"
  | expectedRecordEnd => "expected \x60,\x60 or \x60\x7d\x60"
  | expectedWord => "expected ident"
  | expectedValue => "expected value"
  | badEscape => "invalid escape"
  | badNumber => "invalid number"
  | numberTooLarge => "number out of range"
  | controlCharacter => "control character (\\u0000-\\u001F) found while parsing a string"
  | nameNotText => "key must be a string"
  | loneSurrogate => "lone leading surrogate in hex escape"
  | trailingComma => "trailing comma"
  | trailingText => "trailing characters"
  | escapeCutShort => "unexpected end of hex escape"
  | tooDeep => "recursion limit exceeded"

end Flaw.Kind

structure Flaw where
  kind : Flaw.Kind
  /-- The bytes of the text after the place of the flaw. -/
  unread : Nat
  deriving DecidableEq, Repr

namespace Flaw

/-- A flaw before the given rest of the text. -/
def before (kind : Kind) (rest : List Char) : Flaw := ⟨kind, Text.byteLength rest⟩

/-- A flaw at the first byte of the given rest of the text. -/
def inside (kind : Kind) (rest : List Char) : Flaw := ⟨kind, Text.byteLength rest - 1⟩

/-- Line and column after the given number of bytes. -/
def locate (line column : Nat) : Nat → List Char → Nat × Nat
  | _, [] => (line, column)
  | bytes, c :: rest =>
      if bytes = 0 then (line, column)
      else if c = '\n' then locate (line + 1) 0 (bytes - 1) rest
      else if bytes ≤ c.utf8Size then (line, column + bytes)
      else locate line (column + c.utf8Size) (bytes - c.utf8Size) rest

def message (f : Flaw) (source : List Char) : String :=
  let (line, column) := locate 1 0 (Text.byteLength source - f.unread) source
  f.kind.message ++ " at line " ++ Text.ofNat line ++ " column " ++ Text.ofNat column

end Flaw

end Tape.Json
