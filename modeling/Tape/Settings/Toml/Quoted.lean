import Tape.Text.Basic

/-!
# Quoted texts in TOML

A text stands in double quotes, where a backslash starts an escape, or in single quotes, where
nothing does. Tripled quotes let it run over several lines. Each reader starts after the opening
quotes and returns the text and what follows the closing ones.
-/

namespace Tape.Toml

/-- Characters that stand for themselves in texts and comments. -/
def isPlain (c : Char) : Bool := c = '\t' || (32 ≤ c.toNat && c.toNat ≠ 127)

def isSpace (c : Char) : Bool := c = ' ' || c = '\t'

def skipSpaces (cs : List Char) : List Char := cs.dropWhile isSpace

/-- What follows a line break. -/
def newline? : List Char → Option (List Char)
  | '\n' :: rest => some rest
  | '\r' :: '\n' :: rest => some rest
  | _ => none

/-- The character whose number has so many hexadecimal digits. -/
def coded? (count : Nat) (cs : List Char) : Option (Char × List Char) := do
  let digits ← (cs.take count).mapM Text.hexValue?
  let code := digits.foldl (fun total d => total * 16 + d) 0
  if digits.length = count && code.isValidChar then return (Char.ofNat code, cs.drop count)
  else none

/-- The character of an escape, read after its backslash. -/
def escape? : List Char → Option (Char × List Char)
  | 'u' :: rest => coded? 4 rest
  | 'U' :: rest => coded? 8 rest
  | 'b' :: rest => some ('\x08', rest)
  | 'f' :: rest => some ('\x0c', rest)
  | 'n' :: rest => some ('\n', rest)
  | 'r' :: rest => some ('\r', rest)
  | 't' :: rest => some ('\t', rest)
  | '"' :: rest => some ('"', rest)
  | '\\' :: rest => some ('\\', rest)
  | _ => none

def prepend (c : Char) (found : List Char × List Char) : List Char × List Char :=
  (c :: found.1, found.2)

/-! ## Texts in one line -/

/-- Every step takes a character, so the number of characters bounds the steps. -/
def basic? : Nat → List Char → Option (List Char × List Char)
  | 0, _ | _, [] => none
  | _ + 1, '"' :: rest => some ([], rest)
  | steps + 1, '\\' :: rest => do
      let (c, rest) ← escape? rest
      (basic? steps rest).map (prepend c)
  | steps + 1, c :: rest => if isPlain c then (basic? steps rest).map (prepend c) else none

def literal? : List Char → Option (List Char × List Char)
  | [] => none
  | '\'' :: rest => some ([], rest)
  | c :: rest => if isPlain c then (literal? rest).map (prepend c) else none

/-! ## Texts over several lines -/

/-- The text of a run of quotes inside tripled ones, and whether the run closes the text. Up to two
quotes may stand right before the closing ones. -/
def quoteRun (mark : Char) (count : Nat) : List Char × Bool × Nat :=
  if count < 3 then (List.replicate count mark, false, count)
  else (List.replicate (min count 5 - 3) mark, true, min count 5)

/-- Skips spaces and line breaks. -/
def skipBlanks : List Char → List Char
  | [] => []
  | '\r' :: '\n' :: rest => skipBlanks rest
  | c :: rest => if isSpace c || c = '\n' then skipBlanks rest else c :: rest

/-- What follows a backslash at the end of a line: all blanks up to the next text. -/
def continued? (cs : List Char) : Option (List Char) :=
  (newline? (skipSpaces cs)).map skipBlanks

def runLength (mark : Char) (cs : List Char) : Nat := (cs.takeWhile (· = mark)).length

/-- Reads a text in tripled quotes of either kind. -/
def block? (mark : Char) (escapes : Bool) : Nat → List Char → Option (List Char × List Char)
  | 0, _ | _, [] => none
  | steps + 1, c :: rest =>
      if c = mark then
        let (text, closes, length) := quoteRun mark (runLength mark (c :: rest))
        let rest := (c :: rest).drop length
        if closes then some (text, rest)
        else (block? mark escapes steps rest).map fun found => (text ++ found.1, found.2)
      else if c = '\\' && escapes then
        match continued? rest with
        | some rest => block? mark escapes steps rest
        | none => do
            let (c, rest) ← escape? rest
            (block? mark escapes steps rest).map (prepend c)
      else
        match newline? (c :: rest) with
        | some rest => (block? mark escapes steps rest).map (prepend '\n')
        | none =>
            if isPlain c then (block? mark escapes steps rest).map (prepend c) else none

/-- A text in tripled quotes; a line break right after the opening ones does not count. -/
def openBlock? (mark : Char) (escapes : Bool) (cs : List Char) : Option (List Char × List Char) :=
  let cs := (newline? cs).getD cs
  block? mark escapes (cs.length + 1) cs

/-- The text that starts with a quote. -/
def text? : List Char → Option (String × List Char)
  | cs =>
      let found := match cs with
        | '"' :: '"' :: '"' :: rest => openBlock? '"' true rest
        | '"' :: rest => basic? (rest.length + 1) rest
        | '\'' :: '\'' :: '\'' :: rest => openBlock? '\'' false rest
        | '\'' :: rest => literal? rest
        | _ => none
      found.map fun found => (String.ofList found.1, found.2)

end Tape.Toml
