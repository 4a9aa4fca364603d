import Tape.Settings.Toml.Quoted
import Tape.Settings.Toml.Scalar
import Tape.Settings.Toml.Table

/-!
# Reading TOML documents

A document is read line by line. A text that is not TOML has no value; where it fails is not told.
-/

namespace Tape.Toml

/-! ## Ends of lines and blanks -/

def skipComment : List Char → List Char
  | '#' :: rest => rest.dropWhile isPlain
  | cs => cs

/-- What follows the end of a line; before it only blanks and a comment may stand. -/
def endOfLine? (cs : List Char) : Option (List Char) :=
  match skipComment (skipSpaces cs) with
  | [] => some []
  | rest => newline? rest

/-- Skips blanks, comments and line breaks. Every step but the last takes a character. -/
def skipLines : Nat → List Char → List Char
  | 0, cs => cs
  | _, [] => []
  | steps + 1, cs =>
      match endOfLine? cs with
      | some rest => skipLines steps rest
      | none => skipSpaces cs

def skipAll (cs : List Char) : List Char := skipLines cs.length cs

/-! ## Names -/

def isBareChar (c : Char) : Bool := c.isAlphanum || c = '_' || c = '-'

/-- One part of a name: bare characters, or a text in one line. -/
def part? (cs : List Char) : Option (String × List Char) :=
  match cs with
  | '"' :: rest =>
      (basic? (rest.length + 1) rest).map fun found => (String.ofList found.1, found.2)
  | '\'' :: rest => (literal? rest).map fun found => (String.ofList found.1, found.2)
  | _ =>
      let bare := cs.takeWhile isBareChar
      if bare = [] then none else some (String.ofList bare, cs.dropWhile isBareChar)

/-- A name of parts between dots, with blanks around each. -/
def name? : Nat → List Char → Option (List String × List Char)
  | 0, _ => none
  | parts + 1, cs => do
      let (first, rest) ← part? (skipSpaces cs)
      match skipSpaces rest with
      | '.' :: rest =>
          let (others, rest) ← name? parts rest
          return (first :: others, rest)
      | rest => return ([first], rest)

/-- Both names and values may be nested fewer levels deep than this. -/
def depthBound : Nat := 80

/-- The path before the last part of a name, and that part. -/
def path? (cs : List Char) : Option ((List String × String) × List Char) := do
  let (parts, rest) ← name? (depthBound - 1) cs
  let last ← parts.getLast?
  return ((parts.dropLast, last), rest)

/-! ## Values -/

/-- The items of a list after its opening bracket. -/
def items? (value : List Char → Option (Setting × List Char)) :
    Nat → List Char → Option (List Setting × List Char)
  | 0, _ => none
  | steps + 1, cs =>
      match skipAll cs with
      | ']' :: rest => some ([], rest)
      | rest => do
          let (first, rest) ← value rest
          match skipAll rest with
          | ',' :: rest =>
              let (others, rest) ← items? value steps rest
              return (first :: others, rest)
          | ']' :: rest => return ([first], rest)
          | _ => none

/-- One assignment. -/
def assignment? (value : List Char → Option (Setting × List Char)) (cs : List Char) :
    Option ((List String × String) × Setting × List Char) := do
  let (target, rest) ← path? cs
  let rest ← match rest with
    | '=' :: rest => some rest
    | _ => none
  let (v, rest) ← value (skipSpaces rest)
  return (target, v, rest)

/-- The assignments of a table in braces. -/
def members? (value : List Char → Option (Setting × List Char)) :
    Nat → Members → List Char → Option (Members × List Char)
  | 0, _, _ => none
  | steps + 1, members, cs => do
      let ((path, name), v, rest) ← assignment? value cs
      let members ← members.assign? path name v
      match skipSpaces rest with
      | ',' :: rest => members? value steps members rest
      | '\x7d' :: rest => return (members, rest)
      | _ => none

def isQuote (c : Char) : Bool := c = '"' || c = '\''

def value? : Nat → List Char → Option (Setting × List Char)
  | 0, cs => if cs.head?.any isQuote then
      (text? cs).map fun found => (.text found.1, found.2) else readScalar? cs
  | depth + 1, cs =>
      match cs with
      | '[' :: rest =>
          (items? (value? depth) (rest.length + 1) rest).map fun found => (.list found.1, found.2)
      | '\x7b' :: rest =>
          match skipSpaces rest with
          | '\x7d' :: rest => some (.table [], rest)
          | rest =>
              (members? (value? depth) (rest.length + 1) [] rest).map fun found =>
                (.table (memberSettings found.1), found.2)
      | _ =>
          if cs.head?.any isQuote then (text? cs).map fun found => (.text found.1, found.2)
          else readScalar? cs

/-! ## Documents -/

/-- The document so far, and the path of the header that assignments stand under. -/
structure Draft where
  members : Members
  current : List String

def header? (draft : Draft) (cs : List Char) : Option (Draft × List Char) :=
  match cs with
  | '[' :: rest => do
      let ((path, name), rest) ← path? rest
      let members ← draft.members.openItem? path name
      match rest with
      | ']' :: ']' :: rest => return (⟨members, path ++ [name]⟩, rest)
      | _ => none
  | _ => do
      let ((path, name), rest) ← path? cs
      let members ← draft.members.openTable? path name
      match rest with
      | ']' :: rest => return (⟨members, path ++ [name]⟩, rest)
      | _ => none

/-- Reads what one line holds, up to the blanks at its end. -/
def line? (draft : Draft) (cs : List Char) : Option (Draft × List Char) :=
  match cs with
  | '[' :: rest => header? draft rest
  | _ => do
      let ((path, name), v, rest) ← assignment? (value? (depthBound - 1)) cs
      let members ← draft.members.assignIn? draft.current path name v
      return (⟨members, draft.current⟩, rest)

def lines? : Nat → Draft → List Char → Option Draft
  | 0, _, _ => none
  | steps + 1, draft, cs =>
      match skipAll cs with
      | [] => some draft
      | rest => do
          let (draft, rest) ← line? draft rest
          lines? steps draft (← endOfLine? rest)

/-- A mark at the start that only tells the encoding. -/
def withoutMark : List Char → List Char
  | '\uFEFF' :: rest => rest
  | cs => cs

/-- The members of the document. -/
def read? (text : String) : Option (List (String × Setting)) :=
  let cs := withoutMark text.toList
  (lines? (cs.length + 1) ⟨[], []⟩ cs).map fun draft => memberSettings draft.members

end Tape.Toml
