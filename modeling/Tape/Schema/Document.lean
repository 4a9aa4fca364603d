import Tape.Json.Reader
import Tape.Schema.Fault
import Tape.Word

/-!
# Documents that typed values are read from

A document answers the questions that a type asks of it. Two kinds answer here: JSON values, and
outlines of texts, where a flaw is an answer of its own and what stands before it is read first.
-/

namespace Tape.Schema

/-- A range of whole numbers, from zero to below its bound. -/
structure Width where
  name : String
  bound : Nat

def Width.bits16 : Width := ⟨"u16", Word.bound16⟩
def Width.bits32 : Width := ⟨"u32", Word.bound32⟩
def Width.bits64 : Width := ⟨"u64", Word.bound64⟩
def Width.size : Width := ⟨"usize", Word.bound64⟩

/-- The parts of a value that a record type is read from. -/
inductive Fields (ν : Type) where
  | named (members : List (Except Fault String × ν)) (close : Option Fault)
  | positional (items : List ν) (close : Option Fault)

class Document (ν : Type) where
  text : ν → Except Fault String
  flag : ν → Except Fault Bool
  whole : Width → ν → Except Fault Nat
  real : ν → Except Fault Float
  items : ν → Except Fault (List ν × Option Fault)
  fields : String → ν → Except Fault (Fields ν)
  /-- The one of the given names that the value stands for. -/
  choice : List String → ν → Except Fault String
  isAbsent : ν → Bool
  /-- Passes over a value that the type does not ask for. -/
  skip : ν → Except Fault Unit
  /-- A list of that length has more items than the type has fields. -/
  surplus : Nat → Except Fault Unit

def wrongType (found : Found) (expected : String) : Fault := .mismatch (.wrongType found expected)

def checkChoice (known : List String) (name : String) : Except Fault String :=
  if known.contains name then .ok name else .error (.mismatch (.unknownVariant name known))

def wholeOfInt (w : Width) (n : Int) : Except Fault Nat :=
  if 0 ≤ n && n < w.bound then .ok n.toNat
  else .error (.mismatch (.wrongValue (.int n) w.name))

/-! ## JSON values -/

def foundJson : Json → Found
  | .null => .null
  | .flag b => .flag b
  | .number (.int n) => .int n
  | .number (.real x) => .real x
  | .text s => .text s
  | .list _ => .list
  | .record _ => .record

def singleMember : Fault := .mismatch (.wrongValue .record "map with a single key")

def choiceOfJson (known : List String) : Json → Except Fault String
  | .text name => checkChoice known name
  | .record [(name, value)] => do
      let name ← checkChoice known name
      match value with
      | .null => return name
      | other => .error (wrongType (foundJson other) "unit")
  | .record _ => .error singleMember
  | other => .error (wrongType (foundJson other) "string or map")

instance : Document Json where
  text
    | .text s => .ok s
    | v => .error (wrongType (foundJson v) "a string")
  flag
    | .flag b => .ok b
    | v => .error (wrongType (foundJson v) "a boolean")
  whole w
    | .number (.int n) => wholeOfInt w n
    | v => .error (wrongType (foundJson v) w.name)
  real
    | .number n => .ok n.toFloat
    | v => .error (wrongType (foundJson v) "f64")
  items
    | .list items => .ok (items, none)
    | v => .error (wrongType (foundJson v) "a sequence")
  fields name
    | .record members => .ok (.named (members.map fun m => (.ok m.1, m.2)) none)
    | .list items => .ok (.positional items none)
    | v => .error (wrongType (foundJson v) ("struct " ++ name))
  choice := choiceOfJson
  isAbsent
    | .null => true
    | _ => false
  skip _ := .ok ()
  surplus length := .error (.mismatch (.wrongLength length "fewer elements in array"))

/-! ## Outlines -/

/-- What an outline shows before anything inside it is read. -/
def foundOutline : Json.Outline → Except Fault Found
  | .null => .ok .null
  | .flag b => .ok (.flag b)
  | .number (.int n) => .ok (.int n)
  | .number (.real x) => .ok (.real x)
  | .text s => .ok (.text s)
  | .list _ _ => .ok .list
  | .record _ _ => .ok .record
  | .broken flaw => .error (.flaw flaw)
  | .suspect flaw _ => .error (.flaw flaw)

def refuse (v : Json.Outline) (expected : String) : Except Fault α := do
  let found ← foundOutline v
  .error (wrongType found expected)

def notAValue : Fault := .flaw ⟨.expectedValue, 0⟩

/-- A record with one member, whose value is null. -/
def choiceOfMembers (known : List String) (close : Option Json.Flaw) :
    List (Except Json.Flaw String × Json.Outline) → Except Fault String
  | [] => .error (close.elim notAValue .flaw)
  | (name, value) :: rest => do
      let name ← name.mapError .flaw
      let name ← checkChoice known name
      match value with
      | .null =>
          match rest, close with
          | [], none => return name
          | [], some flaw => .error (if flaw.kind = .endInRecord then .flaw flaw else notAValue)
          | _ :: _, _ => .error notAValue
      | other => refuse other "unit"

def choiceOfOutline (known : List String) : Json.Outline → Except Fault String
  | .text name => checkChoice known name
  | .record members close => choiceOfMembers known close members
  | .broken flaw => .error (.flaw flaw)
  | .suspect flaw _ => .error (.flaw flaw)
  | _ => .error notAValue

def skippedFlaw (flaw : Json.Flaw) : Fault :=
  .flaw (if flaw.kind.isEndWhenSkipped then flaw
    else if flaw.kind = .endInNumber then ⟨.badNumber, flaw.unread⟩ else flaw)

mutual

def skipOutline : Json.Outline → Except Fault Unit
  | .broken flaw => .error (skippedFlaw flaw)
  | .suspect _ content => skipOutline content
  | .list items close => do
      skipItems items
      match close with
      | none => .ok ()
      | some flaw => .error (skippedFlaw flaw)
  | .record members close => do
      skipMembers members
      match close with
      | none => .ok ()
      | some flaw => .error (skippedFlaw flaw)
  | .null | .flag _ | .number _ | .text _ => .ok ()

def skipItems : List Json.Outline → Except Fault Unit
  | [] => .ok ()
  | item :: rest => do
      skipOutline item
      skipItems rest

def skipMembers : List (Except Json.Flaw String × Json.Outline) → Except Fault Unit
  | [] => .ok ()
  | member :: rest => do
      skipOutline member.2
      skipMembers rest

end

instance : Document Json.Outline where
  text
    | .text s => .ok s
    | v => refuse v "a string"
  flag
    | .flag b => .ok b
    | v => refuse v "a boolean"
  whole w
    | .number (.int n) => wholeOfInt w n
    | v => refuse v w.name
  real
    | .number n => .ok n.toFloat
    | v => refuse v "f64"
  items
    | .list items close => .ok (items, close.map .flaw)
    | v => refuse v "a sequence"
  fields name
    | .record members close =>
        .ok (.named (members.map fun m => (m.1.mapError .flaw, m.2)) (close.map .flaw))
    | .list items close => .ok (.positional items (close.map .flaw))
    | v => refuse v ("struct " ++ name)
  choice := choiceOfOutline
  isAbsent
    | .null => true
    | _ => false
  skip := skipOutline
  surplus _ := .error (.flaw ⟨.trailingText, 0⟩)

end Tape.Schema
