import Tape.Schema.Document

/-!
# Record types and how they are read

A record type is described by its fields in order. Its values may be written as a record, whose
members are read in the order they stand in, or as a list of the fields in their own order. What is
missing is only noticed after all that is there was read.
-/

namespace Tape.Schema

structure Field (ν : Type) where
  name : String
  otherName : Option String
  check : ν → Except Fault Unit

def Field.answersTo (f : Field ν) (name : String) : Bool :=
  f.name = name || f.otherName = some name

/-- The fields of a record type, and its value from what was found under their names. -/
structure Record (ν α : Type) where
  fields : List (Field ν)
  build : (String → Option ν) → (String → Fault) → Except Fault α

namespace Record

protected def pure (a : α) : Record ν α := ⟨[], fun _ _ => .ok a⟩

protected def seq (f : Record ν (α → β)) (r : Record ν α) : Record ν β :=
  ⟨f.fields ++ r.fields, fun find absent => do
    let g ← f.build find absent
    let a ← r.build find absent
    return g a⟩

instance : Applicative (Record ν) where
  pure := Record.pure
  seq f r := Record.seq f (r ())

def checkOf (read : ν → Except Fault α) (v : ν) : Except Fault Unit := do
  let _ ← read v

/-- A field that must be there. -/
def required (name : String) (read : ν → Except Fault α) : Record ν α :=
  ⟨[⟨name, none, checkOf read⟩], fun find absent =>
    match find name with
    | some v => read v
    | none => .error (absent name)⟩

/-- A field that may be left out. -/
def optional (name : String) (default : α) (read : ν → Except Fault α) : Record ν α :=
  ⟨[⟨name, none, checkOf read⟩], fun find _ =>
    match find name with
    | some v => read v
    | none => .ok default⟩

/-- A field that may be left out and has a second name. -/
def optionalAlias (name other : String) (default : α) (read : ν → Except Fault α) : Record ν α :=
  ⟨[⟨name, some other, checkOf read⟩], fun find _ =>
    match find name with
    | some v => read v
    | none => .ok default⟩

def lookup (found : List (String × ν)) (name : String) : Option ν :=
  (found.find? fun entry => entry.1 = name).map (·.2)

/-- Reads members in their order; the result lists fields by their own names. -/
def gather [Document ν] (fields : List (Field ν)) (found : List (String × ν)) :
    List (Except Fault String × ν) → Except Fault (List (String × ν))
  | [] => .ok found
  | (name, v) :: rest => do
      let name ← name
      match fields.find? fun f => f.answersTo name with
      | none =>
          Document.skip v
          gather fields found rest
      | some f =>
          if (lookup found f.name).isSome then .error (.mismatch (.duplicateField f.name))
          else
            f.check v
            gather fields ((f.name, v) :: found) rest

/-- Reads items as the first of the fields. -/
def assign (fields : List (Field ν)) (items : List ν) : Except Fault (List (String × ν)) :=
  (fields.zip items).mapM fun entry => do
    entry.1.check entry.2
    return (entry.1.name, entry.2)

def elementCount (n : Nat) : String :=
  Text.ofNat n ++ (if n = 1 then " element" else " elements")

/-- The fault of a list that ends before a field that must be there. -/
def tooShort (typeName : String) (fields : List (Field ν)) (name : String) : Fault :=
  .mismatch (.wrongLength (fields.findIdx fun f => f.name = name)
    ("struct " ++ typeName ++ " with " ++ elementCount fields.length))

def closed (close : Option Fault) : Except Fault Unit :=
  match close with
  | none => .ok ()
  | some fault => .error fault

/-- Reads a value of the record type from a document. -/
def read [Document ν] (r : Record ν α) (typeName : String) (v : ν) : Except Fault α := do
  match ← Document.fields typeName v with
  | .named members close =>
      let found ← gather r.fields [] members
      closed close
      r.build (lookup found) fun name => .mismatch (.missingField name)
  | .positional items close =>
      let found ← assign r.fields items
      if items.length < r.fields.length then closed close
      let a ← r.build (lookup found) (tooShort typeName r.fields)
      if r.fields.length < items.length then Document.surplus ν items.length
      else closed close
      return a

end Record

/-- Reads a list, each item by the same rule. -/
def readList [Document ν] (read : ν → Except Fault α) (v : ν) : Except Fault (List α) := do
  let (items, close) ← Document.items v
  let values ← items.mapM read
  Record.closed close
  return values

/-- Reads a value that may be null. -/
def readOption [Document ν] (read : ν → Except Fault α) (v : ν) : Except Fault (Option α) :=
  if Document.isAbsent v then .ok none else (read v).map some

/-- Reads a value of a type from JSON. -/
def ofJson (read : Json → Except Fault α) (v : Json) : Except Fault α := read v

/-- Reads a value of a type from a text; what follows the value must be blank. -/
def ofText (read : Json.Outline → Except Fault α) (s : String) : Except Fault α := do
  let (outline, tail) := Json.Outline.ofChars s.toList
  let a ← read outline
  Record.closed (tail.map .flaw)
  return a

end Tape.Schema
