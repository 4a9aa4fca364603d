/-!
# JSON values

A record keeps its members as a list of pairs. One that was read has its names in strictly
increasing order; one that is built to be written has them in the order of writing.
-/

namespace Tape

/-- Whole numbers of 64 bits are kept exactly; every other number is a binary64 number. -/
inductive Number where
  | int (value : Int)
  | real (value : Float)
  deriving DecidableEq

def Number.toFloat : Number → Float
  | .int n => Float.ofInt n
  | .real x => x

inductive Json where
  | null
  | flag (value : Bool)
  | number (value : Number)
  | text (value : String)
  | list (items : List Json)
  | record (members : List (String × Json))

namespace Json

def int (n : Int) : Json := .number (.int n)

def real (x : Float) : Json := .number (.real x)

def nat (n : Nat) : Json := .int n

def ofOption (f : α → Json) : Option α → Json
  | none => .null
  | some a => f a

/-- The value of the first member of the given name. -/
def find? (name : String) : List (String × Json) → Option Json
  | [] => none
  | (other, value) :: rest => if other = name then some value else find? name rest

/-- The member of a record; other values have none. -/
def get? (v : Json) (name : String) : Option Json :=
  match v with
  | .record members => find? name members
  | _ => none

def text? : Json → Option String
  | .text s => some s
  | _ => none

def items? : Json → Option (List Json)
  | .list items => some items
  | _ => none

def isRecord : Json → Bool
  | .record _ => true
  | _ => false

/-- The text of a member, when it is there and is a text. -/
def getText? (v : Json) (name : String) : Option String := (v.get? name).bind text?

def getItems? (v : Json) (name : String) : Option (List Json) := (v.get? name).bind items?

/-! ## Records in order -/

/-- Adds a member in its place; a member of the same name gives way. -/
def insertMember (name : String) (value : Json) : List (String × Json) → List (String × Json)
  | [] => [(name, value)]
  | (other, old) :: rest =>
      if name < other then (name, value) :: (other, old) :: rest
      else if name = other then (name, value) :: rest
      else (other, old) :: insertMember name value rest

/-- The record with the given members; of two with one name the later stays. -/
def ofMembers (members : List (String × Json)) : Json :=
  .record (members.foldl (fun kept member => insertMember member.1 member.2 kept) [])

end Json

end Tape
