import Tape.Settings.Environment
import Tape.Settings.Setting
import Tape.Word

/-!
# Laying settings over settings

Settings from several places are laid over each other in turn. A name is a path through tables and
lists; what is missing on the way is made, and what is in the way is replaced. Tables are merged,
and the names they are merged under lose their letter case.
-/

namespace Tape

namespace Setting

def members : Setting → List (String × Setting)
  | table members => members
  | _ => []

def items : Setting → List Setting
  | list items => items
  | _ => []

def setMember (name : String) (v : Setting) : List (String × Setting) → List (String × Setting)
  | [] => [(name, v)]
  | (other, old) :: rest =>
      if other = name then (name, v) :: rest else (other, old) :: setMember name v rest

def member? (root : Setting) (name : String) : Option Setting :=
  (root.members.find? fun m => m.1 = name).map (·.2)

/-- The value as a table in which the name stands for a value. -/
def withMember (root : Setting) (name : String) (v : Setting) : Setting :=
  table (setMember name v root.members)

mutual

/-- Puts a value under a name; a table is merged into what stands there. -/
def place (v : Setting) (name : String) (root : Setting) : Setting :=
  match v with
  | table members =>
      root.withMember (Text.lower name)
        (placeAll members ((root.member? (Text.lower name)).getD (table [])))
  | other => root.withMember (Text.lower name) other

def placeAll : List (String × Setting) → Setting → Setting
  | [], root => root
  | (name, v) :: rest, root => placeAll rest (place v name root)

end

/-! ## Paths -/

inductive Step where
  | name (name : String)
  /-- Places below zero count from the end. -/
  | index (index : Int)
  deriving DecidableEq, Repr

def isNameChar (c : Char) : Bool := c.isAlphanum || c = ' ' || c = '_' || c = '-'

def name? (cs : List Char) : Option (Step × List Char) :=
  let name := cs.takeWhile isNameChar
  if name = [] then none else some (.name (String.ofList name), cs.dropWhile isNameChar)

def isBlank (c : Char) : Bool := c = ' ' || c = '\t'

/-- The place in brackets, after the opening one. -/
def index? (cs : List Char) : Option (Step × List Char) :=
  let cs := cs.dropWhile isBlank
  let (negative, cs) : Bool × List Char := match cs with
    | '-' :: rest => (true, rest)
    | _ => (false, cs)
  let ds := cs.takeWhile Char.isDigit
  let n : Int := Text.numeral 0 ds
  let n := if negative then -n else n
  match (cs.dropWhile Char.isDigit).dropWhile isBlank with
  | ']' :: rest =>
      if ds ≠ [] && Word.isSigned64 n then some (.index n, rest) else none
  | _ => none

/-- Every step takes a character. -/
def steps? : Nat → List Char → Option (List Step)
  | 0, _ => none
  | _, [] => some []
  | bound + 1, cs => do
      let (step, rest) ← match cs with
        | '.' :: rest => name? rest
        | '[' :: rest => index? rest
        | _ => none
      return step :: (← steps? bound rest)

/-- The steps that a name stands for, if it has the form of a path. -/
def path? (name : String) : Option (List Step) := do
  let (first, rest) ← name? name.toList
  return first :: (← steps? (rest.length + 1) rest)

/-- The place that an index means in a list of a length. -/
def slot? (index : Int) (length : Nat) : Option Nat :=
  if 0 ≤ index then some index.toNat
  else if index.natAbs ≤ length then some (length - index.natAbs)
  else none

/-- The list with places up to the given one, all new ones absent. -/
def padTo (slot : Nat) (items : List Setting) : List Setting :=
  items ++ List.replicate (slot + 1 - items.length) absent

/-- Changes what a step leads to. -/
def enter (change : Setting → Setting) (root : Setting) : Step → Setting
  | .name name => root.withMember name (change ((root.member? name).getD absent))
  | .index index =>
      match slot? index root.items.length with
      | none => list root.items
      | some slot => list ((padTo slot root.items).modify slot change)

/-- Puts a value where the last step leads. -/
def put (v root : Setting) : Step → Setting
  | .name name => place v name root
  | .index index =>
      match slot? index root.items.length with
      | some slot => list ((padTo slot root.items).set slot v)
      | none =>
          let missing := index.natAbs - root.items.length
          list (v :: List.replicate (missing - 1) absent ++ root.items)

def putAt (v : Setting) : List Step → Setting → Setting
  | [], root => root
  | [step], root => put v root step
  | step :: rest, root => enter (putAt v rest) root step

/-- Lays one named value over settings. -/
def overlay (root : Setting) (entry : String × Setting) : Setting :=
  match path? entry.1 with
  | some steps => putAt entry.2 steps root
  | none => place entry.2 entry.1 root

/-! ## Variables -/

/-- What the text of a variable means. -/
def ofVariable (text : String) : Setting :=
  let plain := Text.lower text
  if plain = "true" then flag true
  else if plain = "false" then flag false
  else
    match (Text.toInt? text.toList).filter Word.isSigned64 with
    | some n => int n
    | none =>
        match Binary64.ofString? text with
        | some x => real x
        | none => .text text

/-- Two underscores in the name of a variable part the steps of a path. -/
def dotted : List Char → List Char
  | '_' :: '_' :: rest => '.' :: dotted rest
  | c :: rest => c :: dotted rest
  | [] => []

end Setting

/-- The settings that the variables of the program hold, whatever their letter case. -/
def Environment.settings (env : Environment) : List (String × Setting) :=
  let first := (Text.lower (family ++ "_")).toList
  env.filterMap fun entry =>
    (Text.after? first (Text.lower entry.1).toList).map fun rest =>
      (String.ofList (Setting.dotted rest), Setting.ofVariable entry.2)

end Tape
