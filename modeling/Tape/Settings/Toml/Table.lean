import Tape.Settings.Setting

/-!
# Tables of a TOML document

A document is built up by headers and assignments. A table may be filled under one header only, a
name is given one value only, and a dotted name may pass through tables that dotted names made but
not through one that has a header of its own.
-/

namespace Tape.Toml

/-- How a table came to be. -/
inductive Origin where
  /-- By a header of its own, or as the document itself. -/
  | headed
  /-- On the way to a table that has a header. -/
  | implied
  /-- On the way to a value under a dotted name. -/
  | dotted
  deriving DecidableEq, Repr

inductive Node where
  | value (setting : Setting)
  | table (origin : Origin) (members : List (String × Node))
  /-- Tables that share one header, written once for each. -/
  | tables (items : List (List (String × Node)))

abbrev Members := List (String × Node)

namespace Members

def get? (members : Members) (name : String) : Option Node :=
  (members.find? fun m => m.1 = name).map (·.2)

def set (name : String) (node : Node) : Members → Members
  | [] => [(name, node)]
  | (other, old) :: rest =>
      if other = name then (name, node) :: rest else (other, old) :: set name node rest

/-- Changes the table that a path leads to. Missing tables on the way are made; of tables with one
header the last is meant. -/
def edit (byDots : Bool) (change : Origin → Members → Option Members) :
    List String → Origin → Members → Option Members
  | [], origin, members => change origin members
  | name :: path, _, members => do
      match members.get? name with
      | none =>
          let made := if byDots then .dotted else .implied
          let inner ← edit byDots change path made []
          return members.set name (.table made inner)
      | some (.value _) => none
      | some (.tables items) =>
          let last ← edit byDots change path .headed (items.getLast?.getD [])
          return members.set name (.tables (items.dropLast ++ [last]))
      | some (.table origin inner) =>
          if byDots && origin = .headed then none
          else
            let inner ← edit byDots change path origin inner
            return members.set name (.table origin inner)

/-- Gives a new name a value, in a table that the dots before the name may lead to. -/
def assign? (members : Members) (path : List String) (name : String) (v : Setting) :
    Option Members :=
  edit true (fun origin inner =>
    if path ≠ [] && origin ≠ .dotted then none
    else if (inner.get? name).isSome then none
    else some (inner.set name (.value v))) path .headed members

/-- Opens a table under a header. -/
def openTable? (members : Members) (path : List String) (name : String) : Option Members :=
  edit false (fun _ inner =>
    match inner.get? name with
    | none => some (inner.set name (.table .headed []))
    | some (.table .implied kept) => some (inner.set name (.table .headed kept))
    | some _ => none) path .headed members

/-- Opens one more table under a header that many tables share. -/
def openItem? (members : Members) (path : List String) (name : String) : Option Members :=
  edit false (fun _ inner =>
    match inner.get? name with
    | none => some (inner.set name (.tables [[]]))
    | some (.tables items) => some (inner.set name (.tables (items ++ [[]])))
    | some _ => none) path .headed members

/-- Gives a name a value in the table that a path of headers leads to. -/
def assignIn? (members : Members) (current path : List String) (name : String) (v : Setting) :
    Option Members :=
  edit false (fun _ inner => inner.assign? path name v) current .headed members

end Members

mutual

/-- What a node means as a setting. -/
def Node.setting : Node → Setting
  | .value v => v
  | .table _ members => .table (memberSettings members)
  | .tables items => .list (itemSettings items)

def memberSettings : List (String × Node) → List (String × Setting)
  | [] => []
  | (name, node) :: rest => (name, node.setting) :: memberSettings rest

def itemSettings : List (List (String × Node)) → List Setting
  | [] => []
  | members :: rest => .table (memberSettings members) :: itemSettings rest

end

end Tape.Toml
