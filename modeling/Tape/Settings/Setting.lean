import Tape.Binary64.Layout
import Tape.Binary64.Reader
import Tape.Schema.Record
import Tape.Word

/-!
# Values as settings are written

A setting from a file or a variable. Types ask leniently: a number, a flag and a text each stand for
the others where they can be read as such, and a list that is too long for a record is cut.
-/

namespace Tape

inductive Setting where
  /-- A place in a list that was never written. -/
  | absent
  | flag (value : Bool)
  | int (value : Int)
  | real (value : Float)
  | text (value : String)
  | list (items : List Setting)
  | table (members : List (String × Setting))

namespace Setting

open Schema

def found : Setting → Found
  | absent => .null
  | flag b => .flag b
  | int n => .int n
  | real x => .real x
  | text s => .text s
  | list _ => .list
  | table _ => .record

def refuse (v : Setting) (expected : String) : Except Fault α :=
  .error (wrongType v.found expected)

def yesWords : List String := ["true", "on", "yes"]

def noWords : List String := ["false", "off", "no"]

def largest : Nat := Word.bound64 - 1

/-- The nearest whole number of 64 bits; what is not a number counts as zero. -/
def nearestWhole (x : Float) : Nat :=
  if Binary64.isNaN x || Binary64.isNegative x then 0
  else
    let rounded := Binary64.roundHalfAway x
    if Binary64.less rounded 18446744073709551616 then rounded.toUInt64.toNat else largest

/-- A whole number, before it is asked whether it fits. -/
def whole? : Setting → Option Nat
  | flag b => some b.toNat
  | int n => if 0 ≤ n then some n.toNat else none
  | real x => some (nearestWhole x)
  | text s =>
      if yesWords.contains (Text.lower s) then some 1
      else if noWords.contains (Text.lower s) then some 0
      else (Text.toNat? s.toList).filter fun n => n ≤ largest
  | _ => none

def flag? : Setting → Option Bool
  | flag b => some b
  | int n => some (n ≠ 0)
  | real x => some (!Binary64.equal x 0)
  | text s =>
      if ("1" :: yesWords).contains (Text.lower s) then some true
      else if ("0" :: noWords).contains (Text.lower s) then some false
      else none
  | _ => none

def text? : Setting → Option String
  | text s => some s
  | flag b => some (if b then "true" else "false")
  | int n => some (Text.ofInt n)
  | real x => some (Binary64.plainText x)
  | _ => none

def real? : Setting → Option Float
  | real x => some x
  | int n => some (Float.ofInt n)
  | flag b => some (if b then 1 else 0)
  | text s => Binary64.ofString? s
  | _ => none

def orRefuse (v : Setting) (expected : String) : Option α → Except Fault α
  | some a => .ok a
  | none => v.refuse expected

instance : Document Setting where
  text v := v.orRefuse "a string" v.text?
  flag v := v.orRefuse "a boolean" v.flag?
  whole width v := do
    let n ← v.orRefuse width.name v.whole?
    wholeOfInt width n
  real v := v.orRefuse "f64" v.real?
  items
    | list items => .ok (items, none)
    | v => v.refuse "a sequence"
  fields name
    | table members => .ok (.named (members.map fun m => (.ok m.1, m.2)) none)
    | list items => .ok (.positional items none)
    | v => v.refuse ("struct " ++ name)
  choice known
    | text s => checkChoice known s
    | v => v.refuse "string"
  isAbsent
    | absent => true
    | _ => false
  skip _ := .ok ()
  surplus _ := .ok ()

end Setting

end Tape
