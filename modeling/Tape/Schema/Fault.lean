import Tape.Text.Quoted
import Tape.Binary64.Layout
import Tape.Json.Flaw

/-!
# Why a document does not have the shape of a type

Either the document is not well formed at the place that was read, or a value there is not what the
type asks for.
-/

namespace Tape.Schema

/-- What a value is, as far as messages tell. -/
inductive Found where
  | null
  | flag (value : Bool)
  | int (value : Int)
  | real (value : Float)
  | text (value : String)
  | list
  | record
  deriving DecidableEq

def Found.describe : Found → String
  | .null => "null"
  | .flag true => "boolean \x60true\x60"
  | .flag false => "boolean \x60false\x60"
  | .int n => "integer \x60" ++ Text.ofInt n ++ "\x60"
  | .real x => "floating point \x60" ++ Binary64.text x ++ "\x60"
  | .text s => "string " ++ Text.Quoted.encode s
  | .list => "sequence"
  | .record => "map"

inductive Mismatch where
  | wrongType (found : Found) (expected : String)
  | wrongValue (found : Found) (expected : String)
  | wrongLength (length : Nat) (expected : String)
  | missingField (name : String)
  | duplicateField (name : String)
  | unknownVariant (name : String) (known : List String)
  deriving DecidableEq

def ticked (s : String) : String := "\x60" ++ s ++ "\x60"

def oneOf : List String → String
  | [] => "there are no variants"
  | [a] => "expected " ++ ticked a
  | [a, b] => "expected " ++ ticked a ++ " or " ++ ticked b
  | many => "expected one of " ++ Text.joinWith ", " (many.map ticked)

def Mismatch.message : Mismatch → String
  | .wrongType found expected => "invalid type: " ++ found.describe ++ ", expected " ++ expected
  | .wrongValue found expected => "invalid value: " ++ found.describe ++ ", expected " ++ expected
  | .wrongLength length expected =>
      "invalid length " ++ Text.ofNat length ++ ", expected " ++ expected
  | .missingField name => "missing field " ++ ticked name
  | .duplicateField name => "duplicate field " ++ ticked name
  | .unknownVariant name known => "unknown variant " ++ ticked name ++ ", " ++ oneOf known

inductive Fault where
  | mismatch (reason : Mismatch)
  | flaw (flaw : Json.Flaw)
  deriving DecidableEq

/-- How far a text is from a value of the type. -/
inductive Fault.Category where
  | notJson
  | endsEarly
  | wrongShape
  deriving DecidableEq, Repr

def Fault.category : Fault → Category
  | .mismatch _ => .wrongShape
  | .flaw f => if f.kind.isEnd then .endsEarly else .notJson

def Fault.message : Fault → String
  | .mismatch reason => reason.message
  | .flaw f => f.kind.message

end Tape.Schema
