import Tape.Binary64.Reader
import Tape.Decimal.Binary
import Tape.Decimal.Reader
import Tape.Json.Printer
import Tape.Word

/-!
# Numbers and identifiers in frames

Venues send numbers as texts or as JSON numbers. An amount that cannot be read is zero, an
identifier that cannot be read is empty; a price level is never guessed and stays unread.
-/

namespace Tape.Wire

/-- The finite number that a text denotes, or zero. -/
def amountOfText (s : String) : Float :=
  match Binary64.ofChars? (Text.trim s.toList) with
  | some x => if Binary64.isFinite x then x else 0
  | none => 0

def amount : Json → Float
  | .text s => amountOfText s
  | .number n => if Binary64.isFinite n.toFloat then n.toFloat else 0
  | _ => 0

def identifier : Json → String
  | .text s => s
  | .number n => String.ofList (Json.numberChars n)
  | _ => ""

/-- A whole number of 64 bits is taken digit by digit, any other number by its value. -/
def decimalOfNumber? : Number → Option Decimal
  | .int n => if Word.isSigned64 n then Decimal.ofInt? n else Decimal.ofFloat? (Float.ofInt n)
  | .real x => Decimal.ofFloat? x

def decimal? : Json → Option Decimal
  | .text s => Decimal.ofString? s
  | .number n => decimalOfNumber? n
  | _ => none

/-- A quantity is read exactly or not at all: one that is taken for zero would remove a level. -/
def quantity? (v : Json) : Option Float := do
  let x ← match v with
    | .text s => Binary64.ofChars? (Text.trim s.toList)
    | .number n => some n.toFloat
    | _ => none
  if Binary64.isFinite x && !Binary64.less x 0 then some x else none

end Tape.Wire
