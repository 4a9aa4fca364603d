import Tape.Json.Outline
import Tape.Word

/-!
# Numeric hosts of URLs

A host may be written as an address: four or fewer numbers for the old kind, each decimal, octal or
hexadecimal, and groups of hexadecimal digits in brackets for the new one.
-/

namespace Tape.Url

/-! ## Dotted numbers -/

def hexNumeral (cs : List Char) : Option Nat :=
  cs.foldl (fun total c => do
    let total ← total
    let d ← Text.hexValue? c
    return total * 16 + d) (some 0)

def octalNumeral (cs : List Char) : Option Nat :=
  if cs.all fun c => '0' ≤ c && c ≤ '7' then
    some (cs.foldl (fun total c => total * 8 + Text.digitValue c) 0)
  else none

/-- The number that a part denotes, however large; `none` when it is no number. -/
def partValue? : List Char → Option Nat
  | [] => none
  | '0' :: 'x' :: digits => hexNumeral digits
  | '0' :: 'X' :: digits => hexNumeral digits
  | '0' :: d :: digits => octalNumeral (d :: digits)
  | cs => if cs.all Char.isDigit then some (Text.numeral 0 cs) else none

/-- The parts between the points; one point at the end counts for nothing. -/
def partsOf (cs : List Char) : List (List Char) :=
  let parts := Text.splitAt '.' cs
  match parts.reverse with
  | [] :: first :: rest => (first :: rest).reverse
  | _ => parts

/-- Whether the last part is a number, so that the whole must be an address. -/
def endsInNumber (cs : List Char) : Bool :=
  match (partsOf cs).reverse with
  | last :: _ => (last ≠ [] && last.all Char.isDigit) || (partValue? last).isSome
  | [] => false

/-- Up to four numbers of which all but the last are bytes; the last fills the rest. -/
def isDottedAddress (cs : List Char) : Bool :=
  let parts := partsOf cs
  let values := parts.filterMap partValue?
  if 4 < parts.length || values.length ≠ parts.length then false
  else
    match values.reverse with
    | [] => false
    | last :: bytes =>
        bytes.all (· < 256) && last < Word.bound32 && last < Nat.pow 256 (4 - bytes.length)

/-! ## Groups of hexadecimal digits -/

/-- A byte in decimal without a leading zero. -/
def isByte (cs : List Char) : Bool :=
  cs ≠ [] && cs.all Char.isDigit && (cs.length = 1 || cs.head? ≠ some '0') &&
    cs.length ≤ 3 && Text.numeral 0 cs < 256

def isFourBytes (cs : List Char) : Bool :=
  let parts := Text.splitAt '.' cs
  parts.length = 4 && parts.all isByte

/-- Reads groups; `count` were read before and `gap` tells whether two colons stood together.
A group that is followed by a point starts four bytes, which count as two groups. -/
def readGroups (count : Nat) (gap : Bool) : Nat → List Char → Bool
  | 0, _ => false
  | _ + 1, [] => if gap then count ≤ 8 else count = 8
  | fuel + 1, cs =>
      if 8 ≤ count then false
      else
        match cs with
        | ':' :: rest => if gap then false else readGroups (count + 1) true fuel rest
        | _ =>
            let group := (cs.take 4).takeWhile fun c => (Text.hexValue? c).isSome
            match cs.drop group.length with
            | [] => readGroups (count + 1) gap fuel []
            | '.' :: _ =>
                group ≠ [] && count ≤ 6 && isFourBytes cs &&
                  (if gap then true else count + 2 = 8)
            | [':'] => false
            | ':' :: rest => readGroups (count + 1) gap fuel rest
            | _ => false

/-- An address between brackets. -/
def isGroupedAddress (cs : List Char) : Bool :=
  match cs with
  | ':' :: ':' :: rest => readGroups 1 true (cs.length + 2) rest
  | ':' :: _ => false
  | [_] => false
  | [] => false
  | _ => readGroups 0 false (cs.length + 2) cs

end Tape.Url
