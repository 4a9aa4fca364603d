import Tape.Text.Basic

/-!
# Reading a number from text

A whole text is a number when it is a sign, digits with at most one point, and an exponent, or one
of the words for infinity and NaN in any letter case. The value is the nearest representable one.
-/

namespace Tape.Binary64

open Tape.Text (numeral)

/-- The nearest number to `mantissa · 10 ^ exponent`. -/
def ofDecimal (mantissa : Nat) (exponent : Int) : Float :=
  if mantissa = 0 then 0
  else if exponent < 0 then Float.ofScientific mantissa true (-exponent).toNat
  else Float.ofScientific mantissa false exponent.toNat

/-- The exponent part, from its letter on; an absent one counts as zero. -/
def exponent? : List Char → Option Int
  | [] => some 0
  | mark :: rest =>
      if mark = 'e' || mark = 'E' then
        let (negative, body) : Bool × List Char := match rest with
          | '-' :: body => (true, body)
          | '+' :: body => (false, body)
          | body => (false, body)
        if body ≠ [] && body.all Char.isDigit then
          some (if negative then -(numeral 0 body : Int) else numeral 0 body)
        else none
      else none

/-- A number without its sign. -/
def unsigned? (cs : List Char) : Option Float :=
  let word := cs.map Char.toLower
  if word = "inf".toList || word = "infinity".toList then some (1 / 0)
  else if word = "nan".toList then some (0 / 0)
  else
    let whole := cs.takeWhile Char.isDigit
    let afterWhole := cs.dropWhile Char.isDigit
    let (fraction, tail) : List Char × List Char := match afterWhole with
      | '.' :: rest => (rest.takeWhile Char.isDigit, rest.dropWhile Char.isDigit)
      | rest => ([], rest)
    if whole = [] && fraction = [] then none
    else (exponent? tail).map fun exponent =>
      ofDecimal (numeral 0 (whole ++ fraction)) (exponent - fraction.length)

def ofChars? : List Char → Option Float
  | '-' :: rest => (unsigned? rest).map fun x => -x
  | '+' :: rest => unsigned? rest
  | cs => unsigned? cs

def ofString? (s : String) : Option Float := ofChars? s.toList

end Tape.Binary64
