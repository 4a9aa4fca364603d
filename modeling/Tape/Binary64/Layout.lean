import Tape.Text.Basic
import Tape.Binary64.Shortest

/-!
# The written form of a number

Two layouts use the shortest digits. In data a number keeps a decimal point, and leaves positional
notation below `10 ^ -5` and from `10 ^ 16` on. In plain form it never has an exponent and a whole
number has no point.
-/

namespace Tape.Binary64

open Tape.Text (digits)

/-- The exponents of the first digit that positional notation is used for. -/
structure Layout where
  least : Int
  most : Int

def dataLayout : Layout := ⟨-5, 15⟩

def zeros (n : Nat) : List Char := List.replicate n '0'

/-- Digits with the point after the digit of exponent zero. -/
def positional (ds : List Char) (leading : Int) (point : List Char) : List Char :=
  if leading < 0 then '0' :: '.' :: zeros (-leading - 1).toNat ++ ds
  else
    let whole := leading.toNat + 1
    if ds.length ≤ whole then ds ++ zeros (whole - ds.length) ++ point
    else ds.take whole ++ '.' :: ds.drop whole

def scientific (ds : List Char) (leading : Int) : List Char :=
  let body := match ds with
    | [] => []
    | [d] => [d]
    | d :: rest => d :: '.' :: rest
  let power := if leading < 0 then '-' :: digits (-leading).toNat else '+' :: digits leading.toNat
  body ++ 'e' :: power

def signed (x : Float) (cs : List Char) : String :=
  String.ofList (if isNegative x then '-' :: cs else cs)

/-- The form of a finite number in data. -/
def text (x : Float) : String :=
  if magnitude x = 0 then signed x "0.0".toList
  else
    let s := shortest x
    let ds := digits s.digits
    let leading := s.exponent + ds.length - 1
    signed x <|
      if dataLayout.least ≤ leading && leading ≤ dataLayout.most then
        positional ds leading ['.', '0']
      else scientific ds leading

/-- The form of any number as plain text. -/
def plainText (x : Float) : String :=
  if isNaN x then "NaN"
  else if !isFinite x then signed x "inf".toList
  else if magnitude x = 0 then signed x ['0']
  else
    let s := shortest x
    let ds := digits s.digits
    signed x (positional ds (s.exponent + ds.length - 1) [])

end Tape.Binary64
