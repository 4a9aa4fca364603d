import Tape.Binary64.Reader
import Tape.Binary64.Basic
import Tape.Json.Basic
import Tape.Json.Flaw
import Tape.Word

/-!
# Numbers in a JSON text

The digits of a number are gathered in 64 bits. From the first digit that does not fit on, digits
before the point only count towards the power of ten and digits after it are dropped. The gathered
number is then rounded and multiplied or divided once by the rounded power of ten.
-/

namespace Tape.Json

open Tape.Text (digitValue numeral)

def significandBound : Nat := Word.bound64

/-- Gathers digits while they fit: the number, how many were taken, and what follows. -/
def gather (significand taken : Nat) : List Char → Nat × Nat × List Char
  | [] => (significand, taken, [])
  | c :: rest =>
      if c.isDigit && significand * 10 + digitValue c < significandBound then
        gather (significand * 10 + digitValue c) (taken + 1) rest
      else (significand, taken, c :: rest)

def largestPower : Nat := 308

def powerOfTen (n : Nat) : Float := Float.ofScientific 1 false n

/-- Divides by `10 ^ exponent`, in steps of the largest power there is. -/
def divideByPower : Nat → Float → Nat → Float
  | 0, x, _ => x
  | fuel + 1, x, exponent =>
      if exponent ≤ largestPower then x / powerOfTen exponent
      else if Binary64.compareKey x = 0 then x
      else divideByPower fuel (x / powerOfTen largestPower) (exponent - largestPower)

/-- `significand · 10 ^ exponent`; `none` when it is too large. A quotient is zero after three
divisions by the largest power. -/
def scaled? (significand : Nat) (exponent : Int) : Option Float :=
  let x := Float.ofNat significand
  if exponent < 0 then some (divideByPower 4 x (-exponent).toNat)
  else if exponent.toNat ≤ largestPower then
    let product := x * powerOfTen exponent.toNat
    if Binary64.isFinite product then some product else none
  else if significand = 0 then some x
  else none

/-- A number that was read, unless it is too large, and what follows it. -/
structure NumberScan where
  value : Except Flaw Number
  rest : List Char

def signed (negative : Bool) (x : Float) : Float := if negative then -x else x

def realScan (negative : Bool) (significand : Nat) (exponent : Int) (rest : List Char) :
    NumberScan :=
  match scaled? significand exponent with
  | some x => ⟨.ok (.real (signed negative x)), rest⟩
  | none => ⟨.error (.before .numberTooLarge rest), rest⟩

def largestExponent : Nat := 2147483647

/-- Saturates at the ends of the 32-bit range. -/
def clampExponent (e : Int) : Int :=
  max (-(largestExponent : Int) - 1) (min e largestExponent)

/-- What follows the digit that makes an exponent leave the range. -/
def afterLargeExponent (size : Nat) : List Char → List Char
  | [] => []
  | c :: rest =>
      let size := size * 10 + digitValue c
      if largestExponent < size then rest else afterLargeExponent size rest

/-- The exponent part, after its letter. -/
def scanExponent (negative : Bool) (significand : Nat) (start : Int) (cs : List Char) :
    Except Flaw NumberScan :=
  let (down, body) : Bool × List Char := match cs with
    | '-' :: rest => (true, rest)
    | '+' :: rest => (false, rest)
    | rest => (false, rest)
  match body with
  | [] => .error ⟨.endInNumber, 0⟩
  | c :: after =>
      if c.isDigit then
        let size := numeral 0 (body.takeWhile Char.isDigit)
        let rest := body.dropWhile Char.isDigit
        if largestExponent < size then
          if significand ≠ 0 && !down then
            .ok ⟨.error (.before .numberTooLarge (afterLargeExponent 0 body)), rest⟩
          else .ok ⟨.ok (.real (signed negative 0)), rest⟩
        else
          let exponent := clampExponent (if down then start - size else start + size)
          .ok (realScan negative significand exponent rest)
      else .error (.inside .badNumber (c :: after))

/-- What may follow the digits of a real number. -/
def scanRealEnd (negative : Bool) (significand : Nat) (exponent : Int) :
    List Char → Except Flaw NumberScan
  | [] => .ok (realScan negative significand exponent [])
  | c :: rest =>
      if c = 'e' || c = 'E' then scanExponent negative significand exponent rest
      else .ok (realScan negative significand exponent (c :: rest))

/-- The digits after the point. -/
def scanFraction (negative : Bool) (significand : Nat) (exponent : Int) (cs : List Char) :
    Except Flaw NumberScan :=
  let (total, taken, rest) := gather significand 0 cs
  match rest with
  | [] =>
      if taken = 0 then .error ⟨.endInNumber, 0⟩
      else scanRealEnd negative total (exponent - taken) []
  | c :: _ =>
      if c.isDigit then
        scanRealEnd negative total (exponent - taken) (rest.dropWhile Char.isDigit)
      else if taken = 0 then .error (.inside .badNumber rest)
      else scanRealEnd negative total (exponent - taken) rest

def wholeNumber (negative : Bool) (significand : Nat) : Number :=
  if negative then
    if 0 < significand && significand ≤ Word.signedBound64 then .int (-(significand : Int))
    else .real (-(Float.ofNat significand))
  else .int significand

/-- What may follow the digits before the point. -/
def scanWholeEnd (negative : Bool) (significand : Nat) : List Char → Except Flaw NumberScan
  | [] => .ok ⟨.ok (wholeNumber negative significand), []⟩
  | c :: rest =>
      if c = '.' then scanFraction negative significand 0 rest
      else if c = 'e' || c = 'E' then scanExponent negative significand 0 rest
      else if c.isDigit then
        let extra := ((c :: rest).takeWhile Char.isDigit).length
        match (c :: rest).dropWhile Char.isDigit with
        | '.' :: more => scanFraction negative significand extra more
        | more => scanRealEnd negative significand extra more
      else .ok ⟨.ok (wholeNumber negative significand), c :: rest⟩

/-- A number after its sign. -/
def scanNumber (negative : Bool) : List Char → Except Flaw NumberScan
  | [] => .error ⟨.endInNumber, 0⟩
  | c :: rest =>
      if c = '0' then
        match rest with
        | d :: _ =>
            if d.isDigit then .error (.inside .badNumber rest)
            else scanWholeEnd negative 0 rest
        | [] => scanWholeEnd negative 0 []
      else if c.isDigit then
        let (significand, _, after) := gather (digitValue c) 1 rest
        scanWholeEnd negative significand after
      else .error (.inside .badNumber (c :: rest))

end Tape.Json
