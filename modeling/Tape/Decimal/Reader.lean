import Tape.Decimal.Basic

/-!
# Reading a decimal from text

A text is a sign, digits with at most one point, and underscores after the first digit; an exponent
may follow. Digits that do not fit are rounded at the first one dropped when they stand after the
point, and refused before it.
-/

namespace Tape.Decimal

open Tape.Text (digitValue)

/-- Mantissa and scale of a text read so far. -/
structure Places where
  mantissa : Nat
  scale : Nat
  deriving DecidableEq, Repr

/-- Drops all digits of the rest; a first dropped digit of five or more rounds up. -/
def Places.roundAt? (p : Places) (rest : List Char) : Option Places :=
  if rest.all fun r => r.isDigit || r = '_' then
    match rest.dropWhile fun r => r = '_' with
    | c :: _ =>
        if 5 ≤ digitValue c then
          if p.mantissa + 1 < mantissaBound then some ⟨p.mantissa + 1, p.scale⟩
          else if p.scale = 0 then none
          else some ⟨(p.mantissa + 5) / 10, p.scale - 1⟩
        else some p
    | [] => some p
  else none

def readPlaces? (point started : Bool) (p : Places) : List Char → Option Places
  | [] => if started then some p else none
  | c :: rest =>
      if c.isDigit then
        let mantissa := p.mantissa * 10 + digitValue c
        if mantissaBound ≤ mantissa then
          if point then p.roundAt? (c :: rest) else none
        else
          let next : Places := ⟨mantissa, if point then p.scale + 1 else p.scale⟩
          if point && maxScale ≤ next.scale then next.roundAt? rest
          else readPlaces? point true next rest
      else if c = '.' && !point then readPlaces? true started p rest
      else if c = '_' && started then readPlaces? point true p rest
      else none

def unsigned? (cs : List Char) : Option Places := readPlaces? false false ⟨0, 0⟩ cs

/-- Splits a sign from the digits after it. -/
def splitSign : List Char → Bool × List Char
  | '-' :: rest => (true, rest)
  | '+' :: rest => (false, rest)
  | cs => (false, cs)

def positional? (cs : List Char) : Option Decimal :=
  let (negative, body) := splitSign cs
  (unsigned? body).bind fun p => ofParts? negative p.mantissa p.scale

/-- The last `n` digits left out, a half rounding up. -/
def dropDigits (mantissa n : Nat) : Nat := (mantissa + Nat.pow 10 n / 2) / Nat.pow 10 n

/-- The places after an exponent. Where the scale cannot grow any more digits are dropped, and where
it cannot shrink any more the mantissa grows. -/
def shift? (p : Places) (negative : Bool) (exponent : Nat) : Option Places :=
  if negative then
    if maxScale < exponent then none
    else if p.scale + exponent ≤ maxScale then some ⟨p.mantissa, p.scale + exponent⟩
    else some ⟨dropDigits p.mantissa (p.scale + exponent - maxScale), maxScale⟩
  else if exponent ≤ p.scale then some ⟨p.mantissa, p.scale - exponent⟩
  else if exponent ≤ maxScale then
    some ⟨p.mantissa * Nat.pow 10 (exponent - p.scale), 0⟩
  else none

def isExponentMark (c : Char) : Bool := c = 'e' || c = 'E'

def scientific? (cs : List Char) : Option Decimal :=
  let base := cs.takeWhile fun c => !isExponentMark c
  match cs.dropWhile fun c => !isExponentMark c with
  | [] => none
  | _ :: power =>
      let (negative, body) := splitSign base
      let (down, size) : Bool × List Char := match power with
        | '-' :: rest => (true, rest)
        | rest => (false, rest)
      (unsigned? body).bind fun p => (Text.toNat? size).bind fun exponent =>
        (shift? p down exponent).bind fun q => ofParts? negative q.mantissa q.scale

/-- Reads a text, with or without an exponent, into lowest terms. -/
def ofChars? (cs : List Char) : Option Decimal :=
  let body := Text.trim cs
  ((positional? body).or (scientific? body)).map normalize

def ofString? (s : String) : Option Decimal := ofChars? s.toList

end Tape.Decimal
