import Tape.Decimal.Basic
import Tape.Binary64.Shortest

/-!
# Decimals and binary64 numbers

A number becomes a decimal by turning its power of two into a power of ten digit by digit, and then
dropping the decimals beyond its own precision. A decimal becomes a number from its whole part and
its fraction, rounded back onto its own places.
-/

namespace Tape.Decimal

open Tape.Binary64

/-- A number `mantissa · 10 ^ exponent` on its way to a decimal. -/
structure Draft where
  mantissa : Nat
  exponent : Int
  deriving DecidableEq, Repr

/-- Absorbs `n` halves: each factor of one half is a factor of five over ten. -/
def Draft.absorbHalves : Nat → Draft → Draft
  | 0, d => d
  | n + 1, d =>
      absorbHalves n <|
        if d.mantissa % 2 = 0 then ⟨d.mantissa / 2, d.exponent + 1⟩
        else if d.mantissa * 5 < mantissaBound then ⟨d.mantissa * 5, d.exponent⟩
        else ⟨d.mantissa / 2, d.exponent + 1⟩

/-- Absorbs `n` doublings: while there is room the mantissa doubles, then it loses a fifth part. -/
def Draft.absorbDoublings : Nat → Draft → Draft
  | 0, d => d
  | n + 1, d =>
      absorbDoublings n <|
        if d.mantissa * 2 < mantissaBound then ⟨d.mantissa * 2, d.exponent - 1⟩
        else ⟨d.mantissa / 5, d.exponent⟩

/-- Multiplies out `n` powers of ten. -/
def Draft.expand? : Nat → Draft → Option Draft
  | 0, d => some d
  | n + 1, d =>
      if d.mantissa * 10 < mantissaBound then expand? n ⟨d.mantissa * 10, d.exponent - 1⟩ else none

/-- One decimal less, a half rounding up. -/
def Draft.dropDecimal (d : Draft) : Draft :=
  ⟨if 5 ≤ d.mantissa % 10 then d.mantissa / 10 + 1 else d.mantissa / 10, d.exponent + 1⟩

/-- Drops the decimals beyond the largest scale; a number that vanishes is zero. -/
def Draft.limitScale : Nat → Draft → Draft
  | 0, d => d
  | n + 1, d =>
      if d.exponent < -(maxScale : Int) then
        if d.mantissa / 10 = 0 then ⟨0, 0⟩ else limitScale n d.dropDecimal
      else d

/-- Drops decimals until the mantissa is as precise as a number can be. -/
def Draft.limitPrecision : Nat → Draft → Draft
  | 0, d => d
  | n + 1, d =>
      if d.exponent < 0 && fractionBound ≤ d.mantissa then limitPrecision n d.dropDecimal else d

def ofFloat? (x : Float) : Option Decimal :=
  if !isFinite x then none
  else if magnitude x = 0 then ofParts? (isNegative x) 0 0
  else
    let p := parts x
    let start : Draft := ⟨p.mantissa, p.exponent⟩
    let scaled :=
      if p.exponent < 0 then start.absorbHalves (-p.exponent).toNat
      else start.absorbDoublings p.exponent.toNat
    (scaled.expand? scaled.exponent.toNat).bind fun whole =>
      let limited := whole.limitScale (-whole.exponent).toNat
      let precise := limited.limitPrecision maxScale
      let (mantissa, scale) := lowestParts precise.mantissa (-precise.exponent).toNat
      ofParts? (isNegative x) mantissa scale

def toFloat (d : Decimal) : Float :=
  if d.scale = 0 then
    if d.negative && d.mantissa ≠ 0 then -(Float.ofNat d.mantissa) else Float.ofNat d.mantissa
  else
    let unit := Nat.pow 10 d.scale
    let whole := Float.ofNat (d.mantissa / unit)
    let fraction := Float.ofNat (d.mantissa % unit) / Float.ofNat unit
    let size :=
      if compareKey fraction = 0 then whole
      else
        let places := power 10 d.scale
        roundHalfAway ((whole + fraction) * places) / places
    if d.negative then -size else size

end Tape.Decimal
