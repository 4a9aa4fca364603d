import Tape.Settings.Setting
import Tape.Settings.Toml.Moment
import Tape.Word

/-!
# Unquoted values in TOML

A token without quotes is a truth value, a whole number in one of four bases, a number with a
fraction or an exponent, a special number, or a date. Single underscores may stand between digits.
-/

namespace Tape.Toml

/-- The digits of a group, without the underscores between them. -/
def ungroup? (isDigit : Char → Bool) : List Char → Option (List Char)
  | [] => none
  | [c] => if isDigit c then some [c] else none
  | c :: '_' :: rest => if isDigit c then (ungroup? isDigit rest).map (c :: ·) else none
  | c :: rest => if isDigit c then (ungroup? isDigit rest).map (c :: ·) else none

def isDigitOf (base : Nat) (c : Char) : Bool :=
  match Text.hexValue? c with
  | some d => d < base
  | none => false

def numeralOf (base : Nat) (cs : List Char) : Nat :=
  cs.foldl (fun total c => total * base + (Text.hexValue? c).getD 0) 0

/-- Whole numbers have 64 bits with the sign. -/
def whole? (n : Int) : Option Setting :=
  if Word.isSigned64 n then some (.int n) else none

def based? (base : Nat) (cs : List Char) : Option Setting :=
  (ungroup? (isDigitOf base) cs).bind fun ds => whole? (numeralOf base ds)

/-- Decimal digits in groups; no zero stands before another digit. -/
def decimalDigits? (cs : List Char) : Option (List Char) :=
  if cs.head? = some '0' && 1 < cs.length then none else ungroup? Char.isDigit cs

def unsigned (cs : List Char) : Bool × List Char :=
  match cs with
  | '-' :: rest => (true, rest)
  | '+' :: rest => (false, rest)
  | _ => (false, cs)

def decimal? (cs : List Char) : Option Setting := do
  let (negative, body) := unsigned cs
  let ds ← decimalDigits? body
  let n := Text.numeral 0 ds
  whole? (if negative then -(n : Int) else n)

def isGroupChar (c : Char) : Bool := c.isDigit || c = '_'

/-- Whether an exponent is well formed; there may be none. -/
def isExponent (cs : List Char) : Bool :=
  match cs with
  | [] => true
  | mark :: rest => (mark = 'e' || mark = 'E') && (ungroup? Char.isDigit (unsigned rest).2).isSome

/-- Whether a token without its sign is a number with a fraction or an exponent. -/
def isReal (cs : List Char) : Bool :=
  let rest := cs.dropWhile isGroupChar
  (decimalDigits? (cs.takeWhile isGroupChar)).isSome &&
    match rest with
    | [] => false
    | '.' :: rest =>
        (ungroup? Char.isDigit (rest.takeWhile isGroupChar)).isSome &&
          isExponent (rest.dropWhile isGroupChar)
    | rest => isExponent rest

/-- A number that is too large is refused; one that is too small counts as infinite. -/
def real? (cs : List Char) : Option Setting := do
  let (negative, body) := unsigned cs
  if body = "inf".toList || body = "nan".toList then
    (Binary64.ofChars? body).map fun x => .real (if negative then -x else x)
  else if isReal body then
    let x ← Binary64.ofChars? (cs.filter (· ≠ '_'))
    if Binary64.isFinite x || negative then return .real x else none
  else none

/-- The value of a whole token. -/
def scalar? (cs : List Char) : Option Setting :=
  if cs = "true".toList then some (.flag true)
  else if cs = "false".toList then some (.flag false)
  else
    match cs with
    | '0' :: 'x' :: ds => based? 16 ds
    | '0' :: 'o' :: ds => based? 8 ds
    | '0' :: 'b' :: ds => based? 2 ds
    | _ =>
        match moment? cs with
        | some text => some (.text text)
        | none => (real? cs).or (decimal? cs)

def isTokenChar (c : Char) : Bool :=
  c.isAlphanum || c = '_' || c = '-' || c = '+' || c = '.' || c = ':'

/-- Reads an unquoted value. One blank may part a date from a time. -/
def readScalar? (cs : List Char) : Option (Setting × List Char) :=
  let token := cs.takeWhile isTokenChar
  let rest := cs.dropWhile isTokenChar
  match rest with
  | ' ' :: more =>
      let time := more.takeWhile isTokenChar
      if isDate token && time ≠ [] then
        (moment? (token ++ 'T' :: time)).map fun text =>
          (.text text, more.dropWhile isTokenChar)
      else (scalar? token).map fun v => (v, rest)
  | _ => (scalar? token).map fun v => (v, rest)

end Tape.Toml
