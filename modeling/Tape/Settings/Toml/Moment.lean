import Tape.Text.Basic

/-!
# Dates and times in TOML

A date, a time, or both with an optional distance from universal time. They are kept as text in one
form: parted by `T`, and with no more digits of a second than needed.
-/

namespace Tape.Toml

open Tape.Text (numeral)

/-- A number of exactly so many digits. -/
def fixed? (count : Nat) (cs : List Char) : Option (Nat × List Char) :=
  let ds := cs.take count
  if ds.length = count && ds.all Char.isDigit then some (numeral 0 ds, cs.drop count) else none

def expect? (mark : Char) : List Char → Option (List Char)
  | c :: rest => if c = mark then some rest else none
  | [] => none

def isLeapYear (year : Nat) : Bool := year % 4 = 0 && (year % 100 ≠ 0 || year % 400 = 0)

def daysIn (year month : Nat) : Nat :=
  if month = 2 then (if isLeapYear year then 29 else 28)
  else if [4, 6, 9, 11].contains month then 30
  else 31

/-- The text of a date, and what follows it. -/
def date? (cs : List Char) : Option (List Char × List Char) := do
  let (year, rest) ← fixed? 4 cs
  let (month, rest) ← expect? '-' rest >>= fixed? 2
  let (day, rest) ← expect? '-' rest >>= fixed? 2
  if 1 ≤ month && month ≤ 12 && 1 ≤ day && day ≤ daysIn year month then
    return (cs.take 10, rest)
  else none

/-- The digits of a second that are kept, with their point. -/
def fractionText (ds : List Char) : List Char :=
  let kept := ((ds.take 9).reverse.dropWhile (· = '0')).reverse
  if kept = [] then [] else '.' :: kept

/-- The text of a time, and what follows it. -/
def time? (cs : List Char) : Option (List Char × List Char) := do
  let (hour, rest) ← fixed? 2 cs
  let (minute, rest) ← expect? ':' rest >>= fixed? 2
  let (second, rest) ← expect? ':' rest >>= fixed? 2
  if 23 < hour || 59 < minute || 60 < second then none
  else
    match rest with
    | '.' :: rest =>
        let ds := rest.takeWhile Char.isDigit
        if ds = [] then none
        else some (cs.take 8 ++ fractionText ds, rest.dropWhile Char.isDigit)
    | rest => some (cs.take 8, rest)

/-- The text of a distance from universal time; nothing may follow it. -/
def offset? (cs : List Char) : Option (List Char) :=
  match cs with
  | [] => some []
  | ['Z'] | ['z'] => some ['Z']
  | mark :: rest =>
      if mark = '+' || mark = '-' then do
        let (hour, rest) ← fixed? 2 rest
        let (minute, rest) ← expect? ':' rest >>= fixed? 2
        if hour ≤ 23 && minute ≤ 59 && rest = [] then
          return (if hour = 0 && minute = 0 then '+' :: "00:00".toList else cs)
        else none
      else none

/-- The kept text of a whole token that is a date, a time, or both. -/
def moment? (cs : List Char) : Option String :=
  match date? cs with
  | none => (time? cs).bind fun found => if found.2 = [] then some (String.ofList found.1) else none
  | some (date, []) => some (String.ofList date)
  | some (date, mark :: rest) => do
      if mark = 'T' || mark = 't' then
        let (time, rest) ← time? rest
        let offset ← offset? rest
        return String.ofList (date ++ 'T' :: time ++ offset)
      else none

/-- Whether a token is a date alone, after which a time may stand. -/
def isDate (cs : List Char) : Bool :=
  match date? cs with
  | some (_, []) => true
  | _ => false

end Tape.Toml
