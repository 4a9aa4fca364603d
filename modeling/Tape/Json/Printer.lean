import Tape.Text.Quoted
import Tape.Binary64.Layout
import Tape.Json.Basic

/-!
# Writing JSON

Values are written without blanks. A text escapes its quotes, backslashes and control characters;
a number that is not finite has no written form and becomes `null`.
-/

namespace Tape.Json

open Tape.Text (digits)

def escape (c : Char) : List Char :=
  if c = '"' then ['\\', '"']
  else if c = '\\' then ['\\', '\\']
  else if c = '\n' then ['\\', 'n']
  else if c = '\r' then ['\\', 'r']
  else if c = '\t' then ['\\', 't']
  else if c.toNat = 8 then ['\\', 'b']
  else if c.toNat = 12 then ['\\', 'f']
  else if c.toNat < 32 then
    ['\\', 'u', '0', '0', Text.Quoted.hexDigit (c.toNat / 16), Text.Quoted.hexDigit (c.toNat % 16)]
  else [c]

def quoted (s : String) : List Char := '"' :: s.toList.flatMap escape ++ ['"']

def numberChars : Number → List Char
  | .int (.ofNat n) => digits n
  | .int (.negSucc n) => '-' :: digits (n + 1)
  | .real x => if Binary64.isFinite x then (Binary64.text x).toList else "null".toList

mutual

def chars : Json → List Char
  | .null => "null".toList
  | .flag true => "true".toList
  | .flag false => "false".toList
  | .number n => numberChars n
  | .text s => quoted s
  | .list items => '[' :: itemChars items ++ [']']
  | .record members => '\x7b' :: memberChars members ++ ['\x7d']

def itemChars : List Json → List Char
  | [] => []
  | [item] => chars item
  | item :: next :: rest => chars item ++ ',' :: itemChars (next :: rest)

def memberChars : List (String × Json) → List Char
  | [] => []
  | [member] => quoted member.1 ++ ':' :: chars member.2
  | member :: next :: rest =>
      quoted member.1 ++ ':' :: chars member.2 ++ ',' :: memberChars (next :: rest)

end

def render (v : Json) : String := String.ofList v.chars

end Tape.Json
