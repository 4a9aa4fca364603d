import Tape.Json.Outline
import Tape.Text.Printable
import Tape.Word

/-!
# Domain names of URLs

A name is decoded from its percent signs, brought to lower case and its narrow forms, and must then
be free of characters that have a meaning elsewhere in a URL, and of those that no name may hold. A
part that claims to be an encoded one must decode. What names in other scripts have to observe
beside that, the order of parts from right to left and where joiners stand, is left out.
-/

namespace Tape.Url

/-! ## Percent signs -/

/-- The bytes of a text whose percent signs before two hexadecimal digits stand for a byte. -/
def percentDecode : List Char → List UInt8
  | [] => []
  | '%' :: a :: b :: rest =>
      match Text.hexValue? a, Text.hexValue? b with
      | some high, some low => UInt8.ofNat (high * 16 + low) :: percentDecode rest
      | _, _ => 37 :: percentDecode (a :: b :: rest)
  | c :: rest => (String.utf8EncodeChar c) ++ percentDecode rest
termination_by cs => cs.length

def decodedText? (cs : List Char) : Option (List Char) :=
  (String.fromUTF8? ⟨(percentDecode cs).toArray⟩).map String.toList

/-! ## Characters -/

/-- The characters that no name may hold. -/
def isForbidden (c : Char) : Bool :=
  c.toNat ≤ 32 || c.toNat = 127 ||
    ['#', '/', ':', '<', '>', '?', '@', '[', '\\', ']', '^', '|', '%'].contains c

/-- Characters that count for nothing in a name. -/
def isIgnored (c : Char) : Bool :=
  let n := c.toNat
  n = 0xAD || n = 0x34F || n = 0x200B || n = 0x2060 || n = 0x2064 || n = 0xFEFF ||
    (0x180B ≤ n && n ≤ 0x180D) || (0xFE00 ≤ n && n ≤ 0xFE0F)

def isMark (c : Char) : Bool := 0x300 ≤ c.toNat && c.toNat ≤ 0x36F

/-- The plain form of a character: lower case, of normal width, and the plain point. -/
def plainForm (c : Char) : Char :=
  let n := c.toNat
  if n = 0x3002 || n = 0xFF61 then '.'
  else if 0xFF01 ≤ n && n ≤ 0xFF5E then (Char.ofNat (n - 0xFEE0)).toLower
  else if n = 0xA0 || n = 0x3000 || (0x2000 ≤ n && n ≤ 0x200A) then ' '
  else c.toLower

/-- Characters with a glyph that no name may hold: points in disguise, digits with a point,
descriptions of characters, and what stands for an object or a character that is missing. -/
def bannedRanges : List (Nat × Nat) :=
  [(0x2024, 0x2026), (0x2488, 0x249B), (0x2FF0, 0x2FFB), (0x33C2, 0x33C2), (0x33C7, 0x33C7),
   (0x33D8, 0x33D8), (0xFE12, 0xFE12), (0xFE19, 0xFE19), (0xFE30, 0xFE30), (0xFE52, 0xFE52),
   (0xFFFC, 0xFFFD), (0x1F100, 0x1F100)]

/-- Characters whose plain form has a forbidden character in it, such as a blank before a mark, or
is one. -/
def compositeRanges : List (Nat × Nat) :=
  [(0xA8, 0xA8), (0xAF, 0xAF), (0xB4, 0xB4), (0xB8, 0xB8), (0x2D8, 0x2DD), (0x37A, 0x37A),
   (0x384, 0x385), (0x1FBD, 0x1FBD), (0x1FBF, 0x1FC1), (0x1FCD, 0x1FCF), (0x1FDD, 0x1FDF),
   (0x1FED, 0x1FEE), (0x1FFD, 0x1FFE), (0x2017, 0x2017), (0x203E, 0x203E), (0x2047, 0x2049),
   (0x2100, 0x2101), (0x2105, 0x2106), (0x2A74, 0x2A74), (0x309B, 0x309C), (0xFC5E, 0xFC63),
   (0xFDFA, 0xFDFB), (0xFE13, 0xFE13), (0xFE16, 0xFE16), (0xFE47, 0xFE49), (0xFE55, 0xFE56),
   (0xFE5F, 0xFE5F), (0xFE64, 0xFE65), (0xFE68, 0xFE68), (0xFE6A, 0xFE6B), (0xFE70, 0xFE70),
   (0xFE72, 0xFE72), (0xFE74, 0xFE74), (0xFE76, 0xFE76), (0xFE78, 0xFE78), (0xFE7A, 0xFE7A),
   (0xFE7C, 0xFE7C), (0xFE7E, 0xFE7E), (0xFFE3, 0xFFE3)]

def isAllowed (c : Char) : Bool :=
  if c.toNat < 128 then !isForbidden c
  else
    (isMark c || !Text.isGlyphless c) &&
      !(bannedRanges ++ compositeRanges).any fun range => range.1 ≤ c.toNat && c.toNat ≤ range.2

/-! ## Encoded parts -/

/-- A digit of an encoded part: letters first, then the decimal digits. -/
def partDigit? (c : Char) : Option Nat :=
  if 'a' ≤ c && c ≤ 'z' then some (c.toNat - 97)
  else if c.isDigit then some (c.toNat - 22)
  else none

/-- The bias after a number of inserted characters. -/
def adapt (delta count : Nat) (first : Bool) : Nat :=
  let delta := if first then delta / 700 else delta / 2
  go (delta + delta / count) 0 64
where
  go (delta k : Nat) : Nat → Nat
    | 0 => k
    | fuel + 1 => if 455 < delta then go (delta / 35) (k + 36) fuel else k + 36 * delta / (delta + 38)

/-- One number of variable length: its value and the digits after it. -/
def readVariable (bias : Nat) (value weight k : Nat) : List Char → Option (Nat × List Char)
  | [] => none
  | c :: rest =>
      (partDigit? c).bind fun d =>
        let threshold := if k ≤ bias then 1 else if bias + 26 ≤ k then 26 else k - bias
        let value := value + d * weight
        if Word.bound32 ≤ value then none
        else if d < threshold then some (value, rest)
        else readVariable bias value (weight * (36 - threshold)) (k + 36) rest

/-- Inserts the characters that the digits describe. -/
def insertCoded (taken : List Char) (code start bias : Nat) : Nat → List Char → Option (List Char)
  | 0, _ => none
  | _ + 1, [] => some taken
  | fuel + 1, digits => do
      let (delta, rest) ← readVariable bias 0 1 36 digits
      let count := taken.length + 1
      let place := start + delta
      let code := code + place / count
      let place := place % count
      if code.isValidChar then
        insertCoded (taken.take place ++ Char.ofNat code :: taken.drop place) code (place + 1)
          (adapt delta count (taken.all Text.isAscii)) fuel rest
      else none

/-- The characters of a part after its mark `xn--`. -/
def decodePart? (cs : List Char) : Option (List Char) :=
  match (cs.reverse.dropWhile (· ≠ '-')).reverse with
  | [] => insertCoded [] 128 0 72 (cs.length + 1) cs
  | basic => insertCoded basic.dropLast 128 0 72 (cs.length + 1) (cs.drop basic.length)

/-- Whether an encoded part stands for a part in plain form that needs the encoding. -/
def isEncodedPart (cs : List Char) : Bool :=
  match decodePart? cs with
  | none => false
  | some decoded =>
      decoded.any (fun c => !Text.isAscii c) &&
        decoded.all fun c => isAllowed c && plainForm c = c && !isIgnored c

def isValidPart (cs : List Char) : Bool :=
  match Text.after? "xn--".toList cs with
  | some coded => isEncodedPart coded
  | none =>
      match cs with
      | c :: _ => !isMark c
      | [] => true

/-- The plain form of a domain name, if it is one. -/
def domain? (cs : List Char) : Option (List Char) := do
  let decoded ← decodedText? cs
  let plain := (decoded.filter fun c => !isIgnored c).map plainForm
  if plain.all isAllowed && (Text.splitAt '.' plain).all isValidPart then some plain else none

example : domain? ['\uFFFD'] = none := by decide +kernel

end Tape.Url
