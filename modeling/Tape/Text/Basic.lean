/-!
# Text

Operations on characters and strings that every other part of the library shares: white space as
Unicode defines it, ASCII letter case, decimal digits, and the search for one text inside another.
-/

namespace Tape.Text

/-! ## White space -/

/-- The characters of the Unicode property White_Space. -/
def isBlank (c : Char) : Bool :=
  let n := c.toNat
  (9 ≤ n && n ≤ 13) || n == 0x20 || n == 0x85 || n == 0xA0 || n == 0x1680 ||
    (0x2000 ≤ n && n ≤ 0x200A) || n == 0x2028 || n == 0x2029 || n == 0x202F || n == 0x205F ||
    n == 0x3000

def trimStart (cs : List Char) : List Char := cs.dropWhile isBlank

def trimEnd (cs : List Char) : List Char := (cs.reverse.dropWhile isBlank).reverse

def trim (cs : List Char) : List Char := trimEnd (trimStart cs)

/-! ## Letter case -/

/-- Only the letters `a` to `z` change. -/
def upper (s : String) : String := String.ofList (s.toList.map Char.toUpper)

/-- Only the letters `A` to `Z` change. -/
def lower (s : String) : String := String.ofList (s.toList.map Char.toLower)

def isAscii (c : Char) : Bool := c.toNat < 128

/-! ## Digits -/

def digitChar (d : Nat) : Char := Char.ofNat (48 + d)

def digitValue (c : Char) : Nat := c.toNat - 48

theorem digitValue_digitChar {d : Nat} (h : d < 10) : digitValue (digitChar d) = d := by
  have all : ∀ d < 10, digitValue (digitChar d) = d := by decide
  exact all d h

/-- The decimal digits of a number, most significant first and without leading zeros. -/
def digits (n : Nat) : List Char :=
  if n < 10 then [digitChar n] else digits (n / 10) ++ [digitChar (n % 10)]
termination_by n
decreasing_by omega

theorem digits_ne_nil (n : Nat) : digits n ≠ [] := by
  rw [digits]
  split <;> simp

/-- The number that a list of digits stands for, read after the digits of `start`. -/
def numeral (start : Nat) (cs : List Char) : Nat :=
  cs.foldl (fun total c => total * 10 + digitValue c) start

theorem numeral_append (start : Nat) (first rest : List Char) :
    numeral start (first ++ rest) = numeral (numeral start first) rest := by
  simp [numeral]

theorem numeral_digits (n : Nat) : numeral 0 (digits n) = n := by
  rw [digits]
  split
  next h => simp [numeral, digitValue_digitChar h]
  next =>
    rw [numeral_append, numeral_digits (n / 10)]
    simp only [numeral, List.foldl_cons, List.foldl_nil,
      digitValue_digitChar (Nat.mod_lt n (by decide : 0 < 10))]
    omega
termination_by n
decreasing_by omega

def ofNat (n : Nat) : String := String.ofList (digits n)

def ofInt : Int → String
  | .ofNat n => ofNat n
  | .negSucc n => "-" ++ ofNat (n + 1)

/-- A whole text of one or more digits, with an optional plus sign. -/
def toNat? (cs : List Char) : Option Nat :=
  let body := match cs with
    | '+' :: rest => rest
    | _ => cs
  if body ≠ [] && body.all Char.isDigit then some (numeral 0 body) else none

/-- A whole text of one or more digits, with an optional sign. -/
def toInt? : List Char → Option Int
  | '-' :: rest =>
      if rest ≠ [] && rest.all Char.isDigit then some (-(numeral 0 rest : Int)) else none
  | cs => (toNat? cs).map Int.ofNat

/-- The value of a hexadecimal digit, in either letter case. -/
def hexValue? (c : Char) : Option Nat :=
  if c.isDigit then some (c.toNat - 48)
  else if 'a' ≤ c && c ≤ 'f' then some (c.toNat - 87)
  else if 'A' ≤ c && c ≤ 'F' then some (c.toNat - 55)
  else none

/-! ## One text inside another -/

/-- The text after `first`, when the text starts with it. -/
def after? : List Char → List Char → Option (List Char)
  | [], cs => some cs
  | _ :: _, [] => none
  | p :: ps, c :: cs => if p = c then after? ps cs else none

theorem after?_eq_some_iff (first cs rest : List Char) :
    after? first cs = some rest ↔ cs = first ++ rest := by
  induction first generalizing cs with
  | nil => simp [after?]
  | cons p ps ih =>
    cases cs with
    | nil => simp [after?]
    | cons c cs =>
      by_cases h : p = c
      · simp [after?, h, ih]
      · simp [after?, h, Ne.symm h]

def holds (needle : List Char) : List Char → Bool
  | [] => needle.isEmpty
  | c :: cs => (after? needle (c :: cs)).isSome || holds needle cs

/-- The first occurrence of `needle` is replaced; a text without one stays as it is. -/
def replaceFirst (needle replacement : List Char) : List Char → List Char
  | [] => if needle.isEmpty then replacement else []
  | c :: cs =>
      match after? needle (c :: cs) with
      | some rest => replacement ++ rest
      | none => c :: replaceFirst needle replacement cs

/-- What stands before `last`, when the text ends with it. -/
def before? (last cs : List Char) : Option (List Char) :=
  (after? last.reverse cs.reverse).map List.reverse

/-- The parts between the occurrences of a character; always at least one. -/
def splitAt (mark : Char) : List Char → List (List Char)
  | [] => [[]]
  | c :: cs =>
      match splitAt mark cs with
      | [] => [[]]
      | part :: parts => if c = mark then [] :: part :: parts else (c :: part) :: parts

def joinWith (mark : String) : List String → String
  | [] => ""
  | [s] => s
  | s :: rest => s ++ mark ++ joinWith mark rest

/-- The number of bytes of a text in UTF-8. -/
def byteLength (cs : List Char) : Nat := cs.foldl (fun total c => total + c.utf8Size) 0

end Tape.Text
