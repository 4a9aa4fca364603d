/-!
# How alike two texts are

Characters agree when they are equal and not too far apart. The score is the mean of three shares:
of the characters that agree in each text, and of the agreeing ones that stand in the same order. It
is kept as a fraction.
-/

namespace Tape.Text

/-- The characters that agree: those of the first text in order, and the places in the second. -/
structure Agreement where
  chars : List Char
  places : List Nat

/-- How far apart agreeing characters may stand. -/
def reach (first second : List Char) : Nat := max first.length second.length / 2 - 1

/-- The first free place within reach that holds the character. -/
def agreeingPlace? (second : List Char) (reach place : Nat) (c : Char) (taken : List Nat) :
    Option Nat :=
  (List.range second.length).find? fun other =>
    place ≤ other + reach && other ≤ place + reach && second[other]? = some c &&
      !taken.contains other

def agreement (second : List Char) (reach : Nat) : Nat → List Char → Agreement → Agreement
  | _, [], found => found
  | place, c :: rest, found =>
      agreement second reach (place + 1) rest <|
        match agreeingPlace? second reach place c found.places with
        | some other => ⟨found.chars ++ [c], found.places ++ [other]⟩
        | none => found

/-- A fraction; its denominator is positive. -/
structure Score where
  numerator : Nat
  denominator : Nat
  deriving DecidableEq, Repr

def Score.exceeds (a b : Score) : Bool := b.numerator * a.denominator < a.numerator * b.denominator

def similarity (first second : List Char) : Score :=
  let found := agreement second (reach first second) 0 first ⟨[], []⟩
  let count := found.chars.length
  let ordered := (List.range second.length).filterMap fun place =>
    if found.places.contains place then second[place]? else none
  let displaced := ((found.chars.zip ordered).filter fun pair => pair.1 ≠ pair.2).length / 2
  if count = 0 then ⟨0, 1⟩
  else
    ⟨count * count * (first.length + second.length) +
        (count - displaced) * first.length * second.length,
      3 * count * first.length * second.length⟩

end Tape.Text
