import Tape.Text.Basic

/-!
# Symbols

A canonical symbol has a dash between its base and its quote. Venues leave it out, so it is put
back by position: this guesses the length of the quote and looks nothing up.
-/

namespace Tape.Symbol

def stripDashes (s : String) : String := String.ofList (s.toList.filter fun c => c ≠ '-')

/-- Puts a dash before the last `quote` characters of a text of at least `least` characters.
A text with a dash, or with characters outside ASCII, only changes its letter case. -/
def dashBeforeLast (quote least : Nat) (s : String) : String :=
  let upper := Text.upper s
  let cs := upper.toList
  if cs.contains '-' || cs.length < least || cs.length ≤ quote || !cs.all Text.isAscii then upper
  else
    let split := cs.length - quote
    String.ofList (cs.take split ++ '-' :: cs.drop split)

end Tape.Symbol
