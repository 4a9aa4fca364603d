import Tape.Market.Venue
import Tape.Word

/-!
# Link policies

A policy says where a link leads, how long it waits, and how often it is tried again. The waiting
time doubles from attempt to attempt, six times at most, and never exceeds a bound. All times are in
milliseconds.
-/

namespace Tape

structure LinkPolicy where
  url : String
  connectTimeout : Nat
  messageTimeout : Nat
  baseWait : Nat
  maxWait : Nat
  attempts : Nat
  deriving DecidableEq, Repr

namespace LinkPolicy

def default : LinkPolicy := ⟨"", 10000, 30000, 1000, 30000, 10⟩

/-- The policy of a feed: its delay is the first wait, and the bound is never below it. -/
def ofFeed (url : String) (attempts delay : Nat) : LinkPolicy :=
  { default with
    url := url
    baseWait := delay
    maxWait := max default.maxWait delay
    attempts := attempts }

/-- Waits are counted in 64 bits; a product beyond them counts as the largest. -/
def longestWait : Nat := Word.bound64 - 1

/-- How often the first wait was doubled before an attempt, counted from one. -/
def doublings (attempt : Nat) : Nat := min (attempt - 1) 6

/-- The wait before an attempt, counted from one. -/
def wait (p : LinkPolicy) (attempt : Nat) : Nat :=
  min (min (p.baseWait * Nat.pow 2 (doublings attempt)) longestWait) p.maxWait

theorem wait_le_maxWait (p : LinkPolicy) (attempt : Nat) : p.wait attempt ≤ p.maxWait :=
  Nat.min_le_right _ _

end LinkPolicy

end Tape
