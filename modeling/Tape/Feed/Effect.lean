import Tape.Feed.Error
import Tape.Report.Message

/-!
# What a feed does

A feed calls its source, tells its listener, and publishes reports. What it does is a list of
effects in order; four counters go along with it.
-/

namespace Tape

inductive ReportStream where
  | trades
  | books
  deriving DecidableEq, Repr

namespace ReportStream

def name : ReportStream → String
  | trades => "trades"
  | books => "books"

/-- The text under which the reports of a stream and a symbol are counted. -/
def key (venue : Venue) (stream : ReportStream) (symbol : String) : String :=
  venue.name ++ (":" ++ (stream.name ++ (":" ++ symbol)))

end ReportStream

inductive Effect where
  | connect
  | send (text : String)
  | reconnect
  | close
  /-- The listener is told of a trade. -/
  | trade (trade : Trade)
  | book (book : Snapshot)
  | error (message : String)
  | publishTrade (report : TradeReport)
  | publishBook (report : BookReport)
  deriving DecidableEq

/-- Whether an effect is a call of the source. -/
def Effect.isCall : Effect → Bool
  | connect | send _ | reconnect | close => true
  | _ => false

/-- Runs of 2^64 events and more, at which a counter would begin anew, are left out. -/
structure Counters where
  trades : Nat
  books : Nat
  /-- How many reports were handed to the bus. -/
  published : Nat
  errors : Nat
  deriving DecidableEq, Repr

namespace Counters

def zero : Counters := ⟨0, 0, 0, 0⟩

def oneTrade : Counters := ⟨1, 0, 0, 0⟩

def oneBook : Counters := ⟨0, 1, 0, 0⟩

def onePublished : Counters := ⟨0, 0, 1, 0⟩

def oneError : Counters := ⟨0, 0, 0, 1⟩

instance : Add Counters where
  add a b :=
    ⟨a.trades + b.trades, a.books + b.books, a.published + b.published, a.errors + b.errors⟩

end Counters

end Tape
