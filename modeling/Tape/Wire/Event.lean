import Tape.Book.Change
import Tape.Market.Snapshot
import Tape.Market.Trade

/-!
# What a frame means

A frame is a trade, a book, a sign of life, something that needs no action, or a frame of a known
kind whose content cannot be used.
-/

namespace Tape

inductive FrameClass where
  | trade
  | book
  | heartbeat
  | unknown
  | error
  deriving DecidableEq, Repr

namespace FrameClass

def all : List FrameClass := [trade, book, heartbeat, unknown, error]

def name : FrameClass → String
  | trade => "TRADE"
  | book => "BOOK"
  | heartbeat => "HEARTBEAT"
  | unknown => "UNKNOWN"
  | error => "ERROR"

def json (c : FrameClass) : Json := .text c.name

def read [Schema.Document ν] (v : ν) : Except Schema.Fault FrameClass := do
  let chosen ← Schema.Document.choice (all.map name) v
  return (all.find? fun c => c.name = chosen).getD unknown

end FrameClass

inductive Event where
  | trade (trade : Trade)
  | book (book : Snapshot)
  | heartbeat
  | unknown
  | rejected (error : FeedError)
  deriving DecidableEq

def Event.frameClass : Event → FrameClass
  | trade _ => .trade
  | book _ => .book
  | heartbeat => .heartbeat
  | unknown => .unknown
  | rejected _ => .error

/-- What the answer of a decoder means. -/
def Event.ofAnswer : Except FeedError Event → Event
  | .ok event => event
  | .error error => rejected error

namespace Wire

/-- Reads the content of a frame; a wrong shape is an error that names the content. -/
def payload (venue : Venue) (what : String) (read : Json → Except Schema.Fault α) (v : Json) :
    Except FeedError α :=
  (read v).mapError fun fault => .schema venue (what ++ ": " ++ fault.message)

/-- A field for an amount, which any value can fill. -/
def amountField (name : String) : Schema.Record Json Float :=
  .required name fun v => .ok (amount v)

def identifierField (name : String) : Schema.Record Json String :=
  .optional name "" fun v => .ok (identifier v)

def textField (name : String) : Schema.Record Json String :=
  .required name Schema.Document.text

def optionalTextField (name : String) : Schema.Record Json String :=
  .optional name "" Schema.Document.text

/-- Reads a list and keeps its items as they are. -/
def readItems (v : Json) : Except Schema.Fault (List Json) :=
  (Schema.Document.items v).map (·.1)

def optionalItemsField (name : String) : Schema.Record Json (List Json) :=
  .optional name [] readItems

/-- The levels of a written side as they are published. -/
def levels (items : List Json) : List (Level Float) :=
  (LevelChange.ofItems items).map LevelChange.level

/-- The two entries that a subscription can hold for one symbol. -/
def entries (trades books : Bool) (trade book : α) : List α :=
  (if trades then [trade] else []) ++ (if books then [book] else [])

end Wire

end Tape
