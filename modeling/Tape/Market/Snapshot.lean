import Tape.Market.Level
import Tape.Market.Venue
import Tape.Sorting

/-!
# Snapshots

A snapshot holds the best levels of a book, best first: bids fall and asks rise strictly in price.
Of two valid levels of one price the later is kept, and at most ten levels of a side remain.
-/

namespace Tape

structure Snapshot where
  venue : Venue
  symbol : String
  stamp : Nat
  bids : List (Level Float)
  asks : List (Level Float)
  deriving DecidableEq

namespace Snapshot

/-- How many levels of a side are kept. -/
def depthLimit : Nat := 10

/-- The valid levels by increasing price; those of one price stay in the order they came in. -/
def byPrice (levels : List (Level Float)) : List (Level Float) :=
  stableSort (fun a b => Binary64.rank a.price ≤ Binary64.rank b.price)
    (levels.filter Level.isValid)

/-- Puts a level after the others, or in the place of the last one if that has the same price. -/
def overwriteLast (kept : List (Level Float)) (level : Level Float) : List (Level Float) :=
  match kept.getLast? with
  | some last =>
      if Binary64.equal last.price level.price then kept.dropLast ++ [level] else kept ++ [level]
  | none => [level]

/-- Goes through levels that are in order of price and keeps the last one of each price. -/
def lastOfEach (levels : List (Level Float)) : List (Level Float) :=
  levels.foldl overwriteLast []

/-- The last valid level of each price, lowest price first. -/
def unique (levels : List (Level Float)) : List (Level Float) := lastOfEach (byPrice levels)

/-- The levels of one side as they are published, the best first. -/
def normalizeSide (levels : List (Level Float)) (descending : Bool) : List (Level Float) :=
  (if descending then (unique levels).reverse else unique levels).take depthLimit

def bestBids (levels : List (Level Float)) : List (Level Float) := normalizeSide levels true

def bestAsks (levels : List (Level Float)) : List (Level Float) := normalizeSide levels false

/-- The snapshot of levels in any order. -/
def ofLevels (venue : Venue) (symbol : String) (stamp : Nat) (bids asks : List (Level Float)) :
    Snapshot :=
  ⟨venue, symbol, stamp, bestBids bids, bestAsks asks⟩

def empty (venue : Venue) (symbol : String) (stamp : Nat) : Snapshot :=
  ⟨venue, symbol, stamp, [], []⟩

def bestBid? (s : Snapshot) : Option (Level Float) := s.bids.head?

def bestAsk? (s : Snapshot) : Option (Level Float) := s.asks.head?

def isEmpty (s : Snapshot) : Bool := s.bids.isEmpty && s.asks.isEmpty

def levelsJson (levels : List (Level Float)) : Json := .list (levels.map Level.json)

def json (s : Snapshot) : Json :=
  .record [("exchange", s.venue.json), ("symbol", .text s.symbol), ("timestamp_ns", .nat s.stamp),
    ("bids", levelsJson s.bids), ("asks", levelsJson s.asks)]

open Schema in
def fields [Document ν] : Record ν Snapshot :=
  Snapshot.mk <$> .required "exchange" Venue.read <*> .required "symbol" Document.text
    <*> .required "timestamp_ns" (Document.whole .bits64)
    <*> .required "bids" (readList Level.read) <*> .required "asks" (readList Level.read)

def read [Schema.Document ν] (v : ν) : Except Schema.Fault Snapshot :=
  fields.read "OrderBookSnapshot" v

end Snapshot

end Tape
