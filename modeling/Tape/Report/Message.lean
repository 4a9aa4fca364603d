import Tape.Delta.Encoder
import Tape.Json.Printer
import Tape.Stats.Metrics

/-!
# Reports

A report is what is published of one trade or one book: the event, its number in the stream of its
symbol, and its metrics. Its text has the members in the order of the fields.
-/

namespace Tape

structure TradeReport where
  stamp : Nat
  symbol : String
  venue : Venue
  price : Float
  quantity : Float
  side : Side
  id : String
  sequence : Nat
  metrics : TradeMetrics Float
  deriving DecidableEq

namespace TradeReport

def ofTrade (t : Trade) (sequence : Nat) (metrics : TradeMetrics Float) : TradeReport :=
  ⟨t.stamp, t.symbol, t.venue, t.price, t.amount, t.side, t.id, sequence, metrics⟩

def json (r : TradeReport) : Json :=
  .record [("timestamp_ns", .nat r.stamp), ("symbol", .text r.symbol), ("exchange", r.venue.json),
    ("price", .real r.price), ("quantity", .real r.quantity), ("side", r.side.json),
    ("trade_id", .text r.id), ("sequence", .nat r.sequence), ("features", r.metrics.json)]

def text (r : TradeReport) : String := r.json.render

open Schema in
def fields [Document ν] : Record ν TradeReport :=
  TradeReport.mk <$> .required "timestamp_ns" (Document.whole .bits64)
    <*> .required "symbol" Document.text <*> .required "exchange" Venue.read
    <*> .required "price" Document.real <*> .required "quantity" Document.real
    <*> .required "side" Side.read <*> .required "trade_id" Document.text
    <*> .required "sequence" (Document.whole .bits64) <*> .required "features" TradeMetrics.read

def read [Schema.Document ν] (v : ν) : Except Schema.Fault TradeReport :=
  fields.read "TradeMessage" v

end TradeReport

structure BookReport where
  stamp : Nat
  symbol : String
  venue : Venue
  sequence : Nat
  kind : ReportKind
  bids : List (Level Float)
  asks : List (Level Float)
  metrics : BookMetrics Float
  deriving DecidableEq

namespace BookReport

def ofBook (b : Snapshot) (sequence : Nat) (update : BookUpdate) (metrics : BookMetrics Float) :
    BookReport :=
  ⟨b.stamp, b.symbol, b.venue, sequence, update.kind, update.bids, update.asks, metrics⟩

def json (r : BookReport) : Json :=
  .record [("timestamp_ns", .nat r.stamp), ("symbol", .text r.symbol), ("exchange", r.venue.json),
    ("sequence", .nat r.sequence), ("kind", r.kind.json), ("bids", Snapshot.levelsJson r.bids),
    ("asks", Snapshot.levelsJson r.asks), ("features", r.metrics.json)]

def text (r : BookReport) : String := r.json.render

open Schema in
def fields [Document ν] : Record ν BookReport :=
  BookReport.mk <$> .required "timestamp_ns" (Document.whole .bits64)
    <*> .required "symbol" Document.text <*> .required "exchange" Venue.read
    <*> .required "sequence" (Document.whole .bits64) <*> .required "kind" ReportKind.read
    <*> .required "bids" (readList Level.read) <*> .required "asks" (readList Level.read)
    <*> .required "features" BookMetrics.read

def read [Schema.Document ν] (v : ν) : Except Schema.Fault BookReport :=
  fields.read "BookMessage" v

end BookReport

end Tape
