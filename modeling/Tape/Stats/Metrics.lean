import Tape.Market.Snapshot
import Tape.Market.Trade
import Tape.Stats.Window

/-!
# Metrics of books and trades

The metrics of the best levels need both sides: without them these metrics are zero and the window
does not move. Depth sums cover the levels that are published.
-/

namespace Tape

structure BookMetrics (α : Type) where
  midpoint : α
  relativeSpread : α
  breadth : α
  imbalance : α
  bidDepth : α
  askDepth : α
  depth : α
  volatility : α
  meanFlow : α
  window : Nat
  deriving DecidableEq

namespace BookMetrics

variable {α : Type} [Scalar α]

def notional (levels : List (Level α)) : α :=
  Scalar.sum (levels.map fun level => level.price * level.quantity)

/-- A quotient whose divisor is above zero, and zero otherwise. -/
def ratio (x y : α) : α := if Scalar.isPositive y then x / y else Scalar.zero

def midpointOf (bid ask : Level α) : α := (bid.price + ask.price) / Scalar.ofCount 2

/-- The metrics of a book, whose first `depth` levels of a side are published, and the window
after it. -/
def compute (bids asks : List (Level α)) (depth : Nat) (w : Window α) :
    BookMetrics α × Window α :=
  let bidDepth := notional (bids.take depth)
  let askDepth := notional (asks.take depth)
  let sided (midpoint relativeSpread breadth imbalance : α) (w : Window α) :
      BookMetrics α × Window α :=
    (⟨midpoint, relativeSpread, breadth, imbalance, bidDepth, askDepth, bidDepth + askDepth,
      w.volatility, w.meanFlow, w.capacity⟩, w)
  match bids, asks with
  | bid :: _, ask :: _ =>
      let midpoint := midpointOf bid ask
      sided midpoint (ratio (ask.price - bid.price) midpoint)
        (bid.price * bid.quantity + ask.price * ask.quantity)
        (ratio (bid.quantity - ask.quantity) (bid.quantity + ask.quantity))
        ((w.push midpoint).pushSizes bid.quantity ask.quantity)
  | _, _ => sided Scalar.zero Scalar.zero Scalar.zero Scalar.zero w

def json (m : BookMetrics Float) : Json :=
  .record [("midpoint", .real m.midpoint), ("relative_spread", .real m.relativeSpread),
    ("breadth", .real m.breadth), ("imbalance_lvl1", .real m.imbalance),
    ("bid_depth_n", .real m.bidDepth), ("ask_depth_n", .real m.askDepth),
    ("depth_n", .real m.depth), ("volatility_mid", .real m.volatility),
    ("ofi_rolling", .real m.meanFlow), ("window_size", .nat m.window)]

open Schema in
def fields [Document ν] : Record ν (BookMetrics Float) :=
  BookMetrics.mk <$> .required "midpoint" Document.real
    <*> .required "relative_spread" Document.real <*> .required "breadth" Document.real
    <*> .required "imbalance_lvl1" Document.real <*> .required "bid_depth_n" Document.real
    <*> .required "ask_depth_n" Document.real <*> .required "depth_n" Document.real
    <*> .required "volatility_mid" Document.real <*> .required "ofi_rolling" Document.real
    <*> .required "window_size" (Document.whole .size)

def read [Schema.Document ν] (v : ν) : Except Schema.Fault (BookMetrics Float) :=
  fields.read "BookFeatures" v

end BookMetrics

structure TradeMetrics (α : Type) where
  price : α
  volume : α
  volatility : α
  window : Nat
  deriving DecidableEq

namespace TradeMetrics

variable {α : Type} [Scalar α]

def compute (price amount : α) (w : Window α) : TradeMetrics α × Window α :=
  let w := w.push price
  (⟨price, price * amount, w.volatility, w.capacity⟩, w)

def json (m : TradeMetrics Float) : Json :=
  .record [("transaction_price", .real m.price), ("trading_volume", .real m.volume),
    ("volatility_transaction_price", .real m.volatility), ("window_size", .nat m.window)]

open Schema in
def fields [Document ν] : Record ν (TradeMetrics Float) :=
  TradeMetrics.mk <$> .required "transaction_price" Document.real
    <*> .required "trading_volume" Document.real
    <*> .required "volatility_transaction_price" Document.real
    <*> .required "window_size" (Document.whole .size)

def read [Schema.Document ν] (v : ν) : Except Schema.Fault (TradeMetrics Float) :=
  fields.read "TradeFeatures" v

end TradeMetrics

end Tape
