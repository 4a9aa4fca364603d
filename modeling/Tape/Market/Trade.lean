import Tape.Market.Venue

/-!
# Trades

A trade as every venue's frames are brought to: the side is that of the aggressor, and the stamp is
the local time of receipt in nanoseconds.
-/

namespace Tape

inductive Side where
  | buy
  | sell
  deriving DecidableEq, Repr

namespace Side

def name : Side → String
  | buy => "buy"
  | sell => "sell"

def json (s : Side) : Json := .text s.name

def read [Schema.Document ν] (v : ν) : Except Schema.Fault Side := do
  let chosen ← Schema.Document.choice [buy.name, sell.name] v
  return if chosen = sell.name then sell else buy

end Side

structure Trade where
  venue : Venue
  symbol : String
  price : Float
  amount : Float
  side : Side
  id : String
  stamp : Nat
  deriving DecidableEq

namespace Trade

def notional (t : Trade) : Float := t.price * t.amount

def json (t : Trade) : Json :=
  .record [("exchange", t.venue.json), ("symbol", .text t.symbol), ("price", .real t.price),
    ("amount", .real t.amount), ("side", t.side.json), ("trade_id", .text t.id),
    ("timestamp_ns", .nat t.stamp)]

open Schema in
def fields [Document ν] : Record ν Trade :=
  Trade.mk <$> .required "exchange" Venue.read <*> .required "symbol" Document.text
    <*> .required "price" Document.real <*> .required "amount" Document.real
    <*> .required "side" Side.read <*> .required "trade_id" Document.text
    <*> .required "timestamp_ns" (Document.whole .bits64)

def read [Schema.Document ν] (v : ν) : Except Schema.Fault Trade :=
  fields.read "CanonicalTrade" v

end Trade

end Tape
