import Tape.Market.Symbol
import Tape.Wire.Event

/-!
# Binance

The kind of an event stands in the frame itself, beside its content. A trade tells whether the
buyer's order was resting, in which case the seller was the aggressor.
-/

namespace Tape.Wire.Binance

def venue : Venue := .binance

def marketName (symbol : String) : String := Text.lower (Symbol.stripDashes symbol)

def canonicalSymbol (market : String) : String := Symbol.dashBeforeLast 4 6 market

/-- A request for streams under a method and a number. -/
def request (method : String) (streams : List Json) (id : Nat) : Json :=
  .record [("id", .nat id), ("method", .text method), ("params", .list streams)]

def subscriptionEntries (symbols : List String) (trades books : Bool) : List Json :=
  symbols.flatMap fun symbol =>
    entries trades books (.text (marketName symbol ++ "@trade"))
      (.text (marketName symbol ++ "@depth10"))

def subscription (symbols : List String) (trades books : Bool) : Json :=
  request "SUBSCRIBE" (subscriptionEntries symbols trades books) 1

structure TradePayload where
  market : String
  price : Float
  quantity : Float
  buyerRested : Bool
  id : String

def TradePayload.fields : Schema.Record Json TradePayload :=
  TradePayload.mk <$> textField "s" <*> amountField "p" <*> amountField "q"
    <*> .optional "m" false Schema.Document.flag <*> identifierField "t"

def TradePayload.read (v : Json) : Except Schema.Fault TradePayload :=
  fields.read "BinanceTradeEvent" v

structure BookPayload where
  market : String
  bids : List Json
  asks : List Json

def BookPayload.fields : Schema.Record Json BookPayload :=
  BookPayload.mk <$> textField "s" <*> optionalItemsField "b" <*> optionalItemsField "a"

def BookPayload.read (v : Json) : Except Schema.Fault BookPayload :=
  fields.read "BinanceDepthEvent" v

def decodeTrade (now : Nat) (v : Json) : Except FeedError Event := do
  let trade ← payload venue "trade" TradePayload.read v
  return .trade ⟨venue, canonicalSymbol trade.market, trade.price, trade.quantity,
    if trade.buyerRested then .sell else .buy, trade.id, now⟩

def decodeBook (now : Nat) (v : Json) : Except FeedError Event := do
  let book ← payload venue "depthUpdate" BookPayload.read v
  return .book (.ofLevels venue (canonicalSymbol book.market) now
    (levels book.bids) (levels book.asks))

/-- Whether the frame answers a request. -/
def isAnswer (v : Json) : Bool :=
  match v.get? "result" with
  | some .null => true
  | _ => false

def decode (now : Nat) (v : Json) : Except FeedError Event :=
  if isAnswer v then .ok .heartbeat
  else
    match v.getText? "e" with
    | some "trade" => decodeTrade now v
    | some "depthUpdate" => decodeBook now v
    | _ => .ok .unknown

end Tape.Wire.Binance
