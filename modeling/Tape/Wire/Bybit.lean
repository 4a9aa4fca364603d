import Tape.Market.Symbol
import Tape.Wire.Event

/-!
# Bybit

Trades and books come under a topic. A trade message holds a list of trades, of which the first is
used; a book message holds a whole book.
-/

namespace Tape.Wire.Bybit

def venue : Venue := .bybit

def marketName (symbol : String) : String := Symbol.stripDashes symbol

def canonicalSymbol (market : String) : String := Symbol.dashBeforeLast 4 6 market

def subscriptionEntries (symbols : List String) (trades books : Bool) : List Json :=
  symbols.flatMap fun symbol =>
    entries trades books (.text ("publicTrade." ++ marketName symbol))
      (.text ("orderbook.10." ++ marketName symbol))

def subscription (symbols : List String) (trades books : Bool) : Json :=
  .record [("args", .list (subscriptionEntries symbols trades books)), ("op", .text "subscribe")]

structure TradePayload where
  market : String
  price : Float
  size : Float
  side : String
  id : String

def TradePayload.fields : Schema.Record Json TradePayload :=
  TradePayload.mk <$> textField "s" <*> amountField "p" <*> amountField "v"
    <*> optionalTextField "S" <*> identifierField "i"

def TradePayload.read (v : Json) : Except Schema.Fault TradePayload := fields.read "BybitTrade" v

structure BookPayload where
  market : String
  bids : List Json
  asks : List Json

def BookPayload.fields : Schema.Record Json BookPayload :=
  BookPayload.mk <$> textField "s" <*> optionalItemsField "b" <*> optionalItemsField "a"

def BookPayload.read (v : Json) : Except Schema.Fault BookPayload := fields.read "BybitBook" v

def decodeTrade (now : Nat) (data : Option Json) : Except FeedError Event :=
  match data.bind Json.items? with
  | none => .error (.schema venue "publicTrade data must be an array")
  | some [] => .ok .unknown
  | some (first :: _) => do
      let trade ← payload venue "publicTrade" TradePayload.read first
      return .trade ⟨venue, canonicalSymbol trade.market, trade.price, trade.size,
        if trade.side = "Buy" then .buy else .sell, trade.id, now⟩

def decodeBook (now : Nat) (data : Option Json) : Except FeedError Event :=
  match data.filter Json.isRecord with
  | none => .error (.schema venue "orderbook data must be an object")
  | some data => do
      let book ← payload venue "orderbook" BookPayload.read data
      return .book (.ofLevels venue (canonicalSymbol book.market) now
        (levels book.bids) (levels book.asks))

def isControl (v : Json) : Bool :=
  v.getText? "op" = some "ping" || v.getText? "op" = some "pong" ||
    match v.get? "success" with
    | some (.flag _) => true
    | _ => false

def decode (now : Nat) (v : Json) : Except FeedError Event :=
  if isControl v then .ok .heartbeat
  else
    match v.getText? "topic" with
    | none => .ok .unknown
    | some topic =>
        if Text.holds "publicTrade".toList topic.toList then decodeTrade now (v.get? "data")
        else if Text.holds "orderbook".toList topic.toList then decodeBook now (v.get? "data")
        else .ok .unknown

end Tape.Wire.Bybit
