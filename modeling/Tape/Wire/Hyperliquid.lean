import Tape.Market.Symbol
import Tape.Wire.Event

/-!
# Hyperliquid

Markets are named by their coin alone; every one is a perpetual quoted in USDC.
-/

namespace Tape.Wire.Hyperliquid

def venue : Venue := .hyperliquid

def symbolEnding : String := "-USDC-PERP"

def quotes : List (List Char) := ["USDC".toList, "USDT".toList, "USD".toList]

/-- The coin of a text without a dash: what stands before the first quote that ends it. -/
def coinOf (cs : List Char) : List Char :=
  ((quotes.filterMap fun quote => Text.before? quote cs).find? fun base => base ≠ []).getD cs

def marketName (symbol : String) : String :=
  let cs := (Text.upper symbol).toList
  String.ofList (if cs.contains '-' then cs.takeWhile (· ≠ '-') else coinOf cs)

def canonicalSymbol (coin : String) : String := Text.upper coin ++ symbolEnding

def request (kind coin : String) : Json :=
  .record [("method", .text "subscribe"),
    ("subscription", .record [("coin", .text coin), ("type", .text kind)])]

def subscriptionEntries (symbols : List String) (trades books : Bool) : List Json :=
  symbols.flatMap fun symbol =>
    entries trades books (request "trades" (marketName symbol))
      (request "l2Book" (marketName symbol))

def subscription (symbols : List String) (trades books : Bool) : Json :=
  .list (subscriptionEntries symbols trades books)

structure TradePayload where
  coin : String
  price : Float
  size : Float
  side : String
  id : String

def TradePayload.fields : Schema.Record Json TradePayload :=
  TradePayload.mk <$> textField "coin" <*> amountField "px" <*> amountField "sz"
    <*> optionalTextField "side" <*> identifierField "tid"

def TradePayload.read (v : Json) : Except Schema.Fault TradePayload :=
  fields.read "HyperliquidTrade" v

structure BookPayload where
  coin : String
  sides : List Json

def BookPayload.fields : Schema.Record Json BookPayload :=
  BookPayload.mk <$> textField "coin" <*> .required "levels" readItems

def BookPayload.read (v : Json) : Except Schema.Fault BookPayload :=
  fields.read "HyperliquidBook" v

def decodeTrade (now : Nat) (data : Json) : Except FeedError Event :=
  match data with
  | .list (first :: _) => do
      let trade ← payload venue "trades" TradePayload.read first
      return .trade ⟨venue, canonicalSymbol trade.coin, trade.price, trade.size,
        if trade.side = "A" then .sell else .buy, trade.id, now⟩
  | _ => .ok .unknown

def decodeBook (now : Nat) (data : Json) : Except FeedError Event :=
  if !data.isRecord then .error (.schema venue "l2Book data must be an object")
  else do
    let book ← payload venue "l2Book" BookPayload.read data
    match book.sides with
    | bids :: asks :: _ =>
        return .book (.ofLevels venue (canonicalSymbol book.coin) now
          (levels (bids.items?.getD [])) (levels (asks.items?.getD [])))
    | _ => .error (.schema venue "l2Book levels must hold bids and asks")

def decode (now : Nat) (v : Json) : Except FeedError Event :=
  match v.getText? "channel" with
  | none => .ok .unknown
  | some channel =>
      if channel = "subscriptionResponse" || channel = "pong" then .ok .heartbeat
      else
        match v.get? "data" with
        | none => .ok .unknown
        | some data =>
            if channel = "trades" then decodeTrade now data
            else if channel = "l2Book" then decodeBook now data
            else .ok .unknown

end Tape.Wire.Hyperliquid
