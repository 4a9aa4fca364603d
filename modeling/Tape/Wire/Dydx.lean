import Tape.Book.Store
import Tape.Market.Symbol
import Tape.Wire.Event

/-!
# dYdX

Books come as changes: the frame that confirms a subscription holds the whole book and replaces
what was held, later frames hold batches of changes. A batch is read as a whole before any of it
is applied.
-/

namespace Tape.Wire.Dydx

def venue : Venue := .dydx

/-- Markets are quoted in USD. -/
def marketName (symbol : String) : String :=
  let inUsd := Text.replaceFirst "USDT".toList "USD".toList (Text.upper symbol).toList
  Symbol.dashBeforeLast 3 6 (String.ofList inUsd)

def request (channel market : String) : Json :=
  .record [("batched", .flag true), ("channel", .text channel), ("id", .text market),
    ("type", .text "subscribe")]

def subscriptionEntries (symbols : List String) (trades books : Bool) : List Json :=
  symbols.flatMap fun symbol =>
    entries trades books (request "v4_trades" (marketName symbol))
      (request "v4_orderbook" (marketName symbol))

def subscription (symbols : List String) (trades books : Bool) : Json :=
  .list (subscriptionEntries symbols trades books)

structure TradePayload where
  price : Float
  size : Float
  side : String
  id : String

def TradePayload.fields : Schema.Record Json TradePayload :=
  TradePayload.mk <$> amountField "price" <*> amountField "size" <*> optionalTextField "side"
    <*> identifierField "id"

def TradePayload.read (v : Json) : Except Schema.Fault TradePayload := fields.read "DydxTrade" v

structure BookPayload where
  bids : List Json
  asks : List Json

def BookPayload.fields : Schema.Record Json BookPayload :=
  BookPayload.mk <$> optionalItemsField "bids" <*> optionalItemsField "asks"

def BookPayload.read (v : Json) : Except Schema.Fault BookPayload :=
  fields.read "DydxBookUpdate" v

def BookPayload.group (p : BookPayload) : ChangeGroup :=
  ⟨LevelChange.ofItems p.bids, LevelChange.ofItems p.asks⟩

def readGroup (v : Json) : Except FeedError ChangeGroup :=
  (payload venue "v4_orderbook" BookPayload.read v).map BookPayload.group

/-- The market that a frame names. -/
def marketOf (v : Json) : Except FeedError String :=
  match v.getText? "id" with
  | some id => .ok (Text.upper id)
  | none => .error (.schema venue "missing market id")

/-- The trades of a frame: of a record, or of the first of a list of records. -/
def tradesOf? : Json → Option (List Json)
  | .record members => (Json.find? "trades" members).bind Json.items?
  | .list (first :: _) => first.getItems? "trades"
  | _ => none

def decodeTrade (now : Nat) (symbol : String) (contents : Option Json) : Except FeedError Event :=
  match contents with
  | none => .error (.schema venue ("trade message for " ++ symbol ++ " missing contents"))
  | some contents =>
      match tradesOf? contents with
      | some (first :: _) => do
          let trade ← payload venue "v4_trades" TradePayload.read first
          return .trade ⟨venue, symbol, trade.price, trade.size,
            if trade.side = "BUY" then .buy else .sell, trade.id, now⟩
      | _ => .error (.schema venue ("no trades in contents for " ++ symbol))

/-- The groups of a batch; what is not a record in a list of them is left out. -/
def readGroups (symbol : String) : Json → Except FeedError (List ChangeGroup)
  | .record members => (readGroup (.record members)).map fun group => [group]
  | .list updates => (updates.filter Json.isRecord).mapM readGroup
  | _ => .error (.schema venue ("unsupported orderbook contents for " ++ symbol))

/-- The answer to a frame of changes, and the books after it, whether it is refused or not. -/
def decodeBook (now : Nat) (symbol : String) (contents : Option Json) (replaces : Bool)
    (store : BookStore) : Except FeedError Event × BookStore :=
  match contents with
  | none =>
      (.error (.schema venue ("orderbook message for " ++ symbol ++ " missing contents")), store)
  | some contents =>
      match readGroups symbol contents with
      | .error error => (.error error, store)
      | .ok groups =>
          let store := if replaces then store.reset symbol else store
          match store.merge venue symbol groups now with
          | (some book, store) => (.ok (.book book), store)
          | (none, store) => (.ok .unknown, store)

/-- Frames of these types have no market data when they have no contents. -/
def isControl (type : Option String) (contents : Option Json) : Bool :=
  type = some "connected" || type = some "unsubscribed" ||
    ((type = some "subscribed" || type = some "channel_batch_data") && contents.isNone)

def decode (now : Nat) (store : BookStore) (v : Json) : Except FeedError Event × BookStore :=
  let type := v.getText? "type"
  let contents := v.get? "contents"
  if isControl type contents then (.ok .heartbeat, store)
  else
    match v.getText? "channel" with
    | some "v4_trades" => ((marketOf v).bind fun symbol => decodeTrade now symbol contents, store)
    | some "v4_orderbook" =>
        match marketOf v with
        | .error error => (.error error, store)
        | .ok symbol => decodeBook now symbol contents (type = some "subscribed") store
    | _ => (.ok .unknown, store)

end Tape.Wire.Dydx
