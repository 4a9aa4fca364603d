import Tape.Wire.Event

/-!
# Uniswap

Events are logs of one contract. What a log holds is not decoded: a swap becomes a trade without
price or amount, a change of liquidity becomes an empty book, both of one fixed pair.
-/

namespace Tape.Wire.Uniswap

def venue : Venue := .uniswap

def contractAddress : String := "0x0000000000000000000000000000000000000000"

def swapTopic : String := "c42079f94a6350d7e6235f29174924f928cc2ac818eb64fed8004e115fbcca67"

def liquidityTopic : String := "3067048beee31b25b2f1681f88dac838c8bba36af25bfb2b7cf7473a5847e35f"

def symbol : String := "WETH-USDC"

def marketName (symbol : String) : String := Text.upper symbol

def request (id : Nat) (topic : String) : Json :=
  .record [("id", .nat id), ("jsonrpc", .text "2.0"), ("method", .text "eth_subscribe"),
    ("params", .list [.text "logs", .record [("address", .text contractAddress),
      ("topics", .list [.text ("0x" ++ topic)])]])]

def subscriptionEntries (symbols : List String) (trades books : Bool) : List Json :=
  symbols.flatMap fun _ =>
    entries trades books (request 1 swapTopic) (request 2 liquidityTopic)

def subscription (symbols : List String) (trades books : Bool) : Json :=
  .list (subscriptionEntries symbols trades books)

structure SwapPayload where
  data : String
  transaction : String

def SwapPayload.fields : Schema.Record Json SwapPayload :=
  SwapPayload.mk <$> textField "data" <*> optionalTextField "transactionHash"

def SwapPayload.read (v : Json) : Except Schema.Fault SwapPayload := fields.read "SwapLog" v

def names (topic written : String) : Bool := Text.holds topic.toList (Text.lower written).toList

/-- The event of a log, if its topic is one that is followed. -/
def decodeLog (now : Nat) (log : Json) : Except FeedError (Option Event) :=
  match log.getItems? "topics" with
  | none | some [] => .ok (some .unknown)
  | some (.text topic :: _) =>
      if names swapTopic topic then do
        let swap ← payload venue "Swap log" SwapPayload.read log
        return some (.trade ⟨venue, symbol, 0, 0, .buy, swap.transaction, now⟩)
      else if names liquidityTopic topic then .ok (some (.book (.empty venue symbol now)))
      else .ok none
  | some (_ :: _) => .error (.schema venue "log topic must be a string")

/-- The log of a notification, when it carries one. -/
def logOf? (v : Json) : Option Json :=
  ((v.get? "params").filter Json.isRecord).bind fun params =>
    (params.get? "result").filter Json.isRecord

/-- A frame whose result is a text confirms a subscription. -/
def decodeAnswer (v : Json) : Event :=
  if (v.getText? "result").isSome then .heartbeat else .unknown

def decode (now : Nat) (v : Json) : Except FeedError Event :=
  if v.getText? "method" = some "eth_subscription" then
    match logOf? v with
    | none => .ok .heartbeat
    | some log => do
        match ← decodeLog now log with
        | some event => return event
        | none => return decodeAnswer v
  else .ok (decodeAnswer v)

end Tape.Wire.Uniswap
