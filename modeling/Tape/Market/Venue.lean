import Tape.Text.Basic
import Tape.Schema.Record

/-!
# Venues

The closed set of sources of market data. Each has one name in configuration, which is also its
name in everything that is published; only one has a second spelling.
-/

namespace Tape

inductive Venue where
  | bybit
  | binance
  | dydx
  | hyperliquid
  | uniswap
  deriving DecidableEq, Repr, Inhabited

namespace Venue

def all : List Venue := [bybit, binance, dydx, hyperliquid, uniswap]

def name : Venue → String
  | bybit => "bybit"
  | binance => "binance"
  | dydx => "dydx"
  | hyperliquid => "hyperliquid"
  | uniswap => "uniswapv4"

/-- The venue of exactly this name. -/
def ofExactName? (s : String) : Option Venue := all.find? fun v => v.name = s

theorem ofExactName?_name (v : Venue) : ofExactName? v.name = some v := by
  cases v <;> decide

/-- The venue that a configured name means; letter case and blanks around it do not matter. -/
def ofName? (s : String) : Option Venue :=
  let plain := Text.lower (String.ofList (Text.trim s.toList))
  if plain = "uniswap_v4" then some uniswap else ofExactName? plain

/-- Whether the venue sends changes of its books instead of whole books. -/
def sendsChanges : Venue → Bool
  | dydx => true
  | _ => false

/-- Whether the venue settles on a chain. -/
def isOnChain : Venue → Bool
  | uniswap => true
  | _ => false

/-- Where the venue is reached when nothing else is configured. -/
def endpoint : Venue → String
  | bybit => "wss://stream.bybit.com:443/v5/public/spot"
  | binance => "wss://stream.binance.com:9443/ws"
  | dydx => "wss://indexer.dydx.trade:443/v4/ws"
  | hyperliquid => "wss://api.hyperliquid.xyz/ws"
  | uniswap => "wss://ethereum-rpc.publicnode.com"

def json (v : Venue) : Json := .text v.name

def read [Schema.Document ν] (v : ν) : Except Schema.Fault Venue := do
  let chosen ← Schema.Document.choice (all.map name) v
  return (ofExactName? chosen).getD bybit

end Venue

end Tape
