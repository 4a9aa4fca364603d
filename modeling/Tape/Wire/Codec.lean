import Tape.Wire.Binance
import Tape.Wire.Bybit
import Tape.Wire.Dydx
import Tape.Wire.Hyperliquid
import Tape.Wire.Uniswap

/-!
# Codecs

Every venue has its own names of markets, its own way to be asked for them, and its own frames. Only
the venue that sends changes reads or writes the store of books.
-/

namespace Tape.Venue

open Wire

/-- The name that the venue has for the market of a configured symbol. -/
def marketName : Venue → String → String
  | bybit => Bybit.marketName
  | binance => Binance.marketName
  | dydx => Dydx.marketName
  | hyperliquid => Hyperliquid.marketName
  | uniswap => Uniswap.marketName

/-- The request that subscribes to the trades and books of symbols. -/
def subscription (venue : Venue) (symbols : List String) (trades books : Bool) : Json :=
  match venue with
  | bybit => Bybit.subscription symbols trades books
  | binance => Binance.subscription symbols trades books
  | dydx => Dydx.subscription symbols trades books
  | hyperliquid => Hyperliquid.subscription symbols trades books
  | uniswap => Uniswap.subscription symbols trades books

/-- The answer to a frame that is JSON, and the books after it. -/
def decodeJson (venue : Venue) (now : Nat) (store : BookStore) (v : Json) :
    Except FeedError Event × BookStore :=
  match venue with
  | bybit => (Bybit.decode now v, store)
  | binance => (Binance.decode now v, store)
  | dydx => Dydx.decode now store v
  | hyperliquid => (Hyperliquid.decode now v, store)
  | uniswap => (Uniswap.decode now v, store)

/-- The event of a frame received at a time, and the books after it. -/
def decode (venue : Venue) (now : Nat) (store : BookStore) (frame : String) : Event × BookStore :=
  match Json.read frame with
  | .error _ => (.unknown, store)
  | .ok v =>
      let (answer, store) := venue.decodeJson now store v
      (.ofAnswer answer, store)

end Tape.Venue
