import Tape.Proofs.Market.Dashes
import Tape.Proofs.Wire.Agreement
import Tape.Proofs.Wire.Shapes

/-!
# Configured symbols in events

The market in a frame is the venue's own name for it, and what is published is a symbol that is made
from that name alone. For the venues that leave out the dash of a symbol the one that was configured
comes back, as long as its quote has four characters and its base is not a single one.
-/

namespace Tape.Venue

open Wire

/-! ## Markets in frames -/

/-- The symbol that is published for a market; the logs of one pool are of one symbol. -/
def canonicalSymbol (venue : Venue) (market : String) : String :=
  match venue with
  | bybit => Bybit.canonicalSymbol market
  | binance => Binance.canonicalSymbol market
  | dydx => Text.upper market
  | hyperliquid => Hyperliquid.canonicalSymbol market
  | uniswap => Uniswap.symbol

/-- The market as a frame has it, if it names one. -/
def marketIn? (venue : Venue) (v : Json) : Option String :=
  match venue with
  | bybit => ((v.get? "data").bind subject?).bind (nameIn? "s")
  | binance => nameIn? "s" v
  | dydx => v.getText? "id"
  | hyperliquid => ((v.get? "data").bind subject?).bind (nameIn? "coin")
  | uniswap => none

def marketOf? (venue : Venue) (frame : String) : Option String :=
  (Json.read frame).toOption.bind venue.marketIn?

theorem symbolIn?_of_marketIn? {venue : Venue} {v : Json} {market : String}
    (named : venue.marketIn? v = some market) :
    venue.symbolIn? v = some (venue.canonicalSymbol market) := by
  cases venue with
  | bybit => exact congrArg (Option.map Bybit.canonicalSymbol) named
  | binance => exact congrArg (Option.map Binance.canonicalSymbol) named
  | dydx => exact congrArg (Option.map Text.upper) named
  | hyperliquid => exact congrArg (Option.map Hyperliquid.canonicalSymbol) named
  | uniswap => cases named

/-- An event is about the symbol of the market that its frame names. -/
theorem symbol_of_marketOf? {venue : Venue} {frame market : String}
    (named : venue.marketOf? frame = some market) {now : Nat} {store : BookStore} {symbol : String}
    (about : (venue.decode now store frame).1.symbol? = some symbol) :
    symbol = venue.canonicalSymbol market := by
  have known := symbolOf?_of_decode about
  rw [symbolOf?] at known
  rw [marketOf?] at named
  cases read : Json.read frame with
  | error flaw =>
      rw [read] at named
      cases named
  | ok v =>
      rw [read] at known named
      have same := (symbolIn?_of_marketIn? named).symm.trans known
      exact (Option.some.inj same).symm

/-- A frame that its venue makes an event of a market from: a trade whose element fits, or a whole
book. -/
inductive HoldsEvent (venue : Venue) (frame : String) : Prop where
  | trade {shape : PayloadShape} {v element : Json} {price size : Float}
      (shaped : venue.payloadShape? = some shape) (json : Json.read frame = .ok v)
      (kind : venue.hasTrades v = true) (held : venue.tradeElement? v = some element)
      (fits : shape.Fits element price size) (named : shape.NamedBy v)
  | book {l : ChangeGroup} (carried : venue.wholeLevels? frame = some l)

theorem exists_symbol_of_holdsEvent {venue : Venue} {frame : String}
    (holds : venue.HoldsEvent frame) (now : Nat) (store : BookStore) :
    ∃ symbol, (venue.decode now store frame).1.symbol? = some symbol := by
  cases holds with
  | trade shaped json kind held fits named =>
      obtain ⟨t, decoded, _, _⟩ := decode_of_fits shaped json kind held fits named now store
      exact ⟨t.symbol, by rw [decoded]; rfl⟩
  | book carried =>
      obtain ⟨symbol, decoded⟩ := decode_of_wholeLevels? carried now store
      exact ⟨symbol, by rw [decoded]; rfl⟩

/-! ## Venues that leave out dashes -/

section Dashless

variable {venue : Venue} (dashless : venue = bybit ∨ venue = binance) {base quote : String}
  (plainBase : Symbol.isPlain base = true) (plainQuote : Symbol.isPlain quote = true)
include dashless plainBase plainQuote

theorem upper_marketName_pair :
    Text.upper (venue.marketName (base ++ "-" ++ quote)) = base ++ quote := by
  have plain := Symbol.isPlain_append plainBase plainQuote
  have stripped := Symbol.stripDashes_pair plainBase plainQuote
  rcases dashless with rfl | rfl
  · show Text.upper (Symbol.stripDashes _) = _
    rw [stripped, Symbol.upper_of_isPlain plain]
  · show Text.upper (Text.lower (Symbol.stripDashes _)) = _
    rw [stripped, Text.upper_lower, Symbol.upper_of_isPlain plain]

/-- The dash comes back unless the base is a single character. -/
theorem canonicalSymbol_pair (nonempty : base ≠ "") (four : quote.length = 4) :
    venue.canonicalSymbol (base ++ quote) =
      if base.length = 1 then base ++ quote else base ++ "-" ++ quote := by
  have same : venue.canonicalSymbol (base ++ quote) =
      Symbol.dashBeforeLast quote.length 6 (base ++ quote) := by
    rw [four]
    rcases dashless with rfl | rfl <;> rfl
  have size : (base ++ quote).length = base.length + 4 := by
    rw [String.length_append, four]
  have begun : base.length ≠ 0 := fun none => nonempty (String.length_eq_zero_iff.1 none)
  rw [same]
  split
  next single =>
    have plain := Symbol.isPlain_append plainBase plainQuote
    rw [Symbol.dashBeforeLast_of_short (by omega), Symbol.upper_of_isPlain plain]
  next => exact Symbol.dashBeforeLast_append plainBase plainQuote nonempty (by omega)

end Dashless

/-- A trade or a book of a market that goes by the venue's name of a configured symbol, in upper
case, is about that symbol. With a base of one character the symbol has no dash. -/
theorem configured_symbol_comes_back {venue : Venue} (dashless : venue = bybit ∨ venue = binance)
    {base quote : String} (plainBase : Symbol.isPlain base = true) (nonempty : base ≠ "")
    (plainQuote : Symbol.isPlain quote = true) (four : quote.length = 4) {frame : String}
    (named : venue.marketOf? frame =
      some (Text.upper (venue.marketName (base ++ "-" ++ quote)))) (now : Nat)
    (store : BookStore) :
    let shown := if base.length = 1 then base ++ quote else base ++ "-" ++ quote
    (∀ symbol, (venue.decode now store frame).1.symbol? = some symbol → symbol = shown) ∧
      (venue.HoldsEvent frame → (venue.decode now store frame).1.symbol? = some shown) := by
  intro shown
  rw [upper_marketName_pair dashless plainBase plainQuote] at named
  have same := canonicalSymbol_pair dashless plainBase plainQuote nonempty four
  have about : ∀ symbol, (venue.decode now store frame).1.symbol? = some symbol →
      symbol = shown := fun symbol held => (symbol_of_marketOf? named held).trans same
  refine ⟨about, fun holds => ?_⟩
  obtain ⟨symbol, held⟩ := exists_symbol_of_holdsEvent holds now store
  rw [held, about symbol held]

/-- A trade of one venue and a book of another. -/
theorem configured_symbol_comes_back_of_btc_usdt :
    let traded := "\x7b\x22topic\x22:\x22publicTrade.BTCUSDT\x22,\x22data\x22:[\x7b" ++
      "\x22s\x22:\x22BTCUSDT\x22,\x22p\x22:\x2250000.1\x22,\x22v\x22:\x220.01\x22\x7d]\x7d"
    let booked := "\x7b\x22e\x22:\x22depthUpdate\x22,\x22s\x22:\x22BTCUSDT\x22,\x22b\x22:[[" ++
      "\x2299\x22,\x221\x22]],\x22a\x22:[]\x7d"
    (bybit.decode 1 .new traded).1.symbol? = some "BTC-USDT" ∧
      (binance.decode 1 .new booked).1.symbol? = some "BTC-USDT" := by
  intro traded booked
  have plainBase : Symbol.isPlain "BTC" = true := by decide
  have plainQuote : Symbol.isPlain "USDT" = true := by decide
  have decoded : (bybit.decode 1 .new traded).1 =
      .trade ⟨.bybit, "BTC-USDT", 50000.1, 0.01, .sell, "", 1⟩ := by decide +kernel
  obtain ⟨v, element, json, kind, held, fits, byFrame, _⟩ := fits_of_decode rfl decoded
  have trade : bybit.HoldsEvent traded := .trade rfl json kind held fits byFrame
  have book : binance.HoldsEvent booked :=
    .book (l := ⟨[⟨⟨false, 99, 0, by decide, by decide⟩, 1⟩], []⟩) (by decide +kernel)
  exact ⟨(configured_symbol_comes_back (.inl rfl) plainBase (by decide) plainQuote rfl
      (by decide +kernel) 1 .new).2 trade,
    (configured_symbol_comes_back (.inr rfl) plainBase (by decide) plainQuote rfl
      (by decide +kernel) 1 .new).2 book⟩

/-- The name of a market with a base of one character is too short for a dash. -/
theorem no_dash_after_single_character :
    let frame := "\x7b\x22topic\x22:\x22publicTrade.TUSDT\x22,\x22data\x22:[\x7b" ++
      "\x22s\x22:\x22TUSDT\x22,\x22p\x22:\x220.02\x22,\x22v\x22:\x225\x22,\x22S\x22:\x22Buy\x22," ++
      "\x22i\x22:\x221\x22\x7d]\x7d"
    let base := "T"
    let quote := "USDT"
    Symbol.isPlain base = true ∧ base ≠ "" ∧ Symbol.isPlain quote = true ∧ quote.length = 4 ∧
      bybit.marketOf? frame = some (Text.upper (bybit.marketName (base ++ "-" ++ quote))) ∧
      (bybit.decode 1 .new frame).1 = .trade ⟨.bybit, "TUSDT", 0.02, 5, .buy, "1", 1⟩ ∧
      (bybit.decode 1 .new frame).1.symbol? ≠ some (base ++ "-" ++ quote) := by
  decide +kernel

end Tape.Venue
