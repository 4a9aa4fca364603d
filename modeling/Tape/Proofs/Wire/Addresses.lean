import Tape.Proofs.Wire.Markets
import Tape.Proofs.Wire.Requests

/-!
# Published symbols as addresses

A symbol can be taken from an event and configured for a feed. For the venues that publish a symbol
of their own making, its request asks for the market that the event came from: what was added to the
name of the market is taken away again, wherever a dash was put and whatever the name ends in.
-/

namespace Tape.Venue

open Wire

/-! ## Requests for one symbol -/

/-- The request for a symbol is read as one for a market and no other, whichever channels are
switched on. -/
def AsksFor (venue : Venue) (symbol market : String) : Prop :=
  ∀ trades books, ∃ v, Json.read (venue.subscription [symbol] trades books).render = .ok v ∧
    venue.requestTopics? v =
      some ((Channel.wanted trades books).map fun channel => ⟨channel, some market⟩)

theorem requestTopics?_single (venue : Venue) (symbol : String) (trades books : Bool) :
    venue.requestTopics? (venue.subscription [symbol] trades books) =
      some ((Channel.wanted trades books).map fun channel => ⟨channel, venue.market? symbol⟩) := by
  rw [subscription_eq, List.flatMap_singleton, requestTopics?, requestItems?_requestOf]
  exact venue.mapM_topic?_entries symbol _

/-- What is asked for is settled by the name that the venue has for the symbol. -/
theorem asksFor_iff {venue : Venue} (names : venue ≠ uniswap) {symbol market : String} :
    venue.AsksFor symbol market ↔ venue.marketName symbol = market := by
  have asked : venue.market? symbol = some (venue.marketName symbol) := by
    cases venue with
    | uniswap => exact absurd rfl names
    | _ => rfl
  constructor
  · intro asks
    obtain ⟨v, read, topics⟩ := asks true false
    rw [read_subscription] at read
    cases read
    rw [requestTopics?_single, asked] at topics
    simpa [Channel.wanted] using topics
  · rintro rfl trades books
    refine ⟨_, venue.read_subscription [symbol] trades books, ?_⟩
    rw [requestTopics?_single, asked]

/-! ## The way back from a symbol -/

/-- The name of a market as requests have it: the streams of one venue go by lower-case letters. -/
def requestName (venue : Venue) (market : String) : String :=
  match venue with
  | binance => Text.lower market
  | bybit | dydx | hyperliquid | uniswap => market

section WayBack

variable {market : String} (undashed : '-' ∉ market.toList) (raised : Text.upper market = market)
include undashed raised

theorem hyperliquid_marketName_canonicalSymbol :
    Hyperliquid.marketName (Hyperliquid.canonicalSymbol market) = market := by
  have whole : Text.upper (Hyperliquid.canonicalSymbol market) =
      market ++ Hyperliquid.symbolEnding := by
    rw [Hyperliquid.canonicalSymbol, raised, Text.upper_append, raised]
    rfl
  have ending : Hyperliquid.symbolEnding.toList = '-' :: "USDC-PERP".toList := rfl
  have coin : ∀ c ∈ market.toList, decide (c ≠ '-') = true := by
    intro c held
    refine decide_eq_true ?_
    rintro rfl
    exact undashed held
  simp only [Hyperliquid.marketName, whole, String.toList_append, ending]
  rw [if_pos (by simp), List.takeWhile_append_of_pos coin, List.takeWhile_cons_of_neg (by simp),
    List.append_nil, String.ofList_toList]

theorem marketName_canonicalSymbol {venue : Venue}
    (own : venue = bybit ∨ venue = binance ∨ venue = hyperliquid) :
    venue.marketName (venue.canonicalSymbol market) = venue.requestName market := by
  have undone := Symbol.stripDashes_dashBeforeLast undashed raised 4 6
  rcases own with rfl | rfl | rfl
  · exact undone
  · exact congrArg Text.lower undone
  · exact hyperliquid_marketName_canonicalSymbol undashed raised

end WayBack

/-- The symbol of an event asks for the market that its frame names, when that name has no dash and
no lower-case letter. -/
theorem published_symbol_asks_for_its_market {venue : Venue}
    (own : venue = bybit ∨ venue = binance ∨ venue = hyperliquid) {market : String}
    (undashed : '-' ∉ market.toList) (raised : ∀ c ∈ market.toList, ¬ c.isLower = true)
    {frame : String} (named : venue.marketOf? frame = some market) {now : Nat} {store : BookStore}
    {symbol : String} (about : (venue.decode now store frame).1.symbol? = some symbol) :
    venue.marketName symbol = venue.requestName market ∧
      venue.AsksFor symbol (venue.requestName market) := by
  have same : venue.marketName symbol = venue.requestName market := by
    rw [symbol_of_marketOf? named about]
    exact marketName_canonicalSymbol undashed (Text.upper_of_not_isLower raised) own
  have names : venue ≠ uniswap := by
    rcases own with rfl | rfl | rfl <;> exact Venue.noConfusion
  exact ⟨same, (asksFor_iff names).2 same⟩

/-- A coin that is named as a quote is, and a market with a letter outside ASCII, which gets no
dash. -/
theorem published_symbol_asks_for_its_market_of_quote :
    let traded := "\x7b\x22channel\x22:\x22trades\x22,\x22data\x22:[\x7b\x22coin\x22:" ++
      "\x22XUSDC\x22,\x22px\x22:\x221\x22,\x22sz\x22:\x222\x22\x7d]\x7d"
    let booked := "\x7b\x22e\x22:\x22depthUpdate\x22,\x22s\x22:\x22ÜBERUSDT\x22,\x22b\x22:[[" ++
      "\x2299\x22,\x221\x22]],\x22a\x22:[]\x7d"
    hyperliquid.marketOf? traded = some "XUSDC" ∧
      (hyperliquid.decode 1 .new traded).1.symbol? = some "XUSDC-USDC-PERP" ∧
      hyperliquid.AsksFor "XUSDC-USDC-PERP" "XUSDC" ∧
      binance.marketOf? booked = some "ÜBERUSDT" ∧
      (binance.decode 1 .new booked).1.symbol? = some "ÜBERUSDT" ∧
      binance.AsksFor "ÜBERUSDT" "Überusdt" := by
  intro traded booked
  have coin : hyperliquid.marketOf? traded = some "XUSDC" := by decide +kernel
  have trade : (hyperliquid.decode 1 .new traded).1.symbol? = some "XUSDC-USDC-PERP" := by
    decide +kernel
  have stream : binance.marketOf? booked = some "ÜBERUSDT" := by decide +kernel
  have book : (binance.decode 1 .new booked).1.symbol? = some "ÜBERUSDT" := by decide +kernel
  have plainCoin : ∀ c ∈ "XUSDC".toList, ¬ c.isLower = true := by simp
  have plainStream : ∀ c ∈ "ÜBERUSDT".toList, ¬ c.isLower = true := by simp
  exact ⟨coin, trade,
    (published_symbol_asks_for_its_market (.inr (.inr rfl)) (by decide) plainCoin coin trade).2,
    stream, book,
    (published_symbol_asks_for_its_market (.inr (.inl rfl)) (by decide) plainStream stream book).2⟩

end Tape.Venue
