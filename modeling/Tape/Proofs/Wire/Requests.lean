import Tape.Proofs.Json.Verbatim
import Tape.Wire.Codec

/-!
# What a request asks for

A request is a list of items, which stands where its venue wants it. Each item asks for one channel,
and names a market unless the venue has only one feed for all of them. What is asked for is read
here from the text of a request alone, as the venue would read it: it is every channel that is
switched on for every symbol, in the order of the symbols, whatever characters they are made of.
-/

namespace Tape

namespace Text

theorem after?_append (first rest : List Char) : after? first (first ++ rest) = some rest :=
  (after?_eq_some_iff _ _ _).2 rfl

theorem before?_append (last first : List Char) : before? last (first ++ last) = some first := by
  rw [before?, List.reverse_append, after?_append, Option.map_some, List.reverse_reverse]

end Text

/-! ## Channels and topics -/

/-- The kinds of market data that are asked for one by one. -/
inductive Channel where
  | trades
  | books
  deriving DecidableEq, Repr

namespace Channel

/-- The channels that are switched on, in the order of asking. -/
def wanted (trades books : Bool) : List Channel :=
  (if trades then [.trades] else []) ++ if books then [.books] else []

/-- The channel that goes by one of two names. -/
def ofName? (trades books name : String) : Option Channel :=
  if name = trades then some .trades else if name = books then some .books else none

theorem entries_eq_map (trades books : Bool) (entry : Channel → α) :
    Wire.entries trades books (entry .trades) (entry .books) =
      (wanted trades books).map entry := by
  cases trades <;> cases books <;> rfl

end Channel

/-- What one item of a request asks for. -/
structure Topic where
  channel : Channel
  /-- The market in the venue's own name for it, if the item names one. -/
  market? : Option String
  deriving DecidableEq, Repr

/-! ## Reading the items of a request -/

namespace Wire

/-- A topic that is written as one text, with the channel before or after the market. -/
def topicOfText? (trades books : List Char → Option (List Char)) (v : Json) : Option Topic := do
  let s ← v.text?
  ((trades s.toList).map fun market => ⟨.trades, some (String.ofList market)⟩).or
    ((books s.toList).map fun market => ⟨.books, some (String.ofList market)⟩)

section TopicOfText

variable {trades books : List Char → Option (List Char)} {s market : String}

theorem topicOfText?_of_trades (held : trades s.toList = some market.toList) :
    topicOfText? trades books (.text s) = some ⟨.trades, some market⟩ := by
  simp [topicOfText?, Json.text?, held]

theorem topicOfText?_of_books (other : trades s.toList = none)
    (held : books s.toList = some market.toList) :
    topicOfText? trades books (.text s) = some ⟨.books, some market⟩ := by
  simp [topicOfText?, Json.text?, other, held]

end TopicOfText

def Bybit.topic? : Json → Option Topic :=
  topicOfText? (Text.after? "publicTrade.".toList) (Text.after? "orderbook.10.".toList)

def Binance.topic? : Json → Option Topic :=
  topicOfText? (Text.before? "@trade".toList) (Text.before? "@depth10".toList)

def Dydx.topic? (v : Json) : Option Topic := do
  guard (v.getText? "type" = some "subscribe")
  let channel ← (v.getText? "channel").bind (Channel.ofName? "v4_trades" "v4_orderbook")
  let market ← v.getText? "id"
  return ⟨channel, some market⟩

def Hyperliquid.topic? (v : Json) : Option Topic := do
  guard (v.getText? "method" = some "subscribe")
  let asked ← v.get? "subscription"
  let channel ← (asked.getText? "type").bind (Channel.ofName? "trades" "l2Book")
  let coin ← asked.getText? "coin"
  return ⟨channel, some coin⟩

/-- The only topic of a filter for the logs of the contract. -/
def Uniswap.filterTopic? (filter : Json) : Option String := do
  guard (filter.getText? "address" = some contractAddress)
  match ← filter.getItems? "topics" with
  | [topic] => topic.text?
  | _ => none

def Uniswap.topic? (v : Json) : Option Topic := do
  guard (v.getText? "method" = some "eth_subscribe")
  match ← v.getItems? "params" with
  | [.text "logs", filter] =>
      let topic ← filterTopic? filter
      let channel ← Channel.ofName? ("0x" ++ swapTopic) ("0x" ++ liquidityTopic) topic
      return ⟨channel, none⟩
  | _ => none

end Wire

namespace Venue

open Wire

/-- The topic of an item, if the venue can make one of it. -/
def topic? : Venue → Json → Option Topic
  | bybit => Bybit.topic?
  | binance => Binance.topic?
  | dydx => Dydx.topic?
  | hyperliquid => Hyperliquid.topic?
  | uniswap => Uniswap.topic?

/-- The items of a request, where the venue looks for them. -/
def requestItems? (venue : Venue) (v : Json) : Option (List Json) :=
  match venue with
  | bybit => if v.getText? "op" = some "subscribe" then v.getItems? "args" else none
  | binance => if v.getText? "method" = some "SUBSCRIBE" then v.getItems? "params" else none
  | dydx | hyperliquid | uniswap => v.items?

/-- The topics of a request; there are none when one of its items has no topic. -/
def requestTopics? (venue : Venue) (v : Json) : Option (List Topic) := do
  let items ← venue.requestItems? v
  items.mapM venue.topic?

/-! ## What is to be asked for -/

/-- The market that is to be named for a symbol. The logs of one contract are of all its pools. -/
def market? (venue : Venue) (symbol : String) : Option String :=
  match venue with
  | bybit | binance | dydx | hyperliquid => some (venue.marketName symbol)
  | uniswap => none

/-- For each symbol, in their order, the channels that are switched on. -/
def topics (venue : Venue) (symbols : List String) (trades books : Bool) : List Topic :=
  symbols.flatMap fun symbol =>
    (Channel.wanted trades books).map fun channel => ⟨channel, venue.market? symbol⟩

/-! ## Items as they are written -/

/-- The item that asks for a channel of a symbol. -/
def entry (venue : Venue) (symbol : String) (channel : Channel) : Json :=
  match venue, channel with
  | bybit, .trades => .text ("publicTrade." ++ bybit.marketName symbol)
  | bybit, .books => .text ("orderbook.10." ++ bybit.marketName symbol)
  | binance, .trades => .text (binance.marketName symbol ++ "@trade")
  | binance, .books => .text (binance.marketName symbol ++ "@depth10")
  | dydx, .trades => Dydx.request "v4_trades" (dydx.marketName symbol)
  | dydx, .books => Dydx.request "v4_orderbook" (dydx.marketName symbol)
  | hyperliquid, .trades => Hyperliquid.request "trades" (hyperliquid.marketName symbol)
  | hyperliquid, .books => Hyperliquid.request "l2Book" (hyperliquid.marketName symbol)
  | uniswap, .trades => Uniswap.request 1 Uniswap.swapTopic
  | uniswap, .books => Uniswap.request 2 Uniswap.liquidityTopic

/-- The request that holds the given items. -/
def requestOf (venue : Venue) (items : List Json) : Json :=
  match venue with
  | bybit => .record [("args", .list items), ("op", .text "subscribe")]
  | binance => Binance.request "SUBSCRIBE" items 1
  | dydx | hyperliquid | uniswap => .list items

theorem subscription_eq (venue : Venue) (symbols : List String) (trades books : Bool) :
    venue.subscription symbols trades books = venue.requestOf (symbols.flatMap fun symbol =>
      (Channel.wanted trades books).map (venue.entry symbol)) := by
  simp only [← Channel.entries_eq_map]
  cases venue <;> rfl

theorem requestItems?_requestOf (venue : Venue) (items : List Json) :
    venue.requestItems? (venue.requestOf items) = some items := by
  cases venue <;> rfl

theorem topic?_entry (venue : Venue) (symbol : String) (channel : Channel) :
    venue.topic? (venue.entry symbol channel) = some ⟨channel, venue.market? symbol⟩ := by
  cases venue with
  | bybit =>
      cases channel with
      | trades =>
          apply topicOfText?_of_trades
          rw [String.toList_append, Text.after?_append]
      | books =>
          apply topicOfText?_of_books
          · rw [String.toList_append]
            rfl
          · rw [String.toList_append, Text.after?_append]
  | binance =>
      cases channel with
      | trades =>
          apply topicOfText?_of_trades
          rw [String.toList_append, Text.before?_append]
      | books =>
          apply topicOfText?_of_books
          · rw [String.toList_append, Text.before?, List.reverse_append]
            rfl
          · rw [String.toList_append, Text.before?_append]
  | dydx => cases channel <;> rfl
  | hyperliquid => cases channel <;> rfl
  | uniswap => cases channel <;> rfl

/-! ## Requests as they are read -/

open Json (Verbatim rising_of_names)

theorem verbatim_dydx_request (depth : Nat) (channel market : String) :
    Verbatim (depth + 1) (Dydx.request channel market) := by
  refine .record (rising_of_names ["batched", "channel", "id", "type"] rfl (by decide)) ?_
  simp only [List.forall_mem_cons]
  exact ⟨.flag _ _, .text _ _, .text _ _, .text _ _, List.forall_mem_nil _⟩

theorem verbatim_hyperliquid_request (depth : Nat) (kind coin : String) :
    Verbatim (depth + 2) (Hyperliquid.request kind coin) := by
  refine .record (rising_of_names ["method", "subscription"] rfl (by decide)) ?_
  simp only [List.forall_mem_cons]
  refine ⟨.text _ _, .record (rising_of_names ["coin", "type"] rfl (by decide)) ?_,
    List.forall_mem_nil _⟩
  simp only [List.forall_mem_cons]
  exact ⟨.text _ _, .text _ _, List.forall_mem_nil _⟩

theorem verbatim_uniswap_filter (depth : Nat) (topic : String) :
    Verbatim (depth + 2) (.record [("address", .text Uniswap.contractAddress),
      ("topics", .list [.text topic])]) := by
  refine .record (rising_of_names ["address", "topics"] rfl (by decide)) ?_
  simp only [List.forall_mem_cons]
  exact ⟨.text _ _, .list (List.forall_mem_singleton.2 (.text _ _)), List.forall_mem_nil _⟩

theorem verbatim_uniswap_request (depth : Nat) {id : Nat} (fits : id < Json.significandBound)
    (topic : String) : Verbatim (depth + 4) (Uniswap.request id topic) := by
  refine .record (rising_of_names ["id", "jsonrpc", "method", "params"] rfl (by decide)) ?_
  simp only [List.forall_mem_cons]
  refine ⟨.nat _ fits, .text _ _, .text _ _, .list ?_, List.forall_mem_nil _⟩
  simp only [List.forall_mem_cons]
  exact ⟨.text _ _, verbatim_uniswap_filter _ _, List.forall_mem_nil _⟩

theorem verbatim_entry (depth : Nat) (venue : Venue) (symbol : String) (channel : Channel) :
    Verbatim (depth + 4) (venue.entry symbol channel) := by
  cases venue with
  | bybit => cases channel <;> exact .text _ _
  | binance => cases channel <;> exact .text _ _
  | dydx => cases channel <;> exact verbatim_dydx_request _ _ _
  | hyperliquid => cases channel <;> exact verbatim_hyperliquid_request _ _ _
  | uniswap => cases channel <;> exact verbatim_uniswap_request _ (by decide) _

theorem verbatim_requestOf (depth : Nat) (venue : Venue) {items : List Json}
    (inner : ∀ depth, ∀ item ∈ items, Verbatim (depth + 4) item) :
    Verbatim (depth + 6) (venue.requestOf items) := by
  cases venue with
  | bybit =>
      refine .record (rising_of_names ["args", "op"] rfl (by decide)) ?_
      simp only [List.forall_mem_cons]
      exact ⟨.list (inner depth), .text _ _, List.forall_mem_nil _⟩
  | binance =>
      refine .record (rising_of_names ["id", "method", "params"] rfl (by decide)) ?_
      simp only [List.forall_mem_cons]
      exact ⟨.nat _ (by decide), .text _ _, .list (inner depth), List.forall_mem_nil _⟩
  | dydx => exact .list (inner (depth + 1))
  | hyperliquid => exact .list (inner (depth + 1))
  | uniswap => exact .list (inner (depth + 1))

/-- The text of a request is read as the request, whatever the symbols are. -/
theorem read_subscription (venue : Venue) (symbols : List String) (trades books : Bool) :
    Json.read (venue.subscription symbols trades books).render =
      .ok (venue.subscription symbols trades books) := by
  rw [subscription_eq]
  refine (verbatim_requestOf 121 venue ?_).read_render
  intro depth item held
  obtain ⟨symbol, _, held⟩ := List.mem_flatMap.1 held
  obtain ⟨channel, _, rfl⟩ := List.mem_map.1 held
  exact verbatim_entry depth venue symbol channel

/-! ## Topics of requests -/

theorem mapM_flatMap {read : β → Option γ} {written : α → List β} {meant : α → List γ}
    (reads : ∀ a, (written a).mapM read = some (meant a)) (as : List α) :
    (as.flatMap written).mapM read = some (as.flatMap meant) := by
  induction as with
  | nil => rfl
  | cons a rest ih =>
      rw [List.flatMap_cons, List.flatMap_cons, List.mapM_append, reads, ih]
      rfl

theorem mapM_topic?_entries (venue : Venue) (symbol : String) (channels : List Channel) :
    (channels.map (venue.entry symbol)).mapM venue.topic? =
      some (channels.map fun channel => ⟨channel, venue.market? symbol⟩) := by
  have reads : venue.topic? ∘ venue.entry symbol =
      fun channel => some ⟨channel, venue.market? symbol⟩ := funext (venue.topic?_entry symbol)
  rw [List.mapM_map, reads]
  exact List.mapM_pure

/-- The text of a request is JSON, and its items ask for just the channels that are switched on, of
every symbol in turn and under the name that the venue has for it. -/
theorem subscription_asks_for_topics (venue : Venue) (symbols : List String) (trades books : Bool) :
    ∃ v, Json.read (venue.subscription symbols trades books).render = .ok v ∧
      venue.requestTopics? v = some (venue.topics symbols trades books) := by
  refine ⟨_, venue.read_subscription symbols trades books, ?_⟩
  rw [subscription_eq, requestTopics?, requestItems?_requestOf]
  exact mapM_flatMap (fun symbol => venue.mapM_topic?_entries symbol _) symbols

example : bybit.topics ["BTC-USDT", "\x22Ü-\n"] true true =
    [⟨.trades, some "BTCUSDT"⟩, ⟨.books, some "BTCUSDT"⟩,
      ⟨.trades, some "\x22Ü\n"⟩, ⟨.books, some "\x22Ü\n"⟩] := by
  decide

end Venue

end Tape
