import Tape.Proofs.Wire.Naming

/-!
# The shapes of frames

A frame is a trade just when it is of the kind that holds trades and the element that is read has
what a trade needs; it is a book only when its market is the text of a record. The payload of a book
has to be a record, and a frame with a type is one, but an element of a list of trades may be a list
of fields as well.
-/

namespace Tape

namespace Venue

/-- Logs of a chain are no record types. -/
def payloadShape? : Venue → Option PayloadShape
  | bybit => some ⟨some "s", "p", "v", "S", Json.isText, "i"⟩
  | binance => some ⟨some "s", "p", "q", "m", Json.isFlag, "t"⟩
  | dydx => some ⟨none, "price", "size", "side", Json.isText, "id"⟩
  | hyperliquid => some ⟨some "coin", "px", "sz", "side", Json.isText, "tid"⟩
  | uniswap => none

/-- Whether a frame is of the kind that holds trades. -/
def hasTrades (venue : Venue) (v : Json) : Bool :=
  match venue with
  | bybit => Wire.Bybit.hasTrades v
  | binance => Wire.Binance.hasTrades v
  | dydx => Wire.Dydx.hasTrades v
  | hyperliquid => Wire.Hyperliquid.hasTrades v
  | uniswap => false

/-- The value that a trade is read from. -/
def tradeElement? (venue : Venue) (v : Json) : Option Json :=
  match venue with
  | bybit | hyperliquid => (v.getItems? "data").bind List.head?
  | binance => some v
  | dydx => ((v.get? "contents").bind Wire.Dydx.tradesOf?).bind List.head?
  | uniswap => none

/-- The value that a book is read from. -/
def bookPayload? (venue : Venue) (v : Json) : Option Json :=
  match venue with
  | bybit | hyperliquid => v.get? "data"
  | binance => some v
  | dydx => v.get? "contents"
  | uniswap => none

end Venue

namespace Wire

theorem Dydx.ordered_of_tradesOf? {contents : Json} (ordered : contents.Ordered)
    {trades : List Json} (held : tradesOf? contents = some trades) :
    ∀ trade ∈ trades, trade.Ordered := by
  have inner : ∀ {v : Json}, v.Ordered → v.getItems? "trades" = some trades →
      ∀ trade ∈ trades, trade.Ordered := by
    intro v ordered held
    obtain ⟨list, member, items⟩ := Option.bind_eq_some_iff.1 held
    cases Json.eq_list_of_items? items
    exact (ordered.get? member).items
  unfold tradesOf? at held
  split at held
  next => exact inner ordered held
  next first others => exact inner (ordered.items first List.mem_cons_self) held
  next => cases held

end Wire

namespace Venue

open Wire

theorem exists_list_of_head? {v first : Json} {name : String}
    (held : (v.getItems? name).bind List.head? = some first) :
    ∃ others, v.get? name = some (.list (first :: others)) := by
  obtain ⟨items, listed, head⟩ := Option.bind_eq_some_iff.1 held
  obtain ⟨list, member, items'⟩ := Option.bind_eq_some_iff.1 listed
  cases Json.eq_list_of_items? items'
  cases items with
  | nil => cases head
  | cons first' others =>
      cases head
      exact ⟨others, member⟩

theorem event_of_decodeJson {venue : Venue} {now : Nat} {store after : BookStore} {frame : String}
    {v : Json} {event : Event} (json : Json.read frame = .ok v)
    (answer : venue.decodeJson now store v = (.ok event, after)) :
    (venue.decode now store frame).1 = event := by
  rw [decode, json]
  simp only [answer, Event.ofAnswer]

/-- A trade is read from an element that has what it needs. -/
theorem fits_of_decode {venue : Venue} {shape : PayloadShape}
    (shaped : venue.payloadShape? = some shape) {now : Nat} {store : BookStore} {frame : String}
    {t : Trade} (decoded : (venue.decode now store frame).1 = .trade t) :
    ∃ v element, Json.read frame = .ok v ∧ venue.hasTrades v = true ∧
      venue.tradeElement? v = some element ∧ shape.Fits element t.price t.amount ∧
      shape.NamedBy v ∧ (venue = .binance → element.isRecord = true) := by
  obtain ⟨v, after, json, answer⟩ := exists_json_of_decode decoded rfl
  have ordered := Json.ordered_of_read json
  cases venue with
  | bybit =>
      cases shaped
      obtain ⟨decoded, _⟩ := Prod.mk.inj answer
      cases Bybit.means_of_decode decoded with
      | trade kind data read =>
          have inner := (ordered.get? data).items _ List.mem_cons_self
          refine ⟨v, _, json, kind, ?_,
            (Bybit.lays.read_iff (by decide) inner).1 ⟨_, read, rfl, rfl⟩,
            PayloadShape.namedBy_of_market rfl v, Venue.noConfusion⟩
          simp only [tradeElement?, Json.getItems?, data]
          rfl
  | binance =>
      cases shaped
      obtain ⟨decoded, _⟩ := Prod.mk.inj answer
      cases Binance.means_of_decode decoded with
      | trade kind read =>
          exact ⟨_, _, json, kind, rfl,
            (Binance.lays.read_iff (by decide) ordered).1 ⟨_, read, rfl, rfl⟩,
            PayloadShape.namedBy_of_market rfl _, fun _ => rfl⟩
  | hyperliquid =>
      cases shaped
      obtain ⟨decoded, _⟩ := Prod.mk.inj answer
      cases Hyperliquid.means_of_decode decoded with
      | trade kind data read =>
          have inner := (ordered.get? data).items _ List.mem_cons_self
          refine ⟨v, _, json, kind, ?_,
            (Hyperliquid.lays.read_iff (by decide) inner).1 ⟨_, read, rfl, rfl⟩,
            PayloadShape.namedBy_of_market rfl v, Venue.noConfusion⟩
          simp only [tradeElement?, Json.getItems?, data]
          rfl
  | dydx =>
      cases shaped
      cases Dydx.means_of_decode answer with
      | trade kind named held trades read =>
          have inner := Dydx.ordered_of_tradesOf? (ordered.get? held) trades _ List.mem_cons_self
          refine ⟨v, _, json, kind, ?_,
            (Dydx.lays.read_iff (by decide) inner).1 ⟨_, read, rfl, rfl⟩,
            fun _ => Option.isSome_of_eq_some named, Venue.noConfusion⟩
          simp only [tradeElement?, held, Option.bind_some, trades, List.head?_cons]
      | batch named held read applied =>
          rcases Dydx.frameClass_applyTo _ now store with kind | kind <;>
            rw [applied] at kind <;> cases kind
  | uniswap => cases shaped

/-- An element that has what a trade needs is read as one. -/
theorem decode_of_fits {venue : Venue} {shape : PayloadShape}
    (shaped : venue.payloadShape? = some shape) {frame : String} {v element : Json}
    (json : Json.read frame = .ok v) (kind : venue.hasTrades v = true)
    (held : venue.tradeElement? v = some element) {price size : Float}
    (fits : shape.Fits element price size) (named : shape.NamedBy v) (now : Nat)
    (store : BookStore) :
    ∃ t, (venue.decode now store frame).1 = .trade t ∧ t.price = price ∧ t.amount = size := by
  have ordered := Json.ordered_of_read json
  cases venue with
  | bybit =>
      cases shaped
      obtain ⟨others, data⟩ := exists_list_of_head? held
      have inner := (ordered.get? data).items _ List.mem_cons_self
      obtain ⟨p, read, rfl, rfl⟩ := (Bybit.lays.read_iff (by decide) inner).2 fits
      have answer : bybit.decodeJson now store v = (.ok _, store) :=
        congrArg (·, store) (Bybit.decode_of_trade kind data read now)
      exact ⟨_, event_of_decodeJson json answer, rfl, rfl⟩
  | binance =>
      cases shaped
      cases held
      obtain ⟨p, read, rfl, rfl⟩ := (Binance.lays.read_iff (by decide) ordered).2 fits
      have answer : binance.decodeJson now store v = (.ok _, store) :=
        congrArg (·, store) (Binance.decode_of_trade kind read now)
      exact ⟨_, event_of_decodeJson json answer, rfl, rfl⟩
  | hyperliquid =>
      cases shaped
      obtain ⟨others, data⟩ := exists_list_of_head? held
      have inner := (ordered.get? data).items _ List.mem_cons_self
      obtain ⟨p, read, rfl, rfl⟩ := (Hyperliquid.lays.read_iff (by decide) inner).2 fits
      have answer : hyperliquid.decodeJson now store v = (.ok _, store) :=
        congrArg (·, store) (Hyperliquid.decode_of_trade kind data read now)
      exact ⟨_, event_of_decodeJson json answer, rfl, rfl⟩
  | dydx =>
      cases shaped
      obtain ⟨id, hasId⟩ := Option.isSome_iff_exists.1 (named rfl)
      obtain ⟨trades, found, head⟩ := Option.bind_eq_some_iff.1 held
      obtain ⟨contents, member, listed⟩ := Option.bind_eq_some_iff.1 found
      cases trades with
      | nil => cases head
      | cons first others =>
          cases head
          have inner := Dydx.ordered_of_tradesOf? (ordered.get? member) listed _ List.mem_cons_self
          obtain ⟨p, read, rfl, rfl⟩ := (Dydx.lays.read_iff (by decide) inner).2 fits
          have answer : dydx.decodeJson now store v = (.ok _, store) :=
            Dydx.decode_of_trade kind hasId member listed read now store
          exact ⟨_, event_of_decodeJson json answer, rfl, rfl⟩
  | uniswap => cases shaped

/-! ## Books -/

/-- A book is read from a record, or a list of changes, and its market is the text of a record. -/
theorem payload_of_decode {venue : Venue} {shape : PayloadShape}
    (shaped : venue.payloadShape? = some shape) {now : Nat} {store : BookStore} {frame : String}
    {b : Snapshot} (decoded : (venue.decode now store frame).1 = .book b) :
    ∃ v payload, Json.read frame = .ok v ∧ venue.bookPayload? v = some payload ∧
      (payload.isRecord = true ∨ venue = .dydx ∧ payload.items?.isSome = true) ∧
      shape.NamesMarket payload.get? ∧ shape.NamedBy v := by
  obtain ⟨v, after, json, answer⟩ := exists_json_of_decode decoded rfl
  cases venue with
  | bybit =>
      cases shaped
      obtain ⟨decoded, _⟩ := Prod.mk.inj answer
      cases Bybit.means_of_decode decoded with
      | book data read =>
          have text := Option.isSome_of_eq_some (Bybit.begins_bookFields.nameIn? read)
          exact ⟨v, _, json, data, .inl rfl, PayloadShape.namesMarket_of_text rfl text,
            PayloadShape.namedBy_of_market rfl v⟩
  | binance =>
      cases shaped
      obtain ⟨decoded, _⟩ := Prod.mk.inj answer
      cases Binance.means_of_decode decoded with
      | book read =>
          have text := Option.isSome_of_eq_some (Binance.begins_bookFields.nameIn? read)
          exact ⟨_, _, json, rfl, .inl rfl, PayloadShape.namesMarket_of_text rfl text,
            PayloadShape.namedBy_of_market rfl _⟩
  | hyperliquid =>
      cases shaped
      obtain ⟨decoded, _⟩ := Prod.mk.inj answer
      cases Hyperliquid.means_of_decode decoded with
      | book data read sides =>
          have text := Option.isSome_of_eq_some (Hyperliquid.begins_bookFields.nameIn? read)
          exact ⟨v, _, json, data, .inl rfl, PayloadShape.namesMarket_of_text rfl text,
            PayloadShape.namedBy_of_market rfl v⟩
  | dydx =>
      cases shaped
      cases Dydx.means_of_decode answer with
      | batch named held read applied =>
          refine ⟨v, _, json, held, ?_, ?_, fun _ => Option.isSome_of_eq_some named⟩
          · unfold Dydx.readGroups at read
            split at read
            · exact .inl rfl
            · exact .inr ⟨rfl, rfl⟩
            · cases read
          · rintro _ ⟨⟩
  | uniswap => cases shaped

/-! ## Events -/

/-- A venue whose payloads are record types makes a trade of just the frames of trades whose element
fits, and a book only of a frame that names its market: any other shape is no event. An element that
fits may be a list of fields, though not for Binance. -/
theorem shapes_of_decode {venue : Venue} {shape : PayloadShape}
    (shaped : venue.payloadShape? = some shape) (now : Nat) (store : BookStore) (frame : String) :
    (∀ price size,
      (∃ t, (venue.decode now store frame).1 = .trade t ∧ t.price = price ∧ t.amount = size) ↔
        ∃ v element, Json.read frame = .ok v ∧ venue.hasTrades v = true ∧
          venue.tradeElement? v = some element ∧ shape.Fits element price size ∧
          shape.NamedBy v ∧ (venue = .binance → element.isRecord = true)) ∧
    ∀ b, (venue.decode now store frame).1 = .book b →
      ∃ v payload, Json.read frame = .ok v ∧ venue.bookPayload? v = some payload ∧
        (payload.isRecord = true ∨ venue = .dydx ∧ payload.items?.isSome = true) ∧
        shape.NamesMarket payload.get? ∧ shape.NamedBy v := by
  refine ⟨fun price size => ⟨?_, ?_⟩, fun b => payload_of_decode shaped⟩
  · rintro ⟨t, decoded, rfl, rfl⟩
    exact fits_of_decode shaped decoded
  · rintro ⟨v, element, json, kind, held, fits, named, _⟩
    exact decode_of_fits shaped json kind held fits named now store

theorem shapes_of_decode_of_record :
    let frame := "\x7b\x22e\x22:\x22trade\x22,\x22s\x22:\x22BTCUSDT\x22,\x22p\x22:\x22100.5\x22," ++
      "\x22q\x22:2,\x22m\x22:true\x7d"
    let store := BookStore.withDepth 10
    let shape : PayloadShape := ⟨some "s", "p", "q", "m", Json.isFlag, "t"⟩
    let trade : Trade := ⟨.binance, "BTC-USDT", 100.5, 2, .sell, "", 1⟩
    binance.payloadShape? = some shape ∧ (binance.decode 1 store frame).1 = .trade trade ∧
      ∃ v, Json.read frame = .ok v ∧ v.isRecord = true ∧ shape.Fits v 100.5 2 := by
  intro frame store shape trade
  have shaped : binance.payloadShape? = some shape := rfl
  have decoded : (binance.decode 1 store frame).1 = .trade trade := by decide +kernel
  obtain ⟨v, element, read, _, same, fits, _, isRecord⟩ :=
    ((shapes_of_decode shaped 1 store frame).1 100.5 2).1 ⟨trade, decoded, rfl, rfl⟩
  cases same
  exact ⟨shaped, decoded, v, read, isRecord rfl, fits⟩

/-- A list of fields is taken for a trade, where a book has to be a record. -/
theorem trade_of_list :
    let store := BookStore.withDepth 10
    let traded := "\x7b\x22topic\x22:\x22publicTrade.BTCUSDT\x22,\x22data\x22:[[" ++
      "\x22BTCUSDT\x22,\x2250000.1\x22,\x220.01\x22,\x22Buy\x22,\x22123\x22]]\x7d"
    let booked := "\x7b\x22topic\x22:\x22orderbook.10.BTCUSDT\x22,\x22data\x22:[" ++
      "\x22BTCUSDT\x22,[[\x2250000.1\x22,\x221\x22]],[]]\x7d"
    (bybit.decode 1 store traded).1 =
        .trade ⟨.bybit, "BTC-USDT", 50000.1, 0.01, .buy, "123", 1⟩ ∧
      ((Json.read traded).toOption.bind bybit.tradeElement?).map Json.isRecord = some false ∧
      (bybit.decode 1 store booked).1.frameClass = .error := by
  decide +kernel

end Venue

end Tape
