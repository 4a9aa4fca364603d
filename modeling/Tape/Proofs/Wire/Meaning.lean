import Tape.Proofs.Wire.Batch
import Tape.Wire.Codec

/-!
# What frames mean

For every venue whose payloads are record types: the events that a frame can mean, each with the
payload that it is read from. All else that is known of decoded frames follows from these cases.
-/

namespace Tape

namespace Json

theorem eq_list_of_items? {v : Json} {items : List Json} (held : v.items? = some items) :
    v = .list items := by
  cases v <;> cases held
  rfl

theorem eq_record_of_isRecord {v : Json} (held : v.isRecord = true) :
    ∃ members, v = .record members := by
  cases v <;> cases held
  exact ⟨_, rfl⟩

end Json

namespace Wire

/-! ## Bybit -/

namespace Bybit

/-- Whether a frame comes under a topic of trades. -/
def hasTrades (v : Json) : Bool :=
  !isControl v &&
    (v.getText? "topic").any fun topic => Text.holds "publicTrade".toList topic.toList

/-- What a frame can mean. -/
inductive Means (now : Nat) (v : Json) : Event → Prop where
  | heartbeat : Means now v .heartbeat
  | unknown : Means now v .unknown
  | trade {first : Json} {others : List Json} {p : TradePayload} (kind : hasTrades v = true)
      (data : v.get? "data" = some (.list (first :: others)))
      (read : TradePayload.read first = .ok p) :
      Means now v (.trade ⟨venue, canonicalSymbol p.market, p.price, p.size,
        if p.side = "Buy" then .buy else .sell, p.id, now⟩)
  | book {members : List (String × Json)} {p : BookPayload}
      (data : v.get? "data" = some (.record members))
      (read : BookPayload.read (.record members) = .ok p) :
      Means now v (.book (.ofLevels venue (canonicalSymbol p.market) now
        (levels p.bids) (levels p.asks)))

theorem means_of_decode {now : Nat} {v : Json} {event : Event}
    (decoded : decode now v = .ok event) : Means now v event := by
  unfold decode at decoded
  split at decoded
  next =>
    cases decoded
    exact .heartbeat
  next live =>
    split at decoded
    next =>
      cases decoded
      exact .unknown
    next topic named =>
      split at decoded
      next trades =>
        have kind : hasTrades v = true := by
          rw [Bool.not_eq_true] at live
          rw [hasTrades, live, named]
          exact trades
        unfold decodeTrade at decoded
        split at decoded
        next => cases decoded
        next =>
          cases decoded
          exact .unknown
        next first others listed =>
          obtain ⟨p, read, same⟩ := bind_eq_ok.1 decoded
          cases same
          obtain ⟨data, held, items⟩ := Option.bind_eq_some_iff.1 listed
          cases Json.eq_list_of_items? items
          exact .trade kind held (payload_eq_ok.1 read)
      next =>
        split at decoded
        next =>
          unfold decodeBook at decoded
          split at decoded
          next => cases decoded
          next data kept =>
            obtain ⟨p, read, same⟩ := bind_eq_ok.1 decoded
            cases same
            obtain ⟨held, isRecord⟩ := Option.filter_eq_some_iff.1 kept
            obtain ⟨members, rfl⟩ := Json.eq_record_of_isRecord isRecord
            exact .book held (payload_eq_ok.1 read)
        next =>
          cases decoded
          exact .unknown

theorem decode_of_trade {v first : Json} {others : List Json} {p : TradePayload}
    (kind : hasTrades v = true) (data : v.get? "data" = some (.list (first :: others)))
    (read : TradePayload.read first = .ok p) (now : Nat) :
    decode now v = .ok (.trade ⟨venue, canonicalSymbol p.market, p.price, p.size,
      if p.side = "Buy" then .buy else .sell, p.id, now⟩) := by
  obtain ⟨live, topic, named, trades⟩ : isControl v = false ∧ ∃ topic,
      v.getText? "topic" = some topic ∧
        Text.holds "publicTrade".toList topic.toList = true := by
    simpa only [hasTrades, Bool.and_eq_true, Bool.not_eq_true', Option.any_eq_true] using kind
  have taken : payload venue "publicTrade" TradePayload.read first = .ok p := payload_eq_ok.2 read
  simp only [decode, live, named, trades, decodeTrade, data, Option.bind_some, Json.items?, taken]
  rfl

end Bybit

/-! ## Binance -/

namespace Binance

def hasTrades (v : Json) : Bool := !isAnswer v && v.getText? "e" = some "trade"

/-- Trades and books stand in the frame itself, which names its type and so is a record. -/
inductive Means (now : Nat) : Json → Event → Prop where
  | heartbeat {v : Json} : Means now v .heartbeat
  | unknown {v : Json} : Means now v .unknown
  | trade {members : List (String × Json)} {p : TradePayload}
      (kind : hasTrades (.record members) = true)
      (read : TradePayload.read (.record members) = .ok p) :
      Means now (.record members) (.trade ⟨venue, canonicalSymbol p.market, p.price, p.quantity,
        if p.buyerRested then .sell else .buy, p.id, now⟩)
  | book {members : List (String × Json)} {p : BookPayload}
      (read : BookPayload.read (.record members) = .ok p) :
      Means now (.record members) (.book (.ofLevels venue (canonicalSymbol p.market) now
        (levels p.bids) (levels p.asks)))

theorem means_of_decode {now : Nat} {v : Json} {event : Event}
    (decoded : decode now v = .ok event) : Means now v event := by
  have isRecord : ∀ {kind}, v.getText? "e" = some kind → ∃ members, v = .record members := by
    intro kind held
    cases v with
    | record members => exact ⟨members, rfl⟩
    | null => cases held
    | flag b => cases held
    | number n => cases held
    | text s => cases held
    | list items => cases held
  unfold decode at decoded
  split at decoded
  next =>
    cases decoded
    exact .heartbeat
  next live =>
    split at decoded
    next type =>
      obtain ⟨p, read, same⟩ := bind_eq_ok.1 decoded
      cases same
      have kind : hasTrades v = true := by simp [hasTrades, live, type]
      obtain ⟨members, rfl⟩ := isRecord type
      exact .trade kind (payload_eq_ok.1 read)
    next type =>
      obtain ⟨p, read, same⟩ := bind_eq_ok.1 decoded
      cases same
      obtain ⟨members, rfl⟩ := isRecord type
      exact .book (payload_eq_ok.1 read)
    next =>
      cases decoded
      exact .unknown

theorem decode_of_trade {v : Json} {p : TradePayload} (kind : hasTrades v = true)
    (read : TradePayload.read v = .ok p) (now : Nat) :
    decode now v = .ok (.trade ⟨venue, canonicalSymbol p.market, p.price, p.quantity,
      if p.buyerRested then .sell else .buy, p.id, now⟩) := by
  obtain ⟨live, type⟩ : isAnswer v = false ∧ v.getText? "e" = some "trade" := by
    simpa only [hasTrades, Bool.and_eq_true, Bool.not_eq_true', decide_eq_true_eq] using kind
  have taken : payload venue "trade" TradePayload.read v = .ok p := payload_eq_ok.2 read
  simp only [decode, live, type, decodeTrade, taken]
  rfl

end Binance

/-! ## Hyperliquid -/

namespace Hyperliquid

def hasTrades (v : Json) : Bool := v.getText? "channel" = some "trades"

inductive Means (now : Nat) (v : Json) : Event → Prop where
  | heartbeat : Means now v .heartbeat
  | unknown : Means now v .unknown
  | trade {first : Json} {others : List Json} {p : TradePayload} (kind : hasTrades v = true)
      (data : v.get? "data" = some (.list (first :: others)))
      (read : TradePayload.read first = .ok p) :
      Means now v (.trade ⟨venue, canonicalSymbol p.coin, p.price, p.size,
        if p.side = "A" then .sell else .buy, p.id, now⟩)
  | book {members : List (String × Json)} {p : BookPayload} {bids asks : Json} {others : List Json}
      (data : v.get? "data" = some (.record members))
      (read : BookPayload.read (.record members) = .ok p)
      (sides : p.sides = bids :: asks :: others) :
      Means now v (.book (.ofLevels venue (canonicalSymbol p.coin) now
        (levels (bids.items?.getD [])) (levels (asks.items?.getD []))))

theorem means_of_decode {now : Nat} {v : Json} {event : Event}
    (decoded : decode now v = .ok event) : Means now v event := by
  unfold decode at decoded
  split at decoded
  next =>
    cases decoded
    exact .unknown
  next channel named =>
    split at decoded
    next =>
      cases decoded
      exact .heartbeat
    next =>
      split at decoded
      next =>
        cases decoded
        exact .unknown
      next data held =>
        split at decoded
        next trades =>
          have kind : hasTrades v = true := by simp [hasTrades, named, trades]
          unfold decodeTrade at decoded
          split at decoded
          next =>
            obtain ⟨p, read, same⟩ := bind_eq_ok.1 decoded
            cases same
            exact .trade kind held (payload_eq_ok.1 read)
          next =>
            cases decoded
            exact .unknown
        next =>
          split at decoded
          next =>
            unfold decodeBook at decoded
            split at decoded
            next => cases decoded
            next isRecord =>
              obtain ⟨members, rfl⟩ := Json.eq_record_of_isRecord (by simpa using isRecord)
              obtain ⟨p, read, decoded⟩ := bind_eq_ok.1 decoded
              split at decoded
              next sides =>
                cases decoded
                exact .book held (payload_eq_ok.1 read) sides
              next => cases decoded
          next =>
            cases decoded
            exact .unknown

theorem decode_of_trade {v first : Json} {others : List Json} {p : TradePayload}
    (kind : hasTrades v = true) (data : v.get? "data" = some (.list (first :: others)))
    (read : TradePayload.read first = .ok p) (now : Nat) :
    decode now v = .ok (.trade ⟨venue, canonicalSymbol p.coin, p.price, p.size,
      if p.side = "A" then .sell else .buy, p.id, now⟩) := by
  have channel : v.getText? "channel" = some "trades" := of_decide_eq_true kind
  have taken : payload venue "trades" TradePayload.read first = .ok p := payload_eq_ok.2 read
  have alive : ("trades" = "subscriptionResponse" || "trades" = "pong") = false := by decide
  simp only [decode, channel, alive, data, decodeTrade, taken, if_true]
  rfl

end Hyperliquid

/-! ## dYdX -/

namespace Dydx

def hasTrades (v : Json) : Bool :=
  !isControl (v.getText? "type") (v.get? "contents") && v.getText? "channel" = some "v4_trades"

/-- What a frame can mean, and the books after it. -/
inductive Means (now : Nat) (store : BookStore) (v : Json) : Event → BookStore → Prop where
  | heartbeat : Means now store v .heartbeat store
  | unknown : Means now store v .unknown store
  | trade {id : String} {contents first : Json} {others : List Json} {p : TradePayload}
      (kind : hasTrades v = true) (named : v.getText? "id" = some id)
      (held : v.get? "contents" = some contents)
      (trades : tradesOf? contents = some (first :: others))
      (read : TradePayload.read first = .ok p) :
      Means now store v (.trade ⟨venue, Text.upper id, p.price, p.size,
        if p.side = "BUY" then .buy else .sell, p.id, now⟩) store
  | batch {id : String} {contents : Json} {groups : List ChangeGroup} {replaces : Bool}
      {event : Event} {after : BookStore} (named : v.getText? "id" = some id)
      (held : v.get? "contents" = some contents)
      (read : readGroups (Text.upper id) contents = .ok groups)
      (applied : Batch.applyTo ⟨Text.upper id, replaces, groups⟩ now store = (event, after)) :
      Means now store v event after

theorem exists_id_of_marketOf {v : Json} {symbol : String} (named : marketOf v = .ok symbol) :
    ∃ id, v.getText? "id" = some id ∧ symbol = Text.upper id := by
  rw [marketOf] at named
  split at named
  next id held =>
    cases named
    exact ⟨id, held, rfl⟩
  next => cases named

theorem means_of_decode {now : Nat} {store after : BookStore} {v : Json} {event : Event}
    (decoded : decode now store v = (.ok event, after)) : Means now store v event after := by
  simp only [decode] at decoded
  split at decoded
  next =>
    cases decoded
    exact .heartbeat
  next live =>
    split at decoded
    next channel =>
      have kind : hasTrades v = true := by simp [hasTrades, live, channel]
      obtain ⟨answer, rfl⟩ := Prod.mk.inj decoded
      obtain ⟨market, known, taken⟩ := bind_eq_ok.1 answer
      obtain ⟨id, named, rfl⟩ := exists_id_of_marketOf known
      unfold decodeTrade at taken
      split at taken
      next => cases taken
      next contents held =>
        split at taken
        next trades =>
          obtain ⟨p, read, same⟩ := bind_eq_ok.1 taken
          cases same
          exact .trade kind named held trades (payload_eq_ok.1 read)
        next => cases taken
    next =>
      split at decoded
      next => cases decoded
      next market known =>
        obtain ⟨id, named, rfl⟩ := exists_id_of_marketOf known
        cases held : v.get? "contents" with
        | none =>
            rw [held] at decoded
            cases decoded
        | some contents =>
            rw [held, decodeBook_eq] at decoded
            split at decoded
            next => cases decoded
            next groups read =>
              cases decoded
              exact .batch named held read rfl
    next =>
      cases decoded
      exact .unknown

theorem decode_of_trade {v contents first : Json} {id : String} {others : List Json}
    {p : TradePayload} (kind : hasTrades v = true) (named : v.getText? "id" = some id)
    (held : v.get? "contents" = some contents)
    (trades : tradesOf? contents = some (first :: others))
    (read : TradePayload.read first = .ok p) (now : Nat) (store : BookStore) :
    decode now store v = (.ok (.trade ⟨venue, Text.upper id, p.price, p.size,
      if p.side = "BUY" then .buy else .sell, p.id, now⟩), store) := by
  obtain ⟨live, channel⟩ : isControl (v.getText? "type") (v.get? "contents") = false ∧
      v.getText? "channel" = some "v4_trades" := by
    simpa only [hasTrades, Bool.and_eq_true, Bool.not_eq_true', decide_eq_true_eq] using kind
  have taken : payload venue "v4_trades" TradePayload.read first = .ok p := payload_eq_ok.2 read
  rw [held] at live
  have market : marketOf v = .ok (Text.upper id) := by rw [marketOf, named]
  simp only [decode, held, live, channel, market, decodeTrade, trades, taken]
  rfl

end Dydx

end Wire

end Tape
