import Tape.Proofs.Book.Whole
import Tape.Proofs.Wire.Payload
import Tape.Proofs.Wire.Run

/-!
# Whole books and first batches

Some venues send a whole book in every frame. One sends the whole book when a subscription begins,
as a batch that replaces what was held, and changes from then on. Frames of both sorts with the same
levels are published with the same sides.
-/

namespace Tape.Wire

open Dydx.Batch (itemsOf? membersOf? optionalItemsField_build_eq_ok)

/-! ## Frames with a whole book -/

/-- The levels of the record of a market, under `b` and `a`. -/
def namedLevels? (v : Json) : Option ChangeGroup := do
  let members ← membersOf? v
  let _ ← v.getText? "s"
  let bids ← itemsOf? (Json.find? "b" members)
  let asks ← itemsOf? (Json.find? "a" members)
  return ⟨LevelChange.ofItems bids, LevelChange.ofItems asks⟩

/-- The levels of the record of a coin, whose sides are the first two items of a list. -/
def listedLevels? (v : Json) : Option ChangeGroup := do
  let members ← membersOf? v
  let _ ← v.getText? "coin"
  match ← (Json.find? "levels" members).bind Json.items? with
  | bids :: asks :: _ => return ⟨LevelChange.ofList (some bids), LevelChange.ofList (some asks)⟩
  | _ => none

theorem eq_record_of_membersOf? {v : Json} {members : List (String × Json)}
    (held : membersOf? v = some members) : v = .record members := by
  cases v <;> cases held
  rfl

/-- The record types of two venues differ in their names alone. -/
theorem plain_bookFields {α : Type} (f : String → List Json → List Json → α) :
    (f <$> textField "s" <*> optionalItemsField "b" <*> optionalItemsField "a").Plain :=
  (((Schema.Record.plain_required "s" Schema.Document.text).map f).seq
    (Schema.Record.plain_optional "b" [] readItems)).seq
      (Schema.Record.plain_optional "a" [] readItems)

theorem read_of_namedLevels? {α : Type} (f : String → List Json → List Json → α)
    (typeName : String) {v : Json} (ordered : v.Ordered) {l : ChangeGroup}
    (held : namedLevels? v = some l) :
    ∃ market bids asks,
      (f <$> textField "s" <*> optionalItemsField "b" <*> optionalItemsField "a").read typeName v =
        .ok (f market bids asks) ∧ LevelChange.ofItems bids = l.bids ∧
          LevelChange.ofItems asks = l.asks := by
  simp only [namedLevels?, Option.bind_eq_bind, Option.bind_eq_some_iff] at held
  obtain ⟨members, isRecord, market, named, bids, hasBids, asks, hasAsks, made⟩ := held
  cases made
  cases eq_record_of_membersOf? isRecord
  refine ⟨market, bids, asks, ?_, rfl, rfl⟩
  rw [(plain_bookFields f).read_record ordered.rising]
  simp only [Schema.Record.seq_build_eq_ok, Schema.Record.map_build_eq_ok,
    textField_build_eq_ok, optionalItemsField_build_eq_ok]
  exact ⟨_, asks, ⟨_, bids, ⟨market, named, rfl⟩, hasBids, rfl⟩, hasAsks, rfl⟩

/-- The book of the valid levels of a group. -/
def wholeBook (venue : Venue) (symbol : String) (now : Nat) (l : ChangeGroup) : Snapshot :=
  .ofLevels venue symbol now (l.bids.map LevelChange.level) (l.asks.map LevelChange.level)

namespace Bybit

/-- Whether a frame comes under a topic of books. -/
def hasBook (v : Json) : Bool :=
  !isControl v && (v.getText? "topic").any fun topic =>
    !Text.holds "publicTrade".toList topic.toList && Text.holds "orderbook".toList topic.toList

theorem decode_of_book {v data : Json} {l : ChangeGroup} (ordered : v.Ordered)
    (kind : hasBook v = true) (held : v.get? "data" = some data)
    (carried : namedLevels? data = some l) (now : Nat) :
    ∃ symbol, decode now v = .ok (.book (wholeBook venue symbol now l)) := by
  obtain ⟨live, topic, named, notTrades, books⟩ : isControl v = false ∧ ∃ topic,
      v.getText? "topic" = some topic ∧ Text.holds "publicTrade".toList topic.toList = false ∧
        Text.holds "orderbook".toList topic.toList = true := by
    simpa only [hasBook, Bool.and_eq_true, Bool.not_eq_true', Option.any_eq_true] using kind
  obtain ⟨members, isRecord, _⟩ := Option.bind_eq_some_iff.1 carried
  cases eq_record_of_membersOf? isRecord
  obtain ⟨market, bids, asks, read, sameBids, sameAsks⟩ :=
    read_of_namedLevels? BookPayload.mk "BybitBook" (ordered.get? held) carried
  have taken : payload venue "orderbook" BookPayload.read (.record members) =
      .ok ⟨market, bids, asks⟩ := payload_eq_ok.2 read
  have kept : (some (Json.record members)).filter Json.isRecord = some (.record members) := rfl
  refine ⟨canonicalSymbol market, ?_⟩
  rw [wholeBook, ← sameBids, ← sameAsks]
  simp only [decode, live, named, notTrades, books, decodeBook, held, kept, taken]
  rfl

end Bybit

namespace Binance

def hasBook (v : Json) : Bool := !isAnswer v && v.getText? "e" = some "depthUpdate"

theorem decode_of_book {v : Json} {l : ChangeGroup} (ordered : v.Ordered)
    (kind : hasBook v = true) (carried : namedLevels? v = some l) (now : Nat) :
    ∃ symbol, decode now v = .ok (.book (wholeBook venue symbol now l)) := by
  obtain ⟨live, type⟩ : isAnswer v = false ∧ v.getText? "e" = some "depthUpdate" := by
    simpa only [hasBook, Bool.and_eq_true, Bool.not_eq_true', decide_eq_true_eq] using kind
  obtain ⟨market, bids, asks, read, sameBids, sameAsks⟩ :=
    read_of_namedLevels? BookPayload.mk "BinanceDepthEvent" ordered carried
  have taken : payload venue "depthUpdate" BookPayload.read v = .ok ⟨market, bids, asks⟩ :=
    payload_eq_ok.2 read
  refine ⟨canonicalSymbol market, ?_⟩
  rw [wholeBook, ← sameBids, ← sameAsks]
  simp only [decode, live, type, decodeBook, taken]
  rfl

end Binance

namespace Hyperliquid

def hasBook (v : Json) : Bool := v.getText? "channel" = some "l2Book"

theorem plain_bookFields : BookPayload.fields.Plain :=
  ((Schema.Record.plain_required "coin" Schema.Document.text).map BookPayload.mk).seq
    (Schema.Record.plain_required "levels" readItems)

theorem decode_of_book {v data : Json} {l : ChangeGroup} (ordered : v.Ordered)
    (kind : hasBook v = true) (held : v.get? "data" = some data)
    (carried : listedLevels? data = some l) (now : Nat) :
    ∃ symbol, decode now v = .ok (.book (wholeBook venue symbol now l)) := by
  have channel : v.getText? "channel" = some "l2Book" := of_decide_eq_true kind
  simp only [listedLevels?, Option.bind_eq_bind, Option.bind_eq_some_iff] at carried
  obtain ⟨members, isRecord, coin, named, sides, ⟨list, hasLevels, items⟩, made⟩ := carried
  cases eq_record_of_membersOf? isRecord
  have read : BookPayload.read (.record members) = .ok ⟨coin, sides⟩ := by
    rw [BookPayload.read, plain_bookFields.read_record (ordered.get? held).rising,
      BookPayload.fields]
    simp only [Schema.Record.seq_build_eq_ok, Schema.Record.map_build_eq_ok,
      textField_build_eq_ok]
    refine ⟨_, sides, ⟨coin, named, rfl⟩, ?_, rfl⟩
    simp only [Schema.Record.required, hasLevels]
    exact readItems_eq_ok.2 items
  have taken : payload venue "l2Book" BookPayload.read (.record members) = .ok ⟨coin, sides⟩ :=
    payload_eq_ok.2 read
  refine ⟨canonicalSymbol coin, ?_⟩
  simp only [decode, channel, held, decodeBook, taken]
  split at made
  next =>
    cases made
    rfl
  next => cases made

end Hyperliquid

/-- The levels of the batch that begins a subscription. -/
def Dydx.firstLevels? (frame : String) : Option ChangeGroup :=
  (Batch.ofFrame? frame).bind fun batch =>
    if batch.replaces then some ⟨batch.bids, batch.asks⟩ else none

end Tape.Wire

namespace Tape.Venue

open Wire

/-- The levels of a whole book, for the venues that send whole books. -/
def wholeLevels? (venue : Venue) (frame : String) : Option ChangeGroup :=
  (Json.read frame).toOption.bind fun v =>
    match venue with
    | bybit => if Bybit.hasBook v then (v.get? "data").bind namedLevels? else none
    | binance => if Binance.hasBook v then namedLevels? v else none
    | hyperliquid => if Hyperliquid.hasBook v then (v.get? "data").bind listedLevels? else none
    | dydx | uniswap => none

theorem decode_of_wholeLevels? {venue : Venue} {frame : String} {l : ChangeGroup}
    (carried : venue.wholeLevels? frame = some l) (now : Nat) (store : BookStore) :
    ∃ symbol, (venue.decode now store frame).1 = .book (wholeBook venue symbol now l) := by
  obtain ⟨v, read, carried⟩ := Option.bind_eq_some_iff.1 carried
  have json : Json.read frame = .ok v := by
    cases known : Json.read frame with
    | error error =>
        rw [known] at read
        cases read
    | ok w =>
        rw [known] at read
        cases read
        rfl
  have ordered := Json.ordered_of_read json
  have shown : ∀ {answer : Event}, venue.decodeJson now store v = (.ok answer, store) →
      (venue.decode now store frame).1 = answer := by
    intro answer decoded
    simp only [decode, json, decoded, Event.ofAnswer]
  cases venue with
  | bybit =>
      obtain ⟨kind, carried⟩ := Option.ite_none_right_eq_some.1 carried
      obtain ⟨data, held, carried⟩ := Option.bind_eq_some_iff.1 carried
      obtain ⟨symbol, decoded⟩ := Bybit.decode_of_book ordered kind held carried now
      exact ⟨symbol, shown (by rw [decodeJson, decoded]; rfl)⟩
  | binance =>
      obtain ⟨kind, carried⟩ := Option.ite_none_right_eq_some.1 carried
      obtain ⟨symbol, decoded⟩ := Binance.decode_of_book ordered kind carried now
      exact ⟨symbol, shown (by rw [decodeJson, decoded]; rfl)⟩
  | hyperliquid =>
      obtain ⟨kind, carried⟩ := Option.ite_none_right_eq_some.1 carried
      obtain ⟨data, held, carried⟩ := Option.bind_eq_some_iff.1 carried
      obtain ⟨symbol, decoded⟩ := Hyperliquid.decode_of_book ordered kind held carried now
      exact ⟨symbol, shown (by rw [decodeJson, decoded]; rfl)⟩
  | dydx => cases carried
  | uniswap => cases carried

/-- The answer to the batch that begins a subscription does not depend on what was held. -/
theorem decode_of_firstLevels? {frame : String} {l : ChangeGroup}
    (carried : Dydx.firstLevels? frame = some l) (now : Nat) {store : BookStore}
    (depth : store.depth = Snapshot.depthLimit) :
    ∃ symbol,
      let book : LiveBook := ⟨BookSide.applyAll [] l.bids, BookSide.applyAll [] l.asks⟩
      (Venue.dydx.decode now store frame).1 =
          (if book.isEmpty then .unknown
            else .book (book.snapshot .dydx symbol now Snapshot.depthLimit)) ∧
        (∀ change ∈ l.bids, change.Proper) ∧ ∀ change ∈ l.asks, change.Proper := by
  obtain ⟨batch, accepted, carried⟩ := Option.bind_eq_some_iff.1 carried
  obtain ⟨replaces, made⟩ := Option.ite_none_right_eq_some.1 carried
  cases made
  have left : batch.bookAfter store =
      ⟨BookSide.applyAll [] batch.bids, BookSide.applyAll [] batch.asks⟩ := by
    rw [Dydx.Batch.bookAfter, if_pos replaces, LiveBook.applyGroups_eq]
    rfl
  have proper := Dydx.Batch.proper_of_ofFrame? accepted
  refine ⟨batch.symbol, ?_, proper.bids, proper.asks⟩
  rw [Dydx.decode_frame_of_batch accepted, batch.applyTo_eq, left, depth]
  rfl

/-- The same levels are published alike, whether they come as a whole book or as the batch that
begins a subscription, whatever was held before. The batch means nothing just when the whole book
has no level. -/
theorem whole_book_agrees_with_first_batch {venue : Venue} {whole first : String}
    {l : ChangeGroup} (sent : venue.wholeLevels? whole = some l)
    (begun : Dydx.firstLevels? first = some l) (bids : LevelChange.Apart l.bids)
    (asks : LevelChange.Apart l.asks) (sentAt begunAt : Nat) (other store : BookStore)
    (depth : store.depth = Snapshot.depthLimit) :
    ∃ book, (venue.decode sentAt other whole).1 = .book book ∧
      ((Venue.dydx.decode begunAt store first).1 = .unknown ↔ book.isEmpty = true) ∧
        (book.isEmpty = false → ∃ symbol,
          (Venue.dydx.decode begunAt store first).1 =
            .book ⟨.dydx, symbol, begunAt, book.bids, book.asks⟩) := by
  obtain ⟨symbol, shown⟩ := decode_of_wholeLevels? sent sentAt other
  obtain ⟨market, answer, properBids, properAsks⟩ := decode_of_firstLevels? begun begunAt depth
  refine ⟨_, shown, ?_⟩
  rw [answer, bids.isEmpty_eq_ofLevels asks properBids properAsks venue symbol sentAt,
    bids.snapshot_eq_ofLevels asks properBids properAsks, wholeBook]
  constructor
  · split
    next empty => exact ⟨fun _ => empty, fun _ => rfl⟩
    next left => exact ⟨Event.noConfusion, fun empty => absurd empty left⟩
  · intro left
    refine ⟨market, if_neg ?_⟩
    rw [left]
    exact Bool.false_ne_true

/-- Levels in any order, with one that takes a price out, one that is malformed, one at a negative
price and one that is a record, sent by Bybit and to a book that held something else. -/
theorem whole_book_agrees_with_first_batch_out_of_order :
    let bids := "[[\x2299\x22,\x221\x22],[\x2298\x22,0],[\x22x\x22,1],[\x22100.5\x22,2]]"
    let asks := "[[\x22102\x22,3],[\x22-1\x22,1],\x7b\x22px\x22:\x22101\x22,\x22sz\x22:4\x7d]"
    let whole := "\x7b\x22topic\x22:\x22orderbook.10.BTCUSDT\x22,\x22data\x22:\x7b" ++
      "\x22s\x22:\x22BTCUSDT\x22,\x22b\x22:" ++ bids ++ ",\x22a\x22:" ++ asks ++ "\x7d\x7d"
    let first := "\x7b\x22type\x22:\x22subscribed\x22,\x22channel\x22:\x22v4_orderbook\x22," ++
      "\x22id\x22:\x22BTC-USD\x22,\x22contents\x22:\x7b\x22bids\x22:" ++ bids ++
      ",\x22asks\x22:" ++ asks ++ "\x7d\x7d"
    let held := LiveBook.empty.applyBid ⟨⟨false, 97, 0, by decide, by decide⟩, 5⟩
    let store : BookStore := ⟨10, [("BTC-USD", held)]⟩
    let sides : Snapshot := ⟨.bybit, "BTC-USDT", 1, [⟨100.5, 2⟩, ⟨99, 1⟩], [⟨101, 4⟩, ⟨102, 3⟩]⟩
    (bybit.decode 1 .new whole).1 = .book sides ∧
      ∃ symbol, (Venue.dydx.decode 2 store first).1 =
        .book ⟨.dydx, symbol, 2, sides.bids, sides.asks⟩ := by
  intro bids asks whole first held store sides
  let l : ChangeGroup :=
    ⟨[⟨⟨false, 99, 0, by decide, by decide⟩, 1⟩, ⟨⟨false, 98, 0, by decide, by decide⟩, 0⟩,
        ⟨⟨false, 1005, 1, by decide, by decide⟩, 2⟩],
      [⟨⟨false, 102, 0, by decide, by decide⟩, 3⟩, ⟨⟨true, 1, 0, by decide, by decide⟩, 1⟩,
        ⟨⟨false, 101, 0, by decide, by decide⟩, 4⟩]⟩
  have sent : bybit.wholeLevels? whole = some l := by decide +kernel
  have begun : Dydx.firstLevels? first = some l := by decide +kernel
  have shown : (bybit.decode 1 .new whole).1 = .book sides := by decide +kernel
  obtain ⟨book, decoded, _, alike⟩ := whole_book_agrees_with_first_batch sent begun
    (by decide +kernel) (by decide +kernel) 1 2 .new store rfl
  cases shown.symm.trans decoded
  exact ⟨shown, alike rfl⟩

end Tape.Venue
