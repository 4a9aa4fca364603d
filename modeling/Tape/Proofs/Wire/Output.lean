import Tape.Proofs.Decimal.Binary
import Tape.Proofs.Market.Canonical
import Tape.Proofs.Wire.Meaning
import Tape.Proofs.Wire.Payload
import Tape.Proofs.Wire.Run

/-!
# What codecs publish

Every trade of a codec carries its venue and finite numbers, every book its venue and canonical
sides of at most ten levels. A book that is built from changes has a level, because a live book
holds only levels that can be published.
-/

namespace Tape

/-- What a codec of a venue may publish. -/
def Event.Sound (venue : Venue) : Event → Prop
  | .trade t =>
      t.venue = venue ∧ Binary64.isFinite t.price = true ∧ Binary64.isFinite t.amount = true
  | .book s =>
      s.venue = venue ∧ s.Canonical ∧ s.bids.length ≤ 10 ∧ s.asks.length ≤ 10 ∧
        (venue = .dydx → s.bids ≠ [] ∨ s.asks ≠ [])
  | _ => True

theorem Event.sound_ofLevels {venue : Venue} (whole : venue ≠ .dydx) (symbol : String)
    (stamp : Nat) (bids asks : List (Level Float)) :
    (Event.book (.ofLevels venue symbol stamp bids asks)).Sound venue :=
  ⟨rfl, Snapshot.canonical_ofLevels venue symbol stamp bids asks,
    Snapshot.length_bids_ofLevels_le venue symbol stamp bids asks,
    Snapshot.length_asks_ofLevels_le venue symbol stamp bids asks, fun dydx => absurd dydx whole⟩

namespace Wire

/-! ## Amounts -/

theorem isFinite_amount (v : Json) : Binary64.isFinite (amount v) = true := by
  cases v with
  | text s =>
      rw [amount, amountOfText]
      split
      · split
        next finite => exact finite
        next => exact Binary64.isFinite_zero
      · exact Binary64.isFinite_zero
  | number n =>
      rw [amount]
      split
      next finite => exact finite
      next => exact Binary64.isFinite_zero
  | null => exact Binary64.isFinite_zero
  | flag b => exact Binary64.isFinite_zero
  | list items => exact Binary64.isFinite_zero
  | record members => exact Binary64.isFinite_zero

theorem isFinite_of_amount {v? : Option Json} {x : Float} (held : v?.map amount = some x) :
    Binary64.isFinite x = true := by
  obtain ⟨v, _, rfl⟩ := Option.map_eq_some_iff.1 held
  exact isFinite_amount v

/-- Whatever stands for the amounts of a trade, they are read as finite numbers. -/
theorem finite_of_lays {α : Type} {shape : PayloadShape} {r : Schema.Record Json α}
    {price size : α → Float} (lays : Lays shape r price size) {typeName : String} {v : Json} {a : α}
    (read : r.read typeName v = .ok a) :
    Binary64.isFinite (price a) = true ∧ Binary64.isFinite (size a) = true := by
  obtain ⟨find, absent, made⟩ := Schema.Record.exists_build_of_read read
  obtain ⟨_, hasPrice, hasSize, _⟩ := lays.built made
  exact ⟨isFinite_of_amount hasPrice, isFinite_of_amount hasSize⟩

/-! ## Bybit -/

namespace Bybit

theorem sound_of_decode {now : Nat} {v : Json} {event : Event}
    (decoded : decode now v = .ok event) : event.Sound .bybit := by
  cases means_of_decode decoded with
  | heartbeat => trivial
  | unknown => trivial
  | trade kind data read => exact ⟨rfl, finite_of_lays lays read⟩
  | book data read => exact Event.sound_ofLevels (by decide) _ _ _ _

end Bybit

/-! ## Binance -/

namespace Binance

theorem sound_of_decode {now : Nat} {v : Json} {event : Event}
    (decoded : decode now v = .ok event) : event.Sound .binance := by
  cases means_of_decode decoded with
  | heartbeat => trivial
  | unknown => trivial
  | trade kind read => exact ⟨rfl, finite_of_lays lays read⟩
  | book read => exact Event.sound_ofLevels (by decide) _ _ _ _

end Binance

/-! ## Hyperliquid -/

namespace Hyperliquid

theorem sound_of_decode {now : Nat} {v : Json} {event : Event}
    (decoded : decode now v = .ok event) : event.Sound .hyperliquid := by
  cases means_of_decode decoded with
  | heartbeat => trivial
  | unknown => trivial
  | trade kind data read => exact ⟨rfl, finite_of_lays lays read⟩
  | book data read sides => exact Event.sound_ofLevels (by decide) _ _ _ _

end Hyperliquid

/-! ## Uniswap -/

namespace Uniswap

theorem sound_of_decodeLog {now : Nat} {log : Json} {event : Event}
    (decoded : decodeLog now log = .ok (some event)) : event.Sound .uniswap := by
  unfold decodeLog at decoded
  split at decoded
  · cases decoded
    trivial
  · cases decoded
    trivial
  · split at decoded
    · obtain ⟨swap, _, same⟩ := bind_eq_ok.1 decoded
      cases same
      exact ⟨rfl, Binary64.isFinite_zero, Binary64.isFinite_zero⟩
    · split at decoded
      · cases decoded
        exact ⟨rfl, Snapshot.canonical_empty _ _ _, Nat.zero_le _, Nat.zero_le _,
          fun dydx => by cases dydx⟩
      · cases decoded
  · cases decoded

theorem sound_decodeAnswer (v : Json) : (decodeAnswer v).Sound .uniswap := by
  unfold decodeAnswer
  split <;> trivial

theorem sound_of_decode {now : Nat} {v : Json} {event : Event}
    (decoded : decode now v = .ok event) : event.Sound .uniswap := by
  unfold decode at decoded
  split at decoded
  · split at decoded
    · cases decoded
      trivial
    · obtain ⟨found, read, decoded⟩ := bind_eq_ok.1 decoded
      cases found with
      | some event' =>
          cases decoded
          exact sound_of_decodeLog read
      | none =>
          cases decoded
          exact sound_decodeAnswer v
  · cases decoded
    exact sound_decodeAnswer v

end Uniswap

end Wire

/-! ## Live books -/

theorem BookSide.Sound.sound_level {side : BookSide} (sound : side.Sound) {change : LevelChange}
    (member : change ∈ side.contents) : change.level.Sound := by
  obtain ⟨x, held, rfl⟩ := List.mem_map.1 member
  apply (Level.isValid_iff_sound _).1
  rw [Level.isValid_iff]
  have entry := sound.entries x held
  exact ⟨Decimal.isPositive_toFloat entry.price_positive, entry.quantity_positive⟩

/-- Some level of a side is among those that a snapshot is made of. -/
theorem BookSide.Sound.exists_level {side : BookSide} (sound : side.Sound) {best : List LevelChange}
    (same : ∀ change ∈ best, change ∈ side.contents) (some' : best ≠ []) {depth : Nat}
    (deep : 1 ≤ depth) :
    ∃ level ∈ (best.take depth).map LevelChange.level, level.Sound := by
  cases best with
  | nil => exact absurd rfl some'
  | cons first rest =>
      refine ⟨first.level, List.mem_map_of_mem ?_, sound.sound_level (same first List.mem_cons_self)⟩
      obtain ⟨depth, rfl⟩ := Nat.exists_eq_add_of_le' deep
      exact List.mem_cons_self

structure LiveBook.Sound (b : LiveBook) : Prop where
  bids : b.bids.Sound
  asks : b.asks.Sound

namespace LiveBook

theorem sound_empty : LiveBook.empty.Sound := ⟨BookSide.sound_nil, BookSide.sound_nil⟩

theorem Sound.applyGroups {b : LiveBook} (sound : b.Sound) {groups : List ChangeGroup}
    (bids : ∀ change ∈ groups.flatMap ChangeGroup.bids, change.Proper)
    (asks : ∀ change ∈ groups.flatMap ChangeGroup.asks, change.Proper) :
    (b.applyGroups groups).Sound := by
  rw [applyGroups_eq]
  exact ⟨sound.bids.applyAll bids, sound.asks.applyAll asks⟩

theorem Sound.sound_snapshot {b : LiveBook} (sound : b.Sound) (held : b.isEmpty = false)
    (symbol : String) (stamp : Nat) {depth : Nat} (deep : 1 ≤ depth) :
    (Event.book (b.snapshot .dydx symbol stamp depth)).Sound .dydx := by
  have within : 1 ≤ min depth Snapshot.depthLimit := by
    rw [Snapshot.depthLimit]
    omega
  refine ⟨rfl, Snapshot.canonical_ofLevels _ _ _ _ _, Snapshot.length_bids_ofLevels_le _ _ _ _ _,
    Snapshot.length_asks_ofLevels_le _ _ _ _ _, fun _ => ?_⟩
  rw [isEmpty, Bool.and_eq_false_iff, List.isEmpty_eq_false_iff, List.isEmpty_eq_false_iff] at held
  rcases held with bids | asks
  · left
    have some' : b.bids.contents.reverse ≠ [] := by simpa [Ladder.contents] using bids
    obtain ⟨level, member, good⟩ := sound.bids.exists_level
      (fun _ member => List.mem_reverse.1 member) some' within
    exact Snapshot.bestBids_ne_nil member good
  · right
    have some' : b.asks.contents ≠ [] := by simpa [Ladder.contents] using asks
    obtain ⟨level, member, good⟩ := sound.asks.exists_level (fun _ member => member) some' within
    exact Snapshot.bestAsks_ne_nil member good

end LiveBook

/-! ## Runs -/

/-- A store whose snapshots show something and whose books hold only levels to be published. -/
structure BookStore.Sound (s : BookStore) : Prop where
  deep : 1 ≤ s.depth
  books : ∀ symbol, ((s.book? symbol).getD .empty).Sound

theorem BookStore.sound_withDepth (depth : Nat) : (BookStore.withDepth depth).Sound where
  deep := Nat.le_max_left _ _
  books := by
    intro symbol
    exact LiveBook.sound_empty

namespace Wire.Dydx

theorem sound_of_decodeTrade {now : Nat} {symbol : String} {contents : Option Json} {event : Event}
    (decoded : decodeTrade now symbol contents = .ok event) : event.Sound .dydx := by
  unfold decodeTrade at decoded
  split at decoded
  · cases decoded
  · split at decoded
    · obtain ⟨trade, read, same⟩ := bind_eq_ok.1 decoded
      cases same
      exact ⟨rfl, finite_of_lays lays (payload_eq_ok.1 read)⟩
    · cases decoded

variable {b : Batch} {store : BookStore}

theorem Batch.Proper.sound_bookAfter (proper : b.Proper) (sound : store.Sound) :
    (b.bookAfter store).Sound := by
  rw [Batch.bookAfter]
  split
  · exact LiveBook.sound_empty.applyGroups proper.bids proper.asks
  · exact (sound.books b.symbol).applyGroups proper.bids proper.asks

theorem Batch.Proper.sound_event (proper : b.Proper) (sound : store.Sound) (now : Nat) :
    (b.applyTo now store).1.Sound .dydx := by
  rw [Batch.applyTo_eq]
  cases empty : (b.bookAfter store).isEmpty with
  | true => trivial
  | false => exact (proper.sound_bookAfter sound).sound_snapshot empty _ _ sound.deep

theorem Batch.Proper.sound_store (proper : b.Proper) (sound : store.Sound) (now : Nat) :
    (b.applyTo now store).2.Sound where
  deep := by
    rw [Batch.depth_applyTo]
    exact sound.deep
  books := by
    intro symbol
    by_cases same : symbol = b.symbol
    · rw [same, Batch.book?_applyTo_self]
      exact proper.sound_bookAfter sound
    · rw [Batch.book?_applyTo_of_ne b now store same]
      exact sound.books symbol

end Wire.Dydx

open Wire.Dydx in
theorem BookStore.Sound.decode_dydx {store : BookStore} (sound : store.Sound) (now : Nat)
    (frame : String) :
    (Venue.dydx.decode now store frame).1.Sound .dydx ∧
      (Venue.dydx.decode now store frame).2.Sound := by
  cases read : Batch.ofFrame? frame with
  | none =>
      obtain ⟨event, decoded, kind⟩ := decode_frame_of_no_batch read now
      rw [decoded]
      refine ⟨?_, sound⟩
      rcases kind with rfl | rfl | ⟨error, rfl⟩ | ⟨symbol, contents, trade⟩
      · trivial
      · trivial
      · trivial
      · exact sound_of_decodeTrade trade
  | some b =>
      have proper := Batch.proper_of_ofFrame? read
      rw [decode_frame_of_batch read]
      exact ⟨proper.sound_event sound now, proper.sound_store sound now⟩

/-- One frame gives an event that may be published, and keeps the store sound. -/
theorem BookStore.Sound.decode {store : BookStore} (sound : store.Sound) (venue : Venue) (now : Nat)
    (frame : String) :
    (venue.decode now store frame).1.Sound venue ∧ (venue.decode now store frame).2.Sound := by
  have stateless : ∀ decoder : Nat → Json → Except FeedError Event,
      (∀ {v event}, decoder now v = .ok event → event.Sound venue) →
      (∀ v, venue.decodeJson now store v = (decoder now v, store)) →
        (venue.decode now store frame).1.Sound venue ∧ (venue.decode now store frame).2.Sound := by
    intro decoder fine decoded
    rw [Venue.decode]
    cases Json.read frame with
    | error flaw => exact ⟨trivial, sound⟩
    | ok v =>
        simp only [decoded]
        cases answer : decoder now v with
        | error error => exact ⟨trivial, sound⟩
        | ok event => exact ⟨fine answer, sound⟩
  cases venue with
  | bybit => exact stateless Wire.Bybit.decode Wire.Bybit.sound_of_decode fun v => rfl
  | binance => exact stateless Wire.Binance.decode Wire.Binance.sound_of_decode fun v => rfl
  | dydx => exact sound.decode_dydx now frame
  | hyperliquid => exact stateless Wire.Hyperliquid.decode Wire.Hyperliquid.sound_of_decode fun v => rfl
  | uniswap => exact stateless Wire.Uniswap.decode Wire.Uniswap.sound_of_decode fun v => rfl

theorem BookStore.Sound.events {store : BookStore} (sound : store.Sound) (venue : Venue)
    (frames : List (Nat × String)) : ∀ event ∈ venue.events store frames, event.Sound venue := by
  induction frames generalizing store with
  | nil =>
      intro event member
      cases member
  | cons first rest ih =>
      obtain ⟨now, frame⟩ := first
      have step := sound.decode venue now frame
      intro event member
      rcases List.mem_cons.1 member with rfl | later
      · exact step.1
      · exact ih step.2 event later

/-- Whatever frames a codec is given from the start, every event it yields may be published. -/
theorem Venue.events_sound (venue : Venue) (depth : Nat) (frames : List (Nat × String)) :
    ∀ event ∈ venue.events (.withDepth depth) frames, event.Sound venue :=
  (BookStore.sound_withDepth depth).events venue frames

theorem Venue.events_sound_first_book :
    let frame := "\x7b\x22type\x22:\x22subscribed\x22,\x22channel\x22:\x22v4_orderbook\x22," ++
      "\x22id\x22:\x22BTC-USD\x22,\x22contents\x22:\x7b\x22bids\x22:[[\x2299.5\x22,\x222\x22]]\x7d\x7d"
    let event := (Venue.dydx.decode 7 (.withDepth 3) frame).1
    event ∈ Venue.dydx.events (.withDepth 3) [(7, frame)] ∧ event.frameClass = .book ∧
      event.Sound .dydx := by
  intro frame event
  have member : event ∈ Venue.dydx.events (.withDepth 3) [(7, frame)] := List.mem_cons_self
  exact ⟨member, by decide +kernel, Venue.events_sound .dydx 3 [(7, frame)] event member⟩

end Tape
