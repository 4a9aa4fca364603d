import Tape.Proofs.Wire.Atomic
import Tape.Proofs.Wire.Meaning
import Tape.Proofs.Wire.Payload

/-!
# The market that a frame names

A frame names its market in one member, which is read here without decoding the rest of it. An event
is always about the market that its frame names, and what a frame means for the books of that market
depends on nothing that is held for others.
-/

namespace Tape

namespace Json

/-- The value of the first field of a record type: under its name, or in the first place of a list
of the fields. -/
def leading? (name : String) : Json → Option Json
  | record members => find? name members
  | list items => items.head?
  | _ => none

end Json

theorem Schema.Record.Written.leading? {name : String} {others : List String} {v : Json}
    {find : String → Option Json} (written : Schema.Record.Written (name :: others) v find) :
    find name = v.leading? name := by
  cases written with
  | record members => rfl
  | list items fits =>
      show items[(name :: others).idxOf name]? = items.head?
      rw [List.idxOf_cons_self, List.head?_eq_getElem?]

/-- The symbol that an event is about. -/
def Event.symbol? : Event → Option String
  | trade t => some t.symbol
  | book b => some b.symbol
  | heartbeat | unknown | rejected _ => none

theorem Event.symbol?_trade (venue : Venue) (symbol : String) (price amount : Float) (side : Side)
    (id : String) (stamp : Nat) :
    (Event.trade ⟨venue, symbol, price, amount, side, id, stamp⟩).symbol? = some symbol := rfl

theorem Event.symbol?_ofLevels (venue : Venue) (symbol : String) (stamp : Nat)
    (bids asks : List (Level Float)) :
    (Event.book (.ofLevels venue symbol stamp bids asks)).symbol? = some symbol := rfl

namespace Wire

open Schema.Record (plain_required plain_optional seq_build_eq_ok map_build_eq_ok)

/-! ## Markets in payloads -/

/-- What a payload is about, when it may be a list: the first item. -/
def subject? : Json → Option Json
  | .list items => items.head?
  | v => some v

/-- The text of the first field of a payload. -/
def nameIn? (field : String) (v : Json) : Option String := (v.leading? field).bind Json.text?

/-- A record type whose first field is a text that stands in a relation to the value. -/
structure Begins {α : Type} (name : String) (r : Schema.Record Json α)
    (fits : α → String → Prop) : Prop where
  plain : r.Plain
  fields : ∃ others, r.fields = (textField name).fields ++ others
  built : ∀ {find absent a}, r.build find absent = .ok a →
    ∃ s, (textField name).build find absent = .ok s ∧ fits a s

namespace Begins

variable {α β : Type} {name : String}

theorem map {make : String → α} {fits : α → String → Prop} (fit : ∀ s, fits (make s) s) :
    Begins name (make <$> textField name) fits where
  plain := (plain_required _ _).map _
  fields := ⟨[], rfl⟩
  built := by
    intro find absent a made
    obtain ⟨s, read, rfl⟩ := map_build_eq_ok.1 made
    exact ⟨s, read, fit s⟩

theorem seq {f : Schema.Record Json (α → β)} {r : Schema.Record Json α}
    {fits : β → String → Prop} (begins : Begins name f fun g s => ∀ a, fits (g a) s)
    (plain : r.Plain) : Begins name (f <*> r) fits where
  plain := begins.plain.seq plain
  fields := by
    obtain ⟨others, same⟩ := begins.fields
    refine ⟨others ++ r.fields, ?_⟩
    rw [← List.append_assoc, ← same]
    rfl
  built := by
    intro find absent b made
    obtain ⟨g, a, first, _, rfl⟩ := seq_build_eq_ok.1 made
    obtain ⟨s, read, fit⟩ := begins.built first
    exact ⟨s, read, fit a⟩

/-- A payload that begins with the name of its market is read with that name. -/
theorem nameIn? {r : Schema.Record Json α} {market : α → String}
    (begins : Begins name r fun a s => market a = s) {typeName : String} {v : Json} {a : α}
    (read : r.read typeName v = .ok a) : nameIn? name v = some (market a) := by
  obtain ⟨others, fields⟩ := begins.fields
  obtain ⟨find, absent, written, built⟩ := begins.plain.exists_written_of_read read
  obtain ⟨s, named, rfl⟩ := begins.built built
  rw [fields] at written
  rw [Wire.nameIn?, ← written.leading?]
  exact textField_build_eq_ok.1 named

end Begins

namespace Bybit

theorem begins_tradeFields : Begins "s" TradePayload.fields fun p s => p.market = s :=
  ((((Begins.map fun _ _ _ _ _ => rfl).seq (plain_required _ _)).seq (plain_required _ _)).seq
    (plain_optional _ _ _)).seq (plain_optional _ _ _)

theorem begins_bookFields : Begins "s" BookPayload.fields fun p s => p.market = s :=
  ((Begins.map fun _ _ _ => rfl).seq (plain_optional _ _ _)).seq (plain_optional _ _ _)

/-- The symbol of the market that the data of a frame name. -/
def symbolIn? (data : Option Json) : Option String :=
  ((data.bind subject?).bind (nameIn? "s")).map canonicalSymbol

theorem symbolIn?_of_decode {now : Nat} {v : Json} {event : Event}
    (decoded : decode now v = .ok event) {symbol : String} (about : event.symbol? = some symbol) :
    symbolIn? (v.get? "data") = some symbol := by
  cases means_of_decode decoded with
  | heartbeat => cases about
  | unknown => cases about
  | trade kind data read =>
      rw [data, symbolIn?]
      rw [Event.symbol?_trade] at about
      simp only [subject?, Option.bind_some, List.head?_cons, begins_tradeFields.nameIn? read,
        Option.map_some]
      exact about
  | book data read =>
      rw [data, symbolIn?]
      rw [Event.symbol?_ofLevels] at about
      simp only [subject?, Option.bind_some, begins_bookFields.nameIn? read, Option.map_some]
      exact about

end Bybit

namespace Binance

theorem begins_tradeFields : Begins "s" TradePayload.fields fun p s => p.market = s :=
  ((((Begins.map fun _ _ _ _ _ => rfl).seq (plain_required _ _)).seq (plain_required _ _)).seq
    (plain_optional _ _ _)).seq (plain_optional _ _ _)

theorem begins_bookFields : Begins "s" BookPayload.fields fun p s => p.market = s :=
  ((Begins.map fun _ _ _ => rfl).seq (plain_optional _ _ _)).seq (plain_optional _ _ _)

/-- The symbol of the market that a frame names. -/
def symbolIn? (v : Json) : Option String := (nameIn? "s" v).map canonicalSymbol

theorem symbolIn?_of_decode {now : Nat} {v : Json} {event : Event}
    (decoded : decode now v = .ok event) {symbol : String} (about : event.symbol? = some symbol) :
    symbolIn? v = some symbol := by
  cases means_of_decode decoded with
  | heartbeat => cases about
  | unknown => cases about
  | trade kind read =>
      rw [Event.symbol?_trade] at about
      rw [symbolIn?, begins_tradeFields.nameIn? read, Option.map_some]
      exact about
  | book read =>
      rw [Event.symbol?_ofLevels] at about
      rw [symbolIn?, begins_bookFields.nameIn? read, Option.map_some]
      exact about

end Binance

namespace Hyperliquid

theorem begins_tradeFields : Begins "coin" TradePayload.fields fun p s => p.coin = s :=
  ((((Begins.map fun _ _ _ _ _ => rfl).seq (plain_required _ _)).seq (plain_required _ _)).seq
    (plain_optional _ _ _)).seq (plain_optional _ _ _)

theorem begins_bookFields : Begins "coin" BookPayload.fields fun p s => p.coin = s :=
  (Begins.map fun _ _ => rfl).seq (plain_required _ _)

/-- The symbol of the coin that the data of a frame name. -/
def symbolIn? (data : Option Json) : Option String :=
  ((data.bind subject?).bind (nameIn? "coin")).map canonicalSymbol

theorem symbolIn?_of_decode {now : Nat} {v : Json} {event : Event}
    (decoded : decode now v = .ok event) {symbol : String} (about : event.symbol? = some symbol) :
    symbolIn? (v.get? "data") = some symbol := by
  cases means_of_decode decoded with
  | heartbeat => cases about
  | unknown => cases about
  | trade kind data read =>
      rw [data, symbolIn?]
      rw [Event.symbol?_trade] at about
      simp only [subject?, Option.bind_some, List.head?_cons, begins_tradeFields.nameIn? read,
        Option.map_some]
      exact about
  | book data read sides =>
      rw [data, symbolIn?]
      rw [Event.symbol?_ofLevels] at about
      simp only [subject?, Option.bind_some, begins_bookFields.nameIn? read, Option.map_some]
      exact about

end Hyperliquid

namespace Dydx

/-- The symbol of the market that a frame names. -/
def symbolIn? (v : Json) : Option String := (v.getText? "id").map Text.upper

theorem Batch.symbol_of_applyTo {b : Batch} {now : Nat} {store after : BookStore} {event : Event}
    (applied : b.applyTo now store = (event, after)) {symbol : String}
    (about : event.symbol? = some symbol) : b.symbol = symbol := by
  rw [Batch.applyTo_eq] at applied
  cases applied
  split at about
  · cases about
  · rw [LiveBook.snapshot, Event.symbol?_ofLevels] at about
    exact Option.some.inj about

theorem symbolIn?_of_decode {now : Nat} {store after : BookStore} {v : Json} {event : Event}
    (decoded : decode now store v = (.ok event, after)) {symbol : String}
    (about : event.symbol? = some symbol) : symbolIn? v = some symbol := by
  cases means_of_decode decoded with
  | heartbeat => cases about
  | unknown => cases about
  | trade kind named held trades read =>
      rw [symbolIn?, named]
      exact about
  | batch named held read applied =>
      rw [symbolIn?, named]
      exact congrArg some (Batch.symbol_of_applyTo applied about)

theorem symbolIn?_of_batch {v : Json} {b : Batch} (read : Batch.ofJson? v = some b) :
    symbolIn? v = some b.symbol := by
  obtain ⟨_, _, _, id, _, hasId, _, _, symbol, _⟩ := Batch.ofJson?_eq_some read
  rw [symbolIn?, hasId, symbol]
  rfl

end Dydx

namespace Uniswap

theorem symbol?_decodeAnswer (v : Json) : (decodeAnswer v).symbol? = none := by
  rw [decodeAnswer]
  split <;> rfl

theorem symbol_of_decodeLog {now : Nat} {log : Json} {event : Event}
    (decoded : decodeLog now log = .ok (some event)) {name : String}
    (about : event.symbol? = some name) : name = symbol := by
  unfold decodeLog at decoded
  split at decoded
  · cases decoded
    cases about
  · cases decoded
    cases about
  · split at decoded
    · obtain ⟨swap, _, same⟩ := bind_eq_ok.1 decoded
      cases same
      cases about
      rfl
    · split at decoded
      · cases decoded
        cases about
        rfl
      · cases decoded
  · cases decoded

theorem symbol_of_decode {now : Nat} {v : Json} {event : Event}
    (decoded : decode now v = .ok event) {name : String} (about : event.symbol? = some name) :
    name = symbol := by
  unfold decode at decoded
  split at decoded
  · split at decoded
    · cases decoded
      cases about
    · obtain ⟨found, read, decoded⟩ := bind_eq_ok.1 decoded
      cases found with
      | some event' =>
          cases decoded
          exact symbol_of_decodeLog read about
      | none =>
          cases decoded
          rw [symbol?_decodeAnswer] at about
          cases about
  · cases decoded
    rw [symbol?_decodeAnswer] at about
    cases about

end Uniswap

end Wire

namespace Venue

/-! ## Markets of frames -/

/-- The symbol of the market that a frame names, if it names one. The logs of one pool have no name
for it. -/
def symbolIn? (venue : Venue) (v : Json) : Option String :=
  match venue with
  | bybit => Wire.Bybit.symbolIn? (v.get? "data")
  | binance => Wire.Binance.symbolIn? v
  | dydx => Wire.Dydx.symbolIn? v
  | hyperliquid => Wire.Hyperliquid.symbolIn? (v.get? "data")
  | uniswap => some Wire.Uniswap.symbol

def symbolOf? (venue : Venue) (frame : String) : Option String :=
  match Json.read frame with
  | .ok v => venue.symbolIn? v
  | .error _ => none

/-- A frame that is about a market is JSON, which its venue takes. -/
theorem exists_json_of_decode {venue : Venue} {now : Nat} {store : BookStore} {frame : String}
    {event : Event} (decoded : (venue.decode now store frame).1 = event) {symbol : String}
    (about : event.symbol? = some symbol) :
    ∃ v after, Json.read frame = .ok v ∧ venue.decodeJson now store v = (.ok event, after) := by
  rw [decode] at decoded
  cases read : Json.read frame with
  | error flaw =>
      rw [read] at decoded
      cases decoded
      cases about
  | ok v =>
      simp only [read] at decoded
      rcases result : venue.decodeJson now store v with ⟨answer, after⟩
      rw [result] at decoded
      cases answer with
      | error error =>
          cases decoded
          cases about
      | ok event' =>
          cases decoded
          exact ⟨v, after, rfl, result⟩

/-- An event is about the market that its frame names. -/
theorem symbolOf?_of_decode {venue : Venue} {now : Nat} {store : BookStore} {frame : String}
    {symbol : String} (about : (venue.decode now store frame).1.symbol? = some symbol) :
    venue.symbolOf? frame = some symbol := by
  obtain ⟨v, after, read, answer⟩ := exists_json_of_decode rfl about
  rw [symbolOf?, read]
  cases venue with
  | dydx => exact Wire.Dydx.symbolIn?_of_decode answer about
  | bybit =>
      obtain ⟨decoded, _⟩ := Prod.mk.inj answer
      exact Wire.Bybit.symbolIn?_of_decode decoded about
  | binance =>
      obtain ⟨decoded, _⟩ := Prod.mk.inj answer
      exact Wire.Binance.symbolIn?_of_decode decoded about
  | hyperliquid =>
      obtain ⟨decoded, _⟩ := Prod.mk.inj answer
      exact Wire.Hyperliquid.symbolIn?_of_decode decoded about
  | uniswap =>
      obtain ⟨decoded, _⟩ := Prod.mk.inj answer
      exact congrArg some (Wire.Uniswap.symbol_of_decode decoded about).symm

/-! ## Books of one market -/

theorem symbolOf?_of_batch {frame : String} {b : Wire.Dydx.Batch}
    (read : Wire.Dydx.Batch.ofFrame? frame = some b) : dydx.symbolOf? frame = some b.symbol := by
  rw [Wire.Dydx.Batch.ofFrame?] at read
  rw [symbolOf?]
  cases known : Json.read frame with
  | error flaw =>
      rw [known] at read
      cases read
  | ok v =>
      rw [known] at read
      exact Wire.Dydx.symbolIn?_of_batch read

/-- A frame that does not name a market leaves its book as it is. -/
theorem book?_decode_of_ne {venue : Venue} {frame symbol : String}
    (other : venue.symbolOf? frame ≠ some symbol) (now : Nat) (store : BookStore) :
    (venue.decode now store frame).2.book? symbol = store.book? symbol := by
  by_cases changes : venue = .dydx
  · subst changes
    cases read : Wire.Dydx.Batch.ofFrame? frame with
    | none => rw [Wire.Dydx.store_of_no_batch read]
    | some b =>
        rw [Wire.Dydx.decode_frame_of_batch read]
        apply Wire.Dydx.Batch.book?_applyTo_of_ne
        rintro rfl
        exact other (symbolOf?_of_batch read)
  · obtain ⟨event, decoded⟩ := decode_stateless changes now frame
    rw [decoded]

theorem depth_decode (venue : Venue) (now : Nat) (store : BookStore) (frame : String) :
    (venue.decode now store frame).2.depth = store.depth := by
  by_cases changes : venue = .dydx
  · subst changes
    cases read : Wire.Dydx.Batch.ofFrame? frame with
    | none => rw [Wire.Dydx.store_of_no_batch read]
    | some b =>
        rw [Wire.Dydx.decode_frame_of_batch read]
        exact b.depth_applyTo now store
  · obtain ⟨event, decoded⟩ := decode_stateless changes now frame
    rw [decoded]

/-- What a frame means for the market that it names depends on the book of that market alone. -/
theorem decode_congr {venue : Venue} {frame symbol : String}
    (named : venue.symbolOf? frame = some symbol) (now : Nat) {a b : BookStore}
    (depth : a.depth = b.depth) (book : a.book? symbol = b.book? symbol) :
    (venue.decode now a frame).1 = (venue.decode now b frame).1 ∧
      (venue.decode now a frame).2.book? symbol = (venue.decode now b frame).2.book? symbol := by
  by_cases changes : venue = .dydx
  · subst changes
    cases read : Wire.Dydx.Batch.ofFrame? frame with
    | none =>
        obtain ⟨event, decoded, _⟩ := Wire.Dydx.decode_frame_of_no_batch read now
        rw [decoded, decoded]
        exact ⟨rfl, book⟩
    | some batch =>
        cases (symbolOf?_of_batch read).symm.trans named
        have same : batch.bookAfter a = batch.bookAfter b := by
          rw [Wire.Dydx.Batch.bookAfter, Wire.Dydx.Batch.bookAfter, book]
        rw [Wire.Dydx.decode_frame_of_batch read, Wire.Dydx.decode_frame_of_batch read,
          Wire.Dydx.Batch.book?_applyTo_self, Wire.Dydx.Batch.book?_applyTo_self, same]
        refine ⟨?_, rfl⟩
        rw [Wire.Dydx.Batch.applyTo_eq, Wire.Dydx.Batch.applyTo_eq, same, depth]
  · obtain ⟨event, decoded⟩ := decode_stateless changes now frame
    rw [decoded, decoded]
    exact ⟨rfl, book⟩

end Venue

end Tape
