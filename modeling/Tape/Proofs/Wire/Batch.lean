import Tape.Proofs.Schema.Plain
import Tape.Wire.Dydx

/-!
# Accepted batches

A batch is what one frame asks of the book of one symbol. Here it is read off the members of the
frame directly; the decoder applies it when there is one, and leaves the store alone otherwise.
-/

namespace Tape.Wire

/-! ## Contents of frames -/

theorem payload_eq_ok {α : Type} {venue : Venue} {what : String}
    {read : Json → Except Schema.Fault α} {v : Json} {a : α} :
    payload venue what read v = .ok a ↔ read v = .ok a := by
  rw [payload]
  cases read v with
  | error fault => constructor <;> intro h <;> cases h
  | ok b => constructor <;> intro h <;> cases h <;> rfl

theorem readItems_eq_ok {v : Json} {items : List Json} :
    readItems v = .ok items ↔ v.items? = some items := by
  cases v with
  | list held => constructor <;> intro h <;> cases h <;> rfl
  | null => constructor <;> intro h <;> cases h
  | flag b => constructor <;> intro h <;> cases h
  | number n => constructor <;> intro h <;> cases h
  | text s => constructor <;> intro h <;> cases h
  | record members => constructor <;> intro h <;> cases h

namespace Dydx

/-- What an accepted frame asks of the book of one symbol. -/
structure Batch where
  symbol : String
  replaces : Bool
  groups : List ChangeGroup

namespace Batch

def bids (b : Batch) : List LevelChange := b.groups.flatMap ChangeGroup.bids

def asks (b : Batch) : List LevelChange := b.groups.flatMap ChangeGroup.asks

/-- The items of a member that may be left out and has to be a list. -/
def itemsOf? : Option Json → Option (List Json)
  | none => some []
  | some v => v.items?

def groupOf? (members : List (String × Json)) : Option ChangeGroup := do
  let bids ← itemsOf? (Json.find? "bids" members)
  let asks ← itemsOf? (Json.find? "asks" members)
  return ⟨LevelChange.ofItems bids, LevelChange.ofItems asks⟩

def membersOf? : Json → Option (List (String × Json))
  | .record members => some members
  | _ => none

/-- The groups of a record, or of the records in a list, all of which have to be readable. -/
def groupsOf? : Json → Option (List ChangeGroup)
  | .record members => (groupOf? members).map fun group => [group]
  | .list updates => (updates.filterMap membersOf?).mapM groupOf?
  | _ => none

/-- The batch of a frame that is JSON. -/
def ofJson? (v : Json) : Option Batch :=
  let type := v.getText? "type"
  if v.getText? "channel" = some "v4_orderbook" ∧ type ≠ some "connected" ∧
      type ≠ some "unsubscribed" then do
    let id ← v.getText? "id"
    let contents ← v.get? "contents"
    let groups ← groupsOf? contents
    return ⟨Text.upper id, type = some "subscribed", groups⟩
  else none

/-- The batch of a frame, if it is accepted. -/
def ofFrame? (frame : String) : Option Batch :=
  match Json.read frame with
  | .ok v => ofJson? v
  | .error _ => none

/-! ## Groups as they are read -/

theorem optionalItemsField_build_eq_ok {name : String} {find : String → Option Json}
    {absent : String → Schema.Fault} {items : List Json} :
    (optionalItemsField name).build find absent = .ok items ↔
      itemsOf? (find name) = some items := by
  simp only [optionalItemsField, Schema.Record.optional]
  cases find name with
  | none => constructor <;> intro h <;> cases h <;> rfl
  | some v => exact readItems_eq_ok

theorem plain_bookFields : BookPayload.fields.Plain :=
  ((Schema.Record.plain_optional "bids" [] readItems).map BookPayload.mk).seq
    (Schema.Record.plain_optional "asks" [] readItems)

theorem readGroup_eq_ok {members : List (String × Json)} (rising : Json.Rising members)
    {group : ChangeGroup} :
    readGroup (.record members) = .ok group ↔ groupOf? members = some group := by
  have built : ∀ p : BookPayload, BookPayload.read (.record members) = .ok p ↔
      itemsOf? (Json.find? "bids" members) = some p.bids ∧
        itemsOf? (Json.find? "asks" members) = some p.asks := by
    intro p
    rw [BookPayload.read, plain_bookFields.read_record rising, BookPayload.fields,
      Schema.Record.seq_build_eq_ok]
    simp only [Schema.Record.map_build_eq_ok, optionalItemsField_build_eq_ok]
    constructor
    · rintro ⟨_, asks, ⟨bids, hasBids, rfl⟩, hasAsks, rfl⟩
      exact ⟨hasBids, hasAsks⟩
    · rintro ⟨hasBids, hasAsks⟩
      exact ⟨_, p.asks, ⟨p.bids, hasBids, rfl⟩, hasAsks, rfl⟩
  rw [readGroup, map_eq_ok]
  simp only [payload_eq_ok, built, groupOf?, Option.bind_eq_bind, Option.bind_eq_some_iff]
  constructor
  · rintro ⟨p, ⟨hasBids, hasAsks⟩, made⟩
    cases made
    exact ⟨p.bids, hasBids, p.asks, hasAsks, rfl⟩
  · rintro ⟨bids, hasBids, asks, hasAsks, made⟩
    cases made
    exact ⟨⟨bids, asks⟩, ⟨hasBids, hasAsks⟩, rfl⟩

theorem mapM_readGroup_eq_ok {updates : List Json} (ordered : ∀ v ∈ updates, v.Ordered)
    {groups : List ChangeGroup} :
    (updates.filter Json.isRecord).mapM readGroup = .ok groups ↔
      (updates.filterMap membersOf?).mapM groupOf? = some groups := by
  induction updates generalizing groups with
  | nil => constructor <;> intro h <;> cases h <;> rfl
  | cons first rest ih =>
      have later := @ih fun v member => ordered v (List.mem_cons_of_mem _ member)
      cases first with
      | record members =>
          have rising := (ordered _ List.mem_cons_self).rising
          have kept : (Json.record members :: rest).filter Json.isRecord =
            .record members :: rest.filter Json.isRecord := rfl
          have read : (Json.record members :: rest).filterMap membersOf? =
            members :: rest.filterMap membersOf? := rfl
          rw [kept, read, List.mapM_cons, List.mapM_cons]
          simp only [bind_eq_ok, readGroup_eq_ok rising, later, Option.bind_eq_bind,
            Option.bind_eq_some_iff]
          constructor
          · rintro ⟨group, here, others, there, made⟩
            cases made
            exact ⟨group, here, others, there, rfl⟩
          · rintro ⟨group, here, others, there, made⟩
            cases made
            exact ⟨group, here, others, there, rfl⟩
      | null => exact later
      | flag b => exact later
      | number n => exact later
      | text s => exact later
      | list items => exact later

theorem readGroups_eq_ok {contents : Json} (ordered : contents.Ordered) (symbol : String)
    {groups : List ChangeGroup} :
    readGroups symbol contents = .ok groups ↔ groupsOf? contents = some groups := by
  cases contents with
  | record members =>
      rw [readGroups, groupsOf?, map_eq_ok, Option.map_eq_some_iff]
      simp only [readGroup_eq_ok ordered.rising]
  | list updates => exact mapM_readGroup_eq_ok ordered.items
  | null => constructor <;> intro h <;> cases h
  | flag b => constructor <;> intro h <;> cases h
  | number n => constructor <;> intro h <;> cases h
  | text s => constructor <;> intro h <;> cases h

theorem ofJson?_eq_some {v : Json} {batch : Batch} (read : ofJson? v = some batch) :
    v.getText? "channel" = some "v4_orderbook" ∧ v.getText? "type" ≠ some "connected" ∧
      v.getText? "type" ≠ some "unsubscribed" ∧
      ∃ id contents, v.getText? "id" = some id ∧ v.get? "contents" = some contents ∧
        groupsOf? contents = some batch.groups ∧ batch.symbol = Text.upper id ∧
        batch.replaces = decide (v.getText? "type" = some "subscribed") := by
  simp only [ofJson?] at read
  split at read
  next kind =>
    simp only [Option.bind_eq_bind, Option.bind_eq_some_iff] at read
    obtain ⟨id, hasId, contents, hasContents, groups, hasGroups, made⟩ := read
    cases made
    exact ⟨kind.1, kind.2.1, kind.2.2, id, contents, hasId, hasContents, hasGroups, rfl, rfl⟩
  next => cases read

/-! ## The decoder on batches -/

/-- The answer to a batch, and the books after it. -/
def applyTo (b : Batch) (now : Nat) (store : BookStore) : Event × BookStore :=
  match (if b.replaces then store.reset b.symbol else store).merge venue b.symbol b.groups now with
  | (some book, store) => (.book book, store)
  | (none, store) => (.unknown, store)

end Batch

open Batch

theorem decodeBook_eq (now : Nat) (symbol : String) (contents : Json) (replaces : Bool)
    (store : BookStore) :
    decodeBook now symbol (some contents) replaces store =
      match readGroups symbol contents with
      | .error error => (.error error, store)
      | .ok groups =>
          let answer := Batch.applyTo ⟨symbol, replaces, groups⟩ now store
          (.ok answer.1, answer.2) := by
  simp only [decodeBook]
  cases readGroups symbol contents with
  | error error => rfl
  | ok groups =>
      simp only [Batch.applyTo]
      generalize (if replaces = true then store.reset symbol else store).merge venue symbol groups
        now = merged
      obtain ⟨_ | book, after⟩ := merged <;> rfl

theorem decode_of_batch {v : Json} (ordered : v.Ordered) {batch : Batch}
    (read : ofJson? v = some batch) (now : Nat) (store : BookStore) :
    decode now store v = (.ok (batch.applyTo now store).1, (batch.applyTo now store).2) := by
  obtain ⟨channel, notConnected, notUnsubscribed, id, contents, hasId, hasContents, hasGroups,
    symbol, replaces⟩ := ofJson?_eq_some read
  have groups := (readGroups_eq_ok (ordered.get? hasContents) (Text.upper id)).2 hasGroups
  have content : isControl (v.getText? "type") (some contents) = false := by
    simp [isControl, notConnected, notUnsubscribed]
  have market : marketOf v = .ok (Text.upper id) := by
    rw [marketOf, hasId]
  simp only [decode, hasContents, content, channel, market]
  change decodeBook now (Text.upper id) (some contents) _ store = _
  rw [decodeBook_eq, groups, ← replaces, ← symbol]

/-- On the channel of books, a frame without a batch is a sign of life or refused. -/
theorem decode_orderbook_of_no_batch {v : Json} (ordered : v.Ordered)
    (channel : v.getText? "channel" = some "v4_orderbook") (unread : ofJson? v = none) (now : Nat) :
    (isControl (v.getText? "type") (v.get? "contents") = true ∧
        ∀ store, decode now store v = (.ok .heartbeat, store)) ∨
      (isControl (v.getText? "type") (v.get? "contents") = false ∧
        ∃ error, ∀ store, decode now store v = (.error error, store)) := by
  cases content : isControl (v.getText? "type") (v.get? "contents") with
  | true =>
      left
      refine ⟨rfl, fun store => ?_⟩
      simp only [decode, content]
      rfl
  | false =>
      right
      refine ⟨rfl, ?_⟩
      simp only [decode, content, channel]
      cases market : marketOf v with
      | error error => exact ⟨error, fun store => rfl⟩
      | ok symbol =>
          cases hasContents : v.get? "contents" with
          | none => exact ⟨_, fun store => rfl⟩
          | some contents =>
              cases groups : readGroups symbol contents with
              | error error =>
                  refine ⟨error, fun store => ?_⟩
                  change decodeBook now symbol (some contents) _ store = _
                  rw [decodeBook_eq, groups]
              | ok read =>
                  have held := (readGroups_eq_ok (ordered.get? hasContents) symbol).1 groups
                  cases hasId : v.getText? "id" with
                  | none =>
                      rw [marketOf, hasId] at market
                      cases market
                  | some id =>
                      simp only [isControl, Bool.or_eq_false_iff, decide_eq_false_iff_not] at content
                      have kind : v.getText? "channel" = some "v4_orderbook" ∧
                          v.getText? "type" ≠ some "connected" ∧
                          v.getText? "type" ≠ some "unsubscribed" := ⟨channel, content.1⟩
                      simp only [ofJson?, if_pos kind, hasId, hasContents, Option.bind_eq_bind,
                        Option.bind_some, held] at unread
                      cases unread

/-- A frame without a batch leaves the store alone and means no book. -/
theorem decode_of_no_batch {v : Json} (ordered : v.Ordered) (unread : ofJson? v = none) (now : Nat) :
    ∃ answer : Except FeedError Event,
      (∀ store, decode now store v = (answer, store)) ∧
        (answer = .ok .heartbeat ∨ answer = .ok .unknown ∨ (∃ error, answer = .error error) ∨
          ∃ symbol, answer = decodeTrade now symbol (v.get? "contents")) := by
  by_cases channel : v.getText? "channel" = some "v4_orderbook"
  · rcases decode_orderbook_of_no_batch ordered channel unread now with
      ⟨_, alive⟩ | ⟨_, error, refused⟩
    · exact ⟨.ok .heartbeat, alive, .inl rfl⟩
    · exact ⟨.error error, refused, .inr (.inr (.inl ⟨error, rfl⟩))⟩
  · cases content : isControl (v.getText? "type") (v.get? "contents") with
    | true =>
        refine ⟨.ok .heartbeat, fun store => ?_, .inl rfl⟩
        simp only [decode, content]
        rfl
    | false =>
        simp only [decode, content]
        split
        next impossible => cases impossible
        next =>
          split
          next =>
            cases market : marketOf v with
            | error error => exact ⟨.error error, fun store => rfl, .inr (.inr (.inl ⟨error, rfl⟩))⟩
            | ok symbol => exact ⟨_, fun store => rfl, .inr (.inr (.inr ⟨symbol, rfl⟩))⟩
          next other => exact absurd other channel
          next => exact ⟨.ok .unknown, fun store => rfl, .inr (.inl rfl)⟩

end Dydx

end Tape.Wire
