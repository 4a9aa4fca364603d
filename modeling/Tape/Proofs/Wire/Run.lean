import Tape.Proofs.Book.Side
import Tape.Proofs.Wire.Batch
import Tape.Wire.Codec

/-!
# Runs of the codecs

A run feeds frames to a codec one after another. A frame with a batch changes the book of its symbol
alone; every other frame leaves the store as it was.
-/

namespace Tape

/-- The books after frames, each received at its time. -/
def Venue.storeAfter (venue : Venue) (store : BookStore) (frames : List (Nat × String)) :
    BookStore :=
  frames.foldl (fun store frame => (venue.decode frame.1 store frame.2).2) store

theorem Venue.storeAfter_append (venue : Venue) (store : BookStore)
    (frames : List (Nat × String)) (now : Nat) (frame : String) :
    venue.storeAfter store (frames ++ [(now, frame)]) =
      (venue.decode now (venue.storeAfter store frames) frame).2 :=
  List.foldl_append

/-- What frames mean one after another. -/
def Venue.events (venue : Venue) (store : BookStore) : List (Nat × String) → List Event
  | [] => []
  | (now, frame) :: rest =>
      let answer := venue.decode now store frame
      answer.1 :: venue.events answer.2 rest

namespace Wire.Dydx

namespace Batch

/-- The book that a batch leaves for its symbol. -/
def bookAfter (b : Batch) (store : BookStore) : LiveBook :=
  (if b.replaces then .empty else (store.book? b.symbol).getD .empty).applyGroups b.groups

theorem applyTo_eq (b : Batch) (now : Nat) (store : BookStore) :
    b.applyTo now store =
      (if (b.bookAfter store).isEmpty then .unknown
        else .book ((b.bookAfter store).snapshot venue b.symbol now store.depth),
        ⟨store.depth, SymbolTable.set b.symbol (b.bookAfter store)
          (if b.replaces then SymbolTable.erase b.symbol store.books else store.books)⟩) := by
  have held : ((if b.replaces then store.reset b.symbol else store).book? b.symbol).getD .empty =
      if b.replaces then .empty else (store.book? b.symbol).getD .empty := by
    split
    · rw [BookStore.book?, BookStore.reset, SymbolTable.get?_erase_self]
      rfl
    · rfl
  rw [applyTo, BookStore.merge, held, bookAfter]
  cases b.replaces <;> cases LiveBook.isEmpty _ <;> rfl

theorem depth_applyTo (b : Batch) (now : Nat) (store : BookStore) :
    (b.applyTo now store).2.depth = store.depth := by
  rw [applyTo_eq]

theorem book?_applyTo_self (b : Batch) (now : Nat) (store : BookStore) :
    (b.applyTo now store).2.book? b.symbol = some (b.bookAfter store) := by
  rw [applyTo_eq]
  exact SymbolTable.get?_set_self _ _ _

theorem book?_applyTo_of_ne (b : Batch) (now : Nat) (store : BookStore) {symbol : String}
    (differs : symbol ≠ b.symbol) :
    (b.applyTo now store).2.book? symbol = store.book? symbol := by
  rw [applyTo_eq]
  refine (SymbolTable.get?_set_of_ne differs _ _).trans ?_
  split
  · exact SymbolTable.get?_erase_of_ne differs _
  · rfl

/-! ## Changes of a batch -/

theorem proper_of_groupOf? {members : List (String × Json)} {group : ChangeGroup}
    (read : groupOf? members = some group) :
    (∀ change ∈ group.bids, change.Proper) ∧ ∀ change ∈ group.asks, change.Proper := by
  simp only [groupOf?, Option.bind_eq_bind, Option.bind_eq_some_iff] at read
  obtain ⟨bids, _, asks, _, made⟩ := read
  cases made
  exact ⟨fun c member => LevelChange.proper_of_mem_ofItems member,
    fun c member => LevelChange.proper_of_mem_ofItems member⟩

theorem proper_of_mapM_groupOf? {updates : List (List (String × Json))}
    {groups : List ChangeGroup} (read : updates.mapM groupOf? = some groups) :
    ∀ group ∈ groups,
      (∀ change ∈ group.bids, change.Proper) ∧ ∀ change ∈ group.asks, change.Proper := by
  induction updates generalizing groups with
  | nil =>
      cases read
      intro group member
      cases member
  | cons members rest ih =>
      rw [List.mapM_cons] at read
      simp only [Option.bind_eq_bind, Option.bind_eq_some_iff] at read
      obtain ⟨first, here, others, there, made⟩ := read
      cases made
      intro group member
      rcases List.mem_cons.1 member with rfl | later
      · exact proper_of_groupOf? here
      · exact ih there group later

theorem proper_of_groupsOf? {contents : Json} {groups : List ChangeGroup}
    (read : groupsOf? contents = some groups) :
    ∀ group ∈ groups,
      (∀ change ∈ group.bids, change.Proper) ∧ ∀ change ∈ group.asks, change.Proper := by
  cases contents with
  | record members =>
      obtain ⟨only, known, rfl⟩ := Option.map_eq_some_iff.1 read
      intro group member
      rw [List.mem_singleton.1 member]
      exact proper_of_groupOf? known
  | list updates => exact proper_of_mapM_groupOf? read
  | null => cases read
  | flag b => cases read
  | number n => cases read
  | text s => cases read

/-- Every change of a batch can stand for a level. -/
structure Proper (b : Batch) : Prop where
  bids : ∀ change ∈ b.bids, change.Proper
  asks : ∀ change ∈ b.asks, change.Proper

theorem proper_of_ofFrame? {frame : String} {batch : Batch} (read : ofFrame? frame = some batch) :
    batch.Proper := by
  rw [ofFrame?] at read
  split at read
  next v known =>
    obtain ⟨_, _, _, _, contents, _, _, hasGroups, _, _⟩ := ofJson?_eq_some read
    have proper := proper_of_groupsOf? hasGroups
    constructor
    · intro change member
      obtain ⟨group, held, here⟩ := List.mem_flatMap.1 member
      exact (proper group held).1 change here
    · intro change member
      obtain ⟨group, held, here⟩ := List.mem_flatMap.1 member
      exact (proper group held).2 change here
  next => cases read

end Batch

/-! ## Frames -/

theorem decode_frame_of_batch {frame : String} {batch : Batch}
    (read : Batch.ofFrame? frame = some batch) (now : Nat) (store : BookStore) :
    Venue.dydx.decode now store frame = batch.applyTo now store := by
  rw [Batch.ofFrame?] at read
  split at read
  next v known =>
    have decoded := decode_of_batch (Json.ordered_of_read known) read now store
    simp only [Venue.decode, known, Venue.decodeJson, decoded, Event.ofAnswer]
  next => cases read

/-- A frame without a batch has an answer that does not depend on the store, and is no book. -/
theorem decode_frame_of_no_batch {frame : String} (unread : Batch.ofFrame? frame = none)
    (now : Nat) :
    ∃ event : Event, (∀ store, Venue.dydx.decode now store frame = (event, store)) ∧
      (event = .heartbeat ∨ event = .unknown ∨ (∃ error, event = .rejected error) ∨
        ∃ symbol contents, decodeTrade now symbol contents = .ok event) := by
  rw [Batch.ofFrame?] at unread
  split at unread
  next v known =>
    obtain ⟨answer, decoded, kind⟩ := decode_of_no_batch (Json.ordered_of_read known) unread now
    refine ⟨.ofAnswer answer, fun store => ?_, ?_⟩
    · simp only [Venue.decode, known, Venue.decodeJson, decoded]
    · rcases kind with rfl | rfl | ⟨error, rfl⟩ | ⟨symbol, same⟩
      · exact .inl rfl
      · exact .inr (.inl rfl)
      · exact .inr (.inr (.inl ⟨error, rfl⟩))
      · cases answer with
        | error error => exact .inr (.inr (.inl ⟨error, rfl⟩))
        | ok event => exact .inr (.inr (.inr ⟨symbol, _, same.symm⟩))
  next error known =>
    refine ⟨.unknown, fun store => ?_, .inr (.inl rfl)⟩
    simp only [Venue.decode, known]

theorem decodeTrade_eq_ok {now : Nat} {symbol : String} {contents : Option Json} {event : Event}
    (decoded : decodeTrade now symbol contents = .ok event) : ∃ trade, event = .trade trade := by
  unfold decodeTrade at decoded
  split at decoded
  next => cases decoded
  next contents =>
    split at decoded
    next first _ _ =>
      cases read : payload venue "v4_trades" TradePayload.read first with
      | error error =>
          rw [read] at decoded
          cases decoded
      | ok trade =>
          rw [read] at decoded
          cases decoded
          exact ⟨_, rfl⟩
    next => cases decoded

theorem store_of_no_batch {frame : String} (unread : Batch.ofFrame? frame = none) (now : Nat)
    (store : BookStore) : (Venue.dydx.decode now store frame).2 = store := by
  obtain ⟨event, decoded, _⟩ := decode_frame_of_no_batch unread now
  rw [decoded]

theorem frameClass_ne_book_of_no_batch {frame : String} (unread : Batch.ofFrame? frame = none)
    (now : Nat) (store : BookStore) :
    (Venue.dydx.decode now store frame).1.frameClass ≠ .book := by
  obtain ⟨event, decoded, kind⟩ := decode_frame_of_no_batch unread now
  rw [decoded]
  intro same
  rcases kind with rfl | rfl | ⟨error, rfl⟩ | ⟨symbol, contents, trade⟩
  · cases same
  · cases same
  · cases same
  · obtain ⟨only, rfl⟩ := decodeTrade_eq_ok trade
    cases same

/-- On the channel of books, a frame without a batch is a sign of life or an error. -/
theorem frameClass_of_no_batch {frame : String} {v : Json} (known : Json.read frame = .ok v)
    (channel : v.getText? "channel" = some "v4_orderbook") (unread : Batch.ofFrame? frame = none)
    (now : Nat) (store : BookStore) :
    (Venue.dydx.decode now store frame).1.frameClass =
      if isControl (v.getText? "type") (v.get? "contents") then .heartbeat else .error := by
  have noBatch : Batch.ofJson? v = none := by
    rw [Batch.ofFrame?, known] at unread
    exact unread
  rcases decode_orderbook_of_no_batch (Json.ordered_of_read known) channel noBatch now with
    ⟨control, alive⟩ | ⟨control, error, refused⟩
  · simp only [Venue.decode, known, Venue.decodeJson, alive, control]
    rfl
  · simp only [Venue.decode, known, Venue.decodeJson, refused, control]
    rfl

end Wire.Dydx

end Tape
