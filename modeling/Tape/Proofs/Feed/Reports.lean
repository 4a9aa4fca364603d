import Tape.Proofs.Delta.Changes
import Tape.Proofs.Feed.Tally

/-!
# What a reaction publishes

Without a bus nothing is published. With one a trade is reported, and so is a book, unless it is
held back because nothing changed in it; that never happens where whole books are published.
-/

namespace Tape

namespace DeltaEncoder

/-- A book of which all that would be published is as it was, and no checkpoint is due. -/
def isUnchanged (e : DeltaEncoder) (book : Snapshot) (depth now : Nat) : Bool :=
  match SymbolTable.get? book.symbol e.published with
  | none => false
  | some previous =>
      !e.isDue previous now && (bidChanges previous.bids (book.bids.take depth)).isEmpty &&
        (askChanges previous.asks (book.asks.take depth)).isEmpty

theorem isSome_next (e : DeltaEncoder) (book : Snapshot) (depth now : Nat) :
    (e.next book depth now).1.isSome = !e.isUnchanged book depth now := by
  rw [isUnchanged]
  rcases e.next_cases book depth now with ⟨due, call⟩ | ⟨previous, found, notDue, call⟩
  · rw [call]
    cases found : SymbolTable.get? book.symbol e.published with
    | none => rfl
    | some previous => simp [due previous found]
  · simp only [found, notDue]
    rcases call with ⟨bids, asks, call⟩ | ⟨changed, call⟩
    · simp [call, bids, asks]
    · simpa [call, imp_iff_not_or] using changed

end DeltaEncoder

namespace Session

variable {s : Session} {now : Instant} {signal : Signal} {turn : Turn}

/-- Whether nothing is published of a book because nothing changed in it. -/
def holdsBack (s : Session) (now : Nat) (book : Snapshot) : Bool :=
  match s.encoder with
  | none => false
  | some encoder => encoder.isUnchanged book s.profile.options.depth now

/-- How many books are held back of an event. -/
def heldBack (s : Session) (now : Instant) : Event → Nat
  | .book book => (s.holdsBack now.encoded book).toNat
  | _ => 0

/-- How many books are held back over a signal. -/
def suppressed (s : Session) (now : Instant) : Signal → Nat
  | .arrived (.frame text) =>
      if s.phase = .frame then s.heldBack now (s.decoded now text).1 else 0
  | _ => 0

theorem isSome_update (s : Session) (now : Nat) (book : Snapshot) :
    (s.update now book).1.isSome = !s.holdsBack now book := by
  rw [update, holdsBack]
  cases s.encoder with
  | none => rfl
  | some encoder => exact encoder.isSome_next book s.profile.options.depth now

/-! ## Reports of a reaction -/

/-- Without a bus nothing is published. -/
theorem published_onEvent_of_silent (silent : s.profile.publishes = false) (now : Instant)
    (event : Event) : (s.onEvent now event).counts.published = 0 := by
  have answer := s.answers now event
  generalize s.onEvent now event = turn at answer
  cases answer with
  | trade t window held =>
      rw [silent]
      rfl
  | book b window held =>
      rw [update?, silent]
      rfl
  | lostTrade => rfl
  | lostBook => rfl
  | heartbeat => rfl
  | unknown => rfl
  | rejected error => rfl

theorem Reacts.published_of_silent (reacts : s.Reacts now signal turn)
    (silent : s.profile.publishes = false) : turn.counts.published = 0 := by
  cases reacts with
  | frame text waits =>
      rw [onFrame_eq]
      exact published_onEvent_of_silent (s := s.takeIn now text) silent now _
  | finished waits => rfl
  | failed error waits => rfl
  | reconnected reply waits => cases reply <;> rfl
  | sent reply waits => cases reply <;> rfl
  | closed reply waits => rfl
  | stopped open' => rfl
  | idle signal other => rfl

/-- With a bus a trade is reported, and so is a book, unless nothing changed in it. -/
theorem published_onEvent (publishes : s.profile.publishes = true)
    (room : s.profile.options.HasRoom) (now : Instant) (event : Event) :
    (s.onEvent now event).counts.published + s.heldBack now event =
      (s.onEvent now event).counts.trades + (s.onEvent now event).counts.books := by
  cases event with
  | trade t =>
      obtain ⟨window, held⟩ := window?_of_hasRoom room s.tradeWindows t.symbol
      rw [onEvent, onTrade_of_window held, publishes]
      rfl
  | book book =>
      obtain ⟨window, held⟩ := window?_of_hasRoom room s.bookWindows book.symbol
      have counts : (s.onBook now.encoded book).counts =
          if !s.holdsBack now.encoded book then .oneBook + .onePublished else .oneBook := by
        rw [onBook_of_window held, update?, if_pos publishes, isSome_update]
      rw [onEvent, counts, heldBack]
      cases s.holdsBack now.encoded book <;> rfl
  | heartbeat => rfl
  | unknown => rfl
  | rejected error => rfl

theorem Reacts.published (reacts : s.Reacts now signal turn)
    (publishes : s.profile.publishes = true) (room : s.profile.options.HasRoom) :
    turn.counts.published + s.suppressed now signal = turn.counts.trades + turn.counts.books := by
  cases reacts with
  | frame text waits =>
      rw [onFrame_eq, suppressed, if_pos waits]
      exact published_onEvent (s := s.takeIn now text) publishes room now _
  | finished waits => rfl
  | failed error waits => rfl
  | reconnected reply waits => cases reply <;> rfl
  | sent reply waits => cases reply <;> rfl
  | closed reply waits => rfl
  | stopped open' => rfl
  | idle signal other =>
      have none : s.suppressed now signal = 0 := by
        unfold suppressed
        split
        next =>
          rw [if_neg]
          intro waits
          simp [takes, waits] at other
        next => rfl
      rw [none]
      rfl

/-! ## Whole books -/

theorem encoderAfter_of_no_encoder (absent : s.encoder = none) (now : Nat) (book : Snapshot) :
    s.encoderAfter now book = none := by
  rw [encoderAfter, update, absent]
  exact ite_self none

theorem encoder_onEvent (absent : s.encoder = none) (now : Instant) (event : Event) :
    (s.onEvent now event).session.encoder = none := by
  have answer := s.answers now event
  generalize s.onEvent now event = turn at answer
  cases answer with
  | book b window held => exact encoderAfter_of_no_encoder absent _ _
  | trade t window held => exact absent
  | lostTrade => exact absent
  | lostBook => exact absent
  | heartbeat => exact absent
  | unknown => exact absent
  | rejected error => exact absent

/-- A session that publishes whole books does so for good. -/
theorem Reacts.encoder (reacts : s.Reacts now signal turn) (absent : s.encoder = none) :
    turn.session.encoder = none := by
  cases reacts with
  | frame text waits =>
      rw [onFrame_eq]
      exact encoder_onEvent (s := s.takeIn now text) absent now _
  | finished waits => exact absent
  | failed error waits => exact absent
  | reconnected reply waits =>
      cases reply with
      | none =>
          rw [onReconnected, absent]
          rfl
      | some error => exact absent
  | sent reply waits => cases reply <;> exact absent
  | closed reply waits => exact absent
  | stopped open' => exact absent
  | idle signal other => exact absent

theorem suppressed_of_no_encoder (absent : s.encoder = none) (now : Instant) (signal : Signal) :
    s.suppressed now signal = 0 := by
  have none : ∀ event, s.heldBack now event = 0 := by
    intro event
    cases event <;> simp [heldBack, holdsBack, absent]
  unfold suppressed
  split
  next => rw [none, ite_self]
  next => rfl

end Session

end Tape
