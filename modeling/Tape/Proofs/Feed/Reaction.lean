import Tape.Feed.Session

/-!
# Reactions of a session

What a session does with a trade, with a book and with a frame, whatever its settings are: what its
listener is told, what is published, and what it keeps. Windows that are too large to be had are the
only thing that can end a session over an event.
-/

namespace Tape

namespace ReportStream

theorem append_name_ne (rest other : String) : trades.name ++ rest ≠ books.name ++ other := by
  intro same
  have heads := congrArg (fun s : String => s.toList.head?) same
  simp [name, String.toList_append] at heads

/-- Keys tell streams and symbols apart. -/
theorem key_inj {venue : Venue} {stream other : ReportStream} {symbol symbol' : String} :
    key venue stream symbol = key venue other symbol' ↔ stream = other ∧ symbol = symbol' := by
  constructor
  · intro same
    have tails : stream.name ++ (":" ++ symbol) = other.name ++ (":" ++ symbol') :=
      String.append_right_inj ":" |>.1 (String.append_right_inj venue.name |>.1 same)
    cases stream with
    | trades =>
        cases other with
        | trades => exact ⟨rfl, by simpa [String.append_right_inj] using tails⟩
        | books => exact absurd tails (append_name_ne _ _)
    | books =>
        cases other with
        | trades => exact absurd tails.symm (append_name_ne _ _)
        | books => exact ⟨rfl, by simpa [String.append_right_inj] using tails⟩
  · rintro ⟨rfl, rfl⟩
    rfl

end ReportStream

/-- Windows of the chosen size can be had. -/
def OutputOptions.HasRoom (o : OutputOptions) : Prop := 8 * max o.window 1 ≤ Window.byteLimit

instance (o : OutputOptions) : Decidable o.HasRoom := Nat.decLe _ _

/-- The numbers after an event, which takes the next one under its key when it is reported. -/
def Session.numbersAfter (reported : Bool) (key : String) (numbers : SymbolTable Nat) :
    SymbolTable Nat :=
  if reported then SymbolTable.set key (nextNumber numbers key) numbers else numbers

namespace Session

variable {s : Session} {window : Window Float}

/-- The keys of a session tell streams and symbols apart. -/
theorem key_ne {stream other : ReportStream} {symbol symbol' : String}
    (apart : ¬(stream = other ∧ symbol = symbol')) : s.key other symbol' ≠ s.key stream symbol :=
  fun same => apart (ReportStream.key_inj.1 same.symm)

theorem get?_numbersAfter_of_ne {key other : String} (differs : key ≠ other) (reported : Bool)
    (numbers : SymbolTable Nat) :
    SymbolTable.get? key (numbersAfter reported other numbers) = SymbolTable.get? key numbers := by
  rw [numbersAfter]
  split
  · exact SymbolTable.get?_set_of_ne differs _ _
  · rfl

theorem window?_of_hasRoom (room : s.profile.options.HasRoom)
    (windows : SymbolTable (Window Float)) (symbol : String) :
    ∃ window, s.window? windows symbol = some window := by
  rw [window?]
  cases SymbolTable.get? symbol windows with
  | some window => exact ⟨window, rfl⟩
  | none => exact ⟨_, if_pos room⟩

/-- What is told counts for nothing where its effect does. -/
theorem filterMap_told {β : Type} {f : Effect → Option β} {effect : Effect}
    (silent : f effect = none) (s : Session) : (s.told effect).filterMap f = [] := by
  rw [told]
  split
  · rw [List.filterMap_cons_none silent, List.filterMap_nil]
  · rfl

/-! ## Trades -/

/-- The report of a trade, which only a bus gets. -/
def tradeReport? (s : Session) (t : Trade) (window : Window Float) : Option TradeReport :=
  if s.profile.publishes then
    some (.ofTrade t (nextNumber s.numbers (s.key .trades t.symbol))
      (TradeMetrics.compute t.price t.amount window).1)
  else none

theorem onTrade_of_no_window {t : Trade} (absent : s.window? s.tradeWindows t.symbol = none) :
    s.onTrade t = s.crash .oneTrade := by
  rw [onTrade, absent]

/-- A trade is told, and reported under the next number of its symbol. -/
theorem onTrade_of_window {t : Trade} (held : s.window? s.tradeWindows t.symbol = some window) :
    s.onTrade t =
      ⟨s.told (.trade t) ++ ((s.tradeReport? t window).map Effect.publishTrade).toList,
        if s.profile.publishes then .oneTrade + .onePublished else .oneTrade,
        { s with
          tradeWindows := SymbolTable.set t.symbol
            (TradeMetrics.compute t.price t.amount window).2 s.tradeWindows
          numbers := numbersAfter s.profile.publishes (s.key .trades t.symbol) s.numbers }⟩ := by
  rw [onTrade, held]
  cases publishes : s.profile.publishes with
  | false =>
      simp only [publishes, tradeReport?, numbersAfter, Bool.false_eq_true, if_false]
      exact congrArg (Turn.mk · _ _) (List.append_nil _).symm
  | true =>
      simp only [publishes, tradeReport?, numbersAfter, if_true]
      rfl

/-! ## Books -/

/-- What is published of a book, if anything. -/
def update? (s : Session) (now : Nat) (book : Snapshot) : Option BookUpdate :=
  if s.profile.publishes then (s.update now book).1 else none

def bookReport? (s : Session) (now : Nat) (book : Snapshot) (window : Window Float) :
    Option BookReport :=
  (s.update? now book).map fun update =>
    .ofBook book (nextNumber s.numbers (s.key .books book.symbol)) update
      (BookMetrics.compute book.bids book.asks s.profile.options.depth window).1

/-- The encoder after a book, which only a bus moves on. -/
def encoderAfter (s : Session) (now : Nat) (book : Snapshot) : Option DeltaEncoder :=
  if s.profile.publishes then (s.update now book).2 else s.encoder

theorem onBook_of_no_window {now : Nat} {book : Snapshot}
    (absent : s.window? s.bookWindows book.symbol = none) :
    s.onBook now book = s.crash .oneBook := by
  rw [onBook, absent]

/-- A book is told; when something is published of it, it is reported under the next number. -/
theorem onBook_of_window {now : Nat} {book : Snapshot}
    (held : s.window? s.bookWindows book.symbol = some window) :
    s.onBook now book =
      ⟨s.told (.book book) ++ ((s.bookReport? now book window).map Effect.publishBook).toList,
        if (s.update? now book).isSome then .oneBook + .onePublished else .oneBook,
        { s with
          bookWindows := SymbolTable.set book.symbol
            (BookMetrics.compute book.bids book.asks s.profile.options.depth window).2 s.bookWindows
          numbers := numbersAfter (s.update? now book).isSome (s.key .books book.symbol) s.numbers
          encoder := s.encoderAfter now book }⟩ := by
  rw [onBook, held]
  cases publishes : s.profile.publishes with
  | false =>
      simp only [publishes, bookReport?, update?, numbersAfter, encoderAfter, Bool.false_eq_true,
        if_false]
      exact congrArg (Turn.mk · _ _) (List.append_nil _).symm
  | true =>
      have same : ∀ windows, ({ s with bookWindows := windows } : Session).update now book =
        s.update now book := fun _ => rfl
      simp only [publishes, if_true, same, bookReport?, update?, numbersAfter, encoderAfter]
      cases (s.update now book).1 with
      | none => exact congrArg (Turn.mk · _ _) (List.append_nil _).symm
      | some update => rfl

/-! ## Frames -/

/-- The reaction to what a frame means. -/
def onEvent (s : Session) (now : Instant) : Event → Turn
  | .trade t => s.onTrade t
  | .book book => s.onBook now.encoded book
  | .heartbeat | .unknown => ⟨[], .zero, s⟩
  | .rejected error => ⟨s.told (.error error.message), .oneError, s⟩

/-- What a frame means, and the books after it. -/
def decoded (s : Session) (now : Instant) (text : String) : Event × BookStore :=
  s.profile.venue.decode now.decoded s.store text

/-- The session with the books after a frame. -/
def takeIn (s : Session) (now : Instant) (text : String) : Session :=
  { s with store := (s.decoded now text).2 }

theorem onFrame_eq (s : Session) (now : Instant) (text : String) :
    s.onFrame now text = (s.takeIn now text).onEvent now (s.decoded now text).1 := by
  rw [onFrame, takeIn, decoded]
  generalize s.profile.venue.decode now.decoded s.store text = answer
  obtain ⟨event, store⟩ := answer
  cases event <;> rfl

/-- What a session can do about an event. -/
inductive Answers (s : Session) (now : Instant) : Event → Turn → Prop where
  | trade (t : Trade) (window : Window Float)
      (held : s.window? s.tradeWindows t.symbol = some window) :
      Answers s now (.trade t)
        ⟨s.told (.trade t) ++ ((s.tradeReport? t window).map Effect.publishTrade).toList,
          if s.profile.publishes then .oneTrade + .onePublished else .oneTrade,
          { s with
            tradeWindows := SymbolTable.set t.symbol
              (TradeMetrics.compute t.price t.amount window).2 s.tradeWindows
            numbers := numbersAfter s.profile.publishes (s.key .trades t.symbol) s.numbers }⟩
  | lostTrade (t : Trade) (absent : s.window? s.tradeWindows t.symbol = none) :
      Answers s now (.trade t) (s.crash .oneTrade)
  | book (b : Snapshot) (window : Window Float)
      (held : s.window? s.bookWindows b.symbol = some window) :
      Answers s now (.book b)
        ⟨s.told (.book b) ++
            ((s.bookReport? now.encoded b window).map Effect.publishBook).toList,
          if (s.update? now.encoded b).isSome then .oneBook + .onePublished else .oneBook,
          { s with
            bookWindows := SymbolTable.set b.symbol
              (BookMetrics.compute b.bids b.asks s.profile.options.depth window).2 s.bookWindows
            numbers :=
              numbersAfter (s.update? now.encoded b).isSome (s.key .books b.symbol) s.numbers
            encoder := s.encoderAfter now.encoded b }⟩
  | lostBook (b : Snapshot) (absent : s.window? s.bookWindows b.symbol = none) :
      Answers s now (.book b) (s.crash .oneBook)
  | heartbeat : Answers s now .heartbeat ⟨[], .zero, s⟩
  | unknown : Answers s now .unknown ⟨[], .zero, s⟩
  | rejected (error : FeedError) :
      Answers s now (.rejected error) ⟨s.told (.error error.message), .oneError, s⟩

theorem answers (s : Session) (now : Instant) (event : Event) :
    s.Answers now event (s.onEvent now event) := by
  cases event with
  | trade t =>
      cases held : s.window? s.tradeWindows t.symbol with
      | none =>
          rw [onEvent, onTrade_of_no_window held]
          exact .lostTrade t held
      | some window =>
          rw [onEvent, onTrade_of_window held]
          exact .trade t window held
  | book b =>
      cases held : s.window? s.bookWindows b.symbol with
      | none =>
          rw [onEvent, onBook_of_no_window held]
          exact .lostBook b held
      | some window =>
          rw [onEvent, onBook_of_window held]
          exact .book b window held
  | heartbeat => exact .heartbeat
  | unknown => exact .unknown
  | rejected error => exact .rejected error

theorem profile_onEvent (s : Session) (now : Instant) (event : Event) :
    (s.onEvent now event).session.profile = s.profile := by
  have answer := s.answers now event
  generalize s.onEvent now event = turn at answer
  cases answer <;> rfl

/-- With room for windows an event does not end a session. -/
theorem phase_onEvent (room : s.profile.options.HasRoom) (now : Instant) (event : Event) :
    (s.onEvent now event).session.phase = s.phase := by
  cases event with
  | trade t =>
      obtain ⟨window, held⟩ := window?_of_hasRoom room s.tradeWindows t.symbol
      show (s.onTrade t).session.phase = s.phase
      rw [onTrade_of_window held]
  | book book =>
      obtain ⟨window, held⟩ := window?_of_hasRoom room s.bookWindows book.symbol
      show (s.onBook _ book).session.phase = s.phase
      rw [onBook_of_window held]
  | heartbeat => rfl
  | unknown => rfl
  | rejected error => rfl

theorem profile_onFrame (s : Session) (now : Instant) (text : String) :
    (s.onFrame now text).session.profile = s.profile := by
  rw [onFrame_eq]
  exact profile_onEvent (s.takeIn now text) now _

theorem phase_onFrame (room : s.profile.options.HasRoom) (now : Instant) (text : String) :
    (s.onFrame now text).session.phase = s.phase := by
  rw [onFrame_eq]
  exact phase_onEvent (s := s.takeIn now text) room now _

/-! ## Signals -/

/-- Whether a signal belongs to a phase. -/
def takes : Phase → Signal → Bool
  | .frame, .arrived _ | .frame, .stop => true
  | .reconnect, .replied _ | .reconnect, .stop => true
  | .send, .replied _ | .send, .stop => true
  | .close, .replied _ => true
  | _, _ => false

/-- What a session can do about a signal. -/
inductive Reacts (s : Session) (now : Instant) : Signal → Turn → Prop where
  | frame (text : String) (waits : s.phase = .frame) :
      Reacts s now (.arrived (.frame text)) (s.onFrame now text)
  | finished (waits : s.phase = .frame) :
      Reacts s now (.arrived .finished) (s.onFailure (endMessage s.profile.venue))
  | failed (error : FeedError) (waits : s.phase = .frame) :
      Reacts s now (.arrived (.failed error)) (s.onFailure error.message)
  | reconnected (reply : Reply) (waits : s.phase = .reconnect) :
      Reacts s now (.replied reply) (s.onReconnected reply)
  | sent (reply : Reply) (waits : s.phase = .send) : Reacts s now (.replied reply) (s.onSent reply)
  | closed (reply : Reply) (waits : s.phase = .close) :
      Reacts s now (.replied reply) ⟨[], .zero, { s with phase := .ended }⟩
  | stopped (open' : takes s.phase .stop = true) :
      Reacts s now .stop ⟨[.close], .zero, { s with phase := .close }⟩
  | idle (signal : Signal) (other : takes s.phase signal = false) :
      Reacts s now signal ⟨[], .zero, s⟩

theorem react_of_not_takes {now : Instant} {signal : Signal}
    (other : takes s.phase signal = false) :
    s.react now signal = ⟨[], .zero, s⟩ := by
  unfold react
  split
  all_goals first | rfl | simp_all [takes]

theorem react_stop {now : Instant} (open' : takes s.phase .stop = true) :
    s.react now .stop = ⟨[.close], .zero, { s with phase := .close }⟩ := by
  unfold react
  split
  all_goals simp_all [takes]

theorem reacts (s : Session) (now : Instant) (signal : Signal) :
    Reacts s now signal (s.react now signal) := by
  cases own : takes s.phase signal with
  | false =>
      rw [react_of_not_takes own]
      exact .idle signal own
  | true =>
      cases signal with
      | stop =>
          rw [react_stop own]
          exact .stopped own
      | arrived arrival =>
          have waits : s.phase = .frame := by
            cases phase : s.phase <;> simp_all [takes]
          simp only [react, waits, onArrival]
          cases arrival with
          | frame text => exact .frame text waits
          | finished => exact .finished waits
          | failed error => exact .failed error waits
      | replied reply =>
          cases phase : s.phase with
          | reconnect =>
              simp only [react, phase]
              exact .reconnected reply phase
          | send =>
              simp only [react, phase]
              exact .sent reply phase
          | close =>
              simp only [react, phase]
              exact .closed reply phase
          | frame => simp [takes, phase] at own
          | ended => simp [takes, phase] at own

theorem react_frame (waits : s.phase = .frame) (now : Instant) (text : String) :
    s.react now (.arrived (.frame text)) = s.onFrame now text := by
  simp only [react, waits, onArrival]

theorem Reacts.profile {now : Instant} {signal : Signal} {turn : Turn}
    (reacts : Reacts s now signal turn) : turn.session.profile = s.profile := by
  cases reacts with
  | frame text waits => exact profile_onFrame s now text
  | finished waits => rfl
  | failed error waits => rfl
  | reconnected reply waits => cases reply <;> rfl
  | sent reply waits => cases reply <;> rfl
  | closed reply waits => rfl
  | stopped open' => rfl
  | idle signal other => rfl

/-! ## Runs -/

/-- The reactions to signals one after another, as one turn. -/
def reactAll (s : Session) : List (Instant × Signal) → Turn
  | [] => ⟨[], .zero, s⟩
  | (now, signal) :: rest =>
      let turn := s.react now signal
      let later := turn.session.reactAll rest
      ⟨turn.effects ++ later.effects, turn.counts + later.counts, later.session⟩

/-- The reactions to frames, each received at its time. -/
def receiveAll (s : Session) (frames : List (Instant × String)) : Turn :=
  s.reactAll (frames.map fun frame => (frame.1, .arrived (.frame frame.2)))

end Session

end Tape
