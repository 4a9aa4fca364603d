import Tape.Proofs.Feed.Account
import Tape.Proofs.Feed.Separation

/-!
# Reconnects

After a reconnect a session goes on as one that was just started. Windows and numbers stay from
before, but nothing that is shown of a trade or of a book depends on them, apart from the metrics
and the numbers of reports; the books and what was published of them are forgotten, so that the
first book of each symbol is published whole again.
-/

namespace Tape

/-! ## What is shown -/

/-- A sight without the number of its report. -/
def Sight.unnumbered : Sight → Sight
  | tradeReport _ t => tradeReport 0 t
  | bookReport _ venue symbol stamp update => bookReport 0 venue symbol stamp update
  | sight => sight

namespace Effect

/-- What is seen of effects, apart from the numbers and the metrics of reports. -/
def shown (effects : List Effect) : List Sight := (effects.filterMap sight?).map Sight.unnumbered

theorem shown_append (first second : List Effect) :
    shown (first ++ second) = shown first ++ shown second := by
  simp only [shown, List.filterMap_append, List.map_append]

/-- Whether a listener is told of a book of the symbol, or something is published of one. -/
def isBookOf (symbol : String) : Effect → Bool
  | book b => b.symbol = symbol
  | publishBook r => r.symbol = symbol
  | _ => false

def booksOf (symbol : String) (effects : List Effect) : List Effect :=
  effects.filter (isBookOf symbol)

theorem booksOf_append (symbol : String) (first second : List Effect) :
    booksOf symbol (first ++ second) = booksOf symbol first ++ booksOf symbol second :=
  List.filter_append _ _

theorem booksOf_of_symbol?_ne {symbol : String} {effects : List Effect}
    (other : ∀ effect ∈ effects, effect.symbol? ≠ some symbol) : booksOf symbol effects = [] := by
  rw [booksOf, List.filter_eq_nil_iff]
  intro effect member own
  refine other effect member ?_
  cases effect <;> simp_all [isBookOf, symbol?]

end Effect

/-- A book of a symbol comes first, and is published whole, as a checkpoint. -/
def BeginsWhole (profile : Profile) (symbol : String) (effects : List Effect) : Prop :=
  ∃ book report rest,
    Effect.booksOf symbol effects =
        (if profile.listens then [.book book] else []) ++ .publishBook report :: rest ∧
      report.update =
        ⟨.checkpoint, book.bids.take profile.options.depth, book.asks.take profile.options.depth⟩

theorem BeginsWhole.append {profile : Profile} {symbol : String} {effects : List Effect}
    (begins : BeginsWhole profile symbol effects) (others : List Effect) :
    BeginsWhole profile symbol (effects ++ others) := by
  obtain ⟨book, report, rest, first, whole⟩ := begins
  refine ⟨book, report, rest ++ Effect.booksOf symbol others, ?_, whole⟩
  rw [Effect.booksOf_append, first, List.append_assoc]
  rfl

namespace Session

variable {s a b : Session} {now : Instant} {signal : Signal} {turn : Turn}

theorem shown_tradeReport (s : Session) (t : Trade) (window : Window Float) :
    Effect.shown ((s.tradeReport? t window).map Effect.publishTrade).toList =
      if s.profile.publishes then [.tradeReport 0 t] else [] := by
  rw [tradeReport?]
  split <;> rfl

theorem shown_bookReport (s : Session) (now : Nat) (book : Snapshot) (window : Window Float) :
    Effect.shown ((s.bookReport? now book window).map Effect.publishBook).toList =
      ((s.update? now book).map
        (Sight.bookReport 0 book.venue book.symbol book.stamp)).toList := by
  rw [bookReport?]
  cases s.update? now book <;> rfl

/-! ## Windows that cannot be had -/

theorem Cramped.reacts (cramped : s.Cramped) (reacts : s.Reacts now signal turn) :
    turn.session.Cramped := by
  have same : ∀ session : Session, session.profile = s.profile →
      session.tradeWindows = s.tradeWindows → session.bookWindows = s.bookWindows →
      session.Cramped := by
    intro session profile trades books
    exact ⟨profile ▸ cramped.noRoom, trades.trans cramped.trades, books.trans cramped.books⟩
  cases reacts with
  | frame text waits =>
      have taken : (s.takeIn now text).Cramped := same _ rfl rfl rfl
      rw [onFrame_eq]
      exact (taken.onEvent "" now _).2
  | finished waits => exact same _ rfl rfl rfl
  | failed error waits => exact same _ rfl rfl rfl
  | reconnected reply waits => cases reply <;> exact same _ rfl rfl rfl
  | sent reply waits => cases reply <;> exact same _ rfl rfl rfl
  | closed reply waits => exact same _ rfl rfl rfl
  | stopped open' => exact same _ rfl rfl rfl
  | idle signal other => exact cramped

/-- Whether windows can be had does not hang on what happened before. -/
def IsSteady (s : Session) : Prop := s.profile.options.HasRoom ∨ s.Cramped

theorem isSteady_start (profile : Profile) : (start profile).IsSteady := by
  by_cases room : profile.options.HasRoom
  · exact .inl room
  · exact .inr ⟨room, rfl, rfl⟩

theorem IsSteady.reacts (steady : s.IsSteady) (reacts : s.Reacts now signal turn) :
    turn.session.IsSteady := by
  refine steady.imp (fun room => ?_) fun cramped => cramped.reacts reacts
  rw [reacts.profile]
  exact room

/-! ## Two sessions side by side -/

/-- Two sessions that differ in their windows and numbers alone. -/
structure Alike (a b : Session) : Prop where
  profile : a.profile = b.profile
  phase : a.phase = b.phase
  store : a.store = b.store
  encoder : a.encoder = b.encoder

theorem Alike.isSome_window? (alike : Alike a b) (steadyA : a.IsSteady) (steadyB : b.IsSteady)
    (symbol : String) :
    (a.window? a.tradeWindows symbol).isSome = (b.window? b.tradeWindows symbol).isSome ∧
      (a.window? a.bookWindows symbol).isSome = (b.window? b.bookWindows symbol).isSome := by
  -- The windows differ, but with room each symbol has one and without room none ever had.
  by_cases room : a.profile.options.HasRoom
  · have room' : b.profile.options.HasRoom := alike.profile ▸ room
    have held : ∀ {s : Session}, s.profile.options.HasRoom → ∀ windows,
        (s.window? windows symbol).isSome = true := by
      intro s room windows
      obtain ⟨window, held⟩ := window?_of_hasRoom room windows symbol
      rw [held]
      rfl
    exact ⟨(held room _).trans (held room' _).symm, (held room _).trans (held room' _).symm⟩
  · have crampedA := steadyA.resolve_left room
    have crampedB := steadyB.resolve_left (alike.profile ▸ room)
    rw [crampedA.trades, crampedA.books, crampedB.trades, crampedB.books]
    exact ⟨congrArg _ (window?_congr alike.profile rfl),
      congrArg _ (window?_congr alike.profile rfl)⟩

/-- An event is shown alike, and leaves the two sessions alike. -/
theorem Alike.onEvent (alike : Alike a b) (steadyA : a.IsSteady) (steadyB : b.IsSteady)
    (now : Instant)
    (event : Event) :
    Effect.shown (a.onEvent now event).effects = Effect.shown (b.onEvent now event).effects ∧
      Alike (a.onEvent now event).session (b.onEvent now event).session := by
  have windows := alike.isSome_window? steadyA steadyB
  cases event with
  | trade t =>
      have both := (windows t.symbol).1
      rw [Session.onEvent, Session.onEvent]
      cases first : a.window? a.tradeWindows t.symbol with
      | none =>
          rw [first] at both
          rw [onTrade_of_no_window first, onTrade_of_no_window (Option.not_isSome_iff_eq_none.1
            (by rw [← both]; exact Bool.false_ne_true))]
          exact ⟨rfl, alike.profile, rfl, alike.store, alike.encoder⟩
      | some window =>
          rw [first] at both
          obtain ⟨other, second⟩ := Option.isSome_iff_exists.1 both.symm
          rw [onTrade_of_window first, onTrade_of_window second]
          refine ⟨?_, alike.profile, alike.phase, alike.store, alike.encoder⟩
          simp only [Effect.shown_append, shown_tradeReport, told_congr alike.profile,
            alike.profile]
  | book book =>
      have both := (windows book.symbol).2
      rw [Session.onEvent, Session.onEvent]
      cases first : a.window? a.bookWindows book.symbol with
      | none =>
          rw [first] at both
          rw [onBook_of_no_window first, onBook_of_no_window (Option.not_isSome_iff_eq_none.1
            (by rw [← both]; exact Bool.false_ne_true))]
          exact ⟨rfl, alike.profile, rfl, alike.store, alike.encoder⟩
      | some window =>
          rw [first] at both
          obtain ⟨other, second⟩ := Option.isSome_iff_exists.1 both.symm
          have update : a.update now.encoded book = b.update now.encoded book := by
            rw [Session.update, Session.update, alike.encoder, alike.profile]
          rw [onBook_of_window first, onBook_of_window second]
          refine ⟨?_, alike.profile, alike.phase, alike.store, ?_⟩
          · simp only [Effect.shown_append, shown_bookReport, told_congr alike.profile, update?,
              update, alike.profile]
          · simp only [encoderAfter, update, alike.profile, alike.encoder]
  | heartbeat => exact ⟨rfl, alike⟩
  | unknown => exact ⟨rfl, alike⟩
  | rejected error => exact ⟨congrArg Effect.shown (told_congr alike.profile _), alike⟩

theorem Alike.onFrame (alike : Alike a b) (steadyA : a.IsSteady) (steadyB : b.IsSteady)
    (now : Instant)
    (text : String) :
    Effect.shown (a.onFrame now text).effects = Effect.shown (b.onFrame now text).effects ∧
      Alike (a.onFrame now text).session (b.onFrame now text).session := by
  have decoded : a.decoded now text = b.decoded now text := by
    rw [Session.decoded, Session.decoded, alike.profile, alike.store]
  have taken : Alike (a.takeIn now text) (b.takeIn now text) :=
    ⟨alike.profile, alike.phase, congrArg Prod.snd decoded, alike.encoder⟩
  have steady : ∀ {s : Session}, s.IsSteady → (s.takeIn now text).IsSteady :=
    fun steady => steady.imp_right fun cramped => ⟨cramped.noRoom, cramped.trades, cramped.books⟩
  rw [onFrame_eq, onFrame_eq, ← decoded]
  exact taken.onEvent (steady steadyA) (steady steadyB) now _

theorem Alike.react (alike : Alike a b) (steadyA : a.IsSteady) (steadyB : b.IsSteady)
    (now : Instant)
    (signal : Signal) :
    Effect.shown (a.react now signal).effects = Effect.shown (b.react now signal).effects ∧
      Alike (a.react now signal).session (b.react now signal).session := by
  obtain ⟨profile, phase, store, encoder⟩ := alike
  have told : ∀ effect, a.told effect = b.told effect := told_congr profile
  have reaction := a.reacts now signal
  generalize a.react now signal = turn at reaction
  cases reaction with
  | frame text waits =>
      rw [react_frame (phase ▸ waits)]
      exact Alike.onFrame ⟨profile, phase, store, encoder⟩ steadyA steadyB now text
  | finished waits =>
      simp only [Session.react, ← phase, waits, onArrival, onFailure, told, profile]
      exact ⟨trivial, rfl, rfl, store, encoder⟩
  | failed error waits =>
      simp only [Session.react, ← phase, waits, onArrival, onFailure, told]
      exact ⟨trivial, profile, rfl, store, encoder⟩
  | reconnected reply waits =>
      cases reply with
      | none =>
          simp only [Session.react, ← phase, waits, onReconnected, profile]
          exact ⟨trivial, rfl, rfl, congrArg BookStore.clear store,
            congrArg (Option.map DeltaEncoder.clear) encoder⟩
      | some error =>
          simp only [Session.react, ← phase, waits, onReconnected, told]
          exact ⟨trivial, profile, rfl, store, encoder⟩
  | sent reply waits =>
      cases reply with
      | none =>
          simp only [Session.react, ← phase, waits, onSent]
          exact ⟨trivial, profile, rfl, store, encoder⟩
      | some error =>
          simp only [Session.react, ← phase, waits, onSent, told]
          exact ⟨trivial, profile, rfl, store, encoder⟩
  | closed reply waits =>
      simp only [Session.react, ← phase, waits]
      exact ⟨trivial, profile, rfl, store, encoder⟩
  | stopped open' =>
      rw [react_stop (phase ▸ open')]
      exact ⟨rfl, profile, rfl, store, encoder⟩
  | idle signal other =>
      rw [react_of_not_takes (phase ▸ other)]
      exact ⟨rfl, profile, phase, store, encoder⟩

theorem Alike.reactAll (alike : Alike a b) (steadyA : a.IsSteady) (steadyB : b.IsSteady)
    (signals : List (Instant × Signal)) :
    Effect.shown (a.reactAll signals).effects = Effect.shown (b.reactAll signals).effects := by
  induction signals generalizing a b with
  | nil => rfl
  | cons first rest ih =>
      obtain ⟨now, signal⟩ := first
      obtain ⟨shown, still⟩ := alike.react steadyA steadyB now signal
      have later := ih still (steadyA.reacts (a.reacts now signal))
        (steadyB.reacts (b.reacts now signal))
      simp only [Session.reactAll, Effect.shown_append, shown, later]

/-! ## What a reconnect leaves -/

/-- What a session would keep if it forgot its books and what it published of them. -/
structure IsRooted (s : Session) : Prop where
  store : s.store.clear = (start s.profile).store
  encoder : s.encoder.map DeltaEncoder.clear = (start s.profile).encoder
  steady : s.IsSteady

theorem isRooted_start (profile : Profile) : (start profile).IsRooted where
  store := rfl
  encoder := by
    show (encoderOf profile.options.mode).map DeltaEncoder.clear = encoderOf profile.options.mode
    cases profile.options.mode <;> rfl
  steady := isSteady_start profile

theorem clear_decode (venue : Venue) (now : Nat) (store : BookStore) (frame : String) :
    (venue.decode now store frame).2.clear = store.clear := by
  rw [BookStore.clear, BookStore.clear, Venue.depth_decode]

theorem clear_encoderAfter (s : Session) (now : Nat) (book : Snapshot) :
    (s.encoderAfter now book).map DeltaEncoder.clear = s.encoder.map DeltaEncoder.clear := by
  rw [encoderAfter]
  split
  · rw [update]
    cases s.encoder with
    | none => rfl
    | some encoder => simp only [Option.map_some, DeltaEncoder.clear, encoder.interval_next]
  · rfl

theorem IsRooted.onEvent (rooted : s.IsRooted) (now : Instant) (event : Event) :
    (s.onEvent now event).session.store.clear = (start s.profile).store ∧
      (s.onEvent now event).session.encoder.map DeltaEncoder.clear =
        (start s.profile).encoder := by
  have answer := s.answers now event
  generalize s.onEvent now event = turn at answer
  cases answer with
  | book b window held =>
      exact ⟨rooted.store, (clear_encoderAfter s _ b).trans rooted.encoder⟩
  | trade t window held => exact ⟨rooted.store, rooted.encoder⟩
  | lostTrade => exact ⟨rooted.store, rooted.encoder⟩
  | lostBook => exact ⟨rooted.store, rooted.encoder⟩
  | heartbeat => exact ⟨rooted.store, rooted.encoder⟩
  | unknown => exact ⟨rooted.store, rooted.encoder⟩
  | rejected error => exact ⟨rooted.store, rooted.encoder⟩

theorem IsRooted.reacts (rooted : s.IsRooted) (reacts : s.Reacts now signal turn) :
    turn.session.IsRooted := by
  have steady := rooted.steady.reacts reacts
  have profile := reacts.profile
  have kept : turn.session.store.clear = (start s.profile).store ∧
      turn.session.encoder.map DeltaEncoder.clear = (start s.profile).encoder := by
    cases reacts with
    | frame text waits =>
        have taken : (s.takeIn now text).IsRooted :=
          ⟨(clear_decode _ _ _ _).trans rooted.store, rooted.encoder,
            rooted.steady.imp_right fun cramped =>
              ⟨cramped.noRoom, cramped.trades, cramped.books⟩⟩
        rw [onFrame_eq]
        exact taken.onEvent now _
    | finished waits => exact ⟨rooted.store, rooted.encoder⟩
    | failed error waits => exact ⟨rooted.store, rooted.encoder⟩
    | reconnected reply waits =>
        cases reply with
        | none =>
            refine ⟨rooted.store, ?_⟩
            rw [← rooted.encoder, onReconnected]
            cases s.encoder <;> rfl
        | some error => exact ⟨rooted.store, rooted.encoder⟩
    | sent reply waits => cases reply <;> exact ⟨rooted.store, rooted.encoder⟩
    | closed reply waits => exact ⟨rooted.store, rooted.encoder⟩
    | stopped open' => exact ⟨rooted.store, rooted.encoder⟩
    | idle signal other => exact ⟨rooted.store, rooted.encoder⟩
  rw [← profile] at kept
  exact ⟨kept.1, kept.2, steady⟩

theorem IsRooted.reactAll (rooted : s.IsRooted) (signals : List (Instant × Signal)) :
    (s.reactAll signals).session.IsRooted ∧ (s.reactAll signals).session.profile = s.profile := by
  induction signals generalizing s with
  | nil => exact ⟨rooted, rfl⟩
  | cons first rest ih =>
      obtain ⟨now, signal⟩ := first
      have reaction := s.reacts now signal
      obtain ⟨later, profile⟩ := ih (rooted.reacts reaction)
      exact ⟨later, profile.trans reaction.profile⟩

/-- The session after a reconnect, when the subscription was sent again. -/
def resumed (s : Session) (early late : Nat) (reply : Reply) : Session :=
  (s.reactAll [(early, .replied none), (late, .replied reply)]).session

/-- A reconnect takes a session back to its start, but for windows and numbers. -/
theorem IsRooted.resumed (rooted : s.IsRooted) (pending : s.phase = .reconnect) (early late : Nat)
    (reply : Reply) :
    Alike (s.resumed early late reply) (start s.profile) ∧
      (s.resumed early late reply).IsSteady := by
  have steady : (s.resumed early late reply).IsSteady := (rooted.reactAll _).1.steady
  refine ⟨?_, steady⟩
  have reopened : s.react early (.replied none) = s.onReconnected none := by
    simp only [react, pending]
  have resent : (s.onReconnected none).session.react late (.replied reply) =
      (s.onReconnected none).session.onSent reply := by
    simp only [react, onReconnected]
  simp only [Session.resumed, Session.reactAll, reopened, resent]
  cases reply <;> exact ⟨rfl, rfl, rooted.store, rooted.encoder⟩

/-! ## Checkpoints -/

/-- Of a symbol nothing is remembered as published. -/
def Unpublished (s : Session) (symbol : String) : Prop :=
  ∃ encoder, s.encoder = some encoder ∧ SymbolTable.get? symbol encoder.published = none

variable {symbol : String}

theorem booksOf_trade (s : Session) (t : Trade) (window : Window Float) :
    Effect.booksOf symbol
      (s.told (.trade t) ++ ((s.tradeReport? t window).map Effect.publishTrade).toList) = [] := by
  rw [Session.told, tradeReport?]
  split <;> split <;> rfl

theorem booksOf_error (s : Session) (message : String) :
    Effect.booksOf symbol (s.told (.error message)) = [] := by
  rw [Session.told]
  split <;> rfl

theorem booksOf_book (s : Session) {book : Snapshot} {report : BookReport}
    (same : report.symbol = book.symbol) :
    Effect.booksOf book.symbol (s.told (.book book) ++ [.publishBook report]) =
      (if s.profile.listens then [.book book] else []) ++ [.publishBook report] := by
  rw [Session.told]
  split <;> simp [Effect.booksOf, Effect.isBookOf, same]

/-- The first book of a symbol is published whole. -/
theorem Unpublished.update (unpublished : s.Unpublished symbol) {book : Snapshot}
    (own : book.symbol = symbol) (now : Nat) :
    (s.update now book).1 = some ⟨.checkpoint, book.bids.take s.profile.options.depth,
      book.asks.take s.profile.options.depth⟩ := by
  obtain ⟨encoder, held, none⟩ := unpublished
  subst own
  simp only [Session.update, held, DeltaEncoder.next, none]

theorem Unpublished.encoderAfter (unpublished : s.Unpublished symbol) {book : Snapshot}
    (other : symbol ≠ book.symbol) (now : Nat) :
    ∃ encoder, s.encoderAfter now book = some encoder ∧
      SymbolTable.get? symbol encoder.published = none := by
  obtain ⟨encoder, held, none⟩ := unpublished
  rw [Session.encoderAfter]
  split
  · refine ⟨_, by simp only [Session.update, held]; rfl, ?_⟩
    rw [encoder.get?_next_of_ne book _ _ other]
    exact none
  · exact ⟨encoder, held, none⟩

theorem Unpublished.onEvent (unpublished : s.Unpublished symbol)
    (publishes : s.profile.publishes = true) (now : Instant) (event : Event) :
    Effect.booksOf symbol (s.onEvent now event).effects = [] ∧
        (s.onEvent now event).session.Unpublished symbol ∨
      BeginsWhole s.profile symbol (s.onEvent now event).effects := by
  have answer := s.answers now event
  have about : ∀ effect ∈ (s.onEvent now event).effects, effect.symbol? = event.symbol? :=
    fun effect shown => symbol?_of_mem_onEvent shown
  generalize s.onEvent now event = turn at answer about
  cases answer with
  | trade t window held => exact .inl ⟨booksOf_trade s t window, unpublished⟩
  | book b window held =>
      by_cases own : b.symbol = symbol
      · subst own
        rw [bookReport?, update?, if_pos publishes, unpublished.update rfl, Option.map_some,
          Option.map_some, Option.toList_some]
        exact .inr ⟨b, _, [], s.booksOf_book rfl, rfl⟩
      · refine .inl ⟨Effect.booksOf_of_symbol?_ne ?_, unpublished.encoderAfter (Ne.symm own) _⟩
        intro effect member same
        rw [about effect member] at same
        exact own (Option.some.inj same)
  | lostTrade => exact .inl ⟨rfl, unpublished⟩
  | lostBook => exact .inl ⟨rfl, unpublished⟩
  | heartbeat => exact .inl ⟨rfl, unpublished⟩
  | unknown => exact .inl ⟨rfl, unpublished⟩
  | rejected error => exact .inl ⟨booksOf_error s _, unpublished⟩

theorem Unpublished.reacts (unpublished : s.Unpublished symbol)
    (publishes : s.profile.publishes = true) (reacts : s.Reacts now signal turn) :
    Effect.booksOf symbol turn.effects = [] ∧ turn.session.Unpublished symbol ∨
      BeginsWhole s.profile symbol turn.effects := by
  have told : ∀ message call, Effect.isBookOf symbol call = false →
      Effect.booksOf symbol (s.told (.error message) ++ [call]) = [] := by
    intro message call other
    rw [Effect.booksOf_append, booksOf_error]
    simp [Effect.booksOf, other]
  cases reacts with
  | frame text waits =>
      rw [onFrame_eq]
      have taken : (s.takeIn now text).Unpublished symbol := unpublished
      exact taken.onEvent publishes now _
  | finished waits => exact .inl ⟨told _ _ rfl, unpublished⟩
  | failed error waits => exact .inl ⟨told _ _ rfl, unpublished⟩
  | reconnected reply waits =>
      cases reply with
      | none =>
          obtain ⟨encoder, held, none⟩ := unpublished
          exact .inl ⟨rfl, encoder.clear, by rw [onReconnected, held]; rfl, rfl⟩
      | some error => exact .inl ⟨told _ _ rfl, unpublished⟩
  | sent reply waits =>
      cases reply with
      | none => exact .inl ⟨rfl, unpublished⟩
      | some error => exact .inl ⟨booksOf_error s _, unpublished⟩
  | closed reply waits => exact .inl ⟨rfl, unpublished⟩
  | stopped open' => exact .inl ⟨rfl, unpublished⟩
  | idle signal other => exact .inl ⟨rfl, unpublished⟩

theorem Unpublished.reactAll (unpublished : s.Unpublished symbol)
    (publishes : s.profile.publishes = true) (signals : List (Instant × Signal)) :
    Effect.booksOf symbol (s.reactAll signals).effects = [] ∨
      BeginsWhole s.profile symbol (s.reactAll signals).effects := by
  induction signals generalizing s with
  | nil => exact .inl rfl
  | cons first rest ih =>
      obtain ⟨now, signal⟩ := first
      have reaction := s.reacts now signal
      rw [Session.reactAll]
      rcases unpublished.reacts publishes reaction with ⟨none, still⟩ | begins
      · have later := ih still (by rw [reaction.profile]; exact publishes)
        rw [reaction.profile] at later
        simp only [BeginsWhole, Effect.booksOf_append, none, List.nil_append] at later ⊢
        exact later
      · exact .inr (begins.append _)

/-! ## After a reconnect -/

/-- Whatever happened before a reconnect, what is shown after it is what a session shows that was
started then: the same trades and books, and reports of the same content. Where changes are
published, the first book of each symbol is a checkpoint. -/
theorem shown_after_reconnect {profile : Profile} {history : List (Instant × Signal)}
    (pending : ((start profile).reactAll history).session.phase = .reconnect) (early late : Nat)
    (reply : Reply) (signals : List (Instant × Signal)) :
    let resumed := ((start profile).reactAll history).session.resumed early late reply
    Effect.shown (resumed.reactAll signals).effects =
        Effect.shown ((start profile).reactAll signals).effects ∧
      ∀ interval symbol, profile.options.mode = .deltas interval → profile.publishes = true →
        Effect.booksOf symbol (resumed.reactAll signals).effects = [] ∨
          BeginsWhole profile symbol (resumed.reactAll signals).effects := by
  intro resumed
  obtain ⟨rooted, same⟩ := (isRooted_start profile).reactAll history
  obtain ⟨alike, steady⟩ := rooted.resumed pending early late reply
  rw [same] at alike
  refine ⟨alike.reactAll steady (isSteady_start profile) signals, ?_⟩
  intro interval symbol mode publishes
  have unpublished : resumed.Unpublished symbol := by
    refine ⟨.new interval, ?_, rfl⟩
    rw [alike.encoder]
    exact congrArg encoderOf mode
  have whole := unpublished.reactAll (by rw [alike.profile]; exact publishes) signals
  rw [alike.profile] at whole
  exact whole

/-- A book that was held before the stream ended is gone after the reconnect, though changes come
before the venue sends it anew. -/
theorem shown_after_reconnect_of_changes :
    let profile : Profile := ⟨.dydx, "", ⟨.deltas none, 10, 20⟩, true, true⟩
    let opened := "\x7b\x22type\x22:\x22subscribed\x22,\x22channel\x22:\x22v4_orderbook\x22," ++
      "\x22id\x22:\x22BTC-USD\x22,\x22contents\x22:\x7b\x22bids\x22:[[\x2299\x22,2]]\x7d\x7d"
    let changed := "\x7b\x22type\x22:\x22channel_batch_data\x22," ++
      "\x22channel\x22:\x22v4_orderbook\x22,\x22id\x22:\x22BTC-USD\x22," ++
      "\x22contents\x22:[\x7b\x22bids\x22:[[\x2298\x22,\x221\x22]]\x7d]\x7d"
    let history : List (Instant × Signal) :=
      [(1, .arrived (.frame opened)), (2, .arrived .finished)]
    let later : List (Instant × Signal) := [(5, .arrived (.frame changed))]
    let before := ((start profile).reactAll history).session
    before.phase = .reconnect ∧
      Effect.shown ((before.resumed 3 4 none).reactAll later).effects =
        [.book ⟨.dydx, "BTC-USD", 5, [⟨98, 1⟩], []⟩,
          .bookReport 0 .dydx "BTC-USD" 5 ⟨.checkpoint, [⟨98, 1⟩], []⟩] ∧
      BeginsWhole profile "BTC-USD" ((before.resumed 3 4 none).reactAll later).effects := by
  intro profile opened changed history later before
  have pending : before.phase = .reconnect := by decide +kernel
  obtain ⟨shown, opens⟩ := shown_after_reconnect pending 3 4 none later
  have any : Effect.booksOf "BTC-USD" ((before.resumed 3 4 none).reactAll later).effects ≠ [] := by
    decide +kernel
  refine ⟨pending, ?_, (opens none "BTC-USD" rfl rfl).resolve_left any⟩
  rw [shown]
  decide +kernel

end Session

end Tape
