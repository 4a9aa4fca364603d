import Tape.Proofs.Feed.Tally

/-!
# What a session shows of its frames

A ledger says what a listener and a bus see of frames, one after another: each frame is decoded
against the books that the frames before it left. A session that serves both shows just that, frame
by frame in the order of arrival, until it is stopped; then it closes its source and shows no more.
-/

namespace Tape

/-! ## Sights -/

/-- What is seen of an effect, short of the metrics of a report. -/
inductive Sight where
  | trade (trade : Trade)
  | book (book : Snapshot)
  | error (message : String)
  | tradeReport (number : Nat) (trade : Trade)
  | bookReport (number : Nat) (venue : Venue) (symbol : String) (stamp : Nat) (update : BookUpdate)
  deriving DecidableEq

/-- The trade that a report is of. -/
def TradeReport.trade (r : TradeReport) : Trade :=
  ⟨r.venue, r.symbol, r.price, r.quantity, r.side, r.id, r.stamp⟩

/-- What a report holds of a book. -/
def BookReport.update (r : BookReport) : BookUpdate := ⟨r.kind, r.bids, r.asks⟩

/-- A call of the source is seen by nobody. -/
def Effect.sight? : Effect → Option Sight
  | connect | send _ | reconnect | close => none
  | trade t => some (.trade t)
  | book b => some (.book b)
  | error message => some (.error message)
  | publishTrade r => some (.tradeReport r.sequence r.trade)
  | publishBook r => some (.bookReport r.sequence r.venue r.symbol r.stamp r.update)

/-! ## Ledgers -/

/-- What has to be remembered from one frame to the next. -/
structure Ledger where
  store : BookStore
  encoder : Option DeltaEncoder
  /-- How many trades of each symbol were reported. -/
  trades : String → Nat
  books : String → Nat

namespace Ledger

def new (mode : OutputMode) : Ledger :=
  ⟨.withDepth Snapshot.depthLimit, Session.encoderOf mode, fun _ => 0, fun _ => 0⟩

/-- One more of a symbol. -/
def bump (symbol : String) (counts : String → Nat) (other : String) : Nat :=
  if other = symbol then counts other + 1 else counts other

/-- What is published of a book: its first levels, or what the encoder makes of them. -/
def update (l : Ledger) (depth now : Nat) (book : Snapshot) :
    Option BookUpdate × Option DeltaEncoder :=
  match l.encoder with
  | none => (some ⟨.snapshot, book.bids.take depth, book.asks.take depth⟩, none)
  | some encoder =>
      let (update, encoder) := encoder.next book depth now
      (update, some encoder)

/-- What is seen of an event. -/
def see (l : Ledger) (options : OutputOptions) (now : Instant) : Event → List Sight × Ledger
  | .trade t =>
      ([.trade t, .tradeReport (l.trades t.symbol + 1) t],
        { l with trades := bump t.symbol l.trades })
  | .book b =>
      let (update, encoder) := l.update options.depth now.encoded b
      match update with
      | none => ([.book b], { l with encoder })
      | some update =>
          ([.book b, .bookReport (l.books b.symbol + 1) b.venue b.symbol b.stamp update],
            { l with encoder, books := bump b.symbol l.books })
  | .heartbeat | .unknown => ([], l)
  | .rejected error => ([.error error.message], l)

/-- A frame is decoded against the books that the ledger holds. -/
def enter (l : Ledger) (profile : Profile) (now : Instant) (text : String) : List Sight × Ledger :=
  let (event, store) := profile.venue.decode now.decoded l.store text
  { l with store }.see profile.options now event

def enterAll (l : Ledger) (profile : Profile) : List (Instant × String) → List Sight × Ledger
  | [] => ([], l)
  | (now, text) :: rest =>
      let (sights, l) := l.enter profile now text
      let (later, l) := l.enterAll profile rest
      (sights ++ later, l)

end Ledger

/-! ## Frames among signals -/

namespace Signal

/-- The stream ends or fails. -/
def isLoss : Signal → Bool
  | arrived .finished | arrived (.failed _) => true
  | _ => false

def frame? : Signal → Option String
  | arrived (.frame text) => some text
  | _ => none

/-- The frames among signals, each with its time. -/
def frames (signals : List (Instant × Signal)) : List (Instant × String) :=
  signals.filterMap fun signal => signal.2.frame?.map fun text => (signal.1, text)

/-- The signals before the first stop. -/
def untilStop (signals : List (Instant × Signal)) : List (Instant × Signal) :=
  signals.takeWhile fun signal => signal.2 ≠ .stop

theorem frames_untilStop_prefix (signals : List (Instant × Signal)) :
    frames (untilStop signals) <+: frames signals :=
  (List.takeWhile_prefix _).filterMap _

end Signal

namespace Session

variable {s : Session}

/-! ## One frame -/

/-- What a session remembers, as a ledger. -/
def ledger (s : Session) : Ledger :=
  ⟨s.store, s.encoder, fun symbol => (SymbolTable.get? (s.key .trades symbol) s.numbers).getD 0,
    fun symbol => (SymbolTable.get? (s.key .books symbol) s.numbers).getD 0⟩

/-- A session that waits for frames and has a listener, a bus and room for windows. -/
structure Serves (s : Session) : Prop where
  waits : s.phase = .frame
  listens : s.profile.listens = true
  publishes : s.profile.publishes = true
  room : s.profile.options.HasRoom

theorem serves_start {profile : Profile} (listens : profile.listens = true)
    (publishes : profile.publishes = true) (room : profile.options.HasRoom) :
    (start profile).Serves :=
  ⟨rfl, listens, publishes, room⟩

theorem numbersAfter_eq_bump (venue : Venue) (stream : ReportStream) (symbol : String)
    (numbers : SymbolTable Nat) :
    (fun other => (SymbolTable.get? (stream.key venue other)
        (numbersAfter true (stream.key venue symbol) numbers)).getD 0) =
      Ledger.bump symbol fun other =>
        (SymbolTable.get? (stream.key venue other) numbers).getD 0 := by
  funext other
  rw [Ledger.bump, numbersAfter, if_pos rfl]
  split
  next same =>
    rw [same, SymbolTable.get?_set_self]
    rfl
  next differs =>
    have apart : stream.key venue other ≠ stream.key venue symbol :=
      fun equal => differs (ReportStream.key_inj.1 equal).2
    rw [SymbolTable.get?_set_of_ne apart]

theorem numbersAfter_of_other_stream {stream counted : ReportStream} (apart : stream ≠ counted)
    (venue : Venue) (symbol : String) (numbers : SymbolTable Nat) :
    (fun other => (SymbolTable.get? (counted.key venue other)
        (numbersAfter true (stream.key venue symbol) numbers)).getD 0) =
      fun other => (SymbolTable.get? (counted.key venue other) numbers).getD 0 := by
  funext other
  rw [get?_numbersAfter_of_ne fun equal => apart (ReportStream.key_inj.1 equal).1.symm]

/-- A session shows of an event what its ledger says, and remembers what its ledger does. -/
theorem onEvent_eq_see (serves : s.Serves) (now : Instant) (event : Event) :
    let seen := s.ledger.see s.profile.options now event
    (s.onEvent now event).effects.map Effect.sight? = seen.1.map some ∧
      (s.onEvent now event).session.ledger = seen.2 := by
  cases event with
  | trade t =>
      obtain ⟨window, held⟩ := window?_of_hasRoom serves.room s.tradeWindows t.symbol
      simp only [onEvent, onTrade_of_window held, told_of_listens serves.listens, tradeReport?,
        serves.publishes, if_true]
      refine ⟨rfl, ?_⟩
      simp only [ledger, key, Ledger.see, numbersAfter_eq_bump,
        numbersAfter_of_other_stream (show ReportStream.trades ≠ .books by decide)]
  | book b =>
      obtain ⟨window, held⟩ := window?_of_hasRoom serves.room s.bookWindows b.symbol
      have same : s.update now.encoded b =
        s.ledger.update s.profile.options.depth now.encoded b := rfl
      simp only [onEvent, onBook_of_window held, told_of_listens serves.listens, bookReport?,
        update?, encoderAfter, serves.publishes, if_true, same, Ledger.see]
      generalize s.ledger.update s.profile.options.depth now.encoded b = made
      obtain ⟨_ | update, encoder⟩ := made
      · exact ⟨rfl, rfl⟩
      · refine ⟨rfl, ?_⟩
        simp only [ledger, key, Option.isSome_some, numbersAfter_eq_bump,
          numbersAfter_of_other_stream (show ReportStream.books ≠ .trades by decide)]
  | heartbeat => exact ⟨rfl, rfl⟩
  | unknown => exact ⟨rfl, rfl⟩
  | rejected error =>
      rw [onEvent, told_of_listens serves.listens]
      exact ⟨rfl, rfl⟩

theorem Serves.onFrame (serves : s.Serves) (now : Instant) (text : String) :
    (s.onFrame now text).session.Serves := by
  have profile := profile_onFrame s now text
  exact ⟨(phase_onFrame serves.room now text).trans serves.waits, profile ▸ serves.listens,
    profile ▸ serves.publishes, profile ▸ serves.room⟩

theorem onFrame_eq_enter (serves : s.Serves) (now : Instant) (text : String) :
    let seen := s.ledger.enter s.profile now text
    (s.onFrame now text).effects.map Effect.sight? = seen.1.map some ∧
      (s.onFrame now text).session.ledger = seen.2 := by
  have taken : (s.takeIn now text).Serves :=
    ⟨serves.waits, serves.listens, serves.publishes, serves.room⟩
  rw [onFrame_eq]
  exact onEvent_eq_see taken now _

/-! ## After a stop -/

/-- A session that closes its source, or has ended. -/
def IsClosing (s : Session) : Prop := s.phase = .close ∨ s.phase = .ended

/-- Nothing is done any more, and nothing is remembered. -/
theorem IsClosing.react (closing : s.IsClosing) (now : Instant) (signal : Signal) :
    (s.react now signal).effects = [] ∧ (s.react now signal).counts = .zero ∧
      (s.react now signal).session.IsClosing ∧ (s.react now signal).session.ledger = s.ledger := by
  have reaction := s.reacts now signal
  generalize s.react now signal = turn at reaction
  cases reaction with
  | closed reply waits => exact ⟨rfl, rfl, .inr rfl, rfl⟩
  | idle signal other => exact ⟨rfl, rfl, closing, rfl⟩
  | stopped open' => rcases closing with phase | phase <;> simp [takes, phase] at open'
  | frame text waits => rcases closing with phase | phase <;> simp [waits] at phase
  | finished waits => rcases closing with phase | phase <;> simp [waits] at phase
  | failed error waits => rcases closing with phase | phase <;> simp [waits] at phase
  | reconnected reply waits => rcases closing with phase | phase <;> simp [waits] at phase
  | sent reply waits => rcases closing with phase | phase <;> simp [waits] at phase

theorem IsClosing.reactAll (closing : s.IsClosing) (signals : List (Instant × Signal)) :
    (s.reactAll signals).effects = [] ∧ (s.reactAll signals).counts = .zero ∧
      (s.reactAll signals).session.ledger = s.ledger := by
  induction signals generalizing s with
  | nil => exact ⟨rfl, rfl, rfl⟩
  | cons first rest ih =>
      obtain ⟨now, signal⟩ := first
      obtain ⟨none, zero, still, same⟩ := closing.react now signal
      obtain ⟨noneLater, zeroLater, sameLater⟩ := ih still
      simp only [Session.reactAll, none, noneLater, zero, zeroLater, sameLater, same]
      exact ⟨rfl, rfl, trivial⟩

/-! ## Runs -/

/-- As long as the stream is not lost, a session handles the frames that come before the first stop,
and no others. It shows of them what its ledger says, in their order, then closes its source if it
was stopped, and counts exactly what it showed. -/
theorem reactAll_eq_enterAll (serves : s.Serves) {signals : List (Instant × Signal)}
    (unbroken : ∀ signal ∈ signals, signal.2.isLoss = false) :
    let turn := s.reactAll signals
    let handled := Signal.frames (Signal.untilStop signals)
    let seen := s.ledger.enterAll s.profile handled
    handled <+: Signal.frames signals ∧
      (∃ shown, turn.effects = shown ++ (if signals.any (·.2 = .stop) then [.close] else []) ∧
        shown.map Effect.sight? = seen.1.map some) ∧
      turn.counts = Counters.tally turn.effects ∧ turn.session.ledger = seen.2 := by
  intro turn handled seen
  refine ⟨Signal.frames_untilStop_prefix signals, ?_⟩
  subst turn handled seen
  -- A frame keeps `Serves` and the agreement with the ledger; from a stop on `IsClosing` carries.
  induction signals generalizing s with
  | nil => exact ⟨⟨[], rfl, rfl⟩, rfl, rfl⟩
  | cons first rest ih =>
      obtain ⟨now, signal⟩ := first
      have later : ∀ signal ∈ rest, signal.2.isLoss = false :=
        fun signal member => unbroken signal (List.mem_cons_of_mem _ member)
      cases signal with
      | stop =>
          have stopped : s.react now .stop = ⟨[.close], .zero, { s with phase := .close }⟩ :=
            react_stop (by rw [serves.waits]; rfl)
          obtain ⟨none, zero, same⟩ :=
            IsClosing.reactAll (s := { s with phase := .close }) (.inl rfl) rest
          simp only [reactAll, stopped, none, zero, same]
          exact ⟨⟨[], rfl, rfl⟩, rfl, rfl⟩
      | replied reply =>
          have ignored : s.react now (.replied reply) = ⟨[], .zero, s⟩ :=
            react_of_not_takes (by rw [serves.waits]; rfl)
          simp only [reactAll, ignored, Counters.zero_add]
          exact ih serves later
      | arrived arrival =>
          cases arrival with
          | finished => exact absurd (unbroken _ List.mem_cons_self) Bool.noConfusion
          | failed error => exact absurd (unbroken _ List.mem_cons_self) Bool.noConfusion
          | frame text =>
              have reaction : s.Reacts now (.arrived (.frame text)) (s.onFrame now text) :=
                .frame text serves.waits
              obtain ⟨sights, kept⟩ := onFrame_eq_enter serves now text
              obtain ⟨⟨shown, effects, seen⟩, tallied, ledger⟩ :=
                ih (serves.onFrame now text) later
              rw [profile_onFrame, kept] at seen ledger
              simp only [reactAll, react_frame serves.waits]
              refine ⟨⟨(s.onFrame now text).effects ++ shown, ?_, ?_⟩, ?_, ?_⟩
              · rw [effects, List.append_assoc]
                rfl
              · rw [List.map_append, sights, seen, ← List.map_append]
                rfl
              · rw [reaction.counts serves.listens serves.room, tallied, Counters.tally_append]
              · exact ledger

/-- A trade, a book twice, a sign of life; then a stop, and a trade that comes too late. -/
theorem reactAll_eq_enterAll_deltas :
    let profile : Profile := ⟨.binance, "", ⟨.deltas none, 10, 20⟩, true, true⟩
    let sold := "\x7b\x22e\x22:\x22trade\x22,\x22s\x22:\x22BTCUSDT\x22,\x22p\x22:\x22100.5\x22," ++
      "\x22q\x22:\x222\x22,\x22m\x22:true,\x22t\x22:7\x7d"
    let depth := "\x7b\x22e\x22:\x22depthUpdate\x22,\x22s\x22:\x22BTCUSDT\x22," ++
      "\x22b\x22:[[\x22100.5\x22,\x222\x22]]\x7d"
    let signals : List (Instant × Signal) := [(1, .arrived (.frame sold)),
      (2, .arrived (.frame depth)), (3, .arrived (.frame depth)),
      (4, .arrived (.frame "\x7b\x22result\x22:null\x7d")),
      (5, .stop), (6, .arrived (.frame sold))]
    let trade : Trade := ⟨.binance, "BTC-USDT", 100.5, 2, .sell, "7", 1⟩
    let update : BookUpdate := ⟨.checkpoint, [⟨100.5, 2⟩], []⟩
    (Session.start profile).Serves ∧ (∀ signal ∈ signals, signal.2.isLoss = false) ∧
      ((Session.start profile).reactAll signals).effects.map Effect.sight? =
        [some (.trade trade), some (.tradeReport 1 trade),
          some (.book ⟨.binance, "BTC-USDT", 2, [⟨100.5, 2⟩], []⟩),
          some (.bookReport 1 .binance "BTC-USDT" 2 update),
          some (.book ⟨.binance, "BTC-USDT", 3, [⟨100.5, 2⟩], []⟩), none] := by
  intro profile sold depth signals trade update
  have serves : (Session.start profile).Serves := serves_start rfl rfl (by decide)
  have unbroken : ∀ signal ∈ signals, signal.2.isLoss = false := by
    simp [signals, Signal.isLoss]
  obtain ⟨_, ⟨shown, effects, seen⟩, _, _⟩ := reactAll_eq_enterAll serves unbroken
  refine ⟨serves, unbroken, ?_⟩
  rw [effects, List.map_append, seen]
  decide +kernel

/-- A window too large to be had ends a session over its first trade, which nobody is shown. -/
theorem trade_lost_to_window :
    let profile : Profile := ⟨.bybit, "", ⟨.snapshots, 10, 2305843009213693952⟩, true, true⟩
    let bought := "\x7b\x22topic\x22:\x22publicTrade.BTCUSDT\x22,\x22data\x22:[\x7b\x22s\x22:" ++
      "\x22BTCUSDT\x22,\x22p\x22:\x2250000.1\x22,\x22v\x22:\x220.01\x22,\x22S\x22:\x22Buy\x22," ++
      "\x22i\x22:\x22123\x22\x7d]\x7d"
    let turn := (Session.start profile).reactAll [(1, .arrived (.frame bought))]
    let trade : Trade := ⟨.bybit, "BTC-USDT", 50000.1, 0.01, .buy, "123", 1⟩
    turn.effects = [] ∧ turn.counts = .oneTrade ∧ turn.session.phase = .ended ∧
      ((Ledger.new .snapshots).enterAll profile [(1, bought)]).1 =
        [.trade trade, .tradeReport 1 trade] := by
  decide +kernel

end Session

end Tape
