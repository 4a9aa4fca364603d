import Tape.Proofs.Feed.Figures

/-!
# Numbers of reports

Reports are counted by stream and symbol. Whatever a feed goes through, the reports of one stream
and symbol bear the numbers from one on, in the order of publication: books that are held back take
no number, a reconnect does not begin anew, and the reports of other streams and symbols do not
count.
-/

namespace Tape

/-! ## Numbers -/

/-- Where an effect stands among the reports. -/
structure Filing where
  stream : ReportStream
  symbol : String
  number : Nat
  deriving DecidableEq, Repr

namespace Effect

def filing? : Effect → Option Filing
  | publishTrade r => some ⟨.trades, r.symbol, r.sequence⟩
  | publishBook r => some ⟨.books, r.symbol, r.sequence⟩
  | _ => none

/-- The numbers of the reports of a stream and a symbol, in the order of publication. -/
def numbers (stream : ReportStream) (symbol : String) (effects : List Effect) : List Nat :=
  ((effects.filterMap filing?).filter fun f => f.stream = stream ∧ f.symbol = symbol).map
    Filing.number

/-- The numbers of the reports that are counted under one text. -/
def numbersUnder (venue : Venue) (key : String) (effects : List Effect) : List Nat :=
  ((effects.filterMap filing?).filter fun f => f.stream.key venue f.symbol = key).map Filing.number

theorem numbers_append (stream : ReportStream) (symbol : String) (first second : List Effect) :
    numbers stream symbol (first ++ second) =
      numbers stream symbol first ++ numbers stream symbol second := by
  simp only [numbers, List.filterMap_append, List.filter_append, List.map_append]

theorem numbers_of_no_filing {effects : List Effect} (none : effects.filterMap filing? = [])
    (stream : ReportStream) (symbol : String) : numbers stream symbol effects = [] := by
  rw [numbers, none]
  rfl

theorem numbersUnder_key (venue : Venue) (stream : ReportStream) (symbol : String)
    (effects : List Effect) :
    numbersUnder venue (stream.key venue symbol) effects = numbers stream symbol effects := by
  simp only [numbersUnder, numbers, ReportStream.key_inj]

theorem filing?_of_isCall {call : Effect} (made : call.isCall = true) : call.filing? = none := by
  cases call <;> first | rfl | cases made

theorem filterMap_filing?_of_calls {calls : List Effect}
    (made : ∀ call ∈ calls, call.isCall = true) : calls.filterMap filing? = [] := by
  rw [List.filterMap_eq_nil_iff]
  exact fun call member => filing?_of_isCall (made call member)

end Effect

/-- Reports bear the numbers that follow on those counted before, up to those counted after. -/
def FollowOn (before after : ReportStream → String → Nat) (effects : List Effect) : Prop :=
  ∀ stream symbol,
    Effect.numbers stream symbol effects =
        List.range' (before stream symbol + 1) (Effect.numbers stream symbol effects).length ∧
      after stream symbol =
        before stream symbol + (Effect.numbers stream symbol effects).length

namespace FollowOn

variable {before between after : ReportStream → String → Nat} {effects others : List Effect}

theorem of_no_filing (none : effects.filterMap Effect.filing? = []) :
    FollowOn before before effects := by
  intro stream symbol
  rw [Effect.numbers_of_no_filing none]
  exact ⟨rfl, rfl⟩

/-- A single report takes the next number of its stream and symbol. -/
theorem of_filing (stream : ReportStream) (symbol : String)
    (filed : effects.filterMap Effect.filing? = [⟨stream, symbol, before stream symbol + 1⟩])
    (self : after stream symbol = before stream symbol + 1)
    (other : ∀ stream' symbol', ¬(stream = stream' ∧ symbol = symbol') →
      after stream' symbol' = before stream' symbol') : FollowOn before after effects := by
  intro stream' symbol'
  rw [Effect.numbers, filed, List.filter_singleton]
  by_cases same : stream = stream' ∧ symbol = symbol'
  · obtain ⟨rfl, rfl⟩ := same
    simp [self]
  · simp [same, other stream' symbol' same]

theorem append (first : FollowOn before between effects) (second : FollowOn between after others) :
    FollowOn before after (effects ++ others) := by
  intro stream symbol
  obtain ⟨here, counted⟩ := first stream symbol
  obtain ⟨later, countedLater⟩ := second stream symbol
  rw [Effect.numbers_append, List.length_append]
  constructor
  · rw [← List.range'_append_1, ← here]
    rw [counted, Nat.add_right_comm] at later
    rw [← later]
  · omega

end FollowOn

namespace Session

variable {s : Session}

/-! ## Numbers of one session -/

/-- How many reports of a stream and a symbol a session has published. -/
def counted (s : Session) (stream : ReportStream) (symbol : String) : Nat :=
  (SymbolTable.get? (s.key stream symbol) s.numbers).getD 0

theorem counted_numbersAfter_self {next : Session} {stream : ReportStream} {symbol : String}
    (profile : next.profile = s.profile)
    (numbers : next.numbers = numbersAfter true (s.key stream symbol) s.numbers) :
    next.counted stream symbol = s.counted stream symbol + 1 := by
  rw [counted, key, profile, numbers, numbersAfter, if_pos rfl]
  exact congrArg (Option.getD · 0) (SymbolTable.get?_set_self _ _ _)

theorem counted_numbersAfter_of_ne {next : Session} {stream other : ReportStream}
    {symbol symbol' : String} (profile : next.profile = s.profile)
    (numbers : next.numbers = numbersAfter true (s.key stream symbol) s.numbers)
    (apart : ¬(stream = other ∧ symbol = symbol')) :
    next.counted other symbol' = s.counted other symbol' := by
  rw [counted, counted, key, profile, numbers]
  exact congrArg (Option.getD · 0) (get?_numbersAfter_of_ne (key_ne apart) _ _)

theorem filings_told_append {effect : Effect} (silent : effect.filing? = none)
    (report : Option Effect) :
    (s.told effect ++ report.toList).filterMap Effect.filing? =
      (report.bind Effect.filing?).toList := by
  rw [List.filterMap_append, filterMap_told silent, List.nil_append]
  cases report with
  | none => rfl
  | some report => cases filed : report.filing? <;> simp [filed]

theorem followOn_onEvent (s : Session) (now : Instant) (event : Event) :
    FollowOn s.counted (s.onEvent now event).session.counted (s.onEvent now event).effects := by
  have answer := s.answers now event
  generalize s.onEvent now event = turn at answer
  cases answer with
  | trade t window held =>
      cases publishes : s.profile.publishes with
      | false =>
          refine .of_no_filing ?_
          rw [filings_told_append rfl, tradeReport?, publishes]
          rfl
      | true =>
          refine .of_filing .trades t.symbol ?_ ?_ ?_
          · rw [filings_told_append rfl, tradeReport?, publishes]
            rfl
          · exact counted_numbersAfter_self rfl rfl
          · exact fun stream symbol other => counted_numbersAfter_of_ne rfl rfl other
  | book b window held =>
      cases update : s.update? now.encoded b with
      | none =>
          refine .of_no_filing ?_
          rw [filings_told_append rfl, bookReport?, update]
          rfl
      | some published =>
          refine .of_filing .books b.symbol ?_ ?_ ?_
          · rw [filings_told_append rfl, bookReport?, update]
            rfl
          · exact counted_numbersAfter_self rfl rfl
          · exact fun stream symbol other => counted_numbersAfter_of_ne rfl rfl other
  | lostTrade => exact .of_no_filing rfl
  | lostBook => exact .of_no_filing rfl
  | heartbeat => exact .of_no_filing rfl
  | unknown => exact .of_no_filing rfl
  | rejected error => exact .of_no_filing (filterMap_told rfl s)

/-- Only a frame leads to reports; all other signals leave the numbers as they are. -/
theorem Reacts.followOn {now : Instant} {signal : Signal} {turn : Turn}
    (reacts : s.Reacts now signal turn) : FollowOn s.counted turn.session.counted turn.effects := by
  have called : ∀ message call, call.filing? = none →
      (s.told (.error message) ++ [call]).filterMap Effect.filing? = [] := by
    intro message call unfiled
    rw [List.filterMap_append, filterMap_told rfl, List.nil_append]
    simp [unfiled]
  cases reacts with
  | frame text waits =>
      rw [onFrame_eq]
      exact followOn_onEvent (s.takeIn now text) now _
  | finished waits => exact .of_no_filing (called _ _ rfl)
  | failed error waits => exact .of_no_filing (called _ _ rfl)
  | reconnected reply waits =>
      cases reply with
      | none => exact .of_no_filing rfl
      | some error => exact .of_no_filing (called _ _ rfl)
  | sent reply waits =>
      cases reply with
      | none => exact .of_no_filing rfl
      | some error => exact .of_no_filing (filterMap_told rfl s)
  | closed reply waits => exact .of_no_filing rfl
  | stopped open' => exact .of_no_filing rfl
  | idle signal other => exact .of_no_filing rfl

end Session

namespace Feed

variable {f : Feed} {step : Step} {result : List Effect × Feed}

/-! ## Numbers of one feed -/

/-- How many reports of a stream and a symbol the session of a feed has published. -/
def counted (f : Feed) (stream : ReportStream) (symbol : String) : Nat :=
  match f.session with
  | some (session, _) => session.counted stream symbol
  | none => 0

theorem counted_of_session {session : Session} {source : Source}
    (running : f.session = some (session, source)) : f.counted = session.counted := by
  funext stream symbol
  rw [counted, running]

/-- A feed starts at most once: it hands its source over to the session. -/
def StartsOnce (f : Feed) : Prop := f.session = none ∨ f.source = none

/-- A feed that was started and stopped. -/
structure Spent (f : Feed) : Prop where
  session : f.session = none
  source : f.source = none

theorem filings_failed (f : Feed) {calls : List Effect}
    (made : ∀ call ∈ calls, call.isCall = true) (message : String) :
    (calls ++ f.told (.error message)).filterMap Effect.filing? = [] := by
  rw [List.filterMap_append, Effect.filterMap_filing?_of_calls made, List.nil_append, told]
  split <;> rfl

theorem Advances.spent (advances : f.Advances step result) (spent : f.Spent) :
    result.1.filterMap Effect.filing? = [] ∧ result.2.Spent := by
  cases advances with
  | prepared calls source made held => simp [spent.source] at held
  | failed calls source cause made kept =>
      refine ⟨filings_failed f made _, spent.session, ?_⟩
      simpa [spent.source] using kept
  | started source held fresh => cases held.symm.trans spent.source
  | notStarted => exact ⟨rfl, spent⟩
  | stopped effects few => rcases few with rfl | rfl <;> exact ⟨rfl, rfl, spent.source⟩
  | heard session source now arrival turn running reacts =>
      cases running.symm.trans spent.session
  | unheard => exact ⟨rfl, spent⟩
  | answered session source rest now reply turn running reacts =>
      cases running.symm.trans spent.session
  | noCall => exact ⟨rfl, spent⟩

theorem Spent.advanceAll (spent : f.Spent) (steps : List Step) :
    (f.advanceAll steps).1.filterMap Effect.filing? = [] := by
  induction steps generalizing f with
  | nil => rfl
  | cons step rest ih =>
      obtain ⟨none, still⟩ := (f.advances step).spent spent
      rw [Feed.advanceAll, List.filterMap_append, none, ih still]
      rfl

/-- A step that leaves the session of a feed alone or hands a signal to it goes on with the numbers;
after a stop there is no more to number. -/
theorem Advances.followOn (advances : f.Advances step result) (once : f.StartsOnce) :
    FollowOn f.counted result.2.counted result.1 ∧ result.2.StartsOnce ∨
      result.1.filterMap Effect.filing? = [] ∧ result.2.Spent := by
  cases advances with
  | prepared calls source made held =>
      refine .inl ⟨.of_no_filing (Effect.filterMap_filing?_of_calls made), ?_⟩
      rcases once with idle | gone
      · exact .inl idle
      · simp [gone] at held
  | failed calls source cause made kept =>
      refine .inl ⟨.of_no_filing (filings_failed f made _), ?_⟩
      rcases once with idle | gone
      · exact .inl idle
      · exact .inr (by simpa [gone] using kept)
  | started source held fresh =>
      refine .inl ⟨?_, .inr rfl⟩
      have before : f.counted = fun _ _ => 0 := by
        funext stream symbol
        rw [counted, fresh]
      have none : FollowOn (fun _ _ => 0) (fun _ _ => 0) [] := .of_no_filing rfl
      rw [before]
      intro stream symbol
      cases stream <;> exact none _ symbol
  | notStarted => exact .inl ⟨.of_no_filing rfl, once⟩
  | stopped effects few =>
      have none : effects.filterMap Effect.filing? = [] := by rcases few with rfl | rfl <;> rfl
      rcases once with idle | gone
      · refine .inl ⟨?_, .inl rfl⟩
        have same : f.counted = Feed.counted { f with publishes := false, session := .none } := by
          funext stream symbol
          rw [counted, counted, idle]
        rw [← same]
        exact .of_no_filing none
      · exact .inr ⟨none, rfl, gone⟩
  | heard session source now arrival turn running reacts =>
      refine .inl ⟨?_, once.imp (fun idle => ?_) id⟩
      · rw [counted_of_session running]
        exact reacts.followOn
      · cases running.symm.trans idle
  | unheard => exact .inl ⟨.of_no_filing rfl, once⟩
  | answered session source rest now reply turn running reacts =>
      refine .inl ⟨?_, once.imp (fun idle => ?_) id⟩
      · rw [counted_of_session running]
        exact reacts.followOn
      · cases running.symm.trans idle
  | noCall => exact .inl ⟨.of_no_filing rfl, once⟩

theorem followOn_advanceAll (once : f.StartsOnce) (steps : List Step) :
    ∃ after, FollowOn f.counted after (f.advanceAll steps).1 := by
  -- A stopped feed counts nothing, though much was published: from there on `Spent` carries.
  induction steps generalizing f with
  | nil => exact ⟨_, .of_no_filing rfl⟩
  | cons step rest ih =>
      rw [advanceAll]
      rcases (f.advances step).followOn once with ⟨here, still⟩ | ⟨none, spent⟩
      · obtain ⟨after, later⟩ := ih still
        exact ⟨after, here.append later⟩
      · refine ⟨_, .of_no_filing ?_⟩
        rw [List.filterMap_append, none, spent.advanceAll]
        rfl

/-- Whatever a feed is asked for and whatever its source does, the reports of each stream and symbol
are numbered one after the other from one on, and a key stands for one stream and one symbol. -/
theorem numbers_consecutive (idle : f.session = none) (steps : List Step) (stream : ReportStream)
    (symbol : String) :
    let effects := (f.advanceAll steps).1
    let numbers := Effect.numbers stream symbol effects
    numbers = List.range' 1 numbers.length ∧
      Effect.numbersUnder f.venue (stream.key f.venue symbol) effects = numbers := by
  intro effects numbers
  obtain ⟨after, follow⟩ := followOn_advanceAll (.inl idle) steps
  have none : f.counted stream symbol = 0 := by rw [counted, idle]
  obtain ⟨consecutive, _⟩ := follow stream symbol
  rw [none] at consecutive
  exact ⟨consecutive, Effect.numbersUnder_key f.venue stream symbol effects⟩

/-- A trade between books of two markets, one of which comes twice; then the stream ends, the feed
reconnects and is sent the book anew. -/
theorem numbers_consecutive_over_reconnect :
    let f := served .binance ⟨.deltas none, 10, 20⟩
    let sold := "\x7b\x22e\x22:\x22trade\x22,\x22s\x22:\x22BTCUSDT\x22,\x22p\x22:\x22100.5\x22," ++
      "\x22q\x22:\x222\x22,\x22m\x22:true,\x22t\x22:7\x7d"
    let depth := "\x7b\x22e\x22:\x22depthUpdate\x22,\x22s\x22:\x22BTCUSDT\x22," ++
      "\x22b\x22:[[\x22100.5\x22,\x222\x22]]\x7d"
    let other := "\x7b\x22e\x22:\x22depthUpdate\x22,\x22s\x22:\x22ETHUSDT\x22," ++
      "\x22b\x22:[[\x229.5\x22,\x222\x22]]\x7d"
    let steps : List Step := [.prepare, .start, .arrive 1 (.frame depth), .arrive 2 (.frame sold),
      .arrive 3 (.frame other), .arrive 4 (.frame depth), .arrive 5 .finished, .answer 6, .answer 7,
      .arrive 8 (.frame depth)]
    let effects := (f.advanceAll steps).1
    f.session = none ∧ Effect.numbers .books "BTC-USDT" effects = [1, 2] ∧
      Effect.numbersUnder .binance "binance:books:BTC-USDT" effects = [1, 2] ∧
      Effect.numbers .trades "BTC-USDT" effects = [1] := by
  intro f sold depth other steps effects
  have books : (Effect.numbers .books "BTC-USDT" effects).length = 2 := by decide +kernel
  have trades : (Effect.numbers .trades "BTC-USDT" effects).length = 1 := by decide +kernel
  obtain ⟨listed, keyed⟩ := numbers_consecutive (f := f) rfl steps .books "BTC-USDT"
  obtain ⟨listedTrades, _⟩ := numbers_consecutive (f := f) rfl steps .trades "BTC-USDT"
  have two : Effect.numbers .books "BTC-USDT" effects = [1, 2] := by
    rw [listed, books]
    rfl
  refine ⟨rfl, two, keyed.trans two, ?_⟩
  rw [listedTrades, trades]
  rfl

end Feed

end Tape
