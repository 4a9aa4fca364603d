import Tape.Proofs.Feed.Numbering
import Tape.Proofs.Feed.Origin
import Tape.Proofs.Report.ReadBack
import Tape.Proofs.Wire.Stamps

/-!
# Reading published reports

Prices, sizes and levels of a published report are finite whatever the frames were, and its stamp
and number have 64 bits. Its metrics are computed with no bound on their operands and may overflow;
only then its text is not read as the report.
-/

namespace Tape

theorem Level.Sound.allFinite {l : Level Float} (sound : l.Sound) : AllFinite l.numbers := by
  simp only [AllFinite, numbers, List.forall_mem_cons]
  exact ⟨sound.price_finite, sound.quantity_finite, fun _ member => (List.not_mem_nil member).elim⟩

theorem allFinite_levels {levels : List (Level Float)}
    (finite : ∀ level ∈ levels, AllFinite level.numbers) :
    AllFinite (levels.flatMap Level.numbers) := by
  intro x member
  obtain ⟨level, held, own⟩ := List.mem_flatMap.1 member
  exact finite level held x own

/-- The metrics of a book tell the capacity of the window after it. -/
theorem BookMetrics.window_compute (bids asks : List (Level Float)) (depth : Nat)
    (w : Window Float) :
    (compute bids asks depth w).1.window = (compute bids asks depth w).2.capacity := by
  unfold compute
  split <;> rfl

namespace DeltaEncoder

/-- Changes between sound levels are sound, or a sound price without quantity. -/
theorem allFinite_changes {previous current : List (Level Float)}
    (before : ∀ level ∈ previous, level.Sound) (after : ∀ level ∈ current, level.Sound) :
    ∀ level ∈ changes previous current, AllFinite level.numbers := by
  intro level member
  rcases (mem_changes before after level).1 member with ⟨held, _⟩ | ⟨old, held, _, rfl⟩
  · exact (after level held).allFinite
  · simp only [AllFinite, Level.numbers, List.forall_mem_cons]
    exact ⟨(before old held).price_finite, rfl, fun _ member => (List.not_mem_nil member).elim⟩

/-- What an encoder publishes of a sound book is finite. -/
theorem Sound.allFinite_next {e : DeltaEncoder} (sound : e.Sound) {book : Snapshot}
    (canonical : book.Canonical) {depth now : Nat} {update : BookUpdate}
    (published : (e.next book depth now).1 = some update) :
    (∀ level ∈ update.bids, AllFinite level.numbers) ∧
      ∀ level ∈ update.asks, AllFinite level.numbers := by
  have bids : ∀ level ∈ book.bids.take depth, level.Sound :=
    fun level member => canonical.bids_sound level (List.mem_of_mem_take member)
  have asks : ∀ level ∈ book.asks.take depth, level.Sound :=
    fun level member => canonical.asks_sound level (List.mem_of_mem_take member)
  rcases e.next_cases book depth now with
    ⟨_, call⟩ | ⟨previous, held, _, ⟨_, _, call⟩ | ⟨_, call⟩⟩
  · rw [call] at published
    cases published
    exact ⟨fun level member => (bids level member).allFinite,
      fun level member => (asks level member).allFinite⟩
  · rw [call] at published
    cases published
  · rw [call] at published
    cases published
    obtain ⟨bidsBefore, asksBefore⟩ := sound _ previous held
    constructor
    · intro level member
      exact allFinite_changes bidsBefore bids level (List.mem_mergeSort.1 member)
    · intro level member
      exact allFinite_changes asksBefore asks level (List.mem_mergeSort.1 member)

end DeltaEncoder

namespace Session

variable {s : Session} {now : Instant} {text : String}

/-- The capacity of a window has 64 bits. -/
theorem capacity_lt {capacity : Nat} (fits : 8 * capacity ≤ Window.byteLimit) :
    capacity < Word.bound64 := by
  simp only [Window.byteLimit] at fits
  simp only [Word.bound64]
  omega

/-- A published trade report is of the trade, with the metrics of its window. -/
theorem trade_of_published {event : Event} {r : TradeReport}
    (published : .publishTrade r ∈ (s.onEvent now event).effects) :
    ∃ t window number, event = .trade t ∧ s.window? s.tradeWindows t.symbol = some window ∧
      r = .ofTrade t number (TradeMetrics.compute t.price t.amount window).1 := by
  have answer := s.answers now event
  generalize s.onEvent now event = turn at answer published
  cases answer with
  | trade t window held =>
      rcases List.mem_append.1 published with told | reported
      · cases eq_of_mem_told told
      · obtain ⟨report, made, same⟩ := Option.map_eq_some_iff.1 (Option.mem_toList.1 reported)
        cases same
        rw [tradeReport?] at made
        split at made
        · cases made
          exact ⟨t, window, _, rfl, held, rfl⟩
        · cases made
  | book b window held =>
      rcases List.mem_append.1 published with told | reported
      · cases eq_of_mem_told told
      · obtain ⟨report, _, same⟩ := Option.map_eq_some_iff.1 (Option.mem_toList.1 reported)
        cases same
  | lostTrade => cases published
  | lostBook => cases published
  | heartbeat => cases published
  | unknown => cases published
  | rejected error => cases eq_of_mem_told published

/-- A published book report is of what is published of the book, with the metrics of its window. -/
theorem book_of_published {event : Event} {r : BookReport}
    (published : .publishBook r ∈ (s.onEvent now event).effects) :
    ∃ b window number update, event = .book b ∧ s.window? s.bookWindows b.symbol = some window ∧
      (s.update now.encoded b).1 = some update ∧
        r = .ofBook b number update
          (BookMetrics.compute b.bids b.asks s.profile.options.depth window).1 := by
  have answer := s.answers now event
  generalize s.onEvent now event = turn at answer published
  cases answer with
  | trade t window held =>
      rcases List.mem_append.1 published with told | reported
      · cases eq_of_mem_told told
      · obtain ⟨report, _, same⟩ := Option.map_eq_some_iff.1 (Option.mem_toList.1 reported)
        cases same
  | book b window held =>
      rcases List.mem_append.1 published with told | reported
      · cases eq_of_mem_told told
      · obtain ⟨report, made, same⟩ := Option.map_eq_some_iff.1 (Option.mem_toList.1 reported)
        cases same
        obtain ⟨update, changed, rfl⟩ := Option.map_eq_some_iff.1 made
        rw [update?] at changed
        split at changed
        · exact ⟨b, window, _, update, rfl, held, changed, rfl⟩
        · cases changed
  | lostTrade => cases published
  | lostBook => cases published
  | heartbeat => cases published
  | unknown => cases published
  | rejected error => cases eq_of_mem_told published

/-- What is published of a sound book is finite. -/
theorem Sound.allFinite_update (sound : s.Sound) {book : Snapshot} (canonical : book.Canonical)
    {update : BookUpdate} (published : (s.update now.encoded book).1 = some update) :
    (∀ level ∈ update.bids, AllFinite level.numbers) ∧
      ∀ level ∈ update.asks, AllFinite level.numbers := by
  rw [Session.update] at published
  cases held : s.encoder with
  | none =>
      rw [held] at published
      cases published
      exact ⟨fun level member =>
          (canonical.bids_sound level (List.mem_of_mem_take member)).allFinite,
        fun level member => (canonical.asks_sound level (List.mem_of_mem_take member)).allFinite⟩
  | some encoder =>
      rw [held] at published
      exact (sound.encoder encoder held).allFinite_next canonical published

theorem stamp_of_decoded {stamp : Nat} (stamped : (s.decoded now text).1.stamp? = some stamp) :
    stamp = now.decoded :=
  Venue.stamp_of_decode stamped

/-- Of the numbers of a trade report only two metrics may be other than finite. -/
theorem Sound.trade_report (sound : s.Sound) {r : TradeReport}
    (published : .publishTrade r ∈ (s.onFrame now text).effects) :
    r.stamp = now.decoded ∧ r.metrics.window < Word.bound64 ∧
      (AllFinite r.numbers ↔ AllFinite [r.metrics.volume, r.metrics.volatility]) := by
  rw [onFrame_eq] at published
  obtain ⟨t, window, number, event, held, rfl⟩ := trade_of_published published
  have fits := fits_of_window? sound.tradeWindows held
  obtain ⟨_, price, amount⟩ : (Event.trade t).Sound s.profile.venue :=
    event ▸ (sound.store.decode s.profile.venue now.decoded text).1
  refine ⟨stamp_of_decoded (by rw [event]; rfl), ?_, ?_⟩
  · rw [← TradeMetrics.capacity_compute t.price t.amount window] at fits
    exact capacity_lt fits
  · simp only [AllFinite, TradeReport.numbers, TradeReport.ofTrade, TradeMetrics.numbers,
      TradeMetrics.compute, List.forall_mem_cons, price, amount, true_and]

/-- Of the numbers of a book report only the metrics may be other than finite. -/
theorem Sound.book_report (sound : s.Sound) {r : BookReport}
    (published : .publishBook r ∈ (s.onFrame now text).effects) :
    r.stamp = now.decoded ∧ r.metrics.window < Word.bound64 ∧
      (AllFinite r.numbers ↔ AllFinite r.metrics.numbers) := by
  rw [onFrame_eq] at published
  obtain ⟨b, window, number, update, event, held, changed, rfl⟩ := book_of_published published
  have fits := fits_of_window? sound.bookWindows held
  obtain ⟨_, canonical, _⟩ : (Event.book b).Sound s.profile.venue :=
    event ▸ (sound.store.decode s.profile.venue now.decoded text).1
  obtain ⟨bids, asks⟩ := (sound.takeIn now text).allFinite_update canonical changed
  refine ⟨stamp_of_decoded (by rw [event]; rfl), ?_, ?_⟩
  · rw [← BookMetrics.capacity_compute b.bids b.asks s.profile.options.depth window,
      ← BookMetrics.window_compute] at fits
    exact capacity_lt fits
  · rw [BookReport.numbers, allFinite_append, allFinite_append]
    exact and_iff_right ⟨allFinite_levels bids, allFinite_levels asks⟩

/-! ## Numbers of reports -/

theorem length_filings_onEvent_le (s : Session) (now : Instant) (event : Event) :
    ((s.onEvent now event).effects.filterMap Effect.filing?).length ≤ 1 := by
  have answer := s.answers now event
  generalize s.onEvent now event = turn at answer
  cases answer with
  | trade t window held =>
      rw [filings_told_append rfl]
      exact Option.length_toList_le
  | book b window held =>
      rw [filings_told_append rfl]
      exact Option.length_toList_le
  | lostTrade => exact Nat.zero_le _
  | lostBook => exact Nat.zero_le _
  | heartbeat => exact Nat.zero_le _
  | unknown => exact Nat.zero_le _
  | rejected error =>
      rw [filterMap_told rfl]
      exact Nat.zero_le _

end Session

namespace Effect

/-- The trade reports among some effects. -/
def tradeReports (effects : List Effect) : List TradeReport :=
  effects.filterMap fun
    | publishTrade r => some r
    | _ => none

def bookReports (effects : List Effect) : List BookReport :=
  effects.filterMap fun
    | publishBook r => some r
    | _ => none

theorem mem_tradeReports {effects : List Effect} {r : TradeReport} :
    r ∈ tradeReports effects ↔ publishTrade r ∈ effects := by
  rw [tradeReports, List.mem_filterMap]
  constructor
  · rintro ⟨effect, member, made⟩
    cases effect <;> cases made
    exact member
  · intro member
    exact ⟨_, member, rfl⟩

theorem mem_bookReports {effects : List Effect} {r : BookReport} :
    r ∈ bookReports effects ↔ publishBook r ∈ effects := by
  rw [bookReports, List.mem_filterMap]
  constructor
  · rintro ⟨effect, member, made⟩
    cases effect <;> cases made
    exact member
  · intro member
    exact ⟨_, member, rfl⟩

end Effect

theorem Effect.symbol?_of_filing? {effect : Effect} {filing : Filing}
    (filed : effect.filing? = some filing) : effect.symbol? = some filing.symbol := by
  cases effect <;> cases filed <;> rfl

namespace Feed

variable {f : Feed} {step : Step} {steps : List Step} {result : List Effect × Feed}

/-- A step makes at most one report. -/
theorem Advances.length_filings_le (advances : f.Advances step result) (sound : f.Sound) :
    (result.1.filterMap Effect.filing?).length ≤ 1 := by
  cases filings : result.1.filterMap Effect.filing? with
  | nil => exact Nat.zero_le _
  | cons filing rest =>
      have member : filing ∈ result.1.filterMap Effect.filing? := filings ▸ List.mem_cons_self
      obtain ⟨effect, shown, filed⟩ := List.mem_filterMap.1 member
      obtain ⟨session, now, text, _, _, _, same⟩ :=
        advances.frame_of_shown sound shown (Effect.symbol?_of_filing? filed)
      rw [← filings, same, Session.onFrame_eq]
      exact Session.length_filings_onEvent_le _ now _

theorem length_filings_advanceAll_le (sound : f.Sound) (steps : List Step) :
    ((f.advanceAll steps).1.filterMap Effect.filing?).length ≤ steps.length := by
  induction steps generalizing f with
  | nil => exact Nat.le_refl _
  | cons step rest ih =>
      have advances := f.advances step
      have here := advances.length_filings_le sound
      have later := ih (advances.sound sound)
      rw [advanceAll, List.filterMap_append, List.length_append, List.length_cons]
      omega

/-- Reports are numbered from one on, so no number is larger than the number of steps. -/
theorem number_le_length (idle : f.session = none) {filing : Filing}
    (filed : filing ∈ (f.advanceAll steps).1.filterMap Effect.filing?) :
    filing.number ≤ steps.length := by
  have few := length_filings_advanceAll_le (sound_of_no_session idle) steps
  obtain ⟨after, follow⟩ := followOn_advanceAll (.inl idle) steps
  obtain ⟨consecutive, _⟩ := follow filing.stream filing.symbol
  generalize (f.advanceAll steps).1 = effects at filed few consecutive
  have none : f.counted filing.stream filing.symbol = 0 := by rw [counted, idle]
  have listed : filing.number ∈ Effect.numbers filing.stream filing.symbol effects :=
    List.mem_map.2 ⟨filing, List.mem_filter.2 ⟨filed, by simp⟩, rfl⟩
  have fewer : (Effect.numbers filing.stream filing.symbol effects).length ≤
      (effects.filterMap Effect.filing?).length := by
    rw [Effect.numbers, List.length_map]
    exact List.length_filter_le _ _
  rw [consecutive, none, List.mem_range'_1] at listed
  omega

/-! ## Reading -/

/-- When a step is taken, as far as it matters. -/
def Step.clock : Step → Nat
  | arrive now _ | answer now => now.decoded
  | prepare | start | stop => 0

/-- The clock has 64 bits. -/
def ClockFits (steps : List Step) : Prop :=
  ∀ step ∈ steps, step.clock < Word.bound64

instance (steps : List Step) : Decidable (ClockFits steps) :=
  inferInstanceAs (Decidable (∀ step ∈ steps, _))

theorem trade_text_iff (idle : f.session = none) (clock : ClockFits steps)
    (short : steps.length < Word.bound64) {r : TradeReport}
    (listed : r ∈ Effect.tradeReports (f.advanceAll steps).1) (back : AllReadBack r.numbers) :
    Schema.ofText TradeReport.read r.text = .ok r ↔
      AllFinite [r.metrics.volume, r.metrics.volatility] := by
  have published := Effect.mem_tradeReports.1 listed
  obtain ⟨session, now, text, arrived, sound, _, made⟩ :=
    exists_frame_of_shown (sound_of_no_session idle) published rfl
  obtain ⟨stamp, window, finite⟩ := sound.trade_report made
  have number : r.sequence ≤ steps.length :=
    number_le_length idle (List.mem_filterMap.2 ⟨_, published, rfl⟩)
  rw [← finite]
  refine TradeReport.ofText_text_iff ⟨?_, Nat.lt_of_le_of_lt number short, window⟩ back
  rw [stamp]
  exact clock _ arrived

theorem book_text_iff (idle : f.session = none) (clock : ClockFits steps)
    (short : steps.length < Word.bound64) {r : BookReport}
    (listed : r ∈ Effect.bookReports (f.advanceAll steps).1) (back : AllReadBack r.numbers) :
    Schema.ofText BookReport.read r.text = .ok r ↔ AllFinite r.metrics.numbers := by
  have published := Effect.mem_bookReports.1 listed
  obtain ⟨session, now, text, arrived, sound, _, made⟩ :=
    exists_frame_of_shown (sound_of_no_session idle) published rfl
  obtain ⟨stamp, window, finite⟩ := sound.book_report made
  have number : r.sequence ≤ steps.length :=
    number_le_length idle (List.mem_filterMap.2 ⟨_, published, rfl⟩)
  rw [← finite]
  refine BookReport.ofText_text_iff ⟨?_, Nat.lt_of_le_of_lt number short, window⟩ back
  rw [stamp]
  exact clock _ arrived

/-- Whatever frames a feed takes, the text of each published report is read as the report exactly
when its metrics are finite; the text of a trade report can only fail by its volume or volatility.
-/
theorem texts_readable_iff (idle : f.session = none) (clock : ClockFits steps)
    (short : steps.length < Word.bound64) :
    let effects := (f.advanceAll steps).1
    (∀ r ∈ Effect.tradeReports effects, AllReadBack r.numbers →
        (Schema.ofText TradeReport.read r.text = .ok r ↔
          AllFinite [r.metrics.volume, r.metrics.volatility])) ∧
      ∀ r ∈ Effect.bookReports effects, AllReadBack r.numbers →
        (Schema.ofText BookReport.read r.text = .ok r ↔ AllFinite r.metrics.numbers) :=
  ⟨fun _ => trade_text_iff idle clock short, fun _ => book_text_iff idle clock short⟩

/-- A trade, and a book of which a level goes. -/
theorem texts_readable_of_changes :
    let f := served .binance ⟨.deltas none, 10, 20⟩
    let sold := "\x7b\x22e\x22:\x22trade\x22,\x22s\x22:\x22BTCUSDT\x22,\x22p\x22:\x22100.5\x22," ++
      "\x22q\x22:\x222\x22,\x22m\x22:true,\x22t\x22:7\x7d"
    let before := "\x7b\x22e\x22:\x22depthUpdate\x22,\x22s\x22:\x22BTCUSDT\x22," ++
      "\x22b\x22:[[\x22100.5\x22,\x222\x22],[\x2299.5\x22,\x221\x22]]\x7d"
    let after := "\x7b\x22e\x22:\x22depthUpdate\x22,\x22s\x22:\x22BTCUSDT\x22," ++
      "\x22b\x22:[[\x22100.5\x22,\x222\x22]]\x7d"
    let steps : List Step := [.prepare, .start, .arrive 1 (.frame sold), .arrive 2 (.frame before),
      .arrive 3 (.frame after)]
    let effects := (f.advanceAll steps).1
    f.session = none ∧ ClockFits steps ∧ steps.length < Word.bound64 ∧
      (∃ r ∈ Effect.tradeReports effects, AllReadBack r.numbers ∧
        Schema.ofText TradeReport.read r.text = .ok r) ∧
      ∃ r ∈ Effect.bookReports effects, AllReadBack r.numbers ∧ r.kind = .delta ∧
        Schema.ofText BookReport.read r.text = .ok r := by
  intro f sold before after steps effects
  have clock : ClockFits steps := by decide
  have short : steps.length < Word.bound64 := by decide
  obtain ⟨trades, books⟩ := texts_readable_iff (f := f) rfl clock short
  have trade : ∃ r ∈ Effect.tradeReports effects, AllReadBack r.numbers ∧
      AllFinite [r.metrics.volume, r.metrics.volatility] := by decide +kernel
  have book : ∃ r ∈ Effect.bookReports effects, AllReadBack r.numbers ∧ r.kind = .delta ∧
      AllFinite r.metrics.numbers := by decide +kernel
  obtain ⟨r, tradeMember, tradeBack, tradeFinite⟩ := trade
  obtain ⟨b, bookMember, bookBack, kind, bookFinite⟩ := book
  have tradeRead := (trades r tradeMember tradeBack).2 tradeFinite
  have bookRead := (books b bookMember bookBack).2 bookFinite
  exact ⟨rfl, clock, short, ⟨r, tradeMember, tradeBack, tradeRead⟩,
    ⟨b, bookMember, bookBack, kind, bookRead⟩⟩

/-- A price and a size that are finite, but whose product is not. -/
theorem text_unreadable_of_overflow :
    let f := served .binance .default
    let sold := "\x7b\x22e\x22:\x22trade\x22,\x22s\x22:\x22BTCUSDT\x22,\x22p\x22:\x221e200\x22," ++
      "\x22q\x22:\x221e200\x22,\x22m\x22:true,\x22t\x22:7\x7d"
    let effects := (f.advanceAll [.prepare, .start, .arrive 1 (.frame sold)]).1
    f.session = none ∧ ∃ r ∈ Effect.tradeReports effects, AllReadBack r.numbers ∧
      Schema.ofText TradeReport.read r.text ≠ .ok r := by
  intro f sold effects
  have overflow : ∃ r ∈ Effect.tradeReports effects, AllReadBack r.numbers ∧
      ¬ AllFinite [r.metrics.volume, r.metrics.volatility] := by decide +kernel
  obtain ⟨r, member, back, infinite⟩ := overflow
  refine ⟨rfl, r, member, back, fun read => infinite ?_⟩
  exact (trade_text_iff (f := f) rfl (by decide) (by decide) member back).1 read

end Feed

end Tape
