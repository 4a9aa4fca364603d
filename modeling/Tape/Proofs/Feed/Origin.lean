import Tape.Proofs.Feed.Separation
import Tape.Proofs.Feed.Figures
import Tape.Proofs.Stats.Steps
import Tape.Proofs.Wire.Output

/-!
# Where the reports of a feed come from

All that a feed shows of a market it shows over a frame that names the market. The session that the
frame reached is sound at that time: its books and what it remembers of published ones hold only
levels that may be published, and its windows are none that cannot be had.
-/

namespace Tape

/-! ## What a session keeps sound -/

/-- The windows of all symbols could be had. -/
def WindowsFit (windows : SymbolTable (Window Float)) : Prop :=
  ∀ symbol window, SymbolTable.get? symbol windows = some window →
    8 * window.capacity ≤ Window.byteLimit

theorem WindowsFit.set {windows : SymbolTable (Window Float)} (fit : WindowsFit windows)
    {window : Window Float} (fits : 8 * window.capacity ≤ Window.byteLimit) (symbol : String) :
    WindowsFit (SymbolTable.set symbol window windows) := by
  intro other held same
  by_cases own : other = symbol
  · rw [own, SymbolTable.get?_set_self] at same
    cases same
    exact fits
  · rw [SymbolTable.get?_set_of_ne own] at same
    exact fit other held same

theorem TradeMetrics.capacity_compute (price amount : Float) (w : Window Float) :
    (compute price amount w).2.capacity = w.capacity :=
  w.capacity_push price

theorem BookMetrics.capacity_compute (bids asks : List (Level Float)) (depth : Nat)
    (w : Window Float) : (compute bids asks depth w).2.capacity = w.capacity := by
  unfold compute
  split
  · rw [Window.capacity_pushSizes, Window.capacity_push]
  · rfl

namespace DeltaEncoder

/-- All that is remembered of published books may be published. -/
def Sound (e : DeltaEncoder) : Prop :=
  ∀ symbol published, SymbolTable.get? symbol e.published = some published →
    (∀ level ∈ published.bids, level.Sound) ∧ ∀ level ∈ published.asks, level.Sound

theorem sound_new (interval : Option Nat) : (new interval).Sound := by
  intro symbol published held
  cases held

theorem Sound.store {e : DeltaEncoder} (sound : e.Sound) {book : Snapshot}
    (canonical : book.Canonical) (depth checkpointAt : Nat) :
    (e.store book depth checkpointAt).Sound := by
  intro symbol published held
  by_cases own : symbol = book.symbol
  · rw [own, get?_store_self] at held
    cases held
    exact ⟨fun level member => canonical.bids_sound level (List.mem_of_mem_take member),
      fun level member => canonical.asks_sound level (List.mem_of_mem_take member)⟩
  · rw [get?_store_of_ne _ _ _ _ own] at held
    exact sound symbol published held

theorem Sound.next {e : DeltaEncoder} (sound : e.Sound) {book : Snapshot}
    (canonical : book.Canonical) (depth now : Nat) : (e.next book depth now).2.Sound := by
  rcases e.next_cases book depth now with ⟨_, call⟩ | ⟨_, _, _, ⟨_, _, call⟩ | ⟨_, call⟩⟩
  · rw [call]
    exact sound.store canonical _ _
  · rw [call]
    exact sound
  · rw [call]
    exact sound.store canonical _ _

end DeltaEncoder

namespace Session

/-- What a session holds may be published, and its windows could be had. -/
structure Sound (s : Session) : Prop where
  store : s.store.Sound
  encoder : ∀ encoder, s.encoder = some encoder → encoder.Sound
  tradeWindows : WindowsFit s.tradeWindows
  bookWindows : WindowsFit s.bookWindows

variable {s : Session}

theorem sound_start (profile : Profile) : (Session.start profile).Sound where
  store := BookStore.sound_withDepth _
  encoder := by
    intro encoder held
    simp only [Session.start, encoderOf] at held
    split at held
    · cases held
    · cases held
      exact DeltaEncoder.sound_new _
  tradeWindows := by
    intro symbol window held
    cases held
  bookWindows := by
    intro symbol window held
    cases held

/-- A window that a session comes by could be had. -/
theorem fits_of_window? {windows : SymbolTable (Window Float)} (fit : WindowsFit windows)
    {symbol : String} {window : Window Float} (held : s.window? windows symbol = some window) :
    8 * window.capacity ≤ Window.byteLimit := by
  rw [window?] at held
  split at held
  next known =>
    cases held
    exact fit symbol _ known
  next =>
    rw [Window.ofSize?] at held
    split at held
    next room =>
      cases held
      exact room
    next => cases held

theorem Sound.takeIn (sound : s.Sound) (now : Instant) (text : String) :
    (s.takeIn now text).Sound where
  store := (sound.store.decode s.profile.venue now.decoded text).2
  encoder := sound.encoder
  tradeWindows := sound.tradeWindows
  bookWindows := sound.bookWindows

theorem Sound.encoderAfter (sound : s.Sound) {book : Snapshot} (canonical : book.Canonical)
    (now : Nat) (encoder : DeltaEncoder) (held : s.encoderAfter now book = some encoder) :
    encoder.Sound := by
  rw [Session.encoderAfter, update] at held
  cases before : s.encoder with
  | none =>
      rw [before] at held
      split at held <;> cases held
  | some previous =>
      rw [before] at held
      split at held
      · cases held
        exact (sound.encoder previous before).next canonical _ _
      · cases held
        exact sound.encoder _ before

theorem Sound.onEvent (sound : s.Sound) {venue : Venue} {event : Event}
    (published : event.Sound venue) (now : Instant) : (s.onEvent now event).session.Sound := by
  have answer := s.answers now event
  generalize s.onEvent now event = turn at answer
  cases answer with
  | trade t window held =>
      refine ⟨sound.store, sound.encoder, sound.tradeWindows.set ?_ _, sound.bookWindows⟩
      rw [TradeMetrics.capacity_compute]
      exact fits_of_window? sound.tradeWindows held
  | book b window held =>
      refine ⟨sound.store, sound.encoderAfter published.2.1 _, sound.tradeWindows,
        sound.bookWindows.set ?_ _⟩
      rw [BookMetrics.capacity_compute]
      exact fits_of_window? sound.bookWindows held
  | lostTrade => exact ⟨sound.store, sound.encoder, sound.tradeWindows, sound.bookWindows⟩
  | lostBook => exact ⟨sound.store, sound.encoder, sound.tradeWindows, sound.bookWindows⟩
  | heartbeat => exact sound
  | unknown => exact sound
  | rejected error => exact sound

/-- A session stays sound whatever it reacts to. -/
theorem Reacts.sound {now : Instant} {signal : Signal} {turn : Turn}
    (reacts : s.Reacts now signal turn)
    (sound : s.Sound) : turn.session.Sound := by
  cases reacts with
  | frame text waits =>
      rw [onFrame_eq]
      exact (sound.takeIn now text).onEvent
        (sound.store.decode s.profile.venue now.decoded text).1 now
  | reconnected reply waits =>
      cases reply with
      | some error => exact ⟨sound.store, sound.encoder, sound.tradeWindows, sound.bookWindows⟩
      | none =>
          refine ⟨⟨sound.store.deep, fun symbol => LiveBook.sound_empty⟩, ?_, sound.tradeWindows,
            sound.bookWindows⟩
          intro encoder held
          obtain ⟨before, _, rfl⟩ := Option.map_eq_some_iff.1 held
          exact DeltaEncoder.sound_new _
  | sent reply waits =>
      cases reply <;> exact ⟨sound.store, sound.encoder, sound.tradeWindows, sound.bookWindows⟩
  | finished waits => exact ⟨sound.store, sound.encoder, sound.tradeWindows, sound.bookWindows⟩
  | failed error waits => exact ⟨sound.store, sound.encoder, sound.tradeWindows, sound.bookWindows⟩
  | closed reply waits => exact ⟨sound.store, sound.encoder, sound.tradeWindows, sound.bookWindows⟩
  | stopped open' => exact ⟨sound.store, sound.encoder, sound.tradeWindows, sound.bookWindows⟩
  | idle signal other => exact sound

/-- Only a frame makes a session show something of a market. -/
theorem Reacts.frame_of_shown {now : Instant} {signal : Signal} {turn : Turn}
    (reacts : s.Reacts now signal turn) {effect : Effect} (shown : effect ∈ turn.effects)
    {symbol : String} (about : effect.symbol? = some symbol) :
    ∃ text, signal = .arrived (.frame text) ∧ turn = s.onFrame now text := by
  have called : ∀ {message call}, call.symbol? = none →
      effect ∈ s.told (.error message) ++ [call] → effect.symbol? = none := by
    intro message call none member
    rcases List.mem_append.1 member with told | called
    · rw [eq_of_mem_told told]
      rfl
    · rw [List.mem_singleton.1 called]
      exact none
  have silent : effect.symbol? ≠ none := by rw [about]; exact Option.some_ne_none _
  cases reacts with
  | frame text waits => exact ⟨text, rfl, rfl⟩
  | finished waits => exact absurd (called rfl shown) silent
  | failed error waits => exact absurd (called rfl shown) silent
  | reconnected reply waits =>
      cases reply with
      | some error => exact absurd (called rfl shown) silent
      | none =>
          rw [List.mem_singleton.1 shown] at about
          cases about
  | sent reply waits =>
      cases reply with
      | some error =>
          rw [eq_of_mem_told shown] at about
          cases about
      | none => cases shown
  | closed reply waits => cases shown
  | stopped open' =>
      rw [List.mem_singleton.1 shown] at about
      cases about
  | idle signal other => cases shown

end Session

namespace Feed

variable {f : Feed} {step : Step} {result : List Effect × Feed}

/-! ## What a feed shows -/

/-- The session of a feed, if it has one, is sound and of the venue of the feed. -/
def Sound (f : Feed) : Prop :=
  ∀ session source, f.session = some (session, source) →
    session.Sound ∧ session.profile.venue = f.venue

theorem sound_of_no_session (idle : f.session = none) : f.Sound := by
  intro session source running
  cases idle.symm.trans running

theorem Sound.taken (sound : f.Sound) {session : Session} {source : Source} {now : Instant}
    {signal : Signal} {turn : Turn} (running : f.session = some (session, source))
    (reacts : session.Reacts now signal turn) (rest : Source) : (f.taken turn rest).Sound := by
  intro later source same
  cases same
  obtain ⟨held, venue⟩ := sound session _ running
  refine ⟨reacts.sound held, ?_⟩
  rw [reacts.profile]
  exact venue

theorem Advances.sound (advances : f.Advances step result) (sound : f.Sound) : result.2.Sound := by
  cases advances with
  | prepared => exact sound
  | failed => exact sound
  | started source held fresh =>
      intro session other same
      cases same
      exact ⟨Session.sound_start _, rfl⟩
  | notStarted => exact sound
  | stopped => exact sound_of_no_session rfl
  | heard session source now arrival turn running reacts => exact sound.taken running reacts _
  | unheard => exact sound
  | answered session source rest now reply turn running reacts =>
      exact sound.taken running reacts _
  | noCall => exact sound

/-- A step that shows something of a market is the arrival of a frame. -/
theorem Advances.frame_of_shown (advances : f.Advances step result) (sound : f.Sound)
    {effect : Effect} (shown : effect ∈ result.1) {symbol : String}
    (about : effect.symbol? = some symbol) :
    ∃ (session : Session) (now : Instant) (text : String), step = .arrive now (.frame text) ∧
      session.Sound ∧ session.profile.venue = f.venue ∧
        result.1 = (session.onFrame now text).effects := by
  have silent : effect.isCall ≠ true := by
    cases effect <;> first | exact Bool.false_ne_true | cases about
  cases advances with
  | prepared calls source made held => exact absurd (made effect shown) silent
  | failed calls source cause made kept =>
      rcases List.mem_append.1 shown with called | said
      · exact absurd (made effect called) silent
      · rw [told] at said
        split at said
        · rw [List.mem_singleton.1 said] at about
          cases about
        · cases said
  | started => cases shown
  | notStarted => cases shown
  | stopped effects few =>
      rcases few with rfl | rfl
      · cases shown
      · rw [List.mem_singleton.1 shown] at silent
        exact absurd rfl silent
  | heard session source now arrival turn running reacts =>
      obtain ⟨text, same, rfl⟩ := reacts.frame_of_shown shown about
      cases same
      obtain ⟨held, venue⟩ := sound session source running
      exact ⟨session, now, text, rfl, held, venue, rfl⟩
  | unheard => cases shown
  | answered session source rest now reply turn running reacts =>
      obtain ⟨text, same, _⟩ := reacts.frame_of_shown shown about
      cases same
  | noCall => cases shown

/-- What a feed shows of a market it shows over a frame, which reached a sound session. -/
theorem exists_frame_of_shown (sound : f.Sound) {steps : List Step} {effect : Effect}
    (shown : effect ∈ (f.advanceAll steps).1) {symbol : String}
    (about : effect.symbol? = some symbol) :
    ∃ (session : Session) (now : Instant) (text : String), .arrive now (.frame text) ∈ steps ∧
      session.Sound ∧ session.profile.venue = f.venue ∧
        effect ∈ (session.onFrame now text).effects := by
  induction steps generalizing f with
  | nil => cases shown
  | cons step rest ih =>
      have advances := f.advances step
      rcases List.mem_append.1 shown with here | later
      · obtain ⟨session, now, text, rfl, held, venue, same⟩ :=
          advances.frame_of_shown sound here about
        exact ⟨session, now, text, List.mem_cons_self, held, venue, same ▸ here⟩
      · obtain ⟨session, now, text, member, held, venue, made⟩ := ih (advances.sound sound) later
        exact ⟨session, now, text, List.mem_cons_of_mem _ member, held,
          venue.trans advances.venue, made⟩

/-- What a feed shows is about the markets that its frames name. -/
theorem exists_name_of_shown (sound : f.Sound) {steps : List Step} {effect : Effect}
    (shown : effect ∈ (f.advanceAll steps).1) {symbol : String}
    (about : effect.symbol? = some symbol) :
    ∃ now text, .arrive now (.frame text) ∈ steps ∧ f.venue.symbolOf? text = some symbol := by
  obtain ⟨session, now, text, member, _, venue, made⟩ := exists_frame_of_shown sound shown about
  refine ⟨now, text, member, ?_⟩
  rw [Session.onFrame_eq] at made
  rw [Session.symbol?_of_mem_onEvent made] at about
  rw [← venue]
  exact Venue.symbolOf?_of_decode about

end Feed

end Tape
