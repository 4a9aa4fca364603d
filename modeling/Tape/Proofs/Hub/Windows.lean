import Tape.Proofs.Feed.Figures
import Tape.Proofs.Hub.Places
import Tape.Proofs.Hub.Registration

/-!
# The windows of a hub

A session sets up a window over the first event of a symbol, of the size that the settings name.
Settings are checked for a size that is too small and not for one that is too large: above a
certain size the queues of a window cannot be had, and the first event ends the session.
-/

namespace Tape

namespace Window

/-- The bytes that each queue of a new window asks for. -/
def bytesOf (size : Nat) : Nat := 8 * max size 1

/-- The largest size of which a window can be had. -/
def largestSize : Nat := byteLimit / 8

theorem bytesOf_le_byteLimit_iff {size : Nat} : bytesOf size ≤ byteLimit ↔ size ≤ largestSize := by
  have limit : byteLimit = 9223372036854775807 := rfl
  rw [bytesOf, largestSize, limit]
  omega

end Window

namespace Session

variable {s : Session} {now : Instant}

/-- The symbol of which an event is the first, so that a window is set up. -/
def newcomer? (s : Session) : Event → Option String
  | .trade t => if SymbolTable.get? t.symbol s.tradeWindows = none then some t.symbol else none
  | .book b => if SymbolTable.get? b.symbol s.bookWindows = none then some b.symbol else none
  | .heartbeat | .unknown | .rejected _ => none

/-- The bytes that each queue asks for which a frame makes the session set up. -/
def requested? (s : Session) (now : Instant) (text : String) : Option Nat :=
  (s.newcomer? (s.decoded now text).1).map fun _ => Window.bytesOf s.profile.options.window

theorem window?_of_known {windows : SymbolTable (Window Float)} {symbol : String}
    (known : SymbolTable.get? symbol windows ≠ none) :
    ∃ window, s.window? windows symbol = some window := by
  obtain ⟨window, held⟩ := Option.ne_none_iff_exists'.1 known
  exact ⟨window, by rw [window?, held]⟩

/-- An event does not end a session that knows its symbol. -/
theorem phase_onEvent_of_known {event : Event} (known : s.newcomer? event = none) :
    (s.onEvent now event).session.phase = s.phase := by
  cases event with
  | trade t =>
    have held : SymbolTable.get? t.symbol s.tradeWindows ≠ none := by
      intro absent
      rw [newcomer?, if_pos absent] at known
      cases known
    obtain ⟨window, found⟩ := window?_of_known held
    rw [onEvent, onTrade_of_window found]
  | book b =>
    have held : SymbolTable.get? b.symbol s.bookWindows ≠ none := by
      intro absent
      rw [newcomer?, if_pos absent] at known
      cases known
    obtain ⟨window, found⟩ := window?_of_known held
    rw [onEvent, onBook_of_window found]
  | heartbeat => rfl
  | unknown => rfl
  | rejected error => rfl

/-- Without room for windows the first event of a symbol ends a session, and is not shown. -/
theorem onEvent_of_newcomer (full : ¬ s.profile.options.HasRoom) {event : Event} {symbol : String}
    (first : s.newcomer? event = some symbol) :
    (s.onEvent now event).effects = [] ∧ (s.onEvent now event).session.phase = .ended := by
  have lost {windows : SymbolTable (Window Float)} {symbol : String}
      (absent : SymbolTable.get? symbol windows = none) : s.window? windows symbol = none := by
    rw [window?, absent]
    exact if_neg full
  cases event with
  | trade t =>
    obtain ⟨absent, _⟩ := Option.ite_none_right_eq_some.1 first
    rw [onEvent, onTrade_of_no_window (lost absent)]
    exact ⟨rfl, rfl⟩
  | book b =>
    obtain ⟨absent, _⟩ := Option.ite_none_right_eq_some.1 first
    rw [onEvent, onBook_of_no_window (lost absent)]
    exact ⟨rfl, rfl⟩
  | heartbeat => cases first
  | unknown => cases first
  | rejected error => cases first

theorem requested?_eq_some_iff {text : String} {bytes : Nat} :
    s.requested? now text = some bytes ↔
      (∃ symbol, s.newcomer? (s.decoded now text).1 = some symbol) ∧
        Window.bytesOf s.profile.options.window = bytes := by
  rw [requested?, Option.map_eq_some_iff, exists_and_right]

theorem requested?_eq_none_iff {text : String} :
    s.requested? now text = none ↔ s.newcomer? (s.decoded now text).1 = none :=
  Option.map_eq_none_iff

end Session

/-! ## Options of sessions -/

namespace Hub

theorem tied_launch {f : Feed} (idle : f.session = none) (hasBus : Bool) :
    (launch hasBus f).feed.Tied := by
  have prepared := (Feed.advances_prepare { f with publishes := f.publishes || hasBus }).tied
    (Feed.tied_of_no_session idle)
  rcases feed_launch_cases hasBus f with same | same
  · rw [same]
    exact prepared
  · rw [same]
    exact (Feed.advances_start _).tied prepared

theorem tied_of_act {h : Hub} (tied : ∀ f ∈ h.feeds, f.Tied) (sound : h.Sound) (step : Step) :
    ∀ f ∈ (h.act step).2.feeds, f.Tied := by
  refine forall_feeds_act (fun _ _ _ _ => Feed.tied_of_no_session rfl) ?_ ?_ tied sound step
  · exact fun hasBus _ idle _ => tied_launch idle hasBus
  · exact fun went tied => went.tied tied

/-- The sessions of all feeds have what their feeds had at the start. -/
theorem tied_of_advanceAll {h : Hub} (tied : ∀ f ∈ h.feeds, f.Tied) (sound : h.Sound)
    (steps : List Step) : ∀ f ∈ (h.advanceAll steps).2.feeds, f.Tied := by
  induction steps generalizing h with
  | nil => exact tied
  | cons step rest ih => exact ih (tied_of_act tied sound step) (sound.act step).1

theorem options_of_session {settings : Settings} (passes : settings.check = .ok ())
    (steps : List Step) {f : Feed} (listed : f ∈ ((new settings).advanceAll steps).2.feeds)
    {session : Session} {source : Source} (running : f.session = some (session, source)) :
    session.profile.options = settings.options := by
  have tied := tied_of_advanceAll (fun _ member => (List.not_mem_nil member).elim)
    (sound_new settings) steps f listed
  have same : ((new settings).advanceAll steps).2.settings = settings :=
    (sound_advanceAll (sound_new settings) steps).2
  -- Settings that pass are within the bounds that feeds clamp them to, so nothing is changed there.
  have clamped := isConfigured_advanceAll settings steps f listed
  rw [same, (Settings.parts_of_check passes).1] at clamped
  rw [tied.profile running]
  exact clamped

/-- With settings that pass, whatever has happened before: the queues that a session sets up over a
frame ask for eight bytes for each place that the settings name. With a size up to the largest the
session goes on, and with any other it ends and does not show the event. A frame over which none is
set up does not end it. -/
theorem windows_as_large_as_settings (settings : Settings) (passes : settings.check = .ok ())
    (steps : List Step) {f : Feed} (listed : f ∈ ((new settings).advanceAll steps).2.feeds)
    {session : Session} {source : Source} (running : f.session = some (session, source))
    (waits : session.phase = .frame) (now : Instant) (text : String) :
    let turn := session.react now (.arrived (.frame text))
    (∀ bytes, session.requested? now text = some bytes →
      bytes = 8 * settings.window ∧
      (bytes ≤ Window.byteLimit ↔ settings.window ≤ Window.largestSize) ∧
      (settings.window ≤ Window.largestSize → turn.session.phase = .frame) ∧
      (Window.largestSize < settings.window → turn.effects = [] ∧ turn.session.phase = .ended)) ∧
    (session.requested? now text = none → turn.session.phase = .frame) := by
  intro turn
  have options := options_of_session passes steps listed running
  have room : session.profile.options.HasRoom ↔ settings.window ≤ Window.largestSize := by
    rw [options]
    exact Window.bytesOf_le_byteLimit_iff
  have same : turn = (session.takeIn now text).onEvent now (session.decoded now text).1 :=
    (Session.react_frame waits now text).trans (session.onFrame_eq now text)
  rw [same]
  constructor
  · intro bytes requested
    obtain ⟨⟨symbol, first⟩, rfl⟩ := Session.requested?_eq_some_iff.1 requested
    have size : max settings.window 1 = settings.window :=
      congrArg OutputOptions.window (Settings.parts_of_check passes).1
    refine ⟨?_, ?_, fun small => ?_, fun large => ?_⟩
    · rw [options]
      exact congrArg (8 * ·) size
    · rw [options]
      exact Window.bytesOf_le_byteLimit_iff
    · exact (Session.phase_onEvent (s := session.takeIn now text) (room.2 small) now _).trans waits
    · exact Session.onEvent_of_newcomer (s := session.takeIn now text)
        (fun roomy => Nat.not_le.2 large (room.1 roomy)) first
  · intro known
    rw [Session.requested?_eq_none_iff] at known
    exact (Session.phase_onEvent_of_known (s := session.takeIn now text) known).trans waits

/-- A started feed takes the first trade of a symbol with windows of the default size. -/
theorem windows_as_large_as_settings_of_default :
    let feed : FeedSettings :=
      { FeedSettings.default with name := "bybit", symbols := ["BTC-USDT"] }
    let willing : Source := ⟨.always none, .always none, .always none, .always none⟩
    let bought := "\x7b\x22topic\x22:\x22publicTrade.BTCUSDT\x22,\x22data\x22:[\x7b\x22s\x22:" ++
      "\x22BTCUSDT\x22,\x22p\x22:\x2250000.1\x22,\x22v\x22:\x220.01\x22,\x22S\x22:\x22Buy\x22," ++
      "\x22i\x22:\x22123\x22\x7d]\x7d"
    let steps : List Step := [.add ⟨feed, fun _ => willing, true⟩, .start ⟨none, none⟩]
    let h := ((new .default).advanceAll steps).2
    Settings.default.check = .ok () ∧
      ∃ f session source, f ∈ h.feeds ∧ f.session = some (session, source) ∧
        session.phase = .frame ∧ session.requested? 1 bought = some 160 ∧
        (session.react 1 (.arrived (.frame bought))).session.phase = .frame := by
  intro feed willing bought steps h
  have passes : Settings.default.check = .ok () := by decide
  have sessions : h.feeds.map (fun f => f.session.map fun running =>
      (running.1.phase, running.1.requested? 1 bought)) = [some (.frame, some 160)] := by
    decide +kernel
  obtain ⟨f, one, started⟩ := List.map_eq_singleton_iff.1 sessions
  obtain ⟨⟨session, source⟩, running, same⟩ := Option.map_eq_some_iff.1 started
  obtain ⟨waits, requested⟩ := Prod.mk.inj same
  have listed : f ∈ h.feeds := by
    rw [one]
    exact List.mem_singleton_self f
  have windows := windows_as_large_as_settings .default passes steps listed running waits 1 bought
  obtain ⟨_, _, goesOn, _⟩ := windows.1 160 requested
  exact ⟨passes, f, session, source, listed, running, waits, requested, goesOn (by decide)⟩

/-- Settings that pass name a size of which no window can be had: the first trade ends the session
of a started feed, and is not shown. -/
theorem trade_lost_to_settings_that_pass :
    let feed : FeedSettings :=
      { FeedSettings.default with name := "bybit", symbols := ["BTC-USDT"] }
    let willing : Source := ⟨.always none, .always none, .always none, .always none⟩
    let settings : Settings := { Settings.default with window := 1152921504606846976 }
    let bought := "\x7b\x22topic\x22:\x22publicTrade.BTCUSDT\x22,\x22data\x22:[\x7b\x22s\x22:" ++
      "\x22BTCUSDT\x22,\x22p\x22:\x2250000.1\x22,\x22v\x22:\x220.01\x22,\x22S\x22:\x22Buy\x22," ++
      "\x22i\x22:\x22123\x22\x7d]\x7d"
    let h := ((new settings).advanceAll
      [.add ⟨feed, fun _ => willing, true⟩, .start ⟨none, none⟩]).2
    let went := h.advance (.happen 0 (.arrived 1 (.frame bought)))
    settings.check = .ok () ∧
      h.feeds.map (fun f => f.session.map fun running => running.1.requested? 1 bought) =
        [some (some 9223372036854775808)] ∧
      Window.byteLimit < 9223372036854775808 ∧ went.1.effects = [] ∧
      went.2.feeds.map (fun f => f.session.map fun running => running.1.phase) = [some .ended] := by
  decide +kernel

end Hub

end Tape
