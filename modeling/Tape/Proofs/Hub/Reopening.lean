import Tape.Proofs.Feed.Numbering
import Tape.Proofs.Hub.Places

/-!
# Starting a hub again

A feed hands its source over when it is first started, for good. A stopped hub can be started again
and is given its bus anew, but the feeds that ran in it are left out: each is counted an error, and
what its source delivers from then on is lost.
-/

namespace Tape

namespace Session

variable {s : Session}

theorem phase_receiveAll (room : s.profile.options.HasRoom) (waits : s.phase = .frame)
    (frames : List (Instant × String)) : (s.receiveAll frames).session.phase = .frame := by
  induction frames generalizing s with
  | nil => exact waits
  | cons first rest ih =>
      obtain ⟨now, text⟩ := first
      have profile := profile_onFrame s now text
      have still := (phase_onFrame room now text).trans waits
      have next : s.receiveAll ((now, text) :: rest) =
          ⟨(s.onFrame now text).effects ++ ((s.onFrame now text).session.receiveAll rest).effects,
            (s.onFrame now text).counts + ((s.onFrame now text).session.receiveAll rest).counts,
            ((s.onFrame now text).session.receiveAll rest).session⟩ := by
        rw [← react_frame waits]
        rfl
      rw [next]
      exact ih (profile ▸ room) still

end Session

namespace Feed

variable {f : Feed} {source : Source}

/-! ## One feed -/

/-- Between two requests a feed keeps its source, if it still has it. -/
theorem source_advance (f : Feed) (happening : Happening) :
    (f.advance happening.step).2.source = f.source := by
  have advances := f.advances happening.step
  generalize f.advance happening.step = result at advances
  cases happening <;> cases advances <;> rfl

theorem source_advanceAll (f : Feed) (happenings : List Happening) :
    (f.advanceAll (happenings.map Happening.step)).2.source = f.source := by
  induction happenings generalizing f with
  | nil => rfl
  | cons first rest ih => exact (ih _).trans (f.source_advance first)

theorem source_stop (f : Feed) : f.stop.2.source = f.source := by
  obtain ⟨effects, _, same⟩ := f.stop_eq
  rw [same]

/-- A source that opens is handed over. -/
theorem launch_of_opens (idle : f.session = none) (held : f.source = some source)
    (opens : source.opens = true) (hasBus : Bool) :
    ∃ rest, Hub.launch hasBus f = ⟨none, [.connect, .send f.subscription],
      { f.withBus hasBus with
        source := none
        isReady := true
        session := some (.start (f.withBus hasBus).profile, rest) }⟩ := by
  obtain ⟨connects, sends⟩ : source.connect.1 = none ∧ source.connect.2.send.1 = none := by
    simpa [Source.opens] using opens
  have launches := f.launches idle hasBus
  generalize Hub.launch hasBus f = launched at launches ⊢
  cases launches with
  | spent gone => cases held.symm.trans gone
  | refused other rest cause same reply =>
      cases held.symm.trans same
      cases connects.symm.trans reply
  | unsubscribed other rest cause same _ reply =>
      cases held.symm.trans same
      cases sends.symm.trans reply
  | opened other rest same => exact ⟨rest, rfl⟩

/-- A feed without a source does not start. -/
theorem launch_of_spent (spent : f.Spent) (hasBus : Bool) :
    Hub.launch hasBus f = ⟨some (.notReady f.venue alreadyStarted.message),
      f.told (f.complaint alreadyStarted),
      { f.withBus hasBus with counters := f.counters + .oneError }⟩ := by
  have launches := f.launches spent.session hasBus
  generalize Hub.launch hasBus f = launched at launches ⊢
  cases launches with
  | spent gone => rfl
  | refused other rest cause same => cases same.symm.trans spent.source
  | unsubscribed other rest cause same => cases same.symm.trans spent.source
  | opened other rest same => cases same.symm.trans spent.source

end Feed

namespace Hub

variable {h : Hub}

/-! ## Feeds in a start -/

/-- Frames as events, each with the place of its feed. -/
def arrivals (frames : List (Nat × Instant × String)) : List (Nat × Happening) :=
  frames.map fun frame => (frame.1, .arrived frame.2.1 (.frame frame.2.2))

/-- A feed that a start gets going: its source is opened and handed over, and whatever frames come,
they are decoded and reported as a new session does. -/
structure GetsGoing (start : Deed × Hub) (place : Nat) (f : Feed) (hasBus : Bool) : Prop where
  calls : atPlace place start.1.effects = [.connect, .send f.subscription]
  runs : ∃ g, start.2.feeds[place]? = some g ∧ g.isRunning = true ∧ g.source = none ∧
    g.counters = f.counters
  reports : ∀ frames,
    let went := start.2.advanceAll (happenings (arrivals frames))
    let seen := (Session.start (f.withBus hasBus).profile).receiveAll (atPlace place frames)
    atPlace place (went.1.flatMap Deed.effects) = seen.effects ∧
      ∃ g, went.2.feeds[place]? = some g ∧ g.counters = f.counters + seen.counts ∧
        (f.options.HasRoom → g.isRunning = true)

/-- A feed that a start leaves out: nothing is asked of a source, and nothing is done about what
happens to the feed. -/
structure IsLeftOut (start : Deed × Hub) (place : Nat) (f : Feed) : Prop where
  told : atPlace place start.1.effects = f.told (f.complaint Feed.alreadyStarted)
  idle : ∃ g, start.2.feeds[place]? = some g ∧ g.isRunning = false ∧
    g.counters = f.counters + .oneError
  silent : ∀ events,
    let went := start.2.advanceAll (happenings events)
    atPlace place (went.1.flatMap Deed.effects) = [] ∧
      went.2.feeds[place]? = start.2.feeds[place]?

theorem atPlace_arrivals (place : Nat) (frames : List (Nat × Instant × String)) :
    (atPlace place (arrivals frames)).map Happening.step =
      (atPlace place frames).map fun frame => .arrive frame.1 (.frame frame.2) := by
  rw [arrivals, atPlace_map place fun frame : Instant × String => Happening.arrived frame.1
    (.frame frame.2), List.map_map]
  rfl

section Start

variable {start : Deed × Hub} {place : Nat} {f : Feed} {hasBus : Bool}

theorem getsGoing (idle : f.session = none) {source : Source} (held : f.source = some source)
    (opens : source.opens = true)
    (made : atPlace place start.1.effects = (launch hasBus f).effects)
    (found : start.2.feeds[place]? = some (launch hasBus f).feed) :
    GetsGoing start place f hasBus := by
  obtain ⟨rest, launched⟩ := f.launch_of_opens idle held opens hasBus
  rw [launched] at made found
  refine ⟨made, ⟨_, found, rfl, rfl, rfl⟩, fun frames => ?_⟩
  obtain ⟨effects, after⟩ := advanceAll_atPlace found (arrivals frames)
  rw [atPlace_arrivals, Feed.advanceAll_frames rfl] at effects after
  refine ⟨effects, _, after, rfl, fun room => ?_⟩
  have phase := Session.phase_receiveAll (s := .start (f.withBus hasBus).profile) room rfl
    (atPlace place frames)
  simp [Feed.isRunning, Feed.taken, Session.isLive, phase]

theorem isLeftOut (spent : f.Spent)
    (made : atPlace place start.1.effects = (launch hasBus f).effects)
    (found : start.2.feeds[place]? = some (launch hasBus f).feed) : IsLeftOut start place f := by
  have launched := f.launch_of_spent spent hasBus
  generalize launch hasBus f = left at made found launched
  have idle : left.feed.session = none := by
    rw [launched]
    exact spent.session
  refine ⟨by rw [made, launched], ⟨_, found, ?_, by rw [launched]⟩, fun events => ?_⟩
  · rw [Feed.isRunning, idle]
    rfl
  · obtain ⟨effects, after⟩ := advanceAll_atPlace found events
    rw [Feed.advanceAll_of_no_session idle] at effects after
    exact ⟨effects, after.trans found.symm⟩

end Start

/-- A start gets the feeds going that still have their source, and leaves out the others. -/
theorem Sound.start_cases (sound : h.Sound) (idle : h.isRunning = false) {ports : Ports}
    (begins : (h.advance (.start ports)).1.failure = none) {place : Nat} {f : Feed}
    (found : h.feeds[place]? = some f) (opens : f.source.all Source.opens = true) :
    let start := h.advance (.start ports)
    (f.source.isSome = true → GetsGoing start place f h.settings.publishes) ∧
      (f.source = none → IsLeftOut start place f) ∧
      ∃ g, start.2.feeds[place]? = some g ∧ g.source = none := by
  obtain ⟨made, after⟩ := (sound.start_atPlace idle begins).2 place f found
  have fresh : f.session = none := sound.idle idle f (List.mem_of_getElem? found)
  cases held : f.source with
  | none =>
      have spent : f.Spent := ⟨fresh, held⟩
      refine ⟨Bool.noConfusion, fun _ => isLeftOut spent made after, _, after, ?_⟩
      rw [f.launch_of_spent spent]
      exact held
  | some source =>
      rw [held] at opens
      obtain ⟨rest, launched⟩ := f.launch_of_opens fresh held opens h.settings.publishes
      refine ⟨fun _ => getsGoing fresh held opens made after, nofun, _, after, ?_⟩
      rw [launched]

/-! ## Two starts -/

/-- The source of a feed after a start: a hub that runs already is left as it is. -/
theorem Sound.source_of_started (sound : h.Sound) {ports : Ports}
    (begins : (h.advance (.start ports)).1.failure = none) {place : Nat} {f : Feed}
    (found : h.feeds[place]? = some f) (opens : f.source.all Source.opens = true) :
    ∃ g, (h.advance (.start ports)).2.feeds[place]? = some g ∧
      g.source = if h.isRunning then f.source else none := by
  cases running : h.isRunning with
  | true =>
      rw [sound.advance_start_of_running running]
      exact ⟨f, found, rfl⟩
  | false => exact (sound.start_cases running begins found opens).2.2

/-- Between a start and the next stop feeds keep their source, if they have it. -/
theorem Sound.source_of_stopped (sound : h.Sound) {ports : Ports}
    (begins : (h.advance (.start ports)).1.failure = none) (events : List (Nat × Happening))
    {place : Nat} {f : Feed} (found : h.feeds[place]? = some f)
    (opens : f.source.all Source.opens = true) :
    let stopped := (((h.advance (.start ports)).2.advanceAll (happenings events)).2.advance .stop).2
    ∃ g, stopped.feeds[place]? = some g ∧
      g.source = if h.isRunning then f.source else none := by
  have running := sound.start_running begins
  obtain ⟨_, stops⟩ := stop_atPlace ((isRunning_advanceAll _ events).trans running)
  obtain ⟨g, there, left⟩ := sound.source_of_started begins found opens
  obtain ⟨_, after⟩ := advanceAll_atPlace there events
  refine ⟨_, (stops place _ after).2, ?_⟩
  rw [Feed.source_stop, Feed.source_advanceAll, left]

/-- A run of start, anything between, stop and start, of a hub whose sources open. The first start
gets every feed going that still has its source. After the second start the hub runs and has its bus
anew, but every feed that the first one got going is left out. -/
theorem started_again (settings : Settings) (steps : List Step) {ports again : Ports}
    (events : List (Nat × Happening)) :
    let h := ((new settings).advanceAll steps).2
    let first := h.advance (.start ports)
    let stopped := ((first.2.advanceAll (happenings events)).2.advance .stop).2
    let second := stopped.advance (.start again)
    (∀ f ∈ h.feeds, f.source.all Source.opens = true) → first.1.failure = none →
    second.1.failure = none →
      first.2.isRunning = true ∧ second.2.isRunning = true ∧
      second.2.bus.isSome = settings.publishes ∧
      ∀ place f, h.feeds[place]? = some f →
        (h.isRunning = false → f.source.isSome = true →
          GetsGoing first place f settings.publishes) ∧
        ∃ g, stopped.feeds[place]? = some g ∧
          (h.isRunning = false ∨ f.source = none → IsLeftOut second place g) ∧
          (h.isRunning = true → f.source.isSome = true →
            GetsGoing second place g settings.publishes) := by
  intro h first stopped second opens begins beginsAgain
  obtain ⟨sound, same⟩ : h.Sound ∧ h.settings = settings :=
    sound_advanceAll (sound_new settings) steps
  obtain ⟨soundStopped, settled⟩ : stopped.Sound ∧ stopped.settings = settings := by
    have went := sound_advanceAll sound (.start ports :: happenings events ++ [.stop])
    rwa [advanceAll_between, same] at went
  obtain ⟨soundSecond, sameSecond⟩ : second.2.Sound ∧ second.2.settings = stopped.settings :=
    soundStopped.act (.start again)
  have running : first.2.isRunning = true := sound.start_running begins
  have runningAgain : second.2.isRunning = true := soundStopped.start_running beginsAgain
  have idle : stopped.isRunning = false :=
    (stop_atPlace ((isRunning_advanceAll _ events).trans running)).1
  refine ⟨running, runningAgain, ?_, fun place f found => ?_⟩
  · rw [soundSecond.bus, runningAgain, sameSecond, settled]
    rfl
  have accepts := opens f (List.mem_of_getElem? found)
  refine ⟨fun resting held => ?_, ?_⟩
  · have going := (sound.start_cases resting begins found accepts).1
    rw [same] at going
    exact going held
  · obtain ⟨g, there, left⟩ := sound.source_of_stopped begins events found accepts
    have acceptsAgain : g.source.all Source.opens = true := by
      rw [left]
      cases h.isRunning with
      | true => exact accepts
      | false => rfl
    obtain ⟨going, leftOut, _⟩ := soundStopped.start_cases idle beginsAgain there acceptsAgain
    rw [left, settled] at going
    rw [left] at leftOut
    refine ⟨g, there, fun gone => leftOut ?_, fun runs held => going ?_⟩
    · rcases gone with rests | gone
      · rw [rests]
        rfl
      · rw [gone, ite_self]
    · rw [if_pos runs]
      exact held

/-- Two feeds that were started do not start again; one that was refused before does. -/
theorem started_again_of_three_feeds :
    let feed (name : String) : FeedSettings :=
      { FeedSettings.default with name := name, symbols := ["BTC-USDT"] }
    let willing : Source := ⟨.always none, .always none, .always none, .always none⟩
    let free : Ports := ⟨none, none⟩
    let early : Source :=
      { willing with connects := ⟨[some (.refused .dydx "busy")], none⟩ }
    let steps : List Step := [.add ⟨feed "bybit", fun _ => willing, true⟩,
      .add ⟨feed "binance", fun _ => willing, true⟩, .add ⟨feed "dydx", fun _ => early, true⟩,
      .start free]
    let h := ((new .default).advanceAll steps).2
    let first := h.advance (.start free)
    let stopped := ((first.2.advanceAll (happenings [])).2.advance .stop).2
    let second := stopped.advance (.start free)
    (∀ f ∈ h.feeds, f.source.all Source.opens = true) ∧ first.1.failure = none ∧
      second.1.failure = none ∧ first.2.feeds.map Feed.isRunning = [true, true, false] ∧
      second.2.feeds.map Feed.isRunning = [false, false, true] ∧
      (∃ g, IsLeftOut second 0 g) ∧ ∃ g, GetsGoing second 2 g true := by
  intro feed willing free early steps h first stopped second
  have opens : ∀ f ∈ h.feeds, f.source.all Source.opens = true := by decide +kernel
  have begins : first.1.failure = none := by decide +kernel
  have beginsAgain : second.1.failure = none := by decide +kernel
  have running : h.isRunning = true := by decide +kernel
  have spent : h.feeds[0]?.map (·.source) = some none := by decide +kernel
  have refused : h.feeds[2]?.map (·.source.isSome) = some true := by decide +kernel
  obtain ⟨f, found, gone⟩ := Option.map_eq_some_iff.1 spent
  obtain ⟨k, foundLast, held⟩ := Option.map_eq_some_iff.1 refused
  obtain ⟨_, _, _, each⟩ := started_again .default steps [] opens begins beginsAgain
  obtain ⟨_, g, _, leftOut, _⟩ := each 0 f found
  obtain ⟨_, g', _, _, going⟩ := each 2 k foundLast
  exact ⟨opens, begins, beginsAgain, by decide +kernel, by decide +kernel,
    ⟨g, leftOut (.inr gone)⟩, g', going running held⟩

/-- After a stop a feed does not start again, though the start succeeds and its source would accept
everything. -/
theorem not_started_again :
    let feed : FeedSettings :=
      { FeedSettings.default with name := "bybit", symbols := ["BTC-USDT"] }
    let willing : Source := ⟨.always none, .always none, .always none, .always none⟩
    let free : Ports := ⟨none, none⟩
    let bought := "\x7b\x22topic\x22:\x22publicTrade.BTCUSDT\x22,\x22data\x22:[\x7b\x22s\x22:" ++
      "\x22BTCUSDT\x22,\x22p\x22:\x2250000.1\x22,\x22v\x22:\x220.01\x22,\x22S\x22:\x22Buy\x22," ++
      "\x22i\x22:\x22123\x22\x7d]\x7d"
    let frames := happenings (arrivals [(0, 1, bought)])
    let h := ((new .default).advanceAll [.add ⟨feed, fun _ => willing, true⟩]).2
    let first := h.advance (.start free)
    let ran := first.2.advanceAll frames
    let second := (ran.2.advance .stop).2.advance (.start free)
    first.1.failure = none ∧ second.1.failure = none ∧
      first.2.feeds.map Feed.isRunning = [true] ∧ (ran.1.flatMap Deed.effects).length = 2 ∧
      second.2.feeds.map Feed.isRunning = [false] ∧
      (second.2.advanceAll frames).1.flatMap Deed.effects = [] := by
  decide +kernel

end Hub

end Tape
