import Tape.Proofs.Feed.Calls
import Tape.Proofs.Hub.Places

/-!
# What a stop closes

A stop closes the source of every feed that a start got going, whatever came between. A source that
was connected but would not take the subscription stays with the feed, which no session serves: a
stop passes over it, and it is never closed.
-/

namespace Tape

namespace Session

variable {s : Session}

theorem reactAll_concat (s : Session) (signals : List (Instant × Signal)) (now : Instant)
    (signal : Signal) :
    let before := s.reactAll signals
    let after := s.reactAll (signals ++ [(now, signal)])
    after.effects = before.effects ++ (before.session.react now signal).effects ∧
      after.session = (before.session.react now signal).session := by
  induction signals generalizing s with
  | nil => exact ⟨List.append_nil _, rfl⟩
  | cons first rest ih =>
      obtain ⟨effects, session⟩ := ih (s.react first.1 first.2).session
      refine ⟨?_, session⟩
      simp only [List.cons_append, reactAll, effects, List.append_assoc]

theorem isClosing_react_stop (s : Session) (now : Instant) :
    (s.react now .stop).session.IsClosing := by
  have reaction := s.reacts now .stop
  generalize s.react now .stop = turn at reaction
  cases reaction with
  | stopped open' => exact .inl rfl
  | idle _ other =>
      rw [IsClosing]
      cases phase : s.phase <;> simp_all [takes]

/-- A session that is stopped has closed its source once, as its last call. -/
theorem calls_of_stop (room : s.profile.options.HasRoom) (waits : s.phase = .frame)
    (signals : List (Instant × Signal)) (now : Instant) :
    let went := s.reactAll signals
    ∃ before, .close ∉ before ∧
      (went.effects ++ (went.session.react now .stop).effects).filterMap Effect.call? =
        before ++ [.close] := by
  intro went
  obtain ⟨effects, session⟩ := s.reactAll_concat signals now .stop
  have follows := follows_moments room (signals ++ [(now, .stop)])
  obtain ⟨before, open', calls⟩ := follows.closesOnce (by rw [waits]; exact ⟨nofun, nofun⟩)
  have closing : (went.session.react now .stop).session.phase = .close ∨
      (went.session.react now .stop).session.phase = .ended :=
    went.session.isClosing_react_stop now
  rw [session, if_pos closing] at calls
  refine ⟨before.filter (· ≠ .next), fun member => open' (List.mem_of_mem_filter member), ?_⟩
  rw [← effects, ← calls_moments, calls, List.filter_append]
  rfl

end Session

namespace Feed

variable {f : Feed} {session : Session} {source : Source}

/-! ## Sessions of a feed -/

/-- What happens to a feed is a signal to its session, or nothing. -/
theorem signal_of_happening (running : f.session = some (session, source)) (happening : Happening) :
    f.advance happening.step = ([], f) ∨ ∃ now signal rest,
      f.advance happening.step =
        ((session.react now signal).effects, f.taken (session.react now signal) rest) := by
  cases happening with
  | arrived now arrival =>
      refine .inr ⟨now, .arrived arrival, source, ?_⟩
      simp only [Happening.step, advance, hear, running]
  | answered now =>
      simp only [Happening.step, advance, answer, running]
      cases session.pending? source with
      | none => exact .inl rfl
      | some call => exact .inr ⟨now, .replied call.1, call.2, rfl⟩

/-- A feed goes on as its session does over some signals. -/
theorem exists_signals (running : f.session = some (session, source))
    (happenings : List Happening) :
    ∃ signals rest, f.advanceAll (happenings.map Happening.step) =
      ((session.reactAll signals).effects, f.taken (session.reactAll signals) rest) := by
  induction happenings generalizing f session source with
  | nil =>
      have same : f.taken ⟨[], .zero, session⟩ source = f := by
        rw [taken, Counters.add_zero, ← running]
      exact ⟨[], source, congrArg (Prod.mk []) same.symm⟩
  | cons first rest ih =>
      rcases signal_of_happening running first with idle | ⟨now, signal, left, heard⟩
      · obtain ⟨signals, last, went⟩ := ih running
        refine ⟨signals, last, ?_⟩
        simp only [List.map_cons, advanceAll, idle, went, List.nil_append]
      · obtain ⟨signals, last, went⟩ := ih (f := f.taken (session.react now signal) left) rfl
        refine ⟨(now, signal) :: signals, last, ?_⟩
        simp only [List.map_cons, advanceAll, heard, went, taken_taken]
        rfl

/-- A stop does what the session does about it; how the source is then closed shows nothing. -/
theorem stop_of_session (running : f.session = some (session, source)) :
    f.stop.1 = (session.react 0 .stop).effects := by
  obtain ⟨profile, phase, store, tradeWindows, bookWindows, numbers, encoder⟩ :=
    session
  simp only [stop, signal, running]
  cases phase <;> rfl

/-- A feed without a session does nothing, also when it is stopped. -/
theorem nothing_done (idle : f.session = none) (happenings : List Happening) :
    let went := f.advanceAll (happenings.map Happening.step)
    went.1 ++ went.2.stop.1 = [] := by
  simp only [advanceAll_of_no_session idle, stop, signal, idle, List.append_nil]

theorem calls_told (f : Feed) (message : String) :
    (f.told (.error message)).filterMap Effect.call? = [] := by
  rw [told]
  split <;> rfl

end Feed

namespace OutputOptions

theorem HasRoom.clamp {o : OutputOptions} (room : o.HasRoom) : o.clamp.HasRoom := by
  rw [HasRoom, OutputOptions.clamp, Nat.max_assoc, Nat.max_self]
  exact room

end OutputOptions

namespace Hub

variable {h : Hub}

/-! ## Sources in a start and the next stop -/

/-- A feed that was got going closes its source when it is stopped. -/
theorem calls_of_opened {f : Feed} {source : Source}
    (held : f.session = some (.start f.profile, source)) (room : f.options.HasRoom)
    (happenings : List Happening) :
    let went := f.advanceAll (happenings.map Happening.step)
    ∃ before, .close ∉ before ∧
      (went.1 ++ went.2.stop.1).filterMap Effect.call? = before ++ [.close] := by
  obtain ⟨signals, rest, went⟩ := f.exists_signals held happenings
  have running : (f.taken ((Session.start f.profile).reactAll signals) rest).session =
    some (((Session.start f.profile).reactAll signals).session, rest) := rfl
  simp only [went, Feed.stop_of_session running]
  exact Session.calls_of_stop (s := .start f.profile) room rfl signals 0

/-- What is asked of a source that a start could connect, up to the next stop. -/
structure IsAskedOf (f : Feed) (source : Source) (calls : List Call) : Prop where
  /-- A source that took the subscription is closed once, as the last call. -/
  subscribed : source.connect.2.send.1 = none → ∃ between, .close ∉ between ∧
    calls = .connect :: .send f.subscription :: (between ++ [.close])
  /-- Of any other no more is asked. -/
  unsubscribed : source.connect.2.send.1 ≠ none → calls = [.connect, .send f.subscription]

theorem isAskedOf_launch {f : Feed} {source : Source} (idle : f.session = none)
    (held : f.source = some source) (connected : source.connect.1 = none)
    (room : f.options.HasRoom) (hasBus : Bool) (happenings : List Happening) :
    let launched := launch hasBus f
    let went := launched.feed.advanceAll (happenings.map Happening.step)
    IsAskedOf f source
      ((launched.effects ++ went.1 ++ went.2.stop.1).filterMap Effect.call?) := by
  have launches := f.launches idle hasBus
  generalize launch hasBus f = launched at launches
  cases launches with
  | spent gone => cases held.symm.trans gone
  | refused other rest cause same reply =>
      cases held.symm.trans same
      cases connected.symm.trans reply
  | unsubscribed other rest cause same _ reply =>
      cases held.symm.trans same
      refine ⟨fun took => ?_, fun _ => ?_⟩
      · cases reply.symm.trans took
      · rw [List.append_assoc, Feed.nothing_done (by exact idle), List.append_nil]
        simp only [List.filterMap_cons, Effect.call?]
        rw [Feed.complaint, Feed.calls_told]
        rfl
  | opened other rest same _ took =>
      cases held.symm.trans same
      refine ⟨fun _ => ?_, fun refused => absurd took refused⟩
      obtain ⟨before, open', calls⟩ := calls_of_opened (f := { f.withBus hasBus with
        source := none, isReady := true,
        session := some (.start (f.withBus hasBus).profile, rest) }) rfl room happenings
      refine ⟨before, open', ?_⟩
      rw [List.append_assoc, List.filterMap_append, calls]
      rfl

/-- Sources from a start to the next stop, whatever comes between. A source that was connected and
took the subscription is closed, as its last call; one that did not take it is left as it is. -/
theorem closed_of_subscribed (settings : Settings) (steps : List Step) {ports : Ports}
    (room : settings.options.HasRoom) (events : List (Nat × Happening)) :
    let h := ((new settings).advanceAll steps).2
    let went := h.advanceAll (.start ports :: happenings events ++ [.stop])
    h.isRunning = false → (h.advance (.start ports)).1.failure = none →
      went.2.isRunning = false ∧
      ∀ place f source, h.feeds[place]? = some f → f.source = some source →
        source.connect.1 = none →
          IsAskedOf f source
            ((atPlace place (went.1.flatMap Deed.effects)).filterMap Effect.call?) := by
  intro h went idle begins
  obtain ⟨sound, same⟩ : h.Sound ∧ h.settings = settings :=
    sound_advanceAll (sound_new settings) steps
  have running := (isRunning_advanceAll _ events).trans (sound.start_running begins)
  obtain ⟨stopped, stops⟩ := stop_atPlace running
  subst went
  rw [advanceAll_between]
  refine ⟨stopped, fun place f source found held connected => ?_⟩
  have member := List.mem_of_getElem? found
  have roomy : f.options.HasRoom := by
    rw [isConfigured_advanceAll settings steps f member, same]
    exact room.clamp
  obtain ⟨made, after⟩ := (sound.start_atPlace idle begins).2 place f found
  obtain ⟨middle, left⟩ := advanceAll_atPlace after events
  simp only [List.flatMap_cons, List.flatMap_append, List.flatMap_nil, List.append_nil,
    atPlace_append, made, middle, (stops place _ left).1, ← List.append_assoc]
  exact isAskedOf_launch (sound.idle idle f member) held connected roomy _ _

/-- One feed is stopped while it reconnects, another one could not subscribe. -/
theorem closed_of_subscribed_or_not :
    let feed (name : String) : FeedSettings :=
      { FeedSettings.default with name := name, symbols := ["BTC-USDT"] }
    let willing : Source := ⟨.always none, .always none, .always none, .always none⟩
    let busy : Source := { willing with sends := .always (some (.refused .dydx "busy")) }
    let steps : List Step := [.add ⟨feed "bybit", fun _ => willing, true⟩,
      .add ⟨feed "dydx", fun _ => busy, true⟩]
    let events : List (Nat × Happening) :=
      [(0, .arrived 1 .finished), (0, .answered 2), (0, .answered 3), (0, .arrived 4 .finished)]
    let h := ((new .default).advanceAll steps).2
    let free : Ports := ⟨none, none⟩
    let went := h.advanceAll (.start free :: happenings events ++ [.stop])
    let calls (place : Nat) := (atPlace place (went.1.flatMap Deed.effects)).filterMap Effect.call?
    Settings.default.options.HasRoom ∧ h.isRunning = false ∧
      (h.advance (.start free)).1.failure = none ∧
      (∃ f, IsAskedOf f willing (calls 0)) ∧ (∃ f, IsAskedOf f busy (calls 1)) ∧
      (calls 0).length = 6 ∧ (calls 1).length = 2 := by
  intro feed willing busy steps events h free went calls
  have room : Settings.default.options.HasRoom := by decide
  have idle : h.isRunning = false := by decide +kernel
  have begins : (h.advance (.start free)).1.failure = none := by decide +kernel
  have first : h.feeds[0]?.map (·.source) = some (some willing) := by decide +kernel
  have second : h.feeds[1]?.map (·.source) = some (some busy) := by decide +kernel
  obtain ⟨f, found, held⟩ := Option.map_eq_some_iff.1 first
  obtain ⟨g, foundToo, heldToo⟩ := Option.map_eq_some_iff.1 second
  obtain ⟨_, asked⟩ := closed_of_subscribed .default steps room events idle begins
  exact ⟨room, idle, begins, ⟨f, asked 0 f willing found held rfl⟩,
    ⟨g, asked 1 g busy foundToo heldToo rfl⟩, by decide +kernel, by decide +kernel⟩

/-- A source that was connected and refused the subscription is still open after the stop. -/
theorem source_open_after_stop :
    let feed : FeedSettings :=
      { FeedSettings.default with name := "bybit", symbols := ["BTC-USDT"] }
    let busy : Source :=
      ⟨.always none, ⟨[some (.refused .bybit "busy")], none⟩, .always none, .always none⟩
    let h := ((new .default).advanceAll [.add ⟨feed, fun _ => busy, true⟩]).2
    let went := h.advanceAll [.start ⟨none, none⟩, .stop]
    busy.connect.1 = none ∧ went.1.map Deed.failure = [none, none] ∧ went.2.isRunning = false ∧
      ((went.1.flatMap Deed.effects).filterMap (Effect.call? ∘ Prod.snd)).length = 2 ∧
      .close ∉ (went.1.flatMap Deed.effects).map Prod.snd := by
  decide +kernel

end Hub

end Tape
