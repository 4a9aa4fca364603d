import Tape.Proofs.Hub.Steps

/-!
# The life of a hub

Whatever is asked of a hub, and whatever happens to its feeds, it has its bus exactly while it runs
and is set to publish, and nobody else has it at any other time. What is refused changes nothing;
endpoints that were bound for nothing are released at once, all others when the hub stops.
-/

namespace Tape

namespace Feed

variable {f : Feed} {step : Step} {result : List Effect × Feed}

/-- A feed that has the bus, or whose session was given it. -/
def KnowsBus (f : Feed) : Prop :=
  f.publishes = true ∨ ∃ running, f.session = some running ∧ running.1.profile.publishes = true

theorem knowsBus_of_holdsBus (holds : f.holdsBus = true) : f.KnowsBus := by
  simp only [holdsBus, Bool.or_eq_true, Option.any_eq_true, Bool.and_eq_true] at holds
  exact holds.imp id fun ⟨running, here, _, publishes⟩ => ⟨running, here, publishes⟩

theorem knowsBus_of_taken {session : Session} {source rest : Source} {now : Instant}
    {signal : Signal}
    {turn : Turn} (running : f.session = some (session, source))
    (reacts : session.Reacts now signal turn) (knows : (f.taken turn rest).KnowsBus) :
    f.KnowsBus := by
  rcases knows with publishes | ⟨_, here, publishes⟩
  · exact .inl publishes
  · cases here
    exact .inr ⟨_, running, reacts.profile ▸ publishes⟩

/-- A step gives nobody the bus. -/
theorem Advances.knowsBus (advances : f.Advances step result) (knows : result.2.KnowsBus) :
    f.KnowsBus := by
  cases advances with
  | prepared => exact knows
  | failed => exact knows
  | started source held fresh =>
      rcases knows with publishes | ⟨_, here, publishes⟩
      · exact .inl publishes
      · cases here
        exact .inl publishes
  | notStarted => exact knows
  | stopped effects few =>
      rcases knows with publishes | ⟨_, here, _⟩
      · cases publishes
      · cases here
  | heard session source now arrival turn running reacts =>
      exact knowsBus_of_taken running reacts knows
  | unheard => exact knows
  | answered session source rest now reply turn running reacts =>
      exact knowsBus_of_taken running reacts knows
  | noCall => exact knows

theorem Advances.session_of_happening {happening : Happening}
    (advances : f.Advances happening.step result) (idle : f.session = none) :
    result.2.session = none := by
  cases happening with
  | arrived =>
      cases advances with
      | heard session source now arrival turn running => cases idle.symm.trans running
      | unheard => exact idle
  | answered =>
      cases advances with
      | answered session source rest now reply turn running => cases idle.symm.trans running
      | noCall => exact idle

end Feed

namespace Hub

variable {h : Hub}

/-! ## What a call does -/

theorem accept_eq_ok_iff {feed : FeedSettings} {venue : Venue} :
    h.accept feed = .ok venue ↔
      h.isRunning = false ∧ Venue.resolve feed.name = .ok venue ∧ feed.check = .ok () := by
  rw [accept]
  cases h.isRunning with
  | true => simp
  | false =>
      cases Venue.resolve feed.name with
      | error error => simp
      | ok other =>
          cases feed.check with
          | error flaw => simp
          | ok _ => simp

/-- A feed is added behind the others, or refused. -/
theorem act_add (h : Hub) (request : Request) :
    (∃ venue, h.accept request.feed = .ok venue ∧
      h.act (.add request) = (⟨none, [], []⟩, { h with
        feeds := h.feeds ++
          [h.feedOf venue request.feed (request.sourceOf venue) request.listens] })) ∨
    ∃ error, h.accept request.feed = .error error ∧
      h.act (.add request) = (⟨some error, [], []⟩, h) := by
  cases accepted : h.accept request.feed with
  | ok venue =>
      refine .inl ⟨venue, rfl, ?_⟩
      rw [act, add, accepted]
      rfl
  | error error =>
      refine .inr ⟨error, rfl, ?_⟩
      rw [act, add, accepted]
      rfl

/-- A feed is given the bus, initialized, and started if that went well. -/
theorem feed_launch_cases (hasBus : Bool) (f : Feed) :
    let given := { f with publishes := f.publishes || hasBus }
    (launch hasBus f).feed = given.prepare.2.2 ∨
      (launch hasBus f).feed = given.prepare.2.2.start.2 := by
  intro given
  rw [launch]
  cases prepared : given.prepare with
  | mk failure done =>
      cases failure with
      | some error => exact .inl rfl
      | none => exact .inr rfl

theorem knowsBus_of_launch {hasBus : Bool} {f : Feed} (knows : (launch hasBus f).feed.KnowsBus) :
    hasBus = true ∨ f.KnowsBus := by
  have given : Feed.KnowsBus { f with publishes := f.publishes || hasBus } := by
    rcases feed_launch_cases hasBus f with prepared | started
    · rw [prepared] at knows
      exact (Feed.advances_prepare _).knowsBus knows
    · rw [started] at knows
      exact (Feed.advances_prepare _).knowsBus ((Feed.advances_start _).knowsBus knows)
  rcases given with publishes | session
  · rcases Bool.or_eq_true_iff.1 publishes with publishes | hasBus
    · exact .inr (.inl publishes)
    · exact .inl hasBus
  · exact .inr (.inr session)

end Hub

/-! ## Binding -/

namespace Ports

/-- Why the endpoints cannot both be bound. -/
def failure? (p : Ports) : Option FeedError := p.trades.or p.books

/-- What is bound before that is found out is released. -/
def wasted (p : Ports) : List PortEvent :=
  if p.trades.isSome then [] else [.bound "trades", .released "trades"]

end Ports

theorem Bus.bind_of_failure {ports : Ports} {error : FeedError}
    (failed : ports.failure? = some error) : bind ports = (ports.wasted, .error error) := by
  obtain ⟨trades, books⟩ := ports
  cases trades with
  | some first =>
      cases failed
      rfl
  | none =>
      cases failed
      rfl

theorem Bus.bind_of_no_failure {ports : Ports} (free : ports.failure? = none) :
    bind ports = ([.bound "trades", .bound "books"], .ok new) := by
  obtain ⟨trades, books⟩ := ports
  obtain ⟨rfl, rfl⟩ := Option.or_eq_none_iff.1 free
  rfl

namespace Hub

variable {h : Hub}

/-- The hub once its bus is bound and its feeds are started. -/
def opened (h : Hub) : Hub :=
  { h with
    feeds := (h.feeds.map (launch h.settings.publishes)).map Launch.feed
    bus := if h.settings.publishes then some .new else none
    isRunning := true }

theorem exists_of_mem_opened {f : Feed} (listed : f ∈ h.opened.feeds) :
    ∃ old ∈ h.feeds, (launch h.settings.publishes old).feed = f := by
  obtain ⟨launched, made, same⟩ := List.mem_map.1 listed
  obtain ⟨old, member, rfl⟩ := List.mem_map.1 made
  exact ⟨old, member, same⟩

/-- A start either cannot bind the endpoints, or gets the feeds started. -/
theorem startOn_cases (idle : h.isRunning = false) (noBus : h.bus = none) (ports : Ports) :
    (∃ error, h.settings.publishes = true ∧ ports.failure? = some error ∧
      h.startOn ports = ⟨some error, [], ports.wasted, h⟩) ∨
    ((h.settings.publishes = true → ports.failure? = none) ∧
      h.startOn ports = ⟨none, h.feeds.map (launch h.settings.publishes),
        if h.settings.publishes then [.bound "trades", .bound "books"] else [], h.opened⟩) := by
  obtain ⟨settings, feeds, bus, isRunning⟩ := h
  cases idle
  cases noBus
  cases publishes : settings.publishes with
  | false =>
      refine .inr ⟨Bool.noConfusion, ?_⟩
      simp [startOn, bindBus, opened, publishes]
  | true =>
      cases failed : ports.failure? with
      | some error =>
          refine .inl ⟨error, rfl, rfl, ?_⟩
          simp [startOn, bindBus, publishes, Bus.bind_of_failure failed, Except.map]
      | none =>
          refine .inr ⟨fun _ => rfl, ?_⟩
          simp [startOn, bindBus, opened, publishes, Bus.bind_of_no_failure failed, Except.map]

theorem startOn_of_running (running : h.isRunning = true) (ports : Ports) :
    h.startOn ports = ⟨none, [], [], h⟩ := by
  rw [startOn, if_pos running]

theorem stop_of_not_running (idle : h.isRunning = false) : h.stop = ([], h) := by
  simp [stop, idle]

/-- After a stop no feed has a session or the bus. -/
theorem stop_of_running (running : h.isRunning = true) :
    h.stop.2 = { h with
      feeds := h.feeds.map fun f => { f with publishes := false, session := none }
      bus := none
      isRunning := false } := by
  have left : ∀ f : Feed, f.stop.2 = { f with publishes := false, session := none } := by
    intro f
    obtain ⟨effects, _, same⟩ := f.stop_eq
    rw [same]
  simp [stop, running, left, Function.comp_def]

/-! ## What holds at all times -/

structure Sound (h : Hub) : Prop where
  /-- The bus is there exactly while the hub runs and is set to publish. -/
  bus : h.bus.isSome = (h.isRunning && h.settings.publishes)
  /-- Whoever knows the bus has it from the hub. -/
  known : ∀ f ∈ h.feeds, f.KnowsBus → h.bus.isSome = true
  idle : h.isRunning = false → ∀ f ∈ h.feeds, f.session = none

theorem sound_new (settings : Settings) : (new settings).Sound where
  bus := rfl
  known := by
    intro f member
    cases member
  idle := by
    intro _ f member
    cases member

namespace Sound

variable (sound : h.Sound)
include sound

theorem no_bus (idle : h.isRunning = false) : h.bus = none := by
  rw [← Option.not_isSome_iff_eq_none, sound.bus, idle]
  exact Bool.false_ne_true

/-- The hub has the bus as long as anybody does. -/
theorem holdsBus : h.holdsBus = h.bus.isSome := by
  cases held : h.bus.isSome with
  | true => rw [Hub.holdsBus, held, Bool.true_or]
  | false =>
      have nobody : ∀ f ∈ h.feeds, ¬ f.holdsBus = true := by
        intro f member holds
        have has := sound.known f member (Feed.knowsBus_of_holdsBus holds)
        cases held.symm.trans has
      rw [Hub.holdsBus, held, Bool.false_or, List.any_eq_false]
      exact nobody

theorem opened (noBus : h.bus = none) : h.opened.Sound where
  bus := by
    rw [Hub.opened]
    cases h.settings.publishes <;> rfl
  known := by
    intro f listed knows
    obtain ⟨old, member, rfl⟩ := exists_of_mem_opened listed
    rcases knowsBus_of_launch knows with publishes | knew
    · rw [Hub.opened, if_pos publishes]
      rfl
    · have has := sound.known old member knew
      rw [noBus] at has
      cases has
  idle := Bool.noConfusion

theorem undergo (place : Nat) (happening : Happening) :
    (h.undergo place happening).2.Sound ∧
      (h.undergo place happening).2.bus.isSome = h.bus.isSome ∧
      (h.undergo place happening).2.settings = h.settings := by
  rw [Hub.undergo]
  cases found : h.feeds[place]? with
  | none => exact ⟨sound, rfl, rfl⟩
  | some f =>
      have member : f ∈ h.feeds := List.mem_of_getElem? found
      have kept : ∀ effects, (publishAll h.bus effects).isSome = h.bus.isSome := by
        intro effects
        rw [publishAll, Option.isSome_map]
      have advances := f.advances happening.step
      refine ⟨⟨(kept _).trans sound.bus, ?_, ?_⟩, kept _, rfl⟩
      · intro g within knows
        refine (kept _).trans ?_
        rcases List.mem_or_eq_of_mem_set within with old | rfl
        · exact sound.known g old knows
        · exact sound.known f member (advances.knowsBus knows)
      · intro idle g within
        rcases List.mem_or_eq_of_mem_set within with old | rfl
        · exact sound.idle idle g old
        · exact advances.session_of_happening (sound.idle idle f member)

theorem stop : h.stop.2.Sound ∧ h.stop.2.settings = h.settings := by
  cases running : h.isRunning with
  | false =>
      rw [stop_of_not_running running]
      exact ⟨sound, rfl⟩
  | true =>
      rw [stop_of_running running]
      refine ⟨⟨rfl, ?_, ?_⟩, rfl⟩
      · intro f member knows
        obtain ⟨old, _, rfl⟩ := List.mem_map.1 member
        rcases knows with publishes | ⟨_, here, _⟩
        · cases publishes
        · cases here
      · intro _ f member
        obtain ⟨old, _, rfl⟩ := List.mem_map.1 member
        rfl

theorem added (idle : h.isRunning = false) (venue : Venue) (feed : FeedSettings) (source : Source)
    (listens : Bool) :
    Sound { h with feeds := h.feeds ++ [h.feedOf venue feed source listens] } where
  bus := sound.bus
  known := by
    intro f member knows
    rcases List.mem_append.1 member with old | new
    · exact sound.known f old knows
    · cases List.mem_singleton.1 new
      rcases knows with publishes | ⟨_, here, _⟩
      · cases publishes
      · cases here
  idle := by
    intro _ f member
    rcases List.mem_append.1 member with old | new
    · exact sound.idle idle f old
    · cases List.mem_singleton.1 new
      rfl

theorem act (step : Step) : (h.act step).2.Sound ∧ (h.act step).2.settings = h.settings := by
  cases step with
  | add request =>
      rcases h.act_add request with ⟨venue, accepted, made⟩ | ⟨error, _, made⟩
      · rw [made]
        exact ⟨sound.added (accept_eq_ok_iff.1 accepted).1 _ _ _ _, rfl⟩
      · rw [made]
        exact ⟨sound, rfl⟩
  | start ports =>
      simp only [Hub.act]
      cases running : h.isRunning with
      | true =>
          rw [startOn_of_running running]
          exact ⟨sound, rfl⟩
      | false =>
          have noBus := sound.no_bus running
          rcases startOn_cases running noBus ports with ⟨error, _, _, failed⟩ | ⟨_, started⟩
          · rw [failed]
            exact ⟨sound, rfl⟩
          · rw [started]
            exact ⟨sound.opened noBus, rfl⟩
  | stop => exact sound.stop
  | happen place happening =>
      have after := sound.undergo place happening
      exact ⟨after.1, after.2.2⟩

/-! ## Endpoints -/

theorem releases_of_same {after : Hub} (soundAfter : after.Sound)
    (same : after.bus.isSome = h.bus.isSome) : h.releases after = [] := by
  rw [releases, sound.holdsBus, soundAfter.holdsBus, same]
  cases h.bus.isSome <;> rfl

theorem advance_of_same {step : Step} (same : (h.act step).2.bus.isSome = h.bus.isSome) :
    h.advance step = h.act step := by
  rw [advance]
  simp only [sound.releases_of_same (sound.act step).1 same, List.append_nil]

theorem advance_add (request : Request) :
    h.advance (.add request) = h.act (.add request) := by
  refine sound.advance_of_same ?_
  rcases h.act_add request with ⟨venue, _, made⟩ | ⟨error, _, made⟩ <;> rw [made]

theorem advance_start_of_running (running : h.isRunning = true) (ports : Ports) :
    h.advance (.start ports) = (⟨none, [], []⟩, h) := by
  have made : h.act (.start ports) = (⟨none, [], []⟩, h) := by
    simp only [Hub.act, startOn_of_running running]
    rfl
  rw [sound.advance_of_same (by rw [made]), made]

/-- A hub that does not run binds the endpoints, or is left as it was. -/
theorem advance_start (idle : h.isRunning = false) (ports : Ports) :
    (∃ error, h.settings.publishes = true ∧ ports.failure? = some error ∧
      h.advance (.start ports) = (⟨some error, [], ports.wasted⟩, h)) ∨
    ((h.settings.publishes = true → ports.failure? = none) ∧
      h.advance (.start ports) = (⟨none,
        labelled ((h.feeds.map (launch h.settings.publishes)).map (·.effects)),
        if h.settings.publishes then [.bound "trades", .bound "books"] else []⟩, h.opened)) := by
  have noBus := sound.no_bus idle
  rcases startOn_cases idle noBus ports with ⟨error, publishes, failed, made⟩ | ⟨free, made⟩
  · refine .inl ⟨error, publishes, failed, ?_⟩
    have acted : h.act (.start ports) = (⟨some error, [], ports.wasted⟩, h) := by
      simp only [Hub.act, made]
      rfl
    rw [sound.advance_of_same (by rw [acted]), acted]
  · refine .inr ⟨free, ?_⟩
    have nobody : h.releases h.opened = [] := by
      rw [releases, sound.holdsBus, noBus]
      rfl
    simp only [advance, Hub.act, made, nobody, List.append_nil]

theorem advance_stop_of_not_running (idle : h.isRunning = false) :
    h.advance .stop = (⟨none, [], []⟩, h) := by
  have made : h.act .stop = (⟨none, [], []⟩, h) := by
    simp only [Hub.act, stop_of_not_running idle]
    rfl
  rw [sound.advance_of_same (by rw [made]), made]

/-- When the hub stops, nobody is left with the bus. -/
theorem ports_advance_stop (running : h.isRunning = true) :
    (h.advance .stop).1.ports =
      if h.settings.publishes then [.released "trades", .released "books"] else [] := by
  have after : h.stop.2.holdsBus = false := by
    rw [sound.stop.1.holdsBus, stop_of_running running]
    rfl
  have before : h.holdsBus = h.settings.publishes := by
    rw [sound.holdsBus, sound.bus, running, Bool.true_and]
  simp only [advance, Hub.act, releases, after, before, Bool.not_false, Bool.and_true,
    List.nil_append]

theorem advance_happen (place : Nat) (happening : Happening) :
    h.advance (.happen place happening) = h.act (.happen place happening) :=
  sound.advance_of_same (sound.undergo place happening).2.1

/-- Endpoints change hands in three ways. -/
theorem ports_advance (step : Step) :
    let result := h.advance step
    (result.2.bus.isSome = h.bus.isSome ∧
      (result.1.ports = [] ∨ result.1.ports = [.bound "trades", .released "trades"])) ∨
    (h.bus.isSome = false ∧ result.2.bus.isSome = true ∧
      result.1.ports = [.bound "trades", .bound "books"]) ∨
    (h.bus.isSome = true ∧ result.2.bus.isSome = false ∧
      result.1.ports = [.released "trades", .released "books"]) := by
  intro result
  subst result
  cases step with
  | add request =>
      refine .inl ?_
      rw [sound.advance_add]
      rcases h.act_add request with ⟨venue, _, made⟩ | ⟨error, _, made⟩ <;> rw [made] <;>
        exact ⟨rfl, .inl rfl⟩
  | start ports =>
      cases running : h.isRunning with
      | true =>
          rw [sound.advance_start_of_running running]
          exact .inl ⟨rfl, .inl rfl⟩
      | false =>
          rcases sound.advance_start running ports with ⟨error, _, _, failed⟩ | ⟨_, started⟩
          · rw [failed, Ports.wasted]
            refine .inl ⟨rfl, ?_⟩
            cases ports.trades with
            | some error => exact .inl rfl
            | none => exact .inr rfl
          · rw [started, Hub.opened, sound.no_bus running]
            cases h.settings.publishes with
            | true => exact .inr (.inl ⟨rfl, rfl, rfl⟩)
            | false => exact .inl ⟨rfl, .inl rfl⟩
  | stop =>
      cases running : h.isRunning with
      | false =>
          rw [sound.advance_stop_of_not_running running]
          exact .inl ⟨rfl, .inl rfl⟩
      | true =>
          have none : (h.advance .stop).2.bus.isSome = false := by
            rw [advance, Hub.act, stop_of_running running]
            rfl
          rw [none, sound.ports_advance_stop running, sound.bus, running]
          cases h.settings.publishes with
          | true => exact .inr (.inr ⟨rfl, rfl, rfl⟩)
          | false => exact .inl ⟨rfl, .inl rfl⟩
  | happen place happening =>
      rw [sound.advance_happen]
      exact .inl ⟨(sound.undergo place happening).2.1, .inl rfl⟩

/-- Each endpoint that a step binds is released in it, or the hub has it from then on. -/
theorem count_ports_advance (step : Step) {endpoint : String}
    (known : endpoint ∈ ["trades", "books"]) :
    let result := h.advance step
    result.1.ports.count (.bound endpoint) + h.bus.isSome.toNat =
      result.1.ports.count (.released endpoint) + result.2.bus.isSome.toNat := by
  intro result
  obtain rfl | rfl : endpoint = "trades" ∨ endpoint = "books" := by simpa using known
  all_goals
    rcases sound.ports_advance step with ⟨same, ports | ports⟩ | ⟨none, some, ports⟩ |
      ⟨some, none, ports⟩
    · rw [ports, same]
      rfl
    · rw [ports, same]
      rfl
    · rw [ports, none, some]
      rfl
    · rw [ports, none, some]
      rfl

end Sound

/-! ## Runs -/

theorem sound_advanceAll (sound : h.Sound) (steps : List Step) :
    (h.advanceAll steps).2.Sound ∧ (h.advanceAll steps).2.settings = h.settings := by
  induction steps generalizing h with
  | nil => exact ⟨sound, rfl⟩
  | cons first rest ih =>
      obtain ⟨after, same⟩ := sound.act first
      obtain ⟨later, kept⟩ := ih (h := (h.advance first).2) after
      exact ⟨later, kept.trans same⟩

theorem count_ports_advanceAll (sound : h.Sound) (steps : List Step) {endpoint : String}
    (known : endpoint ∈ ["trades", "books"]) :
    let result := h.advanceAll steps
    let events := result.1.flatMap Deed.ports
    events.count (.bound endpoint) + h.bus.isSome.toNat =
      events.count (.released endpoint) + result.2.bus.isSome.toNat := by
  induction steps generalizing h with
  | nil => rfl
  | cons first rest ih =>
      have here := sound.count_ports_advance first known
      have later := ih (h := (h.advance first).2) (sound.act first).1
      simp only [advanceAll, List.flatMap_cons, List.count_append] at here later ⊢
      omega

/-- What each call does to a hub. What fails, and what is not called for, leaves it as it was. -/
structure Orderly (settings : Settings) (h : Hub) : Prop where
  bus : h.bus.isSome = (h.isRunning && settings.publishes)
  /-- Without the hub nobody has the bus. -/
  alone : h.bus = none → h.holdsBus = false
  added : ∀ request, (h.advance (.add request)).1.failure = none ↔
    h.isRunning = false ∧ (∃ venue, Venue.resolve request.feed.name = .ok venue) ∧
      request.feed.check = .ok ()
  notAdded : ∀ request error, (h.advance (.add request)).1.failure = some error →
    h.advance (.add request) = (⟨some error, [], []⟩, h)
  started : ∀ ports, (h.advance (.start ports)).1.failure = none ↔
    h.isRunning = true ∨ settings.publishes = false ∨ ports.trades = none ∧ ports.books = none
  running : ∀ ports, (h.advance (.start ports)).1.failure = none →
    (h.advance (.start ports)).2.isRunning = true
  /-- The endpoint that was bound before the other could not be is released. -/
  notStarted : ∀ ports error, (h.advance (.start ports)).1.failure = some error →
    h.advance (.start ports) = (⟨some error, [], ports.wasted⟩, h)
  startedAgain : h.isRunning = true →
    ∀ ports, h.advance (.start ports) = (⟨none, [], []⟩, h)
  stoppedAgain : h.isRunning = false → h.advance .stop = (⟨none, [], []⟩, h)
  stopped : (h.advance .stop).2.isRunning = false ∧ (h.advance .stop).2.bus = none ∧
    ∀ f ∈ (h.advance .stop).2.feeds, f.session = none ∧ f.publishes = false
  released : h.bus.isSome = true →
    (h.advance .stop).1.ports = [.released "trades", .released "books"]

theorem Sound.orderly (sound : h.Sound) : Orderly h.settings h where
  bus := sound.bus
  alone := by
    intro none
    rw [sound.holdsBus, none]
    rfl
  added := by
    intro request
    rw [sound.advance_add]
    rcases h.act_add request with ⟨venue, accepted, made⟩ | ⟨error, refused, made⟩
    · obtain ⟨idle, resolved, checked⟩ := accept_eq_ok_iff.1 accepted
      rw [made]
      exact ⟨fun _ => ⟨idle, ⟨venue, resolved⟩, checked⟩, fun _ => rfl⟩
    · rw [made]
      refine ⟨nofun, fun ⟨idle, ⟨venue, resolved⟩, checked⟩ => ?_⟩
      cases refused.symm.trans (accept_eq_ok_iff.2 ⟨idle, resolved, checked⟩)
  notAdded := by
    intro request error failed
    rw [sound.advance_add] at failed ⊢
    rcases h.act_add request with ⟨venue, _, made⟩ | ⟨other, _, made⟩
    · rw [made] at failed
      cases failed
    · rw [made] at failed ⊢
      cases failed
      rfl
  started := by
    intro ports
    cases running : h.isRunning with
    | true =>
        rw [sound.advance_start_of_running running]
        exact ⟨fun _ => .inl rfl, fun _ => rfl⟩
    | false =>
        rcases sound.advance_start running ports with ⟨error, publishes, failed, made⟩ |
          ⟨free, made⟩
        · rw [made, publishes]
          refine ⟨nofun, fun free => ?_⟩
          have bound := Option.or_eq_none_iff.2 (by simpa using free)
          cases failed.symm.trans bound
        · rw [made]
          refine ⟨fun _ => .inr ?_, fun _ => rfl⟩
          cases publishes : h.settings.publishes with
          | false => exact .inl rfl
          | true => exact .inr (Option.or_eq_none_iff.1 (free publishes))
  running := by
    intro ports succeeded
    cases running : h.isRunning with
    | true =>
        rw [sound.advance_start_of_running running]
        exact running
    | false =>
        rcases sound.advance_start running ports with ⟨error, _, _, made⟩ | ⟨_, made⟩
        · rw [made] at succeeded
          cases succeeded
        · rw [made]
          rfl
  notStarted := by
    intro ports error failed
    cases running : h.isRunning with
    | true =>
        rw [sound.advance_start_of_running running] at failed
        cases failed
    | false =>
        rcases sound.advance_start running ports with ⟨other, _, _, made⟩ | ⟨_, made⟩
        · rw [made] at failed ⊢
          cases failed
          rfl
        · rw [made] at failed
          cases failed
  startedAgain := sound.advance_start_of_running
  stoppedAgain := sound.advance_stop_of_not_running
  stopped := by
    cases running : h.isRunning with
    | false =>
        rw [sound.advance_stop_of_not_running running]
        have noBus := sound.no_bus running
        refine ⟨running, noBus, fun f member => ⟨sound.idle running f member, ?_⟩⟩
        rw [← Bool.not_eq_true]
        intro publishes
        have has := sound.known f member (.inl publishes)
        rw [noBus] at has
        cases has
    | true =>
        have made : (h.advance .stop).2 = h.stop.2 := rfl
        rw [made, stop_of_running running]
        refine ⟨rfl, rfl, fun f member => ?_⟩
        obtain ⟨old, _, rfl⟩ := List.mem_map.1 member
        exact ⟨rfl, rfl⟩
  released := by
    intro has
    rw [sound.bus, Bool.and_eq_true] at has
    rw [sound.ports_advance_stop has.1, if_pos has.2]

/-- Whatever was asked of a hub so far and whatever has happened to its feeds, it is in order, and
each endpoint was bound and released the same number of times, but for those of its bus. -/
theorem orderly_advanceAll (settings : Settings) (steps : List Step) :
    let result := (new settings).advanceAll steps
    let events := result.1.flatMap Deed.ports
    Orderly settings result.2 ∧ ∀ endpoint ∈ ["trades", "books"],
      events.count (.bound endpoint) =
        events.count (.released endpoint) + result.2.bus.isSome.toNat := by
  intro result events
  obtain ⟨sound, same⟩ := sound_advanceAll (sound_new settings) steps
  refine ⟨?_, fun endpoint known => ?_⟩
  · have orderly := sound.orderly
    rwa [same] at orderly
  · exact count_ports_advanceAll (sound_new settings) steps known

end Hub

end Tape
