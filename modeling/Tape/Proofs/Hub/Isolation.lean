import Tape.Proofs.Hub.Lifecycle

/-!
# Feeds that do not start

A start tries each feed once, in the order in which they were added. Feeds that cannot be
initialized are counted one error and stay as they are; the others go on as they would in a hub
that those had never been added to.
-/

namespace Tape

/-- Connecting and then sending the subscription both succeed. -/
def Source.opens (s : Source) : Bool := s.connect.1.isNone && s.connect.2.send.1.isNone

namespace Feed

variable {f : Feed} {source : Source}

/-- A feed that nothing was asked of yet. -/
structure IsNew (f : Feed) (source : Source) : Prop where
  source : f.source = some source
  counters : f.counters = .zero
  session : f.session = none

def hasSession (f : Feed) : Bool := f.session.isSome

theorem isNone_openSource (source : Source) (subscription : String) :
    (openSource source subscription).1.isNone = source.opens := by
  rw [openSource, Source.opens]
  cases source.connect with
  | mk reply rest => cases reply <;> rfl

/-- A source is connected once, before all else. -/
theorem calls_openSource (source : Source) (subscription : String) :
    ∃ sent, (openSource source subscription).2.1 = .connect :: sent ∧ .connect ∉ sent := by
  rw [openSource]
  cases source.connect with
  | mk reply rest =>
      cases reply with
      | some error => exact ⟨[], rfl, List.not_mem_nil⟩
      | none => exact ⟨[.send subscription], rfl, by simp⟩

theorem connect_notMem_told (f : Feed) (message : String) :
    .connect ∉ f.told (.error message) := by
  rw [told]
  split <;> simp

end Feed

namespace Hub

variable {h : Hub}

/-! ## One feed -/

/-- A new feed is started if its source opens; else it is counted an error. -/
theorem launch_of_isNew {f : Feed} {source : Source} (fresh : f.IsNew source) (hasBus : Bool) :
    let launched := launch hasBus f
    launched.feed.isRunning = source.opens ∧ launched.feed.hasSession = source.opens ∧
      launched.feed.counters = (if source.opens then .zero else .oneError) ∧
      ∃ later, launched.effects = .connect :: later ∧ .connect ∉ later := by
  intro launched
  obtain ⟨venue, symbols, trades, books, options, listens, publishes, counters, held, isReady,
    session⟩ := f
  obtain ⟨rfl, rfl, rfl⟩ := fresh
  subst launched
  rw [launch, Feed.prepare]
  simp only
  generalize Feed.subscription _ = subscription
  have opens := Feed.isNone_openSource source subscription
  obtain ⟨sent, calls, once⟩ := Feed.calls_openSource source subscription
  generalize Feed.openSource source subscription = opened at opens calls
  obtain ⟨reply, made, rest⟩ := opened
  cases calls
  cases reply with
  | some error =>
      rw [← opens]
      refine ⟨rfl, rfl, rfl, _, rfl, ?_⟩
      intro again
      rcases List.mem_append.1 again with again | again
      · exact once again
      · exact Feed.connect_notMem_told _ _ again
  | none =>
      rw [← opens]
      exact ⟨rfl, rfl, rfl, sent, rfl, once⟩

end Hub

/-! ## Registering -/

namespace Request

/-- The venue of a feed that is not refused. -/
def venue? (r : Request) : Option Venue :=
  match Venue.resolve r.feed.name, r.feed.check with
  | .ok venue, .ok _ => some venue
  | _, _ => none

/-- Whether the feed is not refused and its source opens. -/
def opens (r : Request) : Bool := r.venue?.any fun venue => (r.sourceOf venue).opens

def feed? (settings : Settings) (r : Request) : Option Feed :=
  r.venue?.map fun venue => (Hub.new settings).feedOf venue r.feed (r.sourceOf venue) r.listens

theorem accept_eq_ok_iff {h : Hub} (idle : h.isRunning = false) {r : Request} {venue : Venue} :
    h.accept r.feed = .ok venue ↔ r.venue? = some venue := by
  rw [Hub.accept_eq_ok_iff, venue?]
  cases Venue.resolve r.feed.name with
  | error error => simp
  | ok other => cases r.feed.check <;> simp [idle]

theorem isNew_of_feed? {settings : Settings} {r : Request} {f : Feed}
    (made : r.feed? settings = some f) :
    ∃ source, f.IsNew source ∧ source.opens = r.opens := by
  obtain ⟨venue, accepted, rfl⟩ := Option.map_eq_some_iff.1 made
  refine ⟨r.sourceOf venue, ⟨rfl, rfl, rfl⟩, ?_⟩
  rw [opens, accepted]
  rfl

end Request

namespace Hub

variable {h : Hub}

/-- A hub that feeds were added to, but for those that are refused. -/
def registered (settings : Settings) (requests : List Request) : Hub :=
  ((new settings).advanceAll (requests.map .add)).2

theorem advanceAll_add (idle : h.isRunning = false) (requests : List Request) :
    (h.advanceAll (requests.map .add)).2 =
      { h with feeds := h.feeds ++ requests.filterMap (Request.feed? h.settings) } := by
  induction requests generalizing h with
  | nil => simp [advanceAll]
  | cons first rest ih =>
      have here : (h.advance (.add first)).2 =
          { h with feeds := h.feeds ++ (first.feed? h.settings).toList } := by
        rcases h.act_add first with ⟨venue, accepted, made⟩ | ⟨error, refused, made⟩
        · have known := (Request.accept_eq_ok_iff idle).1 accepted
          rw [advance, made, Request.feed?, known]
          rfl
        · have unknown : first.venue? = none := by
            rw [Option.eq_none_iff_forall_ne_some]
            intro venue known
            cases refused.symm.trans ((Request.accept_eq_ok_iff idle).2 known)
          rw [advance, made, Request.feed?, unknown]
          simp
      have later := ih (h := { h with feeds := h.feeds ++ (first.feed? h.settings).toList }) idle
      simp only [List.map_cons, advanceAll, here, later, List.filterMap_cons, List.append_assoc]
      cases first.feed? h.settings <;> rfl

theorem registered_eq (settings : Settings) (requests : List Request) :
    registered settings requests =
      ⟨settings, requests.filterMap (Request.feed? settings), none, false⟩ :=
  advanceAll_add rfl requests

end Hub

/-! ## Places among the kept -/

/-- The place of a kept entry once the others are left out. -/
def rank (kept : List Bool) (place : Nat) : Nat := (kept.take place).count true

theorem rank_cons_succ (first : Bool) (kept : List Bool) (place : Nat) :
    rank (first :: kept) (place + 1) = rank kept place + first.toNat := by
  rw [rank, rank, List.take_succ_cons, List.count_cons]
  cases first <;> rfl

section Rank

variable {α : Type} {p : α → Bool} {entries : List α} {place : Nat} {a b : α}

theorem getElem?_filter_rank (found : entries[place]? = some a) (kept : p a = true) :
    (entries.filter p)[rank (entries.map p) place]? = some a := by
  induction entries generalizing place with
  | nil => cases found
  | cons first rest ih =>
      cases place with
      | zero =>
          cases found
          rw [List.filter_cons_of_pos kept]
          rfl
      | succ place =>
          rw [List.map_cons, rank_cons_succ]
          cases isKept : p first with
          | true =>
              rw [List.filter_cons_of_pos isKept]
              exact ih found
          | false =>
              rw [List.filter_cons_of_neg (by simp [isKept])]
              exact ih found

theorem filter_set_rank (found : entries[place]? = some a) (kept : p a = true)
    (still : p b = true) :
    (entries.set place b).filter p = (entries.filter p).set (rank (entries.map p) place) b := by
  induction entries generalizing place with
  | nil => cases found
  | cons first rest ih =>
      cases place with
      | zero =>
          cases found
          rw [List.set_cons_zero, List.filter_cons_of_pos kept, List.filter_cons_of_pos still]
          rfl
      | succ place =>
          rw [List.set_cons_succ, List.map_cons, rank_cons_succ]
          cases isKept : p first with
          | true =>
              rw [List.filter_cons_of_pos isKept, List.filter_cons_of_pos isKept, ih found]
              rfl
          | false =>
              have left : ¬ p first = true := by simp [isKept]
              rw [List.filter_cons_of_neg left, List.filter_cons_of_neg left, ih found]
              rfl

theorem map_set_of_same (found : entries[place]? = some a) (same : p b = p a) :
    (entries.set place b).map p = entries.map p := by
  have here : (entries.map p)[place]? = some (p b) := by
    rw [List.getElem?_map, found, same]
    rfl
  obtain ⟨inside, value⟩ := List.getElem?_eq_some_iff.1 here
  rw [List.map_set, ← value, List.set_getElem_self]

end Rank

namespace Feed

variable {f : Feed} {happening : Happening}

/-- A feed without a session does not notice anything. -/
theorem advance_of_no_session (idle : f.hasSession = false) (happening : Happening) :
    f.advance happening.step = ([], f) := by
  have none : f.session = none := by simpa [hasSession] using idle
  cases happening with
  | arrived => simp only [Happening.step, advance, hear, none]
  | answered => simp only [Happening.step, advance, answer, none]

theorem hasSession_advance (f : Feed) (happening : Happening) :
    (f.advance happening.step).2.hasSession = f.hasSession := by
  have advances := f.advances happening.step
  generalize f.advance happening.step = result at advances
  cases happening with
  | arrived =>
      cases advances with
      | heard session source now arrival turn running => rw [hasSession, hasSession, running]; rfl
      | unheard => rfl
  | answered =>
      cases advances with
      | answered session source rest now reply turn running =>
          rw [hasSession, hasSession, running]
          rfl
      | noCall => rfl

end Feed

namespace Hub

/-! ## The others go on alike -/

/-- What belongs to a feed that is kept, by the place of the feed among such. -/
def amongKept {α : Type} (kept : List Bool) (entry : Nat × α) : Option (Nat × α) :=
  if kept[entry.1]? = some true then some (rank kept entry.1, entry.2) else none

/-- Events as steps of a hub. -/
def happenings (events : List (Nat × Happening)) : List Step :=
  events.map fun event => .happen event.1 event.2

theorem advanceAll_happenings_cons (h : Hub) (place : Nat) (happening : Happening)
    (rest : List (Nat × Happening)) :
    let went := h.undergo place happening
    let later := went.2.advanceAll (happenings rest)
    let result := h.advanceAll (happenings ((place, happening) :: rest))
    result.1.flatMap Deed.effects = went.1.map (place, ·) ++ later.1.flatMap Deed.effects ∧
      result.2 = later.2 :=
  ⟨rfl, rfl⟩

theorem filterMap_amongKept {α : Type} {kept : List Bool} {place : Nat}
    (here : kept[place]? = some true) (done : List α) :
    (done.map (place, ·)).filterMap (amongKept kept) = done.map (rank kept place, ·) := by
  have each : ∀ a : α, amongKept kept (place, a) = some (rank kept place, a) := fun _ => if_pos here
  simp only [List.filterMap_map, Function.comp_def, each]
  exact congrFun List.filterMap_eq_map done

theorem feeds_undergo_of_ne (h : Hub) {place other : Nat} (apart : other ≠ place)
    (happening : Happening) : (h.undergo place happening).2.feeds[other]? = h.feeds[other]? := by
  rw [undergo]
  cases h.feeds[place]? with
  | none => rfl
  | some f => exact List.getElem?_set_ne apart.symm

/-- A hub as another one is without the feeds that are not kept, which have no session. -/
structure Mirrors (kept : List Bool) (h k : Hub) : Prop where
  kept : h.feeds.map Feed.hasSession = kept
  feeds : k.feeds = h.feeds.filter Feed.hasSession
  bus : k.bus = h.bus

namespace Mirrors

variable {kept : List Bool} {h k : Hub}

/-- Both hubs have the feeds that are kept. -/
theorem exists_feed_of_kept (mirrors : Mirrors kept h k) {place : Nat}
    (here : kept[place]? = some true) :
    ∃ f, h.feeds[place]? = some f ∧ f.hasSession = true ∧
      k.feeds[rank kept place]? = some f := by
  obtain ⟨rfl, feeds, _⟩ := mirrors
  rw [List.getElem?_map, Option.map_eq_some_iff] at here
  obtain ⟨f, found, session⟩ := here
  refine ⟨f, found, session, ?_⟩
  rw [feeds]
  exact getElem?_filter_rank found session

/-- A feed that is kept goes on in both hubs alike. -/
theorem undergo_of_kept (mirrors : Mirrors kept h k) {place : Nat} (here : kept[place]? = some true)
    (happening : Happening) :
    (h.undergo place happening).1 = (k.undergo (rank kept place) happening).1 ∧
      Mirrors kept (h.undergo place happening).2 (k.undergo (rank kept place) happening).2 := by
  obtain ⟨f, found, session, foundToo⟩ := mirrors.exists_feed_of_kept here
  obtain ⟨rfl, feeds, bus⟩ := mirrors
  have still := (f.hasSession_advance happening).trans session
  rw [undergo, undergo, found, foundToo]
  refine ⟨rfl, map_set_of_same found (f.hasSession_advance happening), ?_, ?_⟩
  · exact (congrArg (List.set · _ _) feeds).trans (filter_set_rank found session still).symm
  · exact congrArg (publishAll · _) bus

/-- Nothing happens to the other feeds. -/
theorem undergo_of_not_kept (mirrors : Mirrors kept h k) {place : Nat}
    (gone : kept[place]? ≠ some true) (happening : Happening) :
    h.undergo place happening = ([], h) := by
  obtain ⟨rfl, _, _⟩ := mirrors
  rw [undergo]
  cases found : h.feeds[place]? with
  | none => rfl
  | some f =>
      have idle : f.hasSession = false := by
        rw [List.getElem?_map, found] at gone
        simpa using gone
      simp only [Feed.advance_of_no_session idle, eq_of_nothing_done found]

/-- Without the other feeds a hub goes on as it does with them, which stay as they are. -/
theorem advanceAll (mirrors : Mirrors kept h k) (events : List (Nat × Happening)) :
    let went := h.advanceAll (happenings events)
    let alone := k.advanceAll (happenings (events.filterMap (amongKept kept)))
    (went.1.flatMap Deed.effects).filterMap (amongKept kept) = alone.1.flatMap Deed.effects ∧
      Mirrors kept went.2 alone.2 ∧
      ∀ place : Nat, kept[place]? ≠ some true → went.2.feeds[place]? = h.feeds[place]? := by
  induction events generalizing h k with
  | nil => exact ⟨rfl, mirrors, fun _ _ => rfl⟩
  | cons first rest ih =>
      obtain ⟨place, happening⟩ := first
      obtain ⟨done, result⟩ := h.advanceAll_happenings_cons place happening rest
      intro went alone
      subst went alone
      rw [done, result, List.filterMap_append]
      by_cases here : kept[place]? = some true
      · obtain ⟨same, after⟩ := mirrors.undergo_of_kept here happening
        obtain ⟨effects, later, others⟩ := ih after
        have known : amongKept kept (place, happening) = some (rank kept place, happening) :=
          if_pos here
        rw [List.filterMap_cons_some known]
        obtain ⟨doneAlone, resultAlone⟩ := k.advanceAll_happenings_cons (rank kept place) happening
          (rest.filterMap (amongKept kept))
        rw [doneAlone, resultAlone, filterMap_amongKept here, effects, same]
        refine ⟨rfl, later, fun other gone => (others other gone).trans ?_⟩
        refine h.feeds_undergo_of_ne ?_ happening
        rintro rfl
        exact gone here
      · have nothing := mirrors.undergo_of_not_kept here happening
        have unknown : amongKept kept (place, happening) = none := if_neg here
        rw [List.filterMap_cons_none unknown, nothing]
        exact ih mirrors

end Mirrors

/-! ## Starts -/

variable {settings : Settings}

/-- What is said of the feeds of a hub is said of the requests that were not refused. -/
theorem map_feeds {β : Type} {said : Feed → β} {of : Request → β}
    (same : ∀ {r f}, Request.feed? settings r = some f → said f = of r)
    (requests : List Request) :
    (requests.filterMap (Request.feed? settings)).map said =
      (requests.filter fun r => r.venue?.isSome).map of := by
  induction requests with
  | nil => rfl
  | cons first rest ih =>
      cases accepted : first.venue? with
      | none =>
          have made : first.feed? settings = none := by rw [Request.feed?, accepted]; rfl
          rw [List.filterMap_cons_none made, List.filter_cons_of_neg (by simp [accepted])]
          exact ih
      | some venue =>
          obtain ⟨f, made⟩ : ∃ f, first.feed? settings = some f := by
            rw [Request.feed?, accepted]
            exact ⟨_, rfl⟩
          rw [List.filterMap_cons_some made, List.filter_cons_of_pos (by simp [accepted]),
            List.map_cons, List.map_cons, same made, ih]

theorem hasSession_launch {r : Request} {f : Feed} (made : r.feed? settings = some f)
    (hasBus : Bool) : (launch hasBus f).feed.hasSession = r.opens := by
  obtain ⟨source, fresh, opens⟩ := Request.isNew_of_feed? made
  rw [← opens]
  exact (launch_of_isNew fresh hasBus).2.1

theorem isRunning_launch {r : Request} {f : Feed} (made : r.feed? settings = some f)
    (hasBus : Bool) : (launch hasBus f).feed.isRunning = r.opens := by
  obtain ⟨source, fresh, opens⟩ := Request.isNew_of_feed? made
  rw [← opens]
  exact (launch_of_isNew fresh hasBus).1

/-- The feeds that get a session are those of a hub that the others were never added to. -/
theorem launches_of_opens (hasBus : Bool) (requests : List Request) :
    ((requests.filter Request.opens).filterMap (Request.feed? settings)).map (launch hasBus) =
      ((requests.filterMap (Request.feed? settings)).map (launch hasBus)).filter
        (Feed.hasSession ∘ Launch.feed) := by
  induction requests with
  | nil => rfl
  | cons first rest ih =>
      cases made : first.feed? settings with
      | none =>
          have shut : ¬ first.opens = true := by
            rw [Request.opens, Option.map_eq_none_iff.1 made]
            exact Bool.false_ne_true
          rw [List.filter_cons_of_neg shut, List.filterMap_cons_none made]
          exact ih
      | some f =>
          have session : (Feed.hasSession ∘ Launch.feed) (launch hasBus f) = first.opens :=
            hasSession_launch made hasBus
          rw [List.filterMap_cons_some made, List.map_cons]
          cases opens : first.opens with
          | true =>
              rw [List.filter_cons_of_pos opens, List.filterMap_cons_some made, List.map_cons,
                List.filter_cons_of_pos (session.trans opens), ih]
          | false =>
              have shut : ¬ first.opens = true := by simp [opens]
              rw [List.filter_cons_of_neg shut, List.filter_cons_of_neg (by rwa [session]), ih]

/-- Sources that are each connected once are connected in order. -/
theorem places_of_connects {done : List (List Effect)}
    (once : ∀ effects ∈ done, ∃ later, effects = .connect :: later ∧ .connect ∉ later) :
    ((labelled done).filter (·.2 = .connect)).map Prod.fst = List.range done.length := by
  have from_place : ∀ place : Nat,
      (((done.zipIdx place).flatMap fun one => one.1.map (one.2, ·)).filter
        (·.2 = .connect)).map Prod.fst = List.range' place done.length := by
    induction done with
    | nil => exact fun _ => rfl
    | cons first rest ih =>
        intro place
        obtain ⟨later, rfl, never⟩ := once _ List.mem_cons_self
        have rest := ih (fun effects member => once effects (List.mem_cons_of_mem _ member))
          (place + 1)
        have silent : (later.map (place, ·)).filter (·.2 = .connect) = [] := by
          rw [List.filter_eq_nil_iff]
          intro one member
          obtain ⟨effect, within, rfl⟩ := List.mem_map.1 member
          have other : effect ≠ .connect := fun same => never (same ▸ within)
          simpa using other
        rw [List.zipIdx_cons, List.flatMap_cons, List.filter_append, List.map_append, rest]
        rw [List.map_cons, List.filter_cons_of_pos (by simp), silent]
        rfl
  rw [labelled, from_place, List.range_eq_range']

/-- A start gives the feeds that open a session, and the same session wherever else they are. -/
theorem mirrors_opened (settings : Settings) (requests : List Request) :
    Mirrors ((requests.filter fun r => r.venue?.isSome).map Request.opens)
      (registered settings requests).opened
      (registered settings (requests.filter Request.opens)).opened where
  kept := by
    simp only [registered_eq, opened, List.map_map]
    exact map_feeds (fun made => hasSession_launch made _) requests
  feeds := by
    simp only [registered_eq, opened, launches_of_opens, List.filter_map]
  bus := by
    simp only [registered_eq, opened]

theorem isNew_of_registered {requests : List Request} {f : Feed}
    (member : f ∈ (registered settings requests).feeds) : ∃ source, f.IsNew source := by
  rw [registered_eq] at member
  obtain ⟨r, _, made⟩ := List.mem_filterMap.1 member
  obtain ⟨source, fresh, _⟩ := Request.isNew_of_feed? made
  exact ⟨source, fresh⟩

theorem connects_of_registered (settings : Settings) (requests : List Request) (hasBus : Bool) :
    ∀ effects ∈ ((registered settings requests).feeds.map (launch hasBus)).map (·.effects),
      ∃ later, effects = .connect :: later ∧ .connect ∉ later := by
  intro effects member
  obtain ⟨launched, launchedHere, rfl⟩ := List.mem_map.1 member
  obtain ⟨f, listed, rfl⟩ := List.mem_map.1 launchedHere
  obtain ⟨source, fresh⟩ := isNew_of_registered listed
  exact (launch_of_isNew fresh hasBus).2.2.2

/-- A feed that was not started has one error to its name. -/
theorem statsOf_of_no_session {requests : List Request} {f : Feed}
    (member : f ∈ (registered settings requests).opened.feeds) (idle : f.hasSession = false) :
    statsOf f = ⟨f.venue, 0, 0, 1⟩ := by
  obtain ⟨f, listed, rfl⟩ := exists_of_mem_opened member
  obtain ⟨source, fresh⟩ := isNew_of_registered listed
  obtain ⟨_, session, counters, _⟩ :=
    launch_of_isNew fresh (registered settings requests).settings.publishes
  rw [session] at idle
  rw [statsOf, counters, idle]
  rfl

theorem sound_registered (settings : Settings) (requests : List Request) :
    (registered settings requests).Sound :=
  (sound_advanceAll (sound_new settings) _).1

theorem advance_start_registered {ports : Ports}
    (binds : settings.publishes = true → ports.trades = none ∧ ports.books = none)
    (requests : List Request) :
    ∃ events, (registered settings requests).advance (.start ports) =
      (⟨none, labelled (((registered settings requests).feeds.map
        (launch settings.publishes)).map (·.effects)), events⟩,
        (registered settings requests).opened) := by
  have same : (registered settings requests).settings = settings := by rw [registered_eq]
  have idle : (registered settings requests).isRunning = false := by rw [registered_eq]
  rcases (sound_registered settings requests).advance_start idle ports with
    ⟨error, publishes, failed, _⟩ | ⟨_, started⟩
  · rw [same] at publishes
    cases failed.symm.trans (Option.or_eq_none_iff.2 (binds publishes))
  · rw [same] at started
    exact ⟨_, started⟩

/-- A start of a hub whose bus can be bound. Each accepted feed is tried once, in order; those run
whose source opens, and each of the others is counted one error and nothing else. From then on the
running feeds do, and count, what they do in a hub that the others were never added to. -/
theorem start_leaves_out (settings : Settings) (requests : List Request) {ports : Ports}
    (binds : settings.publishes = true → ports.trades = none ∧ ports.books = none) :
    let accepted := requests.filter fun r => r.venue?.isSome
    let kept := accepted.map Request.opens
    let start := (registered settings requests).advance (.start ports)
    let other := (registered settings (requests.filter Request.opens)).advance (.start ports)
    start.1.failure = none ∧ start.2.isRunning = true ∧
      (start.1.effects.filter (·.2 = .connect)).map Prod.fst = List.range accepted.length ∧
      start.2.feeds.map Feed.isRunning = kept ∧
      (∀ place : Nat, kept[place]? = some false → ∃ f, start.2.feeds[place]? = some f ∧
        statsOf f = ⟨f.venue, 0, 0, 1⟩) ∧
      ∀ events,
        let went := start.2.advanceAll (happenings events)
        let alone := other.2.advanceAll (happenings (events.filterMap (amongKept kept)))
        (went.1.flatMap Deed.effects).filterMap (amongKept kept) =
            alone.1.flatMap Deed.effects ∧
          (∀ place : Nat, kept[place]? = some true →
            went.2.feeds[place]? = alone.2.feeds[rank kept place]?) ∧
          (∀ place : Nat, kept[place]? = some false →
            went.2.feeds[place]? = start.2.feeds[place]?) ∧
          went.2.bus = alone.2.bus := by
  intro accepted kept start other
  obtain ⟨ports, started⟩ := advance_start_registered binds requests
  obtain ⟨_, startedOther⟩ := advance_start_registered binds (requests.filter Request.opens)
  have mirrors : Mirrors kept _ _ := mirrors_opened settings requests
  subst start other
  rw [started, startedOther]
  refine ⟨rfl, rfl, ?_, ?_, fun place gone => ?_, fun events => ?_⟩
  · have count : (registered settings requests).feeds.length = accepted.length := by
      simpa [opened, kept] using congrArg List.length mirrors.kept
    rw [← count]
    simpa using places_of_connects (connects_of_registered settings requests settings.publishes)
  · simp only [registered_eq, opened, List.map_map]
    exact map_feeds (fun made => isRunning_launch made _) requests
  · rw [← mirrors.kept, List.getElem?_map, Option.map_eq_some_iff] at gone
    obtain ⟨f, found, idle⟩ := gone
    exact ⟨f, found, statsOf_of_no_session (List.mem_of_getElem? found) idle⟩
  · obtain ⟨effects, after, others⟩ := mirrors.advanceAll events
    refine ⟨effects, fun place here => ?_, fun place gone => others place ?_, after.bus.symm⟩
    · obtain ⟨f, found, _, foundToo⟩ := after.exists_feed_of_kept here
      rw [found, foundToo]
    · rw [gone]
      exact fun same => Bool.noConfusion (Option.some.inj same)

/-- One feed is refused, one cannot subscribe, and one gets a trade. -/
theorem start_leaves_out_of_refusals :
    let feed (name : String) : FeedSettings :=
      { FeedSettings.default with name := name, symbols := ["BTC-USDT"] }
    let busy (venue : Venue) : FeedError := .refused venue "busy"
    let willing : Source := ⟨.always none, .always none, .always none, .always none⟩
    let requests : List Request :=
      [⟨feed "binance", fun venue => .unreachable (busy venue), true⟩,
        ⟨feed "nowhere", fun _ => willing, true⟩,
        ⟨feed "dydx", fun venue => { willing with sends := .always (some (busy venue)) }, true⟩,
        ⟨feed "bybit", fun _ => willing, true⟩]
    let ports : Ports := ⟨none, none⟩
    let bought := "\x7b\x22topic\x22:\x22publicTrade.BTCUSDT\x22,\x22data\x22:[\x7b\x22s\x22:" ++
      "\x22BTCUSDT\x22,\x22p\x22:\x2250000.1\x22,\x22v\x22:\x220.01\x22,\x22S\x22:\x22Buy\x22," ++
      "\x22i\x22:\x22123\x22\x7d]\x7d"
    let events : List (Nat × Happening) :=
      [(0, .arrived 1 (.frame bought)), (2, .arrived 2 (.frame bought))]
    let start := (registered .default requests).advance (.start ports)
    let other := (registered .default (requests.filter Request.opens)).advance (.start ports)
    let went := start.2.advanceAll (happenings events)
    let alone := other.2.advanceAll (happenings [(0, .arrived 2 (.frame bought))])
    (Settings.default.publishes = true → ports.trades = none ∧ ports.books = none) ∧
      (start.1.effects.filter (·.2 = .connect)).map Prod.fst = [0, 1, 2] ∧
      start.2.feeds.map Feed.isRunning = [false, false, true] ∧
      went.2.stats = [⟨.binance, 0, 0, 1⟩, ⟨.dydx, 0, 0, 1⟩, ⟨.bybit, 1, 1, 0⟩] ∧
      alone.2.stats = [⟨.bybit, 1, 1, 0⟩] ∧
      (went.1.flatMap Deed.effects).length = 2 ∧
      (went.1.flatMap Deed.effects).filterMap (amongKept [false, false, true]) =
        alone.1.flatMap Deed.effects := by
  intro feed busy willing requests ports bought events start other went alone
  have binds : Settings.default.publishes = true → ports.trades = none ∧ ports.books = none :=
    fun _ => ⟨rfl, rfl⟩
  have count : (requests.filter fun r => r.venue?.isSome).length = 3 := by decide +kernel
  have kept : (requests.filter fun r => r.venue?.isSome).map Request.opens =
      [false, false, true] := by decide +kernel
  have renumbered : events.filterMap (amongKept [false, false, true]) =
      [(0, .arrived 2 (.frame bought))] := by decide
  obtain ⟨_, _, connects, runs, _, later⟩ := start_leaves_out .default requests binds
  obtain ⟨effects, _⟩ := later events
  rw [count] at connects
  rw [kept] at runs effects
  rw [renumbered] at effects
  exact ⟨binds, connects, runs, by decide +kernel, by decide +kernel, by decide +kernel, effects⟩

end Hub

end Tape
