import Mathlib.Data.List.Basic
import Tape.Proofs.Hub.Isolation

/-!
# The feeds of a hub one by one

A hub deals with all its feeds, but each feed goes its own way: what a hub does at a place is what
the feed there does about the events of that place. What a start can come to for a feed is said
once, in `Feed.Launches`; whatever all steps of a feed keep holds of all feeds of a hub.
-/

namespace Tape

namespace Hub

/-- What belongs to one place, in order. -/
def atPlace {α : Type} (place : Nat) (entries : List (Nat × α)) : List α :=
  entries.filterMap fun entry => if entry.1 = place then some entry.2 else none

section AtPlace

variable {α β : Type} {place : Nat}

theorem atPlace_append (place : Nat) (first second : List (Nat × α)) :
    atPlace place (first ++ second) = atPlace place first ++ atPlace place second :=
  List.filterMap_append

theorem atPlace_self (place : Nat) (done : List α) :
    atPlace place (done.map (place, ·)) = done := by
  rw [atPlace, List.filterMap_map]
  simp

theorem atPlace_of_ne {other : Nat} (apart : other ≠ place) (done : List α) :
    atPlace place (done.map (other, ·)) = [] := by
  rw [atPlace, List.filterMap_map, List.filterMap_eq_nil_iff]
  exact fun a _ => if_neg apart

theorem mem_atPlace {a : α} {entries : List (Nat × α)} :
    a ∈ atPlace place entries ↔ (place, a) ∈ entries := by
  simp [atPlace]

theorem atPlace_of_forall {entries : List (Nat × α)} (own : ∀ entry ∈ entries, entry.1 = place) :
    atPlace place entries = entries.map Prod.snd := by
  rw [atPlace, ← List.filterMap_eq_map]
  exact List.filterMap_congr fun entry member => if_pos (own entry member)

theorem atPlace_map (place : Nat) (g : α → β) (entries : List (Nat × α)) :
    atPlace place (entries.map fun entry => (entry.1, g entry.2)) =
      (atPlace place entries).map g := by
  rw [atPlace, atPlace, List.filterMap_map, List.map_filterMap]
  congr 1
  funext entry
  by_cases same : entry.1 = place <;> simp [same]

/-- Lists that are labelled with their places are found at them. -/
theorem atPlace_labelled (place : Nat) (done : List (List Effect)) :
    atPlace place (labelled done) = done[place]?.getD [] := by
  have from_place : ∀ first : Nat,
      atPlace place ((done.zipIdx first).flatMap fun one => one.1.map (one.2, ·)) =
        if first ≤ place then done[place - first]?.getD [] else [] := by
    induction done with
    | nil => simp [atPlace]
    | cons effects rest ih =>
        intro first
        rw [List.zipIdx_cons, List.flatMap_cons, atPlace_append, ih (first + 1)]
        by_cases here : first = place
        · subst here
          rw [atPlace_self, if_neg (by omega)]
          simp
        · rw [atPlace_of_ne here, List.nil_append]
          by_cases later : first ≤ place
          · have next : place - first = (place - (first + 1)) + 1 := by omega
            rw [if_pos later, if_pos (by omega), next, List.getElem?_cons_succ]
          · rw [if_neg later, if_neg (by omega)]
  rw [labelled, from_place 0, if_pos (Nat.zero_le _), Nat.sub_zero]

end AtPlace

/-! ## Events -/

variable {h : Hub}

theorem advanceAll_append (h : Hub) (first second : List Step) :
    let went := h.advanceAll first
    let later := went.2.advanceAll second
    h.advanceAll (first ++ second) = (went.1 ++ later.1, later.2) := by
  induction first generalizing h with
  | nil => rfl
  | cons step rest ih => simp only [List.cons_append, advanceAll, ih]

theorem advanceAll_between (h : Hub) (first last : Step) (steps : List Step) :
    let began := h.advance first
    let ran := began.2.advanceAll steps
    let ended := ran.2.advance last
    h.advanceAll (first :: steps ++ [last]) = (began.1 :: (ran.1 ++ [ended.1]), ended.2) := by
  simp only [List.cons_append, advanceAll, advanceAll_append]

/-- Each feed goes through the events of its place, and does what is done there. -/
theorem advanceAll_atPlace {place : Nat} {f : Feed} (found : h.feeds[place]? = some f)
    (events : List (Nat × Happening)) :
    let went := h.advanceAll (happenings events)
    let own := f.advanceAll ((atPlace place events).map Happening.step)
    atPlace place (went.1.flatMap Deed.effects) = own.1 ∧ went.2.feeds[place]? = some own.2 := by
  induction events generalizing h f with
  | nil => exact ⟨rfl, found⟩
  | cons first rest ih =>
      obtain ⟨other, happening⟩ := first
      obtain ⟨done, result⟩ := h.advanceAll_happenings_cons other happening rest
      intro went own
      subst went own
      rw [done, result, atPlace_append]
      by_cases same : other = place
      · subst same
        have inside : other < h.feeds.length := (List.getElem?_eq_some_iff.1 found).1
        have here : h.undergo other happening = ((f.advance happening.step).1, { h with
            feeds := h.feeds.set other (f.advance happening.step).2
            bus := publishAll h.bus (f.advance happening.step).1 }) := by
          rw [undergo, found]
        obtain ⟨later, after⟩ := ih (h := (h.undergo other happening).2)
          (f := (f.advance happening.step).2) (by rw [here, List.getElem?_set_self inside])
        have own : atPlace other ((other, happening) :: rest) = happening :: atPlace other rest :=
          List.filterMap_cons_some (if_pos rfl)
        rw [later, after, own, here, atPlace_self]
        exact ⟨rfl, rfl⟩
      · have still := (h.feeds_undergo_of_ne (Ne.symm same) happening).trans found
        have foreign : atPlace place ((other, happening) :: rest) = atPlace place rest :=
          List.filterMap_cons_none (if_neg same)
        rw [atPlace_of_ne same, List.nil_append, foreign]
        exact ih still

/-- Where there is no feed nothing is done. -/
theorem atPlace_of_no_feed {place : Nat} (absent : h.feeds[place]? = none)
    (events : List (Nat × Happening)) :
    atPlace place ((h.advanceAll (happenings events)).1.flatMap Deed.effects) = [] := by
  induction events generalizing h with
  | nil => rfl
  | cons first rest ih =>
      obtain ⟨other, happening⟩ := first
      rw [(h.advanceAll_happenings_cons other happening rest).1, atPlace_append]
      by_cases same : other = place
      · subst same
        have nothing : h.undergo other happening = ([], h) := by rw [undergo, absent]
        rw [nothing]
        exact ih absent
      · rw [atPlace_of_ne same, List.nil_append]
        exact ih ((h.feeds_undergo_of_ne (Ne.symm same) happening).trans absent)

/-- The bus is sent what all feeds publish, in the order in which they do. -/
theorem bus_advanceAll (h : Hub) (events : List (Nat × Happening)) :
    let went := h.advanceAll (happenings events)
    went.2.bus = publishAll h.bus ((went.1.flatMap Deed.effects).map Prod.snd) := by
  induction events generalizing h with
  | nil =>
      show h.bus = publishAll h.bus []
      cases h.bus <;> rfl
  | cons first rest ih =>
      obtain ⟨place, happening⟩ := first
      obtain ⟨done, result⟩ := h.advanceAll_happenings_cons place happening rest
      have here : (h.undergo place happening).2.bus =
          publishAll h.bus (h.undergo place happening).1 := by
        rw [undergo]
        cases h.feeds[place]? with
        | none =>
            show h.bus = publishAll h.bus []
            cases h.bus <;> rfl
        | some f => rfl
      intro went
      subst went
      rw [done, result, ih, here, List.map_append, publishAll_append, List.map_map]
      simp [Function.comp_def]

theorem isRunning_advanceAll (h : Hub) (events : List (Nat × Happening)) :
    (h.advanceAll (happenings events)).2.isRunning = h.isRunning := by
  induction events generalizing h with
  | nil => rfl
  | cons first rest ih =>
      obtain ⟨place, happening⟩ := first
      have here : (h.undergo place happening).2.isRunning = h.isRunning := by
        rw [undergo]
        cases h.feeds[place]? <;> rfl
      rw [(h.advanceAll_happenings_cons place happening rest).2, ih, here]

/-! ## Starts and stops -/

/-- A start that does not fail starts each feed, whatever becomes of the others. -/
theorem Sound.start_atPlace (sound : h.Sound) (idle : h.isRunning = false) {ports : Ports}
    (begins : (h.advance (.start ports)).1.failure = none) :
    let start := h.advance (.start ports)
    start.2 = h.opened ∧ ∀ (place : Nat) (f : Feed), h.feeds[place]? = some f →
      let launched := launch h.settings.publishes f
      atPlace place start.1.effects = launched.effects ∧
        start.2.feeds[place]? = some launched.feed := by
  rcases sound.advance_start idle ports with ⟨error, _, _, failed⟩ | ⟨_, started⟩
  · rw [failed] at begins
    cases begins
  · intro start
    subst start
    rw [started]
    refine ⟨rfl, fun place f found => ?_⟩
    have feeds : h.opened.feeds = (h.feeds.map (launch h.settings.publishes)).map Launch.feed := rfl
    simp only [atPlace_labelled, feeds, List.getElem?_map, found, Option.map_some]
    exact ⟨rfl, trivial⟩

theorem Sound.start_running (sound : h.Sound) {ports : Ports}
    (begins : (h.advance (.start ports)).1.failure = none) :
    (h.advance (.start ports)).2.isRunning = true := by
  cases running : h.isRunning with
  | true =>
      rw [sound.advance_start_of_running running]
      exact running
  | false =>
      rw [(sound.start_atPlace running begins).1]
      rfl

/-- A stop stops each feed. -/
theorem stop_atPlace (running : h.isRunning = true) :
    let stop := h.advance .stop
    stop.2.isRunning = false ∧ ∀ (place : Nat) (f : Feed), h.feeds[place]? = some f →
      atPlace place stop.1.effects = f.stop.1 ∧ stop.2.feeds[place]? = some f.stop.2 := by
  simp only [advance, act, stop, running, Bool.not_true, Bool.false_eq_true, if_false,
    atPlace_labelled, List.getElem?_map, true_and]
  intro place f found
  rw [found]
  exact ⟨rfl, rfl⟩

end Hub

/-! ## What a start can come to -/

namespace Feed

variable {f : Feed}

/-- The feed once a hub has told it of its bus, if it has one. -/
def withBus (f : Feed) (hasBus : Bool) : Feed := { f with publishes := f.publishes || hasBus }

/-- What is said of a feed that cannot be initialized. -/
def complaint (f : Feed) (cause : FeedError) : Effect :=
  .error (FeedError.notReady f.venue cause.message).message

/-- What a start can come to for a feed without a session. -/
inductive Launches (f : Feed) : Hub.Launch → Prop where
  /-- The source was handed to a session before. -/
  | spent (held : f.source = none) :
      Launches f ⟨some (.notReady f.venue alreadyStarted.message),
        f.told (f.complaint alreadyStarted),
        { f with counters := f.counters + .oneError }⟩
  | refused (source rest : Source) (cause : FeedError) (held : f.source = some source)
      (reply : source.connect.1 = some cause) :
      Launches f ⟨some (.notReady f.venue cause.message), .connect :: f.told (f.complaint cause),
        { f with source := some rest, counters := f.counters + .oneError }⟩
  | unsubscribed (source rest : Source) (cause : FeedError) (held : f.source = some source)
      (connected : source.connect.1 = none) (reply : source.connect.2.send.1 = some cause) :
      Launches f ⟨some (.notReady f.venue cause.message),
        .connect :: .send f.subscription :: f.told (f.complaint cause),
        { f with source := some rest, counters := f.counters + .oneError }⟩
  | opened (source rest : Source) (held : f.source = some source)
      (connected : source.connect.1 = none) (subscribed : source.connect.2.send.1 = none) :
      Launches f ⟨none, [.connect, .send f.subscription],
        { f with source := none, isReady := true, session := some (.start f.profile, rest) }⟩

theorem launches (idle : f.session = none) (hasBus : Bool) :
    (f.withBus hasBus).Launches (Hub.launch hasBus f) := by
  have same : Hub.launch hasBus f = Hub.launch false (f.withBus hasBus) := by
    simp only [Hub.launch, withBus, Bool.or_false]
  have still : (f.withBus hasBus).session = none := idle
  rw [same]
  generalize f.withBus hasBus = g at still
  obtain ⟨venue, symbols, trades, books, options, listens, publishes, counters, held, isReady,
    session⟩ := g
  cases still
  simp only [Hub.launch, Bool.or_false]
  cases held with
  | none => exact .spent rfl
  | some source =>
      simp only [prepare, openSource]
      cases connected : source.connect with
      | mk reply opened =>
          cases reply with
          | some cause => exact .refused source opened cause rfl (by rw [connected])
          | none =>
              cases sent : opened.send with
              | mk reply rest =>
                  cases reply with
                  | some cause =>
                      simp only [sent]
                      exact .unsubscribed source rest cause rfl (by rw [connected])
                        (by rw [connected, sent])
                  | none =>
                      simp only [sent]
                      exact .opened source rest rfl (by rw [connected]) (by rw [connected, sent])

theorem advanceAll_of_no_session (idle : f.session = none) (happenings : List Happening) :
    f.advanceAll (happenings.map Happening.step) = ([], f) := by
  have nothing := f.advance_of_no_session (by rw [hasSession, idle]; rfl)
  induction happenings with
  | nil => rfl
  | cons first rest ih =>
      simp only [List.map_cons, advanceAll, nothing first, ih, List.append_nil]

end Feed

namespace Hub

variable {h : Hub}

/-! ## What all feeds keep -/

section Keeping

variable {kept : Feed → Prop}
  (added : ∀ venue feed source listens, kept (h.feedOf venue feed source listens))
  (launched : ∀ hasBus f, f.session = none → kept f → kept (launch hasBus f).feed)
  (went : ∀ {f step result}, Feed.Advances f step result → kept f → kept result.2)
include added launched went

/-- What a new feed has, and what a start and all steps of a feed keep, holds of all feeds of a
hub. -/
theorem forall_feeds_act (all : ∀ f ∈ h.feeds, kept f) (sound : h.Sound) (step : Step) :
    ∀ f ∈ (h.act step).2.feeds, kept f := by
  intro f member
  cases step with
  | add request =>
      rcases h.act_add request with ⟨venue, _, made⟩ | ⟨error, _, made⟩
      · rw [made] at member
        rcases List.mem_append.1 member with old | new
        · exact all f old
        · rw [List.mem_singleton.1 new]
          exact added _ _ _ _
      · rw [made] at member
        exact all f member
  | start ports =>
      simp only [Hub.act] at member
      cases running : h.isRunning with
      | true =>
          rw [startOn_of_running running] at member
          exact all f member
      | false =>
          rcases startOn_cases running (sound.no_bus running) ports with
            ⟨error, _, _, failed⟩ | ⟨_, started⟩
          · rw [failed] at member
            exact all f member
          · rw [started] at member
            obtain ⟨old, known, rfl⟩ := exists_of_mem_opened member
            exact launched _ old (sound.idle running old known) (all old known)
  | stop =>
      simp only [Hub.act] at member
      cases running : h.isRunning with
      | false =>
          rw [stop_of_not_running running] at member
          exact all f member
      | true =>
          rw [stop_of_running running] at member
          obtain ⟨old, known, rfl⟩ := List.mem_map.1 member
          exact went (.stopped [] (.inl rfl)) (all old known)
  | happen place happening =>
      simp only [Hub.act, undergo] at member
      cases found : h.feeds[place]? with
      | none =>
          rw [found] at member
          exact all f member
      | some old =>
          rw [found] at member
          rcases List.mem_or_eq_of_mem_set member with same | rfl
          · exact all f same
          · exact went (old.advances happening.step) (all old (List.mem_of_getElem? found))

end Keeping

/-! ## Options -/

theorem options_launch (hasBus : Bool) (f : Feed) : (launch hasBus f).feed.options = f.options := by
  have prepared := (Feed.advances_prepare { f with publishes := f.publishes || hasBus }).options
  rcases feed_launch_cases hasBus f with same | same
  · rw [same]
    exact prepared
  · rw [same]
    exact (Feed.advances_start _).options.trans prepared

/-- The feeds of a hub have the options that its settings are clamped to. -/
def IsConfigured (h : Hub) : Prop := ∀ f ∈ h.feeds, f.options = h.settings.options.clamp

namespace IsConfigured

theorem act (configured : h.IsConfigured) (sound : h.Sound) (step : Step) :
    (h.act step).2.IsConfigured := by
  intro f member
  rw [(sound.act step).2]
  refine forall_feeds_act (fun _ _ _ _ => rfl) ?_ ?_ configured sound step f member
  · exact fun hasBus f _ same => (options_launch hasBus f).trans same
  · exact fun went same => went.options.trans same

theorem advanceAll (configured : h.IsConfigured) (sound : h.Sound) (steps : List Step) :
    (h.advanceAll steps).2.IsConfigured := by
  induction steps generalizing h with
  | nil => exact configured
  | cons step rest ih =>
      exact ih (configured.act sound step) (sound.act step).1

end IsConfigured

theorem isConfigured_advanceAll (settings : Settings) (steps : List Step) :
    ((new settings).advanceAll steps).2.IsConfigured :=
  IsConfigured.advanceAll (fun _ member => (List.not_mem_nil member).elim) (sound_new settings)
    steps

end Hub

end Tape
