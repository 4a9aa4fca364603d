import Tape.Hub.Basic
import Tape.Proofs.Feed.Steps

/-!
# Hubs step by step

A hub is asked to add a feed, to start and to stop; in between its feeds go on by themselves. The
bus is held by the hub, by each feed that was given it, and by each session until it has ended; its
endpoints are released as soon as nobody holds it. A delivery is an arrival at a feed with the ends
of all the calls that it leads to.
-/

namespace Tape

/-- A feed that is to be added. -/
structure Request where
  feed : FeedSettings
  sourceOf : Venue → Source
  listens : Bool

/-- What happens to a feed without being asked for. -/
inductive Happening where
  | arrived (now : Instant) (arrival : Arrival)
  /-- The pending call of the source has ended. -/
  | answered (now : Instant)
  deriving DecidableEq

def Happening.step : Happening → Feed.Step
  | arrived now arrival => .arrive now arrival
  | answered now => .answer now

/-- Whether a feed has the bus, or its session still does. -/
def Feed.holdsBus (f : Feed) : Bool :=
  f.publishes || f.session.any fun running => running.1.isLive && running.1.profile.publishes

namespace Hub

def holdsBus (h : Hub) : Bool := h.bus.isSome || h.feeds.any Feed.holdsBus

/-- Both endpoints are released with the last hold on the bus. -/
def releases (before after : Hub) : List PortEvent :=
  if before.holdsBus && !after.holdsBus then [.released "trades", .released "books"] else []

/-- Lets something happen to one of the feeds. -/
def undergo (h : Hub) (place : Nat) (happening : Happening) : List Effect × Hub :=
  match h.feeds[place]? with
  | none => ([], h)
  | some f =>
      let (effects, f) := f.advance happening.step
      (effects, { h with feeds := h.feeds.set place f, bus := publishAll h.bus effects })

inductive Step where
  | add (request : Request)
  | start (ports : Ports)
  | stop
  | happen (place : Nat) (happening : Happening)

/-- What is done in a step, each effect with the place of its feed. -/
structure Deed where
  failure : Option FeedError
  effects : List (Nat × Effect)
  ports : List PortEvent
  deriving DecidableEq

def labelled (effects : List (List Effect)) : List (Nat × Effect) :=
  effects.zipIdx.flatMap fun done => done.1.map (done.2, ·)

/-- A step, short of the endpoints that it leaves to nobody. -/
def act (h : Hub) : Step → Deed × Hub
  | .add request =>
      match h.add request.feed request.sourceOf request.listens with
      | .error error => (⟨some error, [], []⟩, h)
      | .ok h => (⟨none, [], []⟩, h)
  | .start ports =>
      let opening := h.startOn ports
      (⟨opening.failure, labelled (opening.launches.map (·.effects)), opening.ports⟩, opening.hub)
  | .stop =>
      let (effects, h) := h.stop
      (⟨none, labelled effects, []⟩, h)
  | .happen place happening =>
      let (effects, h) := h.undergo place happening
      (⟨none, effects.map (place, ·), []⟩, h)

def advance (h : Hub) (step : Step) : Deed × Hub :=
  let (deed, after) := h.act step
  ({ deed with ports := deed.ports ++ h.releases after }, after)

def advanceAll (h : Hub) : List Step → List Deed × Hub
  | [] => ([], h)
  | step :: rest =>
      let (deed, h) := h.advance step
      let (later, h) := h.advanceAll rest
      (deed :: later, h)

/-! ## Deliveries -/

variable {h : Hub}

theorem publishAll_append (bus : Option Bus) (first second : List Effect) :
    publishAll bus (first ++ second) = publishAll (publishAll bus first) second := by
  simp only [publishAll, Option.map_map, List.foldl_append, Function.comp_def]

theorem eq_of_nothing_done {place : Nat} {f : Feed} (found : h.feeds[place]? = some f) :
    { h with feeds := h.feeds.set place f, bus := publishAll h.bus [] } = h := by
  have same : h.feeds.set place f = h.feeds := by
    obtain ⟨inside, here⟩ := List.getElem?_eq_some_iff.1 found
    rw [← here, List.set_getElem_self]
  have kept : publishAll h.bus [] = h.bus := by
    cases h.bus <;> rfl
  rw [same, kept]

/-- The feed of a place goes through its own steps. -/
theorem advanceAll_happen {place : Nat} {f : Feed} (found : h.feeds[place]? = some f)
    (happenings : List Happening) :
    let went := f.advanceAll (happenings.map Happening.step)
    let result := h.advanceAll (happenings.map (.happen place))
    result.1.flatMap Deed.effects = went.1.map (place, ·) ∧
      result.2 =
        { h with feeds := h.feeds.set place went.2, bus := publishAll h.bus went.1 } := by
  induction happenings generalizing h f with
  | nil => exact ⟨rfl, (eq_of_nothing_done found).symm⟩
  | cons first rest ih =>
      have inside : place < h.feeds.length := (List.getElem?_eq_some_iff.1 found).1
      have here : h.undergo place first =
          ((f.advance first.step).1, { h with
            feeds := h.feeds.set place (f.advance first.step).2
            bus := publishAll h.bus (f.advance first.step).1 }) := by
        rw [undergo, found]
      obtain ⟨effects, after⟩ := ih (h := (h.undergo place first).2)
        (f := (f.advance first.step).2) (by rw [here, List.getElem?_set_self inside])
      simp only [List.map_cons, advanceAll, advance, act, Feed.advanceAll, List.flatMap_cons]
      rw [effects, after, here, List.map_append, List.set_set, publishAll_append]
      exact ⟨rfl, rfl⟩

/-- A delivery is an arrival, and then all calls end that it leads to. -/
theorem deliver_eq_advanceAll (h : Hub) (place : Nat) (now : Instant) (arrival : Arrival) :
    let happenings := .arrived now arrival :: List.replicate Session.callBound (.answered now)
    let result := h.advanceAll (happenings.map (.happen place))
    (h.deliver place now arrival).1.map (place, ·) = result.1.flatMap Deed.effects ∧
      (h.deliver place now arrival).2 = result.2 := by
  intro happenings result
  cases found : h.feeds[place]? with
  | none =>
      have still : ∀ happenings : List Happening,
          (h.advanceAll (happenings.map (.happen place))).1.flatMap Deed.effects = [] ∧
            (h.advanceAll (happenings.map (.happen place))).2 = h := by
        intro happenings
        induction happenings with
        | nil => exact ⟨rfl, rfl⟩
        | cons first rest ih => simpa [advanceAll, advance, act, undergo, found] using ih
      rw [deliver, found]
      exact ⟨(still _).1.symm, (still _).2.symm⟩
  | some f =>
      have went : f.advanceAll (happenings.map Happening.step) = f.deliver now arrival := by
        rw [f.deliver_eq_advanceAll, List.map_cons, List.map_replicate]
        rfl
      obtain ⟨effects, after⟩ := advanceAll_happen found happenings
      rw [went] at effects after
      rw [deliver, found]
      exact ⟨effects.symm, after.symm⟩

end Hub

end Tape
