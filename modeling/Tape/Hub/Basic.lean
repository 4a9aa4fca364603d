import Tape.Bus.Basic
import Tape.Feed.Basic
import Tape.Settings.Basic

/-!
# The hub

The hub runs all feeds and owns the bus that they publish to. Feeds are added while it is stopped.
Starting binds the bus and starts every feed in order; a feed that cannot be initialized is left
out and does not keep the others from running.
-/

namespace Tape

structure Hub where
  settings : Settings
  feeds : List Feed
  bus : Option Bus
  isRunning : Bool
  deriving DecidableEq

/-- What a feed has received and published so far. -/
structure FeedStats where
  venue : Venue
  received : Nat
  published : Nat
  errors : Nat
  deriving DecidableEq, Repr

namespace Hub

def new (settings : Settings) : Hub := ⟨settings, [], none, false⟩

/-! ## Adding feeds -/

/-- Whether a feed may be added, and of which venue it is. -/
def accept (h : Hub) (feed : FeedSettings) : Except FeedError Venue :=
  if h.isRunning then .error (.settings ("cannot add feed " ++ feed.name ++ " while running"))
  else
    match Venue.resolve feed.name with
    | .error error => .error error
    | .ok venue =>
        match feed.check with
        | .error flaw => .error (.settings flaw.message)
        | .ok _ => .ok venue

def feedOf (h : Hub) (venue : Venue) (feed : FeedSettings) (source : Source) (listens : Bool) :
    Feed :=
  { (Feed.new venue feed.symbols source).configure h.settings.options with
    trades := feed.trades
    books := feed.books
    listens }

/-- Adds a feed that reads from the source chosen for its venue. -/
def add (h : Hub) (feed : FeedSettings) (sourceOf : Venue → Source) (listens : Bool) :
    Except FeedError Hub :=
  (h.accept feed).map fun venue =>
    { h with feeds := h.feeds ++ [h.feedOf venue feed (sourceOf venue) listens] }

/-- Adds feeds in order up to the first that is refused. -/
def addAll (h : Hub) (sourceOf : FeedSettings → Venue → Source) :
    List FeedSettings → Option FeedError × Hub
  | [] => (none, h)
  | feed :: rest =>
      match h.add feed (sourceOf feed) false with
      | .error error => (some error, h)
      | .ok h => h.addAll sourceOf rest

/-- Adds the feeds of the settings. -/
def addConfigured (h : Hub) (sourceOf : FeedSettings → Venue → Source) : Option FeedError × Hub :=
  h.addAll sourceOf h.settings.feeds

/-! ## Starting and stopping -/

/-- How starting one feed ended. -/
structure Launch where
  failure : Option FeedError
  effects : List Effect
  feed : Feed
  deriving DecidableEq

/-- Initializes a feed and starts it if that succeeds. -/
def launch (hasBus : Bool) (f : Feed) : Launch :=
  match { f with publishes := f.publishes || hasBus }.prepare with
  | (some error, effects, f) => ⟨some error, effects, f⟩
  | (none, effects, f) =>
      let (failure, f) := f.start
      ⟨failure, effects, f⟩

/-- The bus for a start, unless it cannot be bound. -/
def bindBus (h : Hub) (ports : Ports) : List PortEvent × Except FeedError (Option Bus) :=
  if h.settings.publishes && h.bus.isNone then
    let (events, outcome) := Bus.bind ports
    (events, outcome.map some)
  else ([], .ok h.bus)

/-- How a start ended: a bus that cannot be bound is the only failure. -/
structure Opening where
  failure : Option FeedError
  launches : List Launch
  ports : List PortEvent
  hub : Hub
  deriving DecidableEq

/-- Starts all feeds. The hub counts as running from the first moment on, and not any more when the
bus cannot be bound. A hub that runs already is left as it is. -/
def startOn (h : Hub) (ports : Ports) : Opening :=
  if h.isRunning then ⟨none, [], [], h⟩
  else
    let h := { h with isRunning := true }
    match h.bindBus ports with
    | (events, .error error) => ⟨some error, [], events, { h with isRunning := false }⟩
    | (events, .ok bus) =>
        let launches := h.feeds.map (launch bus.isSome)
        ⟨none, launches, events, { h with feeds := launches.map (·.feed), bus }⟩

/-- Starts all feeds where the ports in `taken` belong to others. -/
def start (h : Hub) (taken : List Nat) : Except FeedError (List Launch × Hub) :=
  let opening := h.startOn (Bus.portsAmong taken h.settings.tradesPort h.settings.booksPort)
  match opening.failure with
  | some error => .error error
  | none => .ok (opening.launches, opening.hub)

def publish (bus : Bus) : Effect → Bus
  | .publishTrade report => bus.publishTrade report
  | .publishBook report => bus.publishBook report
  | _ => bus

def publishAll (bus : Option Bus) (effects : List Effect) : Option Bus :=
  bus.map fun bus => effects.foldl publish bus

/-- Hands an arrival to one of the feeds. -/
def deliver (h : Hub) (index : Nat) (now : Instant) (arrival : Arrival) : List Effect × Hub :=
  match h.feeds[index]? with
  | none => ([], h)
  | some feed =>
      let (effects, feed) := feed.deliver now arrival
      (effects, { h with feeds := h.feeds.set index feed, bus := publishAll h.bus effects })

/-- Stops all feeds and lets go of the bus: what each feed did, and the hub after it. -/
def stop (h : Hub) : List (List Effect) × Hub :=
  if !h.isRunning then ([], h)
  else
    let stopped := h.feeds.map Feed.stop
    (stopped.map (·.1), { h with feeds := stopped.map (·.2), bus := none, isRunning := false })

/-! ## Figures -/

def statsOf (f : Feed) : FeedStats :=
  ⟨f.venue, f.counters.trades + f.counters.books, f.counters.published, f.counters.errors⟩

/-- The figures of all feeds, in the order they were added. -/
def stats (h : Hub) : List FeedStats := h.feeds.map statsOf

end Hub

end Tape
