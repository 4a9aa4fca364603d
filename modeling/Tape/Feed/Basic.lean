import Tape.Feed.Session

/-!
# Feeds

A feed streams the market data of one venue. It is initialized by connecting its source and sending
the subscription, and started by handing the source over to a session, for good. Stopping ends the
session; its counters stay.
-/

namespace Tape

structure Feed where
  venue : Venue
  symbols : List String
  trades : Bool
  books : Bool
  options : OutputOptions
  listens : Bool
  publishes : Bool
  counters : Counters
  /-- The source until the feed is started. -/
  source : Option Source
  /-- Whether it was ever initialized. -/
  isReady : Bool
  /-- The session from start to stop, also when it has ended. -/
  session : Option (Session × Source)
  deriving DecidableEq

namespace Feed

/-- A feed of all channels with default options, without listener and bus. -/
def new (venue : Venue) (symbols : List String) (source : Source) : Feed :=
  ⟨venue, symbols, true, true, .default, false, false, .zero, some source, false, none⟩

/-- Options count from the next start on. -/
def configure (f : Feed) (options : OutputOptions) : Feed := { f with options := options.clamp }

def subscription (f : Feed) : String := (f.venue.subscription f.symbols f.trades f.books).render

def isRunning (f : Feed) : Bool := f.session.any fun running => running.1.isLive

def told (f : Feed) (effect : Effect) : List Effect := if f.listens then [effect] else []

/-! ## Initializing -/

/-- Connects a source and sends a subscription: how that ends, and the calls it took. -/
def openSource (source : Source) (subscription : String) :
    Reply × List Effect × Source :=
  match source.connect with
  | (some error, source) => (some error, [.connect], source)
  | (none, source) =>
      let (reply, source) := source.send
      (reply, [.connect, .send subscription], source)

def alreadyStarted : FeedError := .settings "provider already started"

/-- A failure to initialize is counted and told. -/
def failed (f : Feed) (cause : FeedError) : FeedError × List Effect × Feed :=
  let error := .notReady f.venue cause.message
  (error, f.told (.error error.message), { f with counters := f.counters + .oneError })

def prepare (f : Feed) : Reply × List Effect × Feed :=
  match f.source with
  | none =>
      let (error, effects, f) := f.failed alreadyStarted
      (some error, effects, f)
  | some source =>
      let (reply, calls, source) := openSource source f.subscription
      let f := { f with source := some source }
      match reply with
      | none => (none, calls, { f with isReady := true })
      | some cause =>
          let (error, effects, f) := f.failed cause
          (some error, calls ++ effects, f)

/-! ## Running -/

def profile (f : Feed) : Profile := ⟨f.venue, f.subscription, f.options, f.listens, f.publishes⟩

/-- Starts the session; a feed that has one already is left as it is. -/
def start (f : Feed) : Reply × Feed :=
  if f.session.isSome then (none, f)
  else if !f.isReady then (some (.notReady f.venue "start called before initialize"), f)
  else
    match f.source with
    | none => (some (.notReady f.venue "frame source already consumed"), f)
    | some source =>
        (none, { f with source := none, session := some (.start f.profile, source) })

/-- Hands a signal to the session. -/
def signal (f : Feed) (now : Instant) (signal : Signal) : List Effect × Feed :=
  match f.session with
  | none => ([], f)
  | some (session, source) =>
      let (turn, source) := session.run now signal source
      (turn.effects,
        { f with counters := f.counters + turn.counts, session := some (turn.session, source) })

/-- What the source delivers; without a running session it is not taken. -/
def deliver (f : Feed) (now : Instant) (arrival : Arrival) : List Effect × Feed :=
  f.signal now (.arrived arrival)

/-- Ends the session and lets go of the bus. -/
def stop (f : Feed) : List Effect × Feed :=
  let (effects, f) := { f with publishes := false }.signal 0 .stop
  (effects, { f with session := none })

end Feed

end Tape
