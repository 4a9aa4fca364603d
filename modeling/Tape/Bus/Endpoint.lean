import Tape.Bus.Broadcast

/-!
# Endpoints of the bus

An endpoint publishes frames on a channel and serves each subscriber by itself: whatever the channel
gives for the subscriber is written to it, until a frame cannot be written or the channel closes.
-/

namespace Tape

structure Endpoint where
  name : String
  channel : Broadcast
  /-- How many frames were published. -/
  sent : Nat
  deriving DecidableEq, Repr

namespace Endpoint

def defaultCapacity : Nat := 4096

/-- The channel has room for at least one frame. -/
def new (name : String) (capacity : Nat) : Endpoint := ⟨name, .new (max 1 capacity), 0⟩

def publish (e : Endpoint) (frame : String) : Endpoint :=
  { e with channel := e.channel.send frame, sent := e.sent + 1 }

def publishAll (e : Endpoint) (frames : List String) : Endpoint := frames.foldl publish e

end Endpoint

/-! ## Subscribers -/

/-- How the service of a subscriber stands. -/
inductive Service where
  | running
  /-- A frame could not be written. -/
  | broken
  /-- The channel has closed. -/
  | ended
  deriving DecidableEq, Repr

/-- A subscriber with its service. -/
structure Subscriber where
  receiver : Receiver
  /-- The frames written to it, oldest first. -/
  received : List String
  /-- How many frames the log says that it has lost. -/
  lost : Nat
  service : Service
  deriving DecidableEq, Repr

namespace Subscriber

def accept (c : Broadcast) : Subscriber := ⟨c.subscribe, [], 0, .running⟩

/-- One turn of the service. What is received is written, which can fail. -/
def serve (s : Subscriber) (c : Broadcast) (writes : Bool) : Subscriber :=
  if s.service = .running then
    match c.receive s.receiver with
    | (.value frame, receiver) =>
        if writes then { s with receiver, received := s.received ++ [frame] }
        else { s with receiver, service := .broken }
    | (.lagged skipped, receiver) => { s with receiver, lost := s.lost + skipped }
    | (.nothing, _) => s
    | (.closed, _) => { s with service := .ended }
  else s

end Subscriber

/-! ## Audiences -/

/-- An endpoint with all subscribers that have come, in the order in which they came. -/
structure Audience where
  endpoint : Endpoint
  subscribers : List Subscriber

namespace Audience

inductive Act where
  | publish (frame : String)
  /-- A subscriber is accepted. -/
  | accept
  /-- The service of the subscriber at a place takes a turn. -/
  | serve (place : Nat) (writes : Bool)
  /-- The endpoint is given up. -/
  | close
  deriving DecidableEq

def new (name : String) (capacity : Nat) : Audience := ⟨.new name capacity, []⟩

def isClosed (a : Audience) : Bool := a.endpoint.channel.closed

/-- An endpoint that was given up publishes no frame and accepts nobody; the services go on. -/
def act (a : Audience) : Act → Audience
  | .publish frame =>
      if a.isClosed then a else { a with endpoint := a.endpoint.publish frame }
  | .accept =>
      if a.isClosed then a
      else { a with subscribers := a.subscribers ++ [.accept a.endpoint.channel] }
  | .serve place writes =>
      { a with
        subscribers := a.subscribers.modify place (·.serve a.endpoint.channel writes) }
  | .close => { a with endpoint := { a.endpoint with channel := a.endpoint.channel.close } }

def actAll (a : Audience) (acts : List Act) : Audience := acts.foldl act a

end Audience

end Tape
