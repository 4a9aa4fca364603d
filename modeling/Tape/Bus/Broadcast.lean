/-!
# Broadcast channels

A broadcast channel leads from one sender to many receivers. It keeps the newest values up to its
capacity, so that the sender never waits; a receiver that falls behind goes on with the oldest value
that is kept and is told how many it has lost.
-/

namespace Tape

structure Broadcast where
  capacity : Nat
  /-- The newest values, oldest first. -/
  kept : List String
  /-- How many values were sent. -/
  sent : Nat
  /-- Whether the sender is gone. -/
  closed : Bool
  deriving DecidableEq, Repr

/-- A receiver stands before the next value that it is to receive. -/
structure Receiver where
  /-- How many values were sent before that one. -/
  next : Nat
  deriving DecidableEq, Repr

/-- What one attempt to receive gives. -/
inductive Receipt where
  | value (value : String)
  | lagged (skipped : Nat)
  /-- Nothing is left, but more may come. -/
  | nothing
  /-- Nothing is left, and the sender is gone. -/
  | closed
  deriving DecidableEq, Repr

namespace Broadcast

/-- The capacity is the next power of two. That no channel can be had for 2^63 values and more is
left out. -/
def new (capacity : Nat) : Broadcast := ⟨capacity.nextPowerOfTwo, [], 0, false⟩

/-- Sends a value; the oldest one gives way when there is no room. -/
def send (c : Broadcast) (value : String) : Broadcast :=
  { c with
    kept := (c.kept ++ [value]).drop (c.kept.length + 1 - c.capacity)
    sent := c.sent + 1 }

def close (c : Broadcast) : Broadcast := { c with closed := true }

/-- How many values were sent before the oldest one that is kept. -/
def oldest (c : Broadcast) : Nat := c.sent - c.kept.length

/-- A receiver that comes now receives what is sent from now on. -/
def subscribe (c : Broadcast) : Receiver := ⟨c.sent⟩

def receive (c : Broadcast) (r : Receiver) : Receipt × Receiver :=
  if r.next < c.oldest then (.lagged (c.oldest - r.next), ⟨c.oldest⟩)
  else
    match c.kept[r.next - c.oldest]? with
    | some value => (.value value, ⟨r.next + 1⟩)
    | none => (if c.closed then .closed else .nothing, r)

end Broadcast

end Tape
