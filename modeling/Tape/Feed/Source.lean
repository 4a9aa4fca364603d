import Tape.Feed.Error
import Tape.Feed.Script

/-!
# Sources of frames

A source is known by how its calls end: for each kind of call there is a script of endings, of which
one without an error is a success.
-/

namespace Tape

/-- How one call ends. -/
abbrev Reply := Option FeedError

structure Source where
  connects : Script Reply
  sends : Script Reply
  reconnects : Script Reply
  closes : Script Reply
  deriving DecidableEq

namespace Source

/-- A source that can never be connected. -/
def unreachable (error : FeedError) : Source :=
  ⟨.always (some error), .always none, .always none, .always none⟩

def connect (s : Source) : Reply × Source :=
  let (reply, connects) := s.connects.next
  (reply, { s with connects })

def send (s : Source) : Reply × Source :=
  let (reply, sends) := s.sends.next
  (reply, { s with sends })

def reconnect (s : Source) : Reply × Source :=
  let (reply, reconnects) := s.reconnects.next
  (reply, { s with reconnects })

def close (s : Source) : Reply × Source :=
  let (reply, closes) := s.closes.next
  (reply, { s with closes })

end Source

end Tape
