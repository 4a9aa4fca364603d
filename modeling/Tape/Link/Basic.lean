import Tape.Feed.Error
import Tape.Feed.Script
import Tape.Link.Policy

/-!
# Links

A link holds the socket of one feed. When it is lost the link is dialled again after a wait, until
that succeeds or the attempts of its policy are used up. The count of attempts starts anew only when
a socket was opened.
-/

namespace Tape

inductive LinkState where
  | disconnected
  | connecting
  | connected
  | reconnecting
  | failed
  deriving DecidableEq, Repr

/-- Why a link was lost. -/
inductive Loss where
  | network
  | remoteClosed
  /-- The link is given up on purpose. -/
  | shutdown
  deriving DecidableEq, Repr

/-- How dialling ends. -/
inductive Dial where
  | opened
  | refused (reason : String)
  | timedOut
  deriving DecidableEq, Repr

structure Link where
  venue : Venue
  policy : LinkPolicy
  state : LinkState
  hasSocket : Bool
  /-- Attempts since a socket was last opened. -/
  attempt : Nat
  deriving DecidableEq, Repr

namespace Link

def new (venue : Venue) (policy : LinkPolicy) : Link := ⟨venue, policy, .disconnected, false, 0⟩

def isConnected (l : Link) : Bool := l.state = .connected

/-! ## Opening -/

/-- What a failed dial is reported as. -/
def dialError (l : Link) : Dial → Option FeedError
  | .opened => none
  | .refused reason => some (.refused l.venue reason)
  | .timedOut => some (.timedOut l.venue l.policy.connectTimeout)

/-- A socket that is open already is only given up for a new one. -/
def connect (l : Link) (dial : Dial) : Option FeedError × Link :=
  (l.dialError dial,
    match dial with
    | .opened => { l with state := .connected, hasSocket := true, attempt := 0 }
    | _ => { l with state := .disconnected })

/-- What a link does while it recovers. -/
inductive Move where
  | wait (milliseconds : Nat)
  | dial (dial : Dial)
  deriving DecidableEq, Repr

/-- How dialling again ended, and what was done for it, in order. -/
structure Recovery where
  failure : Option FeedError
  moves : List Move
  link : Link
  dials : Script Dial
  deriving DecidableEq

def exhausted (l : Link) : FeedError := .attemptsExhausted l.venue l.policy.attempts

/-- Dials up to so many times, each time after a wait. -/
def retry (l : Link) (dials : Script Dial) : Nat → Recovery
  | 0 => ⟨some l.exhausted, [], { l with attempt := l.attempt + 1, state := .failed }, dials⟩
  | left + 1 =>
      let l := { l with attempt := l.attempt + 1 }
      let (dial, dials) := dials.next
      let moves := [.wait (l.policy.wait l.attempt), .dial dial]
      match l.connect dial with
      | (none, l) => ⟨none, moves, l, dials⟩
      | (some _, l) =>
          let more := retry { l with state := .reconnecting } dials left
          { more with moves := moves ++ more.moves }

/-- Attempts that are left. -/
def attemptsLeft (l : Link) : Nat := l.policy.attempts - l.attempt

/-- Gives up the socket and, unless that was the purpose, dials again. -/
def recover (l : Link) (loss : Loss) (dials : Script Dial) : Recovery :=
  let l := { l with hasSocket := false }
  match loss with
  | .shutdown => ⟨none, [], { l with state := .disconnected }, dials⟩
  | _ => retry { l with state := .reconnecting } dials l.attemptsLeft

/-! ## Using the socket -/

def notConnected (l : Link) : FeedError := .refused l.venue "Not connected"

/-- Sends through the socket, which may fail. -/
def send (l : Link) (fault : Option SocketFault) : Option FeedError :=
  if l.hasSocket then fault.map .socket else some l.notConnected

def close (l : Link) : Link := { l with state := .disconnected, hasSocket := false }

end Link

end Tape
