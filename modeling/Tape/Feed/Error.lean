import Tape.Json.Printer
import Tape.Json.Reader
import Tape.Market.Venue

/-!
# What can go wrong with a feed

Each cause is kept with what its message shows. Some causes pass by themselves and are worth a new
attempt, some will not change however often the attempt is repeated.
-/

namespace Tape

inductive SocketFault where
  /-- Something was sent or awaited after the closing handshake. -/
  | afterClose
  /-- The peer closed without a closing handshake being possible. -/
  | closed
  | notText
  deriving DecidableEq, Repr

def SocketFault.message : SocketFault → String
  | .afterClose => "Trying to work with closed connection"
  | .closed => "Connection closed normally"
  | .notText => "UTF-8 encoding error"

inductive FeedError where
  | unreadable (venue : Venue) (message : String)
  | schema (venue : Venue) (field : String)
  | malformedLevel (venue : Venue) (level : String)
  | notReady (venue : Venue) (reason : String)
  | unsupportedVenue (name : String)
  | refused (venue : Venue) (reason : String)
  | timedOut (venue : Venue) (milliseconds : Nat)
  | closed (venue : Venue) (reason : Option String)
  | attemptsExhausted (venue : Venue) (attempts : Nat)
  | settings (message : String)
  | json (flaw : Json.Flaw) (source : String)
  | socket (fault : SocketFault)
  | system (message : String)
  | other (message : String)
  deriving DecidableEq

namespace FeedError

def optionalText : Option String → String
  | none => "None"
  | some s => "Some(" ++ Text.Quoted.encode s ++ ")"

def message : FeedError → String
  | unreadable venue message => "Parse error for venue " ++ venue.name ++ ": " ++ message
  | schema venue field => "Schema error for venue " ++ venue.name ++ ": " ++ field
  | malformedLevel venue level => "Malformed level for venue " ++ venue.name ++ ": " ++ level
  | notReady venue reason => "Initialization failed for venue " ++ venue.name ++ ": " ++ reason
  | unsupportedVenue name => "Unsupported exchange: " ++ name
  | refused venue reason => "Connection failed for venue " ++ venue.name ++ ": " ++ reason
  | timedOut venue milliseconds =>
      "Connection timeout for venue " ++ venue.name ++ " after " ++ Text.ofNat milliseconds ++ "ms"
  | closed venue reason =>
      "Connection closed for venue " ++ venue.name ++ ": " ++ optionalText reason
  | attemptsExhausted venue attempts =>
      "Maximum reconnection attempts (" ++ Text.ofNat attempts ++ ") exceeded for venue " ++
        venue.name
  | settings message => "Configuration error: " ++ message
  | json flaw source => "Failed to parse JSON: " ++ flaw.message source.toList
  | socket fault => "WebSocket error: " ++ fault.message
  | system message => "I/O error: " ++ message
  | other message => message

/-- Whether a new attempt may succeed. -/
def isRecoverable : FeedError → Bool
  | refused .. | timedOut .. | closed .. | socket _ | system _ => true
  | _ => false

/-- Whether every new attempt must fail. -/
def isPermanent : FeedError → Bool
  | settings _ | unsupportedVenue _ | attemptsExhausted .. => true
  | _ => false

theorem not_isRecoverable_of_isPermanent {e : FeedError} (h : e.isPermanent = true) :
    e.isRecoverable = false := by
  cases e <;> simp_all [isPermanent, isRecoverable]

end FeedError

def Venue.resolve (s : String) : Except FeedError Venue :=
  match Venue.ofName? s with
  | some venue => .ok venue
  | none => .error (.unsupportedVenue s)

end Tape
