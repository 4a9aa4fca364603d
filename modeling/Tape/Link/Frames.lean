import Tape.Link.Basic

/-!
# Frames of a link

A socket carries messages; the frames of a feed are its texts and those binary messages that are
text. Pings are answered with what they carry, and all else is passed over.
-/

namespace Tape

inductive Message where
  | text (text : String)
  | binary (bytes : List UInt8)
  | ping (bytes : List UInt8)
  | pong (bytes : List UInt8)
  | close (reason : Option (Nat × String))
  deriving DecidableEq, Repr

/-- What waiting for a message can end with. -/
inductive Incoming where
  | message (message : Message)
  /-- The stream has ended. -/
  | finished
  | fault (fault : SocketFault)
  /-- Nothing came in time. -/
  | silence
  deriving DecidableEq, Repr

/-- What goes over a link while it looks for the next frame. -/
inductive Exchange where
  | received (incoming : Incoming)
  | sent (message : Message)
  deriving DecidableEq, Repr

/-- What a call for the next frame came to. -/
structure Extraction where
  /-- Absent while nothing more has come; a stream that ended gives no frame. -/
  outcome : Option (Except FeedError (Option String))
  /-- What was received and sent, in order. -/
  exchanges : List Exchange
  sends : Script (Option SocketFault)
  rest : List Incoming

namespace Link

def utf8? (bytes : List UInt8) : Option String := String.fromUTF8? ⟨bytes.toArray⟩

/-- Waits for one message. -/
def receive (l : Link) (incoming : Incoming) : Except FeedError (Option Message) :=
  if !l.hasSocket then .error l.notConnected
  else
    match incoming with
    | .message m => .ok (some m)
    | .finished => .ok none
    | .fault f => .error (.socket f)
    | .silence => .error (.timedOut l.venue l.policy.messageTimeout)

/-- Reads what comes up to the next frame. The script tells how sending each pong ends. -/
def extract (l : Link) (sends : Script (Option SocketFault)) : List Incoming → Extraction
  | [] => ⟨none, [], sends, []⟩
  | incoming :: rest =>
      let more : Extraction :=
        match l.receive incoming with
        | .error error => ⟨some (.error error), [], sends, rest⟩
        | .ok none | .ok (some (.close _)) => ⟨some (.ok none), [], sends, rest⟩
        | .ok (some (.text text)) => ⟨some (.ok (some text)), [], sends, rest⟩
        | .ok (some (.binary bytes)) =>
            match utf8? bytes with
            | some text => ⟨some (.ok (some text)), [], sends, rest⟩
            | none => extract l sends rest
        | .ok (some (.pong _)) => extract l sends rest
        | .ok (some (.ping bytes)) =>
            let (fault, sends) := sends.next
            let answered : Extraction :=
              match l.send fault with
              | some error => ⟨some (.error error), [], sends, rest⟩
              | none => extract l sends rest
            { answered with exchanges := .sent (.pong bytes) :: answered.exchanges }
      { more with exchanges := .received incoming :: more.exchanges }

/-- The next frame; without a socket nothing is waited for. -/
def nextFrame (l : Link) (sends : Script (Option SocketFault)) (incoming : List Incoming) :
    Extraction :=
  if l.hasSocket then l.extract sends incoming
  else ⟨some (.error l.notConnected), [], sends, incoming⟩

end Link

end Tape
