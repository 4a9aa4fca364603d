import Tape.Proofs.Link.Recovery
import Tape.Link.Frames

/-!
# Frames between control messages

Calls for the next frame, one after the other, give the texts among the messages in their order,
each once, up to the first close, end or error. What goes over the link meanwhile is each message as
it comes, and after a ping at once its pong. A pong that cannot be sent ends the call.
-/

namespace Tape

namespace Message

/-- The frame that a message carries: a text, or bytes that are one. -/
def frame? : Message → Option String
  | .text carried => some carried
  | .binary bytes => Link.utf8? bytes
  | _ => none

/-- What a message is answered with. -/
def answer? : Message → Option Message
  | ping bytes => some (pong bytes)
  | _ => none

def isClose : Message → Bool
  | close _ => true
  | _ => false

/-- What goes over a link for a message: it comes, and a ping is answered before all else. -/
def exchanges (m : Message) : List Exchange :=
  .received (.message m) :: m.answer?.toList.map .sent

/-- A message that a call for a frame passes over. -/
structure PassesOver (m : Message) : Prop where
  noFrame : m.frame? = none
  notClose : m.isClose = false

end Message

/-- What a call came to when it was preceded by exchanges. -/
def Extraction.following (call : Extraction) (earlier : List Exchange) : Extraction :=
  { call with exchanges := earlier ++ call.exchanges }

theorem Extraction.following_following (call : Extraction) (earlier later : List Exchange) :
    (call.following later).following earlier = call.following (earlier ++ later) := by
  rw [following, following, following, List.append_assoc]

namespace Link

open Message

/-- The messages up to the first close, end or error. -/
def delivered : List Incoming → List Message
  | .message m :: rest => if m.isClose then [] else m :: delivered rest
  | _ => []

/-- The first close, end or error. -/
def ending? : List Incoming → Option Incoming
  | [] => none
  | .message m :: rest => if m.isClose then some (.message m) else ending? rest
  | other :: _ => some other

/-- A close and the end of the stream give no frame, all else is an error. -/
def outcomeOfEnding (l : Link) : Incoming → Except FeedError (Option String)
  | .message _ | .finished => .ok none
  | .fault fault => .error (.socket fault)
  | .silence => .error (.timedOut l.venue l.policy.messageTimeout)

/-- So many calls for the next frame, each going on where the one before stopped. -/
def callAll (l : Link) : Nat → Script (Option SocketFault) → List Incoming → List Extraction
  | 0, _, _ => []
  | count + 1, sends, incoming =>
      let call := l.nextFrame sends incoming
      call :: callAll l count call.sends call.rest

variable {l : Link} {sends : Script (Option SocketFault)} {rest : List Incoming}

/-! ## One message -/

theorem receive_message (connected : l.hasSocket = true) (m : Message) :
    l.receive (.message m) = .ok (some m) := by
  rw [receive, connected]
  rfl

theorem nextFrame_of_frame (connected : l.hasSocket = true) {m : Message} {text : String}
    (frame : m.frame? = some text) :
    l.nextFrame sends (.message m :: rest) = ⟨some (.ok (some text)), m.exchanges, sends, rest⟩ := by
  rw [nextFrame, if_pos connected, extract]
  cases m with
  | text carried =>
      cases frame
      simp only [receive_message connected]
      rfl
  | binary bytes =>
      simp only [frame?] at frame
      simp only [receive_message connected, frame]
      rfl
  | ping bytes => cases frame
  | pong bytes => cases frame
  | close reason => cases frame

theorem nextFrame_of_passesOver (connected : l.hasSocket = true) {m : Message}
    (passes : m.PassesOver) (unanswered : m.answer? = none) :
    l.nextFrame sends (.message m :: rest) = (l.nextFrame sends rest).following m.exchanges := by
  obtain ⟨noFrame, notClose⟩ := passes
  rw [nextFrame, nextFrame, if_pos connected, if_pos connected, extract, exchanges, unanswered]
  cases m with
  | text carried => cases noFrame
  | binary bytes =>
      simp only [frame?] at noFrame
      simp only [receive_message connected, noFrame]
      rfl
  | ping bytes => cases unanswered
  | pong bytes =>
      simp only [receive_message connected]
      rfl
  | close reason => cases notClose

theorem nextFrame_of_ping (connected : l.hasSocket = true) (sent : sends.get 0 = none)
    (bytes : List UInt8) :
    l.nextFrame sends (.message (.ping bytes) :: rest) =
      (l.nextFrame sends.next.2 rest).following (exchanges (.ping bytes)) := by
  rw [nextFrame, nextFrame, if_pos connected, if_pos connected, extract]
  simp only [receive_message connected, send, if_pos connected, Script.next_fst, sent]
  rfl

theorem nextFrame_of_failed_pong (connected : l.hasSocket = true) {fault : SocketFault}
    (failed : sends.get 0 = some fault) (bytes : List UInt8) :
    l.nextFrame sends (.message (.ping bytes) :: rest) =
      ⟨some (.error (.socket fault)), exchanges (.ping bytes), sends.next.2, rest⟩ := by
  rw [nextFrame, if_pos connected, extract]
  simp only [receive_message connected, send, if_pos connected, Script.next_fst, failed]
  rfl

theorem nextFrame_of_ending (connected : l.hasSocket = true) {last : Incoming}
    (ends : ending? [last] = some last) :
    l.nextFrame sends (last :: rest) =
      ⟨some (l.outcomeOfEnding last), [.received last], sends, rest⟩ := by
  rw [nextFrame, if_pos connected, extract]
  cases last with
  | message m =>
      cases m with
      | close reason =>
          simp only [receive_message connected]
          rfl
      | text _ | binary _ | ping _ | pong _ => cases ends
  | finished | fault _ | silence =>
      simp only [receive, connected]
      rfl

/-! ## Messages that are passed over -/

/-- A message without a frame leaves the call where it was, with one answer less to send if it asked
for one. -/
theorem nextFrame_of_passed (connected : l.hasSocket = true) {m : Message} (passes : m.PassesOver)
    (sent : ∀ place < m.answer?.toList.length, sends.get place = none) :
    l.nextFrame sends (.message m :: rest) =
      (l.nextFrame (sends.drop m.answer?.toList.length) rest).following m.exchanges := by
  cases answer : m.answer? with
  | none => exact nextFrame_of_passesOver connected passes answer
  | some reply =>
      cases m with
      | ping bytes =>
          rw [nextFrame_of_ping connected (sent 0 (Nat.zero_lt_one)), ← Script.drop_zero sends.next.2,
            Script.drop_next]
          rfl
      | text carried => cases answer
      | binary bytes => cases answer
      | pong bytes => cases answer
      | close reason => cases answer

/-- The messages before a frame, with the answers that they ask for. -/
theorem nextFrame_of_passed_all (connected : l.hasSocket = true) {before : List Message}
    (passes : ∀ m ∈ before, m.PassesOver)
    (sent : ∀ place < (before.filterMap answer?).length, sends.get place = none) :
    l.nextFrame sends (before.map .message ++ rest) =
      (l.nextFrame (sends.drop (before.filterMap answer?).length) rest).following
        (before.flatMap exchanges) := by
  induction before generalizing sends with
  | nil => rfl
  | cons m before ih =>
      have count : ((m :: before).filterMap answer?).length =
          m.answer?.toList.length + (before.filterMap answer?).length := by
        cases answer : m.answer? with
        | none => simp [answer]
        | some reply => simp [answer, Nat.add_comm]
      rw [count] at sent ⊢
      have later : ∀ place < (before.filterMap answer?).length,
          (sends.drop m.answer?.toList.length).get place = none := by
        intro place under
        rw [Script.get_drop]
        exact sent _ (by omega)
      rw [List.map_cons, List.cons_append,
        nextFrame_of_passed connected (passes m List.mem_cons_self) fun place under =>
          sent place (by omega),
        ih (fun other member => passes other (List.mem_cons_of_mem _ member)) later,
        Script.drop_drop, List.flatMap_cons, Extraction.following_following]

/-! ## Calls one after the other -/

theorem callAll_of_frame (connected : l.hasSocket = true) {m : Message} {text : String}
    (frame : m.frame? = some text) (count : Nat) :
    l.callAll (count + 1) sends (.message m :: rest) =
      ⟨some (.ok (some text)), m.exchanges, sends, rest⟩ :: l.callAll count sends rest := by
  rw [callAll, nextFrame_of_frame connected frame]

/-- Calls go on over a message without a frame as if it had not come, and the first of them tells
what went over the link for it. -/
theorem callAll_of_passed (rest : List Incoming) (connected : l.hasSocket = true) {m : Message}
    (passes : m.PassesOver) (sent : ∀ place, sends.get place = none) (count : Nat) :
    ∃ first more, l.callAll (count + 1) (sends.drop m.answer?.toList.length) rest = first :: more ∧
      l.callAll (count + 1) sends (.message m :: rest) = first.following m.exchanges :: more := by
  refine ⟨_, _, rfl, ?_⟩
  rw [callAll, nextFrame_of_passed connected passes fun place _ => sent place]
  rfl

theorem callAll_of_ending (connected : l.hasSocket = true) {last : Incoming}
    (ends : ending? [last] = some last) :
    l.callAll 1 sends (last :: rest) =
      [⟨some (l.outcomeOfEnding last), [.received last], sends, rest⟩] := by
  rw [callAll, nextFrame_of_ending connected ends, callAll]

/-- One call for each frame and one more give the frames, in order, and then the ending; every
message goes over the link once, and a pong after each ping. -/
theorem callAll_of_sent (connected : l.hasSocket = true) (sent : ∀ place, sends.get place = none)
    (incoming : List Incoming) :
    let messages := delivered incoming
    let frames := messages.filterMap frame?
    let calls := l.callAll (frames.length + 1) sends incoming
    calls.map Extraction.outcome =
        frames.map (fun text => some (.ok (some text))) ++
          [(ending? incoming).map l.outcomeOfEnding] ∧
      calls.flatMap Extraction.exchanges =
        messages.flatMap exchanges ++ (ending? incoming).toList.map .received := by
  induction incoming generalizing sends with
  | nil =>
      have waits : l.nextFrame sends [] = ⟨none, [], sends, []⟩ := by
        rw [nextFrame, if_pos connected, extract]
      simp only [delivered, ending?, List.filterMap_nil, List.length_nil, callAll, waits]
      exact ⟨rfl, rfl⟩
  | cons first rest ih =>
      cases first with
      | message m =>
          cases closes : m.isClose with
          | true =>
              have ends : ending? [.message m] = some (.message m) := by rw [ending?, if_pos closes]
              simp only [delivered, ending?, if_pos closes, List.filterMap_nil, List.length_nil,
                callAll_of_ending connected ends]
              exact ⟨rfl, rfl⟩
          | false =>
              have isOpen : ¬m.isClose = true := by rw [closes]; exact Bool.false_ne_true
              simp only [delivered, ending?, if_neg isOpen]
              cases frame : m.frame? with
              | some text =>
                  obtain ⟨outcomes, exchanged⟩ := ih sent
                  simp only [List.filterMap_cons, frame, List.length_cons,
                    callAll_of_frame connected frame, List.map_cons, List.flatMap_cons, outcomes,
                    exchanged, List.cons_append, List.append_assoc, and_self]
              | none =>
                  have later : ∀ place, (sends.drop m.answer?.toList.length).get place = none :=
                    fun place => by rw [Script.get_drop]; exact sent _
                  obtain ⟨outcomes, exchanged⟩ := ih later
                  obtain ⟨call, more, calls, callsHere⟩ := callAll_of_passed rest
                    connected ⟨frame, closes⟩ sent ((delivered rest).filterMap frame?).length
                  rw [calls] at outcomes exchanged
                  simp only [List.filterMap_cons, frame, callsHere, List.flatMap_cons,
                    List.append_assoc, ← exchanged]
                  exact ⟨outcomes, List.append_assoc _ _ _⟩
      | finished | fault fault | silence =>
          simp only [delivered, ending?, List.filterMap_nil, List.length_nil]
          rw [callAll_of_ending connected rfl]
          exact ⟨rfl, rfl⟩

/-! ## Reading -/

/-- What reading from an open link comes to. When every pong can be sent, calls for the next frame
give the frames among the messages up to the first close, end or error, in their order, each once;
the call after them gives no frame for a close or an end, and the error otherwise. Each of these
messages is received once, and directly after each ping, before anything else is received, one pong
is sent that carries the same. A pong that cannot be sent ends the call with that error and without
a frame, whatever came before it. -/
theorem calls_give_frames (l : Link) (connected : l.hasSocket = true)
    (sends : Script (Option SocketFault)) (incoming : List Incoming) :
    ((∀ place, sends.get place = none) →
      let messages := delivered incoming
      let frames := messages.filterMap frame?
      let calls := l.callAll (frames.length + 1) sends incoming
      calls.map Extraction.outcome =
          frames.map (fun text => some (.ok (some text))) ++
            [(ending? incoming).map l.outcomeOfEnding] ∧
        calls.flatMap Extraction.exchanges =
          messages.flatMap exchanges ++ (ending? incoming).toList.map .received) ∧
    ∀ (before : List Message) (bytes : List UInt8) (later : List Incoming) (fault : SocketFault),
      incoming = before.map .message ++ .message (.ping bytes) :: later →
      (∀ m ∈ before, m.PassesOver) →
      let pongs := (before.filterMap answer?).length
      (∀ place < pongs, sends.get place = none) → sends.get pongs = some fault →
      l.nextFrame sends incoming =
        ⟨some (.error (.socket fault)), before.flatMap exchanges ++ exchanges (.ping bytes),
          sends.drop (pongs + 1), later⟩ := by
  refine ⟨fun sent => callAll_of_sent connected sent incoming, ?_⟩
  rintro before bytes later fault rfl passes pongs sent failed
  have failed' : (sends.drop pongs).get 0 = some fault := by
    rw [Script.get_drop]
    exact failed
  rw [nextFrame_of_passed_all connected passes sent, nextFrame_of_failed_pong connected failed',
    ← Script.drop_zero (sends.drop pongs).next.2, Script.drop_next, Script.drop_drop]
  rfl

/-- Two frames with control messages around them and a close that nothing is read after; and a call
that ends with the second pong. -/
theorem calls_give_frames_between_control_messages :
    let l := ((new .bybit .default).connect .opened).2
    let incoming : List Incoming := [.message (.ping [1]), .message (.binary [255]),
      .message (.text "a"), .message (.pong [2]), .message (.binary [98]), .message (.ping [3]),
      .message (.close none), .message (.text "c")]
    let calls := l.callAll 3 (.always none) incoming
    let pings : List Incoming := [.message (.ping [1]), .message (.ping [2]), .message (.text "a")]
    l.hasSocket = true ∧ (∀ place, (Script.always (none : Option SocketFault)).get place = none) ∧
      calls.map Extraction.outcome =
        [some (.ok (some "a")), some (.ok (some "b")), some (.ok none)] ∧
      calls.flatMap Extraction.exchanges =
        [.received (.message (.ping [1])), .sent (.pong [1]), .received (.message (.binary [255])),
          .received (.message (.text "a")), .received (.message (.pong [2])),
          .received (.message (.binary [98])), .received (.message (.ping [3])),
          .sent (.pong [3]), .received (.message (.close none))] ∧
      (l.nextFrame ⟨[none, some .closed], none⟩ pings).outcome =
        some (.error (.socket .closed)) := by
  intro l incoming calls pings
  have sent : ∀ place, (Script.always (none : Option SocketFault)).get place = none := fun _ => rfl
  have messages : delivered incoming = [.ping [1], .binary [255], .text "a", .pong [2],
    .binary [98], .ping [3]] := rfl
  have frames : (delivered incoming).filterMap frame? = ["a", "b"] := by
    rw [messages]
    decide
  obtain ⟨outcomes, exchanged⟩ := (calls_give_frames l rfl (.always none) incoming).1 sent
  rw [frames] at outcomes exchanged
  rw [messages] at exchanged
  have cut := (calls_give_frames l rfl ⟨[none, some .closed], none⟩ pings).2 [.ping [1]] [2]
    [.message (.text "a")] .closed rfl (by rintro m (_ | ⟨_, ⟨⟩⟩); exact ⟨rfl, rfl⟩)
    (by decide) rfl
  exact ⟨rfl, sent, outcomes, exchanged, congrArg Extraction.outcome cut⟩

end Link

end Tape
