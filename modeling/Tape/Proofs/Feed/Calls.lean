import Tape.Proofs.Feed.Account

/-!
# Calls of a session

A session and its source take turns: the session makes a call, and hears how it ends or that it
shall stop. What is called and heard, in order, follows a protocol with one rule for each thing that
can be heard. From the rules follows what comes after the loss of a stream, after a reconnect and
after a failed subscription, and that the source is closed once, at the end.
-/

namespace Tape

/-- A call of a source. -/
inductive Call where
  | connect
  /-- The next frame is waited for. -/
  | next
  | reconnect
  | send (text : String)
  | close
  deriving DecidableEq

def Effect.call? : Effect → Option Call
  | connect => some .connect
  | send text => some (.send text)
  | reconnect => some .reconnect
  | close => some .close
  | _ => none

inductive Moment where
  | called (call : Call)
  | heard (signal : Signal)
  deriving DecidableEq

namespace Moment

def call? : Moment → Option Call
  | called call => some call
  | heard _ => none

/-- The calls among moments, in order. -/
def calls (moments : List Moment) : List Call := moments.filterMap call?

theorem calls_heard_append (signal : Signal) (made : List Call) (rest : List Moment) :
    calls (.heard signal :: made.map called ++ rest) = made ++ calls rest := by
  have own : (made.map called).filterMap call? = made := by
    rw [List.filterMap_map]
    exact List.filterMap_some
  show List.filterMap call? (made.map called ++ rest) = _
  rw [List.filterMap_append, own]
  rfl

/-- The calls up to the next one for a frame. -/
def callsUntilNext (moments : List Moment) : List Call := (calls moments).takeWhile (· ≠ .next)

end Moment

/-- The calls that a turn makes. A session that waits for a frame has asked its source for it. -/
def Turn.calls (turn : Turn) : List Call :=
  turn.effects.filterMap Effect.call? ++ if turn.session.phase = .frame then [.next] else []

/-- The calls of a session and the signals that end its waits. -/
def Session.moments (s : Session) : List (Instant × Signal) → List Moment
  | [] => []
  | (now, signal) :: rest =>
      let turn := s.react now signal
      let here :=
        if takes s.phase signal then .heard signal :: turn.calls.map .called else []
      here ++ turn.session.moments rest

/-- All that a session calls and hears from its start on. -/
def Session.story (profile : Profile) (signals : List (Instant × Signal)) : List Moment :=
  .called .next :: (Session.start profile).moments signals

/-! ## The protocol -/

/-- What is called and heard from a phase on, up to a later one. -/
inductive Follows (subscription : String) : Phase → List Moment → Phase → Prop where
  | still (phase : Phase) : Follows subscription phase [] phase
  | frame (text : String) {rest : List Moment} {last : Phase}
      (next : Follows subscription .frame rest last) :
      Follows subscription .frame
        (.heard (.arrived (.frame text)) :: .called .next :: rest) last
  | lost (loss : Signal) (isLoss : loss.isLoss = true) {rest : List Moment} {last : Phase}
      (next : Follows subscription .reconnect rest last) :
      Follows subscription .frame (.heard loss :: .called .reconnect :: rest) last
  | reconnected {rest : List Moment} {last : Phase}
      (next : Follows subscription .send rest last) :
      Follows subscription .reconnect
        (.heard (.replied none) :: .called (.send subscription) :: rest) last
  | gaveUp (error : FeedError) {rest : List Moment} {last : Phase}
      (next : Follows subscription .close rest last) :
      Follows subscription .reconnect
        (.heard (.replied (some error)) :: .called .close :: rest) last
  | sent (reply : Reply) {rest : List Moment} {last : Phase}
      (next : Follows subscription .frame rest last) :
      Follows subscription .send (.heard (.replied reply) :: .called .next :: rest) last
  | stopped {phase : Phase} (open' : Session.takes phase .stop = true) {rest : List Moment}
      {last : Phase} (next : Follows subscription .close rest last) :
      Follows subscription phase (.heard .stop :: .called .close :: rest) last
  | closed (reply : Reply) {rest : List Moment} {last : Phase}
      (next : Follows subscription .ended rest last) :
      Follows subscription .close (.heard (.replied reply) :: rest) last

namespace Session

variable {s : Session} {now : Instant} {signal : Signal} {turn : Turn}

/-- What is shown of an event is no call. -/
theorem calls_onEvent (s : Session) (now : Instant) (event : Event) :
    (s.onEvent now event).effects.filterMap Effect.call? = [] := by
  have answer := s.answers now event
  generalize s.onEvent now event = turn at answer
  cases answer with
  | trade t window held =>
      rw [List.filterMap_append, filterMap_told rfl, List.nil_append]
      cases s.tradeReport? t window <;> rfl
  | book b window held =>
      rw [List.filterMap_append, filterMap_told rfl, List.nil_append]
      cases s.bookReport? now.encoded b window <;> rfl
  | lostTrade => rfl
  | lostBook => rfl
  | heartbeat => rfl
  | unknown => rfl
  | rejected error => exact filterMap_told rfl s

/-- A session with room for windows takes each signal as the protocol has it. -/
theorem Reacts.follows (reacts : s.Reacts now signal turn) (room : s.profile.options.HasRoom)
    (taken : takes s.phase signal = true) {rest : List Moment} {last : Phase}
    (next : Follows s.profile.subscription turn.session.phase rest last) :
    Follows s.profile.subscription s.phase
      (.heard signal :: turn.calls.map .called ++ rest) last := by
  cases reacts with
  | frame text waits =>
      have still := phase_onFrame room now text
      have calls : (s.onFrame now text).calls = [.next] := by
        rw [Turn.calls, still, waits, onFrame_eq, calls_onEvent]
        rfl
      rw [still, waits] at next
      rw [calls, waits]
      exact .frame text next
  | finished waits =>
      rw [waits, Turn.calls, onFailure, List.filterMap_append, filterMap_told rfl]
      exact .lost _ rfl next
  | failed error waits =>
      rw [waits, Turn.calls, onFailure, List.filterMap_append, filterMap_told rfl]
      exact .lost _ rfl next
  | reconnected reply waits =>
      rw [waits]
      cases reply with
      | none => exact .reconnected next
      | some error =>
          rw [Turn.calls, onReconnected, List.filterMap_append, filterMap_told rfl]
          exact .gaveUp error next
  | sent reply waits =>
      rw [waits]
      cases reply with
      | none => exact .sent none next
      | some error =>
          rw [Turn.calls, onSent, filterMap_told rfl]
          exact .sent (some error) next
  | closed reply waits =>
      rw [waits]
      exact .closed reply next
  | stopped open' => exact .stopped open' next
  | idle signal other => cases other.symm.trans taken

theorem follows_moments (room : s.profile.options.HasRoom) (signals : List (Instant × Signal)) :
    Follows s.profile.subscription s.phase (s.moments signals)
      (s.reactAll signals).session.phase := by
  induction signals generalizing s with
  | nil => exact .still _
  | cons first rest ih =>
      obtain ⟨now, signal⟩ := first
      have reaction := s.reacts now signal
      have profile := reaction.profile
      have later := ih (s := (s.react now signal).session) (by rw [profile]; exact room)
      rw [profile] at later
      rw [moments, reactAll]
      cases taken : takes s.phase signal with
      | true => exact reaction.follows room taken later
      | false =>
          rw [react_of_not_takes taken] at later ⊢
          exact later

end Session

/-! ## Parts of a story -/

/-- The call whose end is waited for in a phase. -/
def Phase.awaited? (subscription : String) : Phase → Option Call
  | frame => some .next
  | reconnect => some .reconnect
  | send => some (.send subscription)
  | close => some .close
  | ended => none

/-- A part of a story that begins in some phase, or with the call that leads to it. -/
inductive Resumes (subscription : String) (last : Phase) : List Moment → Prop where
  | hearing {phase : Phase} {part : List Moment} (follows : Follows subscription phase part last) :
      Resumes subscription last part
  | calling {phase : Phase} {call : Call} {rest : List Moment}
      (awaited : phase.awaited? subscription = some call)
      (follows : Follows subscription phase rest last) :
      Resumes subscription last (.called call :: rest)

namespace Resumes

variable {subscription : String} {last : Phase} {rest : List Moment}

/-- After a call comes what follows on its end. -/
theorem of_called {call : Call} (resumes : Resumes subscription last (.called call :: rest)) :
    ∃ phase, phase.awaited? subscription = some call ∧ Follows subscription phase rest last := by
  cases resumes with
  | hearing follows => cases follows
  | calling awaited follows => exact ⟨_, awaited, follows⟩

theorem of_heard {signal : Signal} (resumes : Resumes subscription last (.heard signal :: rest)) :
    ∃ phase, Follows subscription phase (.heard signal :: rest) last := by
  cases resumes with
  | hearing follows => exact ⟨_, follows⟩

end Resumes

namespace Follows

variable {subscription : String} {phase last : Phase} {story rest part after : List Moment}

theorem resumes_of_pair {first : Moment} {call : Call} {next : Phase}
    (suffix : part <:+ first :: .called call :: rest)
    (whole : Follows subscription phase (first :: .called call :: rest) last)
    (awaited : next.awaited? subscription = some call)
    (follows : Follows subscription next rest last)
    (later : part <:+ rest → Resumes subscription last part) : Resumes subscription last part := by
  rcases List.suffix_cons_iff.1 suffix with rfl | suffix
  · exact .hearing whole
  · rcases List.suffix_cons_iff.1 suffix with rfl | suffix
    · exact .calling awaited follows
    · exact later suffix

theorem resumes (follows : Follows subscription phase story last) (suffix : part <:+ story) :
    Resumes subscription last part := by
  induction follows with
  | still phase =>
      rw [List.suffix_nil.1 suffix]
      exact .hearing (.still phase)
  | frame text next ih => exact resumes_of_pair suffix (.frame text next) rfl next ih
  | lost loss isLoss next ih => exact resumes_of_pair suffix (.lost loss isLoss next) rfl next ih
  | reconnected next ih => exact resumes_of_pair suffix (.reconnected next) rfl next ih
  | gaveUp error next ih => exact resumes_of_pair suffix (.gaveUp error next) rfl next ih
  | sent reply next ih => exact resumes_of_pair suffix (.sent reply next) rfl next ih
  | stopped open' next ih => exact resumes_of_pair suffix (.stopped open' next) rfl next ih
  | closed reply next ih =>
      rcases List.suffix_cons_iff.1 suffix with rfl | suffix
      · exact .hearing (.closed reply next)
      · exact ih suffix

/-! ## Calls from a phase on -/

theorem calls_of_ended (follows : Follows subscription .ended rest last) :
    Moment.calls rest = [] ∧ last = .ended := by
  cases follows with
  | still => exact ⟨rfl, rfl⟩
  | stopped open' => cases open'

theorem calls_of_close (follows : Follows subscription .close rest last) :
    Moment.calls rest = [] ∧ (last = .close ∨ last = .ended) := by
  cases follows with
  | still => exact ⟨rfl, .inl rfl⟩
  | closed reply next =>
      obtain ⟨none, ended⟩ := next.calls_of_ended
      exact ⟨none, .inr ended⟩
  | stopped open' => cases open'

theorem callsUntilNext_of_send (follows : Follows subscription .send rest last) :
    Moment.callsUntilNext rest = [] ∨ Moment.callsUntilNext rest = [.close] := by
  cases follows with
  | still => exact .inl rfl
  | sent reply next => exact .inl rfl
  | stopped open' next =>
      refine .inr ?_
      show Call.close :: (Moment.calls _).takeWhile (· ≠ .next) = _
      rw [next.calls_of_close.1]
      rfl

theorem callsUntilNext_of_reconnect (follows : Follows subscription .reconnect rest last) :
    Moment.callsUntilNext rest = [] ∨ Moment.callsUntilNext rest = [.close] ∨
      Moment.callsUntilNext rest = [.send subscription] ∨
      Moment.callsUntilNext rest = [.send subscription, .close] := by
  have closes : ∀ {first : Signal} {after : List Moment}, Follows subscription .close after last →
      Moment.callsUntilNext (.heard first :: .called .close :: after) = [.close] := by
    intro first after next
    show Call.close :: (Moment.calls _).takeWhile (· ≠ .next) = _
    rw [next.calls_of_close.1]
    rfl
  cases follows with
  | still => exact .inl rfl
  | gaveUp error next => exact .inr (.inl (closes next))
  | stopped open' next => exact .inr (.inl (closes next))
  | reconnected next =>
      refine .inr (.inr (next.callsUntilNext_of_send.imp ?_ ?_)) <;>
        exact congrArg (Call.send subscription :: ·)

/-- The calls of a story up to a phase: only the last may be a close, and is when it led there. -/
def ClosesOnce (last : Phase) (calls : List Call) : Prop :=
  ∃ before, .close ∉ before ∧
    calls = before ++ if last = .close ∨ last = .ended then [.close] else []

theorem ClosesOnce.cons {calls : List Call} (once : ClosesOnce last calls) {call : Call}
    (other : call ≠ .close) : ClosesOnce last (call :: calls) := by
  obtain ⟨before, open', rfl⟩ := once
  refine ⟨call :: before, ?_, rfl⟩
  simp [open', other.symm]

theorem closesOnce_of_close (follows : Follows subscription .close rest last) :
    ClosesOnce last (.close :: Moment.calls rest) := by
  obtain ⟨none, closing⟩ := follows.calls_of_close
  exact ⟨[], List.not_mem_nil, by rw [none, if_pos closing]; rfl⟩

/-- A source is closed once, as the last call, when its session closes. -/
theorem closesOnce (follows : Follows subscription phase story last)
    (open' : phase ≠ .close ∧ phase ≠ .ended) : ClosesOnce last (Moment.calls story) := by
  induction follows with
  | still phase => exact ⟨[], List.not_mem_nil, by rw [if_neg (not_or.2 open')]; rfl⟩
  | frame text next ih => exact (ih ⟨Phase.noConfusion, Phase.noConfusion⟩).cons Call.noConfusion
  | lost loss isLoss next ih =>
      exact (ih ⟨Phase.noConfusion, Phase.noConfusion⟩).cons Call.noConfusion
  | reconnected next ih =>
      exact (ih ⟨Phase.noConfusion, Phase.noConfusion⟩).cons Call.noConfusion
  | gaveUp error next ih => exact next.closesOnce_of_close
  | sent reply next ih => exact (ih ⟨Phase.noConfusion, Phase.noConfusion⟩).cons Call.noConfusion
  | stopped _ next ih => exact next.closesOnce_of_close
  | closed reply next ih => exact absurd rfl open'.1

end Follows

/-- What a source can count on of the session that has it. -/
structure KeepsProtocol (subscription : String) (story : List Moment) : Prop where
  /-- When the stream is lost, one reconnect comes next, and no other before the next frame. -/
  lost : ∀ {loss after}, .heard loss :: after <:+ story → loss.isLoss = true →
    ∃ more, Moment.callsUntilNext after = .reconnect :: more ∧ .reconnect ∉ more
  /-- After a reconnect the subscription is sent once before the next frame. -/
  reconnected : ∀ {after}, .called .reconnect :: .heard (.replied none) :: after <:+ story →
    ∃ more, Moment.callsUntilNext after = .send subscription :: more ∧
      ∀ text, .send text ∉ more
  gaveUp : ∀ {error after},
    .called .reconnect :: .heard (.replied (some error)) :: after <:+ story →
      Moment.calls after = [.close]
  /-- However the sending ends, the session goes on with the next frame. -/
  sent : ∀ {text reply after}, .called (.send text) :: .heard (.replied reply) :: after <:+ story →
    ∃ more, Moment.calls after = .next :: more
  stopped : ∀ {after}, .heard .stop :: after <:+ story → Moment.calls after = [.close]

theorem KeepsProtocol.of_resumes {subscription : String} {last : Phase} {story : List Moment}
    (resumes : ∀ {part}, part <:+ story → Resumes subscription last part) :
    KeepsProtocol subscription story where
  lost := by
    intro loss after suffix isLoss
    obtain ⟨phase, follows⟩ := (resumes suffix).of_heard
    -- The phase is not known; only one rule hears a loss.
    cases follows with
    | lost _ _ next =>
        refine ⟨Moment.callsUntilNext _, rfl, ?_⟩
        rcases next.callsUntilNext_of_reconnect with calls | calls | calls | calls <;> simp [calls]
    | frame => cases isLoss
    | reconnected => cases isLoss
    | gaveUp => cases isLoss
    | sent => cases isLoss
    | stopped => cases isLoss
    | closed => cases isLoss
  reconnected := by
    intro after suffix
    obtain ⟨phase, awaited, follows⟩ := (resumes suffix).of_called
    cases follows with
    | reconnected next =>
        refine ⟨Moment.callsUntilNext _, rfl, ?_⟩
        intro text
        rcases next.callsUntilNext_of_send with calls | calls <;> simp [calls]
    | lost _ isLoss => cases isLoss
    | sent => cases awaited
    | closed => cases awaited
  gaveUp := by
    intro error after suffix
    obtain ⟨phase, awaited, follows⟩ := (resumes suffix).of_called
    cases follows with
    | gaveUp _ next => exact congrArg (Call.close :: ·) next.calls_of_close.1
    | lost _ isLoss => cases isLoss
    | sent => cases awaited
    | closed => cases awaited
  sent := by
    intro text reply after suffix
    obtain ⟨phase, awaited, follows⟩ := (resumes suffix).of_called
    cases follows with
    | sent _ next => exact ⟨_, rfl⟩
    | lost _ isLoss => cases isLoss
    | reconnected => cases awaited
    | gaveUp => cases awaited
    | closed => cases awaited
  stopped := by
    intro after suffix
    obtain ⟨phase, follows⟩ := (resumes suffix).of_heard
    cases follows with
    | stopped _ next => exact congrArg (Call.close :: ·) next.calls_of_close.1
    | lost _ isLoss => cases isLoss

namespace Session

/-- The calls of a turn are its effects on the source, and the wait for a frame. -/
theorem calls_turn (turn : Turn) :
    turn.calls.filter (· ≠ .next) = turn.effects.filterMap Effect.call? := by
  have kept : ∀ call ∈ turn.effects.filterMap Effect.call?, call ≠ .next := by
    intro call member
    obtain ⟨effect, -, calls⟩ := List.mem_filterMap.1 member
    cases effect <;> cases calls <;> exact Call.noConfusion
  rw [Turn.calls, List.filter_append, List.filter_eq_self.2 (by simpa using kept)]
  split <;> simp

theorem calls_moments (s : Session) (signals : List (Instant × Signal)) :
    (Moment.calls (s.moments signals)).filter (· ≠ .next) =
      (s.reactAll signals).effects.filterMap Effect.call? := by
  induction signals generalizing s with
  | nil => rfl
  | cons first rest ih =>
      obtain ⟨now, signal⟩ := first
      rw [moments, reactAll]
      cases taken : takes s.phase signal with
      | true =>
          rw [List.filterMap_append, ← ih, ← calls_turn, ← List.filter_append,
            ← Moment.calls_heard_append signal]
          rfl
      | false =>
          rw [react_of_not_takes taken]
          exact ih s

/-- From its start on a session with room for windows keeps the protocol of its source, whatever it
hears: it closes the source once, as its last call, when it ends or is about to. -/
theorem story_keepsProtocol {profile : Profile} (room : profile.options.HasRoom)
    (signals : List (Instant × Signal)) :
    let turn := (start profile).reactAll signals
    let calls := Moment.calls (story profile signals)
    KeepsProtocol profile.subscription (story profile signals) ∧
      (∃ before, .close ∉ before ∧ calls = before ++
        if turn.session.phase = .close ∨ turn.session.phase = .ended then [.close] else []) ∧
      calls.filter (· ≠ .next) = turn.effects.filterMap Effect.call? := by
  intro turn calls
  have follows : Follows profile.subscription .frame ((start profile).moments signals)
      turn.session.phase := follows_moments (s := start profile) room signals
  have awaited : Phase.frame.awaited? profile.subscription = some .next := rfl
  have resumes : ∀ {part}, part <:+ story profile signals →
      Resumes profile.subscription turn.session.phase part := by
    intro part suffix
    rcases List.suffix_cons_iff.1 suffix with rfl | suffix
    · exact .calling awaited follows
    · exact follows.resumes suffix
  refine ⟨.of_resumes resumes, ?_, calls_moments (start profile) signals⟩
  exact (follows.closesOnce ⟨Phase.noConfusion, Phase.noConfusion⟩).cons Call.noConfusion

/-- A stream that ends, a subscription that fails, a stream that fails, and a stop. -/
theorem story_keepsProtocol_of_losses :
    let profile : Profile := ⟨.bybit, "subscribe", ⟨.snapshots, 10, 20⟩, true, true⟩
    let failure : FeedError := .refused .bybit "busy"
    let signals : List (Instant × Signal) := [(1, .arrived .finished), (2, .replied none),
      (3, .replied (some failure)), (4, .arrived (.frame "\x7b\x7d")),
      (5, .arrived (.failed failure)), (6, .replied none), (7, .replied none), (8, .stop),
      (9, .arrived .finished), (10, .replied none), (11, .stop)]
    let calls := Moment.calls (story profile signals)
    profile.options.HasRoom ∧ KeepsProtocol "subscribe" (story profile signals) ∧
      calls = [.next, .reconnect, .send "subscribe", .next, .next, .reconnect, .send "subscribe",
        .next, .close] ∧
      calls.filter (· ≠ .next) =
        ((start profile).reactAll signals).effects.filterMap Effect.call? := by
  intro profile failure signals calls
  have room : profile.options.HasRoom := by decide
  obtain ⟨keeps, -, effects⟩ := story_keepsProtocol room signals
  exact ⟨room, keeps, by decide +kernel, effects⟩

/-- Without room for a window a trade ends the session, and nobody closes its source: no stop that
comes later does. -/
theorem source_left_open :
    let options : OutputOptions := ⟨.snapshots, 10, 2305843009213693952⟩
    let profile : Profile := ⟨.bybit, "subscribe", options, true, true⟩
    let bought := "\x7b\x22topic\x22:\x22publicTrade.BTCUSDT\x22,\x22data\x22:[\x7b\x22s\x22:" ++
      "\x22BTCUSDT\x22,\x22p\x22:\x2250000.1\x22,\x22v\x22:\x220.01\x22,\x22S\x22:\x22Buy\x22," ++
      "\x22i\x22:\x22123\x22\x7d]\x7d"
    let signals : List (Instant × Signal) := [(1, .arrived (.frame bought)), (2, .stop)]
    ((start profile).reactAll signals).session.phase = .ended ∧
      Moment.calls (story profile signals) = [.next] := by
  decide +kernel

end Session

end Tape
