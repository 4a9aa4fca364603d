import Tape.Feed.Basic
import Tape.Proofs.Feed.Tally

/-!
# Feeds step by step

A feed is asked to initialize, to start and to stop; in between its source delivers, and the calls
that its session makes end one by one, so that a stop can come while a call is pending. What a step
can do is said once, in `Feed.Advances`. A delivery is an arrival with the ends of all the calls
that it leads to.
-/

namespace Tape

namespace Feed

/-- The feed after a turn of its session. -/
def taken (f : Feed) (turn : Turn) (source : Source) : Feed :=
  { f with counters := f.counters + turn.counts, session := some (turn.session, source) }

/-- Hands a signal to the session; the call that it may lead to stays pending. -/
def hear (f : Feed) (now : Instant) (signal : Signal) : List Effect × Feed :=
  match f.session with
  | none => ([], f)
  | some (session, source) =>
      let turn := session.react now signal
      (turn.effects, f.taken turn source)

/-- The pending call ends as the source has it. -/
def answer (f : Feed) (now : Instant) : List Effect × Feed :=
  match f.session with
  | none => ([], f)
  | some (session, source) =>
      match session.pending? source with
      | none => ([], f)
      | some (reply, source) =>
          let turn := session.react now (.replied reply)
          (turn.effects, f.taken turn source)

inductive Step where
  | prepare
  | start
  | stop
  | arrive (now : Instant) (arrival : Arrival)
  | answer (now : Instant)
  deriving DecidableEq

def advance (f : Feed) : Step → List Effect × Feed
  | .prepare => f.prepare.2
  | .start => ([], f.start.2)
  | .stop => f.stop
  | .arrive now arrival => f.hear now (.arrived arrival)
  | .answer now => f.answer now

def advanceAll (f : Feed) : List Step → List Effect × Feed
  | [] => ([], f)
  | step :: rest =>
      let (effects, f) := f.advance step
      let (later, f) := f.advanceAll rest
      (effects ++ later, f)

theorem advanceAll_append (f : Feed) (first second : List Step) :
    f.advanceAll (first ++ second) =
      ((f.advanceAll first).1 ++ ((f.advanceAll first).2.advanceAll second).1,
        ((f.advanceAll first).2.advanceAll second).2) := by
  induction first generalizing f with
  | nil => rfl
  | cons step rest ih => simp only [List.cons_append, advanceAll, ih, List.append_assoc]

/-! ## Deliveries -/

variable {f : Feed}

theorem taken_taken (f : Feed) (first second : Turn) (source other : Source) :
    (f.taken first source).taken second other =
      f.taken ⟨first.effects ++ second.effects, first.counts + second.counts, second.session⟩
        other := by
  simp only [taken, Counters.add_assoc]

theorem advanceAll_answers (now : Instant) (still : f.answer now = ([], f)) (calls : Nat) :
    f.advanceAll (List.replicate calls (.answer now)) = ([], f) := by
  induction calls with
  | zero => rfl
  | succ calls ih =>
      simp only [List.replicate_succ, advanceAll, advance, still, ih, List.append_nil]

/-- Letting the source reply is a number of answers. -/
theorem settle_eq_answers (f : Feed) (now : Instant) (calls : Nat) (turn : Turn) (source : Source) :
    let settled := Session.settle now calls turn source
    let answered := (f.taken turn source).advanceAll (List.replicate calls (.answer now))
    (settled.1.effects, f.taken settled.1 settled.2) =
      (turn.effects ++ answered.1, answered.2) := by
  -- Once no call is pending, all further answers are idle, as `settle` stops early.
  induction calls generalizing turn source with
  | zero => simp only [Session.settle, List.replicate_zero, advanceAll, List.append_nil]
  | succ calls ih =>
      cases pending : turn.session.pending? source with
      | none =>
          have still : (f.taken turn source).answer now = ([], f.taken turn source) := by
            simp only [answer, taken, pending]
          simp only [Session.settle, pending, advanceAll_answers now still, List.append_nil]
      | some call =>
          obtain ⟨reply, rest⟩ := call
          have here : (f.taken turn source).answer now =
              ((turn.session.react now (.replied reply)).effects,
                (f.taken turn source).taken (turn.session.react now (.replied reply)) rest) := by
            simp only [answer, taken, pending]
          simp only [Session.settle, pending, List.replicate_succ, advanceAll, advance, here,
            taken_taken, ← List.append_assoc]
          exact ih _ _

/-- A delivery is an arrival, and then all calls end that it leads to. -/
theorem deliver_eq_advanceAll (f : Feed) (now : Instant) (arrival : Arrival) :
    f.deliver now arrival =
      f.advanceAll (.arrive now arrival :: List.replicate Session.callBound (.answer now)) := by
  simp only [deliver, signal, advanceAll, advance, hear]
  cases running : f.session with
  | none =>
      have still : f.answer now = ([], f) := by
        simp only [answer, running]
      simp only [advanceAll_answers now still, List.append_nil]
  | some session => exact settle_eq_answers f now _ _ _

/-- While frames arrive, a feed does what its session does. -/
theorem advanceAll_frames {session : Session} {source : Source}
    (running : f.session = some (session, source)) (frames : List (Instant × String)) :
    f.advanceAll (frames.map fun frame => .arrive frame.1 (.frame frame.2)) =
      ((session.receiveAll frames).effects, f.taken (session.receiveAll frames) source) := by
  induction frames generalizing f session with
  | nil =>
      have same : f.taken ⟨[], .zero, session⟩ source = f := by
        rw [taken, Counters.add_zero, ← running]
      exact congrArg (Prod.mk []) same.symm
  | cons first rest ih =>
      obtain ⟨now, text⟩ := first
      have here : f.hear now (.arrived (.frame text)) =
          ((session.react now (.arrived (.frame text))).effects,
            f.taken (session.react now (.arrived (.frame text))) source) := by
        simp only [hear, running]
      have later := ih (f := f.taken (session.react now (.arrived (.frame text))) source) rfl
      simp only [List.map_cons, advanceAll, advance, here, later, taken_taken]
      rfl

/-! ## What a step can do -/

/-- A stop at most closes the source. -/
theorem stop_eq (f : Feed) :
    ∃ effects, (effects = [] ∨ effects = [.close]) ∧
      f.stop = (effects, { f with publishes := false, session := none }) := by
  cases running : f.session with
  | none =>
      refine ⟨[], .inl rfl, ?_⟩
      simp only [stop, signal, running]
  | some pair =>
      obtain ⟨⟨profile, phase, store, tradeWindows, bookWindows, numbers,
        encoder⟩, source⟩ := pair
      simp only [stop, signal, running]
      cases phase with
      | frame => exact ⟨[.close], .inr rfl, rfl⟩
      | reconnect => exact ⟨[.close], .inr rfl, rfl⟩
      | send => exact ⟨[.close], .inr rfl, rfl⟩
      | close => exact ⟨[], .inl rfl, rfl⟩
      | ended => exact ⟨[], .inl rfl, rfl⟩

/-- What a feed can do in a step. -/
inductive Advances (f : Feed) : Step → List Effect × Feed → Prop where
  | prepared (calls : List Effect) (source : Source) (made : ∀ call ∈ calls, call.isCall = true)
      (held : f.source.isSome = true) :
      Advances f .prepare (calls, { f with source := some source, isReady := true })
  | failed (calls : List Effect) (source : Option Source) (cause : FeedError)
      (made : ∀ call ∈ calls, call.isCall = true) (kept : source.isSome = f.source.isSome) :
      Advances f .prepare
        (calls ++ f.told (.error (FeedError.notReady f.venue cause.message).message),
          { f with source, counters := f.counters + .oneError })
  | started (source : Source) (held : f.source = some source) (fresh : f.session = none) :
      Advances f .start ([], { f with source := none, session := some (.start f.profile, source) })
  | notStarted : Advances f .start ([], f)
  | stopped (effects : List Effect) (few : effects = [] ∨ effects = [.close]) :
      Advances f .stop (effects, { f with publishes := false, session := none })
  | heard (session : Session) (source : Source) (now : Instant) (arrival : Arrival) (turn : Turn)
      (running : f.session = some (session, source))
      (reacts : session.Reacts now (.arrived arrival) turn) :
      Advances f (.arrive now arrival) (turn.effects, f.taken turn source)
  | unheard (now : Instant) (arrival : Arrival) (idle : f.session = none) :
      Advances f (.arrive now arrival) ([], f)
  | answered (session : Session) (source rest : Source) (now : Instant) (reply : Reply)
      (turn : Turn) (running : f.session = some (session, source))
      (reacts : session.Reacts now (.replied reply) turn) :
      Advances f (.answer now) (turn.effects, f.taken turn rest)
  | noCall (now : Instant) : Advances f (.answer now) ([], f)

section Registered

/-! No step changes what a feed was registered with. -/

variable {step : Step} {result : List Effect × Feed}

theorem Advances.venue (advances : f.Advances step result) : result.2.venue = f.venue := by
  cases advances <;> rfl

theorem Advances.options (advances : f.Advances step result) : result.2.options = f.options := by
  cases advances <;> rfl

theorem Advances.listens (advances : f.Advances step result) : result.2.listens = f.listens := by
  cases advances <;> rfl

end Registered

theorem isCall_of_mem_openSource (source : Source) (subscription : String) :
    ∀ call ∈ (openSource source subscription).2.1, call.isCall = true := by
  rw [openSource]
  split <;> simp [Effect.isCall]

theorem advances_prepare (f : Feed) : f.Advances .prepare f.prepare.2 := by
  have failed := Advances.failed (f := f)
  rw [prepare]
  cases held : f.source with
  | none =>
      have same : { f with source := none, counters := f.counters + Counters.oneError } =
        { f with counters := f.counters + Counters.oneError } := by rw [← held]
      have refused := failed [] none alreadyStarted (by simp) (by rw [held])
      rw [same] at refused
      exact refused
  | some source =>
      have made := isCall_of_mem_openSource source f.subscription
      simp only
      generalize openSource source f.subscription = opened at made ⊢
      obtain ⟨reply, calls, source⟩ := opened
      cases reply with
      | none => exact .prepared calls source made (by rw [held]; rfl)
      | some cause => exact failed calls (some source) cause made (by rw [held]; rfl)

theorem advances_start (f : Feed) : f.Advances .start ([], f.start.2) := by
  rw [start]
  split
  next => exact .notStarted
  next idle =>
    split
    next => exact .notStarted
    next =>
      cases held : f.source with
      | none => exact .notStarted
      | some source => exact .started source held (by simpa using idle)

theorem advances (f : Feed) (step : Step) : f.Advances step (f.advance step) := by
  cases step with
  | prepare => exact f.advances_prepare
  | start => exact f.advances_start
  | stop =>
      obtain ⟨effects, few, same⟩ := f.stop_eq
      rw [advance, same]
      exact .stopped effects few
  | arrive now arrival =>
      rw [advance, hear]
      cases running : f.session with
      | none => exact .unheard now arrival running
      | some pair => exact .heard pair.1 pair.2 now arrival _ running (pair.1.reacts now _)
  | answer now =>
      rw [advance, answer]
      cases running : f.session with
      | none => exact .noCall now
      | some pair =>
          obtain ⟨session, source⟩ := pair
          cases pending : session.pending? source with
          | none =>
              simp only [pending]
              exact .noCall now
          | some call =>
              simp only [pending]
              exact .answered session source call.2 now call.1 _ running (session.reacts now _)

end Feed

end Tape
