import Tape.Proofs.Feed.Account
import Tape.Proofs.Feed.Figures

/-!
# What a start promises

A feed that was initialized once stays so, and hands its source over at most once. A start that
succeeds comes after some initialization that did, and leaves a running session, unless the session
that was started before has ended by itself: that is no obstacle to a start, which does nothing then.
A session ends by itself when it fails to reconnect.
-/

namespace Tape

namespace Session

variable {s : Session} {now : Instant} {signal : Signal} {turn : Turn}

/-- A session begins to close when it is stopped or fails to reconnect. -/
theorem Reacts.isClosing (reacts : s.Reacts now signal turn) (room : s.profile.options.HasRoom)
    (closing : turn.session.IsClosing) :
    s.IsClosing ∨ signal = .stop ∨
      s.phase = .reconnect ∧ ∃ error, signal = .replied (some error) := by
  cases reacts with
  | frame text waits =>
      rw [IsClosing, phase_onFrame room, waits] at closing
      rcases closing with phase | phase <;> cases phase
  | finished waits => rcases closing with phase | phase <;> cases phase
  | failed error waits => rcases closing with phase | phase <;> cases phase
  | reconnected reply waits =>
      cases reply with
      | none => rcases closing with phase | phase <;> cases phase
      | some error => exact .inr (.inr ⟨waits, error, rfl⟩)
  | sent reply waits => cases reply <;> rcases closing with phase | phase <;> cases phase
  | closed reply waits => exact .inl (.inl waits)
  | stopped open' => exact .inr (.inl rfl)
  | idle signal other => exact .inl closing

end Session

namespace Feed

variable {f : Feed} {step : Step} {result : List Effect × Feed}

/-! ## Initializing -/

/-- How the calls to initialize end, along steps. -/
def preparations (f : Feed) : List Step → List Reply
  | [] => []
  | step :: rest =>
      (if step = .prepare then [f.prepare.1] else []) ++ (f.advance step).2.preparations rest

theorem isReady_prepare (f : Feed) :
    f.prepare.2.2.isReady = (f.isReady || f.prepare.1.isNone) := by
  rw [prepare]
  cases f.source with
  | none => exact (Bool.or_false _).symm
  | some source =>
      simp only
      obtain ⟨reply, calls, source⟩ := openSource source f.subscription
      cases reply with
      | none => exact (Bool.or_true _).symm
      | some cause => exact (Bool.or_false _).symm

theorem Advances.isReady (advances : f.Advances step result) (other : step ≠ .prepare) :
    result.2.isReady = f.isReady := by
  cases advances with
  | prepared => exact absurd rfl other
  | failed => exact absurd rfl other
  | started | notStarted | stopped | heard | unheard | answered | noCall => rfl

/-- Only an initialization that succeeds makes a feed ready. -/
theorem exists_preparation (steps : List Step) (ready : (f.advanceAll steps).2.isReady = true) :
    f.isReady = true ∨ none ∈ f.preparations steps := by
  induction steps generalizing f with
  | nil => exact .inl ready
  | cons step rest ih =>
      rw [preparations, List.mem_append]
      rcases ih ready with next | later
      · by_cases here : step = .prepare
        · subst here
          have either : (f.isReady || f.prepare.1.isNone) = true :=
            f.isReady_prepare.symm.trans next
          rw [Bool.or_eq_true, Option.isNone_iff_eq_none] at either
          refine either.imp_right fun succeeds => .inl ?_
          rw [if_pos rfl, succeeds]
          exact List.mem_singleton_self _
        · exact .inl (((f.advances step).isReady here).symm.trans next)
      · exact .inr (.inr later)

/-! ## Starting -/

/-- A feed has a session only after it was ready. -/
def IsBegun (f : Feed) : Prop := f.session.isSome = true → f.isReady = true

theorem isBegun_start (begun : f.IsBegun) : f.start.2.IsBegun := by
  rw [start]
  split
  next => exact begun
  next =>
    split
    next => exact begun
    next ready =>
      cases f.source with
      | none => exact begun
      | some source =>
          intro _
          rw [Bool.not_eq_true', Bool.not_eq_false] at ready
          exact ready

theorem Advances.isBegun (advances : f.Advances step result) (other : step ≠ .start)
    (begun : f.IsBegun) : result.2.IsBegun := by
  cases advances with
  | prepared => exact fun _ => rfl
  | failed => exact begun
  | started => exact absurd rfl other
  | notStarted => exact begun
  | stopped => exact fun impossible => nomatch impossible
  | heard session source now arrival turn running => exact fun _ => begun (by rw [running]; rfl)
  | unheard => exact begun
  | answered session source rest now reply turn running =>
      exact fun _ => begun (by rw [running]; rfl)
  | noCall => exact begun

theorem isBegun_advanceAll (begun : f.IsBegun) (steps : List Step) :
    (f.advanceAll steps).2.IsBegun := by
  induction steps generalizing f with
  | nil => exact begun
  | cons step rest ih =>
      refine ih ?_
      by_cases here : step = .start
      · subst here
        exact isBegun_start begun
      · exact (f.advances step).isBegun here begun

/-- How many sessions begin, along steps. -/
def spawns (f : Feed) : List Step → Nat
  | [] => 0
  | step :: rest =>
      (if f.session.isNone && (f.advance step).2.session.isSome then 1 else 0) +
        (f.advance step).2.spawns rest

/-- A session that begins takes the source, which does not come back. -/
theorem Advances.spawn (advances : f.Advances step result) :
    (if f.session.isNone && result.2.session.isSome then 1 else 0) +
      (if result.2.source.isSome then 1 else 0) ≤ (if f.source.isSome then 1 else 0) := by
  cases advances with
  | prepared calls source made held => cases f.session <;> simp [held]
  | failed calls source cause made kept => cases f.session <;> simp [kept]
  | started source held fresh => simp [held, fresh]
  | notStarted => cases f.session <;> simp
  | stopped => simp
  | heard session source now arrival turn running =>
      rw [running]
      exact Nat.le_of_eq (Nat.zero_add _)
  | unheard now arrival idle => simp [idle]
  | answered session source rest now reply turn running =>
      rw [running]
      exact Nat.le_of_eq (Nat.zero_add _)
  | noCall => cases f.session <;> simp

theorem spawns_le (f : Feed) (steps : List Step) :
    f.spawns steps ≤ if f.source.isSome then 1 else 0 := by
  induction steps generalizing f with
  | nil => exact Nat.zero_le _
  | cons step rest ih =>
      have later := ih (f.advance step).2
      have here := (f.advances step).spawn
      rw [spawns]
      omega

/-! ## Ending -/

/-- Whether there is a session that has ended, and was not stopped since. -/
def hasEnded (f : Feed) : Bool := f.session.isSome && !f.isRunning

def IsClosing (f : Feed) : Prop :=
  ∃ session source, f.session = some (session, source) ∧ session.IsClosing

/-- The session waits for its reconnect, and that fails. -/
def FailsAt (f : Feed) (step : Step) : Prop :=
  ∃ now session source error, step = .answer now ∧ f.session = some (session, source) ∧
    session.phase = .reconnect ∧ source.reconnect.1 = some error

/-- Some step makes a reconnect fail. -/
def GivesUp (f : Feed) : List Step → Prop
  | [] => False
  | step :: rest => f.FailsAt step ∨ (f.advance step).2.GivesUp rest

theorem isClosing_of_hasEnded (ended : f.hasEnded = true) : f.IsClosing := by
  obtain ⟨some, notLive⟩ := Bool.and_eq_true_iff.1 ended
  obtain ⟨⟨session, source⟩, running⟩ := Option.isSome_iff_exists.1 some
  rw [isRunning, running] at notLive
  exact ⟨session, source, running, .inr (by simpa [Session.isLive] using notLive)⟩

/-- A signal makes a session close when it is a stop or the news of a failed reconnect. -/
theorem isClosing_taken (tied : f.Tied) (room : f.options.HasRoom) {session : Session}
    {source rest : Source} {now : Instant} {signal : Signal} {turn : Turn}
    (running : f.session = some (session, source)) (reacts : session.Reacts now signal turn)
    (closing : (f.taken turn rest).IsClosing) :
    f.IsClosing ∨ signal = .stop ∨
      session.phase = .reconnect ∧ ∃ error, signal = .replied (some error) := by
  obtain ⟨_, _, same, closing⟩ := closing
  cases same
  have roomy : session.profile.options.HasRoom := by
    rw [tied.profile running]
    exact room
  exact (reacts.isClosing roomy closing).imp_left fun before => ⟨session, source, running, before⟩

theorem isClosing_answer (tied : f.Tied) (room : f.options.HasRoom) {now : Instant}
    (closing : (f.answer now).2.IsClosing) : f.IsClosing ∨ f.FailsAt (.answer now) := by
  rw [answer] at closing
  cases running : f.session with
  | none =>
      rw [running] at closing
      exact .inl closing
  | some pair =>
      obtain ⟨session, source⟩ := pair
      cases pending : session.pending? source with
      | none =>
          simp only [running, pending] at closing
          exact .inl closing
      | some call =>
          simp only [running, pending] at closing
          rcases isClosing_taken tied room running (session.reacts now (.replied call.1)) closing with
            before | impossible | ⟨phase, error, same⟩
          · exact .inl before
          · cases impossible
          · refine .inr ⟨now, session, source, error, rfl, running, phase, ?_⟩
            simp only [Session.pending?, phase] at pending
            cases pending
            exact Signal.replied.inj same

theorem isClosing_advance (tied : f.Tied) (room : f.options.HasRoom)
    (closing : (f.advance step).2.IsClosing) : f.IsClosing ∨ f.FailsAt step := by
  have advances := f.advances step
  generalize same : f.advance step = result at advances closing
  cases advances with
  | prepared | failed | notStarted | unheard | noCall => exact .inl closing
  | started =>
      obtain ⟨_, _, began, phase⟩ := closing
      cases began
      rcases phase with phase | phase <;> cases phase
  | stopped =>
      obtain ⟨_, _, gone, _⟩ := closing
      cases gone
  | heard session source now arrival turn running reacts =>
      rcases isClosing_taken tied room running reacts closing with
        before | impossible | ⟨_, error, impossible⟩
      · exact .inl before
      · cases impossible
      · cases impossible
  -- The end of a call is read off the source, which the inversion of a step does not name.
  | answered session source rest now =>
      rw [← same] at closing
      exact isClosing_answer tied room closing

theorem isClosing_advanceAll (tied : f.Tied) (room : f.options.HasRoom) (steps : List Step)
    (closing : (f.advanceAll steps).2.IsClosing) : f.IsClosing ∨ f.GivesUp steps := by
  induction steps generalizing f with
  | nil => exact .inl closing
  | cons step rest ih =>
      have advances := f.advances step
      rcases ih (advances.tied tied) (advances.options ▸ room) closing with next | later
      · exact (isClosing_advance tied room next).imp_right .inl
      · exact .inr (.inr later)

/-! ## Starts that succeed -/

theorem isReady_of_start (begun : f.IsBegun) (succeeds : f.start.1 = none) : f.isReady = true := by
  rw [start] at succeeds
  split at succeeds
  next some => exact begun some
  next =>
    split at succeeds
    next => cases succeeds
    next ready => rwa [Bool.not_eq_true', Bool.not_eq_false] at ready

/-- A start that succeeds finds a session or begins one, which runs. -/
theorem isRunning_of_start (succeeds : f.start.1 = none) (alive : f.hasEnded = false) :
    f.start.2.isRunning = true := by
  rw [start] at succeeds ⊢
  split at succeeds
  next some =>
    rw [if_pos some]
    simpa [hasEnded, some] using alive
  next none =>
    split at succeeds
    next => cases succeeds
    next ready =>
      rw [if_neg none, if_neg ready]
      cases held : f.source with
      | none =>
          rw [held] at succeeds
          cases succeeds
      | some source => rfl

/-- Whenever a start succeeds, some initialization has, and a session runs unless it has ended by
itself, as it does only when a reconnect fails. No feed begins more than one session. -/
theorem start_is_honest (idle : f.session = none) (unready : f.isReady = false)
    (steps : List Step) :
    let g := (f.advanceAll steps).2
    (g.start.1 = none →
        none ∈ f.preparations steps ∧ (g.hasEnded = false → g.start.2.isRunning = true)) ∧
      (f.options.HasRoom → g.hasEnded = true → f.GivesUp steps) ∧ f.spawns steps ≤ 1 := by
  intro g
  have begun : g.IsBegun := isBegun_advanceAll (fun some => by rw [idle] at some; cases some) steps
  have prepared : g.isReady = true → none ∈ f.preparations steps := fun ready =>
    (exists_preparation steps ready).resolve_left (by rw [unready]; exact Bool.false_ne_true)
  refine ⟨fun succeeds => ⟨prepared (isReady_of_start begun succeeds),
    isRunning_of_start succeeds⟩, fun room ended => ?_, ?_⟩
  · refine (isClosing_advanceAll (tied_of_no_session idle) room steps
      (isClosing_of_hasEnded ended)).resolve_left ?_
    rintro ⟨session, source, running, _⟩
    cases idle.symm.trans running
  · have few := f.spawns_le steps
    split at few <;> omega

/-- The first subscription is refused, the second is not; later the stream ends, and the session
reconnects. A start that comes then finds it running. -/
theorem start_is_honest_over_reconnect :
    let busy : FeedError := .refused .bybit "busy"
    let f := { served .bybit .default with
      source := some ⟨.always none, ⟨[some busy], none⟩, .always none, .always none⟩ }
    let steps : List Step :=
      [.prepare, .prepare, .start, .arrive 1 .finished, .answer 2, .answer 3]
    let g := (f.advanceAll steps).2
    f.preparations steps = [some (.notReady .bybit busy.message), none] ∧ g.start.1 = none ∧
      g.start.2.isRunning = true ∧ f.spawns steps = 1 := by
  intro busy f steps g
  have succeeds : g.start.1 = none := by decide +kernel
  have alive : g.hasEnded = false := by decide +kernel
  have begins : 1 ≤ f.spawns steps := by decide +kernel
  obtain ⟨honest, _, once⟩ := start_is_honest (f := f) rfl rfl steps
  exact ⟨by decide +kernel, succeeds, (honest succeeds).2 alive, Nat.le_antisymm once begins⟩

/-- Once a feed is started it refuses to be initialized, while a start still succeeds. A start also
succeeds after a second initialization that failed, and when the session has ended over a failed
reconnect, which it leaves as it is. -/
theorem start_succeeds_after_failure :
    let f := served .bybit .default
    let gone : FeedError := .refused .bybit "gone"
    let refused := [Step.prepare, .start, .prepare]
    let dropped := { f with source := some ⟨⟨[none], some gone⟩, .always none, .always none,
      .always none⟩ }
    let lost := { f with source := some ⟨.always none, .always none, .always (some gone),
      .always none⟩ }
    let ended := [Step.prepare, .start, .arrive 1 .finished, .answer 2, .answer 3]
    (∀ g ∈ [f, dropped, lost], g.session = none ∧ g.isReady = false) ∧
      (f.preparations refused = [none, some (.notReady .bybit alreadyStarted.message)] ∧
        (f.advanceAll refused).2.start.1 = none) ∧
      (dropped.preparations [.prepare, .prepare] = [none, some (.notReady .bybit gone.message)] ∧
        (dropped.advanceAll [.prepare, .prepare]).2.start.1 = none) ∧
      (lost.advanceAll ended).2.start.1 = none ∧
        (lost.advanceAll ended).2.start.2.isRunning = false := by
  decide +kernel

end Feed

end Tape
