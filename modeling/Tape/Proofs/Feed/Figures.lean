import Tape.Proofs.Feed.Reports
import Tape.Proofs.Feed.Steps

/-!
# The figures of a feed

Over any steps the counters of a feed count what its listener is told and what is published. A stop
lets go of the bus, so one that comes before the source is handed over leaves later trades and books
without reports.
-/

namespace Tape

namespace Feed

variable {f : Feed} {step : Step} {result : List Effect × Feed}

/-! ## What stays -/

/-- A session has what the feed had when it started, and no encoder for whole books. -/
structure Tied (f : Feed) : Prop where
  profile : ∀ {session source}, f.session = some (session, source) → session.profile = f.profile
  encoder : ∀ {session source}, f.session = some (session, source) →
    f.options.mode = .snapshots → session.encoder = none

theorem tied_of_no_session (idle : f.session = none) : f.Tied where
  profile := by
    intro session source running
    cases idle.symm.trans running
  encoder := by
    intro session source running
    cases idle.symm.trans running

theorem Tied.taken (tied : f.Tied) {session : Session} {source : Source} {now : Instant}
    {signal : Signal} {turn : Turn} (running : f.session = some (session, source))
    (reacts : session.Reacts now signal turn) (rest : Source) : (f.taken turn rest).Tied where
  profile := by
    intro later source same
    cases same
    exact reacts.profile.trans (tied.profile running)
  encoder := by
    intro later source same mode
    cases same
    exact reacts.encoder (tied.encoder running mode)

theorem Advances.tied (advances : f.Advances step result) (tied : f.Tied) : result.2.Tied := by
  cases advances with
  | prepared => exact ⟨tied.profile, tied.encoder⟩
  | failed => exact ⟨tied.profile, tied.encoder⟩
  | started source held fresh =>
      constructor
      · intro session other same
        cases same
        rfl
      · intro session other same mode
        cases same
        exact congrArg Session.encoderOf mode
  | notStarted => exact tied
  | stopped => exact tied_of_no_session rfl
  | heard session source now arrival turn running reacts => exact tied.taken running reacts _
  | unheard => exact tied
  | answered session source rest now reply turn running reacts =>
      exact tied.taken running reacts _
  | noCall => exact tied

/-! ## What is counted -/

/-- A step counts what it does. -/
theorem Advances.counters (advances : f.Advances step result) (tied : f.Tied)
    (listens : f.listens = true) (room : f.options.HasRoom) :
    result.2.counters = f.counters + Counters.tally result.1 := by
  have heard : ∀ {session source now signal turn}, f.session = some (session, source) →
      session.Reacts now signal turn → turn.counts = Counters.tally turn.effects := by
    intro session source now signal turn running reacts
    have same := tied.profile running
    exact reacts.counts (by rw [same]; exact listens) (by rw [same]; exact room)
  cases advances with
  | prepared calls source made held => rw [Counters.tally_of_calls made, Counters.add_zero]
  | failed calls source cause made kept =>
      rw [Counters.tally_append, Counters.tally_of_calls made, Counters.zero_add, told,
        if_pos listens]
      rfl
  | started => rfl
  | notStarted => rfl
  | stopped effects few => rcases few with rfl | rfl <;> rfl
  | heard session source now arrival turn running reacts =>
      exact congrArg (f.counters + ·) (heard running reacts)
  | unheard => rfl
  | answered session source rest now reply turn running reacts =>
      exact congrArg (f.counters + ·) (heard running reacts)
  | noCall => rfl

theorem counters_advanceAll (tied : f.Tied) (listens : f.listens = true)
    (room : f.options.HasRoom) (steps : List Step) :
    (f.advanceAll steps).2.counters =
      f.counters + Counters.tally (f.advanceAll steps).1 := by
  induction steps generalizing f with
  | nil => rfl
  | cons step rest ih =>
      have advances := f.advances step
      rw [advanceAll, ih (advances.tied tied) (advances.listens.trans listens)
        (advances.options ▸ room), advances.counters tied listens room, Counters.tally_append,
        Counters.add_assoc]

/-- No figure ever falls. -/
theorem Advances.counters_le (advances : f.Advances step result) :
    f.counters ≤ result.2.counters := by
  cases advances with
  | failed => exact Counters.le_add _ _
  | heard => exact Counters.le_add _ _
  | answered => exact Counters.le_add _ _
  | prepared => exact Counters.le_refl _
  | started => exact Counters.le_refl _
  | notStarted => exact Counters.le_refl _
  | stopped => exact Counters.le_refl _
  | unheard => exact Counters.le_refl _
  | noCall => exact Counters.le_refl _

theorem counters_le_advanceAll (f : Feed) (steps : List Step) :
    f.counters ≤ (f.advanceAll steps).2.counters := by
  induction steps generalizing f with
  | nil => exact Counters.le_refl _
  | cons step rest ih => exact Counters.le_trans (f.advances step).counters_le (ih _)

/-! ## What is published -/

theorem Advances.published_of_silent (advances : f.Advances step result) (tied : f.Tied)
    (silent : f.publishes = false) :
    result.2.counters.published = f.counters.published ∧ result.2.publishes = false := by
  have heard : ∀ {session source now signal turn rest}, f.session = some (session, source) →
      session.Reacts now signal turn →
      (f.taken turn rest).counters.published = f.counters.published := by
    intro session source now signal turn rest running reacts
    have none := reacts.published_of_silent (by rw [tied.profile running]; exact silent)
    simp only [taken, Counters.add_def, none, Nat.add_zero]
  cases advances with
  | heard session source now arrival turn running reacts => exact ⟨heard running reacts, silent⟩
  | answered session source rest now reply turn running reacts =>
      exact ⟨heard running reacts, silent⟩
  | stopped => exact ⟨rfl, rfl⟩
  | failed => exact ⟨rfl, silent⟩
  | prepared => exact ⟨rfl, silent⟩
  | started => exact ⟨rfl, silent⟩
  | notStarted => exact ⟨rfl, silent⟩
  | unheard => exact ⟨rfl, silent⟩
  | noCall => exact ⟨rfl, silent⟩

theorem published_advanceAll_of_silent (tied : f.Tied) (silent : f.publishes = false)
    (steps : List Step) :
    (f.advanceAll steps).2.counters.published = f.counters.published := by
  induction steps generalizing f with
  | nil => rfl
  | cons step rest ih =>
      have advances := f.advances step
      obtain ⟨same, still⟩ := advances.published_of_silent tied silent
      exact (ih (advances.tied tied) still).trans same

/-- How many books are held back in a step because nothing changed in them. -/
def suppressed (f : Feed) : Step → Nat
  | .arrive now arrival =>
      match f.session with
      | some (session, _) => session.suppressed now (.arrived arrival)
      | none => 0
  | _ => 0

def suppressedAll (f : Feed) : List Step → Nat
  | [] => 0
  | step :: rest => f.suppressed step + (f.advance step).2.suppressedAll rest

/-- The bus is held as long as there is or may be a session. -/
def KeepsBus (f : Feed) : Prop := f.publishes = true ∨ f.session = none ∧ f.source = none

/-- Every stop comes after the source was handed over. -/
def StopsLate (f : Feed) (steps : List Step) : Prop :=
  ∀ before after, steps = before ++ .stop :: after → (f.advanceAll before).2.source = none

theorem stopsLate_nil (f : Feed) : f.StopsLate [] := by
  intro before after split
  simp at split

theorem stopsLate_cons {rest : List Step} :
    f.StopsLate (step :: rest) ↔
      (step = .stop → f.source = none) ∧ (f.advance step).2.StopsLate rest := by
  constructor
  · intro late
    refine ⟨fun stops => late [] rest (by rw [stops]; rfl), ?_⟩
    intro before after split
    exact late (step :: before) after (by rw [split]; rfl)
  · rintro ⟨head, tail⟩ before after split
    cases before with
    | nil =>
        cases split
        exact head rfl
    | cons first before =>
        cases split
        exact tail before after rfl

instance StopsLate.decidable : (f : Feed) → (steps : List Step) → Decidable (f.StopsLate steps)
  | f, [] => .isTrue (stopsLate_nil f)
  | f, step :: rest =>
      have := StopsLate.decidable (f.advance step).2 rest
      decidable_of_iff _ stopsLate_cons.symm

theorem Advances.keepsBus (advances : f.Advances step result) (keeps : f.KeepsBus)
    (late : step = .stop → f.source = none) : result.2.KeepsBus := by
  cases advances with
  | prepared calls source made held =>
      rcases keeps with bus | ⟨_, gone⟩
      · exact .inl bus
      · simp [gone] at held
  | failed calls source cause made kept =>
      rcases keeps with bus | ⟨idle, gone⟩
      · exact .inl bus
      · refine .inr ⟨idle, ?_⟩
        simpa [gone] using kept
  | started source held fresh =>
      rcases keeps with bus | ⟨_, gone⟩
      · exact .inl bus
      · cases held.symm.trans gone
  | stopped => exact .inr ⟨rfl, late rfl⟩
  | heard session source now arrival turn running reacts =>
      rcases keeps with bus | ⟨idle, _⟩
      · exact .inl bus
      · cases idle.symm.trans running
  | answered session source rest now reply turn running reacts =>
      rcases keeps with bus | ⟨idle, _⟩
      · exact .inl bus
      · cases idle.symm.trans running
  | notStarted => exact keeps
  | unheard => exact keeps
  | noCall => exact keeps

/-- With a bus a step reports its trades and its books, but for those that are held back. -/
theorem Advances.published (advances : f.Advances step result) (tied : f.Tied)
    (keeps : f.KeepsBus) (room : f.options.HasRoom) :
    f.counters.trades + f.counters.books + result.2.counters.published + f.suppressed step =
      result.2.counters.trades + result.2.counters.books + f.counters.published := by
  -- A session that is running has the bus, since `KeepsBus` leaves no other way to have one.
  have heard : ∀ {session source now signal turn}, f.session = some (session, source) →
      session.Reacts now signal turn →
      turn.counts.published + session.suppressed now signal =
        turn.counts.trades + turn.counts.books := by
    intro session source now signal turn running reacts
    have same := tied.profile running
    rcases keeps with bus | ⟨idle, _⟩
    · exact reacts.published (by rw [same]; exact bus) (by rw [same]; exact room)
    · cases idle.symm.trans running
  cases advances with
  | heard session source now arrival turn running reacts =>
      have here := heard running reacts
      simp only [suppressed, running, taken, Counters.add_def]
      omega
  | answered session source rest now reply turn running reacts =>
      have here := heard running reacts
      simp only [Session.suppressed] at here
      simp only [suppressed, taken, Counters.add_def]
      omega
  | unheard now arrival idle => simp only [suppressed, idle, Nat.add_zero]
  | prepared => rfl
  | failed => rfl
  | started => rfl
  | notStarted => rfl
  | stopped => rfl
  | noCall => rfl

theorem published_advanceAll (tied : f.Tied) (keeps : f.KeepsBus) (room : f.options.HasRoom)
    {steps : List Step} (late : f.StopsLate steps) :
    f.counters.trades + f.counters.books + (f.advanceAll steps).2.counters.published +
        f.suppressedAll steps =
      (f.advanceAll steps).2.counters.trades + (f.advanceAll steps).2.counters.books +
        f.counters.published := by
  induction steps generalizing f with
  | nil => rfl
  | cons step rest ih =>
      have advances := f.advances step
      have here := advances.published tied keeps room
      obtain ⟨head, tail⟩ := stopsLate_cons.1 late
      have later := ih (advances.tied tied) (advances.keepsBus keeps head)
        (advances.options ▸ room) tail
      simp only [advanceAll, suppressedAll]
      omega

theorem suppressedAll_of_snapshots (tied : f.Tied) (mode : f.options.mode = .snapshots)
    (steps : List Step) : f.suppressedAll steps = 0 := by
  induction steps generalizing f with
  | nil => rfl
  | cons step rest ih =>
      have advances := f.advances step
      rw [suppressedAll, ih (advances.tied tied) (advances.options ▸ mode)]
      cases step with
      | arrive now arrival =>
          cases running : f.session with
          | none => simp only [suppressed, running]
          | some pair =>
              simp only [suppressed, running]
              exact Session.suppressed_of_no_encoder (tied.encoder running mode) _ _
      | prepare => rfl
      | start => rfl
      | stop => rfl
      | answer now => rfl

/-! ## The figures of a run -/

/-- A feed that somebody listens to, of which nothing has been asked yet. -/
structure Fresh (f : Feed) : Prop where
  listens : f.listens = true
  counters : f.counters = .zero
  session : f.session = none

/-- Whatever happens to a fresh feed, its counters count what its listener is told and what is
published. Without a bus that is nothing; with one that is let go of only after the source was
handed over it is a report of each trade and each book, but for the books that are held back, of
which there are none where whole books are published. No counter ever falls. -/
theorem counters_count (fresh : f.Fresh) (room : f.options.HasRoom) (steps : List Step) :
    let effects := (f.advanceAll steps).1
    let counters := (f.advanceAll steps).2.counters
    counters = Counters.tally effects ∧
      (f.publishes = false → counters.published = 0) ∧
      (f.publishes = true → f.StopsLate steps →
        counters.published + f.suppressedAll steps = counters.trades + counters.books) ∧
      (f.options.mode = .snapshots → f.suppressedAll steps = 0) ∧
      ∀ before after, steps = before ++ after → (f.advanceAll before).2.counters ≤ counters := by
  intro effects counters
  have tied := tied_of_no_session fresh.session
  refine ⟨?_, ?_, ?_, ?_, ?_⟩
  · have counted := counters_advanceAll tied fresh.listens room steps
    rw [fresh.counters, Counters.zero_add] at counted
    exact counted
  · intro silent
    have same := published_advanceAll_of_silent tied silent steps
    rw [fresh.counters] at same
    exact same
  · intro bus late
    have published := published_advanceAll tied (.inl bus) room late
    rw [fresh.counters] at published
    simpa [Counters.zero] using published
  · intro mode
    exact suppressedAll_of_snapshots tied mode steps
  · rintro before after rfl
    subst counters
    rw [advanceAll_append]
    exact counters_le_advanceAll _ _

/-- A feed with a listener and a bus, whose source never fails. -/
def served (venue : Venue) (options : OutputOptions) : Feed :=
  { Feed.new venue ["BTC-USDT"] ⟨.always none, .always none, .always none, .always none⟩ with
    options, listens := true, publishes := true }

theorem fresh_served (venue : Venue) (options : OutputOptions) : (served venue options).Fresh :=
  ⟨rfl, rfl, rfl⟩

/-- A book comes twice, the stream ends, a stop comes while the subscription is sent again, and at
last the feed is asked to initialize once more. -/
theorem counters_count_deltas :
    let f := served .binance ⟨.deltas none, 10, 20⟩
    let depth := "\x7b\x22e\x22:\x22depthUpdate\x22,\x22s\x22:\x22BTCUSDT\x22," ++
      "\x22b\x22:[[\x22100.5\x22,\x222\x22]]\x7d"
    let steps : List Step := [.prepare, .start, .arrive 1 (.frame depth), .arrive 2 (.frame depth),
      .arrive 3 .finished, .answer 4, .stop, .prepare]
    f.Fresh ∧ f.options.HasRoom ∧ f.StopsLate steps ∧ f.suppressedAll steps = 1 ∧
      (f.advanceAll steps).2.counters = ⟨0, 2, 1, 2⟩ ∧
      Counters.tally (f.advanceAll steps).1 = ⟨0, 2, 1, 2⟩ := by
  intro f depth steps
  have fresh : f.Fresh := fresh_served _ _
  have room : f.options.HasRoom := by decide
  have late : f.StopsLate steps := by decide +kernel
  have counters : (f.advanceAll steps).2.counters = ⟨0, 2, 1, 2⟩ := by decide +kernel
  obtain ⟨tallied, _, published, _, _⟩ := counters_count fresh room steps
  have balance := published rfl late
  rw [counters] at balance tallied
  simp only at balance
  refine ⟨fresh, room, late, ?_, counters, tallied.symm⟩
  omega

/-- A stop before the start lets go of the bus for good: the trade is not reported. With a window
that is too large to be had a trade is counted, but nobody is told. -/
theorem reports_lost_to_early_stop :
    let bought := "\x7b\x22topic\x22:\x22publicTrade.BTCUSDT\x22,\x22data\x22:[\x7b\x22s\x22:" ++
      "\x22BTCUSDT\x22,\x22p\x22:\x2250000.1\x22,\x22v\x22:\x220.01\x22,\x22S\x22:\x22Buy\x22," ++
      "\x22i\x22:\x22123\x22\x7d]\x7d"
    let stopped := served .bybit .default
    let crowded := served .bybit ⟨.snapshots, 10, 2305843009213693952⟩
    stopped.Fresh ∧ stopped.publishes = true ∧
      (stopped.advanceAll [.prepare, .stop, .start, .arrive 1 (.frame bought)]).2.counters =
        ⟨1, 0, 0, 0⟩ ∧
      crowded.Fresh ∧
      (crowded.advanceAll [.prepare, .start, .arrive 1 (.frame bought)]).2.counters =
        ⟨1, 0, 0, 0⟩ ∧
      Counters.tally (crowded.advanceAll [.prepare, .start, .arrive 1 (.frame bought)]).1 =
        ⟨0, 0, 0, 0⟩ := by
  intro bought stopped crowded
  refine ⟨fresh_served _ _, rfl, ?_, fresh_served _ _, ?_, ?_⟩ <;> decide +kernel

end Feed

end Tape
