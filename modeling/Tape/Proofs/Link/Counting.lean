import Tape.Link.Counter
import Tape.Proofs.Link.Recovery
import Tape.Proofs.Link.Sockets

/-!
# Counting attempts in 32 bits

The count of attempts is raised before it is compared with the policy. Kept in 32 bits it can be
raised for every attempt that the policy allows, and once more to go beyond them; a policy that
allows all the attempts that can be counted leaves no room for that. Every recovery that fails takes
one more, until a socket is opened.
-/

namespace Tape

namespace Link

/-! ## Steps with a count of 32 bits -/

/-- The one step that counts is recovering. -/
def advance32? (l : Link) : Step → Option Link
  | .recover loss dials => (l.recover32? loss dials).map Recovery.link
  | step => some (l.advance step)

def advanceAll32? (l : Link) (steps : List Step) : Option Link := steps.foldlM advance32? l

/-- The recovery, when the count that it comes to has 32 bits. -/
def Recovery.in32? (r : Recovery) : Option Recovery :=
  if r.link.attempt < Word.bound32 then some r else none

theorem Recovery.in32?_moves (r : Recovery) (moves : List Move) :
    in32? { r with moves := moves ++ r.moves } =
      r.in32?.map fun r => { r with moves := moves ++ r.moves } := by
  unfold in32?
  split <;> rfl

variable {l : Link} {dials : Script Dial}

/-! ## One round -/

theorem rounds32?_of_used_up (used : l.policy.attempts ≤ l.attempt) :
    l.rounds32? dials =
      Recovery.in32?
        ⟨some l.exhausted, [], { l with attempt := l.attempt + 1, state := .failed }, dials⟩ := by
  rw [rounds32?, if_pos (Nat.lt_succ_of_le used)]
  rfl

section Allowed

variable (allowed : l.attempt < l.policy.attempts) (counts : l.policy.attempts < Word.bound32)
include allowed counts

theorem rounds32?_of_opened (opened : dials.get 0 = .opened) :
    l.rounds32? dials =
      some ⟨none, [.wait (l.policy.wait (l.attempt + 1)), .dial dials.next.1],
        { l with state := .connected, hasSocket := true, attempt := 0 }, dials.next.2⟩ := by
  rw [rounds32?, if_pos (Nat.lt_of_le_of_lt allowed counts), if_neg (Nat.not_lt.2 allowed)]
  simp only [Script.next_fst, opened]
  rfl

theorem rounds32?_of_not_opened (failed : dials.get 0 ≠ .opened) :
    l.rounds32? dials =
      (rounds32? { l with state := .reconnecting, attempt := l.attempt + 1 } dials.next.2).map
        fun more => { more with
          moves := [.wait (l.policy.wait (l.attempt + 1)), .dial dials.next.1] ++ more.moves } := by
  rw [rounds32?, if_pos (Nat.lt_of_le_of_lt allowed counts), if_neg (Nat.not_lt.2 allowed)]
  simp only [Script.next_fst]
  cases dial : dials.get 0 with
  | opened => exact absurd dial failed
  | refused reason => rfl
  | timedOut => rfl

end Allowed

/-! ## All rounds -/

/-- The rounds are the attempts that are left, when the count that these come to has 32 bits. -/
theorem rounds32?_eq (counts : l.policy.attempts < Word.bound32) :
    l.rounds32? dials = (l.retry dials l.attemptsLeft).in32? := by
  -- Each round takes one of the attempts that are left; with none left the count goes above them.
  induction remaining : l.policy.attempts - l.attempt generalizing l dials with
  | zero =>
    rw [attemptsLeft, remaining, rounds32?_of_used_up (Nat.sub_eq_zero_iff_le.1 remaining)]
    rfl
  | succ left ih =>
    have allowed : l.attempt < l.policy.attempts := by omega
    rw [attemptsLeft, remaining]
    by_cases opened : dials.get 0 = .opened
    · rw [rounds32?_of_opened allowed counts opened, retry_of_opened opened]
      rfl
    · have fewer : l.policy.attempts - (l.attempt + 1) = left := by omega
      have later := @ih { l with state := .reconnecting, attempt := l.attempt + 1 } dials.next.2
        counts fewer
      rw [rounds32?_of_not_opened allowed counts opened, later, retry_of_not_opened opened,
        Recovery.in32?_moves, attemptsLeft, fewer]

/-- Recovering with a count of 32 bits is recovering, when the count that this comes to has them. -/
theorem recover32?_eq (counts : l.policy.attempts < Word.bound32) (fits : l.attempt < Word.bound32)
    (loss : Loss) : l.recover32? loss dials = (l.recover loss dials).in32? := by
  cases loss with
  | shutdown => exact (if_pos fits).symm
  | network => exact rounds32?_eq (l := l.bare) counts
  | remoteClosed => exact rounds32?_eq (l := l.bare) counts

theorem attempt_connect_le (l : Link) (dial : Dial) : (l.connect dial).2.attempt ≤ l.attempt := by
  cases dial with
  | opened => exact Nat.zero_le _
  | refused reason => exact Nat.le_refl _
  | timedOut => exact Nat.le_refl _

/-- A step with a count of 32 bits is the step, when the count after it has them. -/
theorem advance32?_eq (counts : l.policy.attempts < Word.bound32) (fits : l.attempt < Word.bound32)
    (step : Step) :
    l.advance32? step =
      if (l.advance step).attempt < Word.bound32 then some (l.advance step) else none := by
  cases step with
  | recover loss dials =>
    rw [advance32?, recover32?_eq counts fits, Recovery.in32?, advance]
    split <;> rfl
  | connect dial => exact (if_pos (Nat.lt_of_le_of_lt (l.attempt_connect_le dial) fits)).symm
  | send fault => exact (if_pos fits).symm
  | receive incoming => exact (if_pos fits).symm
  | close => exact (if_pos fits).symm

theorem venue_retry (l : Link) (dials : Script Dial) (left : Nat) :
    (l.retry dials left).link.venue = l.venue := by
  induction left generalizing l dials with
  | zero => rfl
  | succ left ih =>
    by_cases opened : dials.get 0 = .opened
    · rw [retry_of_opened opened]
    · rw [retry_of_not_opened opened]
      exact ih _ _

theorem venue_recover (l : Link) (loss : Loss) (dials : Script Dial) :
    (l.recover loss dials).link.venue = l.venue := by
  cases loss with
  | shutdown => rfl
  | network => exact venue_retry _ _ _
  | remoteClosed => exact venue_retry _ _ _

theorem policy_advance (l : Link) (step : Step) : (l.advance step).policy = l.policy := by
  cases step with
  | connect dial => cases dial <;> rfl
  | recover loss dials => exact l.policy_recover loss dials
  | send fault => rfl
  | receive incoming => rfl
  | close => rfl

theorem policy_advanceAll (l : Link) (steps : List Step) :
    (l.advanceAll steps).policy = l.policy := by
  induction steps generalizing l with
  | nil => rfl
  | cons step steps ih => exact (ih (l.advance step)).trans (l.policy_advance step)

theorem venue_advance (l : Link) (step : Step) : (l.advance step).venue = l.venue := by
  cases step with
  | connect dial => cases dial <;> rfl
  | recover loss dials => exact l.venue_recover loss dials
  | send fault => rfl
  | receive incoming => rfl
  | close => rfl

theorem venue_advanceAll (l : Link) (steps : List Step) : (l.advanceAll steps).venue = l.venue := by
  induction steps generalizing l with
  | nil => rfl
  | cons step steps ih => exact (ih (l.advance step)).trans (l.venue_advance step)

/-- All counts on the way have 32 bits. -/
def CountsIn32 (l : Link) (steps : List Step) : Prop :=
  ∀ before, before <+: steps → (l.advanceAll before).attempt < Word.bound32

theorem countsIn32_append_singleton (steps : List Step) (step : Step) :
    l.CountsIn32 (steps ++ [step]) ↔
      l.CountsIn32 steps ∧ (l.advanceAll (steps ++ [step])).attempt < Word.bound32 := by
  simp only [CountsIn32, List.prefix_concat_iff, or_imp, forall_and, forall_eq]
  exact and_comm

theorem advanceAll32?_append_singleton (l : Link) (steps : List Step) (step : Step) :
    l.advanceAll32? (steps ++ [step]) =
      (l.advanceAll32? steps).bind fun before => before.advance32? step := by
  rw [advanceAll32?, List.foldlM_append]
  simp only [List.foldlM_cons, List.foldlM_nil, bind_pure]
  rfl

/-- Steps with a count of 32 bits are the steps, when all counts on the way have them. -/
theorem advanceAll32?_eq_some_iff (counts : l.policy.attempts < Word.bound32)
    (fits : l.attempt < Word.bound32) (steps : List Step) (after : Link) :
    l.advanceAll32? steps = some after ↔ l.CountsIn32 steps ∧ l.advanceAll steps = after := by
  induction steps using List.reverseRecOn generalizing after with
  | nil =>
    have start : l.CountsIn32 [] := by
      intro before first
      rw [List.prefix_nil.1 first]
      exact fits
    rw [and_iff_right start]
    exact Option.some_inj
  | append_singleton steps step ih =>
    have last (way : l.CountsIn32 steps) : (l.advanceAll steps).advance32? step =
        if ((l.advanceAll steps).advance step).attempt < Word.bound32 then
          some ((l.advanceAll steps).advance step) else none :=
      advance32?_eq (by rwa [policy_advanceAll]) (way steps List.prefix_rfl) step
    rw [advanceAll32?_append_singleton, Option.bind_eq_some_iff, countsIn32_append_singleton,
      advanceAll_append_singleton]
    constructor
    · rintro ⟨before, reached, next⟩
      obtain ⟨way, rfl⟩ := (ih before).1 reached
      rw [last way] at next
      obtain ⟨small, same⟩ := Option.ite_none_right_eq_some.1 next
      exact ⟨⟨way, small⟩, Option.some_inj.1 same⟩
    · rintro ⟨⟨way, small⟩, rfl⟩
      refine ⟨l.advanceAll steps, (ih _).2 ⟨way, rfl⟩, ?_⟩
      rw [last way, if_pos small]

/-! ## Failures in a row -/

/-- How many recoveries have failed since a socket was opened, after one more step. -/
def failuresAfter (l : Link) (failures : Nat) : Step → Nat
  | .connect dial => if dial = .opened then 0 else failures
  | .recover .shutdown _ => failures
  | .recover loss dials => if (l.recover loss dials).failure = none then 0 else failures + 1
  | .send _ | .receive _ | .close => failures

/-- The link after the steps, and how many recoveries have failed since a socket was last opened. -/
def tally (l : Link) (steps : List Step) : Link × Nat :=
  steps.foldl (fun (l, failures) step => (l.advance step, l.failuresAfter failures step)) (l, 0)

def failures (l : Link) (steps : List Step) : Nat := (l.tally steps).2

theorem tally_append_singleton (l : Link) (steps : List Step) (step : Step) :
    l.tally (steps ++ [step]) =
      ((l.tally steps).1.advance step,
        (l.tally steps).1.failuresAfter (l.failures steps) step) := by
  rw [tally, List.foldl_append]
  rfl

theorem tally_fst (l : Link) (steps : List Step) : (l.tally steps).1 = l.advanceAll steps := by
  induction steps using List.reverseRecOn with
  | nil => rfl
  | append_singleton steps step ih =>
    rw [tally_append_singleton, ih, advanceAll_append_singleton]

theorem failures_append_singleton (l : Link) (steps : List Step) (step : Step) :
    l.failures (steps ++ [step]) = (l.advanceAll steps).failuresAfter (l.failures steps) step := by
  rw [failures, tally_append_singleton, tally_fst]

/-- Some dial is the first to open a socket, or none does. -/
theorem opensFirstAt_or_none (dials : Script Dial) (left : Nat) :
    (∃ place < left, OpensFirstAt dials place) ∨ ∀ place < left, dials.get place ≠ .opened := by
  induction left with
  | zero => exact .inr fun place reached => absurd reached (Nat.not_lt_zero place)
  | succ left ih =>
    rcases ih with ⟨place, reached, opens⟩ | failed
    · exact .inl ⟨place, Nat.lt_succ_of_lt reached, opens⟩
    · by_cases opened : dials.get left = .opened
      · exact .inl ⟨left, Nat.lt_succ_self left, opened, failed⟩
      · refine .inr fun place reached => ?_
        rcases Nat.lt_succ_iff_lt_or_eq.1 reached with earlier | rfl
        · exact failed place earlier
        · exact opened

section Wanted

variable {loss : Loss} (wanted : loss ≠ .shutdown)
include wanted

theorem recover_eq_retry (l : Link) (dials : Script Dial) :
    l.recover loss dials = l.bare.retry dials l.attemptsLeft := by
  cases loss with
  | shutdown => exact absurd rfl wanted
  | network => rfl
  | remoteClosed => rfl

/-- A recovery of which no dial opens a socket makes all attempts that are left, and then fails. -/
theorem recover_of_none_opened (failed : ∀ place < l.attemptsLeft, dials.get place ≠ .opened) :
    l.recover loss dials =
      ⟨some l.exhausted, attempts l.policy dials l.attempt l.attemptsLeft,
        ⟨l.venue, l.policy, .failed, false, max l.policy.attempts l.attempt + 1⟩,
        dials.drop l.attemptsLeft⟩ := by
  have count : l.attempt + l.attemptsLeft = max l.policy.attempts l.attempt := by
    rw [attemptsLeft]
    omega
  rw [recover_eq_retry wanted, retry_of_none_opened failed, ← count]
  rfl

/-- A recovery opens a socket and counts from nothing, or fails above the attempts of its policy. -/
theorem recover_opens_or_fails (l : Link) (dials : Script Dial) :
    ((l.recover loss dials).failure = none ∧ (l.recover loss dials).link.attempt = 0) ∨
      ((l.recover loss dials).failure ≠ none ∧
        (l.recover loss dials).link.attempt = max l.policy.attempts l.attempt + 1) := by
  rcases opensFirstAt_or_none dials l.attemptsLeft with ⟨place, reached, opens⟩ | failed
  · rw [recover_eq_retry wanted, retry_of_opensFirstAt opens reached]
    exact .inl ⟨rfl, rfl⟩
  · rw [recover_of_none_opened wanted failed]
    exact .inr ⟨Option.some_ne_none _, rfl⟩

theorem failuresAfter_recover (l : Link) (failures : Nat) (dials : Script Dial) :
    l.failuresAfter failures (.recover loss dials) =
      if (l.recover loss dials).failure = none then 0 else failures + 1 := by
  cases loss with
  | shutdown => exact absurd rfl wanted
  | network => rfl
  | remoteClosed => rfl

end Wanted

/-- The count goes by the failures in a row: the first one brings it above the attempts of the
policy, and each further one raises it. -/
def IsTallied (l : Link) (failures : Nat) : Prop :=
  l.attempt = if failures = 0 then 0 else l.policy.attempts + failures

theorem IsTallied.advance {failures : Nat} (tallied : l.IsTallied failures) (step : Step) :
    (l.advance step).IsTallied (l.failuresAfter failures step) := by
  cases step with
  | connect dial =>
    cases dial with
    | opened => rfl
    | refused reason => exact tallied
    | timedOut => exact tallied
  | send fault => exact tallied
  | receive incoming => exact tallied
  | close => exact tallied
  | recover loss dials =>
    by_cases wanted : loss = .shutdown
    · subst wanted
      exact tallied
    · rw [IsTallied, failuresAfter_recover wanted, policy_advance]
      rcases recover_opens_or_fails wanted l dials with ⟨opened, count⟩ | ⟨failed, count⟩
      · rw [if_pos opened, Link.advance, count]
        rfl
      · -- `max` is the attempts of the policy at the first failure, and the count at later ones.
        rw [if_neg failed, if_neg (Nat.succ_ne_zero failures), Link.advance, count]
        rw [IsTallied] at tallied
        split at tallied <;> omega

theorem IsTallied.advanceAll (unused : l.attempt = 0) (steps : List Step) :
    (l.advanceAll steps).IsTallied (l.failures steps) := by
  induction steps using List.reverseRecOn with
  | nil => exact unused
  | append_singleton steps step ih =>
    rw [advanceAll_append_singleton, failures_append_singleton]
    exact ih.advance step

/-! ## Counts of an unused link -/

section Fresh

variable (unused : l.attempt = 0) (steps : List Step)
include unused

theorem attempt_advanceAll :
    (l.advanceAll steps).attempt =
      if l.failures steps = 0 then 0 else l.policy.attempts + l.failures steps := by
  have tallied := IsTallied.advanceAll unused steps
  rwa [IsTallied, policy_advanceAll] at tallied

/-- The first recovery that fails makes all attempts, and the later ones none. -/
theorem attemptsLeft_advanceAll :
    (l.advanceAll steps).attemptsLeft = if l.failures steps = 0 then l.policy.attempts else 0 := by
  rw [attemptsLeft, policy_advanceAll, attempt_advanceAll unused]
  split
  next => exact Nat.sub_zero _
  next => exact Nat.sub_eq_zero_of_le (Nat.le_add_right _ _)

theorem max_attempt_advanceAll :
    max l.policy.attempts (l.advanceAll steps).attempt = l.policy.attempts + l.failures steps := by
  rw [attempt_advanceAll unused]
  split <;> omega

theorem countsIn32_iff (counts : l.policy.attempts < Word.bound32) :
    l.CountsIn32 steps ↔ ∀ before, before <+: steps → l.failures before ≠ 0 →
      l.policy.attempts + l.failures before < Word.bound32 := by
  refine forall_congr' fun before => imp_congr_right fun _ => ?_
  rw [attempt_advanceAll unused]
  split
  next never => exact iff_of_true (Nat.zero_lt_of_lt counts) fun failed => absurd never failed
  next failed => exact ⟨fun small _ => small, fun small => small failed⟩

end Fresh

/-- With any policy that can be configured, the count keeps to 32 bits as long as the attempts of
the policy and the failures in a row do together. Up to there a recovery of which no dial opens a
socket makes the attempts that are left and is reported as failed; the next one has no result. -/
theorem count_fits_while_failures_fit (venue : Venue) (policy : LinkPolicy) (allowed : UInt32)
    (steps : List Step) :
    let policy := { policy with attempts := allowed.toNat }
    let fresh := new venue policy
    let count := allowed.toNat + fresh.failures steps
    let left := if fresh.failures steps = 0 then allowed.toNat else 0
    (∀ after, fresh.advanceAll32? steps = some after ↔
      (∀ before, before <+: steps → fresh.failures before ≠ 0 →
        allowed.toNat + fresh.failures before < Word.bound32) ∧ fresh.advanceAll steps = after) ∧
    ∀ after, fresh.advanceAll32? steps = some after → ∀ loss dials, loss ≠ .shutdown →
      (∀ place < left, dials.get place ≠ .opened) →
      after.recover32? loss dials =
        if count + 1 < Word.bound32 then
          some ⟨some (.attemptsExhausted venue allowed.toNat),
            attempts policy dials after.attempt left,
            ⟨venue, policy, .failed, false, count + 1⟩, dials.drop left⟩
        else none := by
  intro policy fresh count left
  have counts : fresh.policy.attempts < Word.bound32 := allowed.toNat_lt
  have unused : fresh.attempt = 0 := rfl
  have reached := fresh.advanceAll32?_eq_some_iff counts (Nat.zero_lt_of_lt counts) steps
  constructor
  · intro after
    rw [reached, countsIn32_iff unused steps counts]
    rfl
  · intro after advanced loss dials wanted failed
    obtain ⟨way, rfl⟩ := (reached after).1 advanced
    have samePolicy : (fresh.advanceAll steps).policy = policy := fresh.policy_advanceAll steps
    have sameVenue : (fresh.advanceAll steps).venue = venue := fresh.venue_advanceAll steps
    have remaining : (fresh.advanceAll steps).attemptsLeft = left :=
      attemptsLeft_advanceAll unused steps
    have next : max policy.attempts (fresh.advanceAll steps).attempt = count :=
      max_attempt_advanceAll unused steps
    rw [recover32?_eq (by rwa [samePolicy]) (way steps List.prefix_rfl),
      recover_of_none_opened wanted (by rwa [remaining]), Recovery.in32?, remaining, exhausted,
      samePolicy, sameVenue, next]

/-- The largest policy allows as many attempts as can be counted: when they have all failed there is
no next count to compare. -/
theorem count_of_largest_policy_overflows :
    let l := new .bybit { LinkPolicy.default with attempts := 4294967295 }
    l.policy.attempts < Word.bound32 ∧
      (l.recover .network (.always .timedOut)).link.attempt = Word.bound32 ∧
      l.recover32? .network (.always .timedOut) = none := by
  intro l
  have failed : ∀ place < l.attemptsLeft, (Script.always Dial.timedOut).get place ≠ .opened := by
    intro place _
    simp [Script.get, Script.always]
  have wanted : Loss.network ≠ .shutdown := by decide
  have counts : l.policy.attempts < Word.bound32 := by decide
  have count : (l.recover .network (.always .timedOut)).link.attempt = Word.bound32 := by
    rw [recover_of_none_opened wanted failed]
    rfl
  refine ⟨counts, count, ?_⟩
  rw [recover32?_eq counts (by decide), Recovery.in32?, if_neg (by rw [count]; decide)]

end Link

end Tape
