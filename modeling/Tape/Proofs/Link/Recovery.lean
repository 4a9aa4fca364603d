import Tape.Link.Basic

/-!
# Attempts of a recovery

A link that is lost is dialled again: a wait, a dial, and so on, the waits growing with the count of
attempts. The first dial that opens a socket ends that, and so does the last attempt of the policy.
The count stays in the link, so that one that has failed gives up at once when it is asked again.
-/

namespace Tape

namespace Script

/-- What is left of a script after so many values. -/
def drop (s : Script α) (count : Nat) : Script α := { s with listed := s.listed.drop count }

theorem drop_zero (s : Script α) : s.drop 0 = s := rfl

theorem drop_drop (s : Script α) (first second : Nat) :
    (s.drop first).drop second = s.drop (first + second) := by
  simp [drop]

theorem get_drop (s : Script α) (count place : Nat) :
    (s.drop count).get place = s.get (count + place) := by
  simp [drop, get, List.getD_eq_getElem?_getD]

theorem drop_next (s : Script α) (count : Nat) : s.next.2.drop count = s.drop (count + 1) := by
  obtain ⟨listed, after⟩ := s
  cases listed with
  | nil => simp [next, drop]
  | cons first rest => rfl

end Script

namespace Link

/-- A dial opens a socket, and none before it does. -/
structure OpensFirstAt (dials : Script Dial) (place : Nat) : Prop where
  opens : dials.get place = .opened
  first : ∀ earlier < place, dials.get earlier ≠ .opened

/-- So many attempts, the first of which follows on a count: each is a wait and a dial. -/
def attempts (policy : LinkPolicy) (dials : Script Dial) (start count : Nat) : List Move :=
  (List.range count).flatMap fun place =>
    [.wait (policy.wait (start + place + 1)), .dial (dials.get place)]

theorem attempts_succ (policy : LinkPolicy) (dials : Script Dial) (start count : Nat) :
    attempts policy dials start (count + 1) =
      [.wait (policy.wait (start + 1)), .dial dials.next.1] ++
        attempts policy dials.next.2 (start + 1) count := by
  have later : ∀ place, start + (place + 1) + 1 = start + 1 + place + 1 := fun place => by omega
  simp only [attempts, List.range_succ_eq_map, List.flatMap_cons, List.flatMap_map, Script.next_fst,
    Script.get_next_snd, later]

/-! ## One attempt -/

variable {l : Link} {dials : Script Dial} {left : Nat}

/-- A dial that opens a socket ends the recovery, with a count of nothing. -/
theorem retry_of_opened (opened : dials.get 0 = .opened) :
    l.retry dials (left + 1) =
      ⟨none, [.wait (l.policy.wait (l.attempt + 1)), .dial dials.next.1],
        { l with state := .connected, hasSocket := true, attempt := 0 }, dials.next.2⟩ := by
  rw [retry]
  simp only [Script.next_fst, opened]
  rfl

/-- After any other dial the recovery goes on with a higher count. -/
theorem retry_of_not_opened (failed : dials.get 0 ≠ .opened) :
    let more := retry { l with state := .reconnecting, attempt := l.attempt + 1 } dials.next.2 left
    l.retry dials (left + 1) =
      { more with
        moves := [.wait (l.policy.wait (l.attempt + 1)), .dial dials.next.1] ++ more.moves } := by
  intro more
  rw [retry]
  simp only [Script.next_fst]
  cases dial : dials.get 0 with
  | opened => exact absurd dial failed
  | refused reason => rfl
  | timedOut => rfl

/-! ## All attempts -/

/-- Dialling ends with the first dial that opens a socket. -/
theorem retry_of_opensFirstAt {place : Nat} (opens : OpensFirstAt dials place)
    (reached : place < left) :
    l.retry dials left =
      ⟨none, attempts l.policy dials l.attempt (place + 1),
        { l with state := .connected, hasSocket := true, attempt := 0 }, dials.drop (place + 1)⟩ := by
  induction place generalizing l dials left with
  | zero =>
      obtain ⟨left, rfl⟩ := Nat.exists_eq_add_of_lt reached
      rw [Nat.zero_add, retry_of_opened opens.opens, attempts_succ, ← Script.drop_next]
      rfl
  | succ place ih =>
      obtain ⟨left, rfl⟩ : ∃ more, left = more + 1 := ⟨left - 1, by omega⟩
      have later : OpensFirstAt dials.next.2 place := by
        refine ⟨by rw [Script.get_next_snd]; exact opens.opens, fun earlier before => ?_⟩
        rw [Script.get_next_snd]
        exact opens.first (earlier + 1) (by omega)
      rw [retry_of_not_opened (opens.first 0 (by omega)), ih later (by omega),
        attempts_succ l.policy dials, Script.drop_next]

/-- Dialling ends after all attempts when none of them opens a socket. -/
theorem retry_of_none_opened (failed : ∀ place < left, dials.get place ≠ .opened) :
    l.retry dials left =
      ⟨some l.exhausted, attempts l.policy dials l.attempt left,
        { l with state := .failed, attempt := l.attempt + left + 1 }, dials.drop left⟩ := by
  induction left generalizing l dials with
  | zero => rfl
  | succ left ih =>
      have later : ∀ place < left, dials.next.2.get place ≠ .opened := by
        intro place before
        rw [Script.get_next_snd]
        exact failed (place + 1) (by omega)
      have count : l.attempt + 1 + left + 1 = l.attempt + (left + 1) + 1 := by omega
      rw [retry_of_not_opened (failed 0 (by omega)), ih later, attempts_succ, Script.drop_next]
      simp only [count]
      rfl

/-- Nothing is dialled for a link whose attempts are used up. -/
theorem recover_of_used_up (used : l.policy.attempts ≤ l.attempt) {loss : Loss}
    (wanted : loss ≠ .shutdown) (dials : Script Dial) :
    l.recover loss dials =
      ⟨some l.exhausted, [],
        { l with state := .failed, hasSocket := false, attempt := l.attempt + 1 }, dials⟩ := by
  have none : l.policy.attempts - l.attempt = 0 := Nat.sub_eq_zero_of_le used
  cases loss with
  | shutdown => exact absurd rfl wanted
  | network =>
      simp only [recover, attemptsLeft, none]
      rfl
  | remoteClosed =>
      simp only [recover, attemptsLeft, none]
      rfl

theorem recover_of_unused (unused : l.attempt = 0) {loss : Loss} (wanted : loss ≠ .shutdown)
    (dials : Script Dial) :
    l.recover loss dials =
      retry { l with state := .reconnecting, hasSocket := false } dials l.policy.attempts := by
  cases loss with
  | shutdown => exact absurd rfl wanted
  | network => simp only [recover, attemptsLeft, unused, Nat.sub_zero]
  | remoteClosed => simp only [recover, attemptsLeft, unused, Nat.sub_zero]

/-! ## Counts -/

theorem attempt_retry_le (l : Link) (dials : Script Dial) (left : Nat) :
    (l.retry dials left).link.attempt ≤ l.attempt + left + 1 := by
  induction left generalizing l dials with
  | zero => exact Nat.le_refl _
  | succ left ih =>
      by_cases opened : dials.get 0 = .opened
      · rw [retry_of_opened opened]
        exact Nat.zero_le _
      · have later :=
          ih { l with state := .reconnecting, attempt := l.attempt + 1 } dials.next.2
        rw [retry_of_not_opened opened]
        simp only at later ⊢
        omega

/-- A call counts one more than the attempts of the policy at most, or one more than before. -/
theorem attempt_recover_le (l : Link) (loss : Loss) (dials : Script Dial) :
    (l.recover loss dials).link.attempt ≤ max l.policy.attempts l.attempt + 1 := by
  have tries := attempt_retry_le { l with state := .reconnecting, hasSocket := false } dials
    (l.policy.attempts - l.attempt)
  have bound : l.attempt + (l.policy.attempts - l.attempt) + 1 ≤
      max l.policy.attempts l.attempt + 1 := by omega
  cases loss with
  | shutdown =>
      change l.attempt ≤ _
      omega
  | network => exact Nat.le_trans tries bound
  | remoteClosed => exact Nat.le_trans tries bound

theorem policy_retry (l : Link) (dials : Script Dial) (left : Nat) :
    (l.retry dials left).link.policy = l.policy := by
  induction left generalizing l dials with
  | zero => rfl
  | succ left ih =>
      by_cases opened : dials.get 0 = .opened
      · rw [retry_of_opened opened]
      · rw [retry_of_not_opened opened]
        exact ih _ _

theorem policy_recover (l : Link) (loss : Loss) (dials : Script Dial) :
    (l.recover loss dials).link.policy = l.policy := by
  cases loss with
  | shutdown => rfl
  | network => exact policy_retry _ _ _
  | remoteClosed => exact policy_retry _ _ _

/-! ## Recovering -/

/-- What recovering comes to. A link of which no attempt was counted waits and dials until a socket
is opened, and is connected then, or until the attempts of its policy are used up, and has failed
then; there it fails again at once. A link that is given up on purpose is not dialled. A policy that
leaves room for two more attempts in 32 bits keeps the count in them, also in the next call. -/
theorem recover_dials_in_turn (l : Link) (unused : l.attempt = 0)
    (bounded : l.policy.attempts + 2 < Word.bound32) :
    (∀ loss dials, loss ≠ .shutdown →
      (∀ place, OpensFirstAt dials place → place < l.policy.attempts →
        l.recover loss dials =
          ⟨none, attempts l.policy dials 0 (place + 1),
            { l with state := .connected, hasSocket := true, attempt := 0 },
            dials.drop (place + 1)⟩) ∧
      ((∀ place < l.policy.attempts, dials.get place ≠ .opened) →
        let failed := { l with
          state := .failed, hasSocket := false, attempt := l.policy.attempts + 1 }
        l.recover loss dials =
          ⟨some (.attemptsExhausted l.venue l.policy.attempts),
            attempts l.policy dials 0 l.policy.attempts, failed, dials.drop l.policy.attempts⟩ ∧
        ∀ again more, again ≠ .shutdown →
          failed.recover again more =
            ⟨some (.attemptsExhausted l.venue l.policy.attempts), [],
              { failed with attempt := l.policy.attempts + 2 }, more⟩)) ∧
    (∀ (any : Link) (dials : Script Dial),
      any.recover .shutdown dials =
        ⟨none, [], { any with state := .disconnected, hasSocket := false }, dials⟩) ∧
    ∀ loss dials again more,
      let after := (l.recover loss dials).link
      after.attempt < Word.bound32 ∧ (after.recover again more).link.attempt < Word.bound32 := by
  refine ⟨fun loss dials wanted => ⟨?_, ?_⟩, fun any dials => rfl, ?_⟩
  · intro place opens reached
    rw [recover_of_unused unused wanted, retry_of_opensFirstAt opens reached, unused]
  · intro none failed
    constructor
    · rw [recover_of_unused unused wanted, retry_of_none_opened none]
      simp only [unused, Nat.zero_add]
      rfl
    · intro again more wantedAgain
      rw [recover_of_used_up (Nat.le_succ _) wantedAgain]
      rfl
  · intro loss dials again more after
    have first : after.attempt ≤ _ := l.attempt_recover_le loss dials
    have second := after.attempt_recover_le again more
    have same : after.policy = l.policy := l.policy_recover loss dials
    rw [same] at second
    omega

/-- Two dials fail in different ways and the third opens a socket; or no dial ever does, and the link
does not dial once more when it is asked to. -/
theorem recover_dials_in_turn_with_three_attempts :
    let l := new .bybit (.ofFeed "wss://feed" 3 100)
    let dials : Script Dial := ⟨[.refused "busy", .timedOut, .opened], .timedOut⟩
    let never : Script Dial := .always .timedOut
    let failed := { l with state := .failed, attempt := 4 }
    l.attempt = 0 ∧ l.policy.attempts + 2 < Word.bound32 ∧ OpensFirstAt dials 2 ∧
      l.recover .network dials =
        ⟨none, [.wait 100, .dial (.refused "busy"), .wait 200, .dial .timedOut, .wait 400,
          .dial .opened], { l with state := .connected, hasSocket := true }, ⟨[], .timedOut⟩⟩ ∧
      l.recover .remoteClosed never =
        ⟨some (.attemptsExhausted .bybit 3), [.wait 100, .dial .timedOut, .wait 200,
          .dial .timedOut, .wait 400, .dial .timedOut], failed, never⟩ ∧
      failed.recover .network dials =
        ⟨some (.attemptsExhausted .bybit 3), [], { failed with attempt := 5 }, dials⟩ := by
  intro l dials never failed
  have opens : OpensFirstAt dials 2 := ⟨rfl, by decide⟩
  have calls := (recover_dials_in_turn l rfl (by decide)).1
  obtain ⟨gaveUp, stays⟩ := (calls .remoteClosed never (by decide)).2 (by decide)
  exact ⟨rfl, by decide, opens, (calls .network dials (by decide)).1 2 opens (by decide), gaveUp,
    stays .network dials (by decide)⟩

end Link

end Tape
