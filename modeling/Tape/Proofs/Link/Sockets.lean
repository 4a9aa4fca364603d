import Mathlib.Data.List.Induction
import Tape.Link.Frames

/-!
# Sockets of a link

What a link says of itself is compared with what it holds. Recovering and closing change both
together; a dial that fails takes the word back and not the socket. So a link that was connected and
was dialled again in vain says that it is not connected, and goes on sending and receiving through
the socket it had.
-/

namespace Tape

namespace Link

/-- A call of a link, with how it ends. -/
inductive Step where
  | connect (dial : Dial)
  | send (fault : Option SocketFault)
  | receive (incoming : Incoming)
  | recover (loss : Loss) (dials : Script Dial)
  | close
  deriving DecidableEq

def advance (l : Link) : Step → Link
  | .connect dial => (l.connect dial).2
  | .send _ | .receive _ => l
  | .recover loss dials => (l.recover loss dials).link
  | .close => l.close

def advanceAll (l : Link) (steps : List Step) : Link := steps.foldl advance l

/-- Whether a step leaves it to the link which socket it holds. -/
def Step.leavesSocket : Step → Bool
  | connect dial => dial ≠ .opened
  | send _ | receive _ => true
  | recover .. | close => false

/-- The link was connected when a dial failed, and its socket was left alone ever since. -/
def Strands (l : Link) (steps : List Step) : Prop :=
  ∃ before dial later, steps = before ++ .connect dial :: later ∧ dial ≠ .opened ∧
    (l.advanceAll before).isConnected = true ∧ ∀ step ∈ later, step.leavesSocket = true

variable {l : Link}

theorem advanceAll_append_singleton (l : Link) (steps : List Step) (step : Step) :
    l.advanceAll (steps ++ [step]) = (l.advanceAll steps).advance step := by
  rw [advanceAll, List.foldl_append]
  rfl

/-! ## One step -/

/-- No attempt is under way. -/
def IsAtRest (l : Link) : Prop :=
  l.state = .disconnected ∨ l.state = .connected ∨ l.state = .failed

/-- The link is at rest, and holds a socket exactly when it says that it is connected. -/
structure IsTruthful (l : Link) : Prop where
  rest : l.IsAtRest
  socket : l.hasSocket = l.isConnected

theorem isTruthful_new (venue : Venue) (policy : LinkPolicy) : (new venue policy).IsTruthful :=
  ⟨.inl rfl, rfl⟩

theorem isTruthful_retry (bare : l.hasSocket = false) (dials : Script Dial) (left : Nat) :
    (l.retry dials left).link.IsTruthful := by
  induction left generalizing l dials with
  | zero =>
      refine ⟨.inr (.inr rfl), ?_⟩
      simp only [retry, bare]
      rfl
  | succ left ih =>
      rw [retry]
      cases dial : dials.next.1 with
      | opened =>
          simp only [dial]
          exact ⟨.inr (.inl rfl), rfl⟩
      | refused reason =>
          simp only [dial]
          exact ih (l := { l with state := .reconnecting, attempt := l.attempt + 1 }) bare _
      | timedOut =>
          simp only [dial]
          exact ih (l := { l with state := .reconnecting, attempt := l.attempt + 1 }) bare _

theorem isTruthful_recover (l : Link) (loss : Loss) (dials : Script Dial) :
    (l.recover loss dials).link.IsTruthful := by
  cases loss with
  | shutdown => exact ⟨.inl rfl, rfl⟩
  | network => exact isTruthful_retry rfl _ _
  | remoteClosed => exact isTruthful_retry rfl _ _

/-- A step that decides on the socket leaves a link that tells the truth. -/
theorem isTruthful_advance {step : Step} (decides : step.leavesSocket = false) (l : Link) :
    (l.advance step).IsTruthful := by
  cases step with
  | connect dial =>
      cases dial with
      | opened => exact ⟨.inr (.inl rfl), rfl⟩
      | refused reason => cases decides
      | timedOut => cases decides
  | send fault => cases decides
  | receive incoming => cases decides
  | recover loss dials => exact l.isTruthful_recover loss dials
  | close => exact ⟨.inl rfl, rfl⟩

/-- Any other step keeps the socket, and the word as well, unless it is a dial that fails. -/
theorem advance_of_leavesSocket {step : Step} (leaves : step.leavesSocket = true) (l : Link) :
    (∀ dial, step ≠ .connect dial) ∧ l.advance step = l ∨
      ∃ dial, step = .connect dial ∧ dial ≠ .opened ∧
        l.advance step = { l with state := .disconnected } := by
  cases step with
  | connect dial =>
      refine .inr ⟨dial, rfl, by simpa [Step.leavesSocket] using leaves, ?_⟩
      cases dial with
      | opened => cases leaves
      | refused reason => rfl
      | timedOut => rfl
  | send fault => exact .inl ⟨fun _ => Step.noConfusion, rfl⟩
  | receive incoming => exact .inl ⟨fun _ => Step.noConfusion, rfl⟩
  | recover loss dials => cases leaves
  | close => cases leaves

/-- The last step decides on the socket, or the link was stranded before, or is by this dial. -/
theorem strands_append_singleton (steps : List Step) (step : Step) :
    l.Strands (steps ++ [step]) ↔ step.leavesSocket = true ∧
      (l.Strands steps ∨ (l.advanceAll steps).isConnected = true ∧
        ∃ dial, step = .connect dial ∧ dial ≠ .opened) := by
  constructor
  · rintro ⟨before, dial, later, split, failed, connected, left⟩
    rcases List.eq_nil_or_concat later with rfl | ⟨kept, last, rfl⟩
    · obtain ⟨rfl, same⟩ := List.append_inj' split rfl
      cases same
      exact ⟨by simpa [Step.leavesSocket] using failed, .inr ⟨connected, dial, rfl, failed⟩⟩
    · have whole : steps ++ [step] = (before ++ .connect dial :: kept) ++ [last] := by
        rw [split]
        simp
      obtain ⟨rfl, same⟩ := List.append_inj' whole rfl
      cases same
      refine ⟨left _ (by simp), .inl ⟨before, dial, kept, rfl, failed, connected, ?_⟩⟩
      exact fun step member => left step (by simp [member])
  · rintro ⟨leaves, ⟨before, dial, later, rfl, failed, connected, left⟩ |
      ⟨connected, dial, rfl, failed⟩⟩
    · refine ⟨before, dial, later ++ [step], by simp, failed, connected, ?_⟩
      intro other member
      rcases List.mem_append.1 member with old | new
      · exact left other old
      · exact List.mem_singleton.1 new ▸ leaves
    · exact ⟨steps, dial, [], rfl, failed, connected, by simp⟩

/-! ## Answers -/

/-- Only a link without a socket answers that it is not connected. -/
theorem send_eq_notConnected_iff (l : Link) (fault : Option SocketFault) :
    l.send fault = some l.notConnected ↔ l.hasSocket = false := by
  rw [send]
  cases l.hasSocket with
  | false => simp
  | true => cases fault <;> simp [notConnected]

theorem receive_eq_notConnected_iff (l : Link) (incoming : Incoming) :
    l.receive incoming = .error l.notConnected ↔ l.hasSocket = false := by
  unfold receive
  cases l.hasSocket with
  | false => simp
  | true => cases incoming <;> simp [notConnected]

/-! ## Runs -/

/-- A link that told the truth holds a socket exactly when it says so, or was stranded. -/
theorem IsTruthful.advanceAll (truthful : l.IsTruthful) (steps : List Step) :
    let after := l.advanceAll steps
    after.IsAtRest ∧ (after.hasSocket = true ↔ after.isConnected = true ∨ l.Strands steps) ∧
      ¬(after.isConnected = true ∧ l.Strands steps) := by
  induction steps using List.reverseRecOn with
  | nil =>
      have never : ¬l.Strands [] := by
        rintro ⟨before, dial, later, split, -⟩
        cases before <;> cases split
      refine ⟨truthful.rest, ?_, fun both => never both.2⟩
      rw [or_iff_left never]
      exact Bool.eq_iff_iff.1 truthful.socket
  | append_singleton steps step ih =>
      obtain ⟨rest, socket, apart⟩ := ih
      simp only [advanceAll_append_singleton, strands_append_singleton]
      cases leaves : step.leavesSocket with
      | false =>
          obtain ⟨rest, same⟩ := isTruthful_advance leaves (l.advanceAll steps)
          simpa [same] using rest
      | true =>
          rcases advance_of_leavesSocket leaves (l.advanceAll steps) with
            ⟨noDial, kept⟩ | ⟨dial, rfl, failed, dropped⟩
          · have same : (l.Strands steps ∨ (l.advanceAll steps).isConnected = true ∧
                ∃ dial, step = .connect dial ∧ dial ≠ .opened) ↔ l.Strands steps :=
              or_iff_left fun ⟨_, dial, dialled, _⟩ => noDial dial dialled
            rw [kept, same]
            simpa using And.intro rest (And.intro socket apart)
          · have stranded : (l.Strands steps ∨ (l.advanceAll steps).isConnected = true ∧
                ∃ other, Step.connect dial = .connect other ∧ other ≠ .opened) ↔
                (l.advanceAll steps).hasSocket = true := by
              rw [socket, or_comm]
              exact or_congr (and_iff_left ⟨dial, rfl, failed⟩) Iff.rfl
            have silent : Link.isConnected { l.advanceAll steps with state := .disconnected } =
              false := rfl
            rw [dropped, stranded, silent]
            exact ⟨.inl rfl, by simp, by simp⟩

/-- Whatever is asked of a link, and however that ends, no attempt is left under way. The link holds
a socket exactly when it is connected, unless it was stranded: then it still holds one, and does not
say so. Sending and receiving go by the socket. -/
theorem state_after_steps (venue : Venue) (policy : LinkPolicy) (steps : List Step) :
    let fresh := new venue policy
    let l := fresh.advanceAll steps
    (l.state = .disconnected ∨ l.state = .connected ∨ l.state = .failed) ∧
      (¬fresh.Strands steps → l.hasSocket = l.isConnected) ∧
      (fresh.Strands steps → l.hasSocket = true ∧ l.isConnected = false) ∧
      (∀ fault, l.send fault = some l.notConnected ↔ l.hasSocket = false) ∧
      ∀ incoming, l.receive incoming = .error l.notConnected ↔ l.hasSocket = false := by
  intro fresh l
  obtain ⟨rest, socket, apart⟩ := (isTruthful_new venue policy).advanceAll steps
  refine ⟨rest, fun sound => ?_, fun stranded => ⟨socket.2 (.inr stranded), ?_⟩,
    l.send_eq_notConnected_iff, l.receive_eq_notConnected_iff⟩
  · rw [Bool.eq_iff_iff, socket, or_iff_left sound]
  · rw [← Bool.not_eq_true]
    exact fun connected => apart ⟨connected, stranded⟩

/-- A link that is dialled in vain while it is connected says that it is not, but keeps its socket:
it sends and receives. -/
theorem socket_kept_by_failed_dial :
    let l := (new .bybit .default).advanceAll [.connect .opened, .connect (.refused "busy")]
    l.state = .disconnected ∧ l.isConnected = false ∧ l.hasSocket = true ∧
      l.send none = none ∧ l.receive (.message (.text "")) = .ok (some (.text "")) := by
  decide

end Link

end Tape
