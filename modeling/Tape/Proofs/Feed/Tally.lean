import Tape.Proofs.Feed.Reaction

/-!
# Counters and effects

The four counters of a feed count what it does: what its listener is told of trades, books and
errors, and what it publishes. A reaction counts exactly its own effects, as long as somebody
listens and windows can be had.
-/

namespace Tape

namespace Effect

/-- The listener is told of a trade. -/
def isTrade : Effect → Bool
  | trade _ => true
  | _ => false

def isBook : Effect → Bool
  | book _ => true
  | _ => false

def isError : Effect → Bool
  | error _ => true
  | _ => false

/-- Something is handed to the bus. -/
def isReport : Effect → Bool
  | publishTrade _ | publishBook _ => true
  | _ => false

end Effect

namespace Counters

/-- How many effects of each counted kind there are. -/
def tally (effects : List Effect) : Counters :=
  ⟨effects.countP Effect.isTrade, effects.countP Effect.isBook, effects.countP Effect.isReport,
    effects.countP Effect.isError⟩

theorem add_def (a b : Counters) :
    a + b = ⟨a.trades + b.trades, a.books + b.books, a.published + b.published,
      a.errors + b.errors⟩ := rfl

theorem tally_append (first second : List Effect) :
    tally (first ++ second) = tally first + tally second := by
  simp only [tally, add_def, List.countP_append]

theorem zero_add (a : Counters) : zero + a = a := by
  simp only [add_def, zero, Nat.zero_add]

theorem add_zero (a : Counters) : a + zero = a := rfl

theorem add_assoc (a b c : Counters) : a + b + c = a + (b + c) := by
  simp only [add_def, Nat.add_assoc]

instance : LE Counters where
  le a b :=
    a.trades ≤ b.trades ∧ a.books ≤ b.books ∧ a.published ≤ b.published ∧ a.errors ≤ b.errors

theorem le_add (a b : Counters) : a ≤ a + b :=
  ⟨Nat.le_add_right _ _, Nat.le_add_right _ _, Nat.le_add_right _ _, Nat.le_add_right _ _⟩

theorem le_refl (a : Counters) : a ≤ a :=
  ⟨Nat.le_refl _, Nat.le_refl _, Nat.le_refl _, Nat.le_refl _⟩

theorem le_trans {a b c : Counters} (first : a ≤ b) (second : b ≤ c) : a ≤ c :=
  ⟨Nat.le_trans first.1 second.1, Nat.le_trans first.2.1 second.2.1,
    Nat.le_trans first.2.2.1 second.2.2.1, Nat.le_trans first.2.2.2 second.2.2.2⟩

theorem tally_of_calls {calls : List Effect} (made : ∀ call ∈ calls, call.isCall = true) :
    tally calls = zero := by
  have others : ∀ kind : Effect → Bool, (∀ effect, effect.isCall = true → kind effect = false) →
      calls.countP kind = 0 := by
    intro kind apart
    rw [List.countP_eq_zero]
    intro call member
    rw [apart call (made call member)]
    exact Bool.false_ne_true
  have same : ∀ effect : Effect, effect.isCall = true → effect.isTrade = false ∧
      effect.isBook = false ∧ effect.isReport = false ∧ effect.isError = false := by
    intro effect call
    cases effect <;> first | exact ⟨rfl, rfl, rfl, rfl⟩ | cases call
  rw [tally, others _ fun e call => (same e call).1, others _ fun e call => (same e call).2.1,
    others _ fun e call => (same e call).2.2.1, others _ fun e call => (same e call).2.2.2]
  rfl

end Counters

namespace Session

variable {s : Session}

theorem told_of_listens (listens : s.profile.listens = true) (effect : Effect) :
    s.told effect = [effect] :=
  if_pos listens

theorem counts_onTrade (listens : s.profile.listens = true) (room : s.profile.options.HasRoom)
    (t : Trade) : (s.onTrade t).counts = Counters.tally (s.onTrade t).effects := by
  obtain ⟨window, held⟩ := window?_of_hasRoom room s.tradeWindows t.symbol
  rw [onTrade_of_window held, told_of_listens listens, tradeReport?]
  cases s.profile.publishes <;> rfl

theorem counts_onBook (listens : s.profile.listens = true) (room : s.profile.options.HasRoom)
    (now : Nat) (book : Snapshot) :
    (s.onBook now book).counts = Counters.tally (s.onBook now book).effects := by
  obtain ⟨window, held⟩ := window?_of_hasRoom room s.bookWindows book.symbol
  rw [onBook_of_window held, told_of_listens listens, bookReport?]
  cases s.update? now book <;> rfl

theorem counts_onEvent (listens : s.profile.listens = true) (room : s.profile.options.HasRoom)
    (now : Instant) (event : Event) :
    (s.onEvent now event).counts = Counters.tally (s.onEvent now event).effects := by
  cases event with
  | trade t => exact counts_onTrade listens room t
  | book book => exact counts_onBook listens room _ book
  | heartbeat => rfl
  | unknown => rfl
  | rejected error =>
      rw [onEvent, told_of_listens listens]
      rfl

/-- A reaction counts its own effects. -/
theorem Reacts.counts {now : Instant} {signal : Signal} {turn : Turn}
    (reacts : Reacts s now signal turn) (listens : s.profile.listens = true)
    (room : s.profile.options.HasRoom) : turn.counts = Counters.tally turn.effects := by
  cases reacts with
  | frame text waits =>
      rw [onFrame_eq]
      exact counts_onEvent (s := s.takeIn now text) listens room now _
  | finished waits =>
      rw [onFailure, told_of_listens listens]
      rfl
  | failed error waits =>
      rw [onFailure, told_of_listens listens]
      rfl
  | reconnected reply waits =>
      cases reply with
      | none => rfl
      | some error =>
          rw [onReconnected, told_of_listens listens]
          rfl
  | sent reply waits =>
      cases reply with
      | none => rfl
      | some error =>
          rw [onSent, told_of_listens listens]
          rfl
  | closed reply waits => rfl
  | stopped open' => rfl
  | idle signal other => rfl

end Session

end Tape
