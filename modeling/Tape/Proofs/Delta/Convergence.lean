import Tape.Proofs.Delta.Changes

/-!
# Convergence of replicas

A consumer keeps one replica for each symbol and follows what an encoder publishes. After any calls
of the encoder, over any symbols, depths and times and with any clears between them, each replica
holds exactly the levels that the last call for its symbol asked to be published.
-/

namespace Tape

/-- A call of an encoder. -/
inductive EncoderCall where
  | next (book : Snapshot) (depth now : Nat)
  | clear

namespace EncoderCall

def Canonical : EncoderCall → Prop
  | next book _ _ => book.Canonical
  | clear => True

/-- The sides that a call asks to be published for a symbol. -/
def sides? (symbol : String) : EncoderCall → Option Replica
  | next book depth _ => if book.symbol = symbol then some (.ofBook book depth) else none
  | clear => none

/-- The sides that the last call for a symbol asked to be published. -/
def lastSides? (symbol : String) : List EncoderCall → Option Replica
  | [] => none
  | call :: rest => (lastSides? symbol rest).or (call.sides? symbol)

end EncoderCall

/-- An encoder, and a consumer of what it publishes with a replica for each symbol. -/
structure Relay where
  encoder : DeltaEncoder
  replicas : SymbolTable Replica

namespace Relay

def new (interval : Option Nat) : Relay := ⟨.new interval, []⟩

def replica? (r : Relay) (symbol : String) : Option Replica := SymbolTable.get? symbol r.replicas

/-- The replica of the book's symbol follows what is published; a clear is not published. -/
def step (r : Relay) : EncoderCall → Relay
  | .next book depth now =>
      let (update, encoder) := r.encoder.next book depth now
      let replica := (r.replica? book.symbol).getD .empty
      ⟨encoder, SymbolTable.set book.symbol (replica.follow update) r.replicas⟩
  | .clear => { r with encoder := r.encoder.clear }

def run (r : Relay) (calls : List EncoderCall) : Relay := calls.foldl step r

/-- Each replica holds the sides that were given for its symbol, and these are what the encoder
remembers of the symbol, if it remembers anything. -/
structure InSync (r : Relay) (given : String → Option Replica) : Prop where
  replicas : ∀ symbol, r.replica? symbol = given symbol
  remembered : ∀ symbol published,
    SymbolTable.get? symbol r.encoder.published = some published →
      given symbol = some ⟨published.bids, published.asks⟩
  canonical : ∀ symbol sides, given symbol = some sides → sides.Canonical

theorem inSync_new (interval : Option Nat) : (new interval).InSync fun _ => none where
  replicas _ := rfl
  remembered := by
    intro symbol published impossible
    cases impossible
  canonical := by
    intro symbol sides impossible
    cases impossible

section Step

variable {r : Relay} {given : String → Option Replica}

/-- The replica of a symbol after one call for it. -/
theorem InSync.follow_next (sync : r.InSync given) {book : Snapshot} (canonical : book.Canonical)
    (depth now : Nat) :
    ((r.replica? book.symbol).getD .empty).follow (r.encoder.next book depth now).1 =
      .ofBook book depth := by
  have after := Replica.canonical_ofBook canonical depth
  rcases r.encoder.next_cases book depth now with ⟨_, published⟩ | ⟨previous, found, _, call⟩
  · rw [published]
    rfl
  · have held := sync.remembered _ _ found
    have before := sync.canonical _ _ held
    rw [sync.replicas, held]
    rcases call with ⟨bids, asks, published⟩ | ⟨_, published⟩
    · rw [published]
      exact Replica.eq_of_changes_eq_nil before after bids asks
    · rw [published]
      exact Replica.follow_delta before after

/-- What the encoder remembers after a call for a symbol are the sides it was given. -/
theorem InSync.remembered_next (sync : r.InSync given) {book : Snapshot}
    (canonical : book.Canonical) (depth now : Nat) {published : Published}
    (found : SymbolTable.get? book.symbol (r.encoder.next book depth now).2.published =
      some published) :
    Replica.ofBook book depth = ⟨published.bids, published.asks⟩ := by
  have after := Replica.canonical_ofBook canonical depth
  rcases r.encoder.next_cases book depth now with ⟨_, call⟩ | ⟨previous, known, _, call⟩
  · rw [call, DeltaEncoder.get?_store_self] at found
    cases found
    rfl
  · rcases call with ⟨bids, asks, call⟩ | ⟨_, call⟩
    · have before := sync.canonical _ _ (sync.remembered _ _ known)
      rw [call, known] at found
      cases found
      exact (Replica.eq_of_changes_eq_nil before after bids asks).symm
    · rw [call, DeltaEncoder.get?_store_self] at found
      cases found
      rfl

theorem InSync.step (sync : r.InSync given) {call : EncoderCall} (canonical : call.Canonical) :
    (r.step call).InSync fun symbol => (call.sides? symbol).or (given symbol) := by
  cases call with
  | clear =>
      refine ⟨sync.replicas, ?_, sync.canonical⟩
      intro symbol published impossible
      cases impossible
  | next book depth now =>
      constructor
      · intro symbol
        by_cases same : book.symbol = symbol
        · subst same
          have followed := sync.follow_next canonical depth now
          simp only [Relay.step, replica?, SymbolTable.get?_set_self, EncoderCall.sides?, if_true,
            Option.some_or, Option.some.injEq]
          exact followed
        · simp only [Relay.step, replica?, EncoderCall.sides?, if_neg same, Option.none_or]
          rw [SymbolTable.get?_set_of_ne (Ne.symm same)]
          exact sync.replicas symbol
      · intro symbol published found
        by_cases same : book.symbol = symbol
        · subst same
          simp only [EncoderCall.sides?, if_true, Option.some_or, Option.some.injEq]
          exact sync.remembered_next canonical depth now found
        · simp only [EncoderCall.sides?, if_neg same, Option.none_or]
          refine sync.remembered symbol published ?_
          rw [← DeltaEncoder.get?_next_of_ne r.encoder book depth now (Ne.symm same)]
          exact found
      · intro symbol sides known
        by_cases same : book.symbol = symbol
        · simp only [EncoderCall.sides?, if_pos same, Option.some_or, Option.some.injEq] at known
          exact known ▸ Replica.canonical_ofBook canonical depth
        · simp only [EncoderCall.sides?, if_neg same, Option.none_or] at known
          exact sync.canonical symbol sides known

theorem InSync.run (sync : r.InSync given) {calls : List EncoderCall}
    (canonical : ∀ call ∈ calls, call.Canonical) :
    (r.run calls).InSync fun symbol =>
      (EncoderCall.lastSides? symbol calls).or (given symbol) := by
  induction calls generalizing r given with
  | nil => exact sync
  | cons call rest ih =>
      have first := sync.step (canonical call List.mem_cons_self)
      have later := ih first fun other member => canonical other (List.mem_cons_of_mem _ member)
      have split : r.run (call :: rest) = (r.step call).run rest := rfl
      rw [split]
      simpa only [EncoderCall.lastSides?, Option.or_assoc] using later

end Step

/-- After any calls, the replica of a symbol holds exactly the best levels, to the depth asked for,
of the book that the last call for the symbol was given. -/
theorem replica_eq_lastSides (interval : Option Nat) (calls : List EncoderCall)
    (canonical : ∀ call ∈ calls, call.Canonical) (symbol : String) :
    ((new interval).run calls).replica? symbol = EncoderCall.lastSides? symbol calls := by
  have sync := (inSync_new interval).run canonical
  rw [sync.replicas, Option.or_none]

/-- A changed quantity, a price that is gone and a new price all reach the replica. -/
theorem replica_after_delta :
    let first : Snapshot := ⟨.dydx, "BTC-USD", 1, [⟨100, 1⟩, ⟨99, 2⟩], [⟨101, 1⟩]⟩
    let second : Snapshot := ⟨.dydx, "BTC-USD", 2, [⟨100, 3⟩], [⟨101, 1⟩, ⟨102, 5⟩]⟩
    (first.Canonical ∧ second.Canonical) ∧
      ((new (some 1000)).run [.next first 10 0, .next second 10 10]).replica? "BTC-USD" =
        some ⟨second.bids, second.asks⟩ := by
  intro first second
  have canonical : first.Canonical ∧ second.Canonical := by decide
  refine ⟨canonical, ?_⟩
  have followed := replica_eq_lastSides (some 1000) [.next first 10 0, .next second 10 10]
    (by
      intro call member
      rcases List.mem_cons.1 member with rfl | member
      · exact canonical.1
      · rcases List.mem_singleton.1 member with rfl
        exact canonical.2) "BTC-USD"
  exact followed

end Relay

end Tape
