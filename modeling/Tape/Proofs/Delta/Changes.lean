import Mathlib.Tactic.ByContra
import Mathlib.Tactic.Push
import Tape.Proofs.Delta.Placing

/-!
# Changes between published sides

What the changes between two canonical sides carry, and what a call of an encoder can do. A replica
that holds the first sides and follows their changes holds the second ones.
-/

namespace Tape

/-! ## What changes carry -/

namespace DeltaEncoder

variable {previous current : List (Level Float)}

theorem sameLevel_iff {a b : Level Float} (ha : a.Sound) (hb : b.Sound) :
    sameLevel a b = true ↔ a = b := by
  rw [sameLevel, Bool.and_eq_true, Binary64.equal_iff_eq ha.price_isPositive hb.price_isPositive,
    Binary64.equal_iff_eq ha.quantity_isPositive hb.quantity_isPositive]
  constructor
  · rintro ⟨price, quantity⟩
    cases a
    cases b
    exact congr (congrArg Level.mk price) quantity
  · rintro rfl
    exact ⟨rfl, rfl⟩

theorem samePrice_iff {a b : Level Float} (ha : a.Sound) (hb : b.Sound) :
    samePrice a b = true ↔ a.price = b.price :=
  Binary64.equal_iff_eq ha.price_isPositive hb.price_isPositive

/-- A change is a level that was not there before, or the end of one whose price is gone. -/
theorem mem_changes (before : ∀ l ∈ previous, l.Sound) (after : ∀ l ∈ current, l.Sound)
    (c : Level Float) :
    c ∈ changes previous current ↔
      (c ∈ current ∧ c ∉ previous) ∨
        ∃ old ∈ previous, (∀ l ∈ current, l.price ≠ old.price) ∧ c = ⟨old.price, 0⟩ := by
  have fresh : c ∈ current.filter (fun l => !previous.any fun old => sameLevel old l) ↔
      c ∈ current ∧ c ∉ previous := by
    rw [List.mem_filter]
    constructor
    · rintro ⟨member, unmatched⟩
      refine ⟨member, fun held => ?_⟩
      have matched : (previous.any fun old => sameLevel old c) = true :=
        List.any_eq_true.2 ⟨c, held, (sameLevel_iff (before c held) (after c member)).2 rfl⟩
      rw [matched] at unmatched
      cases unmatched
    · rintro ⟨member, absent⟩
      refine ⟨member, ?_⟩
      rw [Bool.not_eq_true', List.any_eq_false]
      intro old held same
      have equal := (sameLevel_iff (before old held) (after c member)).1 same
      exact absent (equal ▸ held)
  have gone (old : Level Float) (held : old ∈ previous) :
      (!current.any fun l => samePrice l old) = true ↔ ∀ l ∈ current, l.price ≠ old.price := by
    rw [Bool.not_eq_true', List.any_eq_false]
    constructor
    · intro unmatched l member same
      exact unmatched l member ((samePrice_iff (after l member) (before old held)).2 same)
    · intro absent l member same
      exact absent l member ((samePrice_iff (after l member) (before old held)).1 same)
  rw [changes, List.mem_append, fresh, List.mem_map]
  constructor
  · rintro (new | ⟨old, kept, rfl⟩)
    · exact .inl new
    · obtain ⟨held, absent⟩ := List.mem_filter.1 kept
      exact .inr ⟨old, held, (gone old held).1 absent, rfl⟩
  · rintro (new | ⟨old, held, absent, rfl⟩)
    · exact .inl new
    · exact .inr ⟨old, List.mem_filter.2 ⟨held, (gone old held).2 absent⟩, rfl⟩

theorem changes_positive (before : ∀ l ∈ previous, l.Sound) (after : ∀ l ∈ current, l.Sound) :
    ∀ c ∈ changes previous current, Binary64.isPositive c.price = true := by
  intro c member
  rcases (mem_changes before after c).1 member with ⟨new, _⟩ | ⟨old, held, _, rfl⟩
  · exact (after c new).price_isPositive
  · exact (before old held).price_isPositive

theorem changes_distinct {less : Float → Float → Bool} (order : Replica.PriceOrder less)
    (linedBefore : Replica.Lined less previous) (linedAfter : Replica.Lined less current)
    (before : ∀ l ∈ previous, l.Sound) (after : ∀ l ∈ current, l.Sound) :
    (changes previous current).Pairwise fun a b => a.price ≠ b.price := by
  rw [changes, List.pairwise_append]
  refine ⟨?_, ?_, ?_⟩
  · exact (linedAfter.ordered.imp fun first => order.ne first).sublist List.filter_sublist
  · rw [List.pairwise_map]
    exact (linedBefore.ordered.imp fun first => order.ne first).sublist List.filter_sublist
  · intro a new b ended same
    obtain ⟨old, kept, rfl⟩ := List.mem_map.1 ended
    obtain ⟨held, absent⟩ := List.mem_filter.1 kept
    have member := (List.mem_filter.1 new).1
    have matched : (current.any fun l => samePrice l old) = true :=
      List.any_eq_true.2 ⟨a, member, (samePrice_iff (after a member) (before old held)).2 same⟩
    rw [matched] at absent
    cases absent

end DeltaEncoder

namespace Replica

/-- Placing the changes between two sides into the first one gives the second. -/
theorem placeAll_changes {less : Float → Float → Bool} (order : PriceOrder less)
    {previous current cs : List (Level Float)} (linedBefore : Lined less previous)
    (linedAfter : Lined less current) (before : ∀ l ∈ previous, l.Sound)
    (after : ∀ l ∈ current, l.Sound) (perm : cs.Perm (DeltaEncoder.changes previous current)) :
    placeAll less previous cs = current := by
  have positive : ∀ c ∈ cs, Binary64.isPositive c.price = true := fun c member =>
    DeltaEncoder.changes_positive before after c (perm.mem_iff.1 member)
  have distinct : cs.Pairwise fun a b => a.price ≠ b.price :=
    perm.symm.pairwise
      (DeltaEncoder.changes_distinct order linedBefore linedAfter before after) fun h => h.symm
  have placed : Lined less (placeAll less previous cs) := linedBefore.placeAll order positive
  apply placed.ext order linedAfter
  intro l
  rw [mem_placeAll order positive distinct linedBefore, perm.mem_iff,
    DeltaEncoder.mem_changes before after]
  constructor
  · rintro (⟨⟨new, _⟩ | ⟨old, _, _, rfl⟩, kept⟩ | ⟨held, untouched⟩)
    · exact new
    · rw [Binary64.equal_zero_zero] at kept
      cases kept
    · -- Had the price of an untouched level gone or changed, a change would carry it.
      by_contra absent
      by_cases gone : ∀ other ∈ current, other.price ≠ l.price
      · have carried := (DeltaEncoder.mem_changes before after ⟨l.price, 0⟩).2
          (.inr ⟨l, held, gone, rfl⟩)
        exact untouched _ (perm.mem_iff.2 carried) rfl
      · push Not at gone
        obtain ⟨other, member, same⟩ := gone
        have fresh : other ∉ previous := by
          intro heldToo
          have equal := linedBefore.eq_of_price_eq order heldToo held same
          exact absent (equal ▸ member)
        have carried := (DeltaEncoder.mem_changes before after other).2 (.inl ⟨member, fresh⟩)
        exact untouched other (perm.mem_iff.2 carried) same
  · intro member
    by_cases held : l ∈ previous
    · refine .inr ⟨held, ?_⟩
      intro c carried same
      rcases (DeltaEncoder.mem_changes before after c).1 (perm.mem_iff.1 carried) with
        ⟨new, fresh⟩ | ⟨old, _, absent, rfl⟩
      · have equal := linedAfter.eq_of_price_eq order new member same
        exact fresh (equal ▸ held)
      · exact absent l member same.symm
    · exact .inl ⟨.inl ⟨member, held⟩,
        Binary64.equal_zero_of_isPositive (after l member).quantity_isPositive⟩

/-! ## Both sides -/

/-- The sides of a book that are published at a depth. -/
def ofBook (book : Snapshot) (depth : Nat) : Replica :=
  ⟨book.bids.take depth, book.asks.take depth⟩

structure Canonical (r : Replica) : Prop where
  bids_lined : Lined bidBefore r.bids
  asks_lined : Lined askBefore r.asks
  bids_sound : ∀ l ∈ r.bids, l.Sound
  asks_sound : ∀ l ∈ r.asks, l.Sound

theorem canonical_ofBook {book : Snapshot} (canonical : book.Canonical) (depth : Nat) :
    (ofBook book depth).Canonical := by
  have bids : ∀ l ∈ book.bids.take depth, l.Sound := fun l member =>
    canonical.bids_sound l (List.mem_of_mem_take member)
  have asks : ∀ l ∈ book.asks.take depth, l.Sound := fun l member =>
    canonical.asks_sound l (List.mem_of_mem_take member)
  exact ⟨⟨canonical.bids_fall.sublist (List.take_sublist _ _),
      fun l member => (bids l member).price_isPositive⟩,
    ⟨canonical.asks_rise.sublist (List.take_sublist _ _),
      fun l member => (asks l member).price_isPositive⟩, bids, asks⟩

theorem placeAll_bidChanges {previous current : Replica} (before : previous.Canonical)
    (after : current.Canonical) :
    placeAll bidBefore previous.bids (DeltaEncoder.bidChanges previous.bids current.bids) =
      current.bids :=
  placeAll_changes bidOrder before.bids_lined after.bids_lined before.bids_sound after.bids_sound
    (List.mergeSort_perm _ _)

theorem placeAll_askChanges {previous current : Replica} (before : previous.Canonical)
    (after : current.Canonical) :
    placeAll askBefore previous.asks (DeltaEncoder.askChanges previous.asks current.asks) =
      current.asks :=
  placeAll_changes askOrder before.asks_lined after.asks_lined before.asks_sound after.asks_sound
    (List.mergeSort_perm _ _)

theorem follow_delta {previous current : Replica} (before : previous.Canonical)
    (after : current.Canonical) :
    previous.follow (some ⟨.delta, DeltaEncoder.bidChanges previous.bids current.bids,
      DeltaEncoder.askChanges previous.asks current.asks⟩) = current := by
  show Replica.mk (placeAll _ _ _) (placeAll _ _ _) = current
  rw [placeAll_bidChanges before after, placeAll_askChanges before after]

/-- Sides between which nothing changed are equal. -/
theorem eq_of_changes_eq_nil {previous current : Replica} (before : previous.Canonical)
    (after : current.Canonical)
    (bids : DeltaEncoder.bidChanges previous.bids current.bids = [])
    (asks : DeltaEncoder.askChanges previous.asks current.asks = []) : previous = current := by
  have followed := follow_delta before after
  rw [bids, asks] at followed
  exact followed

end Replica

/-! ## One call -/

namespace DeltaEncoder

/-- What the encoder keeps of a book it has published. -/
def store (e : DeltaEncoder) (book : Snapshot) (depth checkpointAt : Nat) : DeltaEncoder :=
  ⟨e.interval, SymbolTable.set book.symbol
    ⟨book.bids.take depth, book.asks.take depth, checkpointAt⟩ e.published⟩

/-- A call publishes the whole book, or nothing because nothing changed, or the changes. -/
theorem next_cases (e : DeltaEncoder) (book : Snapshot) (depth now : Nat) :
    ((∀ previous, SymbolTable.get? book.symbol e.published = some previous →
        e.isDue previous now = true) ∧
      e.next book depth now =
        (some ⟨.checkpoint, book.bids.take depth, book.asks.take depth⟩,
          e.store book depth now)) ∨
    ∃ previous, SymbolTable.get? book.symbol e.published = some previous ∧
      e.isDue previous now = false ∧
      ((bidChanges previous.bids (book.bids.take depth) = [] ∧
          askChanges previous.asks (book.asks.take depth) = [] ∧
          e.next book depth now = (none, e)) ∨
        ¬(bidChanges previous.bids (book.bids.take depth) = [] ∧
            askChanges previous.asks (book.asks.take depth) = []) ∧
          e.next book depth now =
            (some ⟨.delta, bidChanges previous.bids (book.bids.take depth),
                askChanges previous.asks (book.asks.take depth)⟩,
              e.store book depth previous.checkpointAt)) := by
  cases found : SymbolTable.get? book.symbol e.published with
  | none =>
      refine .inl ⟨?_, ?_⟩
      · intro previous impossible
        cases impossible
      · simp only [next, found, store]
  | some previous =>
      cases due : e.isDue previous now with
      | true =>
          refine .inl ⟨?_, ?_⟩
          · intro other same
            cases same
            exact due
          · simp only [next, found, due, store, if_true]
      | false =>
          refine .inr ⟨previous, rfl, due, ?_⟩
          by_cases unchanged : bidChanges previous.bids (book.bids.take depth) = [] ∧
              askChanges previous.asks (book.asks.take depth) = []
          · obtain ⟨bids, asks⟩ := unchanged
            refine .inl ⟨bids, asks, ?_⟩
            simp [next, found, due, bids, asks]
          · refine .inr ⟨unchanged, ?_⟩
            simp [next, found, due, unchanged, store]

theorem interval_next (e : DeltaEncoder) (book : Snapshot) (depth now : Nat) :
    (e.next book depth now).2.interval = e.interval := by
  rcases e.next_cases book depth now with ⟨_, call⟩ | ⟨_, _, _, ⟨_, _, call⟩ | ⟨_, call⟩⟩ <;>
    rw [call] <;> rfl

theorem get?_store_self (e : DeltaEncoder) (book : Snapshot) (depth checkpointAt : Nat) :
    SymbolTable.get? book.symbol (e.store book depth checkpointAt).published =
      some ⟨book.bids.take depth, book.asks.take depth, checkpointAt⟩ :=
  SymbolTable.get?_set_self _ _ _

theorem get?_store_of_ne (e : DeltaEncoder) (book : Snapshot) (depth checkpointAt : Nat)
    {symbol : String} (differs : symbol ≠ book.symbol) :
    SymbolTable.get? symbol (e.store book depth checkpointAt).published =
      SymbolTable.get? symbol e.published :=
  SymbolTable.get?_set_of_ne differs _ _

/-- A call leaves what is remembered of other symbols as it is. -/
theorem get?_next_of_ne (e : DeltaEncoder) (book : Snapshot) (depth now : Nat) {symbol : String}
    (differs : symbol ≠ book.symbol) :
    SymbolTable.get? symbol (e.next book depth now).2.published =
      SymbolTable.get? symbol e.published := by
  rcases e.next_cases book depth now with ⟨_, call⟩ | ⟨_, _, _, ⟨_, _, call⟩ | ⟨_, call⟩⟩
  · rw [call]
    exact e.get?_store_of_ne book depth now differs
  · rw [call]
  · rw [call]
    exact e.get?_store_of_ne book depth _ differs

end DeltaEncoder

end Tape
