import Tape.Proofs.Delta.Convergence

/-!
# Differences of sides

Changes are the difference of two sides when they carry, in the order of the sides, exactly the
prices at which the two show different quantities, each once and with the later quantity. What an
encoder publishes of a symbol that it knows, while no checkpoint is due, is the difference between
the sides that it remembers and those of the book, and nothing just when these are equal.
-/

namespace Tape

theorem Binary64.less_of_rank_le {x y : Float} (hx : isPositive x = true)
    (hy : isPositive y = true) (le : rank x ≤ rank y) : less y x = false := by
  rw [Bool.eq_false_iff, ne_eq, less_iff_rank_lt hy hx]
  exact Int.not_lt.2 le

namespace Replica

variable {before : Float → Float → Bool} {side previous current cs : List (Level Float)}
  {price quantity : Float}

/-- The quantity that a side shows at a price. -/
def quantityAt? (side : List (Level Float)) (price : Float) : Option Float :=
  (side.find? fun level => level.price = price).map Level.quantity

/-- Changes from one side to another; zero stands for a price that the later side does not show. -/
structure IsDifference (before : Float → Float → Bool)
    (previous current changes : List (Level Float)) : Prop where
  ordered : changes.Pairwise fun a b => before a.price b.price = true
  once : ∀ price, (changes.countP fun c => c.price = price) =
    if quantityAt? previous price = quantityAt? current price then 0 else 1
  quantity : ∀ c ∈ changes, c.quantity = (quantityAt? current c.price).getD 0

/-! ## Quantities of a side -/

theorem quantityAt?_eq_none : quantityAt? side price = none ↔ ∀ l ∈ side, l.price ≠ price := by
  simp [quantityAt?]

theorem quantityAt?_eq_some (order : PriceOrder before) (lined : Lined before side) :
    quantityAt? side price = some quantity ↔ ⟨price, quantity⟩ ∈ side := by
  rw [quantityAt?, Option.map_eq_some_iff]
  constructor
  · rintro ⟨level, found, rfl⟩
    have same : level.price = price := by simpa using List.find?_some found
    rw [← same]
    exact List.mem_of_find?_eq_some found
  · intro member
    cases found : side.find? fun level => level.price = price with
    | none =>
        have absent := List.find?_eq_none.1 found ⟨price, quantity⟩ member
        exact absurd (decide_eq_true rfl) absent
    | some level =>
        have same : level.price = price := by simpa using List.find?_some found
        have equal := lined.eq_of_price_eq order (List.mem_of_find?_eq_some found) member same
        exact ⟨level, rfl, congrArg Level.quantity equal⟩

/-- A change is made exactly where the quantities differ, and asks for the later one. -/
theorem mem_changes_iff (order : PriceOrder before) (linedBefore : Lined before previous)
    (linedAfter : Lined before current) (soundBefore : ∀ l ∈ previous, l.Sound)
    (soundAfter : ∀ l ∈ current, l.Sound) (c : Level Float) :
    c ∈ DeltaEncoder.changes previous current ↔
      quantityAt? previous c.price ≠ quantityAt? current c.price ∧
        c.quantity = (quantityAt? current c.price).getD 0 := by
  rw [DeltaEncoder.mem_changes soundBefore soundAfter]
  cases later : quantityAt? current c.price with
  | none =>
      have absent := quantityAt?_eq_none.1 later
      constructor
      · rintro (⟨member, _⟩ | ⟨old, held, _, rfl⟩)
        · exact absurd rfl (absent c member)
        · refine ⟨fun gone => ?_, rfl⟩
          exact quantityAt?_eq_none.1 gone old held rfl
      · rintro ⟨differs, zero⟩
        obtain ⟨quantity, shown⟩ := Option.ne_none_iff_exists'.1 differs
        have held := (quantityAt?_eq_some order linedBefore).1 shown
        refine .inr ⟨_, held, absent, ?_⟩
        cases c
        exact congrArg (Level.mk _) zero
  | some quantity =>
      have shown := (quantityAt?_eq_some order linedAfter).1 later
      constructor
      · rintro (⟨member, fresh⟩ | ⟨old, _, absent, rfl⟩)
        · have same := linedAfter.eq_of_price_eq order member shown rfl
          refine ⟨fun held => fresh ?_, congrArg Level.quantity same⟩
          rw [same]
          exact (quantityAt?_eq_some order linedBefore).1 held
        · exact absurd rfl (absent ⟨old.price, quantity⟩ shown)
      · rintro ⟨differs, same⟩
        have here : c = ⟨c.price, quantity⟩ := congrArg (Level.mk c.price) same
        refine .inl ⟨here ▸ shown, fun held => differs ?_⟩
        exact (quantityAt?_eq_some order linedBefore).2 (here ▸ held)

/-! ## Changes in order -/

theorem countP_price_le_one (distinct : cs.Pairwise fun a b => a.price ≠ b.price) (price : Float) :
    (cs.countP fun c => c.price = price) ≤ 1 := by
  induction cs with
  | nil => exact Nat.zero_le 1
  | cons first rest ih =>
      obtain ⟨apart, distinctRest⟩ := List.pairwise_cons.1 distinct
      by_cases here : first.price = price
      · have absent : (rest.countP fun c => c.price = price) = 0 := by
          refine List.countP_eq_zero.2 fun c member same => ?_
          exact apart c member (here.trans (of_decide_eq_true same).symm)
        rw [List.countP_cons, absent, decide_eq_true here]
        exact Nat.le_refl 1
      · rw [List.countP_cons_of_neg (by simpa using here)]
        exact ih distinctRest

/-- Levels of distinct prices, none of them behind a later one, stand strictly in order. -/
theorem ordered_of_not_behind (order : PriceOrder before)
    (positive : ∀ c ∈ cs, Binary64.isPositive c.price = true)
    (distinct : cs.Pairwise fun a b => a.price ≠ b.price)
    (sorted : cs.Pairwise fun a b => before b.price a.price = false) :
    cs.Pairwise fun a b => before a.price b.price = true := by
  refine (distinct.and sorted).imp_of_mem ?_
  rintro a b ha hb ⟨differ, notBehind⟩
  rcases order.total (positive a ha) (positive b hb) with less | same | less
  · exact less
  · exact absurd same differ
  · rw [less] at notBehind
    cases notBehind

/-- Changes sorted along the order of prices are the difference of the sides. -/
theorem isDifference_mergeSort (order : PriceOrder before) {le : Level Float → Level Float → Bool}
    (trans : ∀ a b c, le a b = true → le b c = true → le a c = true)
    (total : ∀ a b, (le a b || le b a) = true)
    (along : ∀ {a b}, Binary64.isPositive a.price = true → Binary64.isPositive b.price = true →
      le a b = true → before b.price a.price = false)
    (linedBefore : Lined before previous) (linedAfter : Lined before current)
    (soundBefore : ∀ l ∈ previous, l.Sound) (soundAfter : ∀ l ∈ current, l.Sound) :
    IsDifference before previous current
      ((DeltaEncoder.changes previous current).mergeSort le) := by
  have perm := List.mergeSort_perm (DeltaEncoder.changes previous current) le
  have carried (c : Level Float) := perm.mem_iff.trans
    (mem_changes_iff order linedBefore linedAfter soundBefore soundAfter c)
  have positive : ∀ c ∈ (DeltaEncoder.changes previous current).mergeSort le,
      Binary64.isPositive c.price = true := fun c member =>
    DeltaEncoder.changes_positive soundBefore soundAfter c (perm.mem_iff.1 member)
  have distinct := perm.symm.pairwise (DeltaEncoder.changes_distinct order linedBefore linedAfter
    soundBefore soundAfter) fun differ => differ.symm
  have sorted := (List.pairwise_mergeSort trans total
    (DeltaEncoder.changes previous current)).imp_of_mem fun ha hb upheld =>
      along (positive _ ha) (positive _ hb) upheld
  refine ⟨ordered_of_not_behind order positive distinct sorted, fun price => ?_,
    fun c member => ((carried c).1 member).2⟩
  split
  next same =>
    refine List.countP_eq_zero.2 fun c member here => ?_
    have differ := ((carried c).1 member).1
    rw [of_decide_eq_true here] at differ
    exact differ same
  next differ =>
    refine Nat.le_antisymm (countP_price_le_one distinct price) ?_
    have member := (carried ⟨price, (quantityAt? current price).getD 0⟩).2 ⟨differ, rfl⟩
    exact List.countP_pos_iff.2 ⟨_, member, decide_eq_true rfl⟩

/-- Between a side and itself there is no change. -/
theorem IsDifference.eq_nil (difference : IsDifference before side side cs) : cs = [] := by
  refine List.eq_nil_iff_forall_not_mem.2 fun c member => ?_
  have carried : 0 < cs.countP fun other => other.price = c.price :=
    List.countP_pos_iff.2 ⟨c, member, decide_eq_true rfl⟩
  rw [difference.once, if_pos rfl] at carried
  cases carried

theorem isDifference_bidChanges {previous current : Replica} (before : previous.Canonical)
    (after : current.Canonical) :
    IsDifference bidBefore previous.bids current.bids
      (DeltaEncoder.bidChanges previous.bids current.bids) := by
  apply isDifference_mergeSort bidOrder
  · intro a b c ab bc
    exact decide_eq_true (Int.le_trans (of_decide_eq_true bc) (of_decide_eq_true ab))
  · intro a b
    rw [Bool.or_eq_true, decide_eq_true_eq, decide_eq_true_eq]
    exact Int.le_total _ _
  · intro a b ha hb le
    exact Binary64.less_of_rank_le hb ha (of_decide_eq_true le)
  · exact before.bids_lined
  · exact after.bids_lined
  · exact before.bids_sound
  · exact after.bids_sound

theorem isDifference_askChanges {previous current : Replica} (before : previous.Canonical)
    (after : current.Canonical) :
    IsDifference askBefore previous.asks current.asks
      (DeltaEncoder.askChanges previous.asks current.asks) := by
  apply isDifference_mergeSort askOrder
  · intro a b c ab bc
    exact decide_eq_true (Int.le_trans (of_decide_eq_true ab) (of_decide_eq_true bc))
  · intro a b
    rw [Bool.or_eq_true, decide_eq_true_eq, decide_eq_true_eq]
    exact Int.le_total _ _
  · intro a b ha hb le
    exact Binary64.less_of_rank_le ha hb (of_decide_eq_true le)
  · exact before.asks_lined
  · exact after.asks_lined
  · exact before.asks_sound
  · exact after.asks_sound

end Replica

/-! ## Runs of an encoder -/

namespace DeltaEncoder

/-- What comes of a call, and the encoder after it. -/
def answer (e : DeltaEncoder) : EncoderCall → Option BookUpdate × DeltaEncoder
  | .next book depth now => e.next book depth now
  | .clear => (none, e.clear)

def after (e : DeltaEncoder) (calls : List EncoderCall) : DeltaEncoder :=
  calls.foldl (fun e call => (e.answer call).2) e

/-- The encoder of a relay goes its way whatever its consumer holds. -/
theorem encoder_run (r : Relay) (calls : List EncoderCall) :
    (r.run calls).encoder = r.encoder.after calls := by
  induction calls generalizing r with
  | nil => rfl
  | cons call rest ih =>
      have first : (r.step call).encoder = (r.encoder.answer call).2 := by
        cases call <;> rfl
      calc ((r.step call).run rest).encoder
        _ = (r.step call).encoder.after rest := ih _
        _ = (r.encoder.answer call).2.after rest := by rw [first]

variable {interval : Option Nat} {calls : List EncoderCall}

/-- What an encoder remembers of a symbol are the sides of the last call for it. -/
theorem lastSides?_of_known (canonical : ∀ call ∈ calls, call.Canonical) {symbol : String}
    {previous : Published}
    (known : SymbolTable.get? symbol ((new interval).after calls).published = some previous) :
    EncoderCall.lastSides? symbol calls = some ⟨previous.bids, previous.asks⟩ ∧
      (⟨previous.bids, previous.asks⟩ : Replica).Canonical := by
  have sync := (Relay.inSync_new interval).run canonical
  have followed : ((Relay.new interval).run calls).encoder = (new interval).after calls :=
    encoder_run _ calls
  have held := sync.remembered symbol previous (followed ▸ known)
  exact ⟨by rwa [Option.or_none] at held, sync.canonical symbol _ held⟩

/-- Of a symbol that an encoder knows, while no checkpoint is due, it publishes the difference
between the sides that it remembers, which are those of the last call, and the sides of the book. It
publishes nothing exactly when they are equal. -/
theorem next_is_difference (interval : Option Nat) (calls : List EncoderCall)
    (canonical : ∀ call ∈ calls, call.Canonical) {book : Snapshot} (here : book.Canonical)
    (depth now : Nat) {previous : Published}
    (known : SymbolTable.get? book.symbol ((new interval).after calls).published = some previous)
    (early : ((new interval).after calls).isDue previous now = false) :
    let stored : Replica := ⟨previous.bids, previous.asks⟩
    let sides := Replica.ofBook book depth
    let update := (((new interval).after calls).next book depth now).1
    EncoderCall.lastSides? book.symbol calls = some stored ∧
      (update = none ↔ sides = stored) ∧
        ∀ u, update = some u → u.kind = .delta ∧
          Replica.IsDifference Replica.bidBefore stored.bids sides.bids u.bids ∧
            Replica.IsDifference Replica.askBefore stored.asks sides.asks u.asks := by
  intro stored sides update
  obtain ⟨last, before⟩ := lastSides?_of_known canonical known
  have after : sides.Canonical := Replica.canonical_ofBook here depth
  have bids := Replica.isDifference_bidChanges before after
  have asks := Replica.isDifference_askChanges before after
  refine ⟨last, ?_⟩
  rcases next_cases ((new interval).after calls) book depth now with
    ⟨due, _⟩ | ⟨other, found, _, call⟩
  · rw [due previous known] at early
    cases early
  · cases known.symm.trans found
    rcases call with ⟨noBids, noAsks, nothing⟩ | ⟨changed, delta⟩
    · have equal := Replica.eq_of_changes_eq_nil before after noBids noAsks
      have silent : update = none := congrArg Prod.fst nothing
      rw [silent]
      refine ⟨⟨fun _ => equal.symm, fun _ => rfl⟩, ?_⟩
      intro u impossible
      cases impossible
    · have published : update = some ⟨.delta, _, _⟩ := congrArg Prod.fst delta
      rw [published]
      constructor
      · constructor
        · intro impossible
          cases impossible
        · intro equal
          have changed : ¬(bidChanges stored.bids sides.bids = [] ∧
            askChanges stored.asks sides.asks = []) := changed
          rw [equal] at changed bids asks
          exact absurd ⟨bids.eq_nil, asks.eq_nil⟩ changed
      · intro u same
        cases same
        exact ⟨rfl, bids, asks⟩

/-- A changed quantity, a price that is gone and a new price, just before a checkpoint is due. -/
theorem next_is_difference_before_checkpoint :
    let first : Snapshot := ⟨.dydx, "BTC-USD", 1, [⟨100, 1⟩, ⟨99, 2⟩], [⟨101, 1⟩]⟩
    let second : Snapshot := ⟨.dydx, "BTC-USD", 2, [⟨100, 3⟩], [⟨101, 1⟩, ⟨102, 5⟩]⟩
    let encoder := (new (some 1000)).after [.next first 10 0]
    let previous : Published := ⟨first.bids, first.asks, 0⟩
    (first.Canonical ∧ second.Canonical) ∧
      SymbolTable.get? second.symbol encoder.published = some previous ∧
        encoder.isDue previous 999 = false ∧
          ∃ u, (encoder.next second 10 999).1 = some u ∧ u.kind = .delta ∧
            Replica.IsDifference Replica.bidBefore first.bids second.bids u.bids ∧
              Replica.IsDifference Replica.askBefore first.asks second.asks u.asks := by
  intro first second encoder previous
  have canonical : first.Canonical ∧ second.Canonical := by decide
  have known : SymbolTable.get? second.symbol encoder.published = some previous := by decide
  have early : encoder.isDue previous 999 = false := by decide
  refine ⟨canonical, known, early, ?_⟩
  obtain ⟨_, silent, difference⟩ := next_is_difference (some 1000) [.next first 10 0]
    (by
      intro call member
      rcases List.mem_singleton.1 member with rfl
      exact canonical.1) canonical.2 10 999 known early
  have differ : (encoder.next second 10 999).1 ≠ none := fun nothing =>
    absurd (silent.1 nothing) (by decide)
  obtain ⟨u, published⟩ := Option.ne_none_iff_exists'.1 differ
  exact ⟨u, published, difference u published⟩

end DeltaEncoder

end Tape
