import Tape.Delta.Replica
import Tape.Proofs.Market.Canonical

/-!
# Placing changes into a side

A consumer that places the changes between two sides into the first of them holds the second. Both
sides stand in one strict order of price, and the changes may come in any order, because no two of
them have one price.
-/

namespace Tape

namespace Replica

/-- A strict order of prices that compares any two that are finite and above zero. -/
structure PriceOrder (before : Float → Float → Bool) : Prop where
  irrefl : ∀ a, before a a = false
  trans : ∀ {a b c}, before a b = true → before b c = true → before a c = true
  total : ∀ {a b}, Binary64.isPositive a = true → Binary64.isPositive b = true →
    before a b = true ∨ a = b ∨ before b a = true

theorem askOrder : PriceOrder askBefore where
  irrefl := Binary64.less_irrefl
  trans := Binary64.less_trans
  total := Binary64.less_or_eq_or_less

theorem bidOrder : PriceOrder bidBefore where
  irrefl := Binary64.less_irrefl
  trans ab bc := Binary64.less_trans bc ab
  total := by
    intro a b ha hb
    rcases Binary64.less_or_eq_or_less ha hb with below | same | above
    · exact .inr (.inr below)
    · exact .inr (.inl same)
    · exact .inl above

theorem PriceOrder.ne {before : Float → Float → Bool} (order : PriceOrder before) {a b : Float}
    (h : before a b = true) : a ≠ b := by
  intro same
  rw [same, order.irrefl] at h
  cases h

/-- A side whose levels stand strictly in an order of price, at prices above zero. -/
structure Lined (before : Float → Float → Bool) (side : List (Level Float)) : Prop where
  ordered : side.Pairwise fun a b => before a.price b.price = true
  positive : ∀ level ∈ side, Binary64.isPositive level.price = true

section Lined

variable {before : Float → Float → Bool} {side : List (Level Float)} {level held : Level Float}

theorem Lined.tail {rest : List (Level Float)} (lined : Lined before (held :: rest)) :
    Lined before rest where
  ordered := (List.pairwise_cons.1 lined.ordered).2
  positive other member := lined.positive other (List.mem_cons_of_mem _ member)

theorem Lined.head_before {rest : List (Level Float)} (lined : Lined before (held :: rest))
    (member : level ∈ rest) : before held.price level.price = true :=
  (List.pairwise_cons.1 lined.ordered).1 level member

/-- Two levels of one price in a side are the same level. -/
theorem Lined.eq_of_price_eq (order : PriceOrder before) (lined : Lined before side)
    {a b : Level Float} (ha : a ∈ side) (hb : b ∈ side) (same : a.price = b.price) : a = b := by
  induction side with
  | nil => cases ha
  | cons held rest ih =>
      rcases List.mem_cons.1 ha with aHead | aRest
      · rcases List.mem_cons.1 hb with bHead | bRest
        · exact aHead.trans bHead.symm
        · rw [aHead] at same
          exact absurd same (order.ne (lined.head_before bRest))
      · rcases List.mem_cons.1 hb with bHead | bRest
        · rw [bHead] at same
          exact absurd same.symm (order.ne (lined.head_before aRest))
        · exact ih lined.tail aRest bRest

theorem Lined.nodup (order : PriceOrder before) (lined : Lined before side) : side.Nodup := by
  refine List.Pairwise.imp ?_ lined.ordered
  intro a b less same
  exact order.ne less (congrArg Level.price same)

/-- A side is determined by the levels it holds. -/
theorem Lined.ext (order : PriceOrder before) {other : List (Level Float)}
    (lined : Lined before side) (otherLined : Lined before other)
    (same : ∀ level, level ∈ side ↔ level ∈ other) : side = other := by
  have perm : side.Perm other :=
    (List.perm_ext_iff_of_nodup (lined.nodup order) (otherLined.nodup order)).2 same
  refine List.Perm.eq_of_pairwise ?_ lined.ordered otherLined.ordered perm
  intro a b _ _ ab ba
  have loop := order.trans ab ba
  rw [order.irrefl] at loop
  cases loop

/-! ## One level -/

theorem mem_place (order : PriceOrder before) (lined : Lined before side)
    (positive : Binary64.isPositive level.price = true) (l : Level Float) :
    l ∈ place before level side ↔
      (l = level ∧ Binary64.equal level.quantity 0 = false) ∨
        (l ∈ side ∧ l.price ≠ level.price) := by
  induction side with
  | nil =>
      rw [place]
      cases Binary64.equal level.quantity 0 <;> simp
  | cons held rest ih =>
      have heldPositive := lined.positive held List.mem_cons_self
      have equality := Binary64.equal_iff_eq heldPositive positive
      rw [place]
      split
      next here =>
        have same := equality.1 here
        have apart : l ∈ rest → l.price ≠ level.price := by
          intro member equal
          exact order.ne (lined.head_before member) (same.trans equal.symm)
        cases Binary64.equal level.quantity 0 <;> grind
      next elsewhere =>
        have differs : held.price ≠ level.price := fun same => elsewhere (equality.2 same)
        split
        next first =>
          have apart : l ∈ rest → l.price ≠ level.price := by
            intro member equal
            exact order.ne (order.trans first (lined.head_before member)) equal.symm
          cases Binary64.equal level.quantity 0 <;> grind
        next =>
          rw [List.mem_cons, ih lined.tail]
          grind

theorem Lined.place (order : PriceOrder before) (lined : Lined before side)
    (positive : Binary64.isPositive level.price = true) :
    Lined before (place before level side) where
  positive := by
    intro l member
    rcases (mem_place order lined positive l).1 member with ⟨rfl, _⟩ | ⟨held, _⟩
    · exact positive
    · exact lined.positive l held
  ordered := by
    induction side with
    | nil =>
        rw [Replica.place]
        split <;> simp
    | cons held rest ih =>
        have heldPositive := lined.positive held List.mem_cons_self
        have equality := Binary64.equal_iff_eq heldPositive positive
        rw [Replica.place]
        split
        next here =>
          have same := equality.1 here
          split
          · exact lined.tail.ordered
          · refine List.pairwise_cons.2 ⟨?_, lined.tail.ordered⟩
            intro other member
            rw [← same]
            exact lined.head_before member
        next elsewhere =>
          split
          next first =>
            split
            · exact lined.ordered
            · refine List.pairwise_cons.2 ⟨?_, lined.ordered⟩
              intro other member
              rcases List.mem_cons.1 member with rfl | member
              · exact first
              · exact order.trans first (lined.head_before member)
          next notFirst =>
            refine List.pairwise_cons.2 ⟨?_, ih lined.tail⟩
            intro other member
            rcases (mem_place order lined.tail positive other).1 member with ⟨rfl, _⟩ | ⟨member, _⟩
            · rcases order.total heldPositive positive with less | same | less
              · exact less
              · exact absurd (equality.2 same) elsewhere
              · exact absurd less notFirst
            · exact lined.head_before member

/-! ## All changes -/

theorem Lined.placeAll (order : PriceOrder before) {changes : List (Level Float)}
    (positive : ∀ c ∈ changes, Binary64.isPositive c.price = true) (lined : Lined before side) :
    Lined before (placeAll before side changes) := by
  induction changes generalizing side with
  | nil => exact lined
  | cons change rest ih =>
      have placed := lined.place order (positive change List.mem_cons_self)
      exact ih (fun c member => positive c (List.mem_cons_of_mem _ member)) placed

theorem mem_placeAll (order : PriceOrder before) {changes : List (Level Float)}
    (positive : ∀ c ∈ changes, Binary64.isPositive c.price = true)
    (distinct : changes.Pairwise fun a b => a.price ≠ b.price) (lined : Lined before side)
    (l : Level Float) :
    l ∈ placeAll before side changes ↔
      (l ∈ changes ∧ Binary64.equal l.quantity 0 = false) ∨
        (l ∈ side ∧ ∀ c ∈ changes, c.price ≠ l.price) := by
  induction changes generalizing side with
  | nil => simp [Replica.placeAll]
  | cons change rest ih =>
      obtain ⟨apart, distinctRest⟩ := List.pairwise_cons.1 distinct
      have first := positive change List.mem_cons_self
      have placed := lined.place order first
      have recursion := ih (fun c member => positive c (List.mem_cons_of_mem _ member))
        distinctRest placed
      have step : Replica.placeAll before side (change :: rest) =
          Replica.placeAll before (Replica.place before change side) rest := rfl
      rw [step, recursion, mem_place order lined first]
      constructor
      · rintro (⟨member, kept⟩ | ⟨⟨rfl, kept⟩ | ⟨held, differs⟩, untouched⟩)
        · exact .inl ⟨List.mem_cons_of_mem _ member, kept⟩
        · exact .inl ⟨List.mem_cons_self, kept⟩
        · refine .inr ⟨held, ?_⟩
          intro c member
          rcases List.mem_cons.1 member with rfl | member
          · exact fun same => differs same.symm
          · exact untouched c member
      · rintro (⟨member, kept⟩ | ⟨held, untouched⟩)
        · rcases List.mem_cons.1 member with rfl | member
          · exact .inr ⟨.inl ⟨rfl, kept⟩, fun c later same => apart c later same.symm⟩
          · exact .inl ⟨member, kept⟩
        · have differs : l.price ≠ change.price := fun same =>
            untouched change List.mem_cons_self same.symm
          exact .inr ⟨.inr ⟨held, differs⟩,
            fun c member => untouched c (List.mem_cons_of_mem _ member)⟩

end Lined

end Replica

end Tape
