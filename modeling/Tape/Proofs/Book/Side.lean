import Tape.Book.Live
import Tape.Proofs.Binary64.Order
import Tape.Proofs.Market.Ladders

/-!
# Sides as the outcome of their changes

A side to which changes were applied, in their order, holds under each positive price what the last
change of that price asked for, and nothing when that was zero.
-/

namespace Tape

/-- A quantity that was read is finite and not below zero. -/
theorem Wire.quantity?_eq_some {v : Json} {x : Float} (read : Wire.quantity? v = some x) :
    Binary64.isFinite x = true ∧ Binary64.less x 0 = false := by
  obtain ⟨y, kept⟩ : ∃ y : Float,
      (if Binary64.isFinite y && !Binary64.less y 0 then some y else none) = some x := by
    cases v with
    | text s =>
        obtain ⟨y, _, kept⟩ := Option.bind_eq_some_iff.1 read
        exact ⟨y, kept⟩
    | number n => exact ⟨n.toFloat, read⟩
    | null => cases read
    | flag b => cases read
    | list items => cases read
    | record members => cases read
  split at kept
  next held =>
    cases kept
    rwa [Bool.and_eq_true, Bool.not_eq_true'] at held
  next => cases kept

namespace LevelChange

/-- A change whose quantity can stand for a level: it is finite and not below zero. -/
structure Proper (c : LevelChange) : Prop where
  finite : Binary64.isFinite c.quantity = true
  notNegative : Binary64.less c.quantity 0 = false

theorem proper_of_ofJson? {v : Json} {c : LevelChange} (read : ofJson? v = some c) : c.Proper := by
  simp only [ofJson?, Option.bind_eq_bind, Option.bind_eq_some_iff] at read
  obtain ⟨parts, _, price, _, quantity, known, made⟩ := read
  cases made
  have held := Wire.quantity?_eq_some known
  exact ⟨held.1, held.2⟩

theorem proper_of_mem_ofItems {items : List Json} {c : LevelChange} (member : c ∈ ofItems items) :
    c.Proper := by
  obtain ⟨v, _, read⟩ := List.mem_filterMap.1 member
  exact proper_of_ofJson? read

theorem Proper.quantity_isPositive {c : LevelChange} (proper : c.Proper)
    (left : Binary64.equal c.quantity 0 = false) : Binary64.isPositive c.quantity = true := by
  have number := Binary64.not_isNaN_of_isFinite proper.finite
  have zero := Binary64.not_isNaN_of_isFinite Binary64.isFinite_zero
  have notBelow := proper.notNegative
  rw [Binary64.isPositive_iff_less]
  refine ⟨proper.finite, ?_⟩
  simp only [Binary64.less, Binary64.equal, number, zero, Bool.not_false, Bool.true_and,
    decide_eq_false_iff_not, beq_eq_false_iff_ne, decide_eq_true_eq] at left notBelow ⊢
  omega

/-- What the last change of a price leaves there. -/
def lastQuantity? (price : Decimal) (changes : List LevelChange) : Option Float :=
  ((changes.filter fun c => c.price.units = price.units).getLast?.map quantity).filter
    fun quantity => !Binary64.equal quantity 0

/-- Some positive price has a quantity after the changes. -/
def LeaveLevel (changes : List LevelChange) : Prop :=
  ∃ price : Decimal, price.isPositive = true ∧ (lastQuantity? price changes).isSome

theorem lastQuantity?_append_same {price : Decimal} {change : LevelChange}
    (same : change.price.units = price.units) (changes : List LevelChange) :
    lastQuantity? price (changes ++ [change]) =
      if Binary64.equal change.quantity 0 then none else some change.quantity := by
  have last : (changes ++ [change]).filter (fun c => c.price.units = price.units) =
      changes.filter (fun c => c.price.units = price.units) ++ [change] := by
    rw [List.filter_append]
    simp [same]
  rw [lastQuantity?, last, List.getLast?_append]
  cases zero : Binary64.equal change.quantity 0 <;> simp [Option.filter, zero]

theorem lastQuantity?_append_other {price : Decimal} {change : LevelChange}
    (differs : change.price.units ≠ price.units) (changes : List LevelChange) :
    lastQuantity? price (changes ++ [change]) = lastQuantity? price changes := by
  have last : (changes ++ [change]).filter (fun c => c.price.units = price.units) =
      changes.filter (fun c => c.price.units = price.units) := by
    rw [List.filter_append]
    simp [differs]
  rw [lastQuantity?, lastQuantity?, last]

end LevelChange

namespace BookSide

/-- A change under its own exact price, which can be published. -/
structure SoundEntry (x : Int × LevelChange) : Prop where
  keyed : x.1 = x.2.price.units
  price_positive : x.2.price.isPositive = true
  quantity_positive : Binary64.isPositive x.2.quantity = true

structure Sound (side : BookSide) : Prop where
  ordered : side.Ordered
  entries : ∀ x ∈ side, SoundEntry x

theorem sound_nil : Sound [] where
  ordered := .nil
  entries := by
    intro x member
    cases member

variable {side : BookSide} {change : LevelChange}

theorem Sound.erase (sound : side.Sound) (key : Int) : Sound (side.erase key) where
  ordered := sound.ordered.erase key
  entries := fun x member => sound.entries x ((Ladder.erase_sublist key side).subset member)

/-- The price that is held is the price that is meant, though it may be written otherwise. -/
theorem Sound.units_heldPrice (sound : side.Sound) (price : Decimal) :
    (side.heldPrice price).units = price.units := by
  rw [heldPrice]
  cases held : side.get? price.units with
  | none => rfl
  | some resting => exact (sound.entries _ (Ladder.mem_of_get? held)).keyed.symm

theorem heldPrice_of_absent {price : Decimal} (absent : ∀ x ∈ side, x.1 ≠ price.units) :
    side.heldPrice price = price := by
  rw [heldPrice]
  cases held : side.get? price.units with
  | none => rfl
  | some resting => exact absurd rfl (absent _ (Ladder.mem_of_get? held))

theorem Sound.insert (sound : side.Sound) (price : change.price.isPositive = true)
    (quantity : Binary64.isPositive change.quantity = true) :
    Sound (side.insert change.price.units ⟨side.heldPrice change.price, change.quantity⟩) where
  ordered := sound.ordered.insert _ _
  entries := by
    intro x member
    rcases Ladder.mem_insert member with rfl | held
    · have same := sound.units_heldPrice change.price
      refine ⟨same.symm, ?_, quantity⟩
      rw [Decimal.isPositive] at price ⊢
      rw [same]
      exact price
    · exact sound.entries x held

/-- The three things that applying a change can do. -/
theorem apply_cases (side : BookSide) (proper : change.Proper) :
    (change.price.isPositive = false ∧ side.apply change = side) ∨
      (change.price.isPositive = true ∧ Binary64.equal change.quantity 0 = true ∧
        side.apply change = side.erase change.price.units) ∨
      (change.price.isPositive = true ∧ Binary64.equal change.quantity 0 = false ∧
        Binary64.isPositive change.quantity = true ∧
        side.apply change =
          side.insert change.price.units ⟨side.heldPrice change.price, change.quantity⟩) := by
  cases price : change.price.isPositive with
  | false => exact .inl ⟨rfl, by simp [apply, price]⟩
  | true =>
      cases zero : Binary64.equal change.quantity 0 with
      | true => exact .inr (.inl ⟨rfl, rfl, by simp [apply, price, zero]⟩)
      | false =>
          have positive := proper.quantity_isPositive zero
          have above := (Binary64.isPositive_iff_less.1 positive).2
          exact .inr (.inr ⟨rfl, rfl, positive, by simp [apply, price, zero, above]⟩)

theorem Sound.apply (sound : side.Sound) (proper : change.Proper) : Sound (side.apply change) := by
  rcases apply_cases side proper with ⟨_, same⟩ | ⟨_, _, same⟩ | ⟨price, _, quantity, same⟩
  · rw [same]
    exact sound
  · rw [same]
    exact sound.erase _
  · rw [same]
    exact sound.insert price quantity

theorem Sound.applyAll (sound : side.Sound) {changes : List LevelChange}
    (proper : ∀ change ∈ changes, change.Proper) : Sound (side.applyAll changes) := by
  induction changes generalizing side with
  | nil => exact sound
  | cons change rest ih =>
      have first := sound.apply (proper change List.mem_cons_self)
      exact ih first fun other member => proper other (List.mem_cons_of_mem _ member)

theorem applyAll_append (side : BookSide) (earlier later : List LevelChange) :
    side.applyAll (earlier ++ later) = (side.applyAll earlier).applyAll later :=
  List.foldl_append

/-! ## Quantities -/

theorem quantityAt?_apply_of_ne (sound : side.Sound) (proper : change.Proper) {price : Decimal}
    (differs : change.price.units ≠ price.units) :
    (side.apply change).quantityAt? price = side.quantityAt? price := by
  rw [quantityAt?, quantityAt?]
  rcases apply_cases side proper with ⟨_, same⟩ | ⟨_, _, same⟩ | ⟨_, _, _, same⟩
  · rw [same]
  · rw [same, Ladder.get?_erase sound.ordered, if_neg (Ne.symm differs)]
  · rw [same, Ladder.get?_insert, if_neg (Ne.symm differs)]

theorem quantityAt?_apply_self (sound : side.Sound) (proper : change.Proper) {price : Decimal}
    (positive : price.isPositive = true) (same : change.price.units = price.units) :
    (side.apply change).quantityAt? price =
      if Binary64.equal change.quantity 0 then none else some change.quantity := by
  have alike : change.price.isPositive = true := by
    rw [Decimal.isPositive, same]
    exact positive
  rw [quantityAt?]
  rcases apply_cases side proper with ⟨notPositive, _⟩ | ⟨_, zero, done⟩ | ⟨_, zero, _, done⟩
  · rw [notPositive] at alike
    cases alike
  · rw [done, Ladder.get?_erase sound.ordered, if_pos same.symm, if_pos zero]
    rfl
  · rw [done, Ladder.get?_insert, if_pos same.symm, zero]
    rfl

theorem Sound.quantityAt?_of_not_isPositive (sound : side.Sound) {price : Decimal}
    (notPositive : price.isPositive = false) : side.quantityAt? price = none := by
  have above : ∀ x ∈ side, price.units < x.1 := by
    intro x member
    have keyed := (sound.entries x member).keyed
    have positive := (sound.entries x member).price_positive
    simp only [Decimal.isPositive, decide_eq_true_eq, decide_eq_false_iff_not]
      at positive notPositive
    omega
  rw [quantityAt?, Ladder.get?_eq_none_of_above above]
  rfl

/-- A side holds under each positive price what the last change of it left. -/
theorem quantityAt?_applyAll {changes : List LevelChange}
    (proper : ∀ change ∈ changes, change.Proper) {price : Decimal}
    (positive : price.isPositive = true) :
    (applyAll [] changes).quantityAt? price = LevelChange.lastQuantity? price changes := by
  induction changes using List.reverseRecOn with
  | nil => rfl
  | append_singleton earlier change ih =>
      have properEarlier : ∀ c ∈ earlier, c.Proper := fun c member =>
        proper c (List.mem_append_left _ member)
      have properLast := proper change (List.mem_append_right _ List.mem_cons_self)
      have sound := sound_nil.applyAll properEarlier
      have step : applyAll [] (earlier ++ [change]) = (applyAll [] earlier).apply change :=
        applyAll_append [] earlier [change]
      rw [step]
      by_cases same : change.price.units = price.units
      · rw [quantityAt?_apply_self sound properLast positive same,
          LevelChange.lastQuantity?_append_same same]
      · rw [quantityAt?_apply_of_ne sound properLast same,
          LevelChange.lastQuantity?_append_other same]
        exact ih properEarlier

/-- A side is the outcome of changes: in order, each change under its own exact price, and under
each price the quantity that the last change of it left. -/
structure Holds (side : BookSide) (changes : List LevelChange) : Prop where
  ordered : side.Ordered
  keyed : ∀ x ∈ side, x.1 = x.2.price.units
  quantity : ∀ price : Decimal, side.quantityAt? price =
    if price.isPositive then LevelChange.lastQuantity? price changes else none

theorem holds_applyAll {changes : List LevelChange} (proper : ∀ change ∈ changes, change.Proper) :
    Holds (applyAll [] changes) changes where
  ordered := (sound_nil.applyAll proper).ordered
  keyed := fun x member => ((sound_nil.applyAll proper).entries x member).keyed
  quantity := by
    intro price
    cases positive : price.isPositive with
    | true => exact quantityAt?_applyAll proper positive
    | false => exact (sound_nil.applyAll proper).quantityAt?_of_not_isPositive positive

/-- Changes leave a level exactly when the side that they build is not empty. -/
theorem leaveLevel_iff {changes : List LevelChange} (proper : ∀ change ∈ changes, change.Proper) :
    LevelChange.LeaveLevel changes ↔ applyAll [] changes ≠ [] := by
  have sound := sound_nil.applyAll proper
  constructor
  · rintro ⟨price, positive, left⟩ empty
    rw [← quantityAt?_applyAll proper positive, empty] at left
    cases left
  · intro held
    cases side : applyAll [] changes with
    | nil => exact absurd side held
    | cons first rest =>
        have member : first ∈ applyAll [] changes := side ▸ List.mem_cons_self
        have entry := sound.entries first member
        refine ⟨first.2.price, entry.price_positive, ?_⟩
        rw [← quantityAt?_applyAll proper entry.price_positive, side, quantityAt?, Ladder.get?,
          if_pos entry.keyed.symm]
        rfl

end BookSide

/-! ## Both sides -/

namespace LiveBook

theorem applyGroups_eq (book : LiveBook) (groups : List ChangeGroup) :
    book.applyGroups groups =
      ⟨book.bids.applyAll (groups.flatMap ChangeGroup.bids),
        book.asks.applyAll (groups.flatMap ChangeGroup.asks)⟩ := by
  induction groups generalizing book with
  | nil => rfl
  | cons group rest ih =>
      have step : book.applyGroups (group :: rest) = (book.applyGroup group).applyGroups rest := rfl
      rw [step, ih, List.flatMap_cons, List.flatMap_cons, BookSide.applyAll_append,
        BookSide.applyAll_append]
      rfl

end LiveBook

end Tape
