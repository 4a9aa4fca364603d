import Tape.Book.Store
import Tape.Proofs.Book.Side

/-!
# The algebra of merging

A side to which changes are applied holds under each price what the changes of that price that do
anything make of what it held before. So it makes no difference how the changes of a batch are
grouped, whether the batch is merged once or twice, and whether two batches are merged one after the
other or as one.
-/

namespace Tape

namespace LevelChange

/-- A change does something when its price is positive and its quantity zero or above. -/
def takesEffect (c : LevelChange) : Bool :=
  c.price.isPositive && (Binary64.equal c.quantity 0 || Binary64.less 0 c.quantity)

/-- What a change makes of what is held under a key. A price that is held stays as it is written. -/
def settle (key : Int) (held : Option LevelChange) (c : LevelChange) : Option LevelChange :=
  if c.takesEffect = true ∧ c.price.units = key then
    if Binary64.equal c.quantity 0 then none else some ⟨(held.map price).getD c.price, c.quantity⟩
  else held

def settleAll (key : Int) (held : Option LevelChange) (changes : List LevelChange) :
    Option LevelChange :=
  changes.foldl (settle key) held

variable {key : Int} {held : Option LevelChange}

theorem settleAll_append_singleton (earlier : List LevelChange) (last : LevelChange) :
    settleAll key held (earlier ++ [last]) = settle key (settleAll key held earlier) last := by
  rw [settleAll, List.foldl_append]
  rfl

/-- A change passes over a key, clears it or sets it. -/
theorem settle_cases (key : Int) (c : LevelChange) :
    (∀ held, settle key held c = held) ∨ (∀ held, settle key held c = none) ∨
      ∀ held, settle key held c = some ⟨(held.map price).getD c.price, c.quantity⟩ := by
  by_cases here : c.takesEffect = true ∧ c.price.units = key
  · cases zero : Binary64.equal c.quantity 0 with
    | true => exact .inr (.inl fun held => by simp [settle, here, zero])
    | false => exact .inr (.inr fun held => by simp [settle, here, zero])
  · exact .inl fun held => if_neg here

/-- Changes that leave a price written in some way, or no price, leave it so again. -/
theorem price_settleAll {changes : List LevelChange} {p otherwise : Decimal} {quantity : Float}
    (left : ((settleAll key held changes).map price).getD otherwise = p) :
    ((settleAll key (some ⟨p, quantity⟩) changes).map price).getD otherwise = p := by
  induction changes using List.reverseRecOn generalizing otherwise with
  | nil => rfl
  | append_singleton earlier last ih =>
      rw [settleAll_append_singleton] at left ⊢
      rcases settle_cases key last with pass | clear | set
      · rw [pass] at left ⊢
        exact ih left
      · rw [clear] at left ⊢
        exact left
      · rw [set] at left ⊢
        exact ih left

/-- What changes make of a key they do not change once more. -/
theorem settleAll_settleAll (changes : List LevelChange) :
    settleAll key (settleAll key held changes) changes = settleAll key held changes := by
  induction changes using List.reverseRecOn with
  | nil => rfl
  | append_singleton earlier last ih =>
      rw [settleAll_append_singleton, settleAll_append_singleton]
      rcases settle_cases key last with pass | clear | set
      · rw [pass, pass]
        exact ih
      · rw [clear, clear]
      · rw [set, set, price_settleAll rfl]

end LevelChange

namespace BookSide

open LevelChange

variable {side : BookSide}

theorem Ordered.apply (ordered : side.Ordered) (change : LevelChange) :
    (side.apply change).Ordered := by
  rw [BookSide.apply]
  split
  · exact ordered
  · split
    · exact ordered.erase _
    · split
      · exact ordered.insert _ _
      · exact ordered

theorem get?_apply (ordered : side.Ordered) (change : LevelChange) (key : Int) :
    (side.apply change).get? key = settle key (side.get? key) change := by
  rw [BookSide.apply, settle, takesEffect]
  cases change.price.isPositive with
  | false => rfl
  | true =>
      cases Binary64.equal change.quantity 0 with
      | true => simpa [eq_comm] using Ladder.get?_erase ordered change.price.units key
      | false =>
          cases Binary64.less 0 change.quantity with
          | false => rfl
          | true =>
              by_cases here : change.price.units = key
              · subst here
                simp [Ladder.get?_insert, heldPrice]
              · simp [Ladder.get?_insert, here, Ne.symm here]

theorem Ordered.applyAll (ordered : side.Ordered) (changes : List LevelChange) :
    (side.applyAll changes).Ordered := by
  induction changes generalizing side with
  | nil => exact ordered
  | cons change rest ih => exact ih (Ordered.apply ordered change)

theorem get?_applyAll (ordered : side.Ordered) (changes : List LevelChange) (key : Int) :
    (side.applyAll changes).get? key = settleAll key (side.get? key) changes := by
  induction changes using List.reverseRecOn with
  | nil => rfl
  | append_singleton earlier change ih =>
      have step : side.applyAll (earlier ++ [change]) = (side.applyAll earlier).apply change :=
        applyAll_append side earlier [change]
      rw [step, get?_apply (Ordered.applyAll ordered earlier), settleAll_append_singleton, ih]

/-- Changes that were just applied find the side as they leave it. -/
theorem applyAll_applyAll (ordered : side.Ordered) (changes : List LevelChange) :
    (side.applyAll changes).applyAll changes = side.applyAll changes := by
  have once := Ordered.applyAll ordered changes
  refine Ladder.Ordered.ext (Ordered.applyAll once changes) once fun key => ?_
  rw [get?_applyAll once, get?_applyAll ordered, settleAll_settleAll]

end BookSide

/-- Groups as one: all their bids and all their asks, in their order. -/
def ChangeGroup.join (groups : List ChangeGroup) : ChangeGroup :=
  ⟨groups.flatMap ChangeGroup.bids, groups.flatMap ChangeGroup.asks⟩

namespace LiveBook

/-- A book holds at most one level for each exact price of a side. -/
structure IsOrdered (book : LiveBook) : Prop where
  bids : book.bids.Ordered
  asks : book.asks.Ordered

variable {book : LiveBook}

theorem applyGroups_append (book : LiveBook) (first second : List ChangeGroup) :
    book.applyGroups (first ++ second) = (book.applyGroups first).applyGroups second :=
  List.foldl_append

theorem applyGroups_join (book : LiveBook) (groups : List ChangeGroup) :
    book.applyGroups [.join groups] = book.applyGroups groups :=
  (applyGroups_eq book groups).symm

theorem applyGroups_applyGroups (ordered : book.IsOrdered) (groups : List ChangeGroup) :
    (book.applyGroups groups).applyGroups groups = book.applyGroups groups := by
  rw [applyGroups_eq (book.applyGroups groups), applyGroups_eq book,
    BookSide.applyAll_applyAll ordered.bids, BookSide.applyAll_applyAll ordered.asks]

end LiveBook

namespace BookStore

/-- The book that groups of a symbol are applied to: the one held, or one without levels. -/
def bookFor (store : BookStore) (symbol : String) : LiveBook := (store.book? symbol).getD .empty

theorem bookFor_merge (store : BookStore) (venue : Venue) (symbol : String)
    (groups : List ChangeGroup) (stamp : Nat) :
    (store.merge venue symbol groups stamp).2.bookFor symbol =
      (store.bookFor symbol).applyGroups groups := by
  rw [bookFor, book?, merge, SymbolTable.get?_set_self]
  rfl

/-- A merge answers and stores only what the groups make of the book. -/
theorem merge_congr (store : BookStore) (venue : Venue) {symbol : String}
    {groups others : List ChangeGroup} (stamp : Nat)
    (alike : (store.bookFor symbol).applyGroups groups =
      (store.bookFor symbol).applyGroups others) :
    store.merge venue symbol groups stamp = store.merge venue symbol others stamp := by
  rw [bookFor] at alike
  rw [merge, merge, alike]

/-- A merge after a merge of the same symbol leaves nothing else of the first. -/
theorem merge_merge (store : BookStore) (venue : Venue) (symbol : String)
    (first second : List ChangeGroup) (stamp later : Nat) :
    (store.merge venue symbol first stamp).2.merge venue symbol second later =
      store.merge venue symbol (first ++ second) later := by
  have held := bookFor_merge store venue symbol first stamp
  rw [bookFor] at held
  rw [merge, held, merge.eq_1 store venue symbol (first ++ second), bookFor,
    LiveBook.applyGroups_append]
  simp only [merge, SymbolTable.set_set]

/-- A merge depends on the changes of each side in their order and on nothing else of its groups;
merging the same groups once more answers the same and changes nothing; and groups merged in two
parts are merged as one. -/
theorem merge_algebra (store : BookStore) (venue : Venue) (symbol : String)
    (ordered : (store.bookFor symbol).IsOrdered) (first second : List ChangeGroup)
    (stamp later : Nat) :
    let merged := store.merge venue symbol first stamp
    store.merge venue symbol [.join first] stamp = merged ∧
      merged.2.merge venue symbol first later =
        ((store.merge venue symbol first later).1, merged.2) ∧
      merged.2.merge venue symbol second later =
        store.merge venue symbol (first ++ second) later := by
  refine ⟨?_, ?_, merge_merge store venue symbol first second stamp later⟩
  · exact merge_congr store venue stamp (LiveBook.applyGroups_join _ first)
  · have twice : (store.bookFor symbol).applyGroups (first ++ first) =
        (store.bookFor symbol).applyGroups first := by
      rw [LiveBook.applyGroups_append, LiveBook.applyGroups_applyGroups ordered]
    rw [merge_merge, merge_congr store venue later twice]
    rfl

/-- A price that is removed, set, set to no number, set again and set below zero, in two groups. -/
theorem merge_algebra_of_one_price_rewritten :
    let one : Decimal := ⟨false, 1, 0, by decide, by decide⟩
    let first : List ChangeGroup :=
      [⟨[⟨one, 0⟩, ⟨one, 3⟩, ⟨one, 0 / 0⟩], []⟩, ⟨[⟨one, 2⟩, ⟨one, -1⟩], [⟨one, 1 / 0⟩]⟩]
    let second : List ChangeGroup := [⟨[⟨one, 0⟩], []⟩]
    let store : BookStore := ⟨10, [("BTC-USD", ⟨[(one.units, ⟨one, 7⟩)], []⟩)]⟩
    let merged := store.merge .dydx "BTC-USD" first 4
    (store.bookFor "BTC-USD").IsOrdered ∧
      (merged.2.bookFor "BTC-USD").bids.quantityAt? one = some 2 ∧
        (merged.2.bookFor "BTC-USD").asks.quantityAt? one = some (1 / 0) ∧
          store.merge .dydx "BTC-USD" [.join first] 4 = merged ∧
            merged.2.merge .dydx "BTC-USD" first 5 =
              ((store.merge .dydx "BTC-USD" first 5).1, merged.2) ∧
                merged.2.merge .dydx "BTC-USD" second 5 =
                  store.merge .dydx "BTC-USD" (first ++ second) 5 := by
  intro one first second store merged
  have ordered : (store.bookFor "BTC-USD").IsOrdered :=
    ⟨List.pairwise_singleton _ _, List.Pairwise.nil⟩
  exact ⟨ordered, by decide +kernel, by decide +kernel,
    merge_algebra store .dydx "BTC-USD" ordered first second 4 5⟩

end BookStore

end Tape
