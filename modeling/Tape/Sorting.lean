/-!
# Stable sorting

A stable sort leaves items that tie in the order they came in. This one recurses on its list alone,
so that what it is used in can be computed; it is the merge sort of the library.
-/

namespace Tape

variable {α : Type} {le : α → α → Bool}

/-- Puts an item before the first one that it may precede. -/
def insertSorted (le : α → α → Bool) (a : α) : List α → List α
  | [] => [a]
  | b :: rest => if le a b then a :: b :: rest else b :: insertSorted le a rest

def stableSort (le : α → α → Bool) (items : List α) : List α := items.foldr (insertSorted le) []

theorem insertSorted_append {a : α} {before after : List α} (passed : ∀ b ∈ before, le a b = false)
    (stops : ∀ b ∈ after, le a b = true) :
    insertSorted le a (before ++ after) = before ++ a :: after := by
  induction before with
  | nil =>
      cases after with
      | nil => rfl
      | cons b rest => exact if_pos (stops b List.mem_cons_self)
  | cons b rest ih =>
      have skips : ¬le a b = true := by simp [passed b List.mem_cons_self]
      rw [List.cons_append, insertSorted, if_neg skips]
      exact congrArg (b :: ·) (ih fun c member => passed c (List.mem_cons_of_mem _ member))

theorem stableSort_eq_mergeSort
    (transitive : ∀ a b c, le a b = true → le b c = true → le a c = true)
    (total : ∀ a b, (le a b || le b a) = true) (items : List α) :
    stableSort le items = items.mergeSort le := by
  induction items with
  | nil => simp [stableSort]
  | cons a rest ih =>
      obtain ⟨before, after, sorted, split, passed⟩ := List.mergeSort_cons transitive total a rest
      have order := List.pairwise_mergeSort transitive total (a :: rest)
      rw [sorted] at order
      have stops := (List.pairwise_cons.1 (List.pairwise_append.1 order).2.1).1
      have step : stableSort le (a :: rest) = insertSorted le a (stableSort le rest) := rfl
      rw [step, ih, split, sorted]
      exact insertSorted_append (by simpa using passed) stops

end Tape
