import Mathlib
import Tape.Market.Ladder

/-!
# What a ladder holds

An ordered ladder holds one content under each of its keys and is determined by what it holds under
every key. An insertion puts in one entry and takes out the one of its key.
-/

namespace Tape

namespace Ladder

variable {α : Type} {l : Ladder α}

theorem Ordered.ne_of_mem_tail {first x : Int × α} {rest : Ladder α}
    (ordered : Ordered (first :: rest)) (member : x ∈ rest) : x.1 ≠ first.1 := by
  have above := (List.pairwise_cons.1 ordered).1 x member
  omega

theorem Ordered.get?_of_mem (ordered : l.Ordered) {x : Int × α} (member : x ∈ l) :
    l.get? x.1 = some x.2 := by
  induction l with
  | nil => cases member
  | cons first rest ih =>
      rw [get?]
      rcases List.mem_cons.1 member with rfl | later
      · exact if_pos rfl
      · rw [if_neg (ordered.ne_of_mem_tail later)]
        exact ih (List.pairwise_cons.1 ordered).2 later

theorem mem_of_get? {key : Int} {a : α} (held : l.get? key = some a) : (key, a) ∈ l := by
  induction l with
  | nil => cases held
  | cons first rest ih =>
      obtain ⟨other, content⟩ := first
      rw [get?] at held
      split at held
      next same =>
        cases held
        exact same ▸ List.mem_cons_self
      next => exact List.mem_cons_of_mem _ (ih held)

/-- A ladder is determined by what it holds under each key. -/
theorem Ordered.ext (ordered : l.Ordered) {other : Ladder α} (otherOrdered : other.Ordered)
    (same : ∀ key, l.get? key = other.get? key) : l = other := by
  have distinct : ∀ {m : Ladder α}, m.Ordered → m.Nodup := fun rising =>
    List.Pairwise.imp (fun below equal => absurd (equal ▸ below) (Int.lt_irrefl _)) rising
  have perm : l.Perm other := by
    refine (List.perm_ext_iff_of_nodup (distinct ordered) (distinct otherOrdered)).2 fun x => ?_
    constructor
    · intro member
      exact mem_of_get? ((same x.1).symm.trans (ordered.get?_of_mem member))
    · intro member
      exact mem_of_get? ((same x.1).trans (otherOrdered.get?_of_mem member))
  refine List.Perm.eq_of_pairwise ?_ ordered otherOrdered perm
  intro a b _ _ below above
  omega

/-- An insertion puts in one entry and takes out the one of its key. -/
theorem mem_insert_iff (ordered : l.Ordered) (key : Int) (a : α) (x : Int × α) :
    x ∈ l.insert key a ↔ x = (key, a) ∨ (x ∈ l ∧ x.1 ≠ key) := by
  induction l with
  | nil => simp [insert]
  | cons first rest ih =>
      obtain ⟨other, b⟩ := first
      have tail := (List.pairwise_cons.1 ordered).2
      rw [insert]
      split
      next less =>
        have apart : x ∈ (other, b) :: rest → x.1 ≠ key := by
          intro member same
          rcases List.mem_cons.1 member with rfl | later
          · exact absurd same (by show other ≠ key; omega)
          · have above := (List.pairwise_cons.1 ordered).1 x later
            simp only at above
            omega
        rw [List.mem_cons]
        grind
      next notLess =>
        split
        next same =>
          have apart : x ∈ rest → x.1 ≠ key := by
            intro member
            rw [same]
            exact ordered.ne_of_mem_tail member
          rw [List.mem_cons, List.mem_cons]
          grind
        next differs =>
          rw [List.mem_cons, List.mem_cons, ih tail]
          grind

end Ladder

end Tape
