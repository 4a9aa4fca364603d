/-!
# Ladders

A ladder holds contents under whole-number keys, at most one for each key, with the keys strictly
increasing. The sides of a live book are ladders.
-/

namespace Tape

abbrev Ladder (α : Type) := List (Int × α)

namespace Ladder

/-- Puts a content under a key; what stood there gives way. -/
def insert (key : Int) (a : α) : Ladder α → Ladder α
  | [] => [(key, a)]
  | (other, b) :: rest =>
      if key < other then (key, a) :: (other, b) :: rest
      else if key = other then (key, a) :: rest
      else (other, b) :: insert key a rest

def erase (key : Int) : Ladder α → Ladder α
  | [] => []
  | (other, b) :: rest =>
      if key = other then rest else (other, b) :: erase key rest

def get? (key : Int) : Ladder α → Option α
  | [] => none
  | (other, b) :: rest => if key = other then some b else get? key rest

/-- The contents, lowest key first. -/
def contents (l : Ladder α) : List α := l.map (·.2)

def Ordered (l : Ladder α) : Prop := l.Pairwise fun x y => x.1 < y.1

theorem mem_insert {key : Int} {a : α} {l : Ladder α} {x : Int × α} (h : x ∈ insert key a l) :
    x = (key, a) ∨ x ∈ l := by
  induction l with
  | nil => simpa [insert] using h
  | cons head rest ih =>
    obtain ⟨other, b⟩ := head
    rw [insert] at h
    split at h
    · simpa using h
    · split at h
      · rcases List.mem_cons.1 h with h | h
        · exact .inl h
        · exact .inr (List.mem_cons_of_mem _ h)
      · rcases List.mem_cons.1 h with h | h
        · exact .inr (h ▸ List.mem_cons_self)
        · rcases ih h with h | h
          · exact .inl h
          · exact .inr (List.mem_cons_of_mem _ h)

theorem Ordered.insert {l : Ladder α} (h : l.Ordered) (key : Int) (a : α) :
    (Ladder.insert key a l).Ordered := by
  induction l with
  | nil => simp [Ladder.insert, Ordered]
  | cons head rest ih =>
    obtain ⟨other, b⟩ := head
    obtain ⟨above, tail⟩ := List.pairwise_cons.1 h
    rw [Ladder.insert]
    split
    next less =>
      refine List.pairwise_cons.2 ⟨fun x hx => ?_, h⟩
      rcases List.mem_cons.1 hx with rfl | hx
      · exact less
      · exact Int.lt_trans less (above x hx)
    next =>
      split
      next same =>
        subst same
        exact List.pairwise_cons.2 ⟨above, tail⟩
      next notLess notSame =>
        refine List.pairwise_cons.2 ⟨fun x hx => ?_, ih tail⟩
        rcases mem_insert hx with rfl | hx
        · show other < key
          omega
        · exact above x hx

theorem erase_sublist (key : Int) (l : Ladder α) : (erase key l).Sublist l := by
  induction l with
  | nil => exact List.Sublist.slnil
  | cons head rest ih =>
    obtain ⟨other, b⟩ := head
    rw [erase]
    split
    · exact List.sublist_cons_self _ _
    · exact List.Sublist.cons_cons _ ih

theorem Ordered.erase {l : Ladder α} (h : l.Ordered) (key : Int) : (Ladder.erase key l).Ordered :=
  List.Pairwise.sublist (erase_sublist key l) h

theorem get?_insert (key : Int) (a : α) (l : Ladder α) (other : Int) :
    get? other (insert key a l) = if other = key then some a else get? other l := by
  induction l with
  | nil => simp [insert, get?]
  | cons head rest ih =>
    obtain ⟨held, b⟩ := head
    rw [insert]
    split
    · simp [get?]
    · split
      next same =>
        subst same
        by_cases h : other = key <;> simp [get?, h]
      next differs =>
        by_cases h : other = held
        · subst h
          simp [get?, Ne.symm differs]
        · simp [get?, h, ih]

theorem get?_eq_none_of_above {key : Int} {l : Ladder α} (h : ∀ x ∈ l, key < x.1) :
    get? key l = none := by
  induction l with
  | nil => rfl
  | cons head rest ih =>
    have first : key < head.1 := h head List.mem_cons_self
    rw [get?, if_neg (by omega)]
    exact ih fun x hx => h x (List.mem_cons_of_mem _ hx)

theorem get?_erase {l : Ladder α} (h : l.Ordered) (key other : Int) :
    get? other (erase key l) = if other = key then none else get? other l := by
  induction l with
  | nil => simp [erase, get?]
  | cons head rest ih =>
    obtain ⟨held, b⟩ := head
    obtain ⟨above, tail⟩ := List.pairwise_cons.1 h
    rw [erase]
    split
    next same =>
      subst same
      by_cases h : other = key
      · subst h
        simpa using get?_eq_none_of_above above
      · simp [get?, h]
    next differs =>
      by_cases h : other = held
      · subst h
        simp [get?, Ne.symm differs]
      · simp [get?, h, ih tail]

end Ladder

end Tape
