import Tape.Json.Reader
import Tape.Proofs.Outcome

/-!
# Member names of JSON that was read

Every record inside a value that was read has its members in strictly increasing order of their
names, so that no two of them have one name.
-/

namespace Tape.Json

/-- The names of members increase strictly. -/
def Rising (members : List (String × Json)) : Prop := members.Pairwise fun a b => a.1 < b.1

/-- Every record in a value has rising names. -/
inductive Ordered : Json → Prop where
  | null : Ordered .null
  | flag (value : Bool) : Ordered (.flag value)
  | number (value : Number) : Ordered (.number value)
  | text (value : String) : Ordered (.text value)
  | list {items : List Json} (inner : ∀ item ∈ items, Ordered item) : Ordered (.list items)
  | record {members : List (String × Json)} (rising : Rising members)
      (inner : ∀ member ∈ members, Ordered member.2) : Ordered (.record members)

theorem Ordered.items {items : List Json} (ordered : Ordered (.list items)) :
    ∀ item ∈ items, Ordered item := by
  cases ordered with
  | list inner => exact inner

theorem Ordered.rising {members : List (String × Json)} (ordered : Ordered (.record members)) :
    Rising members := by
  cases ordered with
  | record rising inner => exact rising

theorem Ordered.members {members : List (String × Json)} (ordered : Ordered (.record members)) :
    ∀ member ∈ members, Ordered member.2 := by
  cases ordered with
  | record rising inner => exact inner

theorem mem_of_find?_eq_some {name : String} {members : List (String × Json)} {value : Json}
    (found : find? name members = some value) : (name, value) ∈ members := by
  induction members with
  | nil => cases found
  | cons member rest ih =>
      obtain ⟨other, held⟩ := member
      rw [find?] at found
      split at found
      next same =>
        cases found
        rw [same]
        exact List.mem_cons_self
      next => exact List.mem_cons_of_mem _ (ih found)

theorem Ordered.get? {v w : Json} {name : String} (ordered : v.Ordered)
    (found : v.get? name = some w) : w.Ordered := by
  cases v with
  | record members => exact ordered.members _ (mem_of_find?_eq_some found)
  | null => cases found
  | flag value => cases found
  | number value => cases found
  | text value => cases found
  | list items => cases found

theorem Rising.tail {member : String × Json} {rest : List (String × Json)}
    (rising : Rising (member :: rest)) : Rising rest :=
  (List.pairwise_cons.1 rising).2

theorem Rising.ne {member : String × Json} {rest : List (String × Json)}
    (rising : Rising (member :: rest)) {other : String × Json} (later : other ∈ rest) :
    member.1 ≠ other.1 := by
  have below := (List.pairwise_cons.1 rising).1 other later
  intro same
  rw [same] at below
  exact String.lt_irrefl _ below

/-! ## Building a record -/

theorem mem_insertMember {name : String} {value : Json} {members : List (String × Json)}
    {member : String × Json} (h : member ∈ insertMember name value members) :
    member = (name, value) ∨ member ∈ members := by
  induction members with
  | nil => exact .inl (List.mem_singleton.1 h)
  | cons first rest ih =>
      obtain ⟨other, old⟩ := first
      rw [insertMember] at h
      split at h
      · exact List.mem_cons.1 h
      · split at h
        · rcases List.mem_cons.1 h with new | later
          · exact .inl new
          · exact .inr (List.mem_cons_of_mem _ later)
        · rcases List.mem_cons.1 h with old | later
          · exact .inr (old ▸ List.mem_cons_self)
          · rcases ih later with new | later
            · exact .inl new
            · exact .inr (List.mem_cons_of_mem _ later)

theorem Rising.insertMember {members : List (String × Json)} (rising : Rising members)
    (name : String) (value : Json) : Rising (insertMember name value members) := by
  induction members with
  | nil => exact List.pairwise_singleton _ _
  | cons first rest ih =>
      obtain ⟨other, old⟩ := first
      obtain ⟨above, tail⟩ := List.pairwise_cons.1 rising
      rw [Json.insertMember]
      split
      next less =>
        refine List.pairwise_cons.2 ⟨?_, rising⟩
        intro member later
        rcases List.mem_cons.1 later with rfl | later
        · exact less
        · exact String.lt_trans less (above member later)
      next notLess =>
        split
        next same =>
          subst same
          exact List.pairwise_cons.2 ⟨above, tail⟩
        next differs =>
          refine List.pairwise_cons.2 ⟨?_, ih tail⟩
          intro member later
          rcases mem_insertMember later with rfl | later
          · apply Decidable.of_not_not
            intro notAbove
            exact differs (String.le_antisymm (String.not_lt.1 notAbove) (String.not_lt.1 notLess))
          · exact above member later

theorem rising_insertAll (added : List (String × Json)) {members : List (String × Json)}
    (rising : Rising members) :
    Rising (added.foldl (fun kept m => insertMember m.1 m.2 kept) members) := by
  induction added generalizing members with
  | nil => exact rising
  | cons first rest ih => exact ih (rising.insertMember _ _)

theorem mem_insertAll {added members : List (String × Json)} {member : String × Json}
    (h : member ∈ added.foldl (fun kept m => insertMember m.1 m.2 kept) members) :
    member ∈ added ∨ member ∈ members := by
  induction added generalizing members with
  | nil => exact .inr h
  | cons first rest ih =>
      rcases ih h with later | held
      · exact .inl (List.mem_cons_of_mem _ later)
      · rcases mem_insertMember held with new | old
        · exact .inl (new ▸ List.mem_cons_self)
        · exact .inr old

theorem ordered_ofMembers {members : List (String × Json)}
    (inner : ∀ member ∈ members, Ordered member.2) : Ordered (ofMembers members) := by
  refine .record (rising_insertAll members .nil) ?_
  intro member held
  rcases mem_insertAll held with added | impossible
  · exact inner member added
  · cases impossible

/-! ## Reading -/

mutual

theorem Outline.ordered_value : ∀ (outline : Outline) {v : Json},
    outline.value = .ok v → v.Ordered
  | .null, _, read => by
      cases read
      exact .null
  | .flag b, _, read => by
      cases read
      exact .flag b
  | .number n, _, read => by
      cases read
      exact .number n
  | .text s, _, read => by
      cases read
      exact .text s
  | .list items close, _, read => by
      rw [Outline.value, bind_eq_ok] at read
      obtain ⟨values, known, read⟩ := read
      cases close with
      | some flaw => cases read
      | none =>
          cases read
          exact .list (Outline.ordered_itemValues items known)
  | .record members close, _, read => by
      rw [Outline.value, bind_eq_ok] at read
      obtain ⟨values, known, read⟩ := read
      cases close with
      | some flaw => cases read
      | none =>
          cases read
          exact ordered_ofMembers (Outline.ordered_memberValues members known)
  | .broken _, _, read => by cases read
  | .suspect _ _, _, read => by cases read

theorem Outline.ordered_itemValues : ∀ (items : List Outline) {values : List Json},
    Outline.itemValues items = .ok values → ∀ v ∈ values, v.Ordered
  | [], _, read, _, held => by
      cases read
      cases held
  | item :: rest, _, read, v, held => by
      simp only [Outline.itemValues, bind_eq_ok] at read
      obtain ⟨value, first, others, later, made⟩ := read
      cases made
      rcases List.mem_cons.1 held with rfl | held
      · exact Outline.ordered_value item first
      · exact Outline.ordered_itemValues rest later v held

theorem Outline.ordered_memberValues : ∀ (members : List (Except Flaw String × Outline))
    {values : List (String × Json)},
    Outline.memberValues members = .ok values → ∀ member ∈ values, member.2.Ordered
  | [], _, read, _, held => by
      cases read
      cases held
  | (_, outline) :: rest, _, read, member, held => by
      simp only [Outline.memberValues, bind_eq_ok] at read
      obtain ⟨name, _, value, first, others, later, made⟩ := read
      cases made
      rcases List.mem_cons.1 held with rfl | held
      · exact Outline.ordered_value outline first
      · exact Outline.ordered_memberValues rest later member held

end

/-- Names rise in every record of a value that was read. -/
theorem ordered_of_read {s : String} {v : Json} (h : read s = .ok v) : v.Ordered := by
  unfold read readChars at h
  cases scanned : Outline.ofChars s.toList with
  | mk outline tail =>
      simp only [scanned] at h
      cases value : outline.value with
      | error flaw =>
          rw [value] at h
          cases tail <;> cases h
      | ok w =>
          rw [value] at h
          cases tail with
          | some flaw => cases h
          | none =>
              cases h
              exact Outline.ordered_value outline value

end Tape.Json
