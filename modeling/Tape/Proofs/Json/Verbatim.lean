import Tape.Proofs.Json.Names
import Tape.Proofs.Json.ReadBack

/-!
# Values that are read as they were written

A reader puts the members of a record in the order of their names, and has nothing for a number
that is not finite. A value whose records are in that order already, and without such numbers, is
read from its written form as it was.
-/

namespace Tape.Json

variable {depth : Nat}

/-! ## Records whose names rise -/

/-- A member whose name comes after all others is put at the end. -/
theorem insertMember_of_above {name : String} {value : Json} {members : List (String × Json)}
    (above : ∀ member ∈ members, member.1 < name) :
    insertMember name value members = members ++ [(name, value)] := by
  induction members with
  | nil => rfl
  | cons first rest ih =>
      obtain ⟨other, old⟩ := first
      obtain ⟨less, later⟩ := List.forall_mem_cons.1 above
      have apart : name ≠ other := by
        rintro rfl
        exact String.lt_irrefl _ less
      rw [insertMember, if_neg (String.lt_asymm less), if_neg apart, ih later, List.cons_append]

/-- The members that are there already and those that are put to them keep their places. -/
theorem insertAll_of_rising {kept added : List (String × Json)} (rising : Rising (kept ++ added)) :
    added.foldl (fun kept member => insertMember member.1 member.2 kept) kept = kept ++ added := by
  induction added generalizing kept with
  | nil => rw [List.foldl_nil, List.append_nil]
  | cons first rest ih =>
      have above : ∀ member ∈ kept, member.1 < first.1 := fun member held =>
        (List.pairwise_append.1 rising).2.2 member held first List.mem_cons_self
      rw [List.append_cons] at rising ⊢
      rw [List.foldl_cons, insertMember_of_above above]
      exact ih rising

theorem rising_of_names (names : List String) {members : List (String × Json)}
    (named : members.map Prod.fst = names) (rising : names.Pairwise (· < ·)) : Rising members := by
  rw [← named] at rising
  exact List.pairwise_map.1 rising

theorem ofMembers_of_rising {members : List (String × Json)} (rising : Rising members) :
    ofMembers members = .record members :=
  congrArg Json.record (insertAll_of_rising rising)

/-! ## Outlines that hold their value -/

theorem itemValues_outline {items : List Json}
    (inner : ∀ item ∈ items, item.outline.value = .ok item) :
    Outline.itemValues (items.map outline) = .ok items := by
  induction items with
  | nil => rfl
  | cons item rest ih =>
      obtain ⟨first, later⟩ := List.forall_mem_cons.1 inner
      rw [List.map_cons, Outline.itemValues, first, ih later]
      rfl

theorem memberValues_outline {members : List (String × Json)}
    (inner : ∀ member ∈ members, member.2.outline.value = .ok member.2) :
    Outline.memberValues (members.map fun m => (.ok m.1, outline m.2)) = .ok members := by
  induction members with
  | nil => rfl
  | cons member rest ih =>
      obtain ⟨first, later⟩ := List.forall_mem_cons.1 inner
      rw [List.map_cons, Outline.memberValues, first, ih later]
      rfl

/-- A value with containers at most so deep whose written form stands for the value itself. -/
structure Verbatim (depth : Nat) (v : Json) : Prop where
  legible : Legible depth v
  kept : v.outline.value = .ok v

namespace Verbatim

theorem flag (depth : Nat) (b : Bool) : Verbatim depth (.flag b) := ⟨.flag depth b, rfl⟩

theorem nat (depth : Nat) {n : Nat} (fits : n < significandBound) : Verbatim depth (.nat n) :=
  ⟨.nat depth n fits, rfl⟩

theorem text (depth : Nat) (s : String) : Verbatim depth (.text s) := ⟨.text depth s, rfl⟩

theorem list {items : List Json} (inner : ∀ item ∈ items, Verbatim depth item) :
    Verbatim (depth + 1) (.list items) where
  legible := .list fun item member => (inner item member).legible
  kept := by
    rw [outline, itemOutlines_eq_map, Outline.value,
      itemValues_outline fun item member => (inner item member).kept]
    rfl

theorem record {members : List (String × Json)} (rising : Rising members)
    (inner : ∀ member ∈ members, Verbatim depth member.2) :
    Verbatim (depth + 1) (.record members) where
  legible := .record fun member held => (inner member held).legible
  kept := by
    rw [outline, memberOutlines_eq_map, Outline.value,
      memberValues_outline fun member held => (inner member held).kept]
    exact congrArg Except.ok (ofMembers_of_rising rising)

/-- The text of a value is read as the value. -/
theorem read_render {v : Json} (verbatim : Verbatim (depthLimit - 1) v) :
    read v.render = .ok v := by
  rw [read, readChars_eq_ok, ofChars_chars verbatim.legible]
  exact ⟨verbatim.kept, rfl⟩

end Verbatim

end Tape.Json
