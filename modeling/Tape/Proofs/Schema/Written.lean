import Tape.Proofs.Schema.Plain

/-!
# Record types as they are written

A value of a record type is written as a record, whose members stand for the fields of their names,
or as a list, whose items stand for the fields in their places. A plain record type is read from a
value exactly when it can be built from what stands for its fields.
-/

namespace Tape.Schema.Record

variable {α : Type} {r : Record Json α} {fields : List (Field Json)} {typeName : String}

/-- What stands for the fields of a record type. -/
inductive Written (names : List String) : Json → (String → Option Json) → Prop where
  | record (members : List (String × Json)) :
      Written names (.record members) fun name => Json.find? name members
  | list (items : List Json) (fits : items.length ≤ names.length) :
      Written names (.list items) fun name => items[names.idxOf name]?

/-! ## Items in their places -/

theorem assign_eq_ok {items : List Json} {found : List (String × Json)} :
    assign fields items = .ok found ↔
      (∀ entry ∈ fields.zip items, entry.1.check entry.2 = .ok ()) ∧
        found = (fields.zip items).map fun entry => (entry.1.name, entry.2) := by
  rw [assign]
  generalize fields.zip items = entries
  induction entries generalizing found with
  | nil =>
      rw [List.mapM_nil]
      constructor
      · intro made
        cases made
        exact ⟨fun _ member => (List.not_mem_nil member).elim, rfl⟩
      · rintro ⟨_, rfl⟩
        rfl
  | cons entry rest ih =>
      simp only [List.mapM_cons, bind_eq_ok, List.forall_mem_cons, List.map_cons]
      constructor
      · rintro ⟨_, ⟨⟨⟩, checked, same⟩, tail, later, made⟩
        cases same
        cases made
        obtain ⟨checks, rfl⟩ := ih.1 later
        exact ⟨⟨checked, checks⟩, rfl⟩
      · rintro ⟨⟨checked, checks⟩, rfl⟩
        exact ⟨_, ⟨(), checked, rfl⟩, _, ih.2 ⟨checks, rfl⟩, rfl⟩

theorem lookup_zip {fields : List (Field Json)} {field : Field Json} (member : field ∈ fields)
    (items : List Json) :
    lookup ((fields.zip items).map fun entry => (entry.1.name, entry.2)) field.name =
      items[(fields.map Field.name).idxOf field.name]? := by
  induction fields generalizing items with
  | nil => cases member
  | cons first others ih =>
      cases items with
      | nil => rfl
      | cons item rest =>
          rw [List.zip_cons_cons, List.map_cons, List.map_cons]
          by_cases same : first.name = field.name
          · rw [same, lookup_cons_self, List.idxOf_cons_self]
            rfl
          · have place : (first.name :: others.map Field.name).idxOf field.name =
                (others.map Field.name).idxOf field.name + 1 := by
              rw [List.idxOf_cons, beq_false_of_ne same, cond_false]
            rw [lookup_cons_of_ne same, place, List.getElem?_cons_succ]
            have later : field ∈ others := by
              rcases List.mem_cons.1 member with rfl | later
              · exact absurd rfl same
              · exact later
            exact ih later rest

/-- With distinct names, each item is the one in the place of its field. -/
theorem getElem?_of_mem_zip (distinct : (fields.map Field.name).Nodup) {items : List Json}
    {field : Field Json} {item : Json} (member : (field, item) ∈ fields.zip items) :
    items[(fields.map Field.name).idxOf field.name]? = some item := by
  induction fields generalizing items with
  | nil => cases member
  | cons first others ih =>
      cases items with
      | nil => cases member
      | cons head rest =>
          rw [List.map_cons] at distinct ⊢
          obtain ⟨fresh, distinct⟩ := List.nodup_cons.1 distinct
          rw [List.zip_cons_cons] at member
          rcases List.mem_cons.1 member with same | later
          · cases same
            rw [List.idxOf_cons_self]
            rfl
          · have differs : first.name ≠ field.name := by
              intro same
              rw [same] at fresh
              exact fresh (List.mem_map_of_mem (List.of_mem_zip later).1)
            rw [List.idxOf_cons, beq_false_of_ne differs, cond_false, List.getElem?_cons_succ]
            exact ih distinct later

/-- A list with more items than the type has fields is not read. -/
theorem length_le_of_read_list {items : List Json} {a : α}
    (read : r.read typeName (.list items) = .ok a) : items.length ≤ r.fields.length := by
  refine Nat.le_of_not_lt fun surplus => ?_
  change (assign r.fields items >>= fun found =>
    if items.length < r.fields.length then _ else _) = .ok a at read
  obtain ⟨found, _, read⟩ := bind_eq_ok.1 read
  rw [if_neg (Nat.not_lt_of_lt surplus)] at read
  obtain ⟨_, _, read⟩ := bind_eq_ok.1 read
  rw [if_pos surplus] at read
  cases read

/-! ## Reading -/

/-- What is read of a plain record type is built from what stands for its fields. -/
theorem Plain.exists_written_of_read (plain : r.Plain) {v : Json} {a : α}
    (read : r.read typeName v = .ok a) :
    ∃ find absent, Written (r.fields.map Field.name) v find ∧ r.build find absent = .ok a := by
  obtain ⟨found, absent, built, made⟩ := exists_found_of_read read
  rcases made with ⟨members, close, shape, gathered⟩ | ⟨items, close, shape, assigned⟩
  · cases v with
    | record written =>
        cases shape
        rw [plain.build_of_gather gathered] at built
        exact ⟨_, absent, .record written, built⟩
    | list items => cases shape
    | null => cases shape
    | flag b => cases shape
    | number n => cases shape
    | text s => cases shape
  · cases v with
    | list written =>
        cases shape
        have fits : items.length ≤ (r.fields.map Field.name).length := by
          rw [List.length_map]
          exact length_le_of_read_list read
        refine ⟨_, absent, .list items fits, ?_⟩
        rw [← built, (assign_eq_ok.1 assigned).2]
        exact plain.agrees fun f member => (lookup_zip member items).symm
    | record members => cases shape
    | null => cases shape
    | flag b => cases shape
    | number n => cases shape
    | text s => cases shape

/-- A plain record type is read from what stands for its fields, when it is built from that. -/
theorem Plain.read_of_written (plain : r.Plain) (distinct : (r.fields.map Field.name).Nodup)
    {v : Json} (ordered : v.Ordered) {find : String → Option Json}
    (written : Written (r.fields.map Field.name) v find) :
    ∃ absent, ∀ {a : α}, r.build find absent = .ok a → r.read typeName v = .ok a := by
  cases written with
  | record members => exact ⟨_, fun built => (plain.read_record ordered.rising typeName _).2 built⟩
  | list items fits =>
      rw [List.length_map] at fits
      refine ⟨tooShort typeName r.fields, fun {a} built => ?_⟩
      have assigned : assign r.fields items =
          .ok ((r.fields.zip items).map fun entry => (entry.1.name, entry.2)) := by
        refine assign_eq_ok.2 ⟨?_, rfl⟩
        rintro ⟨field, item⟩ member
        exact plain.checked built field (List.of_mem_zip member).1 item
          (getElem?_of_mem_zip distinct member)
      have built' : r.build (lookup ((r.fields.zip items).map fun entry =>
          (entry.1.name, entry.2))) (tooShort typeName r.fields) = .ok a := by
        rw [← built]
        exact plain.agrees fun f member => lookup_zip member items
      change (assign r.fields items >>= fun found =>
        if items.length < r.fields.length then _ else _) = .ok a
      rw [assigned]
      show (if items.length < r.fields.length then _ else _) = _
      split
      all_goals
        rw [built']
        show (if r.fields.length < items.length then _ else _) = _
        rw [if_neg (Nat.not_lt_of_le fits)]
        rfl

end Tape.Schema.Record
