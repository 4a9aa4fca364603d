import Tape.Proofs.Json.Names
import Tape.Schema.Record

/-!
# Reading plain record types from JSON

A record type is plain when each field has one name, its value depends on nothing but what stands
under those names, and it is built only when every field that is there passes its check. Then
reading a JSON record is building from its members, in whatever order they stand.
-/

namespace Tape.Schema

theorem Field.answersTo_iff {ν : Type} {f : Field ν} (oneName : f.otherName = none)
    (name : String) : f.answersTo name = true ↔ f.name = name := by
  simp [Field.answersTo, oneName]

theorem Field.name_of_find? {ν : Type} {fields : List (Field ν)}
    (oneName : ∀ f ∈ fields, f.otherName = none) {name : String} {field : Field ν}
    (asked : (fields.find? fun f => f.answersTo name) = some field) :
    field ∈ fields ∧ field.name = name := by
  have member := List.mem_of_find?_eq_some asked
  have answers : field.answersTo name = true :=
    @List.find?_some _ (fun f : Field ν => f.answersTo name) _ _ asked
  exact ⟨member, (Field.answersTo_iff (oneName field member) name).1 answers⟩

namespace Record

variable {ν α β : Type}

theorem lookup_nil (name : String) : lookup ([] : List (String × ν)) name = none := rfl

theorem lookup_cons_self (name : String) (v : ν) (found : List (String × ν)) :
    lookup ((name, v) :: found) name = some v := by
  simp [lookup]

theorem lookup_cons_of_ne {name other : String} (differs : other ≠ name) (v : ν)
    (found : List (String × ν)) : lookup ((other, v) :: found) name = lookup found name := by
  simp [lookup, differs]

structure Plain (r : Record ν α) : Prop where
  oneName : ∀ f ∈ r.fields, f.otherName = none
  agrees : ∀ {find other : String → Option ν} {absent : String → Fault},
    (∀ f ∈ r.fields, find f.name = other f.name) → r.build find absent = r.build other absent
  checked : ∀ {find : String → Option ν} {absent : String → Fault} {a : α},
    r.build find absent = .ok a → ∀ f ∈ r.fields, ∀ v, find f.name = some v → f.check v = .ok ()

/-! ## Building plain record types -/

theorem plain_pure (a : α) : (pure a : Record ν α).Plain where
  oneName := by
    intro f member
    cases member
  agrees := by
    intro find other absent same
    rfl
  checked := by
    intro find absent b built f member
    cases member

theorem seq_build_eq_ok {f : Record ν (α → β)} {r : Record ν α} {find : String → Option ν}
    {absent : String → Fault} {b : β} :
    (f <*> r).build find absent = .ok b ↔
      ∃ g a, f.build find absent = .ok g ∧ r.build find absent = .ok a ∧ g a = b := by
  change (f.build find absent >>= fun g => r.build find absent >>= fun a => pure (g a)) = .ok b ↔ _
  simp only [bind_eq_ok]
  constructor
  · rintro ⟨g, first, a, second, made⟩
    cases made
    exact ⟨g, a, first, second, rfl⟩
  · rintro ⟨g, a, first, second, rfl⟩
    exact ⟨g, first, a, second, rfl⟩

theorem map_build_eq_ok {g : α → β} {r : Record ν α} {find : String → Option ν}
    {absent : String → Fault} {b : β} :
    (g <$> r).build find absent = .ok b ↔ ∃ a, r.build find absent = .ok a ∧ g a = b := by
  change ((pure g : Record ν (α → β)) <*> r).build find absent = .ok b ↔ _
  rw [seq_build_eq_ok]
  constructor
  · rintro ⟨h, a, first, built, made⟩
    cases first
    exact ⟨a, built, made⟩
  · rintro ⟨a, built, made⟩
    exact ⟨g, a, rfl, built, made⟩

theorem Plain.seq {f : Record ν (α → β)} {r : Record ν α} (hf : f.Plain) (hr : r.Plain) :
    (f <*> r).Plain where
  oneName := by
    intro field member
    rcases List.mem_append.1 member with left | right
    · exact hf.oneName field left
    · exact hr.oneName field right
  agrees := by
    intro find other absent same
    have left : f.build find absent = f.build other absent :=
      hf.agrees fun field member => same field (List.mem_append_left _ member)
    have right : r.build find absent = r.build other absent :=
      hr.agrees fun field member => same field (List.mem_append_right _ member)
    change (f.build find absent >>= fun g => r.build find absent >>= fun a => pure (g a)) =
      (f.build other absent >>= fun g => r.build other absent >>= fun a => pure (g a))
    rw [left, right]
  checked := by
    intro find absent b built field member v present
    obtain ⟨g, a, first, second, _⟩ := seq_build_eq_ok.1 built
    rcases List.mem_append.1 member with left | right
    · exact hf.checked first field left v present
    · exact hr.checked second field right v present

theorem Plain.map {r : Record ν α} (hr : r.Plain) (g : α → β) : (g <$> r).Plain :=
  (plain_pure g).seq hr

theorem checkOf_eq_ok {read : ν → Except Fault α} {v : ν} {a : α} (h : read v = .ok a) :
    checkOf read v = .ok () := by
  rw [checkOf, h]
  rfl

theorem plain_optional (name : String) (default : α) (read : ν → Except Fault α) :
    (optional name default read).Plain where
  oneName := by
    intro f member
    rw [List.mem_singleton.1 member]
  agrees := by
    intro find other absent same
    have here := same _ List.mem_cons_self
    simp only [optional] at here ⊢
    rw [here]
  checked := by
    intro find absent a built f member v present
    rw [List.mem_singleton.1 member] at present ⊢
    simp only [optional, present] at built
    exact checkOf_eq_ok built

theorem plain_required (name : String) (read : ν → Except Fault α) :
    (required name read).Plain where
  oneName := by
    intro f member
    rw [List.mem_singleton.1 member]
  agrees := by
    intro find other absent same
    have here := same _ List.mem_cons_self
    simp only [required] at here ⊢
    rw [here]
  checked := by
    intro find absent a built f member v present
    rw [List.mem_singleton.1 member] at present ⊢
    simp only [required, present] at built
    exact checkOf_eq_ok built

/-- What is read is built from what was found under the names of the fields. -/
theorem exists_found_of_read [Document ν] {r : Record ν α} {typeName : String} {v : ν} {a : α}
    (h : r.read typeName v = .ok a) :
    ∃ found absent, r.build (lookup found) absent = .ok a ∧
      ((∃ members close, Document.fields typeName v = .ok (.named members close) ∧
          gather r.fields [] members = .ok found) ∨
        ∃ items close, Document.fields typeName v = .ok (.positional items close) ∧
          assign r.fields items = .ok found) := by
  rw [read, bind_eq_ok] at h
  obtain ⟨written, shape, h⟩ := h
  cases written with
  | named members close =>
      simp only [bind_eq_ok] at h
      obtain ⟨found, gathered, _, _, built⟩ := h
      exact ⟨found, _, built, .inl ⟨members, close, shape, gathered⟩⟩
  | positional items close =>
      simp only [bind_eq_ok] at h
      obtain ⟨found, assigned, h⟩ := h
      have tail : (r.build (lookup found) (tooShort typeName r.fields) >>= fun b =>
          if r.fields.length < items.length then Document.surplus ν items.length >>= fun _ => pure b
          else closed close >>= fun _ => pure b) = .ok a := by
        split at h
        · obtain ⟨_, _, h⟩ := bind_eq_ok.1 h
          exact h
        · exact h
      obtain ⟨b, built, kept⟩ := bind_eq_ok.1 tail
      have same : b = a := by
        split at kept
        · obtain ⟨_, _, same⟩ := bind_eq_ok.1 kept
          cases same
          rfl
        · obtain ⟨_, _, same⟩ := bind_eq_ok.1 kept
          cases same
          rfl
      exact ⟨found, _, same ▸ built, .inr ⟨items, close, shape, assigned⟩⟩

theorem exists_build_of_read [Document ν] {r : Record ν α} {typeName : String} {v : ν} {a : α}
    (h : r.read typeName v = .ok a) : ∃ find absent, r.build find absent = .ok a := by
  obtain ⟨found, absent, built, _⟩ := exists_found_of_read h
  exact ⟨lookup found, absent, built⟩

/-! ## Gathering members -/

/-- The members of a JSON record as a reader sees them. -/
def named (members : List (String × Json)) : List (Except Fault String × Json) :=
  members.map fun m => (.ok m.1, m.2)

variable {fields : List (Field Json)}

theorem gather_named_cons (found : List (String × Json)) (name : String) (v : Json)
    (rest : List (String × Json)) :
    gather fields found (named ((name, v) :: rest)) =
      match fields.find? fun f => f.answersTo name with
      | none => gather fields found (named rest)
      | some f =>
          if (lookup found f.name).isSome then .error (.mismatch (.duplicateField f.name))
          else f.check v >>= fun _ => gather fields ((f.name, v) :: found) (named rest) := by
  show gather fields found ((.ok name, v) :: named rest) = _
  rw [gather]
  simp only [bind, Except.bind]
  cases fields.find? fun f => f.answersTo name with
  | none => rfl
  | some f => rfl

/-- What is gathered lists, for each field, the member of its name. -/
theorem lookup_gather (oneName : ∀ f ∈ fields, f.otherName = none)
    {found result : List (String × Json)} {members : List (String × Json)}
    (gathered : gather fields found (named members) = .ok result) :
    ∀ f ∈ fields, lookup result f.name = (lookup found f.name).or (Json.find? f.name members) := by
  induction members generalizing found with
  | nil =>
      cases gathered
      intro f member
      rw [Json.find?, Option.or_none]
  | cons first rest ih =>
      obtain ⟨name, v⟩ := first
      rw [gather_named_cons] at gathered
      intro f member
      rw [Json.find?]
      split at gathered
      next unasked =>
        have differs : name ≠ f.name := by
          intro same
          have unanswered := List.find?_eq_none.1 unasked f member
          exact unanswered ((Field.answersTo_iff (oneName f member) name).2 same.symm)
        rw [if_neg differs]
        exact ih gathered f member
      next field asked =>
        obtain ⟨_, rfl⟩ := Field.name_of_find? oneName asked
        split at gathered
        next => cases gathered
        next fresh =>
          obtain ⟨_, _, later⟩ := bind_eq_ok.1 gathered
          rw [ih later f member]
          by_cases same : field.name = f.name
          · rw [if_pos same, same, lookup_cons_self, ← same, Option.not_isSome_iff_eq_none.1 fresh]
            rfl
          · rw [if_neg same, lookup_cons_of_ne same]

/-- Members of rising names are gathered when all that are asked for pass their checks. -/
theorem gather_of_checks (oneName : ∀ f ∈ fields, f.otherName = none)
    {found : List (String × Json)} {members : List (String × Json)} (rising : Json.Rising members)
    (fresh : ∀ member ∈ members, lookup found member.1 = none)
    (checks : ∀ f ∈ fields, ∀ v, Json.find? f.name members = some v → f.check v = .ok ()) :
    ∃ result, gather fields found (named members) = .ok result := by
  induction members generalizing found with
  | nil => exact ⟨found, rfl⟩
  | cons first rest ih =>
      obtain ⟨name, v⟩ := first
      have later : ∀ f ∈ fields, ∀ w, Json.find? f.name rest = some w → f.check w = .ok () := by
        intro f member w present
        refine checks f member w ?_
        rw [Json.find?, if_neg (rising.ne (Json.mem_of_find?_eq_some present)), present]
      rw [gather_named_cons]
      split
      next => exact ih rising.tail (fun m held => fresh m (List.mem_cons_of_mem _ held)) later
      next field asked =>
        obtain ⟨member, rfl⟩ := Field.name_of_find? oneName asked
        have passed := checks field member v (by rw [Json.find?, if_pos rfl])
        rw [fresh _ List.mem_cons_self, passed]
        refine ih rising.tail ?_ later
        intro m held
        rw [lookup_cons_of_ne (rising.ne held)]
        exact fresh m (List.mem_cons_of_mem _ held)

/-- Building from what was gathered is building from the members. -/
theorem Plain.build_of_gather {r : Record Json α} (plain : r.Plain)
    {members found : List (String × Json)}
    (gathered : gather r.fields [] (named members) = .ok found) (absent : String → Fault) :
    r.build (lookup found) absent = r.build (fun name => Json.find? name members) absent := by
  apply plain.agrees
  intro f member
  rw [lookup_gather plain.oneName gathered f member, lookup_nil, Option.none_or]

/-- Reading a record of rising names is building from its members. -/
theorem Plain.read_record {r : Record Json α} (plain : r.Plain) {members : List (String × Json)}
    (rising : Json.Rising members) (typeName : String) (a : α) :
    r.read typeName (.record members) = .ok a ↔
      r.build (fun name => Json.find? name members) (fun name => .mismatch (.missingField name)) =
        .ok a := by
  change (gather r.fields [] (named members) >>= fun found =>
    r.build (lookup found) fun name => .mismatch (.missingField name)) = .ok a ↔ _
  rw [bind_eq_ok]
  constructor
  · rintro ⟨found, gathered, built⟩
    rw [← plain.build_of_gather gathered]
    exact built
  · intro built
    obtain ⟨found, gathered⟩ := gather_of_checks plain.oneName rising
      (fun member _ => lookup_nil member.1) (plain.checked built)
    refine ⟨found, gathered, ?_⟩
    rw [plain.build_of_gather gathered]
    exact built

end Record

end Tape.Schema
