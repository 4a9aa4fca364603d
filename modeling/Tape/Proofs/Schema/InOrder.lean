import Mathlib.Data.List.Nodup
import Tape.Proofs.Schema.Plain

/-!
# Record types read from their own members

When the members of a record are the fields of its type, each once, nothing is passed over and
nothing is missing: the value is read exactly when it is built from the members.
-/

namespace Tape.Schema.Record

variable {ν α : Type} {name : String}

/-! ## Looking members up -/

theorem lookup_of_mem {members : List (String × ν)} (apart : (members.map Prod.fst).Nodup) {v : ν}
    (member : (name, v) ∈ members) : lookup members name = some v := by
  induction members with
  | nil => cases member
  | cons first rest ih =>
      obtain ⟨fresh, apart⟩ := List.nodup_cons.1 apart
      rcases List.mem_cons.1 member with same | later
      · subst same
        exact lookup_cons_self name v rest
      · have differs : first.1 ≠ name := by
          intro same
          exact fresh (same ▸ List.mem_map_of_mem later)
        rw [← ih apart later]
        exact lookup_cons_of_ne differs first.2 rest

/-- With distinct names the order of members does not matter. -/
theorem lookup_reverse {members : List (String × ν)} (apart : (members.map Prod.fst).Nodup)
    (known : name ∈ members.map Prod.fst) : lookup members.reverse name = lookup members name := by
  obtain ⟨⟨_, v⟩, member, rfl⟩ := List.mem_map.1 known
  have turned : (members.reverse.map Prod.fst).Nodup := by
    rw [List.map_reverse]
    exact List.nodup_reverse.2 apart
  rw [lookup_of_mem apart member, lookup_of_mem turned (List.mem_reverse.2 member)]

/-! ## Reading -/

variable [Document ν] {fields : List (Field ν)}

/-- The members of a record as a reader sees them. -/
def seen (members : List (String × ν)) : List (Except Fault String × ν) :=
  members.map fun m => (.ok m.1, m.2)

theorem gather_seen_cons (oneName : ∀ f ∈ fields, f.otherName = none)
    (distinct : (fields.map Field.name).Nodup) {field : Field ν} (asked : field ∈ fields) {v : ν}
    {found : List (String × ν)} (fresh : lookup found field.name = none)
    (rest : List (String × ν)) :
    gather fields found (seen ((field.name, v) :: rest)) =
      field.check v >>= fun _ => gather fields ((field.name, v) :: found) (seen rest) := by
  have own : fields.find? (fun f => f.answersTo field.name) = some field := by
    cases answer : fields.find? fun f => f.answersTo field.name with
    | none =>
        exact absurd ((Field.answersTo_iff (oneName field asked) _).2 rfl)
          (List.find?_eq_none.1 answer field asked)
    | some other =>
        obtain ⟨member, same⟩ := Field.name_of_find? oneName answer
        rw [List.inj_on_of_nodup_map distinct member asked same]
  show gather fields found ((.ok field.name, v) :: seen rest) = _
  rw [gather]
  simp only [bind, Except.bind, own, fresh]
  rfl

/-- All members are gathered exactly when each passes the check of its field. -/
theorem gather_seen_eq_ok (oneName : ∀ f ∈ fields, f.otherName = none)
    (distinct : (fields.map Field.name).Nodup) {members found result : List (String × ν)}
    (asked : ∀ m ∈ members, m.1 ∈ fields.map Field.name) (apart : (members.map Prod.fst).Nodup)
    (fresh : ∀ m ∈ members, lookup found m.1 = none) :
    gather fields found (seen members) = .ok result ↔
      (∀ m ∈ members, ∀ f ∈ fields, f.name = m.1 → f.check m.2 = .ok ()) ∧
        result = members.reverse ++ found := by
  induction members generalizing found with
  | nil =>
      rw [List.reverse_nil, List.nil_append]
      constructor
      · intro gathered
        cases gathered
        exact ⟨fun _ member => (List.not_mem_nil member).elim, rfl⟩
      · rintro ⟨_, rfl⟩
        rfl
  | cons first rest ih =>
      obtain ⟨name, v⟩ := first
      obtain ⟨field, member, rfl⟩ := List.mem_map.1 (asked _ List.mem_cons_self)
      obtain ⟨alone, apart⟩ := List.nodup_cons.1 apart
      have still : ∀ m ∈ rest, lookup ((field.name, v) :: found) m.1 = none := by
        intro m held
        have differs : field.name ≠ m.1 := fun same =>
          alone (List.mem_map.2 ⟨m, held, same.symm⟩)
        rw [lookup_cons_of_ne differs]
        exact fresh m (List.mem_cons_of_mem _ held)
      have later := ih (fun m held => asked m (List.mem_cons_of_mem _ held)) apart still
      rw [gather_seen_cons oneName distinct member (fresh _ List.mem_cons_self), bind_eq_ok,
        List.forall_mem_cons, List.reverse_cons, List.append_assoc, List.singleton_append,
        and_assoc]
      constructor
      · rintro ⟨_, checked, gathered⟩
        refine ⟨fun f held same => ?_, later.1 gathered⟩
        rw [List.inj_on_of_nodup_map distinct held member same]
        exact checked
      · rintro ⟨checked, others⟩
        exact ⟨(), checked field member rfl, later.2 others⟩

/-- A value whose members are the fields of its type is read exactly when it is built from them. -/
theorem Plain.read_members {r : Record ν α} (plain : r.Plain)
    (distinct : (r.fields.map Field.name).Nodup) {members : List (String × ν)}
    (names : members.map Prod.fst = r.fields.map Field.name) {typeName : String} {v : ν}
    (shape : Document.fields typeName v = .ok (.named (seen members) none)) (a : α) :
    r.read typeName v = .ok a ↔
      r.build (lookup members) (fun name => .mismatch (.missingField name)) = .ok a := by
  have apart : (members.map Prod.fst).Nodup := names ▸ distinct
  have gathers : ∀ result, gather r.fields [] (seen members) = .ok result ↔
      (∀ m ∈ members, ∀ f ∈ r.fields, f.name = m.1 → f.check m.2 = .ok ()) ∧
        result = members.reverse ++ [] := fun _ =>
    gather_seen_eq_ok plain.oneName distinct (fun m member => names ▸ List.mem_map_of_mem member)
      apart fun m _ => lookup_nil m.1
  have turned : r.build (lookup (members.reverse ++ []))
      (fun name => .mismatch (.missingField name)) =
        r.build (lookup members) fun name => .mismatch (.missingField name) := by
    rw [List.append_nil]
    exact plain.agrees fun f member =>
      lookup_reverse apart (names ▸ List.mem_map_of_mem member)
  rw [Record.read, shape]
  show (gather r.fields [] (seen members) >>= fun found =>
    r.build (lookup found) fun name => .mismatch (.missingField name)) = .ok a ↔ _
  rw [bind_eq_ok]
  constructor
  · rintro ⟨found, gathered, built⟩
    obtain ⟨_, rfl⟩ := (gathers found).1 gathered
    rw [← turned]
    exact built
  · intro built
    refine ⟨members.reverse ++ [], (gathers _).2 ⟨?_, rfl⟩, turned.trans built⟩
    intro m member f held same
    refine plain.checked built f held m.2 ?_
    rw [same]
    exact lookup_of_mem apart member

end Tape.Schema.Record
