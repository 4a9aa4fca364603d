import Mathlib.Logic.Relator
import Tape.Proofs.Json.Paths
import Tape.Proofs.Schema.Plain

/-!
# Reading changed records

Two readings agree up to a relation when they fail with the same error or give values that stand in
the relation. A record type respects a change of members when it reads the changed record like the
one before; that follows field by field, from checks that come out the same and related values.
-/

namespace Tape

open scoped Relator

/-- The same error twice, or two related values. -/
inductive AgreeUpTo {ε α : Type} (related : α → α → Prop) : Except ε α → Except ε α → Prop where
  | error (e : ε) : AgreeUpTo related (.error e) (.error e)
  | ok {a b : α} (holds : related a b) : AgreeUpTo related (.ok a) (.ok b)

namespace AgreeUpTo

variable {ε α β : Type} {related : α → α → Prop} {x y : Except ε α}

theorem refl (same : ∀ a, related a a) (x : Except ε α) : AgreeUpTo related x x := by
  cases x with
  | error e => exact .error e
  | ok a => exact .ok (same a)

theorem bind {others : β → β → Prop} {f g : α → Except ε β} (agree : AgreeUpTo related x y)
    (next : (related ⇒ AgreeUpTo others) f g) : AgreeUpTo others (x >>= f) (y >>= g) := by
  cases agree with
  | error e => exact .error e
  | ok holds => exact next holds

theorem bind_eq {f g : α → Except ε β} (agree : AgreeUpTo related x y)
    (next : (related ⇒ Eq) f g) : (x >>= f) = (y >>= g) := by
  cases agree with
  | error e => rfl
  | ok holds => exact next holds

theorem map_eq {f : α → β} (agree : AgreeUpTo related x y)
    (next : (related ⇒ Eq) f f) : x.map f = y.map f := by
  cases agree with
  | error e => rfl
  | ok holds => exact congrArg Except.ok (next holds)

theorem mapError {ε' : Type} (agree : AgreeUpTo related x y) (f : ε → ε') :
    AgreeUpTo related (x.mapError f) (y.mapError f) := by
  cases agree with
  | error e => exact .error (f e)
  | ok holds => exact .ok holds

end AgreeUpTo

namespace Schema.Record

open Json (changeMembers)

variable {α β : Type} {change : String → Json → Json}

/-- Whether a member is changed or not, its check comes out the same, and what is built from changed
members is built like what is built from the members before. -/
structure Respects (change : String → Json → Json) (related : α → α → Prop)
    (r : Record Json α) : Prop where
  oneName : ∀ f ∈ r.fields, f.otherName = none
  checks : ∀ f ∈ r.fields, ∀ v, f.check (change f.name v) = f.check v
  builds : ∀ (find : String → Option Json) (absent : String → Fault),
    AgreeUpTo related (r.build find absent) (r.build (fun name => (find name).map (change name)) absent)

/-! ## Building record types that respect a change -/

theorem respects_pure {related : α → α → Prop} {a : α} (same : related a a) :
    (pure a : Record Json α).Respects change related where
  oneName := by
    intro f member
    cases member
  checks := by
    intro f member
    cases member
  builds := fun _ _ => .ok same

theorem Respects.seq {related : α → α → Prop} {others : β → β → Prop} {f : Record Json (α → β)}
    {r : Record Json α}
    (hf : f.Respects change (related ⇒ others)) (hr : r.Respects change related) :
    (f <*> r).Respects change others where
  oneName := by
    intro field member
    rcases List.mem_append.1 member with left | right
    · exact hf.oneName field left
    · exact hr.oneName field right
  checks := by
    intro field member
    rcases List.mem_append.1 member with left | right
    · exact hf.checks field left
    · exact hr.checks field right
  builds := fun find absent =>
    (hf.builds find absent).bind fun _ _ function =>
      (hr.builds find absent).bind fun _ _ argument => .ok (function argument)

theorem Respects.map {related : α → α → Prop} {others : β → β → Prop} {r : Record Json α}
    {g : α → β} (hr : r.Respects change related) (keeps : (related ⇒ others) g g) :
    (g <$> r).Respects change others :=
  (respects_pure keeps).seq hr

theorem checkOf_eq_of_agree {related : α → α → Prop} {read : Json → Except Fault α} {v w : Json}
    (agree : AgreeUpTo related (read v) (read w)) : checkOf read w = checkOf read v :=
  (agree.bind_eq fun _ _ _ => rfl).symm

theorem respects_required {related : α → α → Prop} {name : String} {read : Json → Except Fault α}
    (agree : ∀ v, AgreeUpTo related (read v) (read (change name v))) :
    (required name read).Respects change related where
  oneName := by
    intro f member
    rw [List.mem_singleton.1 member]
  checks := by
    intro f member v
    rw [List.mem_singleton.1 member]
    exact checkOf_eq_of_agree (agree v)
  builds := by
    intro find absent
    simp only [required]
    cases find name with
    | none => exact .error (absent name)
    | some v => exact agree v

theorem respects_optional {related : α → α → Prop} {name : String} {default : α}
    {read : Json → Except Fault α} (same : related default default)
    (agree : ∀ v, AgreeUpTo related (read v) (read (change name v))) :
    (optional name default read).Respects change related where
  oneName := by
    intro f member
    rw [List.mem_singleton.1 member]
  checks := by
    intro f member v
    rw [List.mem_singleton.1 member]
    exact checkOf_eq_of_agree (agree v)
  builds := by
    intro find absent
    simp only [optional]
    cases find name with
    | none => exact .ok same
    | some v => exact agree v

/-- A change of members that no field asks for is respected. -/
theorem Plain.respects {r : Record Json α} (plain : r.Plain)
    (unasked : ∀ f ∈ r.fields, ∀ v, change f.name v = v) : r.Respects change Eq where
  oneName := plain.oneName
  checks := by
    intro f member v
    rw [unasked f member v]
  builds := by
    intro find absent
    have same : r.build (fun name => (find name).map (change name)) absent =
        r.build find absent := by
      apply plain.agrees
      intro f member
      rw [funext (unasked f member)]
      exact congrFun Option.map_id _
    rw [same]
    exact .refl (fun _ => rfl) _

/-! ## Reading changed records -/

theorem lookup_changeMembers (found : List (String × Json)) (name : String) :
    lookup (changeMembers change found) name = (lookup found name).map (change name) := by
  induction found with
  | nil => rfl
  | cons first rest ih =>
      show lookup ((first.1, change first.1 first.2) :: changeMembers change rest) name =
        (lookup ((first.1, first.2) :: rest) name).map (change name)
      by_cases same : first.1 = name
      · rw [same, lookup_cons_self, lookup_cons_self]
        rfl
      · rw [lookup_cons_of_ne same, lookup_cons_of_ne same, ih]

/-- From changed members the same are gathered, changed. -/
theorem gather_changeMembers {fields : List (Field Json)}
    (oneName : ∀ f ∈ fields, f.otherName = none)
    (checks : ∀ f ∈ fields, ∀ v, f.check (change f.name v) = f.check v)
    (found members : List (String × Json)) :
    gather fields (changeMembers change found) (named (changeMembers change members)) =
      (gather fields found (named members)).map (changeMembers change) := by
  induction members generalizing found with
  | nil => rfl
  | cons first rest ih =>
      obtain ⟨name, v⟩ := first
      rw [gather_named_cons]
      show gather fields _ (named ((name, change name v) :: changeMembers change rest)) = _
      rw [gather_named_cons]
      cases asked : fields.find? fun f => f.answersTo name with
      | none => exact ih found
      | some f =>
          obtain ⟨member, rfl⟩ := Field.name_of_find? oneName asked
          have later := ih ((f.name, v) :: found)
          simp only [lookup_changeMembers, Option.isSome_map, checks f member]
          split
          · rfl
          · cases f.check v with
            | error fault => rfl
            | ok _ => exact later

theorem Respects.read_record {related : α → α → Prop} {r : Record Json α}
    (respects : r.Respects change related) (typeName : String) (members : List (String × Json)) :
    AgreeUpTo related (r.read typeName (.record members))
      (r.read typeName (.record (changeMembers change members))) := by
  have gathered : gather r.fields [] (named (changeMembers change members)) =
      (gather r.fields [] (named members)).map (changeMembers change) :=
    gather_changeMembers respects.oneName respects.checks [] members
  change AgreeUpTo related
    (gather r.fields [] (named members) >>= fun found => r.build (lookup found) _)
    (gather r.fields [] (named (changeMembers change members)) >>= fun found =>
      r.build (lookup found) _)
  rw [gathered]
  cases gather r.fields [] (named members) with
  | error fault => exact .error fault
  | ok found =>
      have built := respects.builds (lookup found) fun name => .mismatch (.missingField name)
      rw [← funext (lookup_changeMembers found)] at built
      exact built

end Schema.Record

end Tape
