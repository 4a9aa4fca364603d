import Tape.Json.Basic

/-!
# Changes inside a value

A path leads from a value to a value inside it, through members of records and items of lists. What
stands at its end can be changed; where a path leads nowhere there is nothing to change. Whatever
happens at the end, a value keeps its kind, and a record keeps all other members.
-/

namespace Tape.Json

/-! ## Changes of members -/

/-- Changes the value of each member in view of its name. -/
def changeMembers (change : String → Json → Json) (members : List (String × Json)) :
    List (String × Json) :=
  members.map fun m => (m.1, change m.1 m.2)

theorem find?_changeMembers (change : String → Json → Json) (members : List (String × Json))
    (name : String) :
    find? name (changeMembers change members) = (find? name members).map (change name) := by
  induction members with
  | nil => rfl
  | cons first rest ih =>
      show find? name ((first.1, change first.1 first.2) :: changeMembers change rest) = _
      rw [find?, find?, ih]
      by_cases same : first.1 = name
      · rw [if_pos same, if_pos same, same]
        rfl
      · rw [if_neg same, if_neg same]

/-- A change of what stands under one name. -/
def only (name : String) (f : Json → Json) (other : String) (v : Json) : Json :=
  if other = name then f v else v

theorem only_self (name : String) (f : Json → Json) (v : Json) : only name f name v = f v :=
  if_pos rfl

theorem only_of_ne {name other : String} (differs : other ≠ name) (f : Json → Json) (v : Json) :
    only name f other v = v :=
  if_neg differs

/-! ## Paths -/

/-- A step from a value to one inside it. -/
inductive Step where
  | member (name : String)
  | item (place : Nat)

/-- Changes what stands at the end of a path. -/
def changeAt (f : Json → Json) : List Step → Json → Json
  | [], v => f v
  | .member name :: path, .record members =>
      .record (changeMembers (only name (changeAt f path)) members)
  | .item place :: path, .list items => .list (items.modify place (changeAt f path))
  | .member _ :: _, v => v
  | .item _ :: _, v => v

variable {f : Json → Json} {name other : String} {path : List Step}

/-- A step to a member changes nothing but a record. -/
theorem record_or_changeAt_eq (f : Json → Json) (name : String) (path : List Step) (v : Json) :
    (∃ members, v = .record members) ∨ changeAt f (.member name :: path) v = v := by
  cases v with
  | record members => exact .inl ⟨members, rfl⟩
  | null => exact .inr rfl
  | flag b => exact .inr rfl
  | number n => exact .inr rfl
  | text s => exact .inr rfl
  | list items => exact .inr rfl

/-- A step to an item changes nothing but a list. -/
theorem list_or_changeAt_eq (f : Json → Json) (place : Nat) (path : List Step) (v : Json) :
    (∃ items, v = .list items) ∨ changeAt f (.item place :: path) v = v := by
  cases v with
  | list items => exact .inl ⟨items, rfl⟩
  | null => exact .inr rfl
  | flag b => exact .inr rfl
  | number n => exact .inr rfl
  | text s => exact .inr rfl
  | record members => exact .inr rfl

theorem isRecord_changeAt_cons (step : Step) (v : Json) :
    (changeAt f (step :: path) v).isRecord = v.isRecord := by
  cases step <;> cases v <;> rfl

theorem items?_changeAt_member (v : Json) :
    (changeAt f (.member name :: path) v).items? = v.items? := by
  cases v <;> rfl

theorem get?_changeAt_member (v : Json) (other : String) :
    (changeAt f (.member name :: path) v).get? other =
      (v.get? other).map (only name (changeAt f path) other) := by
  cases v with
  | record members => exact find?_changeMembers _ members other
  | null => rfl
  | flag b => rfl
  | number n => rfl
  | text s => rfl
  | list items => rfl

theorem get?_changeAt_member_self (v : Json) :
    (changeAt f (.member name :: path) v).get? name = (v.get? name).map (changeAt f path) := by
  rw [get?_changeAt_member, funext (only_self name (changeAt f path))]

theorem get?_changeAt_member_of_ne (differs : other ≠ name) (v : Json) :
    (changeAt f (.member name :: path) v).get? other = v.get? other := by
  rw [get?_changeAt_member, funext (only_of_ne differs (changeAt f path))]
  exact congrFun Option.map_id _

theorem getText?_changeAt_member_of_ne (differs : other ≠ name) (v : Json) :
    (changeAt f (.member name :: path) v).getText? other = v.getText? other := by
  rw [getText?, get?_changeAt_member_of_ne differs, getText?]

theorem getItems?_changeAt_member_of_ne (differs : other ≠ name) (v : Json) :
    (changeAt f (.member name :: path) v).getItems? other = v.getItems? other := by
  rw [getItems?, get?_changeAt_member_of_ne differs, getItems?]

/-! ## Added items -/

/-- Puts a value into a list before the item of a place. -/
def putItem (place : Nat) (added : Json) : Json → Json
  | .list items => .list (items.insertIdx place added)
  | v => v

theorem list_or_putItem_eq (place : Nat) (added v : Json) :
    (∃ items, v = .list items) ∨ putItem place added v = v := by
  cases v with
  | list items => exact .inl ⟨items, rfl⟩
  | null => exact .inr rfl
  | flag b => exact .inr rfl
  | number n => exact .inr rfl
  | text s => exact .inr rfl
  | record members => exact .inr rfl

end Tape.Json
