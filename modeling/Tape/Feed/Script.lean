/-!
# Scripts

A script gives one value after the other: those listed, in order, and then one value for ever.
-/

namespace Tape

structure Script (α : Type) where
  listed : List α
  after : α
  deriving DecidableEq, Repr

namespace Script

def always (a : α) : Script α := ⟨[], a⟩

def next (s : Script α) : α × Script α :=
  match s.listed with
  | [] => (s.after, s)
  | a :: rest => (a, { s with listed := rest })

/-- The value at a place, counted from zero. -/
def get (s : Script α) (place : Nat) : α := s.listed.getD place s.after

theorem next_fst (s : Script α) : s.next.1 = s.get 0 := by
  obtain ⟨listed, after⟩ := s
  cases listed <;> rfl

theorem get_next_snd (s : Script α) (place : Nat) : s.next.2.get place = s.get (place + 1) := by
  obtain ⟨listed, after⟩ := s
  cases listed <;> rfl

end Script

end Tape
