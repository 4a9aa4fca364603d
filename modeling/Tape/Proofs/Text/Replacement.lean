import Mathlib
import Tape.Text.Basic

/-!
# The first occurrence replaced

Where the first occurrence of a text lies, and so what a replacement changes of a text in two parts:
the first part when it holds an occurrence, and the second when none begins in the first.
-/

namespace Tape.Text

variable {needle new : List Char}

/-! ## Occurrences -/

theorem isSome_after?_iff {cs : List Char} : (after? needle cs).isSome = true ↔ needle <+: cs := by
  rw [Option.isSome_iff_exists]
  constructor
  · rintro ⟨rest, found⟩
    exact ⟨rest, ((after?_eq_some_iff needle cs rest).1 found).symm⟩
  · rintro ⟨rest, rfl⟩
    exact ⟨rest, (after?_eq_some_iff needle _ rest).2 rfl⟩

theorem holds_iff {cs : List Char} : holds needle cs = true ↔ needle <:+: cs := by
  induction cs with
  | nil => rw [holds, List.isEmpty_iff, List.infix_nil]
  | cons c cs ih => rw [holds, Bool.or_eq_true, isSome_after?_iff, ih, List.infix_cons_iff]

/-- An occurrence of `needle` in `cs ++ rest` begins before the second part. -/
def BeginsIn (needle cs rest : List Char) : Prop :=
  ∃ part, part ≠ [] ∧ part <:+ cs ∧ needle <+: part ++ rest

theorem BeginsIn.cons {c : Char} {cs rest : List Char} (begun : BeginsIn needle cs rest) :
    BeginsIn needle (c :: cs) rest := by
  obtain ⟨part, nonempty, last, found⟩ := begun
  exact ⟨part, nonempty, last.trans (List.suffix_cons c cs), found⟩

/-- An occurrence that begins in the first part ends there, or the second part begins with the rest
of it. -/
theorem BeginsIn.holds_or_crosses {cs rest : List Char} (begun : BeginsIn needle cs rest) :
    holds needle cs = true ∨
      ∃ part d more, part ≠ [] ∧ needle = part ++ d :: more ∧ d :: more <+: rest := by
  obtain ⟨part, nonempty, last, found⟩ := begun
  have inside : needle <+: part → holds needle cs = true := fun within =>
    holds_iff.2 (within.isInfix.trans last.isInfix)
  rcases List.prefix_or_prefix_of_prefix found (List.prefix_append part rest) with
    within | ⟨more, rfl⟩
  · exact .inl (inside within)
  · cases more with
    | nil => exact .inl (inside ((List.append_nil part).symm ▸ List.prefix_rfl))
    | cons d more =>
      rw [List.prefix_append_right_inj] at found
      exact .inr ⟨part, d, more, nonempty, rfl, found⟩

/-- No occurrence crosses a character that it does not have. -/
theorem BeginsIn.holds_of_mark {cs rest : List Char} {mark : Char} (other : mark ∉ needle)
    (begun : BeginsIn needle cs (mark :: rest)) : holds needle cs = true := by
  rcases begun.holds_or_crosses with held | ⟨part, d, more, _, rfl, found⟩
  · exact held
  · obtain ⟨rfl, _⟩ := List.cons_prefix_cons.1 found
    exact absurd (List.mem_append_right part (List.mem_cons_self ..)) other

/-- Two occurrences of a text without repeated characters do not overlap. -/
theorem BeginsIn.holds_of_nodup {cs : List Char} (distinct : needle.Nodup)
    (begun : BeginsIn needle cs needle) : holds needle cs = true := by
  rcases begun.holds_or_crosses with held | ⟨part, d, more, nonempty, rfl, found⟩
  · exact held
  · cases part with
    | nil => exact absurd rfl nonempty
    | cons c part =>
      obtain ⟨rfl, _⟩ := List.cons_prefix_cons.1 found
      rw [List.cons_append, List.nodup_cons] at distinct
      exact absurd (List.mem_append_right part (List.mem_cons_self ..)) distinct.1

/-! ## Replacement -/

theorem replaceFirst_append (rest : List Char) :
    replaceFirst needle new (needle ++ rest) = new ++ rest := by
  cases whole : needle ++ rest with
  | nil =>
    obtain ⟨rfl, rfl⟩ := List.append_eq_nil_iff.1 whole
    exact (List.append_nil new).symm
  | cons c cs => rw [replaceFirst, (after?_eq_some_iff needle (c :: cs) rest).2 whole.symm]

theorem replaceFirst_cons {c : Char} {cs : List Char} (here : ¬ needle <+: c :: cs) :
    replaceFirst needle new (c :: cs) = c :: replaceFirst needle new cs := by
  rw [← isSome_after?_iff, Option.not_isSome_iff_eq_none] at here
  rw [replaceFirst, here]

/-- The second part alone can change when no occurrence begins in the first. -/
theorem replaceFirst_append_of_not_beginsIn {cs rest : List Char}
    (none : ¬ BeginsIn needle cs rest) :
    replaceFirst needle new (cs ++ rest) = cs ++ replaceFirst needle new rest := by
  induction cs with
  | nil => rfl
  | cons c cs ih =>
    have here : ¬ needle <+: c :: (cs ++ rest) := fun found =>
      none ⟨c :: cs, List.cons_ne_nil c cs, List.suffix_rfl, found⟩
    have later := ih fun begun => none begun.cons
    rw [List.cons_append, replaceFirst_cons here, later, List.cons_append]

/-- The first part alone changes when it holds an occurrence. -/
theorem replaceFirst_append_of_holds {cs : List Char} (rest : List Char)
    (held : holds needle cs = true) :
    replaceFirst needle new (cs ++ rest) = replaceFirst needle new cs ++ rest := by
  induction cs with
  | nil =>
    obtain rfl := List.isEmpty_iff.1 held
    exact replaceFirst_append rest
  | cons c cs ih =>
    by_cases here : needle <+: c :: cs
    · obtain ⟨tail, whole⟩ := here
      rw [← whole, List.append_assoc, replaceFirst_append, replaceFirst_append, List.append_assoc]
    · have later : holds needle cs = true := by
        rw [holds_iff, List.infix_cons_iff] at held
        exact holds_iff.2 (held.resolve_left here)
      -- the occurrence in `cs` bounds the length, so that none begins here and ends in `rest`
      have size : needle.length ≤ (c :: cs).length :=
        (holds_iff.1 held).length_le
      have still : ¬ needle <+: c :: (cs ++ rest) := fun found =>
        here (List.prefix_of_prefix_length_le found (List.prefix_append (c :: cs) rest) size)
      rw [List.cons_append, replaceFirst_cons still, ih later, replaceFirst_cons here,
        List.cons_append]

theorem mem_of_mem_replaceFirst {cs : List Char} {c : Char}
    (found : c ∈ replaceFirst needle new cs) : c ∈ cs ∨ c ∈ new := by
  induction cs with
  | nil =>
    rw [replaceFirst] at found
    split at found
    next => exact .inr found
    next => exact .inl found
  | cons d cs ih =>
    by_cases here : needle <+: d :: cs
    · obtain ⟨tail, whole⟩ := here
      rw [← whole, replaceFirst_append] at found
      rw [← whole]
      exact (List.mem_append.1 found).elim .inr fun kept => .inl (List.mem_append_right needle kept)
    · rw [replaceFirst_cons here] at found
      rcases List.mem_cons.1 found with rfl | later
      · exact .inl (List.mem_cons_self ..)
      · exact (ih later).imp_left (List.mem_cons_of_mem d)

theorem length_replaceFirst {cs : List Char} (held : holds needle cs = true) :
    (replaceFirst needle new cs).length + needle.length = cs.length + new.length := by
  induction cs with
  | nil =>
    obtain rfl := List.isEmpty_iff.1 held
    simp [replaceFirst]
  | cons c cs ih =>
    by_cases here : needle <+: c :: cs
    · obtain ⟨tail, whole⟩ := here
      rw [← whole, replaceFirst_append, List.length_append, List.length_append]
      omega
    · rw [holds_iff, List.infix_cons_iff] at held
      have later := ih (holds_iff.2 (held.resolve_left here))
      rw [replaceFirst_cons here, List.length_cons, List.length_cons]
      omega

end Tape.Text
