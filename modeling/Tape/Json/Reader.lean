import Tape.Json.Outline

/-!
# Reading JSON

A text is JSON when its outline has no flaw. The first flaw in the order of the text is what is
wrong with one that is not.
-/

namespace Tape.Json

mutual

def Outline.value : Outline → Except Flaw Json
  | .null => .ok .null
  | .flag b => .ok (.flag b)
  | .number n => .ok (.number n)
  | .text s => .ok (.text s)
  | .list items close => do
      let values ← Outline.itemValues items
      match close with
      | none => .ok (.list values)
      | some flaw => .error flaw
  | .record members close => do
      let values ← Outline.memberValues members
      match close with
      | none => .ok (Json.ofMembers values)
      | some flaw => .error flaw
  | .broken flaw => .error flaw
  | .suspect flaw _ => .error flaw

def Outline.itemValues : List Outline → Except Flaw (List Json)
  | [] => .ok []
  | item :: rest => do
      let value ← Outline.value item
      let values ← Outline.itemValues rest
      return value :: values

def Outline.memberValues :
    List (Except Flaw String × Outline) → Except Flaw (List (String × Json))
  | [] => .ok []
  | member :: rest => do
      let name ← member.1
      let value ← Outline.value member.2
      let values ← Outline.memberValues rest
      return (name, value) :: values

end

def readChars (cs : List Char) : Except Flaw Json :=
  let (outline, tail) := Outline.ofChars cs
  match outline.value, tail with
  | .ok v, none => .ok v
  | .ok _, some flaw => .error flaw
  | .error flaw, _ => .error flaw

def read (s : String) : Except Flaw Json := readChars s.toList

end Tape.Json
