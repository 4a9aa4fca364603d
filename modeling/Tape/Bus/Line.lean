import Tape.Text.Basic

/-!
# Lines on the bus

What is published is one line: a topic, a space, and a payload. A consumer parts the bytes at line
breaks and each line at its first space, and can pick topics without reading payloads.
-/

namespace Tape

structure BusLine where
  topic : String
  payload : String
  deriving DecidableEq, Repr

namespace BusLine

def chars (l : BusLine) : List Char := l.topic.toList ++ ' ' :: l.payload.toList

/-- The line with its line break. -/
def text (l : BusLine) : String := String.ofList (l.chars ++ ['\n'])

/-- The line that a consumer sees; without a space all of it is the topic. -/
def ofChars (cs : List Char) : BusLine :=
  ⟨String.ofList (cs.takeWhile (· ≠ ' ')), String.ofList ((cs.dropWhile (· ≠ ' ')).drop 1)⟩

/-- The lines of a stream that a consumer sees; what follows the last line break has not ended. -/
def readAll (stream : List Char) : List BusLine :=
  (Text.splitAt '\n' stream).dropLast.map ofChars

theorem takeWhile_append_of_notMem {p : Char → Bool} (first rest : List Char) (mark : Char)
    (passes : ∀ c ∈ first, p c = true) (stops : p mark = false) :
    (first ++ mark :: rest).takeWhile p = first ∧
      (first ++ mark :: rest).dropWhile p = mark :: rest := by
  induction first with
  | nil => simp [stops]
  | cons c cs ih =>
      have here : p c = true := passes c List.mem_cons_self
      have there := ih fun d member => passes d (List.mem_cons_of_mem _ member)
      simp [here, there]

theorem ofChars_chars (l : BusLine) (plain : ' ' ∉ l.topic.toList) : ofChars l.chars = l := by
  obtain ⟨topic, payload⟩ := l
  have parts := takeWhile_append_of_notMem (p := fun c => c ≠ ' ') topic.toList payload.toList ' '
    (fun c member => by
      simp only [ne_eq, decide_eq_true_eq]
      intro same
      exact plain (same ▸ member)) (by simp)
  simp only [ofChars, chars]
  rw [parts.1, parts.2]
  simp

end BusLine

end Tape
