import Tape.Json.Printer
import Tape.Text.Basic

/-!
# The log

An entry has a level, the part of the program that it comes from, and a message. A filter says which
entries are written; of its rules the one with the longest matching part counts.
-/

namespace Tape.Cli

inductive Level where
  | error
  | warn
  | info
  | debug
  | trace
  deriving DecidableEq, Repr

namespace Level

def name : Level → String
  | error => "ERROR"
  | warn => "WARN"
  | info => "INFO"
  | debug => "DEBUG"
  | trace => "TRACE"

/-- How much is written at a level; nothing is at zero. -/
def verbosity : Level → Nat
  | error => 1
  | warn => 2
  | info => 3
  | debug => 4
  | trace => 5

end Level

structure Entry where
  level : Level
  target : String
  message : String
  deriving DecidableEq, Repr

namespace Entry

def text (e : Entry) : String := e.level.name ++ " " ++ e.target ++ ": " ++ e.message

def json (e : Entry) : Json :=
  .record [("level", .text e.level.name), ("fields", .record [("message", .text e.message)]),
    ("target", .text e.target)]

end Entry

/-! ## Filters -/

/-- Up to which verbosity entries of a part are written. -/
structure Rule where
  target : String
  verbosity : Nat
  deriving DecidableEq, Repr

abbrev Filter := List Rule

namespace Filter

def default : Filter := [⟨"", Level.info.verbosity⟩]

def verbosity? (word : String) : Option Nat :=
  let names := ["off", "error", "warn", "info", "debug", "trace"]
  let plain := Text.lower word
  if plain = "" then some Level.error.verbosity
  else
    match names.idxOf? plain with
    | some place => some place
    | none => (Text.toNat? word.toList).filter fun n => n ≤ Level.trace.verbosity

def rule? (text : String) : Option Rule :=
  let cs := Text.trim text.toList
  let name := String.ofList (cs.takeWhile (· ≠ '='))
  if cs.contains '[' then none
  else
    match cs.dropWhile (· ≠ '=') with
    | [] =>
        match verbosity? name with
        | some verbosity => some ⟨"", verbosity⟩
        | none => some ⟨name, Level.trace.verbosity⟩
    | _ :: level => (verbosity? (String.ofList level)).map fun verbosity => ⟨name, verbosity⟩

/-- The filter of a list of rules; an empty one lets only errors pass. -/
def ofText? (text : String) : Option Filter :=
  let parts := (Text.splitAt ',' text.toList).filter (· ≠ [])
  if parts = [] then some [⟨"", Level.error.verbosity⟩]
  else parts.mapM fun part => rule? (String.ofList part)

/-- The filter of a variable; one that cannot be read counts as missing. -/
def ofVariable (value : Option String) : Filter := (value.bind ofText?).getD default

/-- The rule that decides about a part, of equals the last. -/
def ruleFor? (f : Filter) (target : String) : Option Rule :=
  f.foldl (fun best rule =>
    if (Text.after? rule.target.toList target.toList).isNone then best
    else
      match best with
      | some (kept : Rule) => if rule.target.length < kept.target.length then some kept else some rule
      | none => some rule) none

def passes (f : Filter) (e : Entry) : Bool :=
  match f.ruleFor? e.target with
  | some rule => e.level.verbosity ≤ rule.verbosity
  | none => false

end Filter

end Tape.Cli
