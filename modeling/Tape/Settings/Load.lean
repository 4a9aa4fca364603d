import Tape.Settings.Basic
import Tape.Settings.Overlay
import Tape.Settings.Toml.Reader

/-!
# Loading settings

Settings are loaded from a TOML file with the variables of the environment laid over it. What was
loaded is only returned when the program can run with it.
-/

namespace Tape

inductive LoadFlaw where
  /-- The file is missing, is not TOML, or holds a value that a setting cannot have. -/
  | unreadable
  | unusable (flaw : SettingsFlaw)
  deriving DecidableEq, Repr

def LoadFlaw.message : LoadFlaw → String
  | unreadable => "settings cannot be read"
  | unusable flaw => flaw.message

namespace Settings

/-- The text of a file without the mark that only tells its encoding. -/
def withoutMark (text : String) : String := String.ofList (Toml.withoutMark text.toList)

/-- The settings of a file, which may be missing, under those of the environment. -/
def read? (file : Option String) (env : Environment) : Option Settings := do
  let written ← Toml.read? (withoutMark (← file))
  let root := env.settings.foldl Setting.overlay (written.foldl Setting.overlay (.table []))
  (Settings.read root).toOption

def load (file : Option String) (env : Environment) : Except LoadFlaw Settings :=
  match read? file env with
  | none => .error .unreadable
  | some settings => (settings.check.mapError .unusable).map fun _ => settings

theorem check_of_load {file : Option String} {env : Environment} {s : Settings}
    (h : load file env = .ok s) : s.check = .ok () := by
  unfold load at h
  split at h
  · cases h
  next settings _ =>
    cases passed : settings.check with
    | error flaw =>
        rw [passed] at h
        cases h
    | ok u =>
        rw [passed] at h
        cases h
        exact passed

end Settings

end Tape
