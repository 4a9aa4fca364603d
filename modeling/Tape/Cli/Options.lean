import Tape.Text.Basic
import Tape.Text.Similarity
import Tape.Word

/-!
# The command line

The arguments choose a settings file, or a place to write the example to. A flag is read when the
next one starts, so of two faults the first one in that order is reported.
-/

namespace Tape.Cli

inductive Flag where
  | config
  | logJson
  | statsInterval
  | initConfig
  | help
  | version
  deriving DecidableEq, Repr

namespace Flag

def all : List Flag := [config, logJson, statsInterval, initConfig, help, version]

def long : Flag → String
  | config => "config"
  | logJson => "log-json"
  | statsInterval => "stats-interval-secs"
  | initConfig => "init-config"
  | help => "help"
  | version => "version"

def ofLong? (name : String) : Option Flag := all.find? fun f => f.long = name

def ofShort? : Char → Option Flag
  | 'c' => some config
  | 'h' => some help
  | 'V' => some version
  | _ => none

def valueName? : Flag → Option String
  | config => some "CONFIG"
  | statsInterval => some "STATS_INTERVAL_SECS"
  | initConfig => some "PATH"
  | logJson | help | version => none

def display (f : Flag) : String :=
  "--" ++ f.long ++
    match f.valueName? with
    | some name => " <" ++ name ++ ">"
    | none => ""

/-- Names that are less alike are not proposed. -/
def leastAlike : Text.Score := ⟨7, 10⟩

/-- The flag that an unknown name is most like, if any is like it; of equals the last. -/
def alike? (name : String) : Option Flag :=
  let scored := all.map fun f => (f, Text.similarity name.toList f.long.toList)
  let near := scored.filter fun entry => entry.2.exceeds leastAlike
  (near.foldl (fun best entry =>
    match best with
    | some kept => if Text.Score.exceeds kept.2 entry.2 then some kept else some entry
    | none => some entry) none).map (·.1)

end Flag

structure Options where
  config : Option String
  logJson : Bool
  /-- In seconds; zero turns the reports off. -/
  statsInterval : Nat
  initConfig : Option String
  deriving DecidableEq, Repr

def Options.default : Options := ⟨none, false, 10, none⟩

/-! ## Faults -/

inductive NumberFlaw where
  | empty
  | badDigit
  | tooLarge
  deriving DecidableEq, Repr

def NumberFlaw.message : NumberFlaw → String
  | empty => "cannot parse integer from empty string"
  | badDigit => "invalid digit found in string"
  | tooLarge => "number too large to fit in target type"

inductive UsageFlaw where
  | unexpected (argument : String) (proposal : Option Flag) (used : List Flag)
  | missingValue (flag : Flag)
  | repeated (flag : Flag)
  | badNumber (flag : Flag) (value : String) (flaw : NumberFlaw)
  | surplusValue (flag : Flag) (value : String) (used : List Flag)
  deriving DecidableEq, Repr

def programName : String := "market_feed"

def usage (used : List Flag) : String :=
  "Usage: " ++ programName ++ " " ++
    if used = [] then "[OPTIONS]" else Text.joinWith " " (used.map Flag.display)

def quoted (s : String) : String := "'" ++ s ++ "'"

namespace UsageFlaw

def headline : UsageFlaw → String
  | unexpected argument _ _ => "unexpected argument " ++ quoted argument ++ " found"
  | missingValue flag =>
      "a value is required for " ++ quoted flag.display ++ " but none was supplied"
  | repeated flag => "the argument " ++ quoted flag.display ++ " cannot be used multiple times"
  | badNumber flag value flaw =>
      "invalid value " ++ quoted value ++ " for " ++ quoted flag.display ++ ": " ++ flaw.message
  | surplusValue flag value _ =>
      "unexpected value " ++ quoted value ++ " for " ++ quoted flag.display ++
        " found; no more were expected"

/-- What stands between the headline and the hint at the end. -/
def details : UsageFlaw → List String
  | unexpected _ (some flag) used =>
      ["  tip: a similar argument exists: " ++ quoted ("--" ++ flag.long), "", usage used, ""]
  | unexpected _ none used | surplusValue _ _ used => [usage used, ""]
  | repeated _ => [usage [], ""]
  | missingValue _ | badNumber .. => []

def lines (f : UsageFlaw) : List String :=
  ["error: " ++ f.headline, ""] ++ f.details ++ ["For more information, try '--help'."]

end UsageFlaw

/-! ## Reading arguments -/

inductive Request where
  | help
  | version
  | run (options : Options)
  deriving DecidableEq, Repr

/-- What was read so far. A flag is pending until the next one starts. -/
structure Draft where
  options : Options
  used : List Flag
  pending : Option (Flag × Option String)

/-- Reads digits one by one; the first fault counts. -/
def readDigits (total : Nat) : List Char → Except NumberFlaw Nat
  | [] => .ok total
  | c :: rest =>
      if !c.isDigit then .error .badDigit
      else
        let next := total * 10 + Text.digitValue c
        if Word.bound64 ≤ next then .error .tooLarge else readDigits next rest

def readNumber : List Char → Except NumberFlaw Nat
  | [] => .error .empty
  | ['+'] => .error .badDigit
  | '+' :: rest => readDigits 0 rest
  | cs => readDigits 0 cs

/-- Gives an option the value of a flag. -/
def Options.set (o : Options) (flag : Flag) (value : String) : Except UsageFlaw Options :=
  match flag with
  | .config =>
      if value = "" then .error (.missingValue flag) else .ok { o with config := some value }
  | .initConfig =>
      if value = "" then .error (.missingValue flag) else .ok { o with initConfig := some value }
  | .statsInterval =>
      match readNumber value.toList with
      | .ok n => .ok { o with statsInterval := n }
      | .error flaw => .error (.badNumber flag value flaw)
  | .logJson | .help | .version => .ok { o with logJson := true }

namespace Draft

def use (d : Draft) (flag : Flag) (value : String) : Except UsageFlaw Draft :=
  if d.used.contains flag then .error (.repeated flag)
  else (d.options.set flag value).map fun options => ⟨options, d.used ++ [flag], none⟩

/-- Reads the pending flag. -/
def commit (d : Draft) : Except UsageFlaw Draft :=
  match d.pending with
  | none => .ok d
  | some (flag, none) => .error (.missingValue flag)
  | some (flag, some value) => d.use flag value

/-- The flags on the command line so far, the pending one too if it has a value. -/
def mentioned (d : Draft) : List Flag :=
  match d.pending with
  | some (flag, some _) => if d.used.contains flag then d.used else d.used ++ [flag]
  | _ => d.used

/-- A flag that was found, with the value attached to it. -/
def meet (d : Draft) (flag : Flag) (attached : Option String) : Except UsageFlaw (Request ⊕ Draft) :=
  match flag.valueName?, attached with
  | none, some value => .error (.surplusValue flag value d.mentioned)
  | some _, some value => do
      let d ← d.commit
      return .inr (← d.use flag value)
  | some _, none => do
      let d ← d.commit
      return .inr { d with pending := some (flag, none) }
  | none, none => do
      let d ← d.commit
      match flag with
      | .help => return .inl .help
      | .version => return .inl .version
      | flag => return .inr (← d.use flag "")

def unknownLong (d : Draft) (name : String) : UsageFlaw :=
  match Flag.alike? name with
  | none => .unexpected ("--" ++ name) none d.mentioned
  | some flag =>
      .unexpected ("--" ++ name) (some flag)
        (if d.mentioned.contains flag then d.mentioned else d.mentioned ++ [flag])

def long (d : Draft) (cs : List Char) : Except UsageFlaw (Request ⊕ Draft) :=
  let name := String.ofList (cs.takeWhile (· ≠ '='))
  let attached := match cs.dropWhile (· ≠ '=') with
    | [] => none
    | _ :: value => some (String.ofList value)
  match Flag.ofLong? name with
  | none => .error (d.unknownLong name)
  | some flag => d.meet flag attached

def short (d : Draft) (c : Char) (rest : List Char) : Except UsageFlaw (Request ⊕ Draft) :=
  match Flag.ofShort? c with
  | none => .error (.unexpected (String.ofList ['-', c]) none [])
  | some flag =>
      match flag.valueName?, rest with
      | some _, '=' :: value => d.meet flag (some (String.ofList value))
      | some _, _ :: _ => d.meet flag (some (String.ofList rest))
      | _, _ => d.meet flag none

/-- An argument that is no flag: the value of the pending one, or too much. -/
def plain (d : Draft) (argument : String) : Except UsageFlaw Draft :=
  match d.pending with
  | some (flag, none) => .ok { d with pending := some (flag, some argument) }
  | _ => .error (.unexpected argument none [])

def read (d : Draft) : List String → Except UsageFlaw Request
  | [] => d.commit.map fun d => .run d.options
  | argument :: rest => do
      match argument.toList with
      | ['-', '-'] =>
          match rest with
          | [] => return .run (← d.commit).options
          | extra :: _ => .error (.unexpected extra none [])
      | '-' :: '-' :: cs =>
          match ← d.long cs with
          | .inl request => return request
          | .inr d => d.read rest
      | '-' :: c :: cs =>
          match ← d.short c cs with
          | .inl request => return request
          | .inr d => d.read rest
      | _ => (← d.plain argument).read rest

end Draft

/-- What the arguments ask for. -/
def Request.ofArguments (arguments : List String) : Except UsageFlaw Request :=
  Draft.read ⟨.default, [], none⟩ arguments

/-! ## Texts -/

def helpLines : List String :=
  ["Multi-venue market data feed handler", "", usage [], "", "Options:",
    "  -c, --config <CONFIG>",
    "          Path to configuration file",
    "      --log-json",
    "          Enable JSON logging format",
    "      --stats-interval-secs <STATS_INTERVAL_SECS>",
    "          Seconds between stats reports, 0 disables them [default: 10]",
    "      --init-config <PATH>",
    "          Write an example configuration to this path and exit",
    "  -h, --help",
    "          Print help",
    "  -V, --version",
    "          Print version"]

def versionLine : String := programName ++ " 0.1.0"

end Tape.Cli
