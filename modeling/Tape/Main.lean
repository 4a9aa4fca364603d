import Tape.Cli.Program
import Tape.Settings.Example

/-!
# The outer layer

Reads arguments, variables and files, writes what the program gives back, and takes the end of its
input for the interruption. It opens no sockets, so every feed is found unreachable.
-/

open Tape Tape.Cli

def variablesFile : String := "/proc/self/environ"

/-- The variables in the form that the system lists them in. -/
def variablesOf (bytes : ByteArray) : Environment :=
  let listed := (String.fromUTF8? bytes).getD ""
  (Text.splitAt '\x00' listed.toList).filterMap fun entry =>
    match entry.dropWhile (· ≠ '=') with
    | [] => none
    | _ :: value => some (String.ofList (entry.takeWhile (· ≠ '=')), String.ofList value)

def readVariables : IO Environment := do
  try return variablesOf (← IO.FS.readBinFile variablesFile)
  catch _ => return []

def readText (path : String) : IO (Option String) := do
  try return some (← IO.FS.readFile path)
  catch _ => return none

def write (options : Options) (filter : Filter) (entries : List Entry) : IO Unit := do
  for entry in entries do
    if filter.passes entry then
      IO.println (if options.logJson then entry.json.render else entry.text)
  (← IO.getStdout).flush

def finish (ending : Ending) : IO UInt32 := do
  ending.out.forM IO.println
  ending.err.forM IO.eprintln
  return ending.code.toUInt32

partial def waitForEnd (input : IO.FS.Stream) : IO Unit := do
  unless (← input.getLine).isEmpty do waitForEnd input

def writeExampleFile (path : String) (say : List Entry → IO Unit) : IO UInt32 := do
  try
    IO.FS.writeFile path Settings.exampleText
    say [exampleWritten path]
    return 0
  catch reason => finish (exampleFailed path (toString reason))

def runFeeds (path : String) (env : Environment) (say : List Entry → IO Unit) : IO UInt32 := do
  let exact ← readText path
  let extended ← readText (path ++ extension)
  let find (name : String) := if name = path then exact else extended
  let (entries, result) := launchAll noNetwork path (settingsFile? find path) env
  say entries
  match result with
  | .error ending => finish ending
  | .ok hub =>
      waitForEnd (← IO.getStdin)
      say (interrupted hub)
      return 0

def main (arguments : List String) : IO UInt32 := do
  let env ← readVariables
  let filter := Filter.ofVariable (env.get? "RUST_LOG")
  match plan arguments with
  | .finish ending => finish ending
  | .writeExample path options => writeExampleFile path (write options filter)
  | .run path options => runFeeds path env (write options filter)
