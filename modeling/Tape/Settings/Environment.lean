import Tape.Settings.Basic

/-!
# Settings from the environment alone

Each setting but the feeds has a variable of its own. A variable that is missing or cannot be read
leaves the default.
-/

namespace Tape

/-- Names and values of variables, each name once. -/
abbrev Environment := List (String × String)

namespace Environment

/-- What the names of all variables of the program start with. -/
def family : String := "MARKET_FEED"

def get? (env : Environment) (name : String) : Option String :=
  (env.find? fun entry => entry.1 = name).map (·.2)

/-- The trimmed value of a variable of the program, if it can be read. -/
def value? (env : Environment) (name : String) (read : List Char → Option α) : Option α :=
  (env.get? (family ++ "_" ++ name)).bind fun text => read (Text.trim text.toList)

def flag? (cs : List Char) : Option Bool :=
  if cs = "true".toList then some true
  else if cs = "false".toList then some false
  else none

def whole? (width : Schema.Width) (cs : List Char) : Option Nat :=
  (Text.toNat? cs).filter fun n => n < width.bound

end Environment

open Environment in
def Settings.ofEnvironment (env : Environment) : Settings where
  tradesPort := (env.value? "TRADES_PORT" (whole? .bits16)).getD default.tradesPort
  booksPort := (env.value? "BOOKS_PORT" (whole? .bits16)).getD default.booksPort
  publishes := (env.value? "ENABLE_BUS" flag?).getD default.publishes
  window := (env.value? "WINDOW_SIZE" (whole? .size)).getD default.window
  depth := (env.value? "DEPTH_LEVELS" (whole? .size)).getD default.depth
  snapshots := (env.value? "EMIT_SNAPSHOT" flag?).getD default.snapshots
  deltas := (env.value? "EMIT_DELTA" flag?).getD default.deltas
  checkpoints := (env.value? "EMIT_CHECKPOINT" flag?).getD default.checkpoints
  checkpointInterval :=
    (env.value? "CHECKPOINT_EVERY_MS" (whole? .bits64)).getD default.checkpointInterval
  feeds := []

end Tape
