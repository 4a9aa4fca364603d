import Tape.Cli.Log
import Tape.Cli.Options
import Tape.Hub.Basic
import Tape.Settings.Load

/-!
# The program

The program loads settings, starts a hub with their feeds, runs until it is interrupted, and stops
the hub. Every part is a function from what is outside to log entries and results, so that the outer
layer only has to read and write.
-/

namespace Tape.Cli

/-- How the program ends before it runs, or at its end. -/
structure Ending where
  code : Nat
  out : List String
  err : List String
  deriving DecidableEq, Repr

/-- What the arguments lead to. -/
inductive Plan where
  | finish (ending : Ending)
  | writeExample (path : String) (options : Options)
  | run (path : String) (options : Options)
  deriving DecidableEq, Repr

/-- A failure with its causes, the nearest first. -/
def failure (message : String) (causes : List String) : Ending :=
  let numbered := match causes with
    | [cause] => ["    " ++ cause]
    | many => many.zipIdx.map fun entry => "    " ++ Text.ofNat entry.2 ++ ": " ++ entry.1
  ⟨1, [], ("Error: " ++ message) :: if causes = [] then [] else "" :: "Caused by:" :: numbered⟩

def plan (arguments : List String) : Plan :=
  match Request.ofArguments arguments with
  | .error flaw => .finish ⟨2, [], flaw.lines⟩
  | .ok .help => .finish ⟨0, helpLines, []⟩
  | .ok .version => .finish ⟨0, [versionLine], []⟩
  | .ok (.run options) =>
      match options.initConfig, options.config with
      | some path, _ => .writeExample path options
      | none, some path => .run path options
      | none, none =>
          .finish (failure "--config <PATH> is required unless --init-config is given" [])

/-! ## Entries -/

def inPart (part : String) : String :=
  if part = "" then programName else programName ++ "::" ++ part

def info (part message : String) : Entry := ⟨.info, inPart part, message⟩

def error (part message : String) : Entry := ⟨.error, inPart part, message⟩

/-! ## The example file -/

def exampleWritten (path : String) : Entry := info "config" ("Example config created: " ++ path)

/-- How an error is told; one of the system as what it means here, and as itself. -/
def causes : FeedError → List String
  | .system reason => [(FeedError.system reason).message, reason]
  | e => [e.message]

def exampleFailed (path reason : String) : Ending :=
  failure ("Failed to write " ++ path) (causes (.system reason))

/-! ## Loading -/

def extension : String := ".toml"

/-- The name of a file, after its directories. -/
def baseName (path : String) : List Char :=
  (path.toList.reverse.takeWhile (· ≠ '/')).reverse

def hasExtension (path : String) : Bool :=
  match Text.before? extension.toList (baseName path) with
  | some stem => stem ≠ []
  | none => false

/-- The settings file that a path means; its extension may be left out. -/
def settingsFile? (find : String → Option String) (path : String) : Option String :=
  match find path with
  | some text => if hasExtension path then some text else none
  | none => find (path ++ extension)

def loading (path : String) : List Entry :=
  [info "" "Starting market feed", info "config" ("Loading configuration from " ++ path)]

def loadFailed (flaw : LoadFlaw) : Ending :=
  failure "Failed to load configuration" (causes (.settings flaw.message))

def symbolList (symbols : List String) : String :=
  "[" ++ Text.joinWith ", " (symbols.map Text.Quoted.encode) ++ "]"

def flagWord (b : Bool) : String := if b then "true" else "false"

def loaded (s : Settings) : List Entry :=
  info "config" ("Configuration loaded: " ++ Text.ofNat s.feeds.length ++ " feeds") ::
    info "" ("Bus: trades port " ++ Text.ofNat s.tradesPort ++ ", books port " ++
      Text.ofNat s.booksPort ++ ", enabled " ++ flagWord s.publishes) ::
    s.feeds.map fun feed => info "" ("Feed " ++ feed.name ++ ": " ++ symbolList feed.symbols)

/-! ## Running -/

def symbolCount (f : Feed) : String := Text.ofNat f.symbols.length ++ " symbols"

def added (f : Feed) : Entry :=
  info "feed_handler" ("Added " ++ f.venue.name ++ " feed with " ++ symbolCount f)

def listening (e : Endpoint) (port : Nat) : Entry :=
  info "output::bus_publisher"
    (e.name ++ " bus listening on 0.0.0.0:" ++ Text.ofNat port)

def bound (s : Settings) : Option Bus → List Entry
  | none => []
  | some bus => [listening bus.trades s.tradesPort, listening bus.books s.booksPort]

def launched (dial : String → String) (feed : FeedSettings) (launch : Hub.Launch) : List Entry :=
  let venue := launch.feed.venue
  let url := feed.endpoint venue
  info "input::connection" ("Connecting to " ++ venue.name ++ " at " ++ url) ::
    match launch.failure with
    | none =>
        [info "provider" ("Subscribing to " ++ venue.name ++ " for " ++ symbolCount launch.feed),
          info "provider"
            ("Market data provider started for " ++ venue.name ++ " with " ++
              symbolCount launch.feed)]
    | some e =>
        [error "input::connection"
            ("WebSocket connection error for " ++ venue.name ++ ": " ++ dial url),
          error "provider" e.message,
          error "feed_handler" ("Skipping " ++ venue.name ++ " feed: " ++ e.message)]

def started (launches : List Hub.Launch) : Entry :=
  let running := (launches.filter fun launch => launch.failure.isNone).length
  info "feed_handler"
    ("Feed handler started " ++ Text.ofNat running ++ "/" ++ Text.ofNat launches.length ++ " feeds")

/-- A feed whose address cannot be dialled. -/
def undialled (dial : String → String) (feed : FeedSettings) (venue : Venue) : Source :=
  .unreachable (.refused venue (dial (feed.endpoint venue)))

/-- Starts a hub: what is logged, and the hub or how the program ends. `dial` says why an address
cannot be dialled. -/
def start (dial : String → String) (s : Settings) : List Entry × Except Ending Hub :=
  match (Hub.new s).addConfigured (undialled dial) with
  | (some e, hub) =>
      (hub.feeds.map added, .error (failure "Failed to add feeds" (causes e)))
  | (none, hub) =>
      let before := hub.feeds.map added
      match hub.start [] with
      | .error e =>
          (before ++ [error "feed_handler" ("Failed to bind market data bus: " ++ e.message)],
            .error (failure "Failed to start feed handler" (causes e)))
      | .ok (launches, hub) =>
          (before ++ bound s hub.bus ++
            (s.feeds.zip launches).flatMap (fun pair => launched dial pair.1 pair.2) ++
            [started launches], .ok hub)

def statsEntry (s : FeedStats) : Entry :=
  info "" (s.venue.name ++ " - Received: " ++ Text.ofNat s.received ++ ", Published: " ++
    Text.ofNat s.published ++ ", Errors: " ++ Text.ofNat s.errors)

/-- What is logged when the program is interrupted. -/
def interrupted (hub : Hub) : List Entry :=
  let (_, hub) := hub.stop
  info "" "Received Ctrl+C, shutting down..." ::
    info "feed_handler" "Stopping feed handler" ::
    info "feed_handler" "Feed handler stopped" ::
    hub.stats.map statsEntry

/-- Everything up to the interruption: what is logged, and the hub or how the program ends. -/
def launchAll (dial : String → String) (path : String) (file : Option String)
    (env : Environment) : List Entry × Except Ending Hub :=
  match Settings.load file env with
  | .error flaw => (loading path, .error (loadFailed flaw))
  | .ok s =>
      let (entries, result) := start dial s
      (loading path ++ loaded s ++ entries, result)

/-! ## Without a network -/

/-- The host in an address, up to its port or path. -/
def hostOf (url : String) : List Char :=
  let rest := (url.toList.dropWhile (· ≠ '/')).dropWhile (· = '/')
  let authority := rest.takeWhile fun c => c ≠ '/' && c ≠ '?' && c ≠ '#'
  let host := match Text.splitAt '@' authority with
    | _ :: last :: _ => last
    | _ => authority
  if host.head? = some '[' then host else host.takeWhile (· ≠ ':')

/-- Whether a host needs no name service. -/
def isNumericHost (host : List Char) : Bool :=
  host.head? = some '[' || host.all (fun c => c.isDigit || c = '.') || host = "localhost".toList

/-- Why an address cannot be dialled where there is no network. -/
def noNetwork (url : String) : String :=
  if isNumericHost (hostOf url) then "IO error: Network is unreachable (os error 101)"
  else "IO error: failed to lookup address information: Temporary failure in name resolution"

end Tape.Cli
