import Tape.Feed.Error
import Tape.Link.Policy
import Tape.Url.Basic

/-!
# Settings of one feed

A feed names its venue and symbols and says what it subscribes to and how its link is kept. Every
setting has a default; which combinations a feed can run with is decided by `check`.
-/

namespace Tape

structure FeedSettings where
  name : String
  symbols : List String
  trades : Bool
  books : Bool
  /-- Has no effect. -/
  snapshotsOnly : Bool
  /-- In seconds; has no effect. -/
  snapshotInterval : Nat
  attempts : Nat
  /-- In milliseconds. -/
  delay : Nat
  url : Option String
  deriving DecidableEq, Repr

/-- What is wrong with the settings of a feed. -/
inductive FeedFlaw where
  | unsupportedVenue (name : String)
  | noSymbols (name : String)
  | emptySymbol (name : String)
  | noChannel (name : String)
  | zeroInterval (name : String)
  | badUrl (url : String) (flaw : Url.Flaw)
  | foreignScheme (url : String)
  deriving DecidableEq, Repr

def FeedFlaw.message : FeedFlaw → String
  | unsupportedVenue name => "Unsupported exchange: " ++ name
  | noSymbols name => "Feed " ++ name ++ " has no symbols"
  | emptySymbol name => "Feed " ++ name ++ " has an empty symbol"
  | noChannel name => "Feed " ++ name ++ " enables neither trades nor orderbook"
  | zeroInterval name => "Feed " ++ name ++ " snapshot_interval must be at least 1"
  | badUrl url flaw => "Invalid ws_url " ++ url ++ ": " ++ flaw.message
  | foreignScheme url => "ws_url must start with ws:// or wss://, got " ++ url

namespace FeedSettings

def default : FeedSettings := ⟨"", [], true, true, true, 1, 10, 5000, none⟩

def venue? (f : FeedSettings) : Option Venue := Venue.ofName? f.name

def endpoint (f : FeedSettings) (venue : Venue) : String := f.url.getD venue.endpoint

def policy (f : FeedSettings) (venue : Venue) : LinkPolicy :=
  .ofFeed (f.endpoint venue) f.attempts f.delay

/-- The address of a feed must be that of a socket. -/
def checkUrl (url : String) : Except FeedFlaw Unit :=
  match Url.scheme url with
  | .error flaw => .error (.badUrl url flaw)
  | .ok scheme => if scheme = "ws" || scheme = "wss" then .ok () else .error (.foreignScheme url)

/-- Passes exactly the settings that a feed can run with. -/
def check (f : FeedSettings) : Except FeedFlaw Unit :=
  if f.venue?.isNone then .error (.unsupportedVenue f.name)
  else if f.symbols.isEmpty then .error (.noSymbols f.name)
  else if f.symbols.any fun s => (Text.trim s.toList).isEmpty then .error (.emptySymbol f.name)
  else if !f.trades && !f.books then .error (.noChannel f.name)
  else if f.snapshotInterval = 0 then .error (.zeroInterval f.name)
  else
    match f.url with
    | none => .ok ()
    | some url => checkUrl url

theorem exists_venue_of_check {f : FeedSettings} (h : f.check = .ok ()) :
    ∃ venue, f.venue? = some venue := by
  unfold check at h
  split at h
  · cases h
  next named =>
    exact Option.ne_none_iff_exists'.1 (by simpa using named)

/-! ## Reading and writing -/

def json (f : FeedSettings) : Json :=
  .record [("name", .text f.name), ("symbols", .list (f.symbols.map .text)),
    ("enable_trades", .flag f.trades), ("enable_orderbook", .flag f.books),
    ("snapshots_only", .flag f.snapshotsOnly), ("snapshot_interval", .nat f.snapshotInterval),
    ("reconnect_attempts", .nat f.attempts), ("reconnect_delay_ms", .nat f.delay),
    ("ws_url", .ofOption .text f.url)]

open Schema in
def fields [Document ν] : Record ν FeedSettings :=
  FeedSettings.mk <$> .optionalAlias "name" "exchange" default.name Document.text
    <*> .optional "symbols" default.symbols (readList Document.text)
    <*> .optional "enable_trades" default.trades Document.flag
    <*> .optional "enable_orderbook" default.books Document.flag
    <*> .optional "snapshots_only" default.snapshotsOnly Document.flag
    <*> .optional "snapshot_interval" default.snapshotInterval (Document.whole .bits32)
    <*> .optional "reconnect_attempts" default.attempts (Document.whole .bits32)
    <*> .optional "reconnect_delay_ms" default.delay (Document.whole .bits64)
    <*> .optional "ws_url" default.url (readOption Document.text)

def read [Schema.Document ν] (v : ν) : Except Schema.Fault FeedSettings :=
  fields.read "ExchangeConfig" v

end FeedSettings

end Tape
