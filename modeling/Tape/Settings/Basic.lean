import Tape.Feed.Options
import Tape.Settings.Feed

/-!
# Settings

The settings of the whole program: the two ports of the bus, how books are published, and the feeds.
Every setting has a default, and `check` passes the settings that the program can run with.
-/

namespace Tape

structure Settings where
  tradesPort : Nat
  booksPort : Nat
  /-- Whether anything is published at all. -/
  publishes : Bool
  window : Nat
  depth : Nat
  snapshots : Bool
  deltas : Bool
  checkpoints : Bool
  /-- In milliseconds. -/
  checkpointInterval : Nat
  feeds : List FeedSettings
  deriving DecidableEq, Repr

/-- What is wrong with settings. -/
inductive SettingsFlaw where
  | depthOutOfRange (depth : Nat)
  | emptyWindow
  | sharedPort (port : Nat)
  | noBooks
  | zeroCheckpointInterval
  | feed (flaw : FeedFlaw)
  deriving DecidableEq, Repr

def SettingsFlaw.message : SettingsFlaw → String
  | depthOutOfRange depth =>
      "depth_levels must be between 1 and " ++ Text.ofNat Snapshot.depthLimit ++ ", got " ++
        Text.ofNat depth
  | emptyWindow => "window_size must be positive"
  | sharedPort port => "trades_port and books_port are both " ++ Text.ofNat port
  | noBooks => "one of emit_snapshot or emit_delta must be enabled"
  | zeroCheckpointInterval => "checkpoint_every_ms must be positive"
  | feed flaw => flaw.message

namespace Settings

def default : Settings :=
  ⟨5556, 5557, true, Window.defaultSize, Snapshot.depthLimit, true, false, false, 1000, []⟩

/-- What every feed is told about its output. -/
def options (s : Settings) : OutputOptions :=
  ⟨if s.deltas then .deltas (if s.checkpoints then some s.checkpointInterval else none)
    else .snapshots, s.depth, s.window⟩

/-- Passes exactly the settings that the program can run with. -/
def check (s : Settings) : Except SettingsFlaw Unit :=
  if s.depth = 0 || Snapshot.depthLimit < s.depth then .error (.depthOutOfRange s.depth)
  else if s.window = 0 then .error .emptyWindow
  else if s.publishes && s.tradesPort ≠ 0 && s.tradesPort = s.booksPort then
    .error (.sharedPort s.tradesPort)
  else if !s.snapshots && !s.deltas then .error .noBooks
  else if s.deltas && s.checkpoints && s.checkpointInterval = 0 then
    .error .zeroCheckpointInterval
  else s.feeds.forM fun feed => feed.check.mapError .feed

/-! ## Reading and writing -/

def json (s : Settings) : Json :=
  .record [("trades_port", .nat s.tradesPort), ("books_port", .nat s.booksPort),
    ("enable_bus", .flag s.publishes), ("window_size", .nat s.window),
    ("depth_levels", .nat s.depth), ("emit_snapshot", .flag s.snapshots),
    ("emit_delta", .flag s.deltas), ("emit_checkpoint", .flag s.checkpoints),
    ("checkpoint_every_ms", .nat s.checkpointInterval),
    ("feeds", .list (s.feeds.map FeedSettings.json))]

open Schema in
def fields [Document ν] : Record ν Settings :=
  Settings.mk <$> .optional "trades_port" default.tradesPort (Document.whole .bits16)
    <*> .optional "books_port" default.booksPort (Document.whole .bits16)
    <*> .optional "enable_bus" default.publishes Document.flag
    <*> .optional "window_size" default.window (Document.whole .size)
    <*> .optional "depth_levels" default.depth (Document.whole .size)
    <*> .optional "emit_snapshot" default.snapshots Document.flag
    <*> .optional "emit_delta" default.deltas Document.flag
    <*> .optional "emit_checkpoint" default.checkpoints Document.flag
    <*> .optional "checkpoint_every_ms" default.checkpointInterval (Document.whole .bits64)
    <*> .optional "feeds" default.feeds (readList FeedSettings.read)

def read [Schema.Document ν] (v : ν) : Except Schema.Fault Settings :=
  fields.read "FeedHandlerConfig" v

end Settings

end Tape
