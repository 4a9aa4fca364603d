import Tape.Feed.Effect
import Tape.Feed.Options
import Tape.Feed.Source
import Tape.Wire.Codec

/-!
# Sessions

A session is the running part of a feed. It waits for frames and turns each into effects. When the
stream fails it reconnects once and subscribes again; when that reconnect fails, or when it is
stopped, it closes its source and ends. It reacts to one signal at a time, so what it has seen fixes
what it does.
-/

namespace Tape

/-- What the clock shows while a signal is handled. It is read when a frame is decoded, in
nanoseconds, and again when a book is encoded, in milliseconds. -/
structure Instant where
  decoded : Nat
  encoded : Nat
  deriving DecidableEq, Repr

namespace Instant

/-- A clock that does not move on between the two. -/
def still (nanoseconds : Nat) : Instant := ⟨nanoseconds, nanoseconds / 1000000⟩

instance : Coe Nat Instant := ⟨still⟩

instance (n : Nat) : OfNat Instant n := ⟨still n⟩

end Instant

/-- What a session waits for. -/
inductive Phase where
  | frame
  | reconnect
  | send
  | close
  | ended
  deriving DecidableEq, Repr

/-- What ends the wait for a frame. -/
inductive Arrival where
  | frame (text : String)
  /-- The stream has ended. -/
  | finished
  | failed (error : FeedError)
  deriving DecidableEq

inductive Signal where
  | arrived (arrival : Arrival)
  /-- The pending call of the source has ended. -/
  | replied (reply : Reply)
  | stop
  deriving DecidableEq

/-- What a session knows from its start on. -/
structure Profile where
  venue : Venue
  subscription : String
  options : OutputOptions
  /-- Whether anybody listens. -/
  listens : Bool
  /-- Whether there is a bus. -/
  publishes : Bool
  deriving DecidableEq, Repr

structure Session where
  profile : Profile
  phase : Phase
  store : BookStore
  tradeWindows : SymbolTable (Window Float)
  bookWindows : SymbolTable (Window Float)
  /-- The last number given to a report, by venue, stream and symbol. -/
  numbers : SymbolTable Nat
  /-- Present when changes are published instead of books. -/
  encoder : Option DeltaEncoder
  deriving DecidableEq

/-- What a reaction did, and the session after it. -/
structure Turn where
  effects : List Effect
  counts : Counters
  session : Session
  deriving DecidableEq

namespace Session

def encoderOf : OutputMode → Option DeltaEncoder
  | .snapshots => none
  | .deltas interval => some (.new interval)

def start (profile : Profile) : Session :=
  ⟨profile, .frame, .withDepth Snapshot.depthLimit, [], [], [], encoderOf profile.options.mode⟩

def isLive (s : Session) : Bool := s.phase ≠ .ended

/-- Effects that only a listener sees. -/
def told (s : Session) (effect : Effect) : List Effect :=
  if s.profile.listens then [effect] else []

/-- The window of a symbol; a new one may be too large to be had. -/
def window? (s : Session) (windows : SymbolTable (Window Float)) (symbol : String) :
    Option (Window Float) :=
  match SymbolTable.get? symbol windows with
  | some window => some window
  | none => Window.ofSize? s.profile.options.window

/-- A session that cannot go on ends without another call. -/
def crash (s : Session) (counts : Counters) : Turn := ⟨[], counts, { s with phase := .ended }⟩

/-! ## Events -/

/-- The text under which the reports of a stream and a symbol are counted. -/
def key (s : Session) (stream : ReportStream) (symbol : String) : String :=
  stream.key s.profile.venue symbol

/-- The number of the next report that is counted under a text. Runs of 2^64 reports and more are
left out. -/
def nextNumber (numbers : SymbolTable Nat) (key : String) : Nat :=
  (SymbolTable.get? key numbers).getD 0 + 1

def onTrade (s : Session) (t : Trade) : Turn :=
  match s.window? s.tradeWindows t.symbol with
  | none => s.crash .oneTrade
  | some window =>
      let (metrics, window) := TradeMetrics.compute t.price t.amount window
      let s := { s with tradeWindows := SymbolTable.set t.symbol window s.tradeWindows }
      if s.profile.publishes then
        let key := s.key .trades t.symbol
        let number := nextNumber s.numbers key
        ⟨s.told (.trade t) ++ [.publishTrade (.ofTrade t number metrics)],
          .oneTrade + .onePublished, { s with numbers := SymbolTable.set key number s.numbers }⟩
      else ⟨s.told (.trade t), .oneTrade, s⟩

/-- What is published of a book, if anything, and the encoder after it. -/
def update (s : Session) (now : Nat) (book : Snapshot) :
    Option BookUpdate × Option DeltaEncoder :=
  let depth := s.profile.options.depth
  match s.encoder with
  | none => (some ⟨.snapshot, book.bids.take depth, book.asks.take depth⟩, none)
  | some encoder =>
      let (update, encoder) := encoder.next book depth now
      (update, some encoder)

def onBook (s : Session) (now : Nat) (book : Snapshot) : Turn :=
  match s.window? s.bookWindows book.symbol with
  | none => s.crash .oneBook
  | some window =>
      let (metrics, window) :=
        BookMetrics.compute book.bids book.asks s.profile.options.depth window
      let s := { s with bookWindows := SymbolTable.set book.symbol window s.bookWindows }
      if s.profile.publishes then
        let (update, encoder) := s.update now book
        let s := { s with encoder }
        match update with
        | none => ⟨s.told (.book book), .oneBook, s⟩
        | some update =>
            let key := s.key .books book.symbol
            let number := nextNumber s.numbers key
            ⟨s.told (.book book) ++ [.publishBook (.ofBook book number update metrics)],
              .oneBook + .onePublished, { s with numbers := SymbolTable.set key number s.numbers }⟩
      else ⟨s.told (.book book), .oneBook, s⟩

def onFrame (s : Session) (now : Instant) (text : String) : Turn :=
  let (event, store) := s.profile.venue.decode now.decoded s.store text
  let s := { s with store }
  match event with
  | .trade t => s.onTrade t
  | .book book => s.onBook now.encoded book
  | .heartbeat | .unknown => ⟨[], .zero, s⟩
  | .rejected error => ⟨s.told (.error error.message), .oneError, s⟩

/-! ## Failures -/

def onFailure (s : Session) (message : String) : Turn :=
  ⟨s.told (.error message) ++ [.reconnect], .oneError, { s with phase := .reconnect }⟩

/-- After a reconnect the venue sends its books anew, so the old ones are forgotten. -/
def onReconnected (s : Session) : Reply → Turn
  | some error =>
      ⟨s.told (.error error.message) ++ [.close], .oneError, { s with phase := .close }⟩
  | none =>
      ⟨[.send s.profile.subscription], .zero,
        { s with
          phase := .send
          store := s.store.clear
          encoder := s.encoder.map DeltaEncoder.clear }⟩

/-- A failed subscription is told, but does not end the session. -/
def onSent (s : Session) : Reply → Turn
  | some error => ⟨s.told (.error error.message), .oneError, { s with phase := .frame }⟩
  | none => ⟨[], .zero, { s with phase := .frame }⟩

def endMessage (venue : Venue) : String := venue.name ++ " stream ended"

def onArrival (s : Session) (now : Instant) : Arrival → Turn
  | .frame text => s.onFrame now text
  | .finished => s.onFailure (endMessage s.profile.venue)
  | .failed error => s.onFailure error.message

/-- The reaction to a signal. A signal that does not belong to the phase changes nothing. -/
def react (s : Session) (now : Instant) (signal : Signal) : Turn :=
  match s.phase, signal with
  | .frame, .arrived arrival => s.onArrival now arrival
  | .reconnect, .replied reply => s.onReconnected reply
  | .send, .replied reply => s.onSent reply
  | .close, .replied _ => ⟨[], .zero, { s with phase := .ended }⟩
  | .frame, .stop | .reconnect, .stop | .send, .stop => ⟨[.close], .zero, { s with phase := .close }⟩
  | _, _ => ⟨[], .zero, s⟩

/-! ## Replies of a source -/

/-- The reply to the pending call, if one is pending. -/
def pending? (s : Session) (source : Source) : Option (Reply × Source) :=
  match s.phase with
  | .reconnect => some source.reconnect
  | .send => some source.send
  | .close => some source.close
  | .frame | .ended => none

/-- A session makes at most so many calls before it waits for a frame or has ended. -/
def callBound : Nat := 3

/-- Lets the source reply until no call is pending. -/
def settle (now : Instant) : Nat → Turn → Source → Turn × Source
  | 0, turn, source => (turn, source)
  | calls + 1, turn, source =>
      match turn.session.pending? source with
      | none => (turn, source)
      | some (reply, source) =>
          let next := turn.session.react now (.replied reply)
          settle now calls
            ⟨turn.effects ++ next.effects, turn.counts + next.counts, next.session⟩ source

/-- A signal together with all replies that it leads to. -/
def run (s : Session) (now : Instant) (signal : Signal) (source : Source) : Turn × Source :=
  settle now callBound (s.react now signal) source

end Session

end Tape
