import Tape.Market.Snapshot
import Tape.Market.SymbolTable

/-!
# Publishing changes instead of books

The first book of a symbol is published whole, as a checkpoint. After that only levels whose
quantity changed are, with quantity zero for a price that is gone, and nothing when all is as
before. When the last checkpoint is old enough the whole book is published again.
-/

namespace Tape

/-- How the levels of a published book stand to the book. -/
inductive ReportKind where
  /-- The whole book, where every book is published whole. -/
  | snapshot
  /-- The whole book, where otherwise only changes are published. -/
  | checkpoint
  | delta
  deriving DecidableEq, Repr

namespace ReportKind

def all : List ReportKind := [snapshot, checkpoint, delta]

def name : ReportKind → String
  | snapshot => "snapshot"
  | checkpoint => "checkpoint"
  | delta => "delta"

def json (k : ReportKind) : Json := .text k.name

def ofName? (s : String) : Option ReportKind := all.find? fun k => k.name = s

def read [Schema.Document ν] (v : ν) : Except Schema.Fault ReportKind := do
  let chosen ← Schema.Document.choice (all.map name) v
  return (ofName? chosen).getD snapshot

end ReportKind

structure BookUpdate where
  kind : ReportKind
  bids : List (Level Float)
  asks : List (Level Float)
  deriving DecidableEq

/-- What was last published of one symbol. -/
structure Published where
  bids : List (Level Float)
  asks : List (Level Float)
  checkpointAt : Nat
  deriving DecidableEq

/-- What was last published of each symbol, and the age at which a checkpoint is due. -/
structure DeltaEncoder where
  interval : Option Nat
  published : SymbolTable Published
  deriving DecidableEq

namespace DeltaEncoder

/-- Without an interval only the first book of a symbol is a checkpoint. -/
def new (interval : Option Nat) : DeltaEncoder := ⟨interval, []⟩

def sameLevel (a b : Level Float) : Bool :=
  Binary64.equal a.price b.price && Binary64.equal a.quantity b.quantity

def samePrice (a b : Level Float) : Bool := Binary64.equal a.price b.price

/-- The levels that are new or changed, and those that are gone with quantity zero. -/
def changes (previous current : List (Level Float)) : List (Level Float) :=
  current.filter (fun level => !previous.any fun old => sameLevel old level) ++
    (previous.filter fun old => !current.any fun level => samePrice level old).map
      fun old => ⟨old.price, 0⟩

def bidChanges (previous current : List (Level Float)) : List (Level Float) :=
  (changes previous current).mergeSort fun a b => Binary64.rank b.price ≤ Binary64.rank a.price

def askChanges (previous current : List (Level Float)) : List (Level Float) :=
  (changes previous current).mergeSort fun a b => Binary64.rank a.price ≤ Binary64.rank b.price

/-- Whether the checkpoint of a symbol is old enough at a time. -/
def isDue (e : DeltaEncoder) (previous : Published) (now : Nat) : Bool :=
  match e.interval with
  | none => false
  | some interval => interval ≤ now - previous.checkpointAt

/-- What to publish of the first `depth` levels of a book, if anything. -/
def next (e : DeltaEncoder) (book : Snapshot) (depth now : Nat) :
    Option BookUpdate × DeltaEncoder :=
  let bids := book.bids.take depth
  let asks := book.asks.take depth
  let store (checkpointAt : Nat) : DeltaEncoder :=
    { e with published := SymbolTable.set book.symbol ⟨bids, asks, checkpointAt⟩ e.published }
  match SymbolTable.get? book.symbol e.published with
  | none => (some ⟨.checkpoint, bids, asks⟩, store now)
  | some previous =>
      if e.isDue previous now then (some ⟨.checkpoint, bids, asks⟩, store now)
      else
        let changedBids := bidChanges previous.bids bids
        let changedAsks := askChanges previous.asks asks
        if changedBids.isEmpty && changedAsks.isEmpty then (none, e)
        else (some ⟨.delta, changedBids, changedAsks⟩, store previous.checkpointAt)

/-- Forgets every symbol. -/
def clear (e : DeltaEncoder) : DeltaEncoder := { e with published := [] }

end DeltaEncoder

end Tape
