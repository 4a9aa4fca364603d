import Tape.Bus.Endpoint
import Tape.Bus.Line
import Tape.Feed.Error
import Tape.Report.Message

/-!
# The bus

Trades and books are published on two endpoints, each report under its symbol.
-/

namespace Tape

structure Bus where
  trades : Endpoint
  books : Endpoint
  deriving DecidableEq, Repr

/-- How binding each endpoint ends; one without an error is bound. -/
structure Ports where
  trades : Option FeedError
  books : Option FeedError
  deriving DecidableEq

/-- What becomes of the port of an endpoint, which is told by its name. -/
inductive PortEvent where
  | bound (endpoint : String)
  | released (endpoint : String)
  deriving DecidableEq, Repr

namespace Bus

def new : Bus :=
  ⟨.new "trades" Endpoint.defaultCapacity, .new "books" Endpoint.defaultCapacity⟩

def addressInUse : FeedError := .system "Address already in use (os error 98)"

/-- How binding ends when some ports belong to others. Port zero stands for any free port. -/
def portsAmong (taken : List Nat) (tradesPort booksPort : Nat) : Ports where
  trades := if tradesPort ≠ 0 && taken.contains tradesPort then some addressInUse else none
  books :=
    if booksPort ≠ 0 && (taken.contains booksPort || booksPort = tradesPort) then
      some addressInUse
    else none

/-- Binds an endpoint of the given name, unless there is an error. -/
def bindEndpoint (outcome : Option FeedError) (name : String) :
    List PortEvent × Except FeedError Endpoint :=
  match outcome with
  | some error => ([], .error error)
  | none => ([.bound name], .ok (.new name Endpoint.defaultCapacity))

/-- Binds both endpoints, trades first. An endpoint that was bound is let go of when the other one
cannot be. -/
def bind (ports : Ports) : List PortEvent × Except FeedError Bus :=
  match bindEndpoint ports.trades "trades" with
  | (events, .error error) => (events, .error error)
  | (events, .ok trades) =>
      match bindEndpoint ports.books "books" with
      | (later, .error error) => (events ++ later ++ [.released trades.name], .error error)
      | (later, .ok books) => (events ++ later, .ok ⟨trades, books⟩)

def tradeLine (r : TradeReport) : BusLine := ⟨r.symbol, r.text⟩

def bookLine (r : BookReport) : BusLine := ⟨r.symbol, r.text⟩

def publishTrade (b : Bus) (r : TradeReport) : Bus :=
  { b with trades := b.trades.publish (tradeLine r).text }

def publishBook (b : Bus) (r : BookReport) : Bus :=
  { b with books := b.books.publish (bookLine r).text }

end Bus

end Tape
