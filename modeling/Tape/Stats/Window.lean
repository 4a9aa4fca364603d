import Tape.Stats.Scalar

/-!
# Rolling windows

A window keeps the latest values up to its capacity, with their sum and the sum of their squares,
which follow each value that enters or leaves. Beside the values it keeps the latest flows: how much
the best bid size grew more than the best ask size from one book to the next.
-/

namespace Tape

structure Window (α : Type) where
  capacity : Nat
  /-- Oldest first. -/
  values : List α
  /-- Oldest first. -/
  flows : List α
  sum : α
  sumOfSquares : α
  bidSize : α
  askSize : α
  deriving DecidableEq

namespace Window

variable {α : Type} [Scalar α]

def defaultSize : Nat := 20

/-- The bytes that one queue can ask for, at eight for each value. -/
def byteLimit : Nat := 9223372036854775807

/-- A window without values. -/
def empty (capacity : Nat) : Window α :=
  ⟨capacity, [], [], Scalar.zero, Scalar.zero, Scalar.zero, Scalar.zero⟩

/-- The new window of a size, if queues of that size can be had at all; a size of zero counts as
one. -/
def ofSize? (size : Nat) : Option (Window α) :=
  if 8 * max size 1 ≤ byteLimit then some (empty (max size 1)) else none

/-- Takes the oldest value out when the window is full. -/
def makeRoom (w : Window α) : Window α :=
  if w.values.length < w.capacity then w
  else
    match w.values with
    | [] => w
    | oldest :: rest =>
        { w with
          values := rest
          sum := w.sum - oldest
          sumOfSquares := w.sumOfSquares - oldest * oldest }

def push (w : Window α) (x : α) : Window α :=
  let w := w.makeRoom
  { w with
    values := w.values ++ [x]
    sum := w.sum + x
    sumOfSquares := w.sumOfSquares + x * x }

/-- Notes the best sizes of a book; the flow is what changed since the last ones. -/
def pushSizes (w : Window α) (bid ask : α) : Window α :=
  let flow := (bid - w.bidSize) - (ask - w.askSize)
  let kept := if w.flows.length < w.capacity then w.flows else w.flows.drop 1
  { w with flows := kept ++ [flow], bidSize := bid, askSize := ask }

def isEmpty (w : Window α) : Bool := w.values.isEmpty

def size (w : Window α) : Nat := w.values.length

def mean (w : Window α) : α :=
  if w.values.isEmpty then Scalar.zero else w.sum / Scalar.ofCount w.values.length

/-- The mean of the squares less the square of the mean. -/
def variance (w : Window α) : α :=
  let count := Scalar.ofCount w.values.length
  let mean := w.sum / count
  w.sumOfSquares / count - mean * mean

/-- The standard deviation of the values; zero below two of them. -/
def volatility (w : Window α) : α :=
  if w.values.length < 2 then Scalar.zero else Scalar.sqrt (Scalar.clamp w.variance)

def meanFlow (w : Window α) : α :=
  if w.flows.isEmpty then Scalar.zero
  else Scalar.sum w.flows / Scalar.ofCount w.flows.length

def reset (w : Window α) : Window α := empty w.capacity

end Window

end Tape
