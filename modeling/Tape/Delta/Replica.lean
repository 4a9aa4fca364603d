import Tape.Delta.Encoder

/-!
# Following a book from its updates

A consumer holds the two sides of a symbol. It takes over a whole book, and from changes it puts
each carried level in its place, or takes out the price when the carried quantity is zero.
-/

namespace Tape

structure Replica where
  bids : List (Level Float)
  asks : List (Level Float)
  deriving DecidableEq

namespace Replica

def empty : Replica := ⟨[], []⟩

/-- Puts one level into a side; `before` tells which of two prices is the better one. -/
def place (before : Float → Float → Bool) (level : Level Float) :
    List (Level Float) → List (Level Float)
  | [] => if Binary64.equal level.quantity 0 then [] else [level]
  | held :: rest =>
      if Binary64.equal held.price level.price then
        if Binary64.equal level.quantity 0 then rest else level :: rest
      else if before level.price held.price then
        if Binary64.equal level.quantity 0 then held :: rest else level :: held :: rest
      else held :: place before level rest

def placeAll (before : Float → Float → Bool) (side changes : List (Level Float)) :
    List (Level Float) :=
  changes.foldl (fun side level => place before level side) side

/-- Bids stand from the highest price down. -/
def bidBefore (a b : Float) : Bool := Binary64.less b a

/-- Asks stand from the lowest price up. -/
def askBefore (a b : Float) : Bool := Binary64.less a b

def follow (r : Replica) : Option BookUpdate → Replica
  | none => r
  | some update =>
      match update.kind with
      | .delta => ⟨placeAll bidBefore r.bids update.bids, placeAll askBefore r.asks update.asks⟩
      | _ => ⟨update.bids, update.asks⟩

end Replica

end Tape
