import Tape.Book.Change
import Tape.Market.Ladder
import Tape.Market.Snapshot

/-!
# Live books

A live book is built from changes. Each side is a ladder by exact price, without a limit; only a
snapshot is cut to the best levels.
-/

namespace Tape

/-- One side: exact prices, with what rests there, by increasing price. -/
abbrev BookSide := Ladder LevelChange

namespace BookSide

/-- A price as it stands on a side: written as by the change that put it there. -/
def heldPrice (side : BookSide) (price : Decimal) : Decimal :=
  ((side.get? price.units).map LevelChange.price).getD price

/-- A change of a price that is not positive, or to a quantity that is neither zero nor above it,
does nothing. Where the price is held only the quantity is replaced. -/
def apply (side : BookSide) (change : LevelChange) : BookSide :=
  if !change.price.isPositive then side
  else if Binary64.equal change.quantity 0 then side.erase change.price.units
  else if Binary64.less 0 change.quantity then
    side.insert change.price.units ⟨side.heldPrice change.price, change.quantity⟩
  else side

def applyAll (side : BookSide) (changes : List LevelChange) : BookSide := changes.foldl apply side

def quantityAt? (side : BookSide) (price : Decimal) : Option Float :=
  (side.get? price.units).map LevelChange.quantity

end BookSide

structure LiveBook where
  bids : BookSide
  asks : BookSide
  deriving DecidableEq

namespace LiveBook

def empty : LiveBook := ⟨[], []⟩

def applyBid (b : LiveBook) (change : LevelChange) : LiveBook :=
  { b with bids := b.bids.apply change }

def applyAsk (b : LiveBook) (change : LevelChange) : LiveBook :=
  { b with asks := b.asks.apply change }

def applyGroup (b : LiveBook) (g : ChangeGroup) : LiveBook :=
  ⟨b.bids.applyAll g.bids, b.asks.applyAll g.asks⟩

def applyGroups (b : LiveBook) (groups : List ChangeGroup) : LiveBook := groups.foldl applyGroup b

def isEmpty (b : LiveBook) : Bool := b.bids.isEmpty && b.asks.isEmpty

/-- The best levels of each side as they are published. -/
def snapshot (b : LiveBook) (venue : Venue) (symbol : String) (stamp depth : Nat) : Snapshot :=
  let depth := min depth Snapshot.depthLimit
  Snapshot.ofLevels venue symbol stamp
    ((b.bids.contents.reverse.take depth).map LevelChange.level)
    ((b.asks.contents.take depth).map LevelChange.level)

end LiveBook

end Tape
