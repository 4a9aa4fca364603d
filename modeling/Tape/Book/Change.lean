import Tape.Feed.Error
import Tape.Market.Level
import Tape.Wire.Scalar

/-!
# Changes of a book

A change names a price and the quantity that rests there from now on; zero removes the level.
Changes come in groups, each with its own bids and asks.
-/

namespace Tape

structure LevelChange where
  price : Decimal
  quantity : Float
  deriving DecidableEq

namespace LevelChange

def level (c : LevelChange) : Level Float := ⟨c.price.toFloat, c.quantity⟩

/-- Price and size of a written level: the first two items of a list, or two members of a record. -/
def parts? : Json → Option (Json × Json)
  | .list (price :: size :: _) => some (price, size)
  | .record members => do
      let price ← (Json.find? "price" members).or (Json.find? "px" members)
      let size ← (Json.find? "size" members).or (Json.find? "sz" members)
      return (price, size)
  | _ => none

def ofJson? (v : Json) : Option LevelChange := do
  let (price, size) ← parts? v
  let price ← Wire.decimal? price
  let quantity ← Wire.quantity? size
  return ⟨price, quantity⟩

def read (venue : Venue) (v : Json) : Except FeedError LevelChange :=
  match ofJson? v with
  | some change => .ok change
  | none => .error (.malformedLevel venue v.render)

/-- The well-formed ones among written levels, in their order. -/
def ofItems (items : List Json) : List LevelChange := items.filterMap ofJson?

/-- Anything but a list holds no levels. -/
def ofList (v : Option Json) : List LevelChange := ofItems ((v.bind Json.items?).getD [])

end LevelChange

structure ChangeGroup where
  bids : List LevelChange
  asks : List LevelChange
  deriving DecidableEq

def ChangeGroup.isEmpty (g : ChangeGroup) : Bool := g.bids.isEmpty && g.asks.isEmpty

end Tape
