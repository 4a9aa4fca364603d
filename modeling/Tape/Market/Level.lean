import Tape.Binary64.Basic
import Tape.Schema.Record

/-!
# Price levels

A level is a price and the quantity that rests there. Only a level whose price and quantity are both
finite and above zero may be published.
-/

namespace Tape

structure Level (α : Type) where
  price : α
  quantity : α
  deriving DecidableEq

namespace Level

def isValid (l : Level Float) : Bool :=
  Binary64.isPositive l.price && Binary64.isPositive l.quantity

theorem isValid_iff (l : Level Float) :
    l.isValid = true ↔
      Binary64.isPositive l.price = true ∧ Binary64.isPositive l.quantity = true := by
  simp [isValid]

def json (l : Level Float) : Json :=
  .record [("price", .real l.price), ("quantity", .real l.quantity)]

def fields [Schema.Document ν] : Schema.Record ν (Level Float) :=
  Level.mk <$> .required "price" Schema.Document.real <*> .required "quantity" Schema.Document.real

def read [Schema.Document ν] (v : ν) : Except Schema.Fault (Level Float) :=
  fields.read "PriceLevel" v

end Level

end Tape
