import Tape.Book.Live
import Tape.Market.SymbolTable

/-!
# The books of one feed

One live book for each symbol that changes were merged into, and the depth of their snapshots.
-/

namespace Tape

structure BookStore where
  depth : Nat
  books : SymbolTable LiveBook
  deriving DecidableEq

namespace BookStore

def clampDepth (depth : Nat) : Nat := max 1 (min depth Snapshot.depthLimit)

def withDepth (depth : Nat) : BookStore := ⟨clampDepth depth, []⟩

def new : BookStore := withDepth Snapshot.depthLimit

def book? (s : BookStore) (symbol : String) : Option LiveBook := SymbolTable.get? symbol s.books

def size (s : BookStore) : Nat := s.books.length

/-- Applies groups to the book of a symbol; a book without levels has no snapshot. -/
def merge (s : BookStore) (venue : Venue) (symbol : String) (groups : List ChangeGroup)
    (stamp : Nat) : Option Snapshot × BookStore :=
  let book := ((s.book? symbol).getD .empty).applyGroups groups
  let snapshot := if book.isEmpty then none else some (book.snapshot venue symbol stamp s.depth)
  (snapshot, { s with books := SymbolTable.set symbol book s.books })

def reset (s : BookStore) (symbol : String) : BookStore :=
  { s with books := SymbolTable.erase symbol s.books }

def clear (s : BookStore) : BookStore := { s with books := [] }

end BookStore

end Tape
