import Tape.Market.Snapshot
import Tape.Stats.Window

/-!
# Output options of a feed

How the books of a feed are published, how many of their levels, and how many values its statistics
look back on.
-/

namespace Tape

inductive OutputMode where
  /-- Every book is published whole. -/
  | snapshots
  /-- Changes are published; with an interval, whole books again when the last one is that old. -/
  | deltas (interval : Option Nat)
  deriving DecidableEq, Repr

structure OutputOptions where
  mode : OutputMode
  depth : Nat
  window : Nat
  deriving DecidableEq, Repr

namespace OutputOptions

def default : OutputOptions := ⟨.snapshots, Snapshot.depthLimit, Window.defaultSize⟩

/-- The nearest options that a feed can run with. -/
def clamp (o : OutputOptions) : OutputOptions :=
  { o with depth := max 1 (min o.depth Snapshot.depthLimit), window := max o.window 1 }

theorem clamp_eq_self {o : OutputOptions} (depth : 1 ≤ o.depth ∧ o.depth ≤ Snapshot.depthLimit)
    (window : 1 ≤ o.window) : o.clamp = o := by
  obtain ⟨mode, levels, size⟩ := o
  simp only [clamp, OutputOptions.mk.injEq, true_and] at *
  omega

end OutputOptions

end Tape
