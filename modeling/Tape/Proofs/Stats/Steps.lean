import Mathlib.Data.List.DropRight
import Mathlib.Data.List.Induction
import Tape.Stats.Window

/-!
# Queues of a window

A window keeps the latest values that came in since it was emptied, as many as it has room for, and
the flows between the latest books likewise. This holds for every kind of number.
-/

namespace Tape

namespace Window

/-- A queue with room for so many, after one more came in: the oldest leaves a full one. -/
def enqueue (capacity : Nat) (queue : List α) (x : α) : List α :=
  (if queue.length < capacity then queue else queue.drop 1) ++ [x]

/-- A queue that holds the latest of what came in goes on doing so. -/
theorem enqueue_rtake {capacity : Nat} (room : 0 < capacity) (all : List α) (x : α) :
    enqueue capacity (all.rtake capacity) x = (all ++ [x]).rtake capacity := by
  obtain ⟨others, rfl⟩ : ∃ others, capacity = others + 1 := ⟨capacity - 1, by omega⟩
  rw [List.rtake_concat_succ, enqueue]
  congr 1
  simp only [List.rtake, List.length_drop]
  split
  next fits =>
    -- All of them are still there, and there is room for one more.
    congr 1
    omega
  next full =>
    rw [List.drop_drop]
    congr 1
    omega

theorem length_rtake (all : List α) (count : Nat) :
    (all.rtake count).length = min all.length count := by
  rw [List.rtake, List.length_drop]
  omega

/-- What is done with a window. -/
inductive Step (α : Type) where
  | midpoint (x : α)
  | tradePrice (x : α)
  | bestSizes (bid ask : α)
  | reset
  deriving DecidableEq

namespace Step

variable {α : Type}

def isReset : Step α → Bool
  | reset => true
  | midpoint _ | tradePrice _ | bestSizes .. => false

def value? : Step α → Option α
  | midpoint x | tradePrice x => some x
  | bestSizes .. | reset => none

def sizes? : Step α → Option (α × α)
  | bestSizes bid ask => some (bid, ask)
  | midpoint _ | tradePrice _ | reset => none

/-- The steps after the last one that emptied the window. -/
def sinceReset (steps : List (Step α)) : List (Step α) :=
  steps.rtakeWhile fun step => !step.isReset

/-- The values that came in since the window was emptied. -/
def valuesSinceReset (steps : List (Step α)) : List α := (sinceReset steps).filterMap value?

/-- The best sizes, of bid and ask, that came in since the window was emptied. -/
def sizesSinceReset (steps : List (Step α)) : List (α × α) :=
  (sinceReset steps).filterMap sizes?

theorem sinceReset_concat (steps : List (Step α)) (step : Step α) :
    sinceReset (steps ++ [step]) = if step.isReset then [] else sinceReset steps ++ [step] := by
  rw [sinceReset, List.rtakeWhile_concat]
  cases step.isReset <;> rfl

theorem valuesSinceReset_concat (steps : List (Step α)) (step : Step α) :
    valuesSinceReset (steps ++ [step]) =
      if step.isReset then [] else valuesSinceReset steps ++ step.value?.toList := by
  rw [valuesSinceReset, sinceReset_concat]
  cases step <;> simp [isReset, valuesSinceReset, value?]

theorem sizesSinceReset_concat (steps : List (Step α)) (step : Step α) :
    sizesSinceReset (steps ++ [step]) =
      if step.isReset then [] else sizesSinceReset steps ++ step.sizes?.toList := by
  rw [sizesSinceReset, sinceReset_concat]
  cases step <;> simp [isReset, sizesSinceReset, sizes?]

end Step

variable {α : Type} [Scalar α] {w : Window α}

def advance (w : Window α) : Step α → Window α
  | .midpoint x | .tradePrice x => w.push x
  | .bestSizes bid ask => w.pushSizes bid ask
  | .reset => w.reset

def advanceAll (w : Window α) (steps : List (Step α)) : Window α := steps.foldl advance w

theorem advanceAll_concat (w : Window α) (steps : List (Step α)) (step : Step α) :
    w.advanceAll (steps ++ [step]) = (w.advanceAll steps).advance step := by
  rw [advanceAll, List.foldl_append]
  rfl

/-! ## What a step leaves -/

theorem makeRoom_cases (w : Window α) :
    (w.makeRoom = w ∧ (w.values.length < w.capacity ∨ w.values = [])) ∨
      ∃ oldest rest, w.values = oldest :: rest ∧ w.capacity ≤ w.values.length ∧
        w.makeRoom = { w with
          values := rest
          sum := w.sum - oldest
          sumOfSquares := w.sumOfSquares - oldest * oldest } := by
  rw [makeRoom]
  split
  next fits => exact .inl ⟨rfl, .inl fits⟩
  next full =>
    split
    next none => exact .inl ⟨rfl, .inr none⟩
    next oldest rest held => exact .inr ⟨oldest, rest, held, by omega, rfl⟩

theorem capacity_push (w : Window α) (x : α) : (w.push x).capacity = w.capacity := by
  obtain ⟨same, _⟩ | ⟨_, _, _, _, same⟩ := w.makeRoom_cases <;> simp only [push, same]

theorem capacity_pushSizes (w : Window α) (bid ask : α) :
    (w.pushSizes bid ask).capacity = w.capacity := rfl

theorem values_push (w : Window α) (x : α) :
    (w.push x).values = enqueue w.capacity w.values x := by
  obtain ⟨same, fits | none⟩ | ⟨oldest, rest, held, full, same⟩ := w.makeRoom_cases
  · simp only [push, same, enqueue, if_pos fits]
  · simp only [push, same, enqueue, none, List.drop_nil, ite_self]
  · rw [held] at full
    simp only [push, same, enqueue, held, if_neg (Nat.not_lt.2 full), List.drop_one, List.tail_cons]

theorem flows_push (w : Window α) (x : α) : (w.push x).flows = w.flows := by
  obtain ⟨same, _⟩ | ⟨_, _, _, _, same⟩ := w.makeRoom_cases <;> simp only [push, same]

theorem lastSizes_push (w : Window α) (x : α) :
    ((w.push x).bidSize, (w.push x).askSize) = (w.bidSize, w.askSize) := by
  obtain ⟨same, _⟩ | ⟨_, _, _, _, same⟩ := w.makeRoom_cases <;> simp only [push, same]

theorem flows_pushSizes (w : Window α) (bid ask : α) :
    (w.pushSizes bid ask).flows =
      enqueue w.capacity w.flows ((bid - w.bidSize) - (ask - w.askSize)) := rfl

/-! ## Runs -/

/-- How much the size of the bid grew more than that of the ask, from one book to the next. -/
def flowsAfter (last : α × α) : List (α × α) → List α
  | [] => []
  | next :: rest => ((next.1 - last.1) - (next.2 - last.2)) :: flowsAfter next rest

theorem flowsAfter_concat (last : α × α) (sizes : List (α × α)) (next : α × α) :
    flowsAfter last (sizes ++ [next]) =
      flowsAfter last sizes ++
        [(next.1 - (sizes.getLastD last).1) - (next.2 - (sizes.getLastD last).2)] := by
  induction sizes generalizing last with
  | nil => rfl
  | cons first rest ih =>
      rw [List.cons_append, flowsAfter, flowsAfter, ih, List.cons_append]
      cases rest <;> rfl

/-- Before the first book both best sizes count as zero. -/
def noSizes : α × α := (Scalar.zero, Scalar.zero)

/-- A window with the latest of the values, and of the flows between the sizes, that came in. -/
structure Keeps (w : Window α) (limit : Nat) (values : List α) (sizes : List (α × α)) : Prop where
  capacity : w.capacity = limit
  values : w.values = values.rtake limit
  flows : w.flows = (flowsAfter noSizes sizes).rtake limit
  lastSizes : (w.bidSize, w.askSize) = sizes.getLastD noSizes

namespace Keeps

variable {limit : Nat} {values : List α} {sizes : List (α × α)}

theorem push (keeps : w.Keeps limit values sizes) (room : 0 < limit) (x : α) :
    (w.push x).Keeps limit (values ++ [x]) sizes where
  capacity := (w.capacity_push x).trans keeps.capacity
  values := by rw [values_push, keeps.capacity, keeps.values, enqueue_rtake room]
  flows := (w.flows_push x).trans keeps.flows
  lastSizes := (w.lastSizes_push x).trans keeps.lastSizes

theorem pushSizes (keeps : w.Keeps limit values sizes) (room : 0 < limit) (bid ask : α) :
    (w.pushSizes bid ask).Keeps limit values (sizes ++ [(bid, ask)]) where
  capacity := keeps.capacity
  values := keeps.values
  flows := by
    have bidSize : w.bidSize = (sizes.getLastD noSizes).1 := congrArg Prod.fst keeps.lastSizes
    have askSize : w.askSize = (sizes.getLastD noSizes).2 := congrArg Prod.snd keeps.lastSizes
    rw [flows_pushSizes, keeps.capacity, keeps.flows, enqueue_rtake room, flowsAfter_concat,
      bidSize, askSize]
  lastSizes := by
    rw [List.getLastD_concat]
    rfl

theorem reset (w : Window α) : w.reset.Keeps w.capacity [] [] where
  capacity := rfl
  values := (List.rtake_nil w.capacity).symm
  flows := (List.rtake_nil w.capacity).symm
  lastSizes := rfl

theorem advance (keeps : w.Keeps limit values sizes) (room : 0 < limit) (step : Step α) :
    (w.advance step).Keeps limit (if step.isReset then [] else values ++ step.value?.toList)
      (if step.isReset then [] else sizes ++ step.sizes?.toList) := by
  cases step with
  | midpoint x => exact (List.append_nil sizes).symm ▸ keeps.push room x
  | tradePrice x => exact (List.append_nil sizes).symm ▸ keeps.push room x
  | bestSizes bid ask => exact (List.append_nil values).symm ▸ keeps.pushSizes room bid ask
  | reset => exact keeps.capacity ▸ reset w

end Keeps

theorem ofSize?_eq_some_iff {size : Nat} :
    ofSize? size = some w ↔ 8 * max size 1 ≤ byteLimit ∧ w = empty (max size 1) := by
  rw [ofSize?, Option.ite_none_right_eq_some, Option.some_inj, eq_comm (a := w)]

theorem keeps_advanceAll {size : Nat} (made : ofSize? size = some w) (steps : List (Step α)) :
    (w.advanceAll steps).Keeps (max size 1) (Step.valuesSinceReset steps)
      (Step.sizesSinceReset steps) := by
  obtain ⟨-, rfl⟩ := ofSize?_eq_some_iff.1 made
  induction steps using List.reverseRecOn with
  | nil => exact Keeps.reset (empty (max size 1))
  | append_singleton steps step ih =>
      rw [advanceAll_concat, Step.valuesSinceReset_concat, Step.sizesSinceReset_concat]
      exact ih.advance (Nat.le_max_right _ _) step

end Window

end Tape
