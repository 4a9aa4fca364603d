import Tape.Proofs.Delta.Differences

/-!
# When checkpoints come

An observer who sees every call of an encoder and what came of it knows, for each symbol, when its
last checkpoint was. As long as the clock does not go back, this alone decides which updates are
checkpoints: the first of a symbol, and from then on those for which the last one is old enough.
-/

namespace Tape

deriving instance DecidableEq for EncoderCall

namespace EncoderCall

def isClear : EncoderCall → Bool
  | next _ _ _ => false
  | clear => true

def symbol? : EncoderCall → Option String
  | next book _ _ => some book.symbol
  | clear => none

/-- The reading of the clock at a call. -/
def time? : EncoderCall → Option Nat
  | next _ _ now => some now
  | clear => none

end EncoderCall

def BookUpdate.isCheckpoint (u : BookUpdate) : Bool := u.kind = .checkpoint

/-- The first levels of a book as a checkpoint. -/
def BookUpdate.whole (book : Snapshot) (depth : Nat) : BookUpdate :=
  ⟨.checkpoint, book.bids.take depth, book.asks.take depth⟩

/-- A call of an encoder and what came of it. -/
structure AnsweredCall where
  call : EncoderCall
  update : Option BookUpdate
  deriving DecidableEq

namespace AnsweredCall

/-- When a call led to a checkpoint of a symbol. -/
def checkpointTime? (symbol : String) (a : AnsweredCall) : Option Nat :=
  if a.call.symbol? = some symbol ∧ a.update.any BookUpdate.isCheckpoint then a.call.time? else none

/-- The calls after the last clear, the latest first. -/
def sinceClear (past : List AnsweredCall) : List AnsweredCall :=
  past.reverse.takeWhile fun a => !a.call.isClear

/-- Whether there was a call for a symbol since the last clear. -/
def isKnown (symbol : String) (past : List AnsweredCall) : Bool :=
  (sinceClear past).any fun a => a.call.symbol? = some symbol

/-- When a symbol had its last checkpoint, if that was since the last clear. -/
def lastCheckpoint? (symbol : String) (past : List AnsweredCall) : Option Nat :=
  (sinceClear past).findSome? (checkpointTime? symbol)

section Append

variable (symbol : String) (past : List AnsweredCall) (update : Option BookUpdate)
  (book : Snapshot) (depth now : Nat)

theorem isKnown_append_clear : isKnown symbol (past ++ [⟨.clear, update⟩]) = false := by
  simp [isKnown, sinceClear, EncoderCall.isClear]

theorem lastCheckpoint?_append_clear :
    lastCheckpoint? symbol (past ++ [⟨.clear, update⟩]) = none := by
  simp [lastCheckpoint?, sinceClear, EncoderCall.isClear]

theorem sinceClear_append_next :
    sinceClear (past ++ [⟨.next book depth now, update⟩]) =
      ⟨.next book depth now, update⟩ :: sinceClear past := by
  simp [sinceClear, EncoderCall.isClear]

theorem isKnown_append_next :
    isKnown symbol (past ++ [⟨.next book depth now, update⟩]) =
      (decide (book.symbol = symbol) || isKnown symbol past) := by
  simp [isKnown, sinceClear_append_next, EncoderCall.symbol?]

theorem lastCheckpoint?_append_next :
    lastCheckpoint? symbol (past ++ [⟨.next book depth now, update⟩]) =
      if book.symbol = symbol ∧ update.any BookUpdate.isCheckpoint then some now
      else lastCheckpoint? symbol past := by
  rw [lastCheckpoint?, sinceClear_append_next, List.findSome?_cons]
  simp only [checkpointTime?, EncoderCall.symbol?, EncoderCall.time?, Option.some.injEq]
  split <;> simp_all [lastCheckpoint?]

end Append

theorem exists_time_of_lastCheckpoint? {symbol : String} {past : List AnsweredCall} {last : Nat}
    (known : lastCheckpoint? symbol past = some last) :
    ∃ a ∈ past, a.call.time? = some last := by
  obtain ⟨a, held, here⟩ := List.exists_of_findSome?_eq_some known
  refine ⟨a, List.mem_reverse.1 ((List.takeWhile_sublist _).subset held), ?_⟩
  rw [checkpointTime?] at here
  split at here
  · exact here
  · cases here

end AnsweredCall

open AnsweredCall

/-- What comes of a call for a book is what the past of its symbol asks for. -/
structure IsTimely (interval : Option Nat) (past : List AnsweredCall) (book : Snapshot)
    (depth now : Nat) (update : Option BookUpdate) : Prop where
  /-- The first call for a symbol gives a checkpoint. -/
  first : isKnown book.symbol past = false → update = some (.whole book depth)
  /-- A later call comes after a checkpoint. -/
  later : isKnown book.symbol past = true →
    ∃ last, lastCheckpoint? book.symbol past = some last
  /-- An old checkpoint is followed by another one, whether anything changed or not. -/
  due : ∀ last every, lastCheckpoint? book.symbol past = some last → interval = some every →
    last + every ≤ now → update = some (.whole book depth)
  /-- Changes are published while the last checkpoint is fresh. -/
  fresh : ∀ u, update = some u → u.kind = .delta →
    ∃ last, lastCheckpoint? book.symbol past = some last ∧
      ∀ every, interval = some every → now < last + every
  /-- Two checkpoints are no closer than the interval. -/
  apart : ∀ last every u, lastCheckpoint? book.symbol past = some last → interval = some every →
    update = some u → u.isCheckpoint = true → last + every ≤ now
  /-- Without an interval there are no later checkpoints. -/
  only : interval = none → isKnown book.symbol past = true →
    ∀ u, update = some u → u.isCheckpoint = false

namespace DeltaEncoder

/-- Calls with what comes of each. -/
def answers (e : DeltaEncoder) : List EncoderCall → List AnsweredCall
  | [] => []
  | call :: rest => ⟨call, (e.answer call).1⟩ :: (e.answer call).2.answers rest

theorem map_call_answers (e : DeltaEncoder) (calls : List EncoderCall) :
    (e.answers calls).map AnsweredCall.call = calls := by
  induction calls generalizing e with
  | nil => rfl
  | cons call rest ih => exact congrArg (call :: ·) (ih _)

/-- Each answered call was made to the encoder that the calls before it left. -/
theorem exists_calls_of_answers {e : DeltaEncoder} {calls : List EncoderCall}
    {past future : List AnsweredCall} {a : AnsweredCall}
    (run : e.answers calls = past ++ a :: future) :
    ∃ earlier later, calls = earlier ++ a.call :: later ∧ past = e.answers earlier ∧
      a.update = ((e.after earlier).answer a.call).1 := by
  induction past generalizing e calls with
  | nil =>
      cases calls with
      | nil => cases run
      | cons call rest =>
          cases run
          exact ⟨[], rest, rfl, rfl, rfl⟩
  | cons first others ih =>
      cases calls with
      | nil => cases run
      | cons call rest =>
          obtain ⟨rfl, tail⟩ := List.cons.inj run
          obtain ⟨earlier, later, rfl, rfl, same⟩ := ih tail
          exact ⟨call :: earlier, later, rfl, rfl, same⟩

/-- An encoder remembers of each symbol when its last checkpoint was. -/
structure Tracks (e : DeltaEncoder) (past : List AnsweredCall) : Prop where
  known : ∀ symbol, (SymbolTable.get? symbol e.published).isSome = isKnown symbol past
  last : ∀ symbol, (SymbolTable.get? symbol e.published).map Published.checkpointAt =
    lastCheckpoint? symbol past

theorem tracks_new (interval : Option Nat) : (new interval).Tracks [] where
  known _ := rfl
  last _ := rfl

variable {e : DeltaEncoder} {past : List AnsweredCall}

theorem tracks_clear (e : DeltaEncoder) (past : List AnsweredCall) (update : Option BookUpdate) :
    e.clear.Tracks (past ++ [⟨.clear, update⟩]) where
  known symbol := (isKnown_append_clear symbol past update).symm
  last symbol := (lastCheckpoint?_append_clear symbol past update).symm

/-- A call is remembered, with its own time when it led to a checkpoint. -/
theorem remembered_next (e : DeltaEncoder) (book : Snapshot) (depth now : Nat) :
    (SymbolTable.get? book.symbol (e.next book depth now).2.published).isSome = true ∧
      (SymbolTable.get? book.symbol (e.next book depth now).2.published).map
          Published.checkpointAt =
        if (e.next book depth now).1.any BookUpdate.isCheckpoint then some now
        else (SymbolTable.get? book.symbol e.published).map Published.checkpointAt := by
  rcases e.next_cases book depth now with
    ⟨_, call⟩ | ⟨previous, found, _, ⟨_, _, call⟩ | ⟨_, call⟩⟩
  · rw [call]
    simp only [get?_store_self]
    exact ⟨rfl, rfl⟩
  · rw [call]
    simp only [found]
    exact ⟨rfl, rfl⟩
  · rw [call]
    simp only [get?_store_self, found]
    exact ⟨rfl, rfl⟩

theorem Tracks.next (tracks : e.Tracks past) (book : Snapshot) (depth now : Nat) :
    (e.next book depth now).2.Tracks
      (past ++ [⟨.next book depth now, (e.next book depth now).1⟩]) := by
  obtain ⟨known, last⟩ := e.remembered_next book depth now
  constructor
  · intro symbol
    rw [isKnown_append_next]
    by_cases same : book.symbol = symbol
    · rw [← same, known, decide_eq_true rfl, Bool.true_or]
    · rw [e.get?_next_of_ne book depth now (Ne.symm same), decide_eq_false same, Bool.false_or]
      exact tracks.known symbol
  · intro symbol
    rw [lastCheckpoint?_append_next]
    by_cases same : book.symbol = symbol
    · subst same
      rw [last, tracks.last]
      simp only [true_and]
    · rw [e.get?_next_of_ne book depth now (Ne.symm same), if_neg fun both => same both.1]
      exact tracks.last symbol

theorem Tracks.answer (tracks : e.Tracks past) (call : EncoderCall) :
    (e.answer call).2.Tracks (past ++ [⟨call, (e.answer call).1⟩]) := by
  cases call with
  | next book depth now => exact tracks.next book depth now
  | clear => exact e.tracks_clear past none

theorem Tracks.after (tracks : e.Tracks past) (calls : List EncoderCall) :
    (e.after calls).Tracks (past ++ e.answers calls) := by
  induction calls generalizing e past with
  | nil =>
      rw [answers, List.append_nil]
      exact tracks
  | cons call rest ih =>
      have later := ih (tracks.answer call)
      rw [List.append_assoc] at later
      exact later

theorem interval_after (e : DeltaEncoder) (calls : List EncoderCall) :
    (e.after calls).interval = e.interval := by
  induction calls generalizing e with
  | nil => rfl
  | cons call rest ih =>
      have first : (e.answer call).2.interval = e.interval := by
        cases call with
        | next book depth now => exact e.interval_next book depth now
        | clear => rfl
      exact (ih _).trans first

theorem isDue_iff (e : DeltaEncoder) (previous : Published) (now : Nat) :
    e.isDue previous now = true ↔
      ∃ every, e.interval = some every ∧ every ≤ now - previous.checkpointAt := by
  cases interval : e.interval <;> simp [isDue, interval]

/-- What an encoder remembers of a symbol that was called for. -/
theorem Tracks.exists_previous (tracks : e.Tracks past) {symbol : String}
    (known : isKnown symbol past = true) :
    ∃ previous, SymbolTable.get? symbol e.published = some previous ∧
      lastCheckpoint? symbol past = some previous.checkpointAt := by
  rw [← tracks.known] at known
  obtain ⟨previous, found⟩ := Option.isSome_iff_exists.1 known
  exact ⟨previous, found, by rw [← tracks.last, found]; rfl⟩

theorem Tracks.exists_previous_of_last (tracks : e.Tracks past) {symbol : String} {last : Nat}
    (known : lastCheckpoint? symbol past = some last) :
    ∃ previous, SymbolTable.get? symbol e.published = some previous ∧
      previous.checkpointAt = last :=
  Option.map_eq_some_iff.1 ((tracks.last symbol).trans known)

section Next

variable {book : Snapshot} {depth now : Nat} {update : Option BookUpdate}

/-- A checkpoint is timely when nothing is remembered, or something old enough. -/
theorem Tracks.isTimely_whole (tracks : e.Tracks past)
    (due : ∀ previous, SymbolTable.get? book.symbol e.published = some previous →
      e.isDue previous now = true)
    (clock : ∀ last, lastCheckpoint? book.symbol past = some last → last ≤ now) :
    IsTimely e.interval past book depth now (some (.whole book depth)) where
  first _ := rfl
  later known := by
    obtain ⟨previous, _, last⟩ := tracks.exists_previous known
    exact ⟨_, last⟩
  due _ _ _ _ _ := rfl
  fresh := by
    intro u same impossible
    cases same
    cases impossible
  apart := by
    intro last every u known periodic _ _
    obtain ⟨previous, found, rfl⟩ := tracks.exists_previous_of_last known
    obtain ⟨other, same, old⟩ := (e.isDue_iff previous now).1 (due previous found)
    cases periodic.symm.trans same
    have := clock _ known
    omega
  only := by
    intro never known
    obtain ⟨previous, found, _⟩ := tracks.exists_previous known
    obtain ⟨every, periodic, _⟩ := (e.isDue_iff previous now).1 (due previous found)
    cases never.symm.trans periodic

/-- Changes, or nothing, are timely while what is remembered is not old enough. -/
theorem Tracks.isTimely_early (tracks : e.Tracks past) {previous : Published}
    (found : SymbolTable.get? book.symbol e.published = some previous)
    (early : e.isDue previous now = false)
    (changesOnly : ∀ u, update = some u → u.isCheckpoint = false) :
    IsTimely e.interval past book depth now update := by
  have known : isKnown book.symbol past = true := by
    rw [← tracks.known, found]
    rfl
  have last : lastCheckpoint? book.symbol past = some previous.checkpointAt := by
    rw [← tracks.last, found]
    rfl
  have recent : ∀ every, e.interval = some every → now < previous.checkpointAt + every := by
    intro every periodic
    refine Nat.lt_of_not_le fun old => ?_
    have due := (e.isDue_iff previous now).2 ⟨every, periodic, by omega⟩
    rw [early] at due
    cases due
  constructor
  · intro unknown
    rw [known] at unknown
    cases unknown
  · exact fun _ => ⟨_, last⟩
  · intro other every same periodic old
    cases last.symm.trans same
    exact absurd (recent every periodic) (Nat.not_lt.2 old)
  · exact fun u _ _ => ⟨_, last, recent⟩
  · intro other every u _ _ published whole
    rw [changesOnly u published] at whole
    cases whole
  · exact fun _ _ => changesOnly

/-- One call answers to the past as an observer knows it. -/
theorem Tracks.isTimely_next (tracks : e.Tracks past) (book : Snapshot) (depth : Nat)
    (clock : ∀ last, lastCheckpoint? book.symbol past = some last → last ≤ now) :
    IsTimely e.interval past book depth now (e.next book depth now).1 := by
  rcases e.next_cases book depth now with
    ⟨due, call⟩ | ⟨previous, found, early, ⟨_, _, call⟩ | ⟨_, call⟩⟩
  · rw [call]
    exact tracks.isTimely_whole due clock
  · rw [call]
    refine tracks.isTimely_early found early ?_
    intro u impossible
    cases impossible
  · rw [call]
    refine tracks.isTimely_early found early ?_
    intro u same
    cases same
    rfl

end Next

/-- In every run of an encoder whose clock does not go back, at every place, a call for a book gives
a checkpoint exactly when the past of its symbol asks for one. -/
theorem checkpoints_timely (interval : Option Nat) (calls : List EncoderCall)
    (clock : (calls.filterMap EncoderCall.time?).Pairwise (· ≤ ·)) {past future : List AnsweredCall}
    {book : Snapshot} {depth now : Nat} {update : Option BookUpdate}
    (run : (new interval).answers calls = past ++ ⟨.next book depth now, update⟩ :: future) :
    IsTimely interval past book depth now update := by
  obtain ⟨earlier, later, rfl, rfl, answered⟩ := exists_calls_of_answers run
  have tracks : ((new interval).after earlier).Tracks ((new interval).answers earlier) :=
    (tracks_new interval).after earlier
  have upheld : ∀ last,
      lastCheckpoint? book.symbol ((new interval).answers earlier) = some last → last ≤ now := by
    intro last known
    obtain ⟨a, member, time⟩ := exists_time_of_lastCheckpoint? known
    have made : a.call ∈ earlier := by
      rw [← (new interval).map_call_answers earlier]
      exact List.mem_map_of_mem member
    rw [List.filterMap_append, List.pairwise_append] at clock
    exact clock.2.2 last (List.mem_filterMap.2 ⟨_, made, time⟩) now List.mem_cons_self
  have timely := tracks.isTimely_next book depth upheld
  rw [interval_after] at timely
  have same : update = (((new interval).after earlier).next book depth now).1 := answered
  rw [same]
  exact timely

/-- An unchanged book at the time when a checkpoint is due, with another symbol in between. -/
theorem checkpoints_timely_of_unchanged :
    let book : Snapshot := ⟨.dydx, "BTC-USD", 1, [⟨100, 1⟩, ⟨99, 2⟩], [⟨101, 1⟩]⟩
    let other : Snapshot := ⟨.dydx, "ETH-USD", 1, [⟨10, 1⟩], []⟩
    let calls : List EncoderCall :=
      [.next book 10 0, .next other 10 5, .next book 10 999, .next book 10 1000]
    let past : List AnsweredCall := [⟨.next book 10 0, some (.whole book 10)⟩,
      ⟨.next other 10 5, some (.whole other 10)⟩, ⟨.next book 10 999, none⟩]
    (calls.filterMap EncoderCall.time?).Pairwise (· ≤ ·) ∧
      (new (some 1000)).answers calls =
          past ++ ⟨.next book 10 1000, some (.whole book 10)⟩ :: [] ∧
        IsTimely (some 1000) past book 10 1000 (some (.whole book 10)) := by
  intro book other calls past
  have clock : (calls.filterMap EncoderCall.time?).Pairwise (· ≤ ·) := by decide
  have run : (new (some 1000)).answers calls =
      past ++ ⟨.next book 10 1000, some (.whole book 10)⟩ :: [] := by decide +kernel
  exact ⟨clock, run, checkpoints_timely (some 1000) calls clock run⟩

end DeltaEncoder

end Tape
