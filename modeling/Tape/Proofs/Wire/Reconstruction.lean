import Tape.Proofs.Wire.Run

/-!
# Books as the outcome of their log

The log of a symbol is what was accepted for it since its book was last replaced. After any frames
the book holds, under each positive price, what the last change in the log left there, and a batch
means a book exactly when its log leaves a level.
-/

namespace Tape.Wire.Dydx

namespace Batch

/-- The batches from the last one that replaces the book. -/
def sinceReset : List Batch → List Batch
  | [] => []
  | b :: rest => if rest.any Batch.replaces then sinceReset rest else b :: rest

/-- The batches of a symbol among frames, from the last one that replaces its book. -/
def log (symbol : String) (frames : List (Nat × String)) : List Batch :=
  sinceReset ((frames.filterMap fun frame => ofFrame? frame.2).filter fun b => b.symbol = symbol)

/-- The book that batches build from nothing. -/
def bookOf (batches : List Batch) : LiveBook :=
  ⟨BookSide.applyAll [] (batches.flatMap bids), BookSide.applyAll [] (batches.flatMap asks)⟩

theorem sinceReset_append_of_replaces {last : Batch} (replaces : last.replaces = true)
    (batches : List Batch) : sinceReset (batches ++ [last]) = [last] := by
  induction batches with
  | nil => rfl
  | cons first rest ih =>
      have later : (rest ++ [last]).any Batch.replaces = true := by
        simp [replaces]
      rw [List.cons_append, sinceReset, if_pos later]
      exact ih

theorem sinceReset_append_of_extends {last : Batch} (extends' : last.replaces = false)
    (batches : List Batch) : sinceReset (batches ++ [last]) = sinceReset batches ++ [last] := by
  induction batches with
  | nil => rfl
  | cons first rest ih =>
      have later : (rest ++ [last]).any Batch.replaces = rest.any Batch.replaces := by
        simp [extends']
      rw [List.cons_append, sinceReset, sinceReset, later]
      split
      · exact ih
      · rfl

theorem mem_of_mem_sinceReset {batches : List Batch} {b : Batch}
    (member : b ∈ sinceReset batches) : b ∈ batches := by
  induction batches with
  | nil => exact member
  | cons first rest ih =>
      rw [sinceReset] at member
      split at member
      · exact List.mem_cons_of_mem _ (ih member)
      · exact member

/-! ## The log of a frame more -/

theorem log_append_of_no_batch {frame : String} (unread : ofFrame? frame = none) (symbol : String)
    (frames : List (Nat × String)) (now : Nat) :
    log symbol (frames ++ [(now, frame)]) = log symbol frames := by
  simp [log, List.filterMap_append, unread]

theorem log_append_of_ne {frame : String} {b : Batch} (read : ofFrame? frame = some b)
    {symbol : String} (differs : symbol ≠ b.symbol) (frames : List (Nat × String)) (now : Nat) :
    log symbol (frames ++ [(now, frame)]) = log symbol frames := by
  simp [log, List.filterMap_append, read, Ne.symm differs]

theorem log_append_self {frame : String} {b : Batch} (read : ofFrame? frame = some b)
    (frames : List (Nat × String)) (now : Nat) :
    log b.symbol (frames ++ [(now, frame)]) =
      if b.replaces then [b] else log b.symbol frames ++ [b] := by
  have grown : ((frames ++ [(now, frame)]).filterMap fun f => ofFrame? f.2).filter
        (fun other => other.symbol = b.symbol) =
      (frames.filterMap fun f => ofFrame? f.2).filter (fun other => other.symbol = b.symbol) ++
        [b] := by
    simp [List.filterMap_append, read]
  rw [log, grown]
  cases replaces : b.replaces with
  | true => exact sinceReset_append_of_replaces replaces _
  | false => exact sinceReset_append_of_extends replaces _

theorem proper_of_mem_log {symbol : String} {frames : List (Nat × String)} {b : Batch}
    (member : b ∈ log symbol frames) : b.Proper := by
  have held := (List.mem_filter.1 (mem_of_mem_sinceReset member)).1
  obtain ⟨frame, _, read⟩ := List.mem_filterMap.1 held
  exact proper_of_ofFrame? read

theorem proper_bids_log (symbol : String) (frames : List (Nat × String)) :
    ∀ change ∈ (log symbol frames).flatMap bids, change.Proper := by
  intro change member
  obtain ⟨b, held, here⟩ := List.mem_flatMap.1 member
  exact (proper_of_mem_log held).bids change here

theorem proper_asks_log (symbol : String) (frames : List (Nat × String)) :
    ∀ change ∈ (log symbol frames).flatMap asks, change.Proper := by
  intro change member
  obtain ⟨b, held, here⟩ := List.mem_flatMap.1 member
  exact (proper_of_mem_log held).asks change here

/-! ## Building -/

theorem bookOf_append (batches : List Batch) (b : Batch) :
    bookOf (batches ++ [b]) = (bookOf batches).applyGroups b.groups := by
  rw [LiveBook.applyGroups_eq, bookOf, List.flatMap_append, List.flatMap_append,
    BookSide.applyAll_append, BookSide.applyAll_append, List.flatMap_singleton,
    List.flatMap_singleton]
  rfl

theorem bookOf_log_append {frame : String} {b : Batch} (read : ofFrame? frame = some b)
    {frames : List (Nat × String)} {store : BookStore}
    (held : (store.book? b.symbol).getD .empty = bookOf (log b.symbol frames)) (now : Nat) :
    bookOf (log b.symbol (frames ++ [(now, frame)])) = b.bookAfter store := by
  rw [log_append_self read, bookAfter, held]
  cases b.replaces with
  | true => exact bookOf_append [] b
  | false => exact bookOf_append _ b

theorem bookOf_isEmpty_iff {batches : List Batch}
    (bidsProper : ∀ change ∈ batches.flatMap bids, change.Proper)
    (asksProper : ∀ change ∈ batches.flatMap asks, change.Proper) :
    (bookOf batches).isEmpty = false ↔
      LevelChange.LeaveLevel (batches.flatMap bids) ∨
        LevelChange.LeaveLevel (batches.flatMap asks) := by
  rw [BookSide.leaveLevel_iff bidsProper, BookSide.leaveLevel_iff asksProper, LiveBook.isEmpty,
    Bool.and_eq_false_iff, List.isEmpty_eq_false_iff, List.isEmpty_eq_false_iff]
  rfl

end Batch

open Batch

/-- One frame carries the books from their logs to their logs. -/
theorem book?_decode {frames : List (Nat × String)} {store : BookStore}
    (held : ∀ symbol, (store.book? symbol).getD .empty = bookOf (log symbol frames)) (now : Nat)
    (frame : String) (symbol : String) :
    ((Venue.dydx.decode now store frame).2.book? symbol).getD .empty =
      bookOf (log symbol (frames ++ [(now, frame)])) := by
  cases read : ofFrame? frame with
  | none =>
      rw [store_of_no_batch read, log_append_of_no_batch read]
      exact held symbol
  | some b =>
      rw [decode_frame_of_batch read]
      by_cases same : symbol = b.symbol
      · subst same
        rw [book?_applyTo_self, bookOf_log_append read (held b.symbol)]
        rfl
      · rw [book?_applyTo_of_ne b now store same, log_append_of_ne read same]
        exact held symbol

theorem book?_storeAfter (depth : Nat) (frames : List (Nat × String)) (symbol : String) :
    ((Venue.dydx.storeAfter (.withDepth depth) frames).book? symbol).getD .empty =
      bookOf (log symbol frames) := by
  induction frames using List.reverseRecOn generalizing symbol with
  | nil => rfl
  | append_singleton earlier last ih =>
      obtain ⟨now, frame⟩ := last
      rw [Venue.storeAfter_append]
      exact book?_decode ih now frame symbol

theorem frameClass_decode_of_batch {frame : String} {b : Batch} (read : ofFrame? frame = some b)
    (depth : Nat) (frames : List (Nat × String)) (now : Nat) :
    (Venue.dydx.decode now (Venue.dydx.storeAfter (.withDepth depth) frames) frame).1.frameClass =
      if (bookOf (log b.symbol (frames ++ [(now, frame)]))).isEmpty then .unknown else .book := by
  rw [decode_frame_of_batch read, bookOf_log_append read (book?_storeAfter depth frames b.symbol),
    applyTo_eq]
  split <;> rfl

/-- After any frames, each side of a symbol's book is the outcome of the symbol's log. A frame with
a batch means a book when the log with it leaves a level and nothing otherwise; a frame without one
changes no book, and on the channel of books it is refused or a sign of life. -/
theorem books_hold_log (depth : Nat) (frames : List (Nat × String)) (symbol : String) :
    let store := Venue.dydx.storeAfter (.withDepth depth) frames
    let book := (store.book? symbol).getD .empty
    book.bids.Holds ((log symbol frames).flatMap bids) ∧
      book.asks.Holds ((log symbol frames).flatMap asks) ∧
      ∀ now frame,
        let answer := Venue.dydx.decode now store frame
        (∀ b, ofFrame? frame = some b →
          let log := log b.symbol (frames ++ [(now, frame)])
          let leaves := LevelChange.LeaveLevel (log.flatMap bids) ∨
            LevelChange.LeaveLevel (log.flatMap asks)
          (leaves ∧ answer.1.frameClass = .book) ∨ (¬leaves ∧ answer.1.frameClass = .unknown)) ∧
        (ofFrame? frame = none →
          answer.2 = store ∧ answer.1.frameClass ≠ .book ∧
            ∀ v, Json.read frame = .ok v → v.getText? "channel" = some "v4_orderbook" →
              answer.1.frameClass = if isControl (v.getText? "type") (v.get? "contents")
                then .heartbeat else .error) := by
  intro store book
  have held : book = bookOf (log symbol frames) := book?_storeAfter depth frames symbol
  rw [held]
  refine ⟨BookSide.holds_applyAll (proper_bids_log symbol frames),
    BookSide.holds_applyAll (proper_asks_log symbol frames), ?_⟩
  intro now frame answer
  constructor
  · intro b read log leaves
    have level := bookOf_isEmpty_iff (proper_bids_log b.symbol (frames ++ [(now, frame)]))
      (proper_asks_log b.symbol (frames ++ [(now, frame)]))
    have means := frameClass_decode_of_batch read depth frames now
    cases empty : (bookOf log).isEmpty with
    | true =>
        refine .inr ⟨fun left => ?_, means.trans (if_pos empty)⟩
        have held := level.2 left
        rw [empty] at held
        cases held
    | false =>
        refine .inl ⟨level.1 empty, means.trans (if_neg ?_)⟩
        rw [empty]
        decide
  · intro unread
    exact ⟨store_of_no_batch unread now store, frameClass_ne_book_of_no_batch unread now store,
      fun v known channel => frameClass_of_no_batch known channel unread now store⟩

/-- A price that a later batch takes out is gone, the other one stays. -/
theorem books_hold_log_after_removal :
    let frames := [
      (1, "\x7b\x22type\x22:\x22subscribed\x22,\x22channel\x22:\x22v4_orderbook\x22,\x22id\x22:" ++
        "\x22btc-usd\x22,\x22contents\x22:\x7b\x22bids\x22:[[\x2299.5\x22,\x222\x22]," ++
        "[\x2299\x22,\x221\x22]]\x7d\x7d"),
      (2, "\x7b\x22type\x22:\x22channel_batch_data\x22,\x22channel\x22:\x22v4_orderbook\x22," ++
        "\x22id\x22:\x22BTC-USD\x22,\x22contents\x22:[\x7b\x22bids\x22:[[\x2299.50\x22,0]]\x7d]\x7d")]
    let book := ((Venue.dydx.storeAfter (.withDepth 10) frames).book? "BTC-USD").getD .empty
    (log "BTC-USD" frames).length = 2 ∧
      book.bids.quantityAt? ⟨false, 995, 1, by decide, by decide⟩ = none ∧
      book.bids.quantityAt? ⟨false, 99, 0, by decide, by decide⟩ = some 1 := by
  intro frames book
  have bids := (books_hold_log 10 frames "BTC-USD").1
  refine ⟨by decide +kernel, ?_, ?_⟩
  · rw [bids.quantity]
    decide +kernel
  · rw [bids.quantity]
    decide +kernel

end Tape.Wire.Dydx
