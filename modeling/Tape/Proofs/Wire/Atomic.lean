import Tape.Proofs.Wire.Run

/-!
# What a frame can do to the store

Only a dYdX frame with a batch writes the store, and only under the symbol that it names. A frame
that is refused, a sign of life or a trade leaves the store as it was; so does a batch with one
unreadable group, wherever it stands.
-/

namespace Tape

theorem Venue.decode_stateless {venue : Venue} (other : venue ≠ .dydx) (now : Nat)
    (frame : String) : ∃ event, ∀ store, venue.decode now store frame = (event, store) := by
  cases read : Json.read frame with
  | error flaw =>
      refine ⟨.unknown, fun store => ?_⟩
      simp only [Venue.decode, read]
  | ok v =>
      have answered : ∀ answer : Except FeedError Event,
          (∀ store, venue.decodeJson now store v = (answer, store)) →
            ∃ event, ∀ store, venue.decode now store frame = (event, store) := by
        intro answer decoded
        refine ⟨.ofAnswer answer, fun store => ?_⟩
        simp only [Venue.decode, read, decoded]
      cases venue with
      | bybit => exact answered (Wire.Bybit.decode now v) fun store => rfl
      | binance => exact answered (Wire.Binance.decode now v) fun store => rfl
      | dydx => exact absurd rfl other
      | hyperliquid => exact answered (Wire.Hyperliquid.decode now v) fun store => rfl
      | uniswap => exact answered (Wire.Uniswap.decode now v) fun store => rfl

namespace Wire.Dydx

open Batch

/-- A group with a side that is there and is not a list. -/
def MistypedGroup (members : List (String × Json)) : Prop :=
  ∃ name ∈ ["bids", "asks"], ∃ v, Json.find? name members = some v ∧ v.items? = none

/-- Contents with a mistyped group among their groups, at any place. -/
def Mistyped : Json → Prop
  | .record members => MistypedGroup members
  | .list updates => ∃ members, .record members ∈ updates ∧ MistypedGroup members
  | _ => False

theorem groupOf?_of_mistyped {members : List (String × Json)} (mistyped : MistypedGroup members) :
    groupOf? members = none := by
  obtain ⟨name, side, v, present, notList⟩ := mistyped
  have unread : itemsOf? (Json.find? name members) = none := by
    rw [present]
    exact notList
  rcases List.mem_cons.1 side with rfl | asks
  · rw [groupOf?, unread]
    rfl
  · rw [List.mem_singleton.1 asks] at unread
    rw [groupOf?, unread]
    cases itemsOf? (Json.find? "bids" members) <;> rfl

theorem mapM_groupOf?_of_mistyped {updates : List (List (String × Json))}
    {members : List (String × Json)} (member : members ∈ updates)
    (unread : groupOf? members = none) : updates.mapM groupOf? = none := by
  induction updates with
  | nil => cases member
  | cons first rest ih =>
      rw [List.mapM_cons]
      rcases List.mem_cons.1 member with rfl | later
      · rw [unread]
        rfl
      · rw [ih later]
        cases groupOf? first <;> rfl

theorem groupsOf?_of_mistyped {contents : Json} (mistyped : Mistyped contents) :
    groupsOf? contents = none := by
  cases contents with
  | record members =>
      rw [groupsOf?, groupOf?_of_mistyped mistyped]
      rfl
  | list updates =>
      obtain ⟨members, member, group⟩ := mistyped
      have held : members ∈ updates.filterMap membersOf? :=
        List.mem_filterMap.2 ⟨.record members, member, rfl⟩
      exact mapM_groupOf?_of_mistyped held (groupOf?_of_mistyped group)
  | null => rfl
  | flag b => rfl
  | number n => rfl
  | text s => rfl

theorem ofFrame?_of_mistyped {frame : String} {v contents : Json}
    (known : Json.read frame = .ok v) (present : v.get? "contents" = some contents)
    (mistyped : Mistyped contents) : ofFrame? frame = none := by
  have noBatch : ∀ b, ofJson? v ≠ some b := by
    intro b read
    obtain ⟨_, _, _, _, other, _, hasContents, hasGroups, _, _⟩ := ofJson?_eq_some read
    rw [present] at hasContents
    cases hasContents
    rw [groupsOf?_of_mistyped mistyped] at hasGroups
    cases hasGroups
  rw [ofFrame?, known]
  exact Option.eq_none_iff_forall_ne_some.2 noBatch

theorem symbol_of_ofFrame? {frame : String} {b : Batch} (read : ofFrame? frame = some b) :
    ∃ v id, Json.read frame = .ok v ∧ v.getText? "id" = some id ∧ b.symbol = Text.upper id := by
  rw [ofFrame?] at read
  split at read
  next v known =>
    obtain ⟨_, _, _, id, _, hasId, _, _, symbol, _⟩ := ofJson?_eq_some read
    exact ⟨v, id, known, hasId, symbol⟩
  next => cases read

theorem frameClass_applyTo (b : Batch) (now : Nat) (store : BookStore) :
    (b.applyTo now store).1.frameClass = .book ∨ (b.applyTo now store).1.frameClass = .unknown := by
  rw [applyTo_eq]
  split
  · exact .inr rfl
  · exact .inl rfl

end Wire.Dydx

open Wire.Dydx

/-- The store is as it was when the answer is an error, a sign of life or a trade, when the text is
not JSON, when the venue is not dYdX, and when a batch has a mistyped group. A dYdX frame leaves the
depth and every book but that of the symbol it names. -/
theorem Venue.decode_atomic (venue : Venue) (now : Nat) (store : BookStore) (frame : String) :
    let answer := venue.decode now store frame
    (answer.1.frameClass ∈ [.error, .heartbeat, .trade] → answer.2 = store) ∧
      ((∀ v, Json.read frame ≠ .ok v) → answer.2 = store) ∧
      (venue ≠ .dydx → answer.2 = store) ∧
      (venue = .dydx →
        answer.2.depth = store.depth ∧
          ∀ symbol,
            (∀ v id, Json.read frame = .ok v → v.getText? "id" = some id → symbol ≠ Text.upper id) →
              answer.2.book? symbol = store.book? symbol) ∧
      (venue = .dydx → ∀ v contents, Json.read frame = .ok v → v.get? "contents" = some contents →
        v.getText? "channel" = some "v4_orderbook" → Mistyped contents → answer.2 = store) := by
  intro answer
  by_cases other : venue = .dydx
  · subst other
    cases read : Batch.ofFrame? frame with
    | none =>
        have same : answer.2 = store := store_of_no_batch read now store
        exact ⟨fun _ => same, fun _ => same, fun _ => same,
          fun _ => ⟨congrArg _ same, fun symbol _ => congrArg (·.book? symbol) same⟩,
          fun _ _ _ _ _ _ _ => same⟩
    | some b =>
        have applied : answer = b.applyTo now store := decode_frame_of_batch read now store
        obtain ⟨v, id, known, hasId, named⟩ := symbol_of_ofFrame? read
        rw [applied]
        refine ⟨?_, fun notJson => absurd known (notJson v), fun impossible => absurd rfl impossible,
          fun _ => ⟨Batch.depth_applyTo b now store, ?_⟩, ?_⟩
        · intro kind
          rcases frameClass_applyTo b now store with isBook | isUnknown
          · rw [isBook] at kind
            exact absurd kind (by decide)
          · rw [isUnknown] at kind
            exact absurd kind (by decide)
        · intro symbol elsewhere
          apply Batch.book?_applyTo_of_ne
          rw [named]
          exact elsewhere v id known hasId
        · intro _ w contents read' present _ mistyped
          rw [ofFrame?_of_mistyped read' present mistyped] at read
          cases read
  · obtain ⟨event, decoded⟩ := Venue.decode_stateless other now frame
    have same : answer.2 = store := by
      show (venue.decode now store frame).2 = store
      rw [decoded]
    exact ⟨fun _ => same, fun _ => same, fun _ => same, fun dydx => absurd dydx other,
      fun dydx => absurd dydx other⟩

/-- A snapshot with a mistyped group after a valid one is refused, and the book from before stays. -/
theorem Venue.decode_atomic_late_mistyped_group :
    let first := "\x7b\x22type\x22:\x22subscribed\x22,\x22channel\x22:\x22v4_orderbook\x22," ++
      "\x22id\x22:\x22BTC-USD\x22,\x22contents\x22:\x7b\x22bids\x22:[[\x2299.5\x22,\x222\x22]]\x7d\x7d"
    let second := "\x7b\x22type\x22:\x22subscribed\x22,\x22channel\x22:\x22v4_orderbook\x22," ++
      "\x22id\x22:\x22BTC-USD\x22,\x22contents\x22:[\x7b\x22bids\x22:[[\x2298\x22,\x221\x22]]\x7d," ++
      "\x7b\x22asks\x22:true\x7d]\x7d"
    let store := (Venue.dydx.decode 1 (.withDepth 10) first).2
    let answer := Venue.dydx.decode 2 store second
    (store.book? "BTC-USD").isSome ∧ answer.1.frameClass = .error ∧ answer.2 = store := by
  intro first second store answer
  have refused : answer.1.frameClass = .error := by decide +kernel
  have kept := (Venue.decode_atomic .dydx 2 store second).1
  refine ⟨by decide +kernel, refused, kept ?_⟩
  rw [show (Venue.dydx.decode 2 store second).1.frameClass = .error from refused]
  exact List.mem_cons_self

end Tape
