import Tape.Market.Snapshot
import Tape.Proofs.Binary64.Order

/-!
# Canonical snapshots

A snapshot is canonical when bids fall and asks rise strictly in price, and every level has a finite
price and a finite quantity above zero. A snapshot of levels in any order is canonical, and no side
of it is longer than the limit.
-/

namespace Tape

/-- A level with a finite price and a finite quantity, both above zero. -/
structure Level.Sound (l : Level Float) : Prop where
  price_finite : Binary64.isFinite l.price = true
  price_positive : Binary64.less 0 l.price = true
  quantity_finite : Binary64.isFinite l.quantity = true
  quantity_positive : Binary64.less 0 l.quantity = true

theorem Level.isValid_iff_sound (l : Level Float) : l.isValid = true ↔ l.Sound := by
  rw [Level.isValid_iff, Binary64.isPositive_iff_less, Binary64.isPositive_iff_less]
  constructor
  · rintro ⟨⟨priceFinite, pricePositive⟩, quantityFinite, quantityPositive⟩
    exact ⟨priceFinite, pricePositive, quantityFinite, quantityPositive⟩
  · intro sound
    exact ⟨⟨sound.price_finite, sound.price_positive⟩, sound.quantity_finite,
      sound.quantity_positive⟩

instance (l : Level Float) : Decidable l.Sound := decidable_of_iff _ l.isValid_iff_sound

namespace Level.Sound

variable {l : Level Float}

theorem price_isPositive (sound : l.Sound) : Binary64.isPositive l.price = true :=
  Binary64.isPositive_iff_less.2 ⟨sound.price_finite, sound.price_positive⟩

theorem quantity_isPositive (sound : l.Sound) : Binary64.isPositive l.quantity = true :=
  Binary64.isPositive_iff_less.2 ⟨sound.quantity_finite, sound.quantity_positive⟩

end Level.Sound

namespace Snapshot

structure Canonical (s : Snapshot) : Prop where
  bids_fall : s.bids.Pairwise fun a b => Binary64.less b.price a.price = true
  asks_rise : s.asks.Pairwise fun a b => Binary64.less a.price b.price = true
  bids_sound : ∀ level ∈ s.bids, level.Sound
  asks_sound : ∀ level ∈ s.asks, level.Sound

theorem canonical_iff (s : Snapshot) :
    s.Canonical ↔
      (s.bids.Pairwise fun a b => Binary64.less b.price a.price = true) ∧
        (s.asks.Pairwise fun a b => Binary64.less a.price b.price = true) ∧
          (∀ level ∈ s.bids, level.Sound) ∧ ∀ level ∈ s.asks, level.Sound := by
  constructor
  · intro canonical
    exact ⟨canonical.bids_fall, canonical.asks_rise, canonical.bids_sound, canonical.asks_sound⟩
  · rintro ⟨fall, rise, bids, asks⟩
    exact ⟨fall, rise, bids, asks⟩

instance (s : Snapshot) : Decidable s.Canonical := decidable_of_iff' _ s.canonical_iff

theorem canonical_empty (venue : Venue) (symbol : String) (stamp : Nat) :
    (empty venue symbol stamp).Canonical where
  bids_fall := .nil
  asks_rise := .nil
  bids_sound := by
    intro level member
    cases member
  asks_sound := by
    intro level member
    cases member

/-! ## Levels in order of price -/

theorem rank_transitive (a b c : Level Float)
    (first : decide (Binary64.rank a.price ≤ Binary64.rank b.price) = true)
    (second : decide (Binary64.rank b.price ≤ Binary64.rank c.price) = true) :
    decide (Binary64.rank a.price ≤ Binary64.rank c.price) = true :=
  decide_eq_true (Int.le_trans (of_decide_eq_true first) (of_decide_eq_true second))

theorem rank_total (a b : Level Float) :
    (decide (Binary64.rank a.price ≤ Binary64.rank b.price) ||
      decide (Binary64.rank b.price ≤ Binary64.rank a.price)) = true := by
  simpa using Int.le_total _ _

theorem byPrice_eq_mergeSort (levels : List (Level Float)) :
    byPrice levels = (levels.filter Level.isValid).mergeSort fun a b =>
      Binary64.rank a.price ≤ Binary64.rank b.price :=
  stableSort_eq_mergeSort rank_transitive rank_total _

theorem mem_byPrice {levels : List (Level Float)} {level : Level Float} :
    level ∈ byPrice levels ↔ level ∈ levels ∧ level.Sound := by
  rw [byPrice_eq_mergeSort, List.mem_mergeSort, List.mem_filter, Level.isValid_iff_sound]

theorem byPrice_rises (levels : List (Level Float)) :
    (byPrice levels).Pairwise fun a b => Binary64.rank a.price ≤ Binary64.rank b.price := by
  rw [byPrice_eq_mergeSort]
  exact (List.pairwise_mergeSort rank_transitive rank_total _).imp of_decide_eq_true

/-! ## One level of each price -/

theorem overwriteLast_append_singleton (earlier : List (Level Float)) (last level : Level Float) :
    overwriteLast (earlier ++ [last]) level =
      if Binary64.equal last.price level.price then earlier ++ [level]
      else earlier ++ [last] ++ [level] := by
  rw [overwriteLast, List.getLast?_concat]
  simp only [List.dropLast_concat]

theorem lastOfEach_append_singleton (levels : List (Level Float)) (level : Level Float) :
    lastOfEach (levels ++ [level]) = overwriteLast (lastOfEach levels) level := by
  rw [lastOfEach, List.foldl_append]
  rfl

/-- Valid levels that rise strictly in price. -/
structure Strict (kept : List (Level Float)) : Prop where
  rise : kept.Pairwise fun a b => Binary64.rank a.price < Binary64.rank b.price
  sound : ∀ level ∈ kept, level.Sound

section Step

variable {kept : List (Level Float)} (strict : Strict kept) {level : Level Float}
  (sound : level.Sound)
  (below : ∀ other ∈ kept, Binary64.rank other.price ≤ Binary64.rank level.price)
include strict sound below

/-- A level that is not below the others takes the place of the last one, if that has its price, or
is above all of them. -/
theorem overwriteLast_cases :
    (∃ earlier last, kept = earlier ++ [last] ∧ last.price = level.price ∧
        overwriteLast kept level = earlier ++ [level]) ∨
      ((∀ other ∈ kept, Binary64.rank other.price < Binary64.rank level.price) ∧
        overwriteLast kept level = kept ++ [level]) := by
  rcases List.eq_nil_or_concat' kept with rfl | ⟨earlier, last, rfl⟩
  · exact .inr ⟨by simp, rfl⟩
  · have here : last ∈ earlier ++ [last] := List.mem_append_right _ List.mem_cons_self
    have notAbove := below last here
    have exactly := Binary64.equal_iff_rank_eq (strict.sound last here).price_isPositive
      sound.price_isPositive
    rw [overwriteLast_append_singleton]
    cases equal : Binary64.equal last.price level.price with
    | true =>
        exact .inl ⟨earlier, last, rfl, Binary64.eq_of_rank_eq (exactly.1 equal), if_pos rfl⟩
    | false =>
        have apart : Binary64.rank last.price ≠ Binary64.rank level.price := by
          intro same
          rw [exactly.2 same] at equal
          cases equal
        refine .inr ⟨fun other member => ?_, if_neg Bool.false_ne_true⟩
        rcases List.mem_append.1 member with held | isLast
        · have less := (List.pairwise_append.1 strict.rise).2.2 other held last List.mem_cons_self
          omega
        · rw [List.mem_singleton.1 isLast]
          omega

/-- The level is put in, and the one of its price taken out. -/
theorem mem_overwriteLast (x : Level Float) :
    x ∈ overwriteLast kept level ↔ x = level ∨ (x ∈ kept ∧ x.price ≠ level.price) := by
  rcases overwriteLast_cases strict sound below with
    ⟨earlier, last, rfl, same, done⟩ | ⟨above, done⟩
  · have apart : x ∈ earlier → x.price ≠ level.price := by
      intro member equal
      have less := (List.pairwise_append.1 strict.rise).2.2 x member last List.mem_cons_self
      rw [equal, same] at less
      exact absurd less (Int.lt_irrefl _)
    rw [done]
    simp only [List.mem_append, List.mem_singleton]
    constructor
    · rintro (member | rfl)
      · exact .inr ⟨.inl member, apart member⟩
      · exact .inl rfl
    · rintro (rfl | ⟨member | rfl, differs⟩)
      · exact .inr rfl
      · exact .inl member
      · exact absurd same differs
  · rw [done, List.mem_append, List.mem_singleton]
    constructor
    · rintro (member | rfl)
      · refine .inr ⟨member, fun equal => absurd (above x member) ?_⟩
        rw [equal]
        exact Int.lt_irrefl _
      · exact .inl rfl
    · rintro (rfl | ⟨member, _⟩)
      · exact .inr rfl
      · exact .inl member

theorem strict_overwriteLast : Strict (overwriteLast kept level) where
  rise := by
    rcases overwriteLast_cases strict sound below with
      ⟨earlier, last, rfl, same, done⟩ | ⟨above, done⟩
    · obtain ⟨start, _, before⟩ := List.pairwise_append.1 strict.rise
      rw [done]
      refine List.pairwise_append.2 ⟨start, List.pairwise_singleton _ _, ?_⟩
      intro x member y isLevel
      rw [List.mem_singleton.1 isLevel, ← same]
      exact before x member last List.mem_cons_self
    · rw [done]
      refine List.pairwise_append.2 ⟨strict.rise, List.pairwise_singleton _ _, ?_⟩
      intro x member y isLevel
      rw [List.mem_singleton.1 isLevel]
      exact above x member
  sound := by
    intro x member
    rcases (mem_overwriteLast strict sound below x).1 member with rfl | ⟨held, _⟩
    · exact sound
    · exact strict.sound x held

end Step

/-- What the loop makes of levels in order: strictly rising levels, all of them among those it went
through. -/
theorem strict_lastOfEach {levels : List (Level Float)}
    (order : levels.Pairwise fun a b => Binary64.rank a.price ≤ Binary64.rank b.price)
    (sound : ∀ level ∈ levels, level.Sound) :
    Strict (lastOfEach levels) ∧ ∀ level ∈ lastOfEach levels, level ∈ levels := by
  induction levels using List.reverseRecOn with
  | nil =>
      refine ⟨⟨.nil, ?_⟩, ?_⟩ <;>
      · intro level member
        cases member
  | append_singleton earlier last ih =>
      obtain ⟨start, _, below⟩ := List.pairwise_append.1 order
      obtain ⟨strict, held⟩ := ih start fun level member =>
        sound level (List.mem_append_left _ member)
      have lastSound := sound last (List.mem_append_right _ List.mem_cons_self)
      have notAbove : ∀ other ∈ lastOfEach earlier,
          Binary64.rank other.price ≤ Binary64.rank last.price :=
        fun other member => below other (held other member) last List.mem_cons_self
      rw [lastOfEach_append_singleton]
      refine ⟨strict_overwriteLast strict lastSound notAbove, fun level member => ?_⟩
      rcases (mem_overwriteLast strict lastSound notAbove level).1 member with rfl | ⟨here, _⟩
      · exact List.mem_append_right _ List.mem_cons_self
      · exact List.mem_append_left _ (held level here)

/-! ## Levels in any order -/

theorem strict_unique (levels : List (Level Float)) : Strict (unique levels) :=
  (strict_lastOfEach (byPrice_rises levels) fun _ member => (mem_byPrice.1 member).2).1

theorem Strict.prices_rise {kept : List (Level Float)} (strict : Strict kept) :
    kept.Pairwise fun a b => Binary64.less a.price b.price = true := by
  refine List.Pairwise.imp_of_mem ?_ strict.rise
  intro a b ha hb below
  exact (Binary64.less_iff_rank_lt (strict.sound a ha).price_isPositive
    (strict.sound b hb).price_isPositive).2 below

theorem canonical_ofLevels (venue : Venue) (symbol : String) (stamp : Nat)
    (bids asks : List (Level Float)) : (ofLevels venue symbol stamp bids asks).Canonical where
  bids_fall := by
    have fall := List.pairwise_reverse.2 (strict_unique bids).prices_rise
    exact fall.sublist (List.take_sublist _ _)
  asks_rise := (strict_unique asks).prices_rise.sublist (List.take_sublist _ _)
  bids_sound := by
    intro level member
    exact (strict_unique bids).sound level (List.mem_reverse.1 (List.mem_of_mem_take member))
  asks_sound := by
    intro level member
    exact (strict_unique asks).sound level (List.mem_of_mem_take member)

theorem length_bids_ofLevels_le (venue : Venue) (symbol : String) (stamp : Nat)
    (bids asks : List (Level Float)) :
    (ofLevels venue symbol stamp bids asks).bids.length ≤ depthLimit :=
  List.length_take_le _ _

theorem length_asks_ofLevels_le (venue : Venue) (symbol : String) (stamp : Nat)
    (bids asks : List (Level Float)) :
    (ofLevels venue symbol stamp bids asks).asks.length ≤ depthLimit :=
  List.length_take_le _ _

/-! ## Levels that are not lost -/

theorem overwriteLast_ne_nil (kept : List (Level Float)) (level : Level Float) :
    overwriteLast kept level ≠ [] := by
  rw [overwriteLast]
  split
  · split <;> simp
  · simp

theorem lastOfEach_ne_nil {levels : List (Level Float)} (held : levels ≠ []) :
    lastOfEach levels ≠ [] := by
  rcases List.eq_nil_or_concat' levels with rfl | ⟨earlier, last, rfl⟩
  · exact absurd rfl held
  · rw [lastOfEach_append_singleton]
    exact overwriteLast_ne_nil _ _

variable {levels : List (Level Float)} {level : Level Float}

theorem unique_ne_nil (member : level ∈ levels) (sound : level.Sound) :
    unique levels ≠ [] :=
  lastOfEach_ne_nil (List.ne_nil_of_mem (mem_byPrice.2 ⟨member, sound⟩))

theorem bestBids_ne_nil (member : level ∈ levels) (sound : level.Sound) : bestBids levels ≠ [] := by
  simpa [bestBids, normalizeSide, depthLimit] using unique_ne_nil member sound

theorem bestAsks_ne_nil (member : level ∈ levels) (sound : level.Sound) : bestAsks levels ≠ [] := by
  simpa [bestAsks, normalizeSide, depthLimit] using unique_ne_nil member sound

end Snapshot

end Tape
