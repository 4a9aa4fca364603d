import Tape.Proofs.Book.Depth

/-!
# Books from a single list of changes

Changes of distinct prices build, from nothing, a side that holds the valid ones among them. When
their images are distinct too and keep the order of the prices, a snapshot of that side shows what
is published of the changes themselves, taken for levels.
-/

namespace Tape

namespace Ladder

variable {α : Type} {l : Ladder α} {key : Int}

theorem erase_of_absent (absent : ∀ x ∈ l, x.1 ≠ key) : l.erase key = l := by
  induction l with
  | nil => rfl
  | cons first rest ih =>
      rw [erase, if_neg (absent first List.mem_cons_self).symm]
      exact congrArg (first :: ·) (ih fun x member => absent x (List.mem_cons_of_mem _ member))

end Ladder

namespace LevelChange

variable {changes : List LevelChange}

/-- Changes whose prices are told apart by their images, in the same order. -/
structure Apart (changes : List LevelChange) : Prop where
  prices : changes.Pairwise fun a b => a.price.units ≠ b.price.units
  images : changes.Pairwise fun a b => a.price.toFloat ≠ b.price.toFloat
  order : ∀ a ∈ changes, ∀ b ∈ changes, a.price.units < b.price.units →
    Binary64.less b.price.toFloat a.price.toFloat = false

theorem apart_iff (changes : List LevelChange) :
    Apart changes ↔
      (changes.Pairwise fun a b => a.price.units ≠ b.price.units) ∧
        (changes.Pairwise fun a b => a.price.toFloat ≠ b.price.toFloat) ∧
          ∀ a ∈ changes, ∀ b ∈ changes, a.price.units < b.price.units →
            Binary64.less b.price.toFloat a.price.toFloat = false :=
  ⟨fun apart => ⟨apart.prices, apart.images, apart.order⟩, fun h => ⟨h.1, h.2.1, h.2.2⟩⟩

instance (changes : List LevelChange) : Decidable (Apart changes) :=
  decidable_of_iff' _ (apart_iff changes)

/-- A change can be published exactly when it leaves a level at a positive price. -/
theorem Proper.sound_level_iff {c : LevelChange} (proper : c.Proper) :
    c.level.Sound ↔ c.price.isPositive = true ∧ Binary64.equal c.quantity 0 = false := by
  rw [← Level.isValid_iff_sound, Level.isValid_iff]
  change Binary64.isPositive c.price.toFloat = true ∧ Binary64.isPositive c.quantity = true ↔ _
  rw [Decimal.isPositive_toFloat_iff]
  constructor
  · rintro ⟨price, quantity⟩
    exact ⟨price, Binary64.equal_zero_of_isPositive quantity⟩
  · rintro ⟨price, left⟩
    exact ⟨price, proper.quantity_isPositive left⟩

end LevelChange

namespace BookSide

open LevelChange

variable {side : BookSide} {changes : List LevelChange}

theorem Sound.mem_contents_iff (sound : side.Sound) (change : LevelChange) :
    change ∈ side.contents ↔ (change.price.units, change) ∈ side := by
  constructor
  · intro member
    obtain ⟨x, held, rfl⟩ := List.mem_map.1 member
    rw [← (sound.entries x held).keyed]
    exact held
  · intro held
    exact List.mem_map.2 ⟨_, held, rfl⟩

/-- A change at a price that a side does not hold adds a level, if it leaves any. -/
theorem Sound.mem_contents_apply (sound : side.Sound) {c : LevelChange} (proper : c.Proper)
    (absent : ∀ x ∈ side, x.1 ≠ c.price.units) (change : LevelChange) :
    change ∈ (side.apply c).contents ↔
      change ∈ side.contents ∨ change = c ∧ c.level.Sound := by
  have valid := proper.sound_level_iff
  rcases apply_cases side proper with
    ⟨notPositive, same⟩ | ⟨_, zero, same⟩ | ⟨positive, left, _, same⟩
  · have dropped : ¬c.level.Sound := by
      rw [valid, notPositive]
      exact fun held => Bool.false_ne_true held.1
    rw [same]
    exact (or_iff_left fun here => dropped here.2).symm
  · have dropped : ¬c.level.Sound := by
      rw [valid, zero]
      exact fun held => Bool.noConfusion held.2
    rw [same, Ladder.erase_of_absent absent]
    exact (or_iff_left fun here => dropped here.2).symm
  · have kept : c.level.Sound := valid.2 ⟨positive, left⟩
    rw [heldPrice_of_absent absent] at same
    have after : BookSide.Sound (Ladder.insert c.price.units c side) := same ▸ sound.apply proper
    rw [same, after.mem_contents_iff, Ladder.mem_insert_iff sound.ordered, Prod.mk.injEq,
      sound.mem_contents_iff]
    constructor
    · rintro (⟨_, rfl⟩ | ⟨held, _⟩)
      · exact .inr ⟨rfl, kept⟩
      · exact .inl held
    · rintro (held | ⟨rfl, _⟩)
      · exact .inr ⟨held, absent _ held⟩
      · exact .inl ⟨rfl, rfl⟩

/-- Changes of distinct prices leave those that can be published. -/
theorem mem_contents_applyAll (proper : ∀ change ∈ changes, change.Proper)
    (distinct : changes.Pairwise fun a b => a.price.units ≠ b.price.units) (change : LevelChange) :
    change ∈ (applyAll [] changes).contents ↔ change ∈ changes ∧ change.level.Sound := by
  induction changes using List.reverseRecOn generalizing change with
  | nil => simp [applyAll, Ladder.contents]
  | append_singleton earlier last ih =>
      have properEarlier : ∀ c ∈ earlier, c.Proper := fun c member =>
        proper c (List.mem_append_left _ member)
      have properLast := proper last (List.mem_append_right _ List.mem_cons_self)
      obtain ⟨before, _, differs⟩ := List.pairwise_append.1 distinct
      have known := ih properEarlier before
      have sound := sound_nil.applyAll properEarlier
      have step : applyAll [] (earlier ++ [last]) = (applyAll [] earlier).apply last :=
        applyAll_append [] earlier [last]
      have absent : ∀ x ∈ applyAll [] earlier, x.1 ≠ last.price.units := by
        intro x member
        rw [(sound.entries x member).keyed]
        have held := (known x.2).1 (List.mem_map.2 ⟨x, member, rfl⟩)
        exact differs x.2 held.1 last List.mem_cons_self
      rw [step, sound.mem_contents_apply properLast absent, known, List.mem_append,
        List.mem_singleton, or_and_right]
      exact or_congr_right (and_congr_right fun same => same ▸ Iff.rfl)

end BookSide

namespace LevelChange.Apart

open BookSide

variable {changes bids asks : List LevelChange} (proper : ∀ change ∈ changes, change.Proper)

include proper in
/-- The side that the changes build rises by image as it does by price. -/
theorem levels_rise (apart : Apart changes) :
    (applyAll [] changes).contents.Pairwise fun a b =>
      Binary64.less a.level.price b.level.price = true := by
  have member := mem_contents_applyAll proper apart.prices
  refine (sound_nil.applyAll proper).contents_rise.imp_of_mem ?_
  intro a b ha hb below
  obtain ⟨aHere, aSound⟩ := (member a).1 ha
  obtain ⟨bHere, bSound⟩ := (member b).1 hb
  rcases Binary64.less_or_eq_or_less aSound.price_isPositive bSound.price_isPositive with
    less | same | above
  · exact less
  · have differ : a ≠ b := fun equal => absurd (equal ▸ below) (Int.lt_irrefl _)
    have : Std.Symm fun a b : LevelChange => a.price.toFloat ≠ b.price.toFloat :=
      ⟨fun _ _ => Ne.symm⟩
    exact absurd same (apart.images.forall aHere bHere differ)
  · have upheld : Binary64.less b.level.price a.level.price = false :=
      apart.order a aHere b bHere below
    exact Bool.noConfusion (above.symm.trans upheld)

include proper in
/-- The levels by price of the changes are those of the side that they build. -/
theorem unique_levels (apart : Apart changes) :
    Snapshot.unique (changes.map level) =
      (applyAll [] changes).contents.map level := by
  have member := mem_contents_applyAll proper apart.prices
  have rise : ((applyAll [] changes).contents.map level).Pairwise fun a b =>
      Binary64.less a.price b.price = true := List.pairwise_map.2 (apart.levels_rise proper)
  have lined : Replica.Lined Replica.askBefore ((applyAll [] changes).contents.map level) := by
    refine ⟨rise, fun l held => ?_⟩
    obtain ⟨change, here, rfl⟩ := List.mem_map.1 held
    exact ((member change).1 here).2.price_isPositive
  refine Replica.Lined.ext Replica.askOrder (Snapshot.lined_unique _) lined fun l => ?_
  rw [Snapshot.mem_unique, Level.stays_of_pairwise (List.pairwise_map.2 apart.images),
    List.mem_map, List.mem_map]
  constructor
  · rintro ⟨sound, change, here, rfl⟩
    exact ⟨change, (member change).2 ⟨here, sound⟩, rfl⟩
  · rintro ⟨change, held, rfl⟩
    obtain ⟨here, sound⟩ := (member change).1 held
    exact ⟨sound, change, here, rfl⟩

include proper in
theorem sound_of_mem_contents (apart : Apart changes) :
    ∀ change ∈ (applyAll [] changes).contents, change.level.Sound :=
  fun change held => ((mem_contents_applyAll proper apart.prices change).1 held).2

/-- A whole book that is built from changes shows what the changes show as levels. -/
theorem snapshot_eq_ofLevels (apartBids : Apart bids) (apartAsks : Apart asks)
    (properBids : ∀ change ∈ bids, change.Proper) (properAsks : ∀ change ∈ asks, change.Proper)
    (venue : Venue) (symbol : String) (stamp : Nat) :
    (⟨applyAll [] bids, applyAll [] asks⟩ : LiveBook).snapshot venue symbol stamp
        Snapshot.depthLimit =
      .ofLevels venue symbol stamp (bids.map level) (asks.map level) := by
  obtain ⟨book, built⟩ : ∃ book : LiveBook, book = ⟨applyAll [] bids, applyAll [] asks⟩ := ⟨_, rfl⟩
  have shownBids : (book.snapshot venue symbol stamp Snapshot.depthLimit).bids =
      (book.bestBids Snapshot.depthLimit).map level := by
    rw [LiveBook.snapshot_bids]
    refine (shows_of_sound fun change held => ?_).2.exact.2 (List.pairwise_map.2 ?_)
    · rw [built] at held
      exact apartBids.sound_of_mem_contents properBids change
        (List.mem_reverse.1 (List.mem_of_mem_take held))
    · rw [built]
      exact (List.pairwise_reverse.2 (apartBids.levels_rise properBids)).sublist
        (List.take_sublist _ _)
  have shownAsks : (book.snapshot venue symbol stamp Snapshot.depthLimit).asks =
      (book.bestAsks Snapshot.depthLimit).map level := by
    rw [LiveBook.snapshot_asks]
    refine (shows_of_sound fun change held => ?_).1.exact.2 (List.pairwise_map.2 ?_)
    · rw [built] at held
      exact apartAsks.sound_of_mem_contents properAsks change (List.mem_of_mem_take held)
    · rw [built]
      exact (apartAsks.levels_rise properAsks).sublist (List.take_sublist _ _)
  have bestBids : Snapshot.bestBids (bids.map level) =
      (book.bestBids Snapshot.depthLimit).map level := by
    rw [Snapshot.bestBids, Snapshot.normalizeSide, if_pos rfl, apartBids.unique_levels properBids,
      ← List.map_reverse, ← List.map_take, LiveBook.bestBids, Nat.min_self, built]
  have bestAsks : Snapshot.bestAsks (asks.map level) =
      (book.bestAsks Snapshot.depthLimit).map level := by
    rw [Snapshot.bestAsks, Snapshot.normalizeSide, if_neg Bool.false_ne_true,
      apartAsks.unique_levels properAsks, ← List.map_take, LiveBook.bestAsks, Nat.min_self, built]
  rw [← built, Snapshot.ofLevels, bestBids, bestAsks, ← shownBids, ← shownAsks]
  rfl

/-- A book that is built from changes is empty when they show no level. -/
theorem isEmpty_eq_ofLevels (apartBids : Apart bids) (apartAsks : Apart asks)
    (properBids : ∀ change ∈ bids, change.Proper) (properAsks : ∀ change ∈ asks, change.Proper)
    (venue : Venue) (symbol : String) (stamp : Nat) :
    (⟨applyAll [] bids, applyAll [] asks⟩ : LiveBook).isEmpty =
      (Snapshot.ofLevels venue symbol stamp (bids.map level) (asks.map level)).isEmpty := by
  have bidsShown : (Snapshot.bestBids (bids.map level)).isEmpty = (applyAll [] bids).isEmpty := by
    rw [Snapshot.bestBids, Snapshot.normalizeSide, if_pos rfl, apartBids.unique_levels properBids,
      Bool.eq_iff_iff]
    simp [Ladder.contents, Snapshot.depthLimit]
  have asksShown : (Snapshot.bestAsks (asks.map level)).isEmpty = (applyAll [] asks).isEmpty := by
    rw [Snapshot.bestAsks, Snapshot.normalizeSide, if_neg Bool.false_ne_true,
      apartAsks.unique_levels properAsks, Bool.eq_iff_iff]
    simp [Ladder.contents, Snapshot.depthLimit]
  exact (congrArg₂ (· && ·) bidsShown asksShown).symm

end LevelChange.Apart

end Tape
