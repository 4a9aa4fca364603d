import Tape.Proofs.Market.Best
import Tape.Proofs.Wire.Output

/-!
# What a snapshot shows of a live book

A snapshot is made of the best prices held on each side, with the quantities held there. It shows
them one by one exactly when their binary64 images stand in the same strict order; of prices with
one image only the worst is shown.
-/

namespace Tape

namespace BookSide

/-- The best changes held on a side, the best first. -/
structure Best (better : Int → Int → Prop) (count : Nat) (side : BookSide)
    (best : List LevelChange) : Prop where
  length : best.length = min count side.length
  ordered : best.Pairwise fun a b => better a.price.units b.price.units
  member : ∀ change ∈ best, change ∈ side.contents
  held : ∀ change ∈ best, side.quantityAt? change.price = some change.quantity
  first : ∀ change ∈ best, ∀ price quantity, side.quantityAt? price = some quantity →
    better price.units change.price.units → ∃ other ∈ best, other.price.units = price.units

/-- What is shown of changes that are listed best first: each of their images once, in strict order,
with the quantity of the last change that has it. -/
structure Shows (before : Float → Float → Bool) (best : List LevelChange)
    (shown : List (Level Float)) : Prop where
  ordered : shown.Pairwise fun a b => before a.price b.price = true
  last : ∀ level ∈ shown, ∃ earlier change later, best = earlier ++ change :: later ∧
    change.level = level ∧ ∀ worse ∈ later, worse.level.price ≠ level.price
  every : ∀ change ∈ best, ∃ level ∈ shown, level.price = change.level.price
  exact : shown = best.map LevelChange.level ↔
    (best.map LevelChange.level).Pairwise fun a b => before a.price b.price = true

variable {side : BookSide}

/-! ## The best prices -/

theorem Sound.contents_rise (sound : side.Sound) :
    side.contents.Pairwise fun a b => a.price.units < b.price.units := by
  rw [Ladder.contents, List.pairwise_map]
  refine sound.ordered.imp_of_mem ?_
  intro x y hx hy below
  rw [(sound.entries x hx).keyed, (sound.entries y hy).keyed] at below
  exact below

theorem Sound.quantityAt?_of_mem_contents (sound : side.Sound) {change : LevelChange}
    (member : change ∈ side.contents) : side.quantityAt? change.price = some change.quantity := by
  obtain ⟨x, held, rfl⟩ := List.mem_map.1 member
  rw [quantityAt?, ← (sound.entries x held).keyed, sound.ordered.get?_of_mem held]
  rfl

theorem Sound.exists_of_quantityAt? (sound : side.Sound) {price : Decimal} {quantity : Float}
    (held : side.quantityAt? price = some quantity) :
    ∃ change ∈ side.contents, change.price.units = price.units := by
  obtain ⟨change, found, _⟩ := Option.map_eq_some_iff.1 held
  have member := Ladder.mem_of_get? found
  exact ⟨change, List.mem_map.2 ⟨_, member, rfl⟩, (sound.entries _ member).keyed.symm⟩

/-- The first of all changes, listed from the best one on, are the best ones. -/
theorem Sound.best_take (sound : side.Sound) {better : Int → Int → Prop}
    (asymm : ∀ {a b}, better a b → ¬better b a) {listed : List LevelChange}
    (perm : listed.Perm side.contents)
    (ordered : listed.Pairwise fun a b => better a.price.units b.price.units) (count : Nat) :
    Best better count side (listed.take count) where
  length := by
    rw [List.length_take, perm.length_eq, Ladder.contents, List.length_map]
  ordered := ordered.sublist (List.take_sublist _ _)
  member change member := perm.subset (List.mem_of_mem_take member)
  held := by
    intro change member
    exact sound.quantityAt?_of_mem_contents (perm.subset (List.mem_of_mem_take member))
  first := by
    intro change member price quantity held ahead
    obtain ⟨other, here, same⟩ := sound.exists_of_quantityAt? held
    have split := List.take_append_drop count listed
    have cut := ordered
    rw [← split] at cut
    have apart := (List.pairwise_append.1 cut).2.2 change member other
    have known : other ∈ listed.take count ++ listed.drop count := by
      rw [split]
      exact perm.symm.subset here
    rcases List.mem_append.1 known with early | late
    · exact ⟨other, early, same⟩
    · have behind := apart late
      rw [same] at behind
      exact absurd behind (asymm ahead)

/-! ## What is shown of them -/

theorem last_of_mem_unique {best : List LevelChange} (sound : ∀ change ∈ best, change.level.Sound)
    {level : Level Float} (member : level ∈ Snapshot.unique (best.map LevelChange.level)) :
    ∃ earlier change later, best = earlier ++ change :: later ∧
      change.level = level ∧ ∀ worse ∈ later, worse.level.price ≠ level.price := by
  obtain ⟨_, before, after, split, apart⟩ := (Snapshot.mem_unique _ level).1 member
  obtain ⟨earlier, rest, rfl, _, mapped⟩ := List.map_eq_append_iff.1 split
  obtain ⟨change, later, rfl, same, rfl⟩ := List.map_eq_cons_iff.1 mapped
  refine ⟨earlier, change, later, rfl, same, ?_⟩
  intro worse held
  have behind : worse ∈ earlier ++ change :: later :=
    List.mem_append_right _ (List.mem_cons_of_mem _ held)
  exact apart worse.level (List.mem_map_of_mem held) (sound worse behind)

/-- The published levels of one side, from levels that are all valid. -/
theorem shows_of_sound {best : List LevelChange} (sound : ∀ change ∈ best, change.level.Sound) :
    Shows Replica.askBefore best (Snapshot.unique (best.map LevelChange.level)) ∧
      Shows Replica.bidBefore best (Snapshot.unique (best.map LevelChange.level)).reverse := by
  have levels : ∀ level ∈ best.map LevelChange.level, level.Sound := by
    intro level member
    obtain ⟨change, held, rfl⟩ := List.mem_map.1 member
    exact sound change held
  have rise := (Snapshot.strict_unique (best.map LevelChange.level)).prices_rise
  have every : ∀ change ∈ best, ∃ level ∈ Snapshot.unique (best.map LevelChange.level),
      level.price = change.level.price := by
    intro change held
    have member := List.mem_map_of_mem (f := LevelChange.level) held
    obtain ⟨last, lastSound, stays, same⟩ := Level.exists_stays member (sound change held)
    exact ⟨last, (Snapshot.mem_unique _ last).2 ⟨lastSound, stays⟩, same⟩
  constructor
  · refine ⟨rise, ?_, every, Snapshot.unique_eq_iff levels (List.Perm.refl _)⟩
    intro level member
    exact last_of_mem_unique sound member
  · refine ⟨List.pairwise_reverse.2 rise, ?_, ?_, ?_⟩
    · intro level member
      exact last_of_mem_unique sound (List.mem_reverse.1 member)
    · intro change held
      obtain ⟨level, member, same⟩ := every change held
      exact ⟨level, List.mem_reverse.2 member, same⟩
    · rw [List.reverse_eq_iff, Snapshot.unique_eq_iff levels (List.reverse_perm _),
        List.pairwise_reverse]
      rfl

end BookSide

namespace LiveBook

/-- The changes that a snapshot is made of. -/
def bestBids (b : LiveBook) (depth : Nat) : List LevelChange :=
  b.bids.contents.reverse.take (min depth Snapshot.depthLimit)

def bestAsks (b : LiveBook) (depth : Nat) : List LevelChange :=
  b.asks.contents.take (min depth Snapshot.depthLimit)

/-- A book to which changes were applied one by one or in groups, each with a quantity that is
finite and not below zero. -/
inductive Reached : LiveBook → Prop where
  | empty : Reached .empty
  | bid {b : LiveBook} {change : LevelChange} (reached : Reached b) (proper : change.Proper) :
      Reached (b.applyBid change)
  | ask {b : LiveBook} {change : LevelChange} (reached : Reached b) (proper : change.Proper) :
      Reached (b.applyAsk change)
  | group {b : LiveBook} {g : ChangeGroup} (reached : Reached b)
      (bids : ∀ change ∈ g.bids, change.Proper) (asks : ∀ change ∈ g.asks, change.Proper) :
      Reached (b.applyGroup g)

theorem Reached.sound {b : LiveBook} (reached : b.Reached) : b.Sound := by
  induction reached with
  | empty => exact sound_empty
  | bid _ proper ih => exact ⟨ih.bids.apply proper, ih.asks⟩
  | ask _ proper ih => exact ⟨ih.bids, ih.asks.apply proper⟩
  | group _ bids asks ih => exact ⟨ih.bids.applyAll bids, ih.asks.applyAll asks⟩

theorem take_unique {best : List LevelChange}
    (few : best.length ≤ Snapshot.depthLimit) {listed : List (Level Float)}
    (perm : listed.Perm (Snapshot.unique (best.map LevelChange.level))) :
    listed.take Snapshot.depthLimit = listed := by
  apply List.take_of_length_le
  have short := Snapshot.length_unique_le (best.map LevelChange.level)
  rw [List.length_map] at short
  rw [perm.length_eq]
  exact Nat.le_trans short few

theorem snapshot_bids (b : LiveBook) (venue : Venue) (symbol : String) (stamp depth : Nat) :
    (b.snapshot venue symbol stamp depth).bids =
      (Snapshot.unique ((b.bestBids depth).map LevelChange.level)).reverse := by
  have few : (b.bestBids depth).length ≤ Snapshot.depthLimit :=
    Nat.le_trans (List.length_take_le _ _) (Nat.min_le_right _ _)
  exact take_unique few (List.reverse_perm _)

theorem snapshot_asks (b : LiveBook) (venue : Venue) (symbol : String) (stamp depth : Nat) :
    (b.snapshot venue symbol stamp depth).asks =
      Snapshot.unique ((b.bestAsks depth).map LevelChange.level) := by
  have few : (b.bestAsks depth).length ≤ Snapshot.depthLimit :=
    Nat.le_trans (List.length_take_le _ _) (Nat.min_le_right _ _)
  exact take_unique few (List.Perm.refl _)

/-- A snapshot is made of the best prices held on each side. It shows all of them, one by one and
each with the quantity held there, exactly when their images stand in strict order; else it shows,
in strict order, each image that they have, with the quantity held at the worst of the prices that
have it. -/
theorem snapshot_shows_best {b : LiveBook} (reached : b.Reached) (venue : Venue) (symbol : String)
    (stamp depth : Nat) :
    let shown := b.snapshot venue symbol stamp depth
    let count := min depth Snapshot.depthLimit
    b.bids.Best (· > ·) count (b.bestBids depth) ∧
      b.asks.Best (· < ·) count (b.bestAsks depth) ∧
      BookSide.Shows Replica.bidBefore (b.bestBids depth) shown.bids ∧
      BookSide.Shows Replica.askBefore (b.bestAsks depth) shown.asks := by
  intro shown count
  have bids := reached.sound.bids
  have asks := reached.sound.asks
  have fall := List.pairwise_reverse.2 bids.contents_rise
  refine ⟨?_, ?_, ?_, ?_⟩
  · exact bids.best_take (by intro a b; omega) (List.reverse_perm _) fall count
  · exact asks.best_take (by intro a b; omega) (List.Perm.refl _) asks.contents_rise count
  · rw [show shown.bids = _ from b.snapshot_bids venue symbol stamp depth]
    refine (BookSide.shows_of_sound fun change member => ?_).2
    exact bids.sound_level (List.mem_reverse.1 (List.mem_of_mem_take member))
  · rw [show shown.asks = _ from b.snapshot_asks venue symbol stamp depth]
    refine (BookSide.shows_of_sound fun change member => ?_).1
    exact asks.sound_level (List.mem_of_mem_take member)

/-- Prices whose images are apart are shown one by one, each with its quantity. -/
theorem snapshot_shows_best_two_asks :
    let near : LevelChange := ⟨⟨false, 1015, 1, by decide, by decide⟩, 2⟩
    let far : LevelChange := ⟨⟨false, 102, 0, by decide, by decide⟩, 3⟩
    let book := (LiveBook.empty.applyAsk far).applyAsk near
    book.Reached ∧ (book.snapshot .dydx "BTC-USD" 1 10).asks = [⟨101.5, 2⟩, ⟨102, 3⟩] := by
  intro near far book
  have reached : book.Reached := .ask (.ask .empty ⟨by decide, by decide⟩) ⟨by decide, by decide⟩
  have shown := (snapshot_shows_best reached .dydx "BTC-USD" 1 10).2.2.2
  have images : (book.bestAsks 10).map LevelChange.level = [⟨101.5, 2⟩, ⟨102, 3⟩] := by
    decide +kernel
  refine ⟨reached, ?_⟩
  rw [← images]
  refine shown.exact.2 ?_
  rw [images]
  decide

/-- Two bids whose prices differ in the twentieth decimal have one image. One level is shown of
them, and the better bid is not, though there is room for it. -/
theorem snapshot_absorbs_better_bid :
    let low : LevelChange := ⟨⟨false, 100, 0, by decide, by decide⟩, 1⟩
    let high : LevelChange := ⟨⟨false, 10000000000000000000001, 20, by decide, by decide⟩, 2⟩
    let book := (LiveBook.empty.applyBid low).applyBid high
    book.Reached ∧ book.bids.length = 2 ∧ book.bestBids 10 = [high, low] ∧
      (book.snapshot .dydx "BTC-USD" 1 10).bids = [⟨100, 1⟩] := by
  intro low high book
  have reached : book.Reached := .bid (.bid .empty ⟨by decide, by decide⟩) ⟨by decide, by decide⟩
  exact ⟨reached, by decide +kernel, by decide +kernel, by decide +kernel⟩

-- Images need not keep the order of the prices either: the first of these asks is the higher one.
example :
    let book := (LiveBook.empty.applyAsk ⟨⟨false, 94574, 2, by decide, by decide⟩, 1⟩).applyAsk
      ⟨⟨false, 9457400000000000000005, 19, by decide, by decide⟩, 2⟩
    (book.snapshot .dydx "BTC-USD" 1 10).asks = [⟨945.7399999999999, 2⟩, ⟨945.74, 1⟩] := by
  decide +kernel

-- A price stays as it was first written, and so does its image.
example :
    let book := (LiveBook.empty.applyBid ⟨⟨false, 267629222, 6, by decide, by decide⟩, 1⟩).applyBid
      ⟨⟨false, 2676292220000000, 13, by decide, by decide⟩, 2⟩
    (book.snapshot .dydx "BTC-USD" 1 10).bids = [⟨267.629222, 2⟩] := by
  decide +kernel

end LiveBook

end Tape
