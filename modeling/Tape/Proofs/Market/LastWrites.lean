import Tape.Proofs.Market.Best

/-!
# The best of the last valid levels

A side of a snapshot lists the best of the distinct prices that the valid levels of a list have, up
to the limit and the best one first. At each price stands the last valid level of the list that has
it.
-/

namespace Tape

namespace Level

variable {levels : List (Level Float)}

/-- The distinct prices of the valid levels of a list. -/
def prices (levels : List (Level Float)) : List Float :=
  ((levels.filter isValid).map price).dedup

theorem mem_prices {p : Float} :
    p ∈ prices levels ↔ ∃ level ∈ levels, level.Sound ∧ level.price = p := by
  simp only [prices, List.mem_dedup, List.mem_map, List.mem_filter, isValid_iff_sound, and_assoc]

end Level

namespace Snapshot

variable {before : Float → Float → Bool} {levels listed : List (Level Float)}

/-- A side that shows the best of the valid levels of a list. -/
structure IsBestOf (before : Float → Float → Bool) (levels side : List (Level Float)) : Prop where
  length : side.length = min depthLimit (Level.prices levels).length
  ordered : side.Pairwise fun a b => before a.price b.price = true
  /-- Each level is the last valid one of its price. -/
  last : ∀ level ∈ side, level.Sound ∧ level.Stays levels
  /-- A price that is not shown is behind all that are. -/
  best : ∀ price ∈ Level.prices levels, (∀ level ∈ side, level.price ≠ price) →
    ∀ level ∈ side, before level.price price = true

/-- The levels by price have each of the distinct prices once. -/
theorem prices_perm (levels : List (Level Float)) :
    ((unique levels).map Level.price).Perm (Level.prices levels) := by
  have rise := (strict_unique levels).prices_rise
  have distinct : ((unique levels).map Level.price).Nodup := by
    refine List.pairwise_map.2 (rise.imp ?_)
    intro a b less
    exact Replica.askOrder.ne less
  refine (List.perm_ext_iff_of_nodup distinct (List.nodup_dedup _)).2 fun p => ?_
  rw [← Level.prices, Level.mem_prices, List.mem_map]
  constructor
  · rintro ⟨level, member, rfl⟩
    obtain ⟨sound, earlier, later, split, _⟩ := (mem_unique levels level).1 member
    exact ⟨level, split ▸ List.mem_append_right _ List.mem_cons_self, sound, rfl⟩
  · rintro ⟨level, member, sound, rfl⟩
    obtain ⟨last, lastSound, stays, same⟩ := Level.exists_stays member sound
    exact ⟨last, (mem_unique levels last).2 ⟨lastSound, stays⟩, same⟩

/-- The first of the levels by price, listed from the best one on, are the best ones. -/
theorem isBestOf_take (perm : listed.Perm (unique levels))
    (ordered : listed.Pairwise fun a b => before a.price b.price = true) :
    IsBestOf before levels (listed.take depthLimit) where
  length := by
    have all := ((perm.map Level.price).trans (prices_perm levels)).length_eq
    rw [List.length_map] at all
    rw [List.length_take, all]
  ordered := ordered.sublist (List.take_sublist _ _)
  last level member :=
    (mem_unique levels level).1 (perm.subset (List.mem_of_mem_take member))
  best := by
    intro price occurs absent level member
    have here := (perm.map Level.price).symm.subset ((prices_perm levels).symm.subset occurs)
    obtain ⟨other, held, rfl⟩ := List.mem_map.1 here
    rw [← List.take_append_drop depthLimit listed] at ordered held
    rcases List.mem_append.1 held with early | late
    · exact absurd rfl (absent other early)
    · exact (List.pairwise_append.1 ordered).2.2 level member other late

/-- Whatever the levels are, each side of their snapshot shows the best of the distinct prices that
its valid levels have, and at each of them the last valid level of that price. -/
theorem ofLevels_shows_last_writes (venue : Venue) (symbol : String) (stamp : Nat)
    (bids asks : List (Level Float)) :
    let s := ofLevels venue symbol stamp bids asks
    IsBestOf Replica.bidBefore bids s.bids ∧ IsBestOf Replica.askBefore asks s.asks := by
  intro s
  constructor
  · exact isBestOf_take (List.reverse_perm _)
      (List.pairwise_reverse.2 (strict_unique bids).prices_rise)
  · exact isBestOf_take (List.Perm.refl _) (strict_unique asks).prices_rise

-- The later level of a price wins unless it is not valid, in which case it does not count at all.
example :
    bestBids [⟨100, 1⟩, ⟨101, 2⟩, ⟨100, 4⟩, ⟨101, 0⟩, ⟨0 / 0, 3⟩, ⟨-1, 2⟩, ⟨1 / 0, 5⟩] =
      [⟨101, 2⟩, ⟨100, 4⟩] := by
  decide +kernel

end Snapshot

end Tape
