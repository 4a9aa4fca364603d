import Tape.Proofs.Binary64.Vanishing
import Tape.Proofs.Market.Canonical
import Tape.Proofs.Stats.Rational
import Tape.Stats.Metrics

/-!
# Bounds of the metrics of a book

The levels of a snapshot have prices and quantities above zero. Computed exactly, the metrics of its
best levels therefore never divide by zero and stay within fixed bounds, in crossed books too. A book
with an empty side leaves the window alone.
-/

namespace Tape

/-- A level with the exact values of its price and its quantity. -/
def Level.exact (l : Level Float) : Level ℚ :=
  ⟨Binary64.value l.price, Binary64.value l.quantity⟩

/-- A level with a price and a quantity above zero. -/
structure Level.Positive (l : Level ℚ) : Prop where
  price : 0 < l.price
  quantity : 0 < l.quantity

theorem Level.Sound.positive_exact {l : Level Float} (sound : l.Sound) : l.exact.Positive where
  price := Binary64.value_pos sound.price_isPositive
  quantity := Binary64.value_pos sound.quantity_isPositive

/-- The difference of two numbers above zero is less than their sum. -/
theorem abs_sub_div_add_lt_one {x y : ℚ} (hx : 0 < x) (hy : 0 < y) : |(x - y) / (x + y)| < 1 := by
  have total : 0 < x + y := add_pos hx hy
  rw [abs_div, abs_of_pos total, div_lt_one total, abs_lt]
  constructor <;> linarith

namespace BookMetrics

variable [RationalRoot] {bid ask : Level ℚ} {bids asks levels : List (Level ℚ)}

theorem ratio_of_pos {y : ℚ} (positive : 0 < y) (x : ℚ) : ratio x y = x / y :=
  if_pos (decide_eq_true positive)

/-! ## Depth -/

theorem notional_eq (levels : List (Level ℚ)) :
    notional levels = (levels.map fun level => level.price * level.quantity).sum :=
  Scalar.sum_eq _

theorem notional_nonneg (positive : ∀ level ∈ levels, level.Positive) : 0 ≤ notional levels := by
  rw [notional_eq]
  refine List.sum_nonneg fun x member => ?_
  obtain ⟨level, held, rfl⟩ := List.mem_map.1 member
  exact (mul_pos (positive level held).price (positive level held).quantity).le

theorem notional_append (first second : List (Level ℚ)) :
    notional (first ++ second) = notional first + notional second := by
  simp only [notional_eq, List.map_append, List.sum_append]

theorem notional_take_mono (positive : ∀ level ∈ levels, level.Positive) {depth more : ℕ}
    (deeper : depth ≤ more) : notional (levels.take depth) ≤ notional (levels.take more) := by
  obtain ⟨added, rfl⟩ := Nat.exists_eq_add_of_le deeper
  rw [List.take_add, notional_append]
  refine le_add_of_nonneg_right (notional_nonneg fun level member => ?_)
  exact positive level (List.mem_of_mem_drop (List.mem_of_mem_take member))

theorem le_notional_take (positive : ∀ level ∈ bid :: bids, level.Positive) {depth : ℕ}
    (deep : 0 < depth) : bid.price * bid.quantity ≤ notional ((bid :: bids).take depth) := by
  have first := notional_take_mono positive (Nat.succ_le_of_lt deep)
  have alone : notional ((bid :: bids).take 1) = bid.price * bid.quantity := by
    rw [notional_eq]
    simp
  exact alone ▸ first

/-! ## Best levels -/

/-- The metrics of two best levels, none of which divides by zero. -/
structure BestWithin (m : BookMetrics ℚ) (bid ask : Level ℚ) : Prop where
  midpoint_pos : 0 < m.midpoint
  relativeSpread_eq : m.relativeSpread = (ask.price - bid.price) / m.midpoint
  relativeSpread_lt : |m.relativeSpread| < 2
  sign_relativeSpread : SignType.sign m.relativeSpread = SignType.sign (ask.price - bid.price)
  sizes_pos : 0 < bid.quantity + ask.quantity
  imbalance_eq : m.imbalance = (bid.quantity - ask.quantity) / (bid.quantity + ask.quantity)
  imbalance_lt : |m.imbalance| < 1
  breadth_pos : 0 < m.breadth
  breadth_le : m.breadth ≤ m.depth

theorem div_midpointOf (bid ask : Level ℚ) (x : ℚ) :
    x / midpointOf bid ask = 2 * (x / (ask.price + bid.price)) := by
  change x / ((bid.price + ask.price) / 2) = _
  rw [add_comm bid.price]
  field_simp

theorem bestWithin_compute (bidsPositive : ∀ level ∈ bid :: bids, level.Positive)
    (asksPositive : ∀ level ∈ ask :: asks, level.Positive) {depth : ℕ} (deep : 0 < depth)
    (w : Window ℚ) : (compute (bid :: bids) (ask :: asks) depth w).1.BestWithin bid ask := by
  obtain ⟨bidPrice, bidSize⟩ := bidsPositive bid List.mem_cons_self
  obtain ⟨askPrice, askSize⟩ := asksPositive ask List.mem_cons_self
  have midpoint : 0 < midpointOf bid ask := div_pos (add_pos bidPrice askPrice) two_pos
  have sizes : 0 < bid.quantity + ask.quantity := add_pos bidSize askSize
  obtain ⟨m, same⟩ : ∃ m, m = (compute (bid :: bids) (ask :: asks) depth w).1 := ⟨_, rfl⟩
  have relativeSpread : m.relativeSpread = (ask.price - bid.price) / midpointOf bid ask :=
    same ▸ ratio_of_pos midpoint _
  have imbalance : m.imbalance = (bid.quantity - ask.quantity) / (bid.quantity + ask.quantity) :=
    same ▸ ratio_of_pos sizes _
  rw [← same]
  refine ⟨same ▸ midpoint, ?_, ?_, ?_, sizes, imbalance, ?_, ?_, ?_⟩
  · rw [relativeSpread, same]
    rfl
  · have close := abs_sub_div_add_lt_one askPrice bidPrice
    rw [relativeSpread, div_midpointOf, abs_mul, abs_two]
    linarith
  · rw [relativeSpread, div_eq_mul_inv, sign_mul, sign_pos (inv_pos.2 midpoint), mul_one]
  · rw [imbalance]
    exact abs_sub_div_add_lt_one bidSize askSize
  · rw [same]
    exact add_pos (mul_pos bidPrice bidSize) (mul_pos askPrice askSize)
  · rw [same]
    exact add_le_add (le_notional_take bidsPositive deep) (le_notional_take asksPositive deep)

/-! ## Any book -/

theorem bidDepth_compute (bids asks : List (Level ℚ)) (depth : ℕ) (w : Window ℚ) :
    (compute bids asks depth w).1.bidDepth = notional (bids.take depth) := by
  cases bids <;> cases asks <;> rfl

theorem askDepth_compute (bids asks : List (Level ℚ)) (depth : ℕ) (w : Window ℚ) :
    (compute bids asks depth w).1.askDepth = notional (asks.take depth) := by
  cases bids <;> cases asks <;> rfl

theorem depth_compute (bids asks : List (Level ℚ)) (depth : ℕ) (w : Window ℚ) :
    (compute bids asks depth w).1.depth =
      (compute bids asks depth w).1.bidDepth + (compute bids asks depth w).1.askDepth := by
  cases bids <;> cases asks <;> rfl

/-- Without levels on both sides there are depths only, and the window does not move. -/
theorem compute_of_empty_side (empty : bids = [] ∨ asks = []) (depth : ℕ) (w : Window ℚ) :
    (compute bids asks depth w).2 = w ∧
      (compute bids asks depth w).1.midpoint = 0 ∧
      (compute bids asks depth w).1.relativeSpread = 0 ∧
      (compute bids asks depth w).1.breadth = 0 ∧
      (compute bids asks depth w).1.imbalance = 0 := by
  rcases empty with rfl | rfl
  · exact ⟨rfl, rfl, rfl, rfl, rfl⟩
  · cases bids <;> exact ⟨rfl, rfl, rfl, rfl, rfl⟩

end BookMetrics

namespace Snapshot

theorem positive_of_mem_map_exact {levels : List (Level Float)}
    (sound : ∀ level ∈ levels, level.Sound) : ∀ level ∈ levels.map Level.exact, level.Positive := by
  intro level member
  obtain ⟨held, there, rfl⟩ := List.mem_map.1 member
  exact (sound held there).positive_exact

/-- The metrics of a snapshot from the exact values of its levels. -/
def exactMetrics [RationalRoot] (s : Snapshot) (depth : ℕ) (w : Window ℚ) :
    BookMetrics ℚ × Window ℚ :=
  BookMetrics.compute (s.bids.map Level.exact) (s.asks.map Level.exact) depth w

/-- What holds of the metrics of any snapshot. With a best level on each side they are within their
bounds. The depth is that of both sides, and those do not fall as more levels are counted. With an
empty side the metrics of the best levels are zero, and the window stays what it was. -/
theorem metrics_bounded [RationalRoot] (venue : Venue) (symbol : String) (stamp : Nat)
    (bids asks : List (Level Float)) {depth : ℕ} (deep : 0 < depth) (w : Window ℚ) :
    let s := ofLevels venue symbol stamp bids asks
    let m := (s.exactMetrics depth w).1
    (∀ bid ask, s.bestBid? = some bid → s.bestAsk? = some ask →
      m.BestWithin bid.exact ask.exact) ∧
    (m.depth = m.bidDepth + m.askDepth ∧ 0 ≤ m.depth ∧
      (Monotone fun depth => (s.exactMetrics depth w).1.bidDepth) ∧
      Monotone fun depth => (s.exactMetrics depth w).1.askDepth) ∧
    (s.bids = [] ∨ s.asks = [] →
      (s.exactMetrics depth w).2 = w ∧
        m.midpoint = 0 ∧ m.relativeSpread = 0 ∧ m.breadth = 0 ∧ m.imbalance = 0) := by
  intro s m
  have canonical : s.Canonical := canonical_ofLevels venue symbol stamp bids asks
  have bidsPositive := positive_of_mem_map_exact canonical.bids_sound
  have asksPositive := positive_of_mem_map_exact canonical.asks_sound
  have depths : m.depth = m.bidDepth + m.askDepth := BookMetrics.depth_compute ..
  have bidDepth : ∀ depth, (s.exactMetrics depth w).1.bidDepth = _ := fun depth =>
    BookMetrics.bidDepth_compute _ (s.asks.map Level.exact) depth w
  have askDepth : ∀ depth, (s.exactMetrics depth w).1.askDepth = _ := fun depth =>
    BookMetrics.askDepth_compute (s.bids.map Level.exact) _ depth w
  refine ⟨?_, ⟨depths, ?_, ?_, ?_⟩, ?_⟩
  · intro bid ask bestBid bestAsk
    obtain ⟨otherBids, bidsEq⟩ := List.head?_eq_some_iff.1 bestBid
    obtain ⟨otherAsks, asksEq⟩ := List.head?_eq_some_iff.1 bestAsk
    simp only [m, exactMetrics, bidsEq, asksEq, List.map_cons] at bidsPositive asksPositive ⊢
    exact BookMetrics.bestWithin_compute bidsPositive asksPositive deep w
  · rw [depths, bidDepth, askDepth]
    refine add_nonneg (BookMetrics.notional_nonneg ?_) (BookMetrics.notional_nonneg ?_)
    · exact fun level member => bidsPositive level (List.mem_of_mem_take member)
    · exact fun level member => asksPositive level (List.mem_of_mem_take member)
  · intro fewer more deeper
    simp only [bidDepth]
    exact BookMetrics.notional_take_mono bidsPositive deeper
  · intro fewer more deeper
    simp only [askDepth]
    exact BookMetrics.notional_take_mono asksPositive deeper
  · intro empty
    refine BookMetrics.compute_of_empty_side ?_ depth w
    rwa [List.map_eq_nil_iff, List.map_eq_nil_iff]

/-- A crossed book, whose spread is below zero, and a book without asks. -/
theorem metrics_bounded_crossed :
    let _ : RationalRoot := ⟨id⟩
    let crossed := ofLevels .bybit "BTC-USDT" 1 [⟨99, 1⟩, ⟨102, 3⟩] [⟨98, 1⟩]
    let bare := ofLevels .bybit "BTC-USDT" 1 [⟨100, 2⟩] []
    let w := (Window.empty 20 : Window ℚ).push 100
    0 < 1 ∧ crossed.bestBid? = some ⟨102, 3⟩ ∧ crossed.bestAsk? = some ⟨98, 1⟩ ∧
      (crossed.exactMetrics 1 w).1.BestWithin ⟨102, 3⟩ ⟨98, 1⟩ ∧
      (crossed.exactMetrics 1 w).1.relativeSpread = -1 / 25 ∧
      bare.asks = [] ∧ (bare.exactMetrics 1 w).2 = w := by
  intro _ crossed bare w
  have bestBid : crossed.bestBid? = some ⟨102, 3⟩ := by decide +kernel
  have bestAsk : crossed.bestAsk? = some ⟨98, 1⟩ := by decide +kernel
  have none : bare.asks = [] := by decide +kernel
  have within := (metrics_bounded .bybit "BTC-USDT" 1 [⟨99, 1⟩, ⟨102, 3⟩] [⟨98, 1⟩]
    (by decide : 0 < 1) w).1 _ _ bestBid bestAsk
  have unmoved := ((metrics_bounded .bybit "BTC-USDT" 1 [⟨100, 2⟩] []
    (by decide : 0 < 1) w).2.2 (.inr none)).1
  have bid : Level.exact ⟨102, 3⟩ = ⟨102, 3⟩ := by decide +kernel
  have ask : Level.exact ⟨98, 1⟩ = ⟨98, 1⟩ := by decide +kernel
  rw [bid, ask] at within
  exact ⟨by decide, bestBid, bestAsk, within, by decide +kernel, none, unmoved⟩

end Snapshot

end Tape
