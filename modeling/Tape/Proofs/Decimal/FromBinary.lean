import Tape.Decimal.Binary
import Tape.Proofs.Binary64.Nearest
import Tape.Proofs.Decimal.Numerals

/-!
# Decimals out of binary64 numbers

A number that is off a short decimal by half a unit of its last place becomes that decimal again,
unless the digits of the decimal begin above `4.0` and below `4.503599627370496`. The powers of two
are absorbed almost without loss. The decimals are then dropped one by one, each time a half rounding
up, until the mantissa is below `2 ^ 52`: together these roundings may go astray by four ninths of
the last place, and half a unit of the number exceeds that just for those leading digits.
-/

namespace Tape.Decimal

open Tape.Binary64 (SizeRounds isFinite isNegative magnitude parts fractionBound)

namespace Draft

def value (d : Draft) : ℚ := d.mantissa * 10 ^ d.exponent

theorem value_nonneg (d : Draft) : 0 ≤ d.value := by
  rw [value]
  positivity

end Draft

/-! ## Powers of two -/

/-- The share of a mantissa that one halving loses at most. -/
def halvingLoss : ℚ := 1 / 2 ^ 93

/-- One half more is absorbed by a draft that is five times as large, up to the loss. -/
structure Absorbs (d next : Draft) : Prop where
  above : next.value ≤ 5 * d.value
  below : 5 * d.value * (1 - halvingLoss) ≤ next.value
  exponent : next.exponent ≤ d.exponent + 1

theorem absorbs_even {m : Nat} (e : Int) (even : m % 2 = 0) : Absorbs ⟨m, e⟩ ⟨m / 2, e + 1⟩ := by
  have half : (m : ℚ) = 2 * (m / 2 : Nat) := by exact_mod_cast (by omega : m = 2 * (m / 2))
  have same : Draft.value ⟨m / 2, e + 1⟩ = 5 * Draft.value ⟨m, e⟩ := by
    simp only [Draft.value, zpow_add_one₀ (show (10 : ℚ) ≠ 0 by norm_num), half]
    ring
  refine ⟨same.le, ?_, le_refl _⟩
  rw [same]
  exact mul_le_of_le_one_right (by have := Draft.value_nonneg ⟨m, e⟩; positivity)
    (by norm_num [halvingLoss])

theorem absorbs_room (m : Nat) (e : Int) : Absorbs ⟨m, e⟩ ⟨m * 5, e⟩ := by
  have same : Draft.value ⟨m * 5, e⟩ = 5 * Draft.value ⟨m, e⟩ := by
    simp only [Draft.value]
    push_cast
    ring
  refine ⟨same.le, ?_, (show e ≤ e + 1 by omega)⟩
  rw [same]
  exact mul_le_of_le_one_right (by have := Draft.value_nonneg ⟨m, e⟩; positivity)
    (by norm_num [halvingLoss])

/-- A mantissa without room to grow is so large that the bit it loses does not count for much. -/
theorem absorbs_full {m : Nat} (e : Int) (odd : m % 2 ≠ 0) (full : mantissaBound ≤ m * 5) :
    Absorbs ⟨m, e⟩ ⟨m / 2, e + 1⟩ := by
  have half : (m : ℚ) = 2 * (m / 2 : Nat) + 1 := by
    exact_mod_cast (by omega : m = 2 * (m / 2) + 1)
  have large : (2 : ℚ) ^ 93 ≤ m := by
    exact_mod_cast (by simp only [mantissaBound] at full; omega : 2 ^ 93 ≤ m)
  have lost : 1 ≤ (m : ℚ) * halvingLoss := by
    rw [halvingLoss, mul_one_div, le_div_iff₀ (by positivity), one_mul]
    exact large
  have unit : (0 : ℚ) < 10 ^ e := by positivity
  refine ⟨?_, ?_, le_refl _⟩
  · calc Draft.value ⟨m / 2, e + 1⟩ = 5 * (2 * (m / 2 : Nat)) * 10 ^ e := by
          simp only [Draft.value, zpow_add_one₀ (show (10 : ℚ) ≠ 0 by norm_num)]
          ring
      _ ≤ 5 * m * 10 ^ e := mul_le_mul_of_nonneg_right (by linarith) unit.le
      _ = 5 * Draft.value ⟨m, e⟩ := by
          simp only [Draft.value]
          ring
  · calc 5 * Draft.value ⟨m, e⟩ * (1 - halvingLoss) =
          5 * (m - m * halvingLoss) * 10 ^ e := by
          simp only [Draft.value]
          ring
      _ ≤ 5 * (2 * (m / 2 : Nat)) * 10 ^ e :=
          mul_le_mul_of_nonneg_right (by linarith) unit.le
      _ = Draft.value ⟨m / 2, e + 1⟩ := by
          simp only [Draft.value, zpow_add_one₀ (show (10 : ℚ) ≠ 0 by norm_num)]
          ring

/-- Absorbing halves keeps the number but for what mantissas without room to grow lose. -/
theorem absorbHalves_bounds (n : Nat) (d : Draft) :
    (d.absorbHalves n).value ≤ 5 ^ n * d.value ∧
      5 ^ n * d.value * (1 - halvingLoss) ^ n ≤ (d.absorbHalves n).value ∧
      (d.absorbHalves n).exponent ≤ d.exponent + n := by
  induction n generalizing d with
  | zero => simp [Draft.absorbHalves]
  | succ n ih =>
      obtain ⟨next, same, absorbs⟩ : ∃ next, d.absorbHalves (n + 1) = next.absorbHalves n ∧
          Absorbs d next := by
        obtain ⟨m, e⟩ := d
        rw [Draft.absorbHalves]
        refine ⟨_, rfl, ?_⟩
        split
        next even => exact absorbs_even e even
        next odd =>
          split
          next => exact absorbs_room m e
          next full => exact absorbs_full e odd (Nat.not_lt.1 full)
      have left : 0 ≤ (1 - halvingLoss) ^ n := pow_nonneg (by norm_num [halvingLoss]) n
      obtain ⟨high, low, last⟩ := ih next
      have exponent := absorbs.exponent
      rw [same]
      refine ⟨?_, ?_, by omega⟩
      · calc (next.absorbHalves n).value ≤ 5 ^ n * next.value := high
          _ ≤ 5 ^ n * (5 * d.value) := mul_le_mul_of_nonneg_left absorbs.above (by positivity)
          _ = 5 ^ (n + 1) * d.value := by ring
      · calc 5 ^ (n + 1) * d.value * (1 - halvingLoss) ^ (n + 1) =
              5 ^ n * (5 * d.value * (1 - halvingLoss)) * (1 - halvingLoss) ^ n := by ring
          _ ≤ 5 ^ n * next.value * (1 - halvingLoss) ^ n :=
              mul_le_mul_of_nonneg_right
                (mul_le_mul_of_nonneg_left absorbs.below (by positivity)) left
          _ ≤ (next.absorbHalves n).value := low

/-! ## Decimals dropped one by one -/

/-- The whole number of `n` digits one. -/
def ones : Nat → Nat
  | 0 => 0
  | n + 1 => 10 * ones n + 1

theorem ten_pow_eq (n : Nat) : 10 ^ n = 9 * ones n + 1 := by
  induction n with
  | zero => rfl
  | succ n ih =>
      rw [pow_succ, ih, ones]
      ring

/-- Drops decimals, a half rounding up each time. -/
def drops : Nat → Nat → Nat
  | 0, m => m
  | n + 1, m => (drops n m + 5) / 10

/-- The roundings add up to a bit more than half a unit upwards and a bit less downwards. -/
theorem drops_bounds (n m : Nat) :
    10 ^ n * drops n m ≤ m + 5 * ones n ∧ m ≤ 10 ^ n * drops n m + 4 * ones n := by
  induction n with
  | zero => simp [drops, ones]
  | succ n ih =>
      rw [drops, ones]
      obtain ⟨up, down⟩ := ih
      have low : 10 * ((drops n m + 5) / 10) ≤ drops n m + 5 := Nat.mul_div_le _ _
      have high : drops n m ≤ 10 * ((drops n m + 5) / 10) + 4 := by omega
      have unit := ten_pow_eq n
      have lowScaled := Nat.mul_le_mul_left (10 ^ n) low
      have highScaled := Nat.mul_le_mul_left (10 ^ n) high
      rw [Nat.mul_add] at lowScaled highScaled
      have whole : 10 ^ (n + 1) * ((drops n m + 5) / 10) =
          10 ^ n * (10 * ((drops n m + 5) / 10)) := by ring
      omega

theorem drops_eq {n m p : Nat} (up : 10 ^ n * p ≤ m + 5 * ones n)
    (down : m ≤ 10 ^ n * p + 4 * ones n) : drops n m = p := by
  have bounds := drops_bounds n m
  have unit := ten_pow_eq n
  apply Nat.le_antisymm
  · by_contra more
    have := Nat.mul_le_mul_left (10 ^ n) (Nat.not_le.1 more)
    rw [Nat.succ_eq_add_one, Nat.mul_add] at this
    omega
  · by_contra less
    have := Nat.mul_le_mul_left (10 ^ n) (Nat.not_le.1 less)
    rw [Nat.succ_eq_add_one, Nat.mul_add] at this
    omega

theorem dropDecimal_eq (n m : Nat) (e : Int) :
    Draft.dropDecimal ⟨drops n m, e⟩ = ⟨drops (n + 1) m, e + 1⟩ := by
  rw [Draft.dropDecimal, drops]
  simp only [Draft.mk.injEq, and_true]
  split <;> omega

/-! ## Drafts near a decimal -/

/-- The relative distance within which a decimal is found again. It is half a unit of a binary64
number and what is lost on powers of two. -/
def tolerance : ℚ := 1111 / 10 ^ 19

/-- A whole number that does not begin above `4.0` and below `4.503599627370496`. -/
def Clear (n : Nat) : Prop := ∀ i, n * 10 ^ i < fractionBound → n * 10 ^ i ≤ 4 * 10 ^ 15

theorem clear_iff (n : Nat) :
    Clear n ↔ ∀ i < 16, n * 10 ^ i < fractionBound → n * 10 ^ i ≤ 4 * 10 ^ 15 := by
  refine ⟨fun clear i _ => clear i, fun small i below => ?_⟩
  by_cases near : i < 16
  · exact small i near below
  · -- so many zeros fit behind no digit but zero
    have large : 10 ^ 16 ≤ 10 ^ i := Nat.pow_le_pow_right (by decide) (by omega)
    rw [fractionBound] at below
    rcases Nat.eq_zero_or_pos n with rfl | positive
    · omega
    · have := Nat.mul_le_mul positive large
      omega

instance (n : Nat) : Decidable (Clear n) := decidable_of_iff' _ (clear_iff n)

/-- A draft near `n / 10 ^ k`, a decimal that a binary64 number can stand for. -/
structure IsNear (d : Draft) (n k : Nat) : Prop where
  close : |d.value - n / 10 ^ k| ≤ n / 10 ^ k * tolerance
  bound : n < fractionBound
  clear : Clear n
  positive : 0 < n
  places : k ≤ 22

namespace IsNear

variable {w : Nat} {e : Int} {n k s t : Nat}

/-- The mantissa in units of the place `s` is the decimal there up to the tolerance. -/
theorem mantissa (near : IsNear ⟨w, e⟩ n k) (exponent : e + t = -(s : Int)) (held : k ≤ s) :
    (1 - tolerance) * (10 ^ t * (n * 10 ^ (s - k) : Nat) : ℚ) ≤ w ∧
      (w : ℚ) ≤ (1 + tolerance) * (10 ^ t * (n * 10 ^ (s - k) : Nat) : ℚ) := by
  have unit : (0 : ℚ) < 10 ^ (s + t) := by positivity
  have back : (10 : ℚ) ^ e * 10 ^ (s + t) = 1 := by
    rw [← zpow_natCast, ← zpow_add₀ (by norm_num)]
    have none : e + ((s + t : Nat) : Int) = 0 := by push_cast; omega
    rw [none, zpow_zero]
  have scaled : (n : ℚ) / 10 ^ k * 10 ^ (s + t) = 10 ^ t * (n * 10 ^ (s - k) : Nat) := by
    have split : s + t = k + (s - k) + t := by omega
    push_cast
    rw [split, pow_add, pow_add]
    field_simp
  have close := near.close
  rw [Draft.value, abs_le] at close
  have low := mul_le_mul_of_nonneg_right close.1 unit.le
  have high := mul_le_mul_of_nonneg_right close.2 unit.le
  rw [sub_mul, mul_assoc (w : ℚ), back, mul_one, scaled, neg_mul, mul_right_comm, scaled] at low
  rw [sub_mul, mul_assoc (w : ℚ), back, mul_one, scaled, mul_right_comm, scaled] at high
  constructor <;> linarith

/-- Where the decimal is far enough from `2 ^ 52`, dropping decimals gives exactly it. -/
theorem drops_eq (near : IsNear ⟨w, e⟩ n k) (exponent : e + t = -(s : Int)) (held : k ≤ s)
    (small : n * 10 ^ (s - k) ≤ 4 * 10 ^ 15) : drops t w = n * 10 ^ (s - k) := by
  obtain ⟨low, high⟩ := near.mantissa exponent held
  obtain ⟨x, same⟩ : ∃ x, x = n * 10 ^ (s - k) := ⟨_, rfl⟩
  rw [← same] at low high small ⊢
  have unit : (0 : ℚ) < 10 ^ t := by positivity
  have whole : (x : ℚ) ≤ 4 * 10 ^ 15 := by exact_mod_cast small
  have off : 10 ^ t * (x : ℚ) * tolerance ≤ 4444 / 10000 * 10 ^ t := by
    calc 10 ^ t * (x : ℚ) * tolerance ≤ 10 ^ t * (4 * 10 ^ 15) * tolerance :=
          mul_le_mul_of_nonneg_right (mul_le_mul_of_nonneg_left whole unit.le)
            (by norm_num [tolerance])
      _ = 4444 / 10000 * 10 ^ t := by
          rw [tolerance]
          ring
  have up : 10000 * (10 ^ t * x) ≤ 10000 * w + 4444 * 10 ^ t := by
    have : (10000 : ℚ) * (10 ^ t * x) ≤ 10000 * w + 4444 * 10 ^ t := by linarith
    exact_mod_cast this
  have down : 10000 * w ≤ 10000 * (10 ^ t * x) + 4444 * 10 ^ t := by
    have : (10000 : ℚ) * w ≤ 10000 * (10 ^ t * x) + 4444 * 10 ^ t := by linarith
    exact_mod_cast this
  have digits := ten_pow_eq t
  apply Decimal.drops_eq <;> omega

/-- Dropped decimals fall short by less than a unit, with the tolerance. -/
theorem le_drops (near : IsNear ⟨w, e⟩ n k) (exponent : e + t = -(s : Int)) (held : k ≤ s) :
    (1 - tolerance) * (n * 10 ^ (s - k) : Nat) ≤ drops t w + 4 / 9 := by
  obtain ⟨low, _⟩ := near.mantissa exponent held
  have unit : (0 : ℚ) < 10 ^ t := by positivity
  have digits : (10 : ℚ) ^ t = 9 * ones t + 1 := by exact_mod_cast ten_pow_eq t
  have down : (w : ℚ) ≤ 10 ^ t * drops t w + 4 * ones t := by exact_mod_cast (drops_bounds t w).2
  have scaled : 10 ^ t * ((1 - tolerance) * (n * 10 ^ (s - k) : Nat)) ≤
      10 ^ t * ((drops t w : ℚ) + 4 / 9) := by
    calc 10 ^ t * ((1 - tolerance) * ((n * 10 ^ (s - k) : Nat) : ℚ)) =
          (1 - tolerance) * (10 ^ t * (n * 10 ^ (s - k) : Nat)) := by ring
      _ ≤ w := low
      _ ≤ 10 ^ t * (drops t w : ℚ) + 4 * ones t := down
      _ ≤ 10 ^ t * ((drops t w : ℚ) + 4 / 9) := by rw [mul_add]; linarith
  exact le_of_mul_le_mul_left scaled unit

/-- Decimals dropped below `2 ^ 52` are those of the decimal. -/
theorem drops_eq_of_lt (near : IsNear ⟨w, e⟩ n k) (exponent : e + t = -(s : Int)) (held : k ≤ s)
    (small : drops t w < fractionBound) :
    drops t w = n * 10 ^ (s - k) ∧ n * 10 ^ (s - k) < fractionBound := by
  have below : n * 10 ^ (s - k) < fractionBound := by
    by_contra large
    have reached := near.le_drops exponent held
    have whole : ((2 : ℚ) ^ 52) ≤ (n * 10 ^ (s - k) : Nat) := by
      exact_mod_cast (Nat.not_lt.1 large)
    have last : (drops t w : ℚ) + 1 ≤ 2 ^ 52 := by exact_mod_cast (Nat.succ_le_of_lt small)
    rw [tolerance] at reached
    linarith
  exact ⟨near.drops_eq exponent held (near.clear _ below), below⟩

/-- At the last place of the decimal the mantissa is below `2 ^ 52`. -/
theorem drops_lt_of_eq (near : IsNear ⟨w, e⟩ n k) (exponent : e + t = -(k : Int)) :
    drops t w < fractionBound := by
  have bound := near.bound
  have clear := near.clear 0
  rw [pow_zero, mul_one] at clear
  have last := near.drops_eq exponent (le_refl k) (by simpa using clear bound)
  rw [Nat.sub_self, pow_zero, mul_one] at last
  rwa [last]

/-- Beyond the largest scale there are digits to drop. -/
theorem ten_le_drops (near : IsNear ⟨w, e⟩ n k) (exponent : e + t = -(s : Int))
    (beyond : maxScale < s) : 10 ≤ drops t w := by
  have places := near.places
  rw [maxScale] at beyond
  have reached := near.le_drops exponent (by omega)
  have whole : (100 : ℚ) ≤ (n * 10 ^ (s - k) : Nat) := by
    have power : 10 ^ 2 ≤ 10 ^ (s - k) := Nat.pow_le_pow_right (by decide) (by omega)
    have : 100 ≤ n * 10 ^ (s - k) := by nlinarith [near.positive]
    exact_mod_cast this
  have some : (10 : ℚ) ≤ drops t w := by
    rw [tolerance] at reached
    linarith
  exact_mod_cast some

/-- With fewer places than the decimal has written, the draft is the decimal already. -/
theorem mantissa_eq (near : IsNear ⟨w, -(s : Int)⟩ n k) (short : s ≤ k) : w * 10 ^ (k - s) = n := by
  have close := near.close
  have bound : (n : ℚ) < 2 ^ 52 := by exact_mod_cast near.bound
  have unit : (0 : ℚ) < 10 ^ k := by positivity
  have scaled : Draft.value ⟨w, -(s : Int)⟩ * 10 ^ k = (w * 10 ^ (k - s) : Nat) := by
    have split : k = s + (k - s) := by omega
    simp only [Draft.value, zpow_neg, zpow_natCast]
    push_cast
    nth_rewrite 1 [split]
    rw [pow_add]
    field_simp
  rw [abs_le] at close
  have low := mul_le_mul_of_nonneg_right close.1 unit.le
  have high := mul_le_mul_of_nonneg_right close.2 unit.le
  rw [sub_mul, scaled, neg_mul, mul_right_comm, div_mul_cancel₀ _ unit.ne'] at low
  rw [sub_mul, scaled, mul_right_comm, div_mul_cancel₀ _ unit.ne'] at high
  have off : (n : ℚ) * tolerance < 1 := by
    rw [tolerance]
    linarith
  have above : w * 10 ^ (k - s) < n + 1 := by
    have : ((w * 10 ^ (k - s) : Nat) : ℚ) < n + 1 := by linarith
    exact_mod_cast this
  have below : n < w * 10 ^ (k - s) + 1 := by
    have : (n : ℚ) < (w * 10 ^ (k - s) : Nat) + 1 := by linarith
    exact_mod_cast this
  omega

end IsNear

/-! ## Limits -/

/-- A draft after some decimals were dropped, none of which the decimal has. -/
def Reaches (d : Draft) (k : Nat) (r : Draft) : Prop :=
  ∃ t s : Nat, d.exponent + t = -(s : Int) ∧ k ≤ s ∧ r = ⟨drops t d.mantissa, -(s : Int)⟩

/-- Dropping one more decimal beyond those of the decimal. -/
theorem Reaches.dropDecimal {d : Draft} {k t s : Nat} (exponent : d.exponent + t = -(s : Int))
    (later : k < s) : Reaches d k (Draft.dropDecimal ⟨drops t d.mantissa, -(s : Int)⟩) := by
  refine ⟨t + 1, s - 1, by push_cast; omega, by omega, ?_⟩
  have last : -(s : Int) + 1 = -((s - 1 : Nat) : Int) := by omega
  rw [dropDecimal_eq, last]

section Limits

variable {d r : Draft} {n k : Nat} (near : IsNear d n k)
include near

theorem limitScale_reaches (fuel : Nat) (reached : Reaches d k r) :
    Reaches d k (r.limitScale fuel) ∧
      (-(maxScale : Int) ≤ r.exponent + fuel → -(maxScale : Int) ≤ (r.limitScale fuel).exponent) := by
  induction fuel generalizing r with
  | zero => exact ⟨reached, fun enough => by simpa [Draft.limitScale] using enough⟩
  | succ fuel ih =>
      obtain ⟨t, s, exponent, held, rfl⟩ := reached
      rw [Draft.limitScale]
      by_cases beyond : -(s : Int) < -(maxScale : Int)
      · have places := near.places
        have scale : maxScale < s := by omega
        have some := near.ten_le_drops exponent scale
        rw [maxScale] at scale
        rw [if_pos beyond, if_neg (show ¬drops t d.mantissa / 10 = 0 by omega)]
        obtain ⟨later, enough⟩ := ih (Reaches.dropDecimal exponent (by omega))
        refine ⟨later, fun fuelled => enough ?_⟩
        change -(maxScale : Int) ≤ -(s : Int) + 1 + fuel
        simp only at fuelled
        push_cast at fuelled
        omega
      · rw [if_neg beyond]
        exact ⟨⟨t, s, exponent, held, rfl⟩, fun _ => Int.not_lt.1 beyond⟩

theorem limitPrecision_reaches (fuel : Nat) (reached : Reaches d k r)
    (scale : -(maxScale : Int) ≤ r.exponent) :
    Reaches d k (r.limitPrecision fuel) ∧ -(maxScale : Int) ≤ (r.limitPrecision fuel).exponent ∧
      (0 ≤ r.exponent + fuel → 0 ≤ (r.limitPrecision fuel).exponent ∨
        (r.limitPrecision fuel).mantissa < fractionBound) := by
  induction fuel generalizing r with
  | zero => exact ⟨reached, scale, fun enough => .inl (by simpa [Draft.limitPrecision] using enough)⟩
  | succ fuel ih =>
      obtain ⟨t, s, exponent, held, rfl⟩ := reached
      rw [Draft.limitPrecision]
      by_cases wide : -(s : Int) < 0 ∧ fractionBound ≤ drops t d.mantissa
      · have later : k < s := by
          by_contra here
          have same : s = k := by omega
          rw [same] at exponent
          exact absurd (near.drops_lt_of_eq exponent) (Nat.not_lt.2 wide.2)
        rw [if_pos (by simpa using wide)]
        have more : -(maxScale : Int) ≤
            (Draft.dropDecimal ⟨drops t d.mantissa, -(s : Int)⟩).exponent := by
          change -(maxScale : Int) ≤ -(s : Int) + 1
          simp only at scale
          omega
        obtain ⟨next, kept, enough⟩ := ih (Reaches.dropDecimal exponent later) more
        refine ⟨next, kept, fun fuelled => enough ?_⟩
        change 0 ≤ -(s : Int) + 1 + fuel
        simp only at fuelled
        push_cast at fuelled
        omega
      · rw [if_neg (by simpa using wide)]
        refine ⟨⟨t, s, exponent, held, rfl⟩, scale, fun _ => ?_⟩
        simp only
        omega

end Limits

theorem limitScale_of_le {d : Draft} (scale : -(maxScale : Int) ≤ d.exponent) (fuel : Nat) :
    d.limitScale fuel = d := by
  cases fuel with
  | zero => rfl
  | succ fuel => rw [Draft.limitScale, if_neg (Int.not_lt.2 scale)]

theorem limitPrecision_of_lt {d : Draft} (small : d.mantissa < fractionBound) (fuel : Nat) :
    d.limitPrecision fuel = d := by
  cases fuel with
  | zero => rfl
  | succ fuel => rw [Draft.limitPrecision, if_neg (by simp [small])]

/-! ## From binary64 -/

/-- After both limits the draft is the decimal. -/
theorem limits_eq {d : Draft} {n k : Nat} (near : IsNear d n k) (exponent : d.exponent ≤ 0) :
    ∃ p s : Nat, (d.limitScale (-d.exponent).toNat).limitPrecision maxScale = ⟨p, -(s : Int)⟩ ∧
      p < fractionBound ∧ s ≤ maxScale ∧
      p * 10 ^ (maxScale - s) = n * 10 ^ (maxScale - k) := by
  obtain ⟨w, e⟩ := d
  obtain ⟨s, rfl⟩ : ∃ s : Nat, e = -(s : Int) := ⟨(-e).toNat, by simp only at exponent; omega⟩
  have places := near.places
  by_cases long : k ≤ s
  · have start : Reaches ⟨w, -(s : Int)⟩ k ⟨w, -(s : Int)⟩ := ⟨0, s, by simp, long, rfl⟩
    obtain ⟨reached, enough⟩ := limitScale_reaches near (- -(s : Int)).toNat start
    have scaled := enough (by simp only; omega)
    obtain ⟨settled, kept, done⟩ := limitPrecision_reaches near maxScale reached scaled
    obtain ⟨t, r, away, held, same⟩ := settled
    have precise := done (by omega)
    simp only [same] at kept precise ⊢
    have small : drops t w < fractionBound := by
      rcases precise with whole | small
      · have last : r = k := by omega
        exact near.drops_lt_of_eq (last ▸ away)
      · exact small
    have value := near.drops_eq_of_lt away held small
    refine ⟨drops t w, r, rfl, small, by omega, ?_⟩
    rw [value.1, mul_assoc, ← pow_add]
    have split : r - k + (maxScale - r) = maxScale - k := by omega
    rw [split]
  · have value := near.mantissa_eq (Nat.le_of_not_le long)
    have small : w < fractionBound := by
      have := Nat.le_mul_of_pos_right w (Nat.pow_pos (n := k - s) (by decide : 0 < 10))
      have := near.bound
      omega
    have scale : -(maxScale : Int) ≤ -(s : Int) := by
      rw [maxScale]
      omega
    refine ⟨w, s, ?_, small, by omega, ?_⟩
    · rw [limitScale_of_le scale]
      exact limitPrecision_of_lt small maxScale
    · rw [← value, mul_assoc, ← pow_add]
      have split : k - s + (maxScale - k) = maxScale - s := by
        rw [maxScale]
        omega
      rw [split]

/-- The mantissa of a number below `2 ^ 52` has bits after the point. -/
theorem exponent_neg {x : Float} {v : ℚ} (rounds : SizeRounds x v) (bound : v ≤ 2 ^ 52 - 1) :
    (parts x).exponent < 0 := by
  by_contra whole
  have near := rounds.near
  have low : (2 : ℚ) ^ 52 ≤ (parts x).mantissa := by exact_mod_cast rounds.low
  have unit : (1 : ℚ) ≤ 2 ^ (parts x).exponent := one_le_zpow₀ (by norm_num) (by omega)
  have half : (2 : ℚ) ^ ((parts x).exponent - 1) = 2 ^ (parts x).exponent / 2 := by
    rw [zpow_sub_one₀ (by norm_num)]
    ring
  have scaled := mul_le_mul_of_nonneg_right low (zero_le_one.trans unit)
  rw [half, abs_le] at near
  linarith [near.2]

/-- Absorbing the power of two of a number near a decimal gives a draft near it. -/
theorem close_absorbHalves {x : Float} {v : ℚ} (rounds : SizeRounds x v)
    (below : (parts x).exponent < 0) :
    |(Draft.absorbHalves (-(parts x).exponent).toNat
        ⟨(parts x).mantissa, (parts x).exponent⟩).value - v| ≤ v * tolerance := by
  obtain ⟨n, same⟩ : ∃ n, n = (-(parts x).exponent).toNat := ⟨_, rfl⟩
  have least := rounds.least
  have start : (5 : ℚ) ^ n * Draft.value ⟨(parts x).mantissa, (parts x).exponent⟩ =
      (parts x).mantissa * 2 ^ (parts x).exponent := by
    have back : (parts x).exponent = -(n : Int) := by omega
    have tens : (10 : ℚ) ^ n = 5 ^ n * 2 ^ n := by rw [← mul_pow]; norm_num
    simp only [Draft.value, back, zpow_neg, zpow_natCast, tens]
    field_simp
  obtain ⟨high, low, _⟩ := absorbHalves_bounds n ⟨(parts x).mantissa, (parts x).exponent⟩
  rw [start] at high low
  rw [← same]
  -- half a unit is a share of the number, since all the bits of the mantissa are there
  have half : (2 : ℚ) ^ ((parts x).exponent - 1) ≤
      (parts x).mantissa * 2 ^ (parts x).exponent / 2 ^ 53 := by
    have bits : (2 : ℚ) ^ 52 ≤ (parts x).mantissa := by exact_mod_cast rounds.low
    have scaled := mul_le_mul_of_nonneg_right bits
      (show (0 : ℚ) ≤ 2 ^ (parts x).exponent by positivity)
    rw [zpow_sub_one₀ (by norm_num), le_div_iff₀ (by positivity)]
    linarith
  have lost : 1 - 1074 * halvingLoss ≤ (1 - halvingLoss) ^ n := by
    have bernoulli : 1 + (n : ℚ) * (-halvingLoss) ≤ (1 + -halvingLoss) ^ n :=
      one_add_mul_le_pow (by norm_num [halvingLoss]) n
    have count : (n : ℚ) ≤ 1074 := by exact_mod_cast (by omega : n ≤ 1074)
    have share := mul_le_mul_of_nonneg_right count (show 0 ≤ halvingLoss by norm_num [halvingLoss])
    rw [← sub_eq_add_neg] at bernoulli
    linarith
  obtain ⟨size, known⟩ : ∃ size, size = ((parts x).mantissa : ℚ) * 2 ^ (parts x).exponent :=
    ⟨_, rfl⟩
  have near := rounds.near
  rw [← known] at high low half near
  have nonnegative : 0 ≤ size := by
    rw [known]
    positivity
  have kept := (mul_le_mul_of_nonneg_left lost nonnegative).trans low
  rw [abs_le] at near ⊢
  rw [halvingLoss] at kept
  rw [tolerance]
  constructor <;> linarith

/-- A number near a decimal that is short and clear becomes that decimal. -/
theorem ofFloat?_of_rounds {x : Float} {n k : Nat} (rounds : SizeRounds x (n / 10 ^ k))
    (positive : 0 < n) (bound : n < fractionBound) (clear : Clear n) (places : k ≤ 22) :
    ∃ d, ofFloat? x = some d ∧ d.negative = isNegative x ∧
      d.mantissa * 10 ^ (maxScale - d.scale) = n * 10 ^ (maxScale - k) := by
  have whole : (n : ℚ) / 10 ^ k ≤ 2 ^ 52 - 1 := by
    have last : (n : ℚ) + 1 ≤ 2 ^ 52 := by exact_mod_cast Nat.succ_le_of_lt bound
    have unit : (1 : ℚ) ≤ 10 ^ k := one_le_pow₀ (by norm_num)
    calc (n : ℚ) / 10 ^ k ≤ n := div_le_self (by positivity) unit
      _ ≤ 2 ^ 52 - 1 := by linarith
  have below := exponent_neg rounds whole
  obtain ⟨draft, absorbed⟩ : ∃ draft, draft = Draft.absorbHalves (-(parts x).exponent).toNat
      ⟨(parts x).mantissa, (parts x).exponent⟩ := ⟨_, rfl⟩
  have near : IsNear draft n k :=
    ⟨absorbed ▸ close_absorbHalves rounds below, bound, clear, positive, places⟩
  have exponent : draft.exponent ≤ 0 := by
    have := (absorbHalves_bounds (-(parts x).exponent).toNat
      ⟨(parts x).mantissa, (parts x).exponent⟩).2.2
    rw [← absorbed] at this
    simp only at this
    omega
  obtain ⟨p, s, precise, small, scale, value⟩ := limits_eq near exponent
  have none : draft.exponent.toNat = 0 := by omega
  have parts := lowestParts_le p s
  have back : (- -(s : Int)).toNat = s := by omega
  have fits : (lowestParts p s).1 < mantissaBound ∧ (lowestParts p s).2 ≤ maxScale := by
    refine ⟨?_, parts.2.trans scale⟩
    have : fractionBound < mantissaBound := by decide
    omega
  refine ⟨⟨isNegative x, (lowestParts p s).1, (lowestParts p s).2, fits.1, fits.2⟩, ?_, rfl, ?_⟩
  · have made : ofParts? (isNegative x) (lowestParts p s).1 (lowestParts p s).2 =
        some ⟨isNegative x, (lowestParts p s).1, (lowestParts p s).2, fits.1, fits.2⟩ := by
      rw [ofParts?, dif_pos fits]
    simp only [ofFloat?, rounds.finite, rounds.nonzero, if_pos below, ← absorbed, none,
      Draft.expand?, Option.bind_some, precise, back, made]
    rfl
  · exact (lowestParts_scaled p scale).trans value

end Tape.Decimal
