import Mathlib.Order.Lattice.Nat
import Tape.Link.Policy

/-!
# Waits of a policy

The waits of a policy never fall from one attempt to the next. Their product is cut off at 64 bits,
but where the bound of the policy has 64 bits itself, as that of every feed has, the bound cuts off
as much: the waits are those that whole numbers of any size would give.
-/

namespace Tape.LinkPolicy

variable {p : LinkPolicy}

theorem doublings_mono : Monotone doublings := by
  intro earlier later before
  simp only [doublings]
  omega

theorem wait_mono (p : LinkPolicy) : Monotone p.wait := by
  intro earlier later before
  have more : Nat.pow 2 (doublings earlier) ≤ Nat.pow 2 (doublings later) :=
    Nat.pow_le_pow_right (by decide) (doublings_mono before)
  exact min_le_min_right _ (min_le_min_right _ (Nat.mul_le_mul_left _ more))

/-- A bound of 64 bits hides that the product has no more. -/
theorem wait_eq_of_maxWait_le (fits : p.maxWait ≤ longestWait) (attempt : Nat) :
    p.wait attempt = min (p.baseWait * 2 ^ doublings attempt) p.maxWait := by
  rw [wait, min_assoc, min_eq_right fits]
  rfl

theorem wait_one (fits : p.maxWait ≤ longestWait) (below : p.baseWait ≤ p.maxWait) :
    p.wait 1 = p.baseWait := by
  rw [wait_eq_of_maxWait_le fits]
  change min (p.baseWait * 1) p.maxWait = p.baseWait
  rw [Nat.mul_one, min_eq_left below]

theorem maxWait_ofFeed_le (url : String) (attempts : Nat) {delay : Nat}
    (fits : delay < Word.bound64) : (ofFeed url attempts delay).maxWait ≤ longestWait :=
  max_le (by decide) (Nat.le_sub_one_of_lt fits)

/-- The waits of a feed. They double from the delay on, six times at most, and stay at half a minute
or the delay, whichever is longer; the first wait is the delay. -/
theorem waits_ofFeed (url : String) (attempts : UInt32) (delay : UInt64) :
    let p := ofFeed url attempts.toNat delay.toNat
    (∀ attempt : UInt32, p.wait attempt.toNat =
      min (delay.toNat * 2 ^ min (max attempt.toNat 1 - 1) 6) (max 30000 delay.toNat)) ∧
    p.wait 1 = delay.toNat ∧ Monotone p.wait ∧
    ∀ attempt, p.wait attempt ≤ max 30000 delay.toNat := by
  intro p
  have fits : p.maxWait ≤ longestWait := maxWait_ofFeed_le url _ delay.toNat_lt
  refine ⟨fun attempt => ?_, wait_one fits (Nat.le_max_right _ _), p.wait_mono, p.wait_le_maxWait⟩
  have doubled : doublings attempt.toNat = min (max attempt.toNat 1 - 1) 6 := by
    rw [doublings]
    omega
  rw [wait_eq_of_maxWait_le fits, doubled]
  rfl

-- With the longest delay that 64 bits hold, the second product has 65 bits.
example :
    let delay : UInt64 := 18446744073709551615
    (ofFeed "wss://feed" 10 delay.toNat).wait 2 = delay.toNat := by
  decide

end Tape.LinkPolicy
