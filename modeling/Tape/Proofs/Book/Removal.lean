import Tape.Proofs.Binary64.Numerals
import Tape.Proofs.Book.Merging
import Tape.Proofs.Json.Vanishing

/-!
# What removes a level

A size that is read denotes one exact number. The change removes what rests at its price exactly
when that number does not exceed half of the smallest binary64 number above zero: then the size is
taken for a zero. A larger size sets the level.
-/

namespace Tape

/-- The numbers that a size stands for: a text what its numeral denotes, a number what a literal
denotes that is read as it and has digits below `2 ^ 53`. Whatever it was read from, a number also
stands for itself. -/
inductive Json.Denotes : Json → ℚ → Prop where
  | text {s : String} (t : Text.Numeral) (written : Text.trim s.toList = t.chars) :
      Denotes (.text s) t.value
  | literal {n : Number} (t : Text.Numeral) (literal : t.IsLiteral)
      (short : t.significand < 2 ^ 53) (read : Json.readChars t.chars = .ok (.number n)) :
      Denotes (.number n) t.value
  | int (n : Int) : Denotes (.number (.int n)) n
  | real (x : Float) : Denotes (.number (.real x)) (Binary64.value x)

open Binary64 (vanishingBound)

namespace Wire

variable {v : Json} {x : Float}

/-- What is read as a quantity denotes a number. -/
theorem exists_denotes_of_quantity? (read : quantity? v = some x) : ∃ q, v.Denotes q := by
  cases v with
  | text s =>
      simp only [quantity?, Option.bind_eq_bind, Option.bind_eq_some_iff] at read
      obtain ⟨y, known, kept⟩ := read
      split at kept
      next held =>
        cases kept
        rw [Bool.and_eq_true] at held
        obtain ⟨t, written⟩ := Binary64.exists_numeral_of_ofChars? known held.1
        exact ⟨_, .text t written⟩
      next => cases kept
  | number n =>
      cases n with
      | int n => exact ⟨_, .int n⟩
      | real y => exact ⟨_, .real y⟩
  | null => cases read
  | flag b => cases read
  | list items => cases read
  | record members => cases read

/-- A quantity is zero exactly when it was read from a number that vanishes. -/
theorem quantity?_equal_zero_iff (read : quantity? v = some x) {q : ℚ} (denotes : v.Denotes q) :
    Binary64.equal x 0 = true ↔ |q| ≤ vanishingBound := by
  rw [Binary64.equal_zero_iff]
  cases denotes with
  | text t written =>
      simp only [quantity?, Option.bind_eq_bind, Option.bind_eq_some_iff] at read
      obtain ⟨y, known, kept⟩ := read
      split at kept
      next => cases kept; exact Binary64.magnitude_ofChars?_eq_zero_iff (written ▸ known)
      next => cases kept
  | literal t literal short known =>
      simp only [quantity?, Option.bind_eq_bind, Option.bind_some] at read
      split at read
      next => cases read; exact Json.magnitude_toFloat_eq_zero_iff literal short known
      next => cases read
  | int n =>
      simp only [quantity?, Option.bind_eq_bind, Option.bind_some] at read
      split at read
      next =>
        cases read
        refine (Binary64.magnitude_ofInt_eq_zero_iff n).trans ⟨fun zero => ?_, fun small => ?_⟩
        · rw [zero, Int.cast_zero, abs_zero, vanishingBound]
          positivity
        · by_contra some
          have one : (1 : ℚ) ≤ |(n : ℚ)| := by exact_mod_cast Int.one_le_abs some
          exact absurd small (not_le.2 (Binary64.vanishingBound_lt_of_one_le one))
      next => cases read
  | real y =>
      simp only [quantity?, Option.bind_eq_bind, Option.bind_some] at read
      split at read
      next => cases read; exact Binary64.magnitude_eq_zero_iff_value y
      next => cases read

end Wire

/-- A change that was read does something when its price is positive. -/
theorem LevelChange.Proper.takesEffect_eq {c : LevelChange} (proper : c.Proper) :
    c.takesEffect = c.price.isPositive := by
  rw [takesEffect]
  cases vanishes : Binary64.equal c.quantity 0 with
  | true => simp
  | false =>
      have above := (Binary64.isPositive_iff_less.1 (proper.quantity_isPositive vanishes)).2
      simp [above]

namespace BookSide

/-- What rests under a key of a side and does no longer. -/
def Loses (before after : BookSide) (key : Int) : Prop :=
  (before.get? key).isSome ∧ after.get? key = none

/-- A change that was read leaves nothing at its price when its size vanishes, and its quantity when
the size does not. -/
theorem get?_apply_of_ofJson? {side : BookSide} (ordered : side.Ordered) {c : LevelChange}
    {size : Json} (read : Wire.quantity? size = some c.quantity) {q : ℚ} (denotes : size.Denotes q)
    (key : Int) :
    (side.apply c).get? key =
      if c.price.isPositive = true ∧ c.price.units = key then
        if |q| ≤ vanishingBound then none else some ⟨side.heldPrice c.price, c.quantity⟩
      else side.get? key := by
  have zero := Wire.quantity?_equal_zero_iff read denotes
  have held := Wire.quantity?_eq_some read
  have proper : c.Proper := ⟨held.1, held.2⟩
  rw [get?_apply ordered, LevelChange.settle, proper.takesEffect_eq]
  by_cases here : c.price.isPositive = true ∧ c.price.units = key
  · rw [if_pos here, if_pos here, heldPrice, here.2]
    by_cases small : |q| ≤ vanishingBound
    · rw [if_pos small, if_pos (zero.2 small)]
    · rw [if_neg small, if_neg (fun equal => small (zero.1 equal))]
  · rw [if_neg here, if_neg here]

theorem loses_apply_iff {side : BookSide} (ordered : side.Ordered) {c : LevelChange} {size : Json}
    (read : Wire.quantity? size = some c.quantity) {q : ℚ} (denotes : size.Denotes q) (key : Int) :
    side.Loses (side.apply c) key ↔
      (side.get? key).isSome ∧ c.price.isPositive = true ∧ c.price.units = key ∧
        |q| ≤ vanishingBound := by
  rw [Loses, get?_apply_of_ofJson? ordered read denotes key]
  by_cases here : c.price.isPositive = true ∧ c.price.units = key
  · rw [if_pos here]
    by_cases small : |q| ≤ vanishingBound <;> simp [here, small]
  · rw [if_neg here]
    constructor
    · rintro ⟨rests, gone⟩
      rw [gone] at rests
      cases rests
    · rintro ⟨_, price, same, _⟩
      exact absurd ⟨price, same⟩ here

end BookSide

theorem LevelChange.ofJson?_eq_some {v : Json} {c : LevelChange} (read : ofJson? v = some c) :
    ∃ price size, parts? v = some (price, size) ∧ Wire.decimal? price = some c.price ∧
      Wire.quantity? size = some c.quantity := by
  simp only [ofJson?, Option.bind_eq_bind, Option.bind_eq_some_iff] at read
  obtain ⟨⟨price, size⟩, written, p, priced, q, sized, made⟩ := read
  cases made
  exact ⟨price, size, written, priced, sized⟩

/-- A level that is read has a size that denotes a number. Applied to either side of a book, it
removes what rests at a price exactly when that is its own price, above zero, and the number does
not exceed half of the smallest binary64 number above zero. -/
theorem LiveBook.loses_iff_size_vanishes {v : Json} {c : LevelChange}
    (read : LevelChange.ofJson? v = some c) {book : LiveBook} (ordered : book.IsOrdered) :
    ∃ price size, LevelChange.parts? v = some (price, size) ∧ (∃ q, size.Denotes q) ∧
      ∀ q, size.Denotes q → ∀ key,
        (book.bids.Loses (book.applyBid c).bids key ↔ (book.bids.get? key).isSome ∧
          c.price.isPositive = true ∧ c.price.units = key ∧ |q| ≤ vanishingBound) ∧
        (book.asks.Loses (book.applyAsk c).asks key ↔ (book.asks.get? key).isSome ∧
          c.price.isPositive = true ∧ c.price.units = key ∧ |q| ≤ vanishingBound) := by
  obtain ⟨price, size, written, _, sized⟩ := LevelChange.ofJson?_eq_some read
  refine ⟨price, size, written, Wire.exists_denotes_of_quantity? sized, fun q denotes key => ⟨?_, ?_⟩⟩
  · exact BookSide.loses_apply_iff ordered.bids sized denotes key
  · exact BookSide.loses_apply_iff ordered.asks sized denotes key

/-- A zero with blanks around it removes the level. -/
theorem LiveBook.loses_iff_size_vanishes_of_zero_text :
    let price : Decimal := ⟨false, 100, 0, by decide, by decide⟩
    let c : LevelChange := ⟨price, 0⟩
    let book : LiveBook := ⟨[(price.units, ⟨price, 1⟩)], []⟩
    LevelChange.ofJson? (.list [.text "100", .text " 0.0 "]) = some c ∧ book.IsOrdered ∧
      book.bids.Loses (book.applyBid c).bids price.units := by
  intro price c book
  have read : LevelChange.ofJson? (.list [.text "100", .text " 0.0 "]) = some c := by
    decide +kernel
  have ordered : book.IsOrdered := ⟨List.pairwise_singleton _ _, .nil⟩
  obtain ⟨t, same⟩ : ∃ t : Text.Numeral, t = ⟨.absent, ['0'], some ['0'], none,
      List.all_eq_true.1 rfl, List.all_eq_true.1 rfl, by decide⟩ := ⟨_, rfl⟩
  have written : Text.trim " 0.0 ".toList = t.chars := by
    rw [same]
    decide
  have none : t.significand = 0 := by
    rw [same]
    decide
  have value : |t.value| = 0 := by
    rw [t.abs_value, Text.Numeral.size, none, Nat.cast_zero, zero_mul]
  obtain ⟨_, _, parts, _, exactly⟩ := loses_iff_size_vanishes read ordered
  cases parts
  refine ⟨read, ordered, (exactly _ (.text t written) price.units).1.2 ⟨?_, ?_, rfl, ?_⟩⟩
  · decide +kernel
  · decide +kernel
  · rw [value, vanishingBound]
    positivity

/-- A size far below the smallest binary64 number denotes no zero, and removes the level, as a text
and as a number. -/
theorem LiveBook.tiny_size_removes_level :
    let price : Decimal := ⟨false, 100, 0, by decide, by decide⟩
    let book : LiveBook := ⟨[(price.units, ⟨price, 1⟩)], []⟩
    ∃ n, Json.readChars "1e-400".toList = .ok (.number n) ∧
      ∀ size ∈ [Json.text "1e-400", .number n], ∃ c q,
        LevelChange.ofJson? (.list [.text "100", size]) = some c ∧ size.Denotes q ∧ q ≠ 0 ∧
          book.bids.Loses (book.applyBid c).bids price.units := by
  intro price book
  obtain ⟨t, same⟩ : ∃ t : Text.Numeral, t = ⟨.absent, ['1'], none,
      some ⟨'e', .minus, ['4', '0', '0'], .inl rfl, List.all_eq_true.1 rfl, by decide⟩,
      List.all_eq_true.1 rfl, List.all_eq_true.1 rfl, by decide⟩ := ⟨_, rfl⟩
  have chars : "1e-400".toList = t.chars := by
    rw [same]
    decide
  have literal : t.IsLiteral := by
    rw [same]
    exact ⟨by decide, .inr ⟨'1', _, rfl, by decide⟩, by decide⟩
  have one : t.significand = 1 := by
    rw [same]
    decide
  have scan : Json.scanNumber t.mark.isNegative t.body =
      .ok ⟨.ok (.real (Json.divideByPower 4 (Float.ofNat 1) 400)), []⟩ := by
    have shift : t.shift = -400 := by
      rw [same]
      decide
    have small : ∀ p ∈ t.power, Text.numeral 0 p.size ≤ Json.largestExponent := by
      rw [same]
      decide
    rw [Json.scanNumber_scaled literal (by rw [one]; decide) (by rw [same]; decide) small
      (by rw [shift]; decide), one, shift, same]
    rfl
  have read := Json.readChars_literal literal scan
  have some : t.value ≠ 0 := by
    rw [← abs_ne_zero, t.abs_value, Text.Numeral.size, one]
    positivity
  refine ⟨_, chars ▸ read, List.forall_mem_cons.2 ⟨?_, List.forall_mem_singleton.2 ?_⟩⟩
  · exact ⟨⟨price, 0⟩, t.value, by decide +kernel, .text t (by rw [← chars]; decide), some,
      by decide +kernel, by decide +kernel⟩
  · exact ⟨⟨price, 0⟩, t.value, by decide +kernel, .literal t literal (by rw [one]; decide) read,
      some, by decide +kernel, by decide +kernel⟩

end Tape
