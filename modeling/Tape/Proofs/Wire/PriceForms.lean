import Tape.Proofs.Book.Removal
import Tape.Proofs.Decimal.FromBinary
import Tape.Proofs.Json.Literals

/-!
# Prices in either form

A price that is written as a JSON number and as a text with the same characters is one price when it
is a whole number below `2 ^ 63`, or when it is short and its digits do not begin above `4.0` and
below `4.503599627370496`. Between these two the number form may be another price.
-/

namespace Tape

open Binary64 (Rounds SizeRounds fractionBound)
open Text (Numeral numeral)

/-- A whole number that is below `2 ^ 63` without its sign. -/
structure Text.Numeral.IsInteger (t : Numeral) : Prop where
  noPoint : t.fraction = none
  noPower : t.power = none
  bound : t.significand < Word.signedBound64

namespace Text.Numeral.IsInteger

variable {t : Numeral} (integer : t.IsInteger)
include integer

theorem shift : t.shift = 0 := by
  rw [Text.Numeral.shift, Text.Numeral.exponent, places_of_none integer.noPoint, integer.noPower]
  rfl

theorem scale : t.scale = 0 := by
  rw [Text.Numeral.scale, integer.shift]
  rfl

theorem coefficient : t.coefficient = t.significand := by
  rw [Text.Numeral.coefficient, integer.shift]
  exact Nat.mul_one _

end Text.Numeral.IsInteger

/-- Few digits and places, and digits that a binary64 number gives back. -/
structure Text.Numeral.IsShort (t : Numeral) : Prop where
  bound : t.coefficient < fractionBound
  clear : Decimal.Clear t.coefficient
  scale : t.scale ≤ 22
  places : t.places.length ≤ 22
  exponent : t.exponent.natAbs ≤ 22

namespace Wire

variable {t : Numeral}

theorem numeral_size_le (short : t.IsShort) : ∀ p ∈ t.power, numeral 0 p.size ≤ 22 := by
  intro p known
  have exponent := short.exponent
  have value : t.exponent = p.value := by
    rw [Text.Numeral.exponent, Option.mem_def.1 known]
    rfl
  rw [value, Text.Power.value] at exponent
  split at exponent <;> omega

/-! ## Scaling -/

/-- A small power of ten is multiplied or divided by once. -/
theorem scaled?_of_natAbs_le (significand : Nat) {shift : Int} (small : shift.natAbs ≤ 22) :
    Json.scaled? significand shift =
      if shift < 0 then some (Float.ofNat significand / Json.powerOfTen (-shift).toNat)
      else if Binary64.isFinite (Float.ofNat significand * Json.powerOfTen shift.toNat) then
        some (Float.ofNat significand * Json.powerOfTen shift.toNat)
      else none := by
  have largest : Json.largestPower = 308 := rfl
  rw [Json.scaled?]
  by_cases down : shift < 0
  · have within : (-shift).toNat ≤ Json.largestPower := by omega
    simp only [if_pos down, Json.divideByPower, if_pos within]
  · have within : shift.toNat ≤ Json.largestPower := by omega
    simp only [if_neg down, if_pos within]

theorem natAbs_shift_le (short : t.IsShort) : t.shift.natAbs ≤ 22 := by
  have exponent := short.exponent
  have scale := short.scale
  rw [Text.Numeral.scale] at scale
  rw [Text.Numeral.shift] at scale ⊢
  omega

/-- The number of a short numeral is found by one product or one quotient. -/
theorem scaled?_of_short (short : t.IsShort) (positive : 0 < t.significand) :
    ∃ x, Json.scaled? t.significand t.shift = some x ∧
      Rounds x (t.coefficient / 10 ^ t.scale) := by
  have small := natAbs_shift_le short
  have bound : t.significand < 2 ^ 53 := by
    have := Nat.lt_of_le_of_lt t.significand_le_coefficient short.bound
    rw [fractionBound] at this
    omega
  have digits := Binary64.isWhole_ofNat positive bound
  have log : t.significand.log2 ≤ 400 := by
    have := (Nat.log2_lt (by omega)).2 bound
    omega
  rw [scaled?_of_natAbs_le _ small, Text.Numeral.coefficient, Text.Numeral.scale]
  by_cases down : t.shift < 0
  · have places : (-t.shift).toNat ≤ 22 := by omega
    have none : t.shift.toNat = 0 := by omega
    have powerLog := Binary64.log2_ten_pow_lt places
    have rounds := digits.div (Binary64.isWhole_powerOfTen places) log (by omega)
    refine ⟨_, if_pos down, ?_⟩
    rw [none, pow_zero, mul_one]
    exact_mod_cast rounds
  · have places : t.shift.toNat ≤ 22 := by omega
    have none : (-t.shift).toNat = 0 := by omega
    have powerLog := Binary64.log2_ten_pow_lt places
    have rounds := digits.mul (Binary64.isWhole_powerOfTen places) log (by omega)
    refine ⟨Float.ofNat t.significand * Json.powerOfTen t.shift.toNat, ?_, ?_⟩
    · rw [if_neg down, if_pos rounds.size.finite]
    · rw [none, pow_zero, div_one]
      exact_mod_cast rounds

theorem scaled?_of_zero (short : t.IsShort) (zero : t.significand = 0) :
    Json.scaled? t.significand t.shift = some (Float.ofNat 0) := by
  have small := natAbs_shift_le short
  have binade {k : Nat} (places : k ≤ 22) :
      Binary64.Binade (Json.powerOfTen k) (10 ^ k : Nat).log2 := by
    have powerLog := Binary64.log2_ten_pow_lt places
    exact (Binary64.isWhole_powerOfTen places).binade (by omega)
  rw [zero, scaled?_of_natAbs_le _ small]
  by_cases down : t.shift < 0
  · rw [if_pos down, Binary64.ofNat_zero_div (binade (by omega))]
  · have finite : Binary64.isFinite (Float.ofNat 0) = true := by decide
    rw [if_neg down, Binary64.ofNat_zero_mul (binade (by omega)), if_pos finite]

/-! ## The number form -/

/-- A zero is a decimal zero, whatever its sign. -/
theorem ofFloat?_signed_zero (negative : Bool) :
    Decimal.ofFloat? (Json.signed negative (Float.ofNat 0)) = Decimal.ofParts? negative 0 0 := by
  cases negative <;> decide +kernel

/-- A decimal of the parts of a numeral denotes its value. -/
theorem exists_units_of_ofParts? {mantissa : Nat} (fits : mantissa < Decimal.mantissaBound)
    (scale : t.scale ≤ Decimal.maxScale)
    (digits : mantissa * 10 ^ Decimal.maxScale =
      t.coefficient * 10 ^ (Decimal.maxScale - t.scale)) :
    ∃ d, Decimal.ofParts? t.mark.isNegative mantissa 0 = some d ∧
      (d.units : ℚ) = t.value * 10 ^ Decimal.maxScale := by
  have room : mantissa < Decimal.mantissaBound ∧ 0 ≤ Decimal.maxScale := ⟨fits, Nat.zero_le _⟩
  exact ⟨⟨t.mark.isNegative, mantissa, 0, fits, Nat.zero_le _⟩,
    by rw [Decimal.ofParts?, dif_pos room], Decimal.units_eq_value scale rfl digits⟩

/-- A whole number that fits in 64 bits is taken digit by digit. -/
theorem decimalOfNumber?_integer (integer : t.IsInteger) :
    ∃ d, decimalOfNumber? (Json.wholeNumber t.mark.isNegative t.significand) = some d ∧
      (d.units : ℚ) = t.value * 10 ^ Decimal.maxScale := by
  have scale := integer.scale
  have digits : t.significand * 10 ^ Decimal.maxScale =
      t.coefficient * 10 ^ (Decimal.maxScale - t.scale) := by
    rw [integer.coefficient, scale, Nat.sub_zero]
  have bound := integer.bound
  have fits : t.significand < Decimal.mantissaBound :=
    Nat.lt_trans bound (by decide)
  have within : t.scale ≤ Decimal.maxScale := by omega
  suffices same : decimalOfNumber? (Json.wholeNumber t.mark.isNegative t.significand) =
      Decimal.ofParts? t.mark.isNegative t.significand 0 by
    rw [same]
    exact exists_units_of_ofParts? fits within digits
  rw [Json.wholeNumber]
  cases t.mark.isNegative with
  | false =>
      have word : Word.isSigned64 (t.significand : Int) = true := by
        rw [Word.isSigned64_iff]
        omega
      have sign : decide ((t.significand : Int) < 0) = false := by simp
      simp only [Bool.false_eq_true, if_false, decimalOfNumber?, if_pos word, Decimal.ofInt?, sign,
        Int.natAbs_natCast]
  | true =>
      rcases Nat.eq_zero_or_pos t.significand with zero | positive
      · rw [zero]
        exact ofFloat?_signed_zero true
      · have word : Word.isSigned64 (-(t.significand : Int)) = true := by
          rw [Word.isSigned64_iff]
          omega
        have sign : decide (-(t.significand : Int) < 0) = true := by simpa using positive
        have room : (decide (0 < t.significand) &&
            decide (t.significand ≤ Word.signedBound64)) = true := by
          simpa using ⟨positive, bound.le⟩
        simp only [if_true, if_pos room, decimalOfNumber?, if_pos word, Decimal.ofInt?, sign,
          Int.natAbs_neg, Int.natAbs_natCast]

/-- A short numeral is scaled once, and its decimal found again. -/
theorem decimalOfNumber?_short (short : t.IsShort) :
    ∃ x, Json.scaled? t.significand t.shift = some x ∧
      ∃ d, decimalOfNumber? (.real (Json.signed t.mark.isNegative x)) = some d ∧
        (d.units : ℚ) = t.value * 10 ^ Decimal.maxScale := by
  have scale : t.scale ≤ Decimal.maxScale := Nat.le_trans short.scale (by decide)
  rcases Nat.eq_zero_or_pos t.significand with zero | positive
  · refine ⟨_, scaled?_of_zero short zero, ?_⟩
    rw [decimalOfNumber?, ofFloat?_signed_zero]
    refine exists_units_of_ofParts? (by decide) scale ?_
    rw [Text.Numeral.coefficient, zero]
    simp only [Nat.zero_mul]
  · obtain ⟨x, found, rounds⟩ := scaled?_of_short short positive
    have some : 0 < t.coefficient := Nat.lt_of_lt_of_le positive t.significand_le_coefficient
    have size : SizeRounds (Json.signed t.mark.isNegative x) (t.coefficient / 10 ^ t.scale) := by
      rw [Json.signed]
      split
      · exact rounds.size.neg
      · exact rounds.size
    have sign : Binary64.isNegative (Json.signed t.mark.isNegative x) = t.mark.isNegative := by
      rw [Json.signed]
      cases t.mark.isNegative with
      | true => exact rounds.isNegative_neg
      | false => exact rounds.isNegative
    obtain ⟨d, made, negative, digits⟩ :=
      Decimal.ofFloat?_of_rounds size some short.bound short.clear short.scale
    exact ⟨x, found, d, made, Decimal.units_eq_value scale (negative.trans sign) digits⟩

/-! ## Both forms -/

/-- The two forms of a price: the characters of a numeral as a text, and the number they are read
as. -/
inductive IsForm (t : Numeral) : Json → Prop where
  | text : IsForm t (.text (String.ofList t.chars))
  | number {n : Number} (read : Json.readChars t.chars = .ok (.number n)) : IsForm t (.number n)

/-- A literal whose digits are given back: a whole number in 64 bits or a short numeral. -/
def IsKept (t : Numeral) : Prop := t.IsInteger ∨ t.IsShort

theorem decimal?_text (kept : IsKept t) :
    ∃ d, decimal? (.text (String.ofList t.chars)) = some d ∧
      (d.units : ℚ) = t.value * 10 ^ Decimal.maxScale := by
  change ∃ d, Decimal.ofChars? (String.ofList t.chars).toList = some d ∧ _
  rw [String.toList_ofList]
  rcases kept with integer | short
  · refine Decimal.ofChars?_chars t ?_ ?_ ?_ ?_
    · rw [integer.coefficient]
      exact Nat.lt_trans integer.bound (by decide)
    · rw [Text.Numeral.places_of_none integer.noPoint]
      decide
    · rw [integer.scale]
      decide
    · intro p known
      rw [integer.noPower] at known
      cases known
  · exact Decimal.ofChars?_chars t (Nat.lt_trans short.bound (by decide))
      (Nat.lt_of_le_of_lt short.places (by decide)) (Nat.le_trans short.scale (by decide))
      fun p known => Nat.le_trans (numeral_size_le short p known) (by decide)

theorem exists_number_form (literal : t.IsLiteral) (kept : IsKept t) :
    ∃ n, Json.readChars t.chars = .ok (.number n) ∧ ∃ d, decimal? (.number n) = some d ∧
      (d.units : ℚ) = t.value * 10 ^ Decimal.maxScale := by
  by_cases real : t.fraction ≠ none ∨ t.power ≠ none
  · have short : t.IsShort := by
      rcases kept with integer | short
      · exact absurd real (by simp [integer.noPoint, integer.noPower])
      · exact short
    have fits : t.significand < Json.significandBound :=
      Nat.lt_of_le_of_lt t.significand_le_coefficient (Nat.lt_trans short.bound (by decide))
    have largest : 22 ≤ Json.largestExponent := by decide
    have scan := @Json.scanNumber_scaled t.mark.isNegative t literal fits real
      (fun p known => Nat.le_trans (numeral_size_le short p known) largest)
      (Nat.le_trans (natAbs_shift_le short) largest)
    obtain ⟨x, found, read⟩ := decimalOfNumber?_short short
    rw [Json.realScan, found] at scan
    exact ⟨_, Json.readChars_literal literal scan, read⟩
  · rw [not_or, not_not, not_not] at real
    have bound : t.significand < Word.signedBound64 := by
      rcases kept with integer | short
      · exact integer.bound
      · exact Nat.lt_of_le_of_lt t.significand_le_coefficient
          (Nat.lt_trans short.bound (by decide))
    have fits : t.significand < Json.significandBound := Nat.lt_trans bound (by decide)
    exact ⟨_, Json.readChars_literal literal (Json.scanNumber_integer literal fits real.1 real.2),
      decimalOfNumber?_integer ⟨real.1, real.2, bound⟩⟩

/-- Either form of a price is read as the number that the numeral denotes. -/
theorem decimal?_of_isForm (literal : t.IsLiteral) (kept : IsKept t) {p : Json} (form : IsForm t p) :
    ∃ d, decimal? p = some d ∧ (d.units : ℚ) = t.value * 10 ^ Decimal.maxScale := by
  cases form with
  | text => exact decimal?_text kept
  | number read =>
      obtain ⟨n, same, exact'⟩ := exists_number_form literal kept
      cases read.symm.trans same
      exact exact'

end Wire

/-! ## Levels -/

namespace LevelChange

/-- What a book knows of a change: the key of its price, and its quantity. -/
def entry (c : LevelChange) : Int × Float := (c.price.units, c.quantity)

variable {t : Numeral} (literal : t.IsLiteral) (kept : Wire.IsKept t)
include literal kept

/-- A level is read when its size is, and then under the key that its price denotes. -/
theorem ofJson?_of_isForm {p : Json} (form : Wire.IsForm t p) {v size : Json}
    (written : parts? v = some (p, size)) :
    ∃ d, (d.units : ℚ) = t.value * 10 ^ Decimal.maxScale ∧
      ofJson? v = (Wire.quantity? size).map fun x => ⟨d, x⟩ := by
  obtain ⟨d, read, exact'⟩ := Wire.decimal?_of_isForm literal kept form
  refine ⟨d, exact', ?_⟩
  simp only [ofJson?, Option.bind_eq_bind, written, Option.bind_some, read]
  cases Wire.quantity? size <;> rfl

end LevelChange

namespace BookSide

variable {side : BookSide} (ordered : side.Ordered) {c₁ c₂ : LevelChange}
  (key : c₁.price.units = c₂.price.units) (positive : c₁.price.isPositive = true)
include ordered key positive

/-- A change to a quantity above zero is found under any price of its key. -/
theorem get?_apply_of_units_eq (proper : c₁.Proper)
    (some : Binary64.equal c₁.quantity 0 = false) :
    (side.apply c₁).get? c₂.price.units =
      .some ⟨side.heldPrice c₁.price, c₁.quantity⟩ := by
  rw [get?_apply ordered, LevelChange.settle, proper.takesEffect_eq, if_pos ⟨positive, key⟩,
    if_neg (by rw [some]; decide), heldPrice, key]

/-- A change to zero leaves nothing under any price of its key. -/
theorem get?_apply_of_units_eq_of_zero (proper : c₂.Proper)
    (zero : Binary64.equal c₂.quantity 0 = true) :
    (side.apply c₂).get? c₁.price.units = none := by
  have positive' : c₂.price.isPositive = true := by
    rw [Decimal.isPositive, decide_eq_true_eq] at positive ⊢
    rwa [← key]
  rw [get?_apply ordered, LevelChange.settle, proper.takesEffect_eq,
    if_pos ⟨positive', key.symm⟩, if_pos zero]

end BookSide

/-- A literal that is a whole number below `2 ^ 63`, or short and clear, is one price in both forms.
Levels that are written with either form and one size are both refused, or both read with the price
that the literal denotes and one quantity. What the one sets, the other finds and removes. -/
theorem LevelChange.price_forms_agree {t : Numeral} (literal : t.IsLiteral)
    (kept : Wire.IsKept t) :
    (∃ n, Wire.IsForm t (.number n)) ∧ ∀ p₁ p₂, Wire.IsForm t p₁ → Wire.IsForm t p₂ →
      (∀ v₁ v₂ size, parts? v₁ = some (p₁, size) → parts? v₂ = some (p₂, size) →
        (ofJson? v₁).map entry = (ofJson? v₂).map entry ∧
        ∀ c ∈ ofJson? v₁, (c.price.units : ℚ) = t.value * 10 ^ Decimal.maxScale) ∧
      ∀ v₁ v₂ size₁ size₂ c₁ c₂, parts? v₁ = some (p₁, size₁) → parts? v₂ = some (p₂, size₂) →
        ofJson? v₁ = some c₁ → ofJson? v₂ = some c₂ → c₁.price.isPositive = true →
        Binary64.equal c₁.quantity 0 = false → Binary64.equal c₂.quantity 0 = true →
        ∀ side : BookSide, side.Ordered →
          (side.apply c₁).get? c₂.price.units = some ⟨side.heldPrice c₁.price, c₁.quantity⟩ ∧
          ((side.apply c₁).apply c₂).get? c₁.price.units = none := by
  obtain ⟨n, form, _⟩ := Wire.exists_number_form literal kept
  refine ⟨⟨n, .number form⟩, fun p₁ p₂ form₁ form₂ => ⟨?_, ?_⟩⟩
  · intro v₁ v₂ size written₁ written₂
    obtain ⟨d₁, units₁, read₁⟩ := ofJson?_of_isForm literal kept form₁ written₁
    obtain ⟨d₂, units₂, read₂⟩ := ofJson?_of_isForm literal kept form₂ written₂
    have key : d₁.units = d₂.units := by exact_mod_cast units₁.trans units₂.symm
    rw [read₁, read₂]
    refine ⟨?_, ?_⟩
    · simp only [Option.map_map, Function.comp_def, entry, key]
    · intro c member
      obtain ⟨x, _, rfl⟩ := Option.map_eq_some_iff.1 (Option.mem_def.1 member)
      exact units₁
  · intro v₁ v₂ size₁ size₂ c₁ c₂ written₁ written₂ read₁ read₂ positive sets removes side ordered
    obtain ⟨d₁, units₁, made₁⟩ := ofJson?_of_isForm literal kept form₁ written₁
    obtain ⟨d₂, units₂, made₂⟩ := ofJson?_of_isForm literal kept form₂ written₂
    have proper₁ := proper_of_ofJson? read₁
    have proper₂ := proper_of_ofJson? read₂
    obtain ⟨x₁, _, rfl⟩ := Option.map_eq_some_iff.1 (made₁.symm.trans read₁)
    obtain ⟨x₂, _, rfl⟩ := Option.map_eq_some_iff.1 (made₂.symm.trans read₂)
    have key : d₁.units = d₂.units := by exact_mod_cast units₁.trans units₂.symm
    exact ⟨BookSide.get?_apply_of_units_eq ordered key positive proper₁ sets,
      BookSide.get?_apply_of_units_eq_of_zero (BookSide.Ordered.apply ordered _) key positive
        proper₂ removes⟩

/-- A price with one place is set as a text and removed as a number. -/
theorem LevelChange.price_forms_agree_with_one_place :
    ∃ n c₁ c₂, Json.readChars "50000.5".toList = .ok (.number n) ∧
      ofJson? (.list [.text "50000.5", .text "1"]) = some c₁ ∧
      ofJson? (.list [.number n, .text "0"]) = some c₂ ∧
      (BookSide.apply [] c₁).get? c₂.price.units = some c₁ ∧
      ((BookSide.apply [] c₁).apply c₂).get? c₁.price.units = none := by
  obtain ⟨t, same⟩ : ∃ t : Numeral, t = ⟨.absent, ['5', '0', '0', '0', '0'], some ['5'], none,
      List.all_eq_true.1 rfl, List.all_eq_true.1 rfl, by decide⟩ := ⟨_, rfl⟩
  have chars : t.chars = "50000.5".toList := by
    rw [same]
    decide
  have literal : t.IsLiteral := by
    rw [same]
    exact ⟨by decide, .inr ⟨'5', _, rfl, by decide⟩, by decide⟩
  have kept : Wire.IsKept t := by
    rw [same]
    exact .inr ⟨by decide, by decide, by decide, by decide, by decide⟩
  obtain ⟨⟨n, number⟩, forms⟩ := price_forms_agree literal kept
  have written : Wire.IsForm t (.text "50000.5") := by
    have := Wire.IsForm.text (t := t)
    rwa [chars] at this
  have read : Json.readChars "50000.5".toList = .ok (.number n) := by
    cases number with
    | number read => rwa [← chars]
  obtain ⟨d, _, removes⟩ := ofJson?_of_isForm literal kept number (v := .list [.number n, .text "0"])
    rfl
  have zero : Wire.quantity? (.text "0") = some 0 := by decide +kernel
  rw [zero, Option.map_some] at removes
  have sets : ofJson? (.list [.text "50000.5", .text "1"]) =
      some ⟨⟨false, 500005, 1, by decide, by decide⟩, 1⟩ := by
    decide +kernel
  obtain ⟨found, gone⟩ := (forms _ _ written number).2 _ _ _ _ _ _ rfl rfl sets removes
    (by decide +kernel) (by decide +kernel) Binary64.equal_zero_zero [] .nil
  exact ⟨n, _, _, read, sets, removes, found, gone⟩

/-- A price whose digits begin between `4.0` and `4.503599627370496`: as a number it is another
price, and the text does not remove it. -/
theorem LevelChange.price_forms_differ :
    ∃ n c₁ c₂, Json.readChars "4190.279".toList = .ok (.number n) ∧
      ofJson? (.list [.number n, .text "1"]) = some c₁ ∧
      ofJson? (.list [.text "4190.279", .text "0"]) = some c₂ ∧
      c₁.price.text = "4190.279000000001" ∧ c₂.price.text = "4190.279" ∧
      ((BookSide.apply [] c₁).apply c₂).get? c₁.price.units = some c₁ := by
  have read : Json.readChars "4190.279".toList =
      .ok (.number (.real (Float.ofNat 4190279 / Json.powerOfTen 3))) := by
    rfl
  refine ⟨_, ⟨⟨false, 4190279000000001, 12, by decide, by decide⟩, 1⟩,
    ⟨⟨false, 4190279, 3, by decide, by decide⟩, 0⟩, read, ?_, ?_, ?_, ?_, ?_⟩
  · decide +kernel
  · decide +kernel
  · decide +kernel
  · decide +kernel
  · decide +kernel

end Tape
