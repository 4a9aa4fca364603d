import Tape.Proofs.Schema.Written
import Tape.Wire.Codec

/-!
# Payloads of trades

The trades of a venue are of a record type with a price, a size, a side and an identifier, and often
with the market in front. Which values such a type is read from, and with which amounts, depends on
the names of its fields alone.
-/

namespace Tape

open Schema.Record (Written plain_required plain_optional plain_pure seq_build_eq_ok
  map_build_eq_ok)
open Wire (amount amountField identifierField textField)

namespace Json

def isText (v : Json) : Bool := v.text?.isSome

def isFlag : Json → Bool
  | .flag _ => true
  | _ => false

end Json

/-- How a venue writes its payloads. -/
structure PayloadShape where
  /-- The field of the market, unless the frame names it. -/
  market? : Option String
  price : String
  size : String
  /-- The field of the side, which may be left out. -/
  side : String
  isSide : Json → Bool
  /-- The field of the identifier, which may be left out and be anything. -/
  id : String

namespace PayloadShape

/-- The fields of a trade, in their order. -/
def fields (shape : PayloadShape) : List String :=
  shape.market?.toList ++ [shape.price, shape.size, shape.side, shape.id]

/-- A market that is named by the payload is a text. -/
def NamesMarket (shape : PayloadShape) (find : String → Option Json) : Prop :=
  ∀ name ∈ shape.market?, ((find name).bind Json.text?).isSome = true

/-- A market that is not named by the payload is named by the frame. -/
def NamedBy (shape : PayloadShape) (frame : Json) : Prop :=
  shape.market? = none → (frame.getText? "id").isSome = true

theorem namesMarket_of_text {shape : PayloadShape} {name : String}
    (market : shape.market? = some name) {find : String → Option Json}
    (held : ((find name).bind Json.text?).isSome = true) : shape.NamesMarket find := by
  intro other named
  cases market.symm.trans named
  exact held

theorem namedBy_of_market {shape : PayloadShape} {name : String}
    (market : shape.market? = some name) (frame : Json) : shape.NamedBy frame := by
  intro none
  cases market.symm.trans none

/-- An element of a frame has what a trade of the price and the size needs. -/
def Fits (shape : PayloadShape) (element : Json) (price size : Float) : Prop :=
  ∃ find, Written shape.fields element find ∧ shape.NamesMarket find ∧
    (find shape.price).map amount = some price ∧ (find shape.size).map amount = some size ∧
    ∀ v ∈ find shape.side, shape.isSide v = true

end PayloadShape

namespace Wire

/-! ## Fields of payloads -/

theorem textField_build_eq_ok {name : String} {find : String → Option Json}
    {absent : String → Schema.Fault} {s : String} :
    (textField name).build find absent = .ok s ↔ (find name).bind Json.text? = some s := by
  simp only [textField, Schema.Record.required]
  cases find name with
  | none => constructor <;> intro h <;> cases h
  | some v => cases v <;> constructor <;> intro h <;> cases h <;> rfl

theorem amountField_build_eq_ok {name : String} {find : String → Option Json}
    {absent : String → Schema.Fault} {x : Float} :
    (amountField name).build find absent = .ok x ↔ (find name).map amount = some x := by
  simp only [amountField, Schema.Record.required]
  cases find name with
  | none => constructor <;> intro h <;> cases h
  | some v => constructor <;> intro h <;> cases h <;> rfl

theorem identifierField_build_eq_ok {name : String} {find : String → Option Json}
    {absent : String → Schema.Fault} {s : String} :
    (identifierField name).build find absent = .ok s ↔
      ((find name).map identifier).getD "" = s := by
  simp only [identifierField, Schema.Record.optional]
  cases find name with
  | none => constructor <;> intro h <;> cases h <;> rfl
  | some v => constructor <;> intro h <;> cases h <;> rfl

/-- A record type whose last four fields are a price, a size, a side and an identifier. -/
theorem tradeFields_build_eq_ok {α β : Type}
    {f : Schema.Record Json (Float → Float → β → String → α)} {price size id : String}
    {side : Schema.Record Json β} {find : String → Option Json} {absent : String → Schema.Fault}
    {a : α} :
    (f <*> amountField price <*> amountField size <*> side <*> identifierField id).build find
        absent = .ok a ↔
      ∃ g x y b, f.build find absent = .ok g ∧ (find price).map amount = some x ∧
        (find size).map amount = some y ∧ side.build find absent = .ok b ∧
        g x y b (((find id).map identifier).getD "") = a := by
  simp only [seq_build_eq_ok, amountField_build_eq_ok, identifierField_build_eq_ok]
  constructor
  · rintro ⟨_, _, ⟨_, b, ⟨_, y, ⟨g, x, first, hasPrice, rfl⟩, hasSize, rfl⟩, hasSide, rfl⟩, rfl,
      rfl⟩
    exact ⟨g, x, y, b, first, hasPrice, hasSize, hasSide, rfl⟩
  · rintro ⟨g, x, y, b, first, hasPrice, hasSize, hasSide, rfl⟩
    exact ⟨_, _, ⟨_, b, ⟨_, y, ⟨g, x, first, hasPrice, rfl⟩, hasSize, rfl⟩, hasSide, rfl⟩, rfl, rfl⟩

end Wire

/-! ## Record types of a shape -/

/-- A record type for the trades of a shape. -/
structure Lays {α : Type} (shape : PayloadShape) (r : Schema.Record Json α)
    (price size : α → Float) : Prop where
  plain : r.Plain
  names : r.fields.map Schema.Field.name = shape.fields
  built : ∀ {find absent a}, r.build find absent = .ok a → shape.NamesMarket find ∧
    (find shape.price).map amount = some (price a) ∧
    (find shape.size).map amount = some (size a) ∧ ∀ v ∈ find shape.side, shape.isSide v = true
  builds : ∀ {find absent x y}, shape.NamesMarket find → (find shape.price).map amount = some x →
    (find shape.size).map amount = some y → (∀ v ∈ find shape.side, shape.isSide v = true) →
      ∃ a, r.build find absent = .ok a ∧ price a = x ∧ size a = y

namespace Lays

variable {α β : Type} {shape : PayloadShape} {price size : α → Float}

/-- What is read from a value that was read from a text is what fits in it. -/
theorem read_iff {r : Schema.Record Json α} (lays : Lays shape r price size)
    (distinct : shape.fields.Nodup) {typeName : String} {element : Json} (ordered : element.Ordered)
    {x y : Float} :
    (∃ a, r.read typeName element = .ok a ∧ price a = x ∧ size a = y) ↔ shape.Fits element x y := by
  constructor
  · rintro ⟨a, read, rfl, rfl⟩
    obtain ⟨find, absent, written, made⟩ := lays.plain.exists_written_of_read read
    rw [lays.names] at written
    exact ⟨find, written, lays.built made⟩
  · rintro ⟨find, written, market, hasPrice, hasSize, side⟩
    rw [← lays.names] at distinct written
    obtain ⟨absent, reads⟩ := lays.plain.read_of_written distinct ordered written
    obtain ⟨a, made, same⟩ := lays.builds market hasPrice hasSize side
    exact ⟨a, reads made, same⟩

theorem exists_optional_build_iff {name : String} {default : β}
    {read : Json → Except Schema.Fault β} {find : String → Option Json}
    {absent : String → Schema.Fault} :
    (∃ b, (Schema.Record.optional name default read).build find absent = .ok b) ↔
      ∀ v ∈ find name, ∃ b, read v = .ok b := by
  simp only [Schema.Record.optional]
  cases find name with
  | none => simp
  | some v => simp

/-- The trades of a venue end with a price, a size, a side and an identifier; what comes before is
there when the market is named. -/
theorem of_fields {f : Schema.Record Json (Float → Float → β → String → α)} {default : β}
    {readSide : Json → Except Schema.Fault β} (plain : f.Plain)
    (names : f.fields.map Schema.Field.name = shape.market?.toList)
    (market : ∀ {find absent}, (∃ g, f.build find absent = .ok g) ↔ shape.NamesMarket find)
    (kept : ∀ {find absent g}, f.build find absent = .ok g →
      ∀ x y side id, price (g x y side id) = x ∧ size (g x y side id) = y)
    (sides : ∀ v, (∃ side, readSide v = .ok side) ↔ shape.isSide v = true) :
    Lays shape (f <*> amountField shape.price <*> amountField shape.size <*>
      .optional shape.side default readSide <*> identifierField shape.id) price size where
  plain := (((plain.seq (plain_required _ _)).seq (plain_required _ _)).seq
    (plain_optional _ _ _)).seq (plain_optional _ _ _)
  names := by
    show ((((f.fields ++ _) ++ _) ++ _) ++ _).map Schema.Field.name = _
    simp only [List.map_append, names, List.append_assoc]
    rfl
  built := by
    intro find absent a made
    obtain ⟨g, x, y, side, first, hasPrice, hasSize, hasSide, rfl⟩ :=
      Wire.tradeFields_build_eq_ok.1 made
    obtain ⟨samePrice, sameSize⟩ :=
      kept first x y side (((find shape.id).map Wire.identifier).getD "")
    rw [samePrice, sameSize]
    refine ⟨market.1 ⟨g, first⟩, hasPrice, hasSize, fun v held => (sides v).1 ?_⟩
    exact exists_optional_build_iff.1 ⟨side, hasSide⟩ v held
  builds := by
    intro find absent x y named hasPrice hasSize hasSide
    obtain ⟨g, first⟩ := market.2 named
    obtain ⟨side, read⟩ := exists_optional_build_iff.2 fun v held => (sides v).2 (hasSide v held)
    exact ⟨_, Wire.tradeFields_build_eq_ok.2 ⟨g, x, y, side, first, hasPrice, hasSize, read, rfl⟩,
      kept first _ _ _ _⟩

theorem exists_text_build_iff {γ : Type} {make : String → γ} {name : String}
    {find : String → Option Json} {absent : String → Schema.Fault} :
    (∃ g, (make <$> textField name).build find absent = .ok g) ↔
      ((find name).bind Json.text?).isSome = true := by
  rw [Option.isSome_iff_exists]
  constructor
  · rintro ⟨g, made⟩
    obtain ⟨s, read, _⟩ := map_build_eq_ok.1 made
    exact ⟨s, Wire.textField_build_eq_ok.1 read⟩
  · rintro ⟨s, held⟩
    exact ⟨make s, map_build_eq_ok.2 ⟨s, Wire.textField_build_eq_ok.2 held, rfl⟩⟩

theorem of_named {make : String → Float → Float → β → String → α} {name : String} {default : β}
    {readSide : Json → Except Schema.Fault β} (market : shape.market? = some name)
    (kept : ∀ s x y side id, price (make s x y side id) = x ∧ size (make s x y side id) = y)
    (sides : ∀ v, (∃ side, readSide v = .ok side) ↔ shape.isSide v = true) :
    Lays shape (make <$> textField name <*> amountField shape.price <*> amountField shape.size <*>
      .optional shape.side default readSide <*> identifierField shape.id) price size := by
  refine of_fields ((plain_required _ _).map _) ?_ ?_ ?_ sides
  · rw [market]
    rfl
  · intro find absent
    rw [exists_text_build_iff]
    simp [PayloadShape.NamesMarket, market]
  · intro find absent g made x y side id
    obtain ⟨s, _, rfl⟩ := map_build_eq_ok.1 made
    exact kept s x y side id

end Lays

namespace Wire

/-! ## Trades of the venues -/

theorem exists_text_iff (v : Json) : (∃ s, Schema.Document.text v = .ok s) ↔ v.isText = true := by
  cases v <;> simp [Json.isText, Json.text?, Schema.Document.text]

theorem exists_flag_iff (v : Json) : (∃ b, Schema.Document.flag v = .ok b) ↔ v.isFlag = true := by
  cases v <;> simp [Json.isFlag, Schema.Document.flag]

theorem Bybit.lays :
    Lays ⟨some "s", "p", "v", "S", Json.isText, "i"⟩ TradePayload.fields TradePayload.price
      TradePayload.size :=
  .of_named rfl (fun _ _ _ _ _ => ⟨rfl, rfl⟩) exists_text_iff

theorem Binance.lays :
    Lays ⟨some "s", "p", "q", "m", Json.isFlag, "t"⟩ TradePayload.fields TradePayload.price
      TradePayload.quantity :=
  .of_named rfl (fun _ _ _ _ _ => ⟨rfl, rfl⟩) exists_flag_iff

theorem Hyperliquid.lays :
    Lays ⟨some "coin", "px", "sz", "side", Json.isText, "tid"⟩ TradePayload.fields
      TradePayload.price TradePayload.size :=
  .of_named rfl (fun _ _ _ _ _ => ⟨rfl, rfl⟩) exists_text_iff

theorem Dydx.lays :
    Lays ⟨none, "price", "size", "side", Json.isText, "id"⟩ TradePayload.fields TradePayload.price
      TradePayload.size := by
  refine .of_fields (f := pure TradePayload.mk) (plain_pure _) rfl ?_ ?_ exists_text_iff
  · intro find absent
    refine ⟨fun _ => ?_, fun _ => ⟨_, rfl⟩⟩
    rintro _ ⟨⟩
  · intro find absent g made x y side id
    cases made
    exact ⟨rfl, rfl⟩

end Wire

end Tape
