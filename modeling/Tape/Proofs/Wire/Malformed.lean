import Mathlib.Logic.Relation
import Tape.Proofs.Schema.Changed
import Tape.Proofs.Wire.Naming
import Tape.Wire.Codec

/-!
# Malformed levels

A level that cannot be read is passed over and nothing else happens: however many such values stand
among the levels of a frame, and wherever they stand, the frame means what it means without them.
-/

namespace Tape

open Json (changeAt only putItem)
open scoped Relator

namespace LevelChange

variable {v : Json}

theorem exists_read_eq_error_iff {venue : Venue} :
    (∃ error, read venue v = .error error) ↔ ofJson? v = none := by
  rw [read]
  cases ofJson? v with
  | none => exact ⟨fun _ => rfl, fun _ => ⟨_, rfl⟩⟩
  | some change =>
      constructor
      · rintro ⟨_, refused⟩
        cases refused
      · intro unread
        cases unread

theorem ofItems_insertIdx (malformed : ofJson? v = none) (place : Nat) (items : List Json) :
    ofItems (items.insertIdx place v) = ofItems items := by
  induction items generalizing place with
  | nil =>
      cases place with
      | zero => simp [ofItems, malformed]
      | succ place => rfl
  | cons first rest ih =>
      cases place with
      | zero => simp [ofItems, malformed]
      | succ place =>
          have later := ih place
          simp only [ofItems, List.insertIdx_succ_cons, List.filterMap_cons] at later ⊢
          rw [later]

end LevelChange

namespace Wire

/-! ## Lists of levels and the fields that hold them -/

/-- Two lists of written levels that hold the same well-formed ones. -/
def SameLevels (items others : List Json) : Prop :=
  LevelChange.ofItems items = LevelChange.ofItems others

theorem SameLevels.refl (items : List Json) : SameLevels items items := rfl

theorem SameLevels.levels_eq {items others : List Json} (same : SameLevels items others) :
    levels items = levels others :=
  congrArg (List.map LevelChange.level) same

variable {bad : Json} {side : String}

theorem agree_readItems (malformed : LevelChange.ofJson? bad = none) (place : Nat) (v : Json) :
    AgreeUpTo SameLevels (readItems v) (readItems (putItem place bad v)) := by
  rcases Json.list_or_putItem_eq place bad v with ⟨items, rfl⟩ | same
  · exact .ok (LevelChange.ofItems_insertIdx malformed place items).symm
  · rw [same]
    exact .refl .refl _

theorem agree_payload {α : Type} {related : α → α → Prop} {read : Json → Except Schema.Fault α}
    {v w : Json} (agree : AgreeUpTo related (read v) (read w)) (venue : Venue) (what : String) :
    AgreeUpTo related (payload venue what read v) (payload venue what read w) :=
  agree.mapError _

theorem respects_textField {change : Json → Json} {name : String} (differs : name ≠ side) :
    (textField name).Respects (only side change) Eq := by
  refine Schema.Record.respects_required fun v => ?_
  rw [Json.only_of_ne differs]
  exact .refl (fun _ => rfl) _

theorem respects_optionalItemsField (malformed : LevelChange.ofJson? bad = none) (place : Nat)
    (name : String) :
    (optionalItemsField name).Respects (only side (putItem place bad)) SameLevels := by
  refine Schema.Record.respects_optional (.refl _) fun v => ?_
  by_cases here : name = side
  · rw [here, Json.only_self]
    exact agree_readItems malformed place v
  · rw [Json.only_of_ne here]
    exact .refl .refl _

/-- The same market, and on each side the same well-formed levels. -/
def SameBook {α : Type} (market : α → String) (bids asks : α → List Json) (p q : α) : Prop :=
  market p = market q ∧ SameLevels (bids p) (bids q) ∧ SameLevels (asks p) (asks q)

theorem respects_sides {α : Type} {make : String → List Json → List Json → α}
    {related : α → α → Prop} (malformed : LevelChange.ofJson? bad = none) (place : Nat)
    {market : String} (differs : market ≠ side) (bids asks : String)
    (keeps : (Eq ⇒ SameLevels ⇒ SameLevels ⇒ related) make make) :
    (make <$> textField market <*> optionalItemsField bids <*> optionalItemsField asks).Respects
      (only side (putItem place bad)) related :=
  (((respects_textField differs).map keeps).seq
    (respects_optionalItemsField malformed place bids)).seq
      (respects_optionalItemsField malformed place asks)

/-! ## Each venue -/

namespace Bybit

theorem decodeBook_changeAt (malformed : LevelChange.ofJson? bad = none) (differs : "s" ≠ side)
    (place now : Nat) (data : Option Json) :
    decodeBook now (data.map (changeAt (putItem place bad) [.member side])) =
      decodeBook now data := by
  rcases data with _ | data
  · rfl
  rw [Option.map_some]
  rcases Json.record_or_changeAt_eq (putItem place bad) side [] data with ⟨members, rfl⟩ | same
  · have respects : BookPayload.fields.Respects (only side (putItem place bad))
        (SameBook BookPayload.market BookPayload.bids BookPayload.asks) :=
      respects_sides malformed place differs "b" "a"
        fun _ _ market _ _ bids _ _ asks => ⟨market, bids, asks⟩
    have read := respects.read_record "BybitBook" members
    refine ((agree_payload read venue "orderbook").bind_eq ?_).symm
    rintro p q ⟨market, bids, asks⟩
    simp only [market, bids.levels_eq, asks.levels_eq]
  · rw [same]

theorem decodeTrade_changeAt (f : Json → Json) (now : Nat) (data : Option Json) :
    decodeTrade now (data.map (changeAt f [.member side])) = decodeTrade now data := by
  have same : (data.map (changeAt f [.member side])).bind Json.items? = data.bind Json.items? := by
    rcases data with _ | data
    · rfl
    · exact Json.items?_changeAt_member data
  rw [decodeTrade, same, decodeTrade]

theorem decode_changeAt (malformed : LevelChange.ofJson? bad = none) (differs : "s" ≠ side)
    (place now : Nat) (v : Json) :
    decode now (changeAt (putItem place bad) [.member "data", .member side] v) = decode now v := by
  have control : isControl (changeAt (putItem place bad) [.member "data", .member side] v) =
      isControl v := by
    rw [isControl, Json.getText?_changeAt_member_of_ne (by decide : "op" ≠ "data"),
      Json.get?_changeAt_member_of_ne (by decide : "success" ≠ "data"), isControl]
  rw [decode, control, Json.getText?_changeAt_member_of_ne (by decide : "topic" ≠ "data"),
    Json.get?_changeAt_member_self, decodeTrade_changeAt, decodeBook_changeAt malformed differs,
    decode]

end Bybit

namespace Binance

theorem decodeBook_changeAt (malformed : LevelChange.ofJson? bad = none) (differs : "s" ≠ side)
    (place now : Nat) (v : Json) :
    decodeBook now (changeAt (putItem place bad) [.member side] v) = decodeBook now v := by
  rcases Json.record_or_changeAt_eq (putItem place bad) side [] v with ⟨members, rfl⟩ | same
  · have respects : BookPayload.fields.Respects (only side (putItem place bad))
        (SameBook BookPayload.market BookPayload.bids BookPayload.asks) :=
      respects_sides malformed place differs "b" "a"
        fun _ _ market _ _ bids _ _ asks => ⟨market, bids, asks⟩
    have read := respects.read_record "BinanceDepthEvent" members
    refine ((agree_payload read venue "depthUpdate").bind_eq ?_).symm
    rintro p q ⟨market, bids, asks⟩
    simp only [market, bids.levels_eq, asks.levels_eq]
  · rw [same]

/-- A trade stands in the frame itself, so a frame of trades can hold lists of levels too; no field
of a trade asks for them. -/
theorem decodeTrade_changeAt (unasked : ∀ field ∈ TradePayload.fields.fields, field.name ≠ side)
    (f : Json → Json) (now : Nat) (v : Json) :
    decodeTrade now (changeAt f [.member side] v) = decodeTrade now v := by
  rcases Json.record_or_changeAt_eq f side [] v with ⟨members, rfl⟩ | same
  · have respects : TradePayload.fields.Respects (only side f) Eq :=
      begins_tradeFields.plain.respects fun field member => Json.only_of_ne (unasked field member) f
    have read := respects.read_record "BinanceTradeEvent" members
    refine ((agree_payload read venue "trade").bind_eq ?_).symm
    rintro p _ rfl
    rfl
  · rw [same]

theorem decode_changeAt (malformed : LevelChange.ofJson? bad = none)
    (known : side = "b" ∨ side = "a") (place now : Nat) (v : Json) :
    decode now (changeAt (putItem place bad) [.member side] v) = decode now v := by
  have others : ∀ name ∈ ["result", "e", "s", "p", "q", "m", "t"], name ≠ side := by
    rcases known with rfl | rfl <;> decide
  have unasked : ∀ field ∈ TradePayload.fields.fields, field.name ≠ side := by
    intro field member
    have named : field.name ∈ ["s", "p", "q", "m", "t"] :=
      List.mem_map_of_mem (f := Schema.Field.name) member
    exact others _ (List.mem_append_right ["result", "e"] named)
  rw [decode, isAnswer, Json.get?_changeAt_member_of_ne (others "result" (by decide)),
    Json.getText?_changeAt_member_of_ne (others "e" (by decide)), decodeTrade_changeAt unasked,
    decodeBook_changeAt malformed (others "s" (by decide)), decode, isAnswer]

end Binance

namespace Hyperliquid

/-- Two written sides with the same well-formed levels; what is not a list has none. -/
def SameSide (v w : Json) : Prop := SameLevels (v.items?.getD []) (w.items?.getD [])

theorem forall₂_sameSide_refl (sides : List Json) : List.Forall₂ SameSide sides sides :=
  List.forall₂_same.2 fun _ _ => rfl

theorem sameSide_putItem (malformed : LevelChange.ofJson? bad = none) (place : Nat) (v : Json) :
    SameSide v (putItem place bad v) := by
  rcases Json.list_or_putItem_eq place bad v with ⟨items, rfl⟩ | same
  · exact (LevelChange.ofItems_insertIdx malformed place items).symm
  · rw [same]
    exact .refl _

theorem forall₂_modify (malformed : LevelChange.ofJson? bad = none) (place number : Nat)
    (sides : List Json) :
    List.Forall₂ SameSide sides (sides.modify number (putItem place bad)) := by
  induction sides generalizing number with
  | nil =>
      rw [List.modify_nil]
      exact .nil
  | cons side rest ih =>
      cases number with
      | zero => exact .cons (sameSide_putItem malformed place side) (forall₂_sameSide_refl rest)
      | succ number => exact .cons rfl (ih number)

/-- The same market, and sides with the same well-formed levels. -/
def SameSides (p q : BookPayload) : Prop :=
  p.coin = q.coin ∧ List.Forall₂ SameSide p.sides q.sides

theorem respects_bookFields (malformed : LevelChange.ofJson? bad = none) (place number : Nat) :
    BookPayload.fields.Respects (only "levels" (changeAt (putItem place bad) [.item number]))
      SameSides := by
  have keeps : (Eq ⇒ List.Forall₂ SameSide ⇒ SameSides) BookPayload.mk BookPayload.mk :=
    fun _ _ coin _ _ sides => ⟨coin, sides⟩
  refine ((respects_textField (by decide : "coin" ≠ "levels")).map keeps).seq
    (Schema.Record.respects_required fun v => ?_)
  rw [Json.only_self]
  rcases Json.list_or_changeAt_eq (putItem place bad) number [] v with ⟨items, rfl⟩ | same
  · exact .ok (forall₂_modify malformed place number items)
  · rw [same]
    exact .refl forall₂_sameSide_refl _

theorem decodeBook_changeAt (malformed : LevelChange.ofJson? bad = none) (place number now : Nat)
    (data : Json) :
    decodeBook now (changeAt (putItem place bad) [.member "levels", .item number] data) =
      decodeBook now data := by
  rcases Json.record_or_changeAt_eq (putItem place bad) "levels" [.item number] data with
    ⟨members, rfl⟩ | same
  · have read := (respects_bookFields malformed place number).read_record "HyperliquidBook" members
    refine ((agree_payload read venue "l2Book").bind_eq ?_).symm
    rintro ⟨coin, sides⟩ ⟨_, others⟩ ⟨rfl, same⟩
    -- Only the first two sides are looked at, and both lists have them or neither.
    cases same with
    | nil => rfl
    | cons bids rest =>
        cases rest with
        | nil => rfl
        | cons asks rest => simp only [SameLevels.levels_eq bids, SameLevels.levels_eq asks]
  · rw [same]

theorem decodeTrade_changeAt (f : Json → Json) (name : String) (path : List Json.Step) (now : Nat)
    (data : Json) :
    decodeTrade now (changeAt f (.member name :: path) data) = decodeTrade now data := by
  rcases Json.record_or_changeAt_eq f name path data with ⟨members, rfl⟩ | same
  · rfl
  · rw [same]

theorem decode_changeAt (malformed : LevelChange.ofJson? bad = none) (place number now : Nat)
    (v : Json) :
    decode now (changeAt (putItem place bad) [.member "data", .member "levels", .item number] v) =
      decode now v := by
  rw [decode, Json.getText?_changeAt_member_of_ne (by decide : "channel" ≠ "data"),
    Json.get?_changeAt_member_self, decode]
  cases v.get? "data" with
  | none => rfl
  | some data => simp only [Option.map_some, decodeTrade_changeAt, decodeBook_changeAt malformed]

end Hyperliquid

namespace Dydx

theorem readGroup_changeAt (malformed : LevelChange.ofJson? bad = none) (place : Nat) (v : Json) :
    readGroup (changeAt (putItem place bad) [.member side] v) = readGroup v := by
  have keeps : (SameLevels ⇒ SameLevels ⇒ fun p q : BookPayload => p.group = q.group)
      BookPayload.mk BookPayload.mk :=
    fun _ _ bids _ _ asks => congrArg₂ ChangeGroup.mk bids asks
  rcases Json.record_or_changeAt_eq (putItem place bad) side [] v with ⟨members, rfl⟩ | same
  · have respects : BookPayload.fields.Respects (only side (putItem place bad))
        fun p q => p.group = q.group :=
      ((respects_optionalItemsField malformed place "bids").map keeps).seq
        (respects_optionalItemsField malformed place "asks")
    have read := respects.read_record "DydxBookUpdate" members
    exact ((agree_payload read venue "v4_orderbook").map_eq fun _ _ same => same).symm
  · rw [same]

/-- A change of one item that keeps its kind and what is read from it. -/
theorem mapM_filter_modify {α : Type} {keep : Json → Bool} {read : Json → Except FeedError α}
    {change : Json → Json} (kept : ∀ v, keep (change v) = keep v)
    (same : ∀ v, read (change v) = read v) (place : Nat) (items : List Json) :
    ((items.modify place change).filter keep).mapM read = (items.filter keep).mapM read := by
  induction items generalizing place with
  | nil => rw [List.modify_nil]
  | cons first rest ih =>
      cases place with
      | zero =>
          simp only [List.modify_zero_cons, List.filter_cons, kept]
          split
          · rw [List.mapM_cons, List.mapM_cons, same]
          · rfl
      | succ place =>
          simp only [List.modify_succ_cons, List.filter_cons]
          split
          · rw [List.mapM_cons, List.mapM_cons, ih]
          · exact ih place

/-- A change of contents that keeps what is read from them, of trades and of groups. -/
structure KeepsContents (change : Json → Json) : Prop where
  trades : ∀ contents, tradesOf? (change contents) = tradesOf? contents
  groups : ∀ symbol contents, readGroups symbol (change contents) = readGroups symbol contents

theorem keepsContents_record (malformed : LevelChange.ofJson? bad = none)
    (differs : "trades" ≠ side) (place : Nat) :
    KeepsContents (changeAt (putItem place bad) [.member side]) where
  trades := by
    intro contents
    rcases Json.record_or_changeAt_eq (putItem place bad) side [] contents with
      ⟨members, rfl⟩ | same
    · exact Json.getItems?_changeAt_member_of_ne differs (.record members)
    · rw [same]
  groups := by
    intro symbol contents
    rcases Json.record_or_changeAt_eq (putItem place bad) side [] contents with
      ⟨members, rfl⟩ | same
    · exact congrArg (Except.map _) (readGroup_changeAt malformed place (.record members))
    · rw [same]

theorem keepsContents_batch (malformed : LevelChange.ofJson? bad = none)
    (differs : "trades" ≠ side) (place number : Nat) :
    KeepsContents (changeAt (putItem place bad) [.item number, .member side]) where
  trades := by
    intro contents
    rcases Json.list_or_changeAt_eq (putItem place bad) number [.member side] contents with
      ⟨items, rfl⟩ | same
    · cases items with
      | nil => rw [changeAt, List.modify_nil]
      | cons first rest =>
          cases number with
          | zero => exact Json.getItems?_changeAt_member_of_ne differs first
          | succ number => rfl
    · rw [same]
  groups := by
    intro symbol contents
    rcases Json.list_or_changeAt_eq (putItem place bad) number [.member side] contents with
      ⟨items, rfl⟩ | same
    · exact mapM_filter_modify (Json.isRecord_changeAt_cons _) (readGroup_changeAt malformed place)
        number items
    · rw [same]

section

variable {change : Json → Json}

theorem KeepsContents.decodeTrade_map (keeps : KeepsContents change) (now : Nat) (symbol : String)
    (contents : Option Json) :
    decodeTrade now symbol (contents.map change) = decodeTrade now symbol contents := by
  cases contents with
  | none => rfl
  | some contents => rw [Option.map_some, decodeTrade, keeps.trades, decodeTrade]

theorem KeepsContents.decodeBook_map (keeps : KeepsContents change) (now : Nat) (symbol : String)
    (contents : Option Json) (replaces : Bool) (store : BookStore) :
    decodeBook now symbol (contents.map change) replaces store =
      decodeBook now symbol contents replaces store := by
  cases contents with
  | none => rfl
  | some contents => rw [Option.map_some, decodeBook_eq, keeps.groups, decodeBook_eq]

end

theorem decode_changeAt {f : Json → Json} {path : List Json.Step}
    (keeps : KeepsContents (changeAt f path)) (now : Nat) (store : BookStore) (v : Json) :
    decode now store (changeAt f (.member "contents" :: path) v) = decode now store v := by
  have market : marketOf (changeAt f (.member "contents" :: path) v) = marketOf v := by
    rw [marketOf, Json.getText?_changeAt_member_of_ne (by decide : "id" ≠ "contents"), marketOf]
  have control : ∀ type, isControl type ((v.get? "contents").map (changeAt f path)) =
      isControl type (v.get? "contents") := by
    intro type
    rw [isControl, Option.isNone_map, isControl]
  simp only [decode, market, control, Json.get?_changeAt_member_self,
    Json.getText?_changeAt_member_of_ne (by decide : "type" ≠ "contents"),
    Json.getText?_changeAt_member_of_ne (by decide : "channel" ≠ "contents"),
    keeps.decodeTrade_map, keeps.decodeBook_map]

end Dydx

end Wire

/-! ## All frames -/

namespace Venue

open Wire

/-- Where the levels of one side stand in the frames of a venue. -/
inductive HoldsLevels : Venue → List Json.Step → Prop where
  | bybit {side : String} (known : side = "b" ∨ side = "a") :
      HoldsLevels bybit [.member "data", .member side]
  | binance {side : String} (known : side = "b" ∨ side = "a") : HoldsLevels binance [.member side]
  | hyperliquid {side : Nat} (known : side < 2) :
      HoldsLevels hyperliquid [.member "data", .member "levels", .item side]
  | dydx {side : String} (known : side = "bids" ∨ side = "asks") :
      HoldsLevels dydx [.member "contents", .member side]
  | dydxBatch {side : String} (known : side = "bids" ∨ side = "asks") (group : Nat) :
      HoldsLevels dydx [.member "contents", .item group, .member side]

/-- One value that is refused as a level is put somewhere among the levels of a frame. -/
def AddsMalformed (venue : Venue) (v w : Json) : Prop :=
  ∃ path place bad, venue.HoldsLevels path ∧ (∃ error, LevelChange.read venue bad = .error error) ∧
    w = changeAt (putItem place bad) path v

theorem decodeJson_of_addsMalformed {venue : Venue} {v w : Json} (adds : venue.AddsMalformed v w)
    (now : Nat) (store : BookStore) :
    venue.decodeJson now store w = venue.decodeJson now store v := by
  obtain ⟨path, place, bad, holds, refused, rfl⟩ := adds
  have malformed := LevelChange.exists_read_eq_error_iff.1 refused
  cases holds with
  | @bybit side known =>
      have differs : "s" ≠ side := by rcases known with rfl | rfl <;> decide
      exact congrArg (·, store) (Bybit.decode_changeAt malformed differs place now v)
  | binance known =>
      exact congrArg (·, store) (Binance.decode_changeAt malformed known place now v)
  | @hyperliquid side _ =>
      exact congrArg (·, store) (Hyperliquid.decode_changeAt malformed place side now v)
  | @dydx side known =>
      have differs : "trades" ≠ side := by rcases known with rfl | rfl <;> decide
      have keeps := Dydx.keepsContents_record malformed differs place
      exact Dydx.decode_changeAt keeps now store v
  | @dydxBatch side known group =>
      have differs : "trades" ≠ side := by rcases known with rfl | rfl <;> decide
      have keeps := Dydx.keepsContents_batch malformed differs place group
      exact Dydx.decode_changeAt keeps now store v

/-- However many values that are refused as levels are put among the levels of a frame, it means
what it meant without them, and leaves the same books. -/
theorem decode_of_malformed_added {venue : Venue} {frame padded : String} {v w : Json}
    (read : Json.read frame = .ok v) (readPadded : Json.read padded = .ok w)
    (adds : Relation.ReflTransGen venue.AddsMalformed v w) (now : Nat) (store : BookStore) :
    venue.decode now store padded = venue.decode now store frame := by
  have same : venue.decodeJson now store w = venue.decodeJson now store v := by
    clear readPadded
    induction adds with
    | refl => rfl
    | tail _ last ih => exact (decodeJson_of_addsMalformed last now store).trans ih
  rw [decode, decode, read, readPadded]
  simp only [same]

/-- Two malformed levels around the only bid of a batch. -/
theorem decode_of_malformed_added_to_batch :
    let frame := "\x7b\x22channel\x22:\x22v4_orderbook\x22,\x22id\x22:\x22BTC-USD\x22," ++
      "\x22contents\x22:[\x7b\x22bids\x22:[[\x222\x22,\x221\x22]]\x7d]\x7d"
    let padded := "\x7b\x22channel\x22:\x22v4_orderbook\x22,\x22id\x22:\x22BTC-USD\x22," ++
      "\x22contents\x22:[\x7b\x22bids\x22:" ++
        "[7,[\x222\x22,\x221\x22],[\x221\x22,\x22-1\x22]]\x7d]\x7d"
    (Venue.dydx.decode 1 .new frame).1.frameClass = .book ∧
      Venue.dydx.decode 1 .new padded = Venue.dydx.decode 1 .new frame := by
  intro frame padded
  let bid : Json := .list [.text "2", .text "1"]
  let negative : Json := .list [.text "1", .text "-1"]
  let v : List Json → Json := fun bids => .record [("channel", .text "v4_orderbook"),
    ("contents", .list [.record [("bids", .list bids)]]), ("id", .text "BTC-USD")]
  have read : Json.read frame = .ok (v [bid]) := by
    simp only [frame, v, bid]
    cbv
  have readPadded : Json.read padded = .ok (v [.int 7, bid, negative]) := by
    simp only [padded, v, bid, negative]
    cbv
  have first : Venue.dydx.AddsMalformed (v [bid]) (v [.int 7, bid]) :=
    ⟨_, 0, .int 7, .dydxBatch (.inl rfl) 0, LevelChange.exists_read_eq_error_iff.2 rfl, rfl⟩
  have second : Venue.dydx.AddsMalformed (v [.int 7, bid]) (v [.int 7, bid, negative]) :=
    ⟨_, 2, negative, .dydxBatch (.inl rfl) 0,
      LevelChange.exists_read_eq_error_iff.2 (by decide +kernel), rfl⟩
  exact ⟨by decide +kernel,
    decode_of_malformed_added read readPadded (.tail (.single first) second) 1 .new⟩

end Venue

end Tape
