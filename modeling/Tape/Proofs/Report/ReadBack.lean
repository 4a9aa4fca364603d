import Tape.Proofs.Json.ReadBack
import Tape.Proofs.Schema.InOrder
import Tape.Report.Message

/-!
# Reading reports from their own text

The text of a report is read as the report exactly when all its numbers are finite: a number that is
not finite is written as `null`, which is no number.
-/

namespace Tape

open Schema

/-! ## Values that are read as what was written -/

/-- No number is infinite, and each is one. -/
def AllFinite (numbers : List Float) : Prop := ∀ x ∈ numbers, Binary64.isFinite x = true

instance (numbers : List Float) : Decidable (AllFinite numbers) :=
  inferInstanceAs (Decidable (∀ x ∈ numbers, _))

theorem allFinite_append {first rest : List Float} :
    AllFinite (first ++ rest) ↔ AllFinite first ∧ AllFinite rest :=
  List.forall_mem_append

/-- The digits of each finite number read back. -/
def AllReadBack (numbers : List Float) : Prop :=
  ∀ x ∈ numbers, Binary64.isFinite x = true → Json.ReadsBack x

instance (numbers : List Float) : Decidable (AllReadBack numbers) :=
  inferInstanceAs (Decidable (∀ x ∈ numbers, _ → _))

theorem AllReadBack.of_subset {numbers others : List Float} (back : AllReadBack numbers)
    (held : others ⊆ numbers) : AllReadBack others :=
  fun x member => back x (held member)

/-- The written form of a value is read as the given one, unless a number of it is not finite. -/
def ReadsAs {α : Type} (read : Json.Outline → Except Fault α) (v : Json) (numbers : List Float)
    (a : α) : Prop :=
  ∀ b, read v.outline = .ok b ↔ AllFinite numbers ∧ b = a

/-- A plain record type is built from members as the given value, unless a number of them is not
finite. -/
structure Builds {α : Type} (r : Record Json.Outline α) (members : List (String × Json))
    (numbers : List Float) (a : α) : Prop where
  plain : r.Plain
  iff : ∀ b, r.build (Record.lookup (members.map fun m => (m.1, m.2.outline)))
    (fun name => .mismatch (.missingField name)) = .ok b ↔ AllFinite numbers ∧ b = a

section

variable {α β : Type} {numbers others : List Float} {a : α} {members : List (String × Json)}

theorem readsAs_of_ok {read : Json.Outline → Except Fault α} {v : Json}
    (made : read v.outline = .ok a) : ReadsAs read v [] a := by
  intro b
  rw [made]
  constructor
  · intro same
    cases same
    exact ⟨fun _ member => (List.not_mem_nil member).elim, rfl⟩
  · rintro ⟨_, rfl⟩
    rfl

theorem readsAs_text (s : String) : ReadsAs Document.text (.text s) [] s := readsAs_of_ok rfl

theorem readsAs_whole {w : Width} {n : Nat} (fits : n < w.bound) :
    ReadsAs (Document.whole w) (.nat n) [] n := by
  apply readsAs_of_ok
  show wholeOfInt w n = .ok n
  have range : (decide (0 ≤ (n : Int)) && decide ((n : Int) < w.bound)) = true := by
    simp only [Bool.and_eq_true, decide_eq_true_eq]
    omega
  rw [wholeOfInt, if_pos range]
  rfl

theorem readsAs_real (x : Float) : ReadsAs Document.real (.real x) [x] x := by
  intro b
  rw [AllFinite, List.forall_mem_singleton]
  cases finite : Binary64.isFinite x with
  | true =>
      have shown : (Json.real x).outline = .number (.real x) := if_pos finite
      rw [shown]
      constructor
      · intro same
        cases same
        exact ⟨rfl, rfl⟩
      · rintro ⟨_, rfl⟩
        rfl
  | false =>
      have shown : (Json.real x).outline = .null := by
        rw [Json.real, Json.outline, finite]
        rfl
      rw [shown]
      constructor
      · intro same
        cases same
      · rintro ⟨impossible, _⟩
        cases impossible

theorem readsAs_venue (v : Venue) : ReadsAs Venue.read v.json [] v :=
  readsAs_of_ok (by cases v <;> rfl)

theorem readsAs_side (s : Side) : ReadsAs Side.read s.json [] s :=
  readsAs_of_ok (by cases s <;> rfl)

theorem readsAs_kind (k : ReportKind) : ReadsAs ReportKind.read k.json [] k :=
  readsAs_of_ok (by cases k <;> rfl)

/-- A list is read when each of its items is. -/
theorem readsAs_list {read : Json.Outline → Except Fault α} {json : α → Json}
    {numbersOf : α → List Float} (each : ∀ item, ReadsAs read (json item) (numbersOf item) item)
    (items : List α) :
    ReadsAs (readList read) (.list (items.map json)) (items.flatMap numbersOf) items := by
  have mapped : ∀ values, (items.map fun item => (json item).outline).mapM read = .ok values ↔
      AllFinite (items.flatMap numbersOf) ∧ values = items := by
    induction items with
    | nil =>
        intro values
        rw [List.map_nil, List.mapM_nil]
        constructor
        · intro same
          cases same
          exact ⟨fun _ member => (List.not_mem_nil member).elim, rfl⟩
        · rintro ⟨_, rfl⟩
          rfl
    | cons item rest ih =>
        intro values
        simp only [List.map_cons, List.mapM_cons, bind_eq_ok, List.flatMap_cons, allFinite_append]
        constructor
        · rintro ⟨_, head, tail, later, made⟩
          obtain ⟨held, rfl⟩ := (each item _).1 head
          obtain ⟨kept, rfl⟩ := (ih _).1 later
          cases made
          exact ⟨⟨held, kept⟩, rfl⟩
        · rintro ⟨⟨held, kept⟩, rfl⟩
          exact ⟨item, (each item _).2 ⟨held, rfl⟩, rest, (ih _).2 ⟨kept, rfl⟩, rfl⟩
  intro b
  have shown : Json.itemOutlines (items.map json) = items.map fun item => (json item).outline := by
    rw [Json.itemOutlines_eq_map, List.map_map]
    rfl
  show ((Json.itemOutlines (items.map json)).mapM read >>= fun values => pure values) = .ok b ↔ _
  rw [bind_pure, shown]
  exact mapped b

theorem lookup_outlines (members : List (String × Json)) (name : String) :
    Record.lookup (members.map fun m => (m.1, m.2.outline)) name =
      (Record.lookup members name).map Json.outline := by
  induction members with
  | nil => rfl
  | cons member rest ih =>
      obtain ⟨other, v⟩ := member
      rw [List.map_cons]
      by_cases same : other = name
      · rw [same, Record.lookup_cons_self, Record.lookup_cons_self]
        rfl
      · rw [Record.lookup_cons_of_ne same, Record.lookup_cons_of_ne same, ih]

theorem builds_required {name : String} {read : Json.Outline → Except Fault α} {v : Json}
    (held : Record.lookup members name = some v) (reads : ReadsAs read v numbers a) :
    Builds (.required name read) members numbers a := by
  refine ⟨Record.plain_required name read, fun b => ?_⟩
  simp only [Record.required, lookup_outlines, held, Option.map_some]
  exact reads b

theorem Builds.map {r : Record Json.Outline α} (builds : Builds r members numbers a) (g : α → β) :
    Builds (g <$> r) members numbers (g a) := by
  refine ⟨builds.plain.map g, fun b => ?_⟩
  rw [Record.map_build_eq_ok]
  constructor
  · rintro ⟨_, made, rfl⟩
    obtain ⟨held, rfl⟩ := (builds.iff _).1 made
    exact ⟨held, rfl⟩
  · rintro ⟨held, rfl⟩
    exact ⟨a, (builds.iff a).2 ⟨held, rfl⟩, rfl⟩

theorem Builds.seq {f : Record Json.Outline (α → β)} {g : α → β} {r : Record Json.Outline α}
    (first : Builds f members numbers g) (second : Builds r members others a) :
    Builds (f <*> r) members (numbers ++ others) (g a) := by
  refine ⟨first.plain.seq second.plain, fun b => ?_⟩
  rw [Record.seq_build_eq_ok, allFinite_append]
  constructor
  · rintro ⟨_, _, made, built, rfl⟩
    obtain ⟨held, rfl⟩ := (first.iff _).1 made
    obtain ⟨kept, rfl⟩ := (second.iff _).1 built
    exact ⟨⟨held, kept⟩, rfl⟩
  · rintro ⟨⟨held, kept⟩, rfl⟩
    exact ⟨g, a, (first.iff g).2 ⟨held, rfl⟩, (second.iff a).2 ⟨kept, rfl⟩, rfl⟩

/-- A record is read when its type is built from its members. -/
theorem Builds.read {r : Record Json.Outline α} (builds : Builds r members numbers a)
    (distinct : (r.fields.map Field.name).Nodup)
    (names : members.map Prod.fst = r.fields.map Field.name) (typeName : String) :
    ReadsAs (r.read typeName) (.record members) numbers a := by
  intro b
  rw [← builds.iff b]
  refine builds.plain.read_members distinct ?_ ?_ b
  · rw [List.map_map, ← names]
    rfl
  · show Except.ok (Fields.named _ _) = _
    rw [Json.memberOutlines_eq_map, Record.seen, List.map_map, List.map_map]
    rfl

theorem legible_nil (depth : Nat) : Json.Legible (depth + 1) (.record []) :=
  .record fun _ member => (List.not_mem_nil member).elim

theorem legible_cons {depth : Nat} {name : String} {v : Json} (first : Json.Legible depth v)
    (rest : Json.Legible (depth + 1) (.record members)) :
    Json.Legible (depth + 1) (.record ((name, v) :: members)) := by
  cases rest with
  | record inner => exact .record (List.forall_mem_cons.2 ⟨first, inner⟩)

/-- What is read from the text of a legible value. -/
theorem ofText_render {read : Json.Outline → Except Fault α} {v : Json}
    (reads : ReadsAs read v numbers a) (legible : Json.Legible (Json.depthLimit - 1) v) :
    ofText read v.render = .ok a ↔ AllFinite numbers := by
  rw [ofText, Json.ofChars_chars legible]
  show (read v.outline >>= fun b => pure b) = .ok a ↔ _
  rw [bind_pure, reads a, and_iff_left rfl]

end

/-! ## Metrics -/

/-- The members of a record. -/
def Json.members : Json → List (String × Json)
  | .record members => members
  | _ => []

namespace TradeMetrics

def numbers (m : TradeMetrics Float) : List Float := [m.price, m.volume, m.volatility]

theorem readsAs_json {m : TradeMetrics Float} (fits : m.window < Word.bound64) :
    ReadsAs TradeMetrics.read m.json m.numbers m := by
  have builds : Builds fields m.json.members m.numbers m :=
    .seq (.seq (.seq (.map (builds_required rfl (readsAs_real m.price)) TradeMetrics.mk)
      (builds_required rfl (readsAs_real m.volume)))
      (builds_required rfl (readsAs_real m.volatility)))
      (builds_required rfl (readsAs_whole fits))
  exact builds.read (by decide) rfl _

theorem legible_json {m : TradeMetrics Float} (fits : m.window < Word.bound64)
    (back : AllReadBack m.numbers) (depth : Nat) : Json.Legible (depth + 1) m.json := by
  simp only [AllReadBack, numbers, List.forall_mem_cons] at back
  obtain ⟨price, volume, volatility, _⟩ := back
  exact legible_cons (.real _ _ price) <| legible_cons (.real _ _ volume) <|
    legible_cons (.real _ _ volatility) <| legible_cons (.nat _ _ fits) <| legible_nil depth

end TradeMetrics

namespace BookMetrics

def numbers (m : BookMetrics Float) : List Float :=
  [m.midpoint, m.relativeSpread, m.breadth, m.imbalance, m.bidDepth, m.askDepth, m.depth,
    m.volatility, m.meanFlow]

theorem readsAs_json {m : BookMetrics Float} (fits : m.window < Word.bound64) :
    ReadsAs BookMetrics.read m.json m.numbers m := by
  have builds : Builds fields m.json.members m.numbers m :=
    .seq (.seq (.seq (.seq (.seq (.seq (.seq (.seq (.seq
      (.map (builds_required rfl (readsAs_real m.midpoint)) BookMetrics.mk)
      (builds_required rfl (readsAs_real m.relativeSpread)))
      (builds_required rfl (readsAs_real m.breadth)))
      (builds_required rfl (readsAs_real m.imbalance)))
      (builds_required rfl (readsAs_real m.bidDepth)))
      (builds_required rfl (readsAs_real m.askDepth)))
      (builds_required rfl (readsAs_real m.depth)))
      (builds_required rfl (readsAs_real m.volatility)))
      (builds_required rfl (readsAs_real m.meanFlow)))
      (builds_required rfl (readsAs_whole fits))
  exact builds.read (by decide) rfl _

theorem legible_json {m : BookMetrics Float} (fits : m.window < Word.bound64)
    (back : AllReadBack m.numbers) (depth : Nat) : Json.Legible (depth + 1) m.json := by
  simp only [AllReadBack, numbers, List.forall_mem_cons] at back
  obtain ⟨midpoint, spread, breadth, imbalance, bidDepth, askDepth, sum, volatility, flow, _⟩ :=
    back
  exact legible_cons (.real _ _ midpoint) <| legible_cons (.real _ _ spread) <|
    legible_cons (.real _ _ breadth) <| legible_cons (.real _ _ imbalance) <|
    legible_cons (.real _ _ bidDepth) <| legible_cons (.real _ _ askDepth) <|
    legible_cons (.real _ _ sum) <| legible_cons (.real _ _ volatility) <|
    legible_cons (.real _ _ flow) <| legible_cons (.nat _ _ fits) <| legible_nil depth

end BookMetrics

/-! ## Reports -/

namespace Level

def numbers (l : Level Float) : List Float := [l.price, l.quantity]

theorem readsAs_json (l : Level Float) : ReadsAs Level.read l.json l.numbers l := by
  have builds : Builds fields l.json.members l.numbers l :=
    .seq (.map (builds_required rfl (readsAs_real l.price)) Level.mk)
      (builds_required rfl (readsAs_real l.quantity))
  exact builds.read (by decide) rfl _

theorem legible_json {l : Level Float} (back : AllReadBack l.numbers) (depth : Nat) :
    Json.Legible (depth + 1) l.json := by
  simp only [AllReadBack, numbers, List.forall_mem_cons] at back
  obtain ⟨price, quantity, _⟩ := back
  exact legible_cons (.real _ _ price) <| legible_cons (.real _ _ quantity) <| legible_nil depth

theorem legible_levelsJson {levels : List (Level Float)}
    (back : AllReadBack (levels.flatMap numbers)) (depth : Nat) :
    Json.Legible (depth + 2) (Snapshot.levelsJson levels) := by
  refine .list fun item member => ?_
  obtain ⟨level, held, rfl⟩ := List.mem_map.1 member
  exact legible_json (back.of_subset fun x own => List.mem_flatMap.2 ⟨level, held, own⟩) depth

end Level

namespace TradeReport

def numbers (r : TradeReport) : List Float := r.price :: r.quantity :: r.metrics.numbers

/-- All whole numbers of a report have 64 bits. -/
structure Fits (r : TradeReport) : Prop where
  stamp : r.stamp < Word.bound64
  sequence : r.sequence < Word.bound64
  window : r.metrics.window < Word.bound64

theorem readsAs_json {r : TradeReport} (fits : r.Fits) :
    ReadsAs TradeReport.read r.json r.numbers r := by
  have builds : Builds fields r.json.members r.numbers r :=
    .seq (.seq (.seq (.seq (.seq (.seq (.seq (.seq
      (.map (builds_required rfl (readsAs_whole fits.stamp)) TradeReport.mk)
      (builds_required rfl (readsAs_text r.symbol)))
      (builds_required rfl (readsAs_venue r.venue)))
      (builds_required rfl (readsAs_real r.price)))
      (builds_required rfl (readsAs_real r.quantity)))
      (builds_required rfl (readsAs_side r.side)))
      (builds_required rfl (readsAs_text r.id)))
      (builds_required rfl (readsAs_whole fits.sequence)))
      (builds_required rfl (TradeMetrics.readsAs_json fits.window))
  exact builds.read (by decide) rfl _

theorem legible_json {r : TradeReport} (fits : r.Fits) (back : AllReadBack r.numbers)
    (depth : Nat) : Json.Legible (depth + 2) r.json := by
  obtain ⟨price, quantity, metrics⟩ : _ ∧ _ ∧ AllReadBack r.metrics.numbers := by
    simpa only [AllReadBack, numbers, List.forall_mem_cons] using back
  exact legible_cons (.nat _ _ fits.stamp) <| legible_cons (.text _ _) <|
    legible_cons (.text _ _) <| legible_cons (.real _ _ price) <|
    legible_cons (.real _ _ quantity) <| legible_cons (.text _ _) <| legible_cons (.text _ _) <|
    legible_cons (.nat _ _ fits.sequence) <|
    legible_cons (r.metrics.legible_json fits.window metrics depth) <| legible_nil _

/-- The text of a report is read as the report exactly when all its numbers are finite. -/
theorem ofText_text_iff {r : TradeReport} (fits : r.Fits) (back : AllReadBack r.numbers) :
    ofText TradeReport.read r.text = .ok r ↔ AllFinite r.numbers :=
  ofText_render (readsAs_json fits) (legible_json fits back _)

end TradeReport

namespace BookReport

def numbers (r : BookReport) : List Float :=
  r.bids.flatMap Level.numbers ++ r.asks.flatMap Level.numbers ++ r.metrics.numbers

structure Fits (r : BookReport) : Prop where
  stamp : r.stamp < Word.bound64
  sequence : r.sequence < Word.bound64
  window : r.metrics.window < Word.bound64

theorem readsAs_json {r : BookReport} (fits : r.Fits) :
    ReadsAs BookReport.read r.json r.numbers r := by
  have builds : Builds fields r.json.members r.numbers r :=
    .seq (.seq (.seq (.seq (.seq (.seq (.seq
      (.map (builds_required rfl (readsAs_whole fits.stamp)) BookReport.mk)
      (builds_required rfl (readsAs_text r.symbol)))
      (builds_required rfl (readsAs_venue r.venue)))
      (builds_required rfl (readsAs_whole fits.sequence)))
      (builds_required rfl (readsAs_kind r.kind)))
      (builds_required rfl (readsAs_list Level.readsAs_json r.bids)))
      (builds_required rfl (readsAs_list Level.readsAs_json r.asks)))
      (builds_required rfl (BookMetrics.readsAs_json fits.window))
  exact builds.read (by decide) rfl _

theorem legible_json {r : BookReport} (fits : r.Fits) (back : AllReadBack r.numbers)
    (depth : Nat) : Json.Legible (depth + 3) r.json := by
  obtain ⟨⟨bids, asks⟩, metrics⟩ : (AllReadBack (r.bids.flatMap Level.numbers) ∧
      AllReadBack (r.asks.flatMap Level.numbers)) ∧ AllReadBack r.metrics.numbers := by
    simpa only [AllReadBack, numbers, List.forall_mem_append] using back
  exact legible_cons (.nat _ _ fits.stamp) <| legible_cons (.text _ _) <|
    legible_cons (.text _ _) <| legible_cons (.nat _ _ fits.sequence) <|
    legible_cons (.text _ _) <| legible_cons (Level.legible_levelsJson bids depth) <|
    legible_cons (Level.legible_levelsJson asks depth) <|
    legible_cons (r.metrics.legible_json fits.window metrics _) <| legible_nil _

/-- The text of a report is read as the report exactly when all its numbers are finite. -/
theorem ofText_text_iff {r : BookReport} (fits : r.Fits) (back : AllReadBack r.numbers) :
    ofText BookReport.read r.text = .ok r ↔ AllFinite r.numbers :=
  ofText_render (readsAs_json fits) (legible_json fits back _)

end BookReport

end Tape
