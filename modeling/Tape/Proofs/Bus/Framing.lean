import Tape.Hub.Basic
import Tape.Proofs.Feed.Numbering
import Tape.Proofs.Feed.Origin
import Tape.Proofs.Json.Printed

/-!
# Framing of the bus

A consumer parts the bytes of an endpoint at line breaks and each line at its first space. It finds
the published lines again exactly when no topic has a space or a line break in it; payloads never
matter, since they are written JSON. Topics are the symbols that frames name, and a venue may name a
market as it likes.
-/

namespace Tape

namespace Text

variable {mark : Char}

theorem splitAt_ne_nil (mark : Char) (cs : List Char) : splitAt mark cs ≠ [] := by
  induction cs with
  | nil => exact List.cons_ne_nil _ _
  | cons c cs ih =>
      rw [splitAt]
      split
      · exact List.cons_ne_nil _ _
      · split <;> exact List.cons_ne_nil _ _

theorem splitAt_mark (mark : Char) (cs : List Char) :
    splitAt mark (mark :: cs) = [] :: splitAt mark cs := by
  rw [splitAt]
  split
  next empty => exact absurd empty (splitAt_ne_nil mark cs)
  next part parts same => rw [if_pos rfl, same]

/-- A part ends with the first mark after it. -/
theorem splitAt_append_mark {part : List Char} (unmarked : mark ∉ part) (rest : List Char) :
    splitAt mark (part ++ mark :: rest) = part :: splitAt mark rest := by
  induction part with
  | nil => exact splitAt_mark mark rest
  | cons c cs ih =>
      rw [List.mem_cons, not_or] at unmarked
      obtain ⟨differs, later⟩ := unmarked
      rw [List.cons_append, splitAt, ih later]
      exact if_neg (Ne.symm differs)

/-- No part has the mark in it. -/
theorem mark_notMem_of_mem_splitAt {cs : List Char} :
    ∀ part ∈ splitAt mark cs, mark ∉ part := by
  induction cs with
  | nil =>
      intro part member
      rw [List.mem_singleton.1 member]
      exact List.not_mem_nil
  | cons c cs ih =>
      intro part member
      rw [splitAt] at member
      split at member
      · rw [List.mem_singleton.1 member]
        exact List.not_mem_nil
      next first parts same =>
        rw [same] at ih
        split at member
        · rcases List.mem_cons.1 member with rfl | held
          · exact List.not_mem_nil
          · exact ih part held
        next differs =>
          rcases List.mem_cons.1 member with rfl | held
          · rw [List.mem_cons, not_or]
            exact ⟨Ne.symm differs, ih first List.mem_cons_self⟩
          · exact ih part (List.mem_cons_of_mem _ held)

end Text

namespace BusLine

/-- The characters of lines one after another. -/
def stream (lines : List BusLine) : List Char := lines.flatMap fun line => line.chars ++ ['\n']

/-- Neither a space nor a line break ends the topic early. -/
def HasPlainTopic (line : BusLine) : Prop := ' ' ∉ line.topic.toList ∧ '\n' ∉ line.topic.toList

instance (line : BusLine) : Decidable line.HasPlainTopic :=
  inferInstanceAs (Decidable (_ ∧ _))

variable {line : BusLine} {lines : List BusLine}

theorem lineBreak_notMem_chars (plain : line.HasPlainTopic) (payload : '\n' ∉ line.payload.toList) :
    '\n' ∉ line.chars := by
  rw [chars, List.mem_append, not_or, List.mem_cons, not_or]
  exact ⟨plain.2, by decide, payload⟩

/-- What a consumer takes for a topic has neither a space nor a line break in it. -/
theorem hasPlainTopic_of_mem_readAll {cs : List Char} (read : line ∈ readAll cs) :
    line.HasPlainTopic := by
  obtain ⟨part, member, rfl⟩ := List.mem_map.1 read
  have whole := Text.mark_notMem_of_mem_splitAt part (List.dropLast_subset _ member)
  constructor <;> rw [ofChars, String.toList_ofList] <;> intro inside
  · simpa using List.mem_takeWhile_imp inside
  · exact whole (List.takeWhile_subset _ inside)

theorem readAll_stream (plain : ∀ line ∈ lines, line.HasPlainTopic)
    (payloads : ∀ line ∈ lines, '\n' ∉ line.payload.toList) :
    readAll (stream lines) = lines := by
  induction lines with
  | nil => rfl
  | cons line rest ih =>
      have topic := plain line List.mem_cons_self
      have later := ih (fun l member => plain l (List.mem_cons_of_mem _ member))
        fun l member => payloads l (List.mem_cons_of_mem _ member)
      have parts : Text.splitAt '\n' (stream (line :: rest)) =
          line.chars :: Text.splitAt '\n' (stream rest) := by
        rw [stream, List.flatMap_cons, List.append_assoc, List.singleton_append]
        exact Text.splitAt_append_mark
          (lineBreak_notMem_chars topic (payloads line List.mem_cons_self)) _
      rw [readAll, parts, List.dropLast_cons_of_ne_nil (Text.splitAt_ne_nil _ _), List.map_cons,
        ofChars_chars line topic.1]
      exact congrArg (line :: ·) later

/-- A consumer finds the lines again exactly when their topics are plain. -/
theorem readAll_stream_eq_iff (payloads : ∀ line ∈ lines, '\n' ∉ line.payload.toList) :
    readAll (stream lines) = lines ↔ ∀ line ∈ lines, line.HasPlainTopic := by
  constructor
  · intro same line member
    rw [← same] at member
    exact hasPlainTopic_of_mem_readAll member
  · intro plain
    exact readAll_stream plain payloads

end BusLine

/-! ## Lines of a run -/

namespace Bus

def endpoint (bus : Bus) : ReportStream → Endpoint
  | .trades => bus.trades
  | .books => bus.books

end Bus

namespace Effect

/-- The line that an effect puts on an endpoint. -/
def line? : ReportStream → Effect → Option BusLine
  | .trades, publishTrade r => some (Bus.tradeLine r)
  | .books, publishBook r => some (Bus.bookLine r)
  | _, _ => none

/-- The lines on an endpoint, in the order of publication. -/
def lines (stream : ReportStream) (effects : List Effect) : List BusLine :=
  effects.filterMap (line? stream)

variable {stream : ReportStream} {effect : Effect} {line : BusLine}

theorem endpoint_publish (stream : ReportStream) (bus : Bus) (effect : Effect) :
    (Hub.publish bus effect).endpoint stream =
      (bus.endpoint stream).publishAll (lines stream [effect] |>.map BusLine.text) := by
  cases stream <;> cases effect <;> rfl

/-- An endpoint is sent its lines, and nothing else. -/
theorem endpoint_publishAll (stream : ReportStream) (bus : Bus) (effects : List Effect) :
    (effects.foldl Hub.publish bus).endpoint stream =
      (bus.endpoint stream).publishAll ((lines stream effects).map BusLine.text) := by
  induction effects generalizing bus with
  | nil => rfl
  | cons effect rest ih =>
      have split : lines stream (effect :: rest) = lines stream [effect] ++ lines stream rest := by
        rw [lines, ← List.singleton_append, List.filterMap_append]
        rfl
      rw [List.foldl_cons, ih, endpoint_publish, split, List.map_append, Endpoint.publishAll,
        Endpoint.publishAll, Endpoint.publishAll, List.foldl_append]

theorem symbol?_of_line? (made : effect.line? stream = some line) :
    effect.symbol? = some line.topic := by
  unfold line? at made
  split at made
  · cases made
    rfl
  · cases made
    rfl
  · cases made

/-- Payloads are written JSON. -/
theorem lineBreak_notMem_payload {effects : List Effect} :
    ∀ line ∈ lines stream effects, '\n' ∉ line.payload.toList := by
  intro line member
  obtain ⟨effect, _, made⟩ := List.mem_filterMap.1 member
  clear member
  unfold line? at made
  split at made
  next r _ =>
    cases made
    exact r.json.lineBreak_notMem_render
  next r _ =>
    cases made
    exact r.json.lineBreak_notMem_render
  next => cases made

end Effect

namespace Feed

variable {f : Feed} {steps : List Step} {stream : ReportStream}

/-- Topics are the symbols that frames name. -/
theorem exists_name_of_line (idle : f.session = none) :
    ∀ line ∈ Effect.lines stream (f.advanceAll steps).1, ∃ now text,
      .arrive now (.frame text) ∈ steps ∧ f.venue.symbolOf? text = some line.topic := by
  intro line member
  obtain ⟨effect, shown, made⟩ := List.mem_filterMap.1 member
  exact exists_name_of_shown (sound_of_no_session idle) shown (Effect.symbol?_of_line? made)

/-- Whatever frames a feed takes, an endpoint is sent one line for each report; a consumer finds
these again exactly when their topics are plain, and each topic is the symbol that a frame names. -/
theorem readAll_lines_eq_iff (idle : f.session = none) (steps : List Step) (stream : ReportStream)
    (bus : Bus) :
    let effects := (f.advanceAll steps).1
    let lines := Effect.lines stream effects
    (effects.foldl Hub.publish bus).endpoint stream =
        (bus.endpoint stream).publishAll (lines.map BusLine.text) ∧
      (BusLine.readAll (BusLine.stream lines) = lines ↔ ∀ line ∈ lines, line.HasPlainTopic) ∧
      ∀ line ∈ lines, ∃ now text,
        .arrive now (.frame text) ∈ steps ∧ f.venue.symbolOf? text = some line.topic :=
  ⟨Effect.endpoint_publishAll stream bus _,
    BusLine.readAll_stream_eq_iff Effect.lineBreak_notMem_payload, exists_name_of_line idle⟩

/-- Trades of two markets, of which one has the dash put into its name, with a book in between. -/
theorem readAll_lines_of_two_markets :
    let f := served .binance .default
    let sold := "\x7b\x22e\x22:\x22trade\x22,\x22s\x22:\x22BTCUSDT\x22,\x22p\x22:\x22100.5\x22," ++
      "\x22q\x22:\x222\x22,\x22m\x22:true,\x22t\x22:7\x7d"
    let depth := "\x7b\x22e\x22:\x22depthUpdate\x22,\x22s\x22:\x22BTCUSDT\x22," ++
      "\x22b\x22:[[\x22100.5\x22,\x222\x22]]\x7d"
    let other := "\x7b\x22e\x22:\x22trade\x22,\x22s\x22:\x22ETH-USDT\x22,\x22p\x22:\x229.5\x22," ++
      "\x22q\x22:\x222\x22,\x22m\x22:true,\x22t\x22:7\x7d"
    let steps : List Step := [.prepare, .start, .arrive 1 (.frame sold), .arrive 2 (.frame depth),
      .arrive 3 (.frame other)]
    let lines := Effect.lines .trades (f.advanceAll steps).1
    f.session = none ∧ lines.map BusLine.topic = ["BTC-USDT", "ETH-USDT"] ∧
      BusLine.readAll (BusLine.stream lines) = lines := by
  intro f sold depth other steps lines
  have topics : lines.map BusLine.topic = ["BTC-USDT", "ETH-USDT"] := by decide +kernel
  obtain ⟨_, readable, _⟩ := readAll_lines_eq_iff (f := f) rfl steps .trades .new
  refine ⟨rfl, topics, readable.2 fun line member => ?_⟩
  have known : line.topic ∈ ["BTC-USDT", "ETH-USDT"] := topics ▸ List.mem_map_of_mem member
  simp only [List.mem_cons, List.not_mem_nil, or_false] at known
  rcases known with topic | topic <;> rw [BusLine.HasPlainTopic, topic] <;> decide

/-- A market with a line break in its name: a consumer sees two lines, of topics that nobody
published. -/
theorem line_torn_by_topic :
    let f := served .bybit .default
    let bought := "\x7b\x22topic\x22:\x22publicTrade.BTCUSDT\x22,\x22data\x22:[\x7b\x22s\x22:" ++
      "\x22BTC\\nUSDT\x22,\x22p\x22:\x2250000.1\x22,\x22v\x22:\x220.01\x22,\x22S\x22:" ++
      "\x22Buy\x22,\x22i\x22:\x22123\x22\x7d]\x7d"
    let lines := Effect.lines .trades
      (f.advanceAll [.prepare, .start, .arrive 1 (.frame bought)]).1
    f.session = none ∧ lines.map BusLine.topic = ["BTC\n-USDT"] ∧
      BusLine.readAll (BusLine.stream lines) ≠ lines := by
  intro f bought lines
  have topics : lines.map BusLine.topic = ["BTC\n-USDT"] := by decide +kernel
  refine ⟨rfl, topics, fun same => ?_⟩
  obtain ⟨line, member, topic⟩ := List.exists_of_mem_map (topics ▸ List.mem_singleton_self _)
  have plain := (BusLine.readAll_stream_eq_iff Effect.lineBreak_notMem_payload).1 same line member
  rw [BusLine.HasPlainTopic, topic] at plain
  exact absurd plain (by decide)

end Feed

end Tape
