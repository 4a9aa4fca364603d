import Tape.Proofs.Delta.Changes
import Tape.Proofs.Feed.Reaction
import Tape.Proofs.Wire.Naming

/-!
# Symbols of one session

What a session keeps for one symbol is a part of it. A frame of another market leaves that part as
it is and shows nothing of the symbol; a frame of its own market is answered from that part alone.
So two runs that have the frames of a symbol in common show the same of it, whatever else they are
fed.
-/

namespace Tape

/-! ## Changes of one symbol -/

namespace DeltaEncoder

/-- What is published of a book, and what is remembered of it, depends on its own symbol alone. -/
theorem next_congr {a b : DeltaEncoder} {book : Snapshot} (interval : a.interval = b.interval)
    (published : SymbolTable.get? book.symbol a.published =
      SymbolTable.get? book.symbol b.published)
    (depth now : Nat) :
    (a.next book depth now).1 = (b.next book depth now).1 ∧
      SymbolTable.get? book.symbol (a.next book depth now).2.published =
        SymbolTable.get? book.symbol (b.next book depth now).2.published := by
  have due : ∀ previous, a.isDue previous now = b.isDue previous now := by
    intro previous
    rw [isDue, isDue, interval]
  simp only [next, published, due]
  cases held : SymbolTable.get? book.symbol b.published with
  | none => simp only [SymbolTable.get?_set_self, and_self]
  | some previous =>
      simp only
      split
      · simp only [SymbolTable.get?_set_self, and_self]
      · split
        · exact ⟨rfl, published⟩
        · simp only [SymbolTable.get?_set_self, and_self]

end DeltaEncoder

/-! ## Parts -/

/-- The symbol that an effect shows something of. -/
def Effect.symbol? : Effect → Option String
  | trade t => some t.symbol
  | book b => some b.symbol
  | publishTrade r => some r.symbol
  | publishBook r => some r.symbol
  | connect | send _ | reconnect | close | error _ => none

/-- What is shown of a symbol. -/
def Effect.about (symbol : String) (effects : List Effect) : List Effect :=
  effects.filter fun effect => effect.symbol? = some symbol

theorem Effect.about_append (symbol : String) (first second : List Effect) :
    Effect.about symbol (first ++ second) =
      Effect.about symbol first ++ Effect.about symbol second :=
  List.filter_append _ _

/-- What an encoder keeps for one symbol. -/
structure EncoderPart where
  interval : Option Nat
  published : Option Published

/-- What a session keeps for one symbol, with what it has in common for all. -/
structure Part where
  profile : Profile
  phase : Phase
  depth : Nat
  book : Option LiveBook
  tradeWindow : Option (Window Float)
  bookWindow : Option (Window Float)
  /-- The last number of each stream. -/
  numbers : ReportStream → Option Nat
  encoder : Option EncoderPart

def DeltaEncoder.part (e : DeltaEncoder) (symbol : String) : EncoderPart :=
  ⟨e.interval, SymbolTable.get? symbol e.published⟩

namespace Session

/-- The numbers of a symbol under the keys of its streams. -/
def numbersFor (venue : Venue) (symbol : String) (numbers : SymbolTable Nat) :
    ReportStream → Option Nat :=
  fun stream => SymbolTable.get? (stream.key venue symbol) numbers

def part (s : Session) (symbol : String) : Part :=
  ⟨s.profile, s.phase, s.store.depth, s.store.book? symbol,
    SymbolTable.get? symbol s.tradeWindows, SymbolTable.get? symbol s.bookWindows,
    numbersFor s.profile.venue symbol s.numbers,
    s.encoder.map fun encoder => encoder.part symbol⟩

variable {s a b : Session} {symbol : String}

theorem nextNumber_congr {key : String} {numbers others : SymbolTable Nat}
    (same : SymbolTable.get? key numbers = SymbolTable.get? key others) :
    nextNumber numbers key = nextNumber others key := by
  rw [nextNumber, nextNumber, same]

theorem numbersFor_numbersAfter_of_ne {venue : Venue} {stream : ReportStream} {other : String}
    (differs : symbol ≠ other) (reported : Bool) (numbers : SymbolTable Nat) :
    numbersFor venue symbol (numbersAfter reported (stream.key venue other) numbers) =
      numbersFor venue symbol numbers := by
  funext counted
  refine get?_numbersAfter_of_ne (fun same => ?_) reported numbers
  exact differs (ReportStream.key_inj.1 same).2

theorem numbersFor_numbersAfter_congr {venue : Venue} {numbers others : SymbolTable Nat}
    (same : numbersFor venue symbol numbers = numbersFor venue symbol others) (reported : Bool)
    (stream : ReportStream) :
    numbersFor venue symbol (numbersAfter reported (stream.key venue symbol) numbers) =
      numbersFor venue symbol (numbersAfter reported (stream.key venue symbol) others) := by
  funext counted
  rw [numbersAfter, numbersAfter]
  split
  · by_cases own : counted = stream
    · rw [numbersFor, numbersFor, own, SymbolTable.get?_set_self, SymbolTable.get?_set_self,
        nextNumber_congr (congrFun same stream)]
    · have differs : counted.key venue symbol ≠ stream.key venue symbol :=
        fun equal => own (ReportStream.key_inj.1 equal).1
      rw [numbersFor, numbersFor, SymbolTable.get?_set_of_ne differs,
        SymbolTable.get?_set_of_ne differs]
      exact congrFun same counted
  · exact congrFun same counted

/-! ## Frames of other markets -/

theorem eq_of_mem_told {effect told : Effect} (member : effect ∈ s.told told) : effect = told := by
  rw [Session.told] at member
  split at member
  · exact List.mem_singleton.1 member
  · cases member

/-- All that is shown of an event is about its symbol. -/
theorem symbol?_of_mem_onEvent {now : Instant} {event : Event} {effect : Effect}
    (shown : effect ∈ (s.onEvent now event).effects) : effect.symbol? = event.symbol? := by
  have answer := s.answers now event
  generalize s.onEvent now event = turn at answer shown
  cases answer with
  | trade t window held =>
      rcases List.mem_append.1 shown with told | reported
      · rw [eq_of_mem_told told]
        rfl
      · obtain ⟨report, made, rfl⟩ := Option.map_eq_some_iff.1 (Option.mem_toList.1 reported)
        rw [tradeReport?] at made
        split at made <;> cases made
        rfl
  | book b window held =>
      rcases List.mem_append.1 shown with told | reported
      · rw [eq_of_mem_told told]
        rfl
      · obtain ⟨report, made, rfl⟩ := Option.map_eq_some_iff.1 (Option.mem_toList.1 reported)
        obtain ⟨update, _, rfl⟩ := Option.map_eq_some_iff.1 made
        rfl
  | rejected error =>
      rw [eq_of_mem_told shown]
      rfl
  | lostTrade => cases shown
  | lostBook => cases shown
  | heartbeat => cases shown
  | unknown => cases shown

theorem encoderAfter_part_of_ne {book : Snapshot} (differs : symbol ≠ book.symbol) (now : Nat) :
    (s.encoderAfter now book).map (·.part symbol) = s.encoder.map (·.part symbol) := by
  rw [encoderAfter]
  split
  · rw [update]
    cases s.encoder with
    | none => rfl
    | some encoder =>
        simp only [Option.map_some, DeltaEncoder.part, encoder.interval_next,
          encoder.get?_next_of_ne book _ _ differs]
  · rfl

theorem part_onEvent_of_ne (room : s.profile.options.HasRoom) {event : Event}
    (other : event.symbol? ≠ some symbol) (now : Instant) :
    (s.onEvent now event).session.part symbol = s.part symbol := by
  cases event with
  | trade t =>
      have differs : symbol ≠ t.symbol := fun same => other (congrArg some same.symm)
      obtain ⟨window, held⟩ := window?_of_hasRoom room s.tradeWindows t.symbol
      rw [onEvent, onTrade_of_window held]
      simp only [part, SymbolTable.get?_set_of_ne differs, key,
        numbersFor_numbersAfter_of_ne differs]
  | book book =>
      have differs : symbol ≠ book.symbol := fun same => other (congrArg some same.symm)
      obtain ⟨window, held⟩ := window?_of_hasRoom room s.bookWindows book.symbol
      rw [onEvent, onBook_of_window held]
      simp only [part, SymbolTable.get?_set_of_ne differs, key,
        numbersFor_numbersAfter_of_ne differs, encoderAfter_part_of_ne differs]
  | heartbeat => rfl
  | unknown => rfl
  | rejected error => rfl

/-- A frame of another market leaves the part of a symbol as it is. -/
theorem part_onFrame_of_ne (room : s.profile.options.HasRoom) {text : String}
    (other : s.profile.venue.symbolOf? text ≠ some symbol) (now : Instant) :
    (s.onFrame now text).session.part symbol = s.part symbol := by
  have event : (s.decoded now text).1.symbol? ≠ some symbol :=
    fun about => other (Venue.symbolOf?_of_decode about)
  have taken : (s.takeIn now text).part symbol = s.part symbol := by
    simp only [part, takeIn, decoded, Venue.book?_decode_of_ne other, Venue.depth_decode]
  rw [onFrame_eq, ← taken]
  exact part_onEvent_of_ne (s := s.takeIn now text) room event now

theorem about_onFrame_of_ne {text : String} (other : s.profile.venue.symbolOf? text ≠ some symbol)
    (now : Instant) : Effect.about symbol (s.onFrame now text).effects = [] := by
  rw [onFrame_eq, Effect.about, List.filter_eq_nil_iff]
  intro effect shown about
  rw [decide_eq_true_eq, symbol?_of_mem_onEvent shown] at about
  exact other (Venue.symbolOf?_of_decode about)

/-! ## Frames of the market -/

theorem told_congr (profile : a.profile = b.profile) (effect : Effect) :
    a.told effect = b.told effect := by
  rw [told, told, profile]

theorem window?_congr (profile : a.profile = b.profile)
    {windows others : SymbolTable (Window Float)}
    (same : SymbolTable.get? symbol windows = SymbolTable.get? symbol others) :
    a.window? windows symbol = b.window? others symbol := by
  rw [window?, window?, same, profile]

theorem update_congr {book : Snapshot} (profile : a.profile = b.profile)
    (encoder : a.encoder.map (·.part book.symbol) = b.encoder.map (·.part book.symbol))
    (now : Nat) :
    (a.update now book).1 = (b.update now book).1 ∧
      (a.update now book).2.map (·.part book.symbol) =
        (b.update now book).2.map (·.part book.symbol) := by
  rw [update, update, profile]
  cases first : a.encoder with
  | none =>
      rw [first] at encoder
      rw [Option.map_eq_none_iff.1 encoder.symm]
      exact ⟨rfl, rfl⟩
  | some left =>
      rw [first] at encoder
      obtain ⟨right, second, parts⟩ := Option.map_eq_some_iff.1 encoder.symm
      have interval : left.interval = right.interval := (congrArg EncoderPart.interval parts).symm
      have published := (congrArg EncoderPart.published parts).symm
      obtain ⟨same, kept⟩ := DeltaEncoder.next_congr interval published b.profile.options.depth now
      rw [second]
      refine ⟨same, ?_⟩
      simp only [Option.map_some, DeltaEncoder.part, DeltaEncoder.interval_next]
      rw [interval, kept]

/-- An event of a symbol is answered from the part of that symbol alone. -/
theorem onEvent_congr (room : a.profile.options.HasRoom) (same : a.part symbol = b.part symbol)
    {event : Event} (own : ∀ other, event.symbol? = some other → other = symbol) (now : Instant) :
    (a.onEvent now event).effects = (b.onEvent now event).effects ∧
      (a.onEvent now event).session.part symbol = (b.onEvent now event).session.part symbol := by
  have parts := same
  simp only [part, Part.mk.injEq] at parts
  obtain ⟨profile, phase, depth, book, tradeWindow, bookWindow, numbers, encoder⟩ := parts
  rw [profile] at numbers
  cases event with
  | trade t =>
      cases own t.symbol rfl
      obtain ⟨window, held⟩ := window?_of_hasRoom room a.tradeWindows t.symbol
      have held' := (window?_congr profile tradeWindow).symm.trans held
      rw [onEvent, onEvent, onTrade_of_window held, onTrade_of_window held', tradeReport?,
        tradeReport?, told_congr profile, key, key, profile,
        nextNumber_congr (congrFun numbers .trades)]
      refine ⟨rfl, ?_⟩
      simp only [part, phase, depth, book, bookWindow, encoder, SymbolTable.get?_set_self,
        numbersFor_numbersAfter_congr numbers]
  | book b' =>
      cases own b'.symbol rfl
      obtain ⟨window, held⟩ := window?_of_hasRoom room a.bookWindows b'.symbol
      have held' := (window?_congr profile bookWindow).symm.trans held
      obtain ⟨update, kept⟩ := update_congr profile encoder now.encoded
      have published : a.update? now.encoded b' = b.update? now.encoded b' := by
        rw [update?, update?, profile, update]
      have after : (a.encoderAfter now.encoded b').map (·.part b'.symbol) =
          (b.encoderAfter now.encoded b').map (·.part b'.symbol) := by
        rw [encoderAfter, encoderAfter, profile]
        split
        · exact kept
        · exact encoder
      rw [onEvent, onEvent, onBook_of_window held, onBook_of_window held', bookReport?,
        bookReport?, told_congr profile, key, key, profile,
        nextNumber_congr (congrFun numbers .books), published]
      refine ⟨rfl, ?_⟩
      simp only [part, phase, depth, book, tradeWindow, after, SymbolTable.get?_set_self,
        numbersFor_numbersAfter_congr numbers]
  | heartbeat => exact ⟨rfl, same⟩
  | unknown => exact ⟨rfl, same⟩
  | rejected error => exact ⟨told_congr profile _, same⟩

theorem onFrame_congr (room : a.profile.options.HasRoom) (same : a.part symbol = b.part symbol)
    {text : String} (own : a.profile.venue.symbolOf? text = some symbol) (now : Instant) :
    (a.onFrame now text).effects = (b.onFrame now text).effects ∧
      (a.onFrame now text).session.part symbol = (b.onFrame now text).session.part symbol := by
  have profile : a.profile = b.profile := congrArg Part.profile same
  obtain ⟨event, book⟩ := Venue.decode_congr own now.decoded (congrArg Part.depth same)
    (congrArg Part.book same)
  have decoded : (a.decoded now text).1 = (b.decoded now text).1 := by
    rw [Session.decoded, Session.decoded, event, profile]
  have taken : (a.takeIn now text).part symbol = (b.takeIn now text).part symbol := by
    have parts := same
    simp only [part, Part.mk.injEq] at parts ⊢
    simp only [takeIn, Session.decoded, Venue.depth_decode, book, ← profile] at parts ⊢
    exact ⟨trivial, parts.2.1, parts.2.2.1, trivial, parts.2.2.2.2⟩
  rw [onFrame_eq, onFrame_eq, ← decoded]
  refine onEvent_congr (a := a.takeIn now text) room taken ?_ now
  intro other about
  exact Option.some.inj ((Venue.symbolOf?_of_decode about).symm.trans own)

/-! ## Runs -/

/-- The frames that name the market of a symbol. -/
def framesOf (profile : Profile) (symbol : String) (frames : List (Instant × String)) :
    List (Instant × String) :=
  frames.filter fun frame => profile.venue.symbolOf? frame.2 = some symbol

theorem receiveAll_cons (s : Session) (now : Instant) (text : String)
    (rest : List (Instant × String)) :
    (s.receiveAll ((now, text) :: rest)).effects =
      (s.react now (.arrived (.frame text))).effects ++
        ((s.react now (.arrived (.frame text))).session.receiveAll rest).effects := rfl

/-- Frames of other markets can be left out. -/
theorem about_receiveAll_eq (room : a.profile.options.HasRoom) (waits : a.phase = .frame)
    (same : a.part symbol = b.part symbol) (frames : List (Instant × String)) :
    Effect.about symbol (a.receiveAll frames).effects =
      Effect.about symbol (b.receiveAll (framesOf a.profile symbol frames)).effects := by
  -- The second run takes a step only over the frames of the symbol; the part is what both share.
  induction frames generalizing a b with
  | nil => rfl
  | cons first rest ih =>
      obtain ⟨now, text⟩ := first
      have profile := profile_onFrame a now text
      have still := (phase_onFrame room now text).trans waits
      have later := @ih (a.onFrame now text).session
      rw [receiveAll_cons, react_frame waits, Effect.about_append, framesOf, List.filter_cons]
      by_cases own : a.profile.venue.symbolOf? text = some symbol
      · obtain ⟨effects, parts⟩ := onFrame_congr room same own now
        have waits' : b.phase = .frame := (congrArg Part.phase same).symm.trans waits
        rw [if_pos (decide_eq_true own), receiveAll_cons, react_frame waits', Effect.about_append,
          effects, later (profile ▸ room) still parts, profile]
        rfl
      · have parts := (part_onFrame_of_ne room own now).trans same
        rw [if_neg (by simpa using own), about_onFrame_of_ne own,
          later (profile ▸ room) still parts, profile]
        rfl

/-- A session for which no window can be had, and which has none. -/
structure Cramped (s : Session) : Prop where
  noRoom : ¬s.profile.options.HasRoom
  trades : s.tradeWindows = []
  books : s.bookWindows = []

theorem Cramped.onEvent (cramped : s.Cramped) (symbol : String) (now : Instant) (event : Event) :
    Effect.about symbol (s.onEvent now event).effects = [] ∧
      (s.onEvent now event).session.Cramped := by
  have absent : (Window.ofSize? s.profile.options.window : Option (Window Float)) = none :=
    if_neg cramped.noRoom
  have trades : ∀ name, s.window? s.tradeWindows name = none := by
    intro name
    rw [window?, cramped.trades]
    exact absent
  have books : ∀ name, s.window? s.bookWindows name = none := by
    intro name
    rw [window?, cramped.books]
    exact absent
  have crashed : ∀ counts, (s.crash counts).session.Cramped :=
    fun counts => ⟨cramped.noRoom, cramped.trades, cramped.books⟩
  cases event with
  | trade t =>
      rw [Session.onEvent, onTrade_of_no_window (trades _)]
      exact ⟨rfl, crashed _⟩
  | book book =>
      rw [Session.onEvent, onBook_of_no_window (books _)]
      exact ⟨rfl, crashed _⟩
  | heartbeat => exact ⟨rfl, cramped⟩
  | unknown => exact ⟨rfl, cramped⟩
  | rejected error =>
      refine ⟨?_, cramped⟩
      rw [Effect.about, List.filter_eq_nil_iff]
      intro effect shown about
      rw [eq_of_mem_told shown, decide_eq_true_eq] at about
      cases about

theorem Cramped.about_receiveAll (cramped : s.Cramped) (frames : List (Instant × String)) :
    Effect.about symbol (s.receiveAll frames).effects = [] := by
  induction frames generalizing s with
  | nil => rfl
  | cons first rest ih =>
      obtain ⟨now, text⟩ := first
      have reaction := s.reacts now (.arrived (.frame text))
      rw [receiveAll_cons, Effect.about_append]
      generalize s.react now (.arrived (.frame text)) = turn at reaction
      cases reaction with
      | frame _ waits =>
          have taken : (s.takeIn now text).Cramped :=
            ⟨cramped.noRoom, cramped.trades, cramped.books⟩
          obtain ⟨none, still⟩ := taken.onEvent symbol now (s.decoded now text).1
          rw [onFrame_eq, none, ih still]
          rfl
      | idle _ other => exact ih cramped

/-- Two runs that have the frames of a symbol in common, at the same times and in the same order,
show the same trades and books of it, and publish the same reports, whatever other frames come
between. -/
theorem shown_of_symbol_congr (profile : Profile) (symbol : String)
    {left right : List (Instant × String)}
    (common : framesOf profile symbol left = framesOf profile symbol right) :
    Effect.about symbol ((Session.start profile).receiveAll left).effects =
      Effect.about symbol ((Session.start profile).receiveAll right).effects := by
  -- Without room another market can end one of the runs early, but then neither shows anything.
  by_cases room : profile.options.HasRoom
  · have own := @about_receiveAll_eq (.start profile) (.start profile) symbol room rfl rfl
    have common' : framesOf (Session.start profile).profile symbol left =
      framesOf (Session.start profile).profile symbol right := common
    rw [own left, own right, common']
  · have cramped : (Session.start profile).Cramped := ⟨room, rfl, rfl⟩
    rw [cramped.about_receiveAll, cramped.about_receiveAll]

/-- A book and a change of it, alone and between frames of another market. -/
theorem shown_of_symbol_congr_two_markets :
    let profile : Profile := ⟨.dydx, "", ⟨.deltas none, 10, 20⟩, true, true⟩
    let opened := "\x7b\x22type\x22:\x22subscribed\x22,\x22channel\x22:\x22v4_orderbook\x22," ++
      "\x22id\x22:\x22BTC-USD\x22,\x22contents\x22:\x7b\x22bids\x22:[[\x2299\x22,2]]\x7d\x7d"
    let changed := "\x7b\x22type\x22:\x22channel_batch_data\x22," ++
      "\x22channel\x22:\x22v4_orderbook\x22,\x22id\x22:\x22btc-usd\x22," ++
      "\x22contents\x22:[\x7b\x22bids\x22:[[\x2298\x22,\x221\x22]]\x7d]\x7d"
    let other := "\x7b\x22type\x22:\x22subscribed\x22,\x22channel\x22:\x22v4_orderbook\x22," ++
      "\x22id\x22:\x22ETH-USD\x22,\x22contents\x22:\x7b\x22bids\x22:[[\x2299\x22,3]]\x7d\x7d"
    let left := [(1, opened), (3, changed)]
    let right := [(0, other), (1, opened), (2, other), (3, changed)]
    framesOf profile "BTC-USD" left = framesOf profile "BTC-USD" right ∧
      Effect.about "BTC-USD" ((Session.start profile).receiveAll left).effects =
        Effect.about "BTC-USD" ((Session.start profile).receiveAll right).effects ∧
      (Effect.about "BTC-USD" ((Session.start profile).receiveAll left).effects).length = 4 := by
  intro profile opened changed other left right
  have common : framesOf profile "BTC-USD" left = framesOf profile "BTC-USD" right := by
    decide +kernel
  exact ⟨common, shown_of_symbol_congr profile "BTC-USD" common, by decide +kernel⟩

end Session

end Tape
