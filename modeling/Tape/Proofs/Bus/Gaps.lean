import Tape.Proofs.Bus.Delivery
import Tape.Proofs.Bus.Framing
import Tape.Proofs.Feed.Readable

/-!
# Losses show in the numbers

A subscriber that falls behind loses frames. Once it has read a report of a symbol, it can see each
later report of that symbol which it loses: its number is missing between two numbers that follow
each other. What it loses before that leaves no trace in the numbers.
-/

namespace Tape

/-- A report on an endpoint: its line, and its number among those of its symbol. -/
structure Posting where
  line : BusLine
  number : Nat
  deriving DecidableEq

namespace Posting

def symbol (p : Posting) : String := p.line.topic

def text (p : Posting) : String := p.line.text

/-- How many reports of a symbol there are; so is the last one numbered. -/
def count (symbol : String) (posted : List Posting) : Nat :=
  posted.countP fun p => p.symbol = symbol

/-- The reports of each symbol bear the numbers from one on. -/
def Consecutive (posted : List Posting) : Prop :=
  ∀ symbol, (posted.filter fun p => p.symbol = symbol).map number =
    List.range' 1 (count symbol posted)

/-- The numbers of the reports of a symbol at some places. -/
def numbersAt (posted : List Posting) (symbol : String) (places : List Nat) : List Nat :=
  places.filterMap fun place =>
    (posted[place]?.filter fun p => p.symbol = symbol).map number

/-- Two numbers that follow each other have the given one between them. -/
def Skips (numbers : List Nat) (n : Nat) : Prop :=
  ∃ first a b last, numbers = first ++ a :: b :: last ∧ a < n ∧ n < b

/-- Of two reports of one symbol the later bears the greater number. -/
def Rising (posted : List Posting) : Prop :=
  ∀ ⦃place later : Nat⦄ ⦃p q : Posting⦄, posted[place]? = some p → posted[later]? = some q →
    q.symbol = p.symbol → place < later → p.number < q.number

/-- A report that was not seen, before one of its symbol that was, is missing among the numbers; it
shows as a gap if and only if a report of its symbol from before it was seen as well. -/
def GapsShow (posted : List Posting) (seen : List Nat) : Prop :=
  ∀ (place later : Nat) (lost read : Posting), posted[place]? = some lost →
    posted[later]? = some read → read.symbol = lost.symbol → place < later → place ∉ seen →
      later ∈ seen →
        let numbers := numbersAt posted lost.symbol seen
        lost.number ∉ numbers ∧ read.number ∈ numbers ∧ lost.number < read.number ∧
          (Skips numbers lost.number ↔ ∃ earlier ∈ seen, earlier < place ∧
            posted[earlier]?.map symbol = some lost.symbol)

variable {posted : List Posting} {p q : Posting} {place later : Nat}

/-! ## Numbers by places -/

theorem count_take_succ (held : posted[place]? = some p) :
    count p.symbol (posted.take (place + 1)) = count p.symbol (posted.take place) + 1 := by
  rw [List.take_add_one, held, count, List.countP_append]
  simp [count]

theorem Consecutive.number_eq (consecutive : Consecutive posted) (held : posted[place]? = some p) :
    p.number = count p.symbol (posted.take place) + 1 := by
  obtain ⟨inside, here⟩ := List.getElem?_eq_some_iff.1 held
  have split : posted = posted.take place ++ p :: posted.drop (place + 1) := by
    rw [← here, List.getElem_cons_drop, List.take_append_drop]
  have kept : (posted.filter fun q => q.symbol = p.symbol) =
      ((posted.take place).filter fun q => q.symbol = p.symbol) ++
        p :: ((posted.drop (place + 1)).filter fun q => q.symbol = p.symbol) := by
    conv_lhs => rw [split]
    rw [List.filter_append, List.filter_cons_of_pos (by simp)]
  have numbers := congrArg (·[count p.symbol (posted.take place)]?) (consecutive p.symbol)
  simp only [kept, List.map_append, List.map_cons] at numbers
  have length : count p.symbol (posted.take place) =
      (((posted.take place).filter fun q => q.symbol = p.symbol).map number).length := by
    rw [List.length_map, count, List.countP_eq_length_filter]
  have first : (((posted.take place).filter fun q => q.symbol = p.symbol).map number ++
      p.number :: ((posted.drop (place + 1)).filter fun q => q.symbol = p.symbol).map number)[
        count p.symbol (posted.take place)]? = some p.number := by
    rw [length, List.getElem?_append_right (Nat.le_refl _), Nat.sub_self]
    rfl
  rw [first] at numbers
  obtain ⟨_, value⟩ := List.getElem?_eq_some_iff.1 numbers.symm
  rw [← value, List.getElem_range']
  omega

theorem Consecutive.rising (consecutive : Consecutive posted) : Rising posted := by
  intro place later p q held heldLater same before
  have more : count p.symbol (posted.take (place + 1)) ≤ count p.symbol (posted.take later) :=
    (List.take_sublist_take_left before).countP_le
  rw [consecutive.number_eq held, consecutive.number_eq heldLater, same]
  rw [count_take_succ held] at more
  omega

theorem Rising.drop (rising : Rising posted) (n : Nat) : Rising (posted.drop n) := by
  intro place later p q held heldLater same before
  rw [List.getElem?_drop] at held heldLater
  exact rising held heldLater same (Nat.add_lt_add_left before n)

/-! ## Numbers that were seen -/

variable {symbol : String} {seen : List Nat} {n : Nat}

theorem number?_eq_some :
    (posted[place]?.filter fun p => p.symbol = symbol).map number = some n ↔
      ∃ p, posted[place]? = some p ∧ p.symbol = symbol ∧ p.number = n := by
  simp [Option.map_eq_some_iff, Option.filter_eq_some_iff, and_assoc]

theorem mem_numbersAt :
    n ∈ numbersAt posted symbol seen ↔
      ∃ place ∈ seen, ∃ p, posted[place]? = some p ∧ p.symbol = symbol ∧ p.number = n := by
  simp only [numbersAt, List.mem_filterMap, number?_eq_some]

theorem Rising.numbersAt (rising : Rising posted) (symbol : String)
    (places : seen.Pairwise (· < ·)) : (numbersAt posted symbol seen).Pairwise (· < ·) := by
  refine List.pairwise_filterMap.2 (places.imp fun before n first m second => ?_)
  obtain ⟨p, held, rfl, rfl⟩ := number?_eq_some.1 first
  obtain ⟨q, heldLater, same, rfl⟩ := number?_eq_some.1 second
  exact rising held heldLater same before

/-- The reports of a symbol stand in the order of their numbers. -/
theorem Rising.place_lt (rising : Rising posted) (held : posted[place]? = some p)
    (heldLater : posted[later]? = some q) (same : q.symbol = p.symbol)
    (less : p.number < q.number) : place < later := by
  rcases Nat.lt_trichotomy place later with before | rfl | after
  · exact before
  · cases held.symm.trans heldLater
    exact absurd less (Nat.lt_irrefl _)
  · exact absurd (rising heldLater held same.symm after) (Nat.lt_asymm less)

theorem Skips.exists_lt {numbers : List Nat} (skips : Skips numbers n) : ∃ a ∈ numbers, a < n := by
  obtain ⟨first, a, b, last, rfl, less, -⟩ := skips
  exact ⟨a, List.mem_append_right _ List.mem_cons_self, less⟩

/-- A number that is missing among rising ones is skipped somewhere. -/
theorem skips_of_rising {numbers : List Nat} (rising : numbers.Pairwise (· < ·))
    (absent : n ∉ numbers) (below : ∃ a ∈ numbers, a < n) (above : ∃ b ∈ numbers, n < b) :
    Skips numbers n := by
  induction numbers with
  | nil => simp at below
  | cons first rest ih =>
      obtain ⟨least, rising⟩ := List.pairwise_cons.1 rising
      have head : first < n := by
        obtain ⟨a, member, less⟩ := below
        rcases List.mem_cons.1 member with rfl | held
        · exact less
        · exact Nat.lt_trans (least a held) less
      obtain ⟨b, member, more⟩ := above
      have held : b ∈ rest := (List.mem_cons.1 member).resolve_left (by omega)
      cases rest with
      | nil => cases held
      | cons second rest =>
          rcases Nat.lt_trichotomy second n with less | same | between
          · obtain ⟨before, a, b, last, same, skips⟩ := ih rising
              (fun inside => absent (List.mem_cons_of_mem _ inside))
              ⟨second, List.mem_cons_self, less⟩ ⟨b, held, more⟩
            exact ⟨first :: before, a, b, last, congrArg (first :: ·) same, skips⟩
          · exact absurd (same ▸ List.mem_cons_of_mem _ List.mem_cons_self) absent
          · exact ⟨[], first, second, rest, rfl, head, between⟩

theorem Rising.gapsShow (rising : Rising posted) (places : seen.Pairwise (· < ·)) :
    GapsShow posted seen := by
  intro place later lost read held heldLater same before unseen isSeen numbers
  have last : read.number ∈ numbers := mem_numbersAt.2 ⟨later, isSeen, read, heldLater, same, rfl⟩
  have more : lost.number < read.number := rising held heldLater same before
  have apart : lost.number ∉ numbers := by
    intro member
    obtain ⟨other, here, p, heldOther, sameToo, equal⟩ := mem_numbersAt.1 member
    rcases Nat.lt_trichotomy other place with less | rfl | more
    · exact absurd equal (rising heldOther held sameToo.symm less).ne
    · exact unseen here
    · exact absurd equal (rising held heldOther sameToo more).ne'
  refine ⟨apart, last, more, fun skips => ?_, fun ⟨earlier, here, early, topic⟩ => ?_⟩
  · obtain ⟨n, member, less⟩ := skips.exists_lt
    obtain ⟨earlier, here, p, heldEarlier, sameToo, rfl⟩ := mem_numbersAt.1 member
    exact ⟨earlier, here, rising.place_lt heldEarlier held sameToo.symm less,
      by rw [heldEarlier, Option.map_some, sameToo]⟩
  · obtain ⟨p, heldEarlier, sameToo⟩ := Option.map_eq_some_iff.1 topic
    exact skips_of_rising (rising.numbersAt lost.symbol places) apart
      ⟨p.number, mem_numbersAt.2 ⟨earlier, here, p, heldEarlier, sameToo, rfl⟩,
        rising heldEarlier held sameToo.symm early⟩ ⟨_, last, more⟩

end Posting

/-! ## Reports of a feed -/

namespace Effect

def posting? : ReportStream → Effect → Option Posting
  | .trades, publishTrade r => some ⟨Bus.tradeLine r, r.sequence⟩
  | .books, publishBook r => some ⟨Bus.bookLine r, r.sequence⟩
  | _, _ => none

/-- The reports on an endpoint, in the order of publication. -/
def postings (stream : ReportStream) (effects : List Effect) : List Posting :=
  effects.filterMap (posting? stream)

theorem texts_eq_postings (stream : ReportStream) (effects : List Effect) :
    (lines stream effects).map BusLine.text = (postings stream effects).map Posting.text := by
  rw [lines, postings, List.map_filterMap, List.map_filterMap]
  congr 1
  funext effect
  cases stream <;> cases effect <;> rfl

theorem postings_trades (effects : List Effect) :
    postings .trades effects =
      (tradeReports effects).map fun r => ⟨Bus.tradeLine r, r.sequence⟩ := by
  rw [postings, tradeReports, List.map_filterMap]
  congr 1
  funext effect
  cases effect <;> rfl

theorem numbers_eq_postings (stream : ReportStream) (symbol : String) (effects : List Effect) :
    numbers stream symbol effects =
      ((postings stream effects).filter fun p => p.symbol = symbol).map Posting.number := by
  induction effects with
  | nil => rfl
  | cons effect rest ih =>
      have split : numbers stream symbol (effect :: rest) =
          numbers stream symbol [effect] ++ numbers stream symbol rest :=
        numbers_append stream symbol [effect] rest
      have parts : postings stream (effect :: rest) =
          postings stream [effect] ++ postings stream rest :=
        List.filterMap_append (l := [effect])
      rw [split, parts, List.filter_append, List.map_append, ih]
      congr 1
      cases effect with
      | publishTrade r => cases stream <;> by_cases same : r.symbol = symbol <;>
          simp [numbers, filing?, postings, posting?, Posting.symbol, Bus.tradeLine, same]
      | publishBook r => cases stream <;> by_cases same : r.symbol = symbol <;>
          simp [numbers, filing?, postings, posting?, Posting.symbol, Bus.bookLine, same]
      | _ => cases stream <;> rfl

end Effect

namespace Feed

variable {f : Feed}

theorem consecutive_postings (idle : f.session = none) (steps : List Step)
    (stream : ReportStream) :
    Posting.Consecutive (Effect.postings stream (f.advanceAll steps).1) := by
  intro symbol
  obtain ⟨_, follow⟩ := followOn_advanceAll (.inl idle) steps
  have none : f.counted stream symbol = 0 := by rw [counted, idle]
  have consecutive := (follow stream symbol).1
  rw [none, Effect.numbers_eq_postings, List.length_map, ← List.countP_eq_length_filter]
    at consecutive
  exact consecutive

end Feed

/-! ## Losses -/

theorem Bus.chars_eq_of_text_eq {r₁ r₂ : TradeReport} (symbols : r₁.symbol = r₂.symbol)
    (same : (tradeLine r₁).text = (tradeLine r₂).text) : r₁.json.chars = r₂.json.chars := by
  have lines := List.append_cancel_right (String.ofList_injective same)
  rw [BusLine.chars, BusLine.chars, tradeLine, tradeLine, symbols] at lines
  exact String.ofList_injective
    (String.toList_injective (List.cons.inj (List.append_cancel_left lines)).2)

namespace Audience

/-- Whoever is accepted, at any time while the endpoint is open, among any others: of the frames
published from then on those at some rising places are written for it, and it has lost all others
that it has passed. A service that ends has drained the channel; then the last frame was written.
While no more was outstanding than the capacity, rounded up to a power of two, it has lost none.
When all that is published are the reports of one feed, a loss before a later report of the same
symbol shows as a gap if and only if an earlier one was received. -/
theorem no_silent_loss_between_reports (name : String) (capacity : Nat) (earlier later : List Act)
    (open' : .close ∉ earlier) :
    let came := (new name capacity).actAll earlier
    let place := came.subscribers.length
    let a := came.actAll (.accept :: later)
    let older := (new name capacity).published earlier
    let frames := came.published (.accept :: later)
    ∃ s seen, a.subscribers[place]? = some s ∧
      (seen.Pairwise (· < ·) ∧ s.received.map some = seen.map (frames[·]?) ∧
        s.received.Sublist frames ∧ seen.length + s.lost ≤ frames.length) ∧
      (s.service = .ended → s.Drained a.endpoint.channel) ∧
      (s.Drained a.endpoint.channel → seen.length + s.lost = frames.length ∧
        (frames ≠ [] → seen.getLast? = some (frames.length - 1)) ∧
          s.received.getLast? = frames.getLast?) ∧
      ((∀ before, before <+: later → (came.actAll (.accept :: before)).outstanding place ≤
          (max 1 capacity).nextPowerOfTwo) →
        s.lost = 0 ∧ s.received <+: frames ∧
          (s.Drained a.endpoint.channel → s.received = frames)) ∧
      ∀ (f : Feed) (steps : List Feed.Step) (stream : ReportStream), f.session = none →
        let effects := (f.advanceAll steps).1
        let since := (Effect.postings stream effects).drop older.length
        older ++ frames = (Effect.lines stream effects).map BusLine.text →
          s.received.map some = seen.map (fun place => since[place]?.map Posting.text) ∧
            Posting.GapsShow since seen := by
  intro came place a older frames
  have keeps : came.endpoint.channel.Keeps older :=
    keeps_actAll (a := new name capacity) (Broadcast.keeps_new _) earlier
  have rounded : came.endpoint.channel.capacity = (max 1 capacity).nextPowerOfTwo :=
    capacity_actAll _ earlier
  have room : 0 < came.endpoint.channel.capacity :=
    rounded ▸ Nat.pos_of_isPowerOfTwo (Nat.isPowerOfTwo_nextPowerOfTwo _)
  obtain ⟨s, seen, held, ⟨follows, -⟩, lossless⟩ :=
    exists_attends_actAll keeps room (isClosed_actAll open') later
  have keepsNow : a.endpoint.channel.Keeps (older ++ frames) :=
    keeps_actAll keeps (.accept :: later)
  refine ⟨s, seen, held, ⟨follows.rising, follows.read, follows.sublist_frames,
    follows.passed_le⟩, follows.drained_of_ended keepsNow, fun drained => ?_, fun near => ?_, ?_⟩
  · obtain ⟨passed, last⟩ := follows.drained keepsNow drained
    exact ⟨passed, last, follows.getLast?_of_drained keepsNow drained⟩
  · have none := lossless (rounded.symm ▸ near)
    exact ⟨none, follows.prefix_of_lossless none,
      fun drained => follows.received_of_lossless keepsNow drained none⟩
  · intro f steps stream idle effects since all
    have texts : frames = since.map Posting.text := by
      rw [List.map_drop, ← Effect.texts_eq_postings, ← all, List.drop_left]
    constructor
    · have read : s.received.map some = seen.map (frames[·]?) := follows.read
      rw [read, texts]
      exact List.map_congr_left fun place _ => List.getElem?_map
    · have rising := (Feed.consecutive_postings idle steps stream).rising
      exact (rising.drop older.length).gapsShow follows.rising

/-! ## Three trades -/

/-- What a feed does with three trades of one symbol. -/
def threeTrades : List Effect :=
  let bought := "\x7b\x22topic\x22:\x22publicTrade.BTCUSDT\x22,\x22data\x22:[\x7b\x22s\x22:" ++
    "\x22BTCUSDT\x22,\x22p\x22:\x2250000.1\x22,\x22v\x22:\x220.01\x22,\x22S\x22:\x22Buy\x22," ++
    "\x22i\x22:\x22123\x22\x7d]\x7d"
  ((Feed.served .bybit .default).advanceAll [.prepare, .start, .arrive 1 (.frame bought),
    .arrive 2 (.frame bought), .arrive 3 (.frame bought)]).1

theorem exists_postings_threeTrades :
    ∃ p q r : Posting, Effect.postings .trades threeTrades = [p, q, r] ∧ p.text ≠ q.text ∧
      (p.symbol, p.number) = ("BTC-USDT", 1) ∧ (q.symbol, q.number) = ("BTC-USDT", 2) ∧
        (r.symbol, r.number) = ("BTC-USDT", 3) := by
  have numbered : (Effect.tradeReports threeTrades).map (fun r => (r.symbol, r.sequence)) =
      [("BTC-USDT", 1), ("BTC-USDT", 2), ("BTC-USDT", 3)] := by decide +kernel
  -- The times stand at the beginning of the payloads.
  have apart : ((Effect.tradeReports threeTrades).map fun r => r.json.chars.take 20).Nodup := by
    decide +kernel
  obtain ⟨first, _, same, one, others⟩ := List.map_eq_cons_iff.1 numbered
  obtain ⟨second, _, rfl, two, others⟩ := List.map_eq_cons_iff.1 others
  obtain ⟨third, _, rfl, three, others⟩ := List.map_eq_cons_iff.1 others
  rw [List.map_eq_nil_iff.1 others] at same
  rw [same, List.map_cons, List.map_cons, List.nodup_cons] at apart
  refine ⟨⟨Bus.tradeLine first, first.sequence⟩, ⟨Bus.tradeLine second, second.sequence⟩,
    ⟨Bus.tradeLine third, third.sequence⟩, ?_, fun equal => apart.1 ?_, one, two, three⟩
  · rw [Effect.postings_trades, same]
    rfl
  · have symbols : first.symbol = second.symbol :=
      (Prod.mk.inj one).1.trans (Prod.mk.inj two).1.symm
    rw [Bus.chars_eq_of_text_eq symbols equal]
    exact List.mem_cons_self

/-- At a capacity of one, a subscriber that has read the first of three frames is overrun by the
second. -/
def overrun (x y z : String) : List Act :=
  [.publish x, .serve 0 true, .publish y, .publish z, .serve 0 true, .serve 0 true]

theorem nextPowerOfTwo_one : Nat.nextPowerOfTwo 1 = 1 := by decide +kernel

theorem actAll_overrun (x y z : String) :
    (new "trades" 1).actAll (.accept :: overrun x y z) =
      ⟨⟨"trades", ⟨1, [z], 3, false⟩, 3⟩, [⟨⟨3⟩, [x, z], 1, .running⟩]⟩ := by
  simp [overrun, actAll, act, new, Endpoint.new, Broadcast.new, nextPowerOfTwo_one, isClosed,
    Endpoint.publish, Broadcast.send, Subscriber.serve, Subscriber.accept, Broadcast.receive,
    Broadcast.oldest, Broadcast.subscribe]

/-- The second of three trades is lost after the first was read: the number that is missing lies
between those two that were. -/
theorem no_silent_loss_between_reports_of_overrun :
    .close ∉ ([] : List Act) ∧ ∃ p q r : Posting,
      Effect.postings .trades threeTrades = [p, q, r] ∧
        ((new "trades" 1).actAll (.accept :: overrun p.text q.text r.text)).subscribers =
          [⟨⟨3⟩, [p.text, r.text], 1, .running⟩] ∧
        Posting.Skips (Posting.numbersAt [p, q, r] "BTC-USDT" [0, 2]) 2 := by
  have open' : .close ∉ ([] : List Act) := List.not_mem_nil
  obtain ⟨p, q, r, posted, apart, first, second, third⟩ := exists_postings_threeTrades
  have run := actAll_overrun p.text q.text r.text
  have start : (new "trades" 1).actAll [] = new "trades" 1 := rfl
  have frames : (new "trades" 1).published (.accept :: overrun p.text q.text r.text) =
      [p.text, q.text, r.text] := rfl
  have all : (new "trades" 1).published [] ++ [p.text, q.text, r.text] =
      (Effect.lines .trades threeTrades).map BusLine.text := by
    rw [Effect.texts_eq_postings, posted]
    rfl
  obtain ⟨s, seen, held, ⟨rising, read, -⟩, -, drained, -, gap⟩ :=
    no_silent_loss_between_reports "trades" 1 [] (overrun p.text q.text r.text) open'
  rw [start, run] at held
  rw [start, frames] at read
  rw [start, run, frames] at drained
  obtain rfl : s = ⟨⟨3⟩, [p.text, r.text], 1, .running⟩ := (Option.some.inj held).symm
  obtain ⟨passed, last, -⟩ := drained ⟨rfl, Service.noConfusion⟩
  obtain ⟨early, late, rfl⟩ : ∃ early late, seen = [early, late] :=
    List.length_eq_two.1 (by simpa using passed)
  obtain rfl : late = 2 := Option.some.inj (last (List.cons_ne_nil _ _))
  have before : early < 2 := by simpa using rising
  obtain rfl : early = 0 := by
    rcases Nat.lt_succ_iff_lt_or_eq.1 before with none | rfl
    · exact Nat.lt_one_iff.1 none
    · exact absurd (Option.some.inj (List.cons.inj read).1) apart
  have since : (Effect.postings .trades threeTrades).drop ((new "trades" 1).published []).length =
      [p, q, r] := posted
  have shown : Posting.GapsShow [p, q, r] [0, 2] := since ▸ (gap _ _ .trades rfl all).2
  obtain ⟨-, -, -, skips⟩ := shown 1 2 q r rfl rfl
    ((Prod.mk.inj third).1.trans (Prod.mk.inj second).1.symm) (by decide) (by decide) (by decide)
  obtain ⟨symbol, number⟩ := Prod.mk.inj second
  rw [symbol, number] at skips
  exact ⟨open', p, q, r, posted, by rw [run], skips.2 ⟨0, List.mem_cons_self, Nat.zero_lt_one,
    congrArg some (Prod.mk.inj first).1⟩⟩

/-- A subscriber that comes after the first of three trades is overrun by the second and reads the
third alone. A report was lost before one of the same symbol, and no gap shows. -/
theorem no_gap_before_first_report_received :
    ∃ p q r : Posting, Effect.postings .trades threeTrades = [p, q, r] ∧
      (q.symbol, q.number) = ("BTC-USDT", 2) ∧ (r.symbol, r.number) = ("BTC-USDT", 3) ∧
        ((new "trades" 1).actAll [.publish p.text, .accept, .publish q.text, .publish r.text,
          .serve 0 true, .serve 0 true]).subscribers = [⟨⟨3⟩, [r.text], 1, .running⟩] ∧
        Posting.numbersAt [q, r] "BTC-USDT" [1] = [3] ∧ ¬ Posting.Skips [3] 2 := by
  obtain ⟨p, q, r, posted, -, -, second, third⟩ := exists_postings_threeTrades
  refine ⟨p, q, r, posted, second, third, ?_, ?_, fun skips => ?_⟩
  · simp [actAll, act, new, Endpoint.new, Broadcast.new, nextPowerOfTwo_one, isClosed,
      Endpoint.publish, Broadcast.send, Subscriber.serve, Subscriber.accept, Broadcast.receive,
      Broadcast.oldest, Broadcast.subscribe]
  · obtain ⟨symbol, number⟩ := Prod.mk.inj third
    simp [Posting.numbersAt, Option.filter, symbol, number]
  · obtain ⟨a, member, less⟩ := skips.exists_lt
    rw [List.mem_singleton.1 member] at less
    exact absurd less (by decide)

end Audience

end Tape
