import Tape.Proofs.Bus.Framing
import Tape.Proofs.Feed.Readable
import Tape.Proofs.Hub.Places
import Tape.Proofs.Hub.Registration

/-!
# Numbers on a shared bus

All feeds of a hub publish to the same two endpoints, and each numbers its own reports. So the
numbers of an exchange and a symbol run from one on, in the order of publication, as long as one
feed alone publishes under both. Settings may name an exchange twice; then they repeat as soon as
two feeds publish under the same symbol.
-/

namespace Tape

/-! ## Numbers of an exchange and a symbol -/

namespace Effect

/-- The number of a report on an endpoint, if it is of the exchange and the symbol. -/
def number? (stream : ReportStream) (venue : Venue) (symbol : String) : Effect → Option Nat
  | publishTrade r =>
      if stream = .trades ∧ r.venue = venue ∧ r.symbol = symbol then some r.sequence else none
  | publishBook r =>
      if stream = .books ∧ r.venue = venue ∧ r.symbol = symbol then some r.sequence else none
  | _ => none

/-- The numbers that an endpoint is sent under an exchange and a symbol, in order. -/
def numbersOn (stream : ReportStream) (venue : Venue) (symbol : String) (effects : List Effect) :
    List Nat :=
  effects.filterMap (number? stream venue symbol)

/-- Who a report is of. -/
def reporter? : Effect → Option Venue
  | publishTrade r => some r.venue
  | publishBook r => some r.venue
  | _ => none

variable {stream : ReportStream} {venue : Venue} {symbol : String} {effects : List Effect}

/-- A number under the own exchange is that of the report. -/
theorem number?_of_reporter {effect : Effect}
    (own : ∀ other, effect.reporter? = some other → other = venue) :
    effect.number? stream venue symbol =
      (effect.filing?.filter fun f => f.stream = stream ∧ f.symbol = symbol).map Filing.number := by
  cases effect with
  | publishTrade r =>
      cases own _ rfl
      simp only [number?, filing?, Option.filter, eq_comm (a := stream), true_and,
        decide_eq_true_eq]
      split <;> rfl
  | publishBook r =>
      cases own _ rfl
      simp only [number?, filing?, Option.filter, eq_comm (a := stream), true_and,
        decide_eq_true_eq]
      split <;> rfl
  | _ => rfl

theorem number?_of_foreign {effect : Effect}
    (foreign : ∀ other, effect.reporter? = some other → other ≠ venue) :
    effect.number? stream venue symbol = none := by
  cases effect with
  | publishTrade r => exact if_neg fun own => foreign _ rfl own.2.1
  | publishBook r => exact if_neg fun own => foreign _ rfl own.2.1
  | _ => rfl

theorem numbersOn_of_reporter
    (own : ∀ effect ∈ effects, ∀ other, effect.reporter? = some other → other = venue) :
    numbersOn stream venue symbol effects = numbers stream symbol effects := by
  rw [numbers, List.filter_filterMap, List.map_filterMap, numbersOn]
  exact List.filterMap_congr fun effect member => number?_of_reporter (own effect member)

theorem numbersOn_of_foreign
    (foreign : ∀ effect ∈ effects, ∀ other, effect.reporter? = some other → other ≠ venue) :
    numbersOn stream venue symbol effects = [] := by
  rw [numbersOn, List.filterMap_eq_nil_iff]
  exact fun effect member => number?_of_foreign (foreign effect member)

end Effect

/-! ## One feed -/

theorem Session.reporter_of_published {s : Session} (sound : s.Sound) {now : Instant}
    {text : String}
    {effect : Effect} (published : effect ∈ (s.onFrame now text).effects) {venue : Venue}
    (reported : effect.reporter? = some venue) : venue = s.profile.venue := by
  rw [onFrame_eq] at published
  have event := (sound.store.decode s.profile.venue now.decoded text).1
  cases effect with
  | publishTrade r =>
      obtain ⟨t, _, _, same, _, rfl⟩ := trade_of_published published
      rw [show s.profile.venue.decode now.decoded s.store text = s.decoded now text from rfl,
        same] at event
      cases reported
      exact event.1
  | publishBook r =>
      obtain ⟨b, _, _, _, same, _, _, rfl⟩ := book_of_published published
      rw [show s.profile.venue.decode now.decoded s.store text = s.decoded now text from rfl,
        same] at event
      cases reported
      exact event.1
  | _ => cases reported

namespace Feed

variable {f : Feed} {steps : List Step}

/-- A feed reports of its own exchange only. -/
theorem reporter_of_published (sound : f.Sound) {effect : Effect}
    (published : effect ∈ (f.advanceAll steps).1) {venue : Venue}
    (reported : effect.reporter? = some venue) : venue = f.venue := by
  obtain ⟨symbol, about⟩ : ∃ symbol, effect.symbol? = some symbol := by
    cases effect <;> first | exact ⟨_, rfl⟩ | cases reported
  obtain ⟨session, now, text, _, held, same, made⟩ := exists_frame_of_shown sound published about
  rw [← same]
  exact session.reporter_of_published held made reported

/-- A feed that is about to count: it has not published anything yet. -/
structure IsUncounted (f : Feed) : Prop where
  sound : f.Sound
  once : f.StartsOnce
  none : ∀ stream symbol, f.counted stream symbol = 0

theorem IsUncounted.numbersOn_advanceAll (uncounted : f.IsUncounted) (steps : List Step)
    (stream : ReportStream) (venue : Venue) (symbol : String) :
    let numbers := Effect.numbersOn stream venue symbol (f.advanceAll steps).1
    numbers = List.range' 1 numbers.length ∧ (numbers ≠ [] → f.venue = venue) := by
  obtain ⟨after, follow⟩ := followOn_advanceAll uncounted.once steps
  have consecutive := (follow stream symbol).1
  have reporter : ∀ effect ∈ (f.advanceAll steps).1, ∀ other, effect.reporter? = some other →
      other = f.venue := fun _ member _ => reporter_of_published uncounted.sound member
  rw [uncounted.none, Nat.zero_add] at consecutive
  intro numbers
  subst numbers
  by_cases own : f.venue = venue
  · rw [Effect.numbersOn_of_reporter (own ▸ reporter)]
    exact ⟨consecutive, fun _ => own⟩
  · rw [Effect.numbersOn_of_foreign fun effect member other reported =>
      (reporter effect member other reported).symm ▸ own]
    exact ⟨rfl, absurd rfl⟩

theorem isUncounted_of_idle (idle : f.session = none) : f.IsUncounted where
  sound := sound_of_no_session idle
  once := .inl idle
  none := fun stream symbol => by rw [counted, idle]

theorem isUncounted_launch (idle : f.session = none) (hasBus : Bool) :
    (Hub.launch hasBus f).feed.IsUncounted := by
  have launches := f.launches idle hasBus
  generalize Hub.launch hasBus f = launched at launches
  cases launches with
  | spent held => exact isUncounted_of_idle idle
  | refused source rest cause held reply => exact isUncounted_of_idle idle
  | unsubscribed source rest cause held connected reply => exact isUncounted_of_idle idle
  | opened source rest held connected subscribed =>
      refine ⟨?_, .inr rfl, fun stream symbol => ?_⟩
      · intro session other same
        cases same
        exact ⟨Session.sound_start _, rfl⟩
      · cases stream <;> rfl

theorem venue_launch (f : Feed) (hasBus : Bool) : (Hub.launch hasBus f).feed.venue = f.venue := by
  have prepared := (advances_prepare { f with publishes := f.publishes || hasBus }).venue
  rcases Hub.feed_launch_cases hasBus f with same | same
  · rw [same]
    exact prepared
  · rw [same]
    exact (advances_start _).venue.trans prepared

end Feed

/-! ## Numbers from several places -/

namespace Hub

/-- Numbers that each place counts from one on do so together when all are of one place, and repeat
when they are not. -/
theorem consecutive_iff_same_place {counted : List (Nat × Nat)}
    (each : ∀ place, ∃ n, atPlace place counted = List.range' 1 n) :
    let all := counted.map Prod.snd
    (all = List.range' 1 all.length ↔ ∀ a ∈ counted, ∀ b ∈ counted, a.1 = b.1) ∧
      (all.Nodup ↔ ∀ a ∈ counted, ∀ b ∈ counted, a.1 = b.1) := by
  intro all
  have first : ∀ a ∈ counted, (a.1, 1) ∈ counted := by
    intro a member
    obtain ⟨n, listed⟩ := each a.1
    have within : a.2 ∈ atPlace a.1 counted := mem_atPlace.2 member
    rw [listed, List.mem_range'_1] at within
    refine mem_atPlace.1 ?_
    rw [listed, List.mem_range'_1]
    omega
  have alone : all.Nodup → ∀ a ∈ counted, ∀ b ∈ counted, a.1 = b.1 := by
    intro distinct a memberA b memberB
    have same : (a.1, 1) = (b.1, 1) :=
      List.inj_on_of_nodup_map distinct (first a memberA) (first b memberB) rfl
    exact (Prod.mk.inj same).1
  have together : (∀ a ∈ counted, ∀ b ∈ counted, a.1 = b.1) → all = List.range' 1 all.length := by
    intro one
    cases counted with
    | nil => rfl
    | cons a rest =>
        obtain ⟨n, listed⟩ := each a.1
        rw [atPlace_of_forall fun b member => one b member a List.mem_cons_self] at listed
        rw [show all = List.range' 1 n from listed, List.length_range']
  have apart : all = List.range' 1 all.length → all.Nodup :=
    fun listed => listed ▸ List.nodup_range'
  exact ⟨⟨fun listed => alone (apart listed), together⟩, alone, fun one => apart (together one)⟩

section Sent

variable {stream : ReportStream} {venue : Venue} {symbol : String} {sent : List (Nat × Effect)}

/-- The numbers under an exchange and a symbol, each with the place that it comes from. -/
def counted (stream : ReportStream) (venue : Venue) (symbol : String) (sent : List (Nat × Effect)) :
    List (Nat × Nat) :=
  sent.filterMap fun entry => (entry.2.number? stream venue symbol).map (entry.1, ·)

theorem atPlace_counted (place : Nat) :
    atPlace place (counted stream venue symbol sent) =
      Effect.numbersOn stream venue symbol (atPlace place sent) := by
  rw [counted, Effect.numbersOn, atPlace, atPlace, List.filterMap_filterMap,
    List.filterMap_filterMap]
  congr 1
  funext entry
  by_cases own : entry.1 = place <;> cases same : entry.2.number? stream venue symbol <;>
    simp [own, same]

theorem map_snd_counted :
    (counted stream venue symbol sent).map Prod.snd =
      Effect.numbersOn stream venue symbol (sent.map Prod.snd) := by
  rw [counted, Effect.numbersOn, List.filterMap_map, List.map_filterMap]
  congr 1
  funext entry
  cases same : entry.2.number? stream venue symbol <;> simp [same]

/-- What is sent under an exchange and a symbol comes from one place. -/
def FromOnePlace (stream : ReportStream) (venue : Venue) (symbol : String)
    (sent : List (Nat × Effect)) : Prop :=
  ∀ p q, Effect.numbersOn stream venue symbol (atPlace p sent) ≠ [] →
    Effect.numbersOn stream venue symbol (atPlace q sent) ≠ [] → p = q

theorem fromOnePlace_iff :
    FromOnePlace stream venue symbol sent ↔
      ∀ a ∈ counted stream venue symbol sent, ∀ b ∈ counted stream venue symbol sent,
        a.1 = b.1 := by
  simp only [FromOnePlace, ← atPlace_counted]
  constructor
  · intro one a memberA b memberB
    exact one _ _ (List.ne_nil_of_mem (mem_atPlace.2 memberA))
      (List.ne_nil_of_mem (mem_atPlace.2 memberB))
  · intro same p q someP someQ
    obtain ⟨a, memberA⟩ := List.exists_mem_of_ne_nil _ someP
    obtain ⟨b, memberB⟩ := List.exists_mem_of_ne_nil _ someQ
    exact same _ (mem_atPlace.1 memberA) _ (mem_atPlace.1 memberB)

theorem consecutive_iff_fromOnePlace
    (each : ∀ place, ∃ n,
      Effect.numbersOn stream venue symbol (atPlace place sent) = List.range' 1 n) :
    let all := Effect.numbersOn stream venue symbol (sent.map Prod.snd)
    (all = List.range' 1 all.length ↔ FromOnePlace stream venue symbol sent) ∧
      (all.Nodup ↔ FromOnePlace stream venue symbol sent) := by
  simp only [← atPlace_counted] at each
  simp only [← map_snd_counted, fromOnePlace_iff]
  exact consecutive_iff_same_place each

end Sent

end Hub

/-! ## Configured feeds -/

/-- The request for a feed of the settings. -/
def Request.configured (sourceOf : FeedSettings → Venue → Source) (feed : FeedSettings) : Request :=
  ⟨feed, sourceOf feed, false⟩

theorem Request.venue?_configured (sourceOf : FeedSettings → Venue → Source) {feed : FeedSettings}
    (passes : feed.check = .ok ()) :
    ∃ venue, feed.venue? = some venue ∧ (configured sourceOf feed).venue? = some venue := by
  obtain ⟨venue, known⟩ := FeedSettings.exists_venue_of_check passes
  refine ⟨venue, known, ?_⟩
  rw [venue?, configured, FeedSettings.resolve_of_venue? known, passes]

namespace Hub

variable {h : Hub} {settings : Settings}

theorem addAll_eq_advanceAll (idle : h.isRunning = false)
    (sourceOf : FeedSettings → Venue → Source) {feeds : List FeedSettings}
    (passes : ∀ feed ∈ feeds, feed.check = .ok ()) :
    h.addAll sourceOf feeds =
      (none, (h.advanceAll ((feeds.map (Request.configured sourceOf)).map .add)).2) := by
  induction feeds generalizing h with
  | nil => rfl
  | cons first rest ih =>
      obtain ⟨checked, later⟩ := List.forall_mem_cons.1 passes
      obtain ⟨venue, _, known⟩ := Request.venue?_configured sourceOf checked
      have accepted : h.accept first = .ok venue :=
        (Request.accept_eq_ok_iff (r := .configured sourceOf first) idle).2 known
      have added : h.add first (sourceOf first) false = .ok { h with
          feeds := h.feeds ++ [h.feedOf venue first (sourceOf first venue) false] } := by
        rw [add, accepted]
        rfl
      have acted : (h.act (.add (.configured sourceOf first))).2 = { h with
          feeds := h.feeds ++ [h.feedOf venue first (sourceOf first venue) false] } := by
        simp only [act, Request.configured, added]
      rw [addAll, added, List.map_cons, List.map_cons, advanceAll]
      simp only [advance, acted]
      exact ih idle later

/-- All feeds of settings that pass are added. -/
theorem addConfigured_eq_registered (passes : settings.check = .ok ())
    (sourceOf : FeedSettings → Venue → Source) :
    (new settings).addConfigured sourceOf =
      (none, registered settings (settings.feeds.map (Request.configured sourceOf))) :=
  addAll_eq_advanceAll rfl sourceOf (Settings.check_feed passes)

/-- Feeds that are configured for different exchanges are of different exchanges. -/
theorem venues_registered (passes : settings.check = .ok ())
    (sourceOf : FeedSettings → Venue → Source) :
    (registered settings (settings.feeds.map (Request.configured sourceOf))).feeds.map
        (some ∘ Feed.venue) = settings.feeds.map FeedSettings.venue? := by
  have each := Settings.check_feed passes
  rw [registered_eq]
  simp only
  generalize settings.feeds = feeds at each
  induction feeds with
  | nil => rfl
  | cons first rest ih =>
      obtain ⟨checked, later⟩ := List.forall_mem_cons.1 each
      obtain ⟨venue, named, known⟩ := Request.venue?_configured sourceOf checked
      have made : (Request.configured sourceOf first).feed? settings =
          some ((new settings).feedOf venue first (sourceOf first venue) false) := by
        rw [Request.feed?, known]
        rfl
      rw [List.map_cons, List.filterMap_cons_some made, List.map_cons, List.map_cons, ih later,
        named]
      rfl

/-! ## Runs -/

/-- What comes of the numbers at one place of a hub that was just started. -/
theorem numbersOn_atPlace (settings : Settings) (requests : List Request)
    (events : List (Nat × Happening)) (place : Nat) (stream : ReportStream) (venue : Venue)
    (symbol : String) :
    let went := (registered settings requests).opened.advanceAll (happenings events)
    let numbers :=
      Effect.numbersOn stream venue symbol (atPlace place (went.1.flatMap Deed.effects))
    numbers = List.range' 1 numbers.length ∧
      (numbers ≠ [] →
        (registered settings requests).feeds[place]?.map Feed.venue = some venue) := by
  intro went numbers
  subst numbers
  cases there : (registered settings requests).feeds[place]? with
  | none =>
      have absent : (registered settings requests).opened.feeds[place]? = none := by
        simp [opened, there]
      rw [atPlace_of_no_feed absent]
      exact ⟨rfl, absurd rfl⟩
  | some f =>
      have found : (registered settings requests).opened.feeds[place]? =
          some (launch (registered settings requests).settings.publishes f).feed := by
        simp [opened, there]
      obtain ⟨source, fresh⟩ := isNew_of_registered (List.mem_of_getElem? there)
      have uncounted := Feed.isUncounted_launch fresh.session
        (registered settings requests).settings.publishes
      rw [(advanceAll_atPlace found events).1]
      obtain ⟨consecutive, own⟩ := uncounted.numbersOn_advanceAll _ stream venue symbol
      exact ⟨consecutive, fun published => congrArg some (f.venue_launch _ ▸ own published)⟩

/-- Feeds of different exchanges do not publish under the same one. -/
theorem fromOnePlace_of_apart {stream : ReportStream} {venue : Venue} {symbol : String}
    {sent : List (Nat × Effect)} (apart : (h.feeds.map (some ∘ Feed.venue)).Nodup)
    (own : ∀ place : Nat, Effect.numbersOn stream venue symbol (atPlace place sent) ≠ [] →
      h.feeds[place]?.map Feed.venue = some venue) :
    FromOnePlace stream venue symbol sent := by
  have named : ∀ place : Nat, h.feeds[place]?.map Feed.venue = some venue →
      (h.feeds.map (some ∘ Feed.venue))[place]? = some (some venue) := by
    intro place there
    rw [List.getElem?_map, ← Option.map_map, there]
    rfl
  intro p q someP someQ
  have ofP := named p (own p someP)
  have ofQ := named q (own q someQ)
  exact (List.getElem?_inj (List.getElem?_eq_some_iff.1 ofP).1 apart).1 (ofP.trans ofQ.symm)

/-- The endpoints of a hub that was just started are sent the lines of what is published. -/
theorem endpoint_of_opened (events : List (Nat × Happening)) {bus : Bus} :
    let went := h.opened.advanceAll (happenings events)
    went.2.bus = some bus → ∀ stream, bus.endpoint stream =
      (Bus.new.endpoint stream).publishAll
        ((Effect.lines stream ((went.1.flatMap Deed.effects).map Prod.snd)).map BusLine.text) := by
  intro went held stream
  have published := held.symm.trans (bus_advanceAll _ events)
  obtain ⟨first, known, rfl⟩ := Option.map_eq_some_iff.1 published.symm
  have fresh : first = .new := by
    simp only [opened] at known
    split at known <;> cases known
    rfl
  rw [Effect.endpoint_publishAll, fresh]

/-- The numbers of a bus that all feeds of the settings share, for every interleaving of what
happens to the feeds. -/
theorem shared_numbers_consecutive_iff {settings : Settings} (passes : settings.check = .ok ())
    (sourceOf : FeedSettings → Venue → Source) {ports : Ports}
    (binds : settings.publishes = true → ports.trades = none ∧ ports.books = none)
    (events : List (Nat × Happening)) :
    let added := (new settings).addConfigured sourceOf
    let start := added.2.advance (.start ports)
    let went := start.2.advanceAll (happenings events)
    let sent := went.1.flatMap Deed.effects
    added.1 = none ∧ start.1.failure = none ∧
      (∀ bus, went.2.bus = some bus → ∀ stream, bus.endpoint stream =
        (Bus.new.endpoint stream).publishAll
          ((Effect.lines stream (sent.map Prod.snd)).map BusLine.text)) ∧
      ∀ stream venue symbol,
        let all := Effect.numbersOn stream venue symbol (sent.map Prod.snd)
        (all = List.range' 1 all.length ↔ FromOnePlace stream venue symbol sent) ∧
          (all.Nodup ↔ FromOnePlace stream venue symbol sent) ∧
          ((settings.feeds.map FeedSettings.venue?).Nodup → all = List.range' 1 all.length) := by
  intro added start went sent
  have configured := addConfigured_eq_registered passes sourceOf
  have venues := venues_registered passes sourceOf
  generalize settings.feeds.map (Request.configured sourceOf) = requests at configured venues
  obtain ⟨bound, started⟩ := advance_start_registered binds requests
  subst sent went start added
  rw [configured]
  simp only [started]
  refine ⟨trivial, trivial, fun bus => endpoint_of_opened events, fun stream venue symbol => ?_⟩
  have each := fun place => numbersOn_atPlace settings requests events place stream venue symbol
  obtain ⟨consecutive, distinct⟩ := consecutive_iff_fromOnePlace fun place => ⟨_, (each place).1⟩
  refine ⟨consecutive, distinct, fun apart => consecutive.2 ?_⟩
  exact fromOnePlace_of_apart (venues ▸ apart) fun place => (each place).2

/-- Feeds of two exchanges, of which one trades twice. -/
theorem shared_numbers_of_two_exchanges :
    let feed (name : String) : FeedSettings :=
      { FeedSettings.default with name := name, symbols := ["BTC-USDT"] }
    let settings : Settings := { Settings.default with feeds := [feed "bybit", feed "binance"] }
    let willing : Source := ⟨.always none, .always none, .always none, .always none⟩
    let ports : Ports := ⟨none, none⟩
    let bought := "\x7b\x22topic\x22:\x22publicTrade.BTCUSDT\x22,\x22data\x22:[\x7b\x22s\x22:" ++
      "\x22BTCUSDT\x22,\x22p\x22:\x2250000.1\x22,\x22v\x22:\x220.01\x22,\x22S\x22:\x22Buy\x22," ++
      "\x22i\x22:\x22123\x22\x7d]\x7d"
    let sold := "\x7b\x22e\x22:\x22trade\x22,\x22s\x22:\x22BTCUSDT\x22,\x22p\x22:\x22100.5\x22," ++
      "\x22q\x22:\x222\x22,\x22m\x22:true,\x22t\x22:7\x7d"
    let events : List (Nat × Happening) := [(0, .arrived 1 (.frame bought)),
      (1, .arrived 2 (.frame sold)), (0, .arrived 3 (.frame bought))]
    let start := ((new settings).addConfigured fun _ _ => willing).2.advance (.start ports)
    let sent := (start.2.advanceAll (happenings events)).1.flatMap Deed.effects
    settings.check = .ok () ∧
      (settings.publishes = true → ports.trades = none ∧ ports.books = none) ∧
      Effect.numbersOn .trades .bybit "BTC-USDT" (sent.map Prod.snd) = [1, 2] ∧
      Effect.numbersOn .trades .binance "BTC-USDT" (sent.map Prod.snd) = [1] := by
  intro feed settings willing ports bought sold events start sent
  have passes : settings.check = .ok () := by decide +kernel
  have binds : settings.publishes = true → ports.trades = none ∧ ports.books = none :=
    fun _ => ⟨rfl, rfl⟩
  have apart : (settings.feeds.map FeedSettings.venue?).Nodup := by decide +kernel
  have two : (Effect.numbersOn .trades .bybit "BTC-USDT" (sent.map Prod.snd)).length = 2 := by
    decide +kernel
  have one : (Effect.numbersOn .trades .binance "BTC-USDT" (sent.map Prod.snd)).length = 1 := by
    decide +kernel
  obtain ⟨_, _, _, each⟩ := shared_numbers_consecutive_iff passes (fun _ _ => willing) binds events
  have bybit := (each .trades .bybit "BTC-USDT").2.2 apart
  have binance := (each .trades .binance "BTC-USDT").2.2 apart
  rw [two] at bybit
  rw [one] at binance
  exact ⟨passes, binds, bybit, binance⟩

/-- Two feeds of one exchange and one symbol both begin with number one. -/
theorem shared_number_repeated :
    let feed : FeedSettings :=
      { FeedSettings.default with name := "bybit", symbols := ["BTC-USDT"] }
    let settings : Settings := { Settings.default with feeds := [feed, feed] }
    let willing : Source := ⟨.always none, .always none, .always none, .always none⟩
    let bought := "\x7b\x22topic\x22:\x22publicTrade.BTCUSDT\x22,\x22data\x22:[\x7b\x22s\x22:" ++
      "\x22BTCUSDT\x22,\x22p\x22:\x2250000.1\x22,\x22v\x22:\x220.01\x22,\x22S\x22:\x22Buy\x22," ++
      "\x22i\x22:\x22123\x22\x7d]\x7d"
    let events : List (Nat × Happening) :=
      [(0, .arrived 1 (.frame bought)), (1, .arrived 2 (.frame bought))]
    let added := (new settings).addConfigured fun _ _ => willing
    let start := added.2.advance (.start ⟨none, none⟩)
    let sent := (start.2.advanceAll (happenings events)).1.flatMap Deed.effects
    settings.check = .ok () ∧ added.1 = none ∧ start.1.failure = none ∧
      Effect.numbersOn .trades .bybit "BTC-USDT" (sent.map Prod.snd) = [1, 1] := by
  decide +kernel

end Hub

end Tape
