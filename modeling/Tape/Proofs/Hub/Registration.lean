import Mathlib.Data.List.Forall2
import Mathlib.Data.List.TakeWhile
import Tape.Proofs.Hub.Isolation

/-!
# Adding the configured feeds

The feeds of the settings are added one after the other, up to the first that is refused; those
before it stay. A hub that does not run refuses a feed for what is wrong with its settings and for
nothing else, so settings that pass have all their feeds added, with the options that they ask for.
-/

namespace Tape

/-- How a flaw is told by a hub that was asked for the feed. -/
def FeedFlaw.error : FeedFlaw → FeedError
  | unsupportedVenue name => .unsupportedVenue name
  | flaw => .settings flaw.message

namespace FeedSettings

variable {feed : FeedSettings} {flaw : FeedFlaw} {venue : Venue}

/-- What a hub that does not run has against the feed. -/
def refusal? (feed : FeedSettings) : Option FeedError :=
  match feed.check with
  | .ok _ => none
  | .error flaw => some flaw.error

def passes (feed : FeedSettings) : Bool := feed.refusal?.isNone

theorem refusal?_eq_some_iff {error : FeedError} :
    feed.refusal? = some error ↔ ∃ flaw, feed.check = .error flaw ∧ error = flaw.error := by
  rw [refusal?]
  cases feed.check with
  | ok _ => simp
  | error flaw => simp [eq_comm]

theorem refusal?_eq_none_iff : feed.refusal? = none ↔ feed.check = .ok () := by
  rw [refusal?]
  cases feed.check with
  | ok _ => exact ⟨fun _ => rfl, fun _ => rfl⟩
  | error flaw => exact ⟨nofun, nofun⟩

theorem passes_iff : feed.passes = true ↔ feed.check = .ok () :=
  Option.isNone_iff_eq_none.trans refusal?_eq_none_iff

theorem resolve_of_venue? (known : feed.venue? = some venue) :
    Venue.resolve feed.name = .ok venue := by
  rw [Venue.resolve, show Venue.ofName? feed.name = some venue from known]

theorem resolve_of_no_venue (unknown : feed.venue? = none) :
    Venue.resolve feed.name = .error (.unsupportedVenue feed.name) := by
  rw [Venue.resolve, show Venue.ofName? feed.name = none from unknown]

theorem check_of_no_venue (unknown : feed.venue? = none) :
    feed.check = .error (.unsupportedVenue feed.name) := by
  rw [check, unknown]
  rfl

theorem checkUrl_ne_unsupportedVenue (url name : String) :
    checkUrl url ≠ .error (.unsupportedVenue name) := by
  rw [checkUrl]
  split
  · exact nofun
  · split <;> exact nofun

/-- Of a feed whose venue is known, another flaw is found. -/
theorem error_of_check (known : feed.venue? = some venue) (flawed : feed.check = .error flaw) :
    flaw.error = .settings flaw.message := by
  cases flaw with
  | unsupportedVenue name =>
      simp only [check, known, Option.isNone_some, Bool.false_eq_true, if_false] at flawed
      repeat' split at flawed
      all_goals first | exact absurd flawed (checkUrl_ne_unsupportedVenue _ _) | cases flawed
  | noSymbols name => rfl
  | emptySymbol name => rfl
  | noChannel name => rfl
  | zeroInterval name => rfl
  | badUrl url flaw => rfl
  | foreignScheme url => rfl

end FeedSettings

namespace Hub

variable {h : Hub} {sourceOf : FeedSettings → Venue → Source}

/-! ## One feed -/

/-- The feed that a hub makes of settings that pass. -/
structure Makes (h : Hub) (sourceOf : FeedSettings → Venue → Source) (feed : FeedSettings)
    (f : Feed) : Prop where
  passes : feed.check = .ok ()
  venue : feed.venue? = some f.venue
  symbols : f.symbols = feed.symbols
  trades : f.trades = feed.trades
  books : f.books = feed.books
  options : f.options = h.settings.options.clamp
  isNew : f.IsNew (sourceOf feed f.venue)

/-- A hub that does not run has the feed added behind the others, or tells its flaw. -/
theorem add_cases (idle : h.isRunning = false) (sourceOf : FeedSettings → Venue → Source)
    (feed : FeedSettings) :
    (∃ f, h.Makes sourceOf feed f ∧
      h.add feed (sourceOf feed) false = .ok { h with feeds := h.feeds ++ [f] }) ∨
    ∃ error, feed.refusal? = some error ∧ h.add feed (sourceOf feed) false = .error error := by
  cases known : feed.venue? with
  | none =>
      refine .inr ⟨.unsupportedVenue feed.name, ?_, ?_⟩
      · rw [FeedSettings.refusal?, FeedSettings.check_of_no_venue known]
        rfl
      · simp only [add, accept, idle, FeedSettings.resolve_of_no_venue known]
        rfl
  | some venue =>
      have resolved := FeedSettings.resolve_of_venue? known
      cases checked : feed.check with
      | ok _ =>
          refine .inl ⟨h.feedOf venue feed (sourceOf feed venue) false, ?_, ?_⟩
          · exact ⟨checked, known, rfl, rfl, rfl, rfl, rfl, rfl, rfl⟩
          · rw [add, accept_eq_ok_iff.2 ⟨idle, resolved, checked⟩]
            rfl
      | error flaw =>
          refine .inr ⟨flaw.error, ?_, ?_⟩
          · rw [FeedSettings.refusal?, checked]
          · rw [FeedSettings.error_of_check known checked]
            simp only [add, accept, idle, resolved, checked]
            rfl

/-! ## All feeds -/

/-- The feeds before the first that is refused are added, and what is said is against that one. -/
theorem addAll_eq (idle : h.isRunning = false) (sourceOf : FeedSettings → Venue → Source)
    (feeds : List FeedSettings) :
    ∃ added, List.Forall₂ (h.Makes sourceOf) (feeds.takeWhile FeedSettings.passes) added ∧
      h.addAll sourceOf feeds =
        (feeds.findSome? FeedSettings.refusal?, { h with feeds := h.feeds ++ added }) := by
  induction feeds generalizing h with
  | nil => exact ⟨[], .nil, by rw [List.append_nil]; rfl⟩
  | cons feed rest ih =>
      rw [addAll]
      rcases add_cases idle sourceOf feed with ⟨f, makes, made⟩ | ⟨error, refused, made⟩
      · have accepted := FeedSettings.refusal?_eq_none_iff.2 makes.passes
        obtain ⟨added, each, later⟩ := ih (h := { h with feeds := h.feeds ++ [f] }) idle
        refine ⟨f :: added, ?_, ?_⟩
        · rw [List.takeWhile_cons_of_pos (FeedSettings.passes_iff.2 makes.passes)]
          -- The hub makes the same of the later feeds, whichever feeds it has.
          exact .cons makes (each.imp fun _ _ makes => { makes with })
        · rw [List.findSome?_cons, accepted, made]
          simp only [later, List.append_assoc, List.singleton_append]
      · have unaccepted : ¬ feed.passes = true := by simp [FeedSettings.passes, refused]
        refine ⟨[], ?_, ?_⟩
        · rw [List.takeWhile_cons_of_neg unaccepted]
          exact .nil
        · rw [List.findSome?_cons, refused, made, List.append_nil]

/-- A hub that does not run adds the feeds of its settings in order, each with what it asks for, up
to the first that is refused. All are added just when none is refused, and the hub has the feeds
that it had before, and no other, just when that is the first of all, or there are none. -/
theorem addConfigured_adds_up_to_refusal (idle : h.isRunning = false)
    (sourceOf : FeedSettings → Venue → Source) :
    let result := h.addConfigured sourceOf
    let accepted := h.settings.feeds.takeWhile FeedSettings.passes
    ∃ added, List.Forall₂ (h.Makes sourceOf) accepted added ∧
      result = (h.settings.feeds.findSome? FeedSettings.refusal?,
        { h with feeds := h.feeds ++ added }) ∧
      (result.1 = none ↔ accepted = h.settings.feeds) ∧
      (result.2.feeds = h.feeds ↔ accepted = []) := by
  intro result accepted
  obtain ⟨added, each, made⟩ := addAll_eq idle sourceOf h.settings.feeds
  have same : result = _ := made
  refine ⟨added, each, same, ?_, ?_⟩
  · rw [same, List.findSome?_eq_none_iff, List.takeWhile_eq_self_iff]
    exact forall₂_congr fun _ _ => Option.isNone_iff_eq_none.symm
  · rw [same, List.append_right_eq_self, ← List.length_eq_zero_iff, ← each.length_eq,
      List.length_eq_zero_iff]

/-- The feeds that a hub had and the one before the refused feed are there, the one after it is
not. -/
theorem addConfigured_adds_up_to_refusal_of_unknown_venue :
    let feed (name : String) : FeedSettings :=
      { FeedSettings.default with name := name, symbols := ["BTC-USDT"] }
    let settings : Settings :=
      { Settings.default with feeds := [feed "bybit", feed "ftx", feed "dydx"] }
    let willing : Source := ⟨.always none, .always none, .always none, .always none⟩
    let held : Feed := .new .binance ["ETH-USDT"] willing
    let h : Hub := { new settings with feeds := [held] }
    let result := h.addConfigured fun _ _ => willing
    h.isRunning = false ∧ result.1 = some (.unsupportedVenue "ftx") ∧
      ∃ f, result.2.feeds = [held, f] ∧ some f.venue = some .bybit := by
  intro feed settings willing held h result
  have idle : h.isRunning = false := rfl
  obtain ⟨added, each, made, _, _⟩ :=
    addConfigured_adds_up_to_refusal idle fun _ _ => willing
  have accepted : h.settings.feeds.takeWhile FeedSettings.passes = [feed "bybit"] := by
    decide +kernel
  have refused : h.settings.feeds.findSome? FeedSettings.refusal? =
      some (.unsupportedVenue "ftx") := by decide +kernel
  rw [accepted] at each
  rw [refused] at made
  obtain ⟨f, _, makes, ⟨⟩, rfl⟩ := List.forall₂_cons_left_iff.1 each
  have bybit : (feed "bybit").venue? = some .bybit := by decide +kernel
  have same : result = (some (.unsupportedVenue "ftx"), { h with feeds := [held, f] }) := made
  rw [same]
  exact ⟨idle, rfl, f, rfl, makes.venue.symm.trans bybit⟩

/-- A refusal does not take back the feed that was added before it. -/
theorem feed_stays_after_refusal :
    let feed (name : String) : FeedSettings :=
      { FeedSettings.default with name := name, symbols := ["BTC-USDT"] }
    let h := new { Settings.default with feeds := [feed "bybit", feed "ftx"] }
    let result := h.addConfigured fun _ _ => .unreachable (.settings "no network")
    h.isRunning = false ∧ result.1 = some (.unsupportedVenue "ftx") ∧
      result.2.feeds.map Feed.venue = [.bybit] ∧ result.2.feeds ≠ h.feeds := by
  intro feed h result
  have refused : result.1 = some (.unsupportedVenue "ftx") := by decide +kernel
  have kept : result.2.feeds.map Feed.venue = [.bybit] := by decide +kernel
  refine ⟨rfl, refused, kept, fun same => ?_⟩
  rw [same] at kept
  cases kept

end Hub

/-! ## Settings that pass -/

namespace Settings

variable {settings : Settings}

/-- Settings that pass have options that a feed can run with, and only feeds that pass. -/
theorem parts_of_check (passes : settings.check = .ok ()) :
    settings.options.clamp = settings.options ∧
      (settings.feeds.forM fun feed => feed.check.mapError SettingsFlaw.feed) = .ok () := by
  unfold check at passes
  split at passes
  next => cases passes
  next depth =>
    split at passes
    next => cases passes
    next window =>
      refine ⟨OutputOptions.clamp_eq_self ?_ (Nat.one_le_iff_ne_zero.2 window), ?_⟩
      · simp only [Bool.or_eq_true, decide_eq_true_eq, not_or, Nat.not_lt] at depth
        exact ⟨Nat.one_le_iff_ne_zero.2 depth.1, depth.2⟩
      · repeat' split at passes
        all_goals first | exact passes | cases passes

/-- Settings that pass have only feeds that pass. -/
theorem check_feed (passes : settings.check = .ok ()) :
    ∀ feed ∈ settings.feeds, feed.check = .ok () := by
  have all := (parts_of_check passes).2
  clear passes
  generalize settings.feeds = feeds at all ⊢
  induction feeds with
  | nil => exact fun _ member => (List.not_mem_nil member).elim
  | cons first rest ih =>
      rw [List.forM] at all
      cases checked : first.check with
      | error flaw =>
          rw [checked] at all
          cases all
      | ok _ =>
          rw [checked] at all
          exact List.forall_mem_cons.2 ⟨checked, ih all⟩

end Settings

namespace Hub

variable {h : Hub} {sourceOf : FeedSettings → Venue → Source}

/-- A new hub adds all feeds of settings that pass, each of the venue that its name means, with its
symbols and with just the options of the settings. Of any settings it tells the flaw of the first
feed that does not pass, and of nothing else. -/
theorem addConfigured_follows_check (settings : Settings)
    (sourceOf : FeedSettings → Venue → Source) :
    let result := (new settings).addConfigured sourceOf
    (settings.check = .ok () → result.1 = none ∧
      List.Forall₂ (fun feed f => (new settings).Makes sourceOf feed f ∧
        f.options = settings.options) settings.feeds result.2.feeds) ∧
    (result.1 = none ↔ ∀ feed ∈ settings.feeds, feed.check = .ok ()) ∧
    ∀ error, result.1 = some error ↔ ∃ before bad after flaw,
      settings.feeds = before ++ bad :: after ∧ (∀ feed ∈ before, feed.check = .ok ()) ∧
        bad.check = .error flaw ∧ error = flaw.error := by
  intro result
  obtain ⟨added, each, made⟩ := addAll_eq (h := new settings) rfl sourceOf settings.feeds
  have same : result = (settings.feeds.findSome? FeedSettings.refusal?,
      { new settings with feeds := added }) := made
  have accepts : result.1 = none ↔ ∀ feed ∈ settings.feeds, feed.check = .ok () := by
    rw [same, List.findSome?_eq_none_iff]
    exact forall₂_congr fun _ _ => FeedSettings.refusal?_eq_none_iff
  refine ⟨fun passes => ?_, accepts, fun error => ?_⟩
  · have all := Settings.check_feed passes
    refine ⟨accepts.2 all, ?_⟩
    rw [List.takeWhile_eq_self_iff.2 fun feed member => FeedSettings.passes_iff.2 (all feed member)]
      at each
    rw [same]
    refine each.imp fun feed f makes => ⟨makes, ?_⟩
    exact makes.options.trans (Settings.parts_of_check passes).1
  · rw [same, List.findSome?_eq_some_iff]
    constructor
    · rintro ⟨before, bad, after, listed, refused, earlier⟩
      obtain ⟨flaw, flawed, told⟩ := FeedSettings.refusal?_eq_some_iff.1 refused
      refine ⟨before, bad, after, flaw, listed, fun feed member => ?_, flawed, told⟩
      exact FeedSettings.refusal?_eq_none_iff.1 (earlier feed member)
    · rintro ⟨before, bad, after, flaw, listed, earlier, flawed, told⟩
      refine ⟨before, bad, after, listed, ?_, fun feed member => ?_⟩
      · exact FeedSettings.refusal?_eq_some_iff.2 ⟨flaw, flawed, told⟩
      · exact FeedSettings.refusal?_eq_none_iff.2 (earlier feed member)

/-- Names in any case and with blanks around them, and settings of which the second feed does not
pass. -/
theorem addConfigured_follows_check_of_two_feeds :
    let feed (name : String) (symbols : List String) : FeedSettings :=
      { FeedSettings.default with name := name, symbols := symbols }
    let settings (feeds : List FeedSettings) : Settings :=
      { Settings.default with deltas := true, checkpoints := true, depth := 5, feeds := feeds }
    let good := settings [feed " ByBit " ["BTC-USDT"], feed "UNISWAP_V4" ["WETH-USDC"]]
    let bad := settings [feed "bybit" ["BTC-USDT"], feed "dydx" [" "], feed "ftx" []]
    let source (_ : FeedSettings) (_ : Venue) : Source := .unreachable (.settings "no network")
    good.check = .ok () ∧ ((new good).addConfigured source).1 = none ∧
      (∃ f g, ((new good).addConfigured source).2.feeds = [f, g] ∧
        some f.venue = some .bybit ∧ some g.venue = some .uniswap ∧
        f.options = ⟨.deltas (some 1000), 5, 20⟩ ∧ g.symbols = ["WETH-USDC"]) ∧
      ((new bad).addConfigured source).1 =
        some (.settings "Feed dydx has an empty symbol") := by
  intro feed settings good bad source
  have passes : good.check = .ok () := by decide +kernel
  obtain ⟨added, each⟩ := (addConfigured_follows_check good source).1 passes
  obtain ⟨f, _, ⟨first, options⟩, later, two⟩ := List.forall₂_cons_left_iff.1 each
  obtain ⟨g, _, ⟨second, _⟩, ⟨⟩, rfl⟩ := List.forall₂_cons_left_iff.1 later
  have bybit : (feed " ByBit " ["BTC-USDT"]).venue? = some .bybit := by decide +kernel
  have uniswap : (feed "UNISWAP_V4" ["WETH-USDC"]).venue? = some .uniswap := by decide +kernel
  refine ⟨passes, added, ⟨f, g, two, ?_, ?_, options, second.symbols⟩, ?_⟩
  · exact first.venue.symm.trans bybit
  · exact second.venue.symm.trans uniswap
  · refine ((addConfigured_follows_check bad source).2.2 _).2 ⟨[feed "bybit" ["BTC-USDT"]],
      feed "dydx" [" "], [feed "ftx" []], .emptySymbol "dydx", rfl, ?_, by decide +kernel, rfl⟩
    decide +kernel

end Hub

end Tape
