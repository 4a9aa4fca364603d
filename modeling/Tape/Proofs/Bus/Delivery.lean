import Mathlib.Data.List.Induction
import Tape.Bus.Endpoint

/-!
# What a subscriber is sent

Subscribers come to an endpoint at any time and are served at their own pace, while frames are
published. Each one is followed by the places of the frames that were written to it, counted from
when it came: they rise, and every other frame that it has passed is counted as lost.
-/

namespace Tape

namespace Broadcast

variable {c : Broadcast} {r : Receiver} {frames : List String}

/-- Of the frames that were sent a channel keeps the newest. -/
structure Keeps (c : Broadcast) (frames : List String) : Prop where
  sent : c.sent = frames.length
  kept : c.kept = frames.drop (frames.length - c.capacity)

theorem keeps_new (capacity : Nat) : (new capacity).Keeps [] where
  sent := rfl
  kept := by rw [List.drop_nil, new]

theorem Keeps.length_kept (keeps : c.Keeps frames) :
    c.kept.length = frames.length - (frames.length - c.capacity) := by
  rw [keeps.kept, List.length_drop]

theorem Keeps.oldest (keeps : c.Keeps frames) : c.oldest = frames.length - c.capacity := by
  rw [Broadcast.oldest, keeps.length_kept, keeps.sent]
  omega

theorem Keeps.send (keeps : c.Keeps frames) (frame : String) :
    (c.send frame).Keeps (frames ++ [frame]) where
  sent := by rw [List.length_append, ← keeps.sent, Broadcast.send, List.length_singleton]
  kept := by
    have gone : frames.length - c.capacity ≤ frames.length := Nat.sub_le _ _
    have places : frames.length - c.capacity + (c.kept.length + 1 - c.capacity) =
        (frames ++ [frame]).length - c.capacity := by
      rw [keeps.length_kept, List.length_append, List.length_singleton]
      omega
    calc (c.send frame).kept
        = (c.kept ++ [frame]).drop (c.kept.length + 1 - c.capacity) := rfl
      _ = ((frames ++ [frame]).drop (frames.length - c.capacity)).drop
            (c.kept.length + 1 - c.capacity) := by
          rw [List.drop_append_of_le_length gone, ← keeps.kept]
      _ = (frames ++ [frame]).drop ((frames ++ [frame]).length - c.capacity) := by
          rw [List.drop_drop, places]

/-- All that an attempt to receive can give. -/
theorem receive_cases (keeps : c.Keeps frames) (reached : r.next ≤ frames.length) :
    (r.next < frames.length - c.capacity ∧
        c.receive r = (.lagged (frames.length - c.capacity - r.next),
          ⟨frames.length - c.capacity⟩)) ∨
      (∃ frame, frames[r.next]? = some frame ∧
        c.receive r = (.value frame, ⟨r.next + 1⟩)) ∨
      r.next = frames.length ∧ c.receive r = (if c.closed then .closed else .nothing, r) := by
  rw [receive, keeps.oldest]
  split
  next behind => exact .inl ⟨behind, rfl⟩
  next near =>
    have place : frames.length - c.capacity + (r.next - (frames.length - c.capacity)) =
        r.next := by omega
    have kept : c.kept[r.next - (frames.length - c.capacity)]? = frames[r.next]? := by
      rw [keeps.kept, List.getElem?_drop, place]
    rw [kept]
    cases held : frames[r.next]? with
    | some frame => exact .inr (.inl ⟨frame, rfl, rfl⟩)
    | none => exact .inr (.inr ⟨Nat.le_antisymm reached (List.getElem?_eq_none_iff.1 held), rfl⟩)

end Broadcast

namespace Subscriber

variable {s : Subscriber} {c : Broadcast} {older frames : List String} {seen : List Nat}

/-! ## One subscriber -/

/-- All that a turn of a running service can do. -/
theorem serve_cases (running : s.service = .running) (keeps : c.Keeps frames)
    (reached : s.receiver.next ≤ frames.length) (writes : Bool) :
    (s.receiver.next < frames.length - c.capacity ∧
        s.serve c writes =
          { s with
            receiver := ⟨frames.length - c.capacity⟩
            lost := s.lost + (frames.length - c.capacity - s.receiver.next) }) ∨
      (∃ frame, frames[s.receiver.next]? = some frame ∧
        s.serve c writes =
          if writes then
            { s with receiver := ⟨s.receiver.next + 1⟩, received := s.received ++ [frame] }
          else { s with receiver := ⟨s.receiver.next + 1⟩, service := .broken }) ∨
      s.receiver.next = frames.length ∧
        s.serve c writes = if c.closed then { s with service := .ended } else s := by
  rw [serve, if_pos running]
  rcases Broadcast.receive_cases keeps reached with
    ⟨behind, same⟩ | ⟨frame, held, same⟩ | ⟨here, same⟩
  · exact .inl ⟨behind, by rw [same]⟩
  · exact .inr (.inl ⟨frame, held, by rw [same]⟩)
  · refine .inr (.inr ⟨here, ?_⟩)
    rw [same]
    cases c.closed <;> rfl

theorem serve_of_stopped (stopped : s.service ≠ .running) (c : Broadcast) (writes : Bool) :
    s.serve c writes = s := by
  rw [serve, if_neg stopped]

/-- How many of the frames since it came were written to a subscriber or lost. -/
def passed (s : Subscriber) (seen : List Nat) : Nat := seen.length + s.lost

/-- How many frames were received for a subscriber and could not be written. -/
def unwritten (s : Subscriber) : Nat := if s.service = .broken then 1 else 0

/-- A subscriber has drained a channel when all frames up to now were received for it, and each was
written that was received. -/
structure Drained (s : Subscriber) (c : Broadcast) : Prop where
  received : s.receiver.next = c.sent
  written : s.service ≠ .broken

/-- Of the frames since it came, those at some places were written to a subscriber, and it has lost
all others up to where it stands. -/
structure Follows (s : Subscriber) (before : Nat) (frames : List String) (seen : List Nat) :
    Prop where
  rising : seen.Pairwise (· < ·)
  inside : ∀ place ∈ seen, place < s.passed seen
  read : s.received.map some = seen.map (frames[·]?)
  sublist : s.received.Sublist (frames.take (s.passed seen))
  position : s.receiver.next = before + s.passed seen + s.unwritten
  reached : s.passed seen + s.unwritten ≤ frames.length
  last : seen.getLast? = some (s.passed seen - 1) ∨ s.passed seen = 0 ∨
    s.passed seen < frames.length
  whole : s.lost = 0 → s.received = frames.take seen.length
  ended : s.service = .ended → s.passed seen = frames.length

theorem follows_accept (keeps : c.Keeps older) : (accept c).Follows older.length [] [] where
  rising := .nil
  inside := fun _ impossible => nomatch impossible
  read := rfl
  sublist := .slnil
  position := keeps.sent
  reached := Nat.le_refl _
  last := .inr (.inl rfl)
  whole := fun _ => rfl
  ended := nofun

theorem Follows.passed_le {before : Nat} (follows : s.Follows before frames seen) :
    s.passed seen ≤ frames.length :=
  Nat.le_trans (Nat.le_add_right _ _) follows.reached

theorem Follows.publish {before : Nat} (follows : s.Follows before frames seen)
    (goesOn : s.service ≠ .ended) (frame : String) :
    s.Follows before (frames ++ [frame]) seen where
  rising := follows.rising
  inside := follows.inside
  read := by
    rw [follows.read]
    refine List.map_congr_left fun place member => (List.getElem?_append_left ?_).symm
    exact Nat.lt_of_lt_of_le (follows.inside place member) follows.passed_le
  sublist := by
    rw [List.take_append_of_le_length follows.passed_le]
    exact follows.sublist
  position := follows.position
  reached := by
    have reached := follows.reached
    rw [List.length_append]
    omega
  last := by
    refine follows.last.imp_right (.imp_right fun open' => ?_)
    rw [List.length_append]
    omega
  whole := by
    intro none
    have reached := follows.passed_le
    rw [follows.whole none, List.take_append_of_le_length]
    rw [passed] at reached
    omega
  ended := fun impossible => absurd impossible goesOn

section Running

variable (running : s.service = .running)
include running

theorem unwritten_of_running : s.unwritten = 0 := by
  rw [unwritten, running]
  rfl

/-- A subscriber that is told of a loss goes on with the oldest frame that is kept. -/
theorem Follows.skip (follows : s.Follows older.length frames seen) {oldest : Nat}
    (behind : s.receiver.next < oldest) (kept : oldest < older.length + frames.length) :
    Follows { s with receiver := ⟨oldest⟩, lost := s.lost + (oldest - s.receiver.next) }
      older.length frames seen := by
  have position := follows.position
  have none := unwritten_of_running running
  have further : passed { s with
      receiver := ⟨oldest⟩, lost := s.lost + (oldest - s.receiver.next) } seen =
        s.passed seen + (oldest - s.receiver.next) := (Nat.add_assoc _ _ _).symm
  have same : unwritten { s with
      receiver := ⟨oldest⟩, lost := s.lost + (oldest - s.receiver.next) } = s.unwritten := rfl
  exact {
    rising := follows.rising
    inside := fun place member => by
      have inside := follows.inside place member
      omega
    read := follows.read
    sublist := follows.sublist.trans (List.take_sublist_take_left (by omega))
    position := by
      rw [further, same]
      change oldest = _
      omega
    reached := by omega
    last := .inr (.inr (by omega))
    whole := fun none => by
      change s.lost + (oldest - s.receiver.next) = 0 at none
      omega
    ended := fun impossible => nomatch running.symm.trans impossible }

/-- A frame that is written is the next one. -/
theorem Follows.take (follows : s.Follows older.length frames seen) {frame : String}
    (next : frames[s.passed seen]? = some frame) :
    Follows { s with receiver := ⟨s.receiver.next + 1⟩, received := s.received ++ [frame] }
      older.length frames (seen ++ [s.passed seen]) := by
  have none := unwritten_of_running running
  have further : passed { s with
      receiver := ⟨s.receiver.next + 1⟩, received := s.received ++ [frame] }
        (seen ++ [s.passed seen]) = s.passed seen + 1 := by
    simp only [passed, List.length_append, List.length_singleton]
    omega
  have same : unwritten { s with
      receiver := ⟨s.receiver.next + 1⟩, received := s.received ++ [frame] } = 0 := none
  have taken : frames.take (s.passed seen + 1) = frames.take (s.passed seen) ++ [frame] := by
    rw [List.take_add_one, next]
    rfl
  exact {
    rising := List.pairwise_append.2 ⟨follows.rising, List.pairwise_singleton _ _,
      fun place member other same => List.mem_singleton.1 same ▸ follows.inside place member⟩
    inside := fun place member => by
      rw [further]
      rcases List.mem_append.1 member with here | here
      · exact Nat.lt_succ_of_lt (follows.inside place here)
      · rw [List.mem_singleton.1 here]
        exact Nat.lt_succ_self _
    read := by
      rw [List.map_append, List.map_append, follows.read, List.map_singleton, List.map_singleton,
        next]
    sublist := by
      rw [further, taken]
      exact follows.sublist.append (List.Sublist.refl _)
    position := by
      have position := follows.position
      rw [further, same]
      change s.receiver.next + 1 = _
      omega
    reached := by
      rw [further, same]
      exact (List.getElem?_eq_some_iff.1 next).1
    last := .inl (by
      rw [further, List.getLast?_append, Nat.add_sub_cancel]
      rfl)
    whole := fun none => by
      have same : s.passed seen = seen.length := congrArg (seen.length + ·) none
      rw [List.length_append, List.length_singleton, ← same, taken, same]
      exact congrArg (· ++ [frame]) (follows.whole none)
    ended := fun impossible => nomatch running.symm.trans impossible }

/-- A frame that cannot be written is the last one that is received. -/
theorem Follows.break (follows : s.Follows older.length frames seen) {frame : String}
    (next : frames[s.passed seen]? = some frame) :
    Follows { s with receiver := ⟨s.receiver.next + 1⟩, service := .broken } older.length frames
      seen where
  rising := follows.rising
  inside := follows.inside
  read := follows.read
  sublist := follows.sublist
  position := by
    have position := follows.position
    rw [unwritten_of_running running] at position
    exact congrArg (· + 1) position
  reached := (List.getElem?_eq_some_iff.1 next).1
  last := .inr (.inr (List.getElem?_eq_some_iff.1 next).1)
  whole := follows.whole
  ended := nofun

theorem Follows.finish (follows : s.Follows older.length frames seen)
    (all : s.passed seen = frames.length) :
    Follows { s with service := .ended } older.length frames seen where
  rising := follows.rising
  inside := follows.inside
  read := follows.read
  sublist := follows.sublist
  position := by
    have position := follows.position
    rw [unwritten_of_running running] at position
    exact position
  reached := Nat.le_of_eq all
  last := follows.last
  whole := follows.whole
  ended := fun _ => all

end Running

/-- A turn of the service goes on with the places, and loses nothing while no more is outstanding
than the channel keeps. It ends when the channel has closed and all is written. -/
theorem Follows.serve (follows : s.Follows older.length frames seen)
    (keeps : c.Keeps (older ++ frames)) (room : 0 < c.capacity) (writes : Bool) :
    (∃ seen', (s.serve c writes).Follows older.length frames seen') ∧
      (c.sent - s.receiver.next ≤ c.capacity → (s.serve c writes).lost = s.lost) ∧
      ((s.serve c writes).service = .ended → s.service = .ended ∨ c.closed = true) := by
  by_cases running : s.service = .running
  · have length : (older ++ frames).length = older.length + frames.length := List.length_append
    have none := unwritten_of_running running
    have position := follows.position
    have reached := follows.reached
    rcases serve_cases running keeps (by omega) writes with
      ⟨behind, same⟩ | ⟨frame, held, same⟩ | ⟨here, same⟩
    · rw [same, keeps.sent]
      refine ⟨⟨seen, follows.skip running behind ?_⟩, fun near => ?_, .inl⟩ <;> omega
    · rw [follows.position, none, Nat.add_zero,
        List.getElem?_append_right (Nat.le_add_right _ _), Nat.add_sub_cancel_left] at held
      rw [same]
      cases writes with
      | true => exact ⟨⟨_, follows.take running held⟩, fun _ => rfl, .inl⟩
      | false => exact ⟨⟨_, follows.break running held⟩, fun _ => rfl, nofun⟩
    · rw [same]
      cases closed : c.closed with
      | true => exact ⟨⟨_, follows.finish running (by omega)⟩, fun _ => rfl, fun _ => .inr rfl⟩
      | false => exact ⟨⟨seen, follows⟩, fun _ => rfl, .inl⟩
  · rw [serve_of_stopped running]
    exact ⟨⟨seen, follows⟩, fun _ => rfl, .inl⟩

/-- When the channel is drained, all frames are written or lost, and the last one is written. -/
theorem Follows.drained (follows : s.Follows older.length frames seen)
    (keeps : c.Keeps (older ++ frames)) (drained : s.Drained c) :
    s.passed seen = frames.length ∧ (frames ≠ [] → seen.getLast? = some (frames.length - 1)) := by
  have length : (older ++ frames).length = older.length + frames.length := List.length_append
  have position := follows.position
  have none : s.unwritten = 0 := if_neg drained.written
  have received := drained.received
  rw [keeps.sent] at received
  have all : s.passed seen = frames.length := by omega
  refine ⟨all, fun some => ?_⟩
  rcases follows.last with last | none | open'
  · rw [last, all]
  · rw [all] at none
    exact absurd (List.eq_nil_of_length_eq_zero none) some
  · omega

/-- A service that has ended has drained the channel. -/
theorem Follows.drained_of_ended (follows : s.Follows older.length frames seen)
    (keeps : c.Keeps (older ++ frames)) (ended : s.service = .ended) : s.Drained c where
  received := by
    have none : s.unwritten = 0 := by
      rw [unwritten, ended]
      rfl
    rw [keeps.sent, List.length_append, follows.position, follows.ended ended, none, Nat.add_zero]
  written := by
    rw [ended]
    exact Service.noConfusion

/-- What was written last is what stands at the last place. -/
theorem Follows.getLast?_received {before place : Nat} (follows : s.Follows before frames seen)
    (last : seen.getLast? = some place) : s.received.getLast? = frames[place]? := by
  have images := congrArg List.getLast? follows.read
  rw [List.getLast?_map, List.getLast?_map, last] at images
  cases held : s.received.getLast? with
  | none =>
      rw [held] at images
      cases images
  | some frame =>
      rw [held] at images
      exact Option.some.inj images

theorem Follows.sublist_frames {before : Nat} (follows : s.Follows before frames seen) :
    s.received.Sublist frames :=
  follows.sublist.trans (List.take_sublist _ _)

/-- When the channel is drained, the last frame that was written is the last one of all. -/
theorem Follows.getLast?_of_drained (follows : s.Follows older.length frames seen)
    (keeps : c.Keeps (older ++ frames)) (drained : s.Drained c) :
    s.received.getLast? = frames.getLast? := by
  by_cases some : frames = []
  · have none : s.received.Sublist [] := some ▸ follows.sublist_frames
    rw [List.sublist_nil.1 none, some]
  · rw [follows.getLast?_received ((follows.drained keeps drained).2 some),
      List.getLast?_eq_getElem?]

theorem Follows.prefix_of_lossless {before : Nat} (follows : s.Follows before frames seen)
    (none : s.lost = 0) : s.received <+: frames := by
  rw [follows.whole none]
  exact List.take_prefix _ _

/-- When the channel is drained and nothing was lost, all frames were written. -/
theorem Follows.received_of_lossless (follows : s.Follows older.length frames seen)
    (keeps : c.Keeps (older ++ frames)) (drained : s.Drained c) (none : s.lost = 0) :
    s.received = frames := by
  have passed := (follows.drained keeps drained).1
  rw [Subscriber.passed, none, Nat.add_zero] at passed
  rw [follows.whole none, passed, List.take_length]

end Subscriber

/-! ## Many subscribers -/

namespace Audience

/-- What an act publishes. -/
def sentBy (a : Audience) : Act → List String
  | .publish frame => if a.isClosed then [] else [frame]
  | _ => []

/-- What acts publish one after another. -/
def published (a : Audience) : List Act → List String
  | [] => []
  | act :: rest => a.sentBy act ++ (a.act act).published rest

/-- How many frames wait for the subscriber at a place. -/
def outstanding (a : Audience) (place : Nat) : Nat :=
  (a.subscribers[place]?).elim 0 fun s => a.endpoint.channel.sent - s.receiver.next

variable {a : Audience} {place : Nat} {older frames : List String} {s : Subscriber}
  {seen : List Nat}

theorem published_append (a : Audience) (first second : List Act) :
    a.published (first ++ second) = a.published first ++ (a.actAll first).published second := by
  induction first generalizing a with
  | nil => rfl
  | cons act rest ih =>
      rw [List.cons_append, published, published, ih, List.append_assoc]
      rfl

theorem capacity_act (a : Audience) (act : Act) :
    (a.act act).endpoint.channel.capacity = a.endpoint.channel.capacity := by
  cases act with
  | publish frame =>
      rw [Audience.act]
      split <;> rfl
  | accept =>
      rw [Audience.act]
      split <;> rfl
  | serve place writes => rfl
  | close => rfl

theorem capacity_actAll (a : Audience) (acts : List Act) :
    (a.actAll acts).endpoint.channel.capacity = a.endpoint.channel.capacity := by
  induction acts generalizing a with
  | nil => rfl
  | cons act rest ih => exact (ih (a.act act)).trans (a.capacity_act act)

/-- An endpoint stays open until it is given up. -/
theorem isClosed_act {act : Act} (other : act ≠ .close) : (a.act act).isClosed = a.isClosed := by
  cases act with
  | publish frame =>
      rw [Audience.act]
      split <;> rfl
  | accept =>
      rw [Audience.act]
      split <;> rfl
  | serve place writes => rfl
  | close => exact absurd rfl other

theorem isClosed_actAll {acts : List Act} (open' : .close ∉ acts) :
    (a.actAll acts).isClosed = a.isClosed := by
  induction acts generalizing a with
  | nil => rfl
  | cons act rest ih =>
      have later := ih (a := a.act act) fun member => open' (List.mem_cons_of_mem _ member)
      exact later.trans (isClosed_act fun same => open' (same ▸ List.mem_cons_self))

theorem keeps_act (keeps : a.endpoint.channel.Keeps frames) (act : Act) :
    (a.act act).endpoint.channel.Keeps (frames ++ a.sentBy act) := by
  have none : frames ++ [] = frames := List.append_nil frames
  cases act with
  | publish frame =>
      rw [Audience.act, sentBy]
      split
      · exact none.symm ▸ keeps
      · exact keeps.send frame
  | accept =>
      rw [Audience.act]
      split <;> exact none.symm ▸ keeps
  | serve place writes => exact none.symm ▸ keeps
  | close => exact none.symm ▸ ⟨keeps.sent, keeps.kept⟩

theorem keeps_actAll (keeps : a.endpoint.channel.Keeps frames) (acts : List Act) :
    (a.actAll acts).endpoint.channel.Keeps (frames ++ a.published acts) := by
  induction acts generalizing a frames with
  | nil => exact (List.append_nil frames).symm ▸ keeps
  | cons act rest ih =>
      rw [published, ← List.append_assoc]
      exact ih (keeps_act keeps act)

/-- How a subscriber attends the frames since it came: it follows them, and its service has not
ended while the endpoint is open. -/
structure Attends (a : Audience) (s : Subscriber) (before : Nat) (frames : List String)
    (seen : List Nat) : Prop where
  follows : s.Follows before frames seen
  ended : s.service = .ended → a.isClosed = true

/-- An act for the subscriber at a place, which loses nothing that the channel still keeps. -/
theorem exists_attends_act (keeps : a.endpoint.channel.Keeps (older ++ frames))
    (room : 0 < a.endpoint.channel.capacity) (held : a.subscribers[place]? = some s)
    (attends : a.Attends s older.length frames seen) (act : Act) :
    ∃ s' seen', (a.act act).subscribers[place]? = some s' ∧
      (a.act act).Attends s' older.length (frames ++ a.sentBy act) seen' ∧
      (a.outstanding place ≤ a.endpoint.channel.capacity → s'.lost = s.lost) := by
  have none : frames ++ [] = frames := List.append_nil frames
  have inside := (List.getElem?_eq_some_iff.1 held).1
  cases act with
  | publish frame =>
      rw [Audience.act, sentBy]
      cases closed : a.isClosed with
      | true => exact ⟨s, seen, held, none.symm ▸ attends, fun _ => rfl⟩
      | false =>
          have goesOn : s.service ≠ .ended := by
            intro ended
            cases closed.symm.trans (attends.ended ended)
          exact ⟨s, seen, held, ⟨attends.follows.publish goesOn frame, attends.ended⟩,
            fun _ => rfl⟩
  | accept =>
      rw [Audience.act]
      split
      · exact ⟨s, seen, held, none.symm ▸ attends, fun _ => rfl⟩
      · exact ⟨s, seen, (List.getElem?_append_left inside).trans held,
          none.symm ▸ ⟨attends.follows, attends.ended⟩, fun _ => rfl⟩
  | close =>
      exact ⟨s, seen, held, none.symm ▸ ⟨attends.follows, fun _ => rfl⟩, fun _ => rfl⟩
  | serve other writes =>
      by_cases own : other = place
      · obtain ⟨⟨seen', served⟩, lossless, ends⟩ := attends.follows.serve keeps room writes
        have waiting : a.outstanding place = a.endpoint.channel.sent - s.receiver.next := by
          rw [outstanding, held]
          rfl
        refine ⟨s.serve a.endpoint.channel writes, seen', ?_,
          none.symm ▸ ⟨served, fun ended => (ends ended).elim attends.ended id⟩, ?_⟩
        · rw [Audience.act, own, List.getElem?_modify_eq, held]
          rfl
        · rw [waiting]
          exact lossless
      · refine ⟨s, seen, ?_, none.symm ▸ ⟨attends.follows, attends.ended⟩, fun _ => rfl⟩
        rw [Audience.act, List.getElem?_modify_ne _ _ own, held]

/-- A run for a subscriber that is accepted. -/
theorem exists_attends_actAll (keeps : a.endpoint.channel.Keeps older)
    (room : 0 < a.endpoint.channel.capacity) (open' : a.isClosed = false) (acts : List Act) :
    ∃ s seen, (a.actAll (.accept :: acts)).subscribers[a.subscribers.length]? = some s ∧
      (a.actAll (.accept :: acts)).Attends s older.length (a.published (.accept :: acts)) seen ∧
      ((∀ before, before <+: acts → (a.actAll (.accept :: before)).outstanding
          a.subscribers.length ≤ a.endpoint.channel.capacity) → s.lost = 0) := by
  induction acts using List.reverseRecOn with
  | nil =>
      have came : a.actAll [.accept] =
          { a with subscribers := a.subscribers ++ [.accept a.endpoint.channel] } := by
        rw [actAll, List.foldl_cons, List.foldl_nil, Audience.act, open']
        rfl
      rw [came]
      refine ⟨.accept a.endpoint.channel, [], ?_, ⟨Subscriber.follows_accept keeps, nofun⟩,
        fun _ => rfl⟩
      exact List.getElem?_concat_length
  | append_singleton acts last ih =>
      obtain ⟨s, seen, held, attends, lossless⟩ := ih
      have keepsNow := keeps_actAll keeps (.accept :: acts)
      have capacity := a.capacity_actAll (.accept :: acts)
      obtain ⟨s', seen', held', attends', kept⟩ :=
        exists_attends_act keepsNow (capacity ▸ room) held attends last
      have next : a.actAll (.accept :: (acts ++ [last])) =
          (a.actAll (.accept :: acts)).act last := List.foldl_append
      have sent : a.published (.accept :: (acts ++ [last])) =
          a.published (.accept :: acts) ++ (a.actAll (.accept :: acts)).sentBy last := by
        have one : (a.actAll (.accept :: acts)).published [last] =
            (a.actAll (.accept :: acts)).sentBy last := List.append_nil _
        exact (a.published_append (.accept :: acts) [last]).trans
          (congrArg (a.published (.accept :: acts) ++ ·) one)
      rw [next, sent]
      refine ⟨s', seen', held', attends', fun near => ?_⟩
      rw [kept (capacity ▸ near acts (List.prefix_append _ _))]
      exact lossless fun before early => near before (early.trans (List.prefix_append _ _))

end Audience

end Tape
