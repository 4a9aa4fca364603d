import Tape.Proofs.Delta.Placing

/-!
# Which levels of a list are published

The sort leaves valid levels of one price in the order they came in, and the loop after it keeps the
last of them. So a level of a list is published when no later valid level of the list has its price.
A list that already stands in strict order of price is published as it is, and no other list is.
-/

namespace Tape

/-- A level of a list that no later valid level of the list replaces. -/
def Level.Stays (level : Level Float) (levels : List (Level Float)) : Prop :=
  ∃ earlier later, levels = earlier ++ level :: later ∧
    ∀ other ∈ later, other.Sound → other.price ≠ level.price

theorem Level.stays_append_singleton (level last : Level Float) (levels : List (Level Float)) :
    level.Stays (levels ++ [last]) ↔
      level = last ∨ (level.Stays levels ∧ (last.Sound → last.price ≠ level.price)) := by
  constructor
  · rintro ⟨earlier, later, split, apart⟩
    rcases List.eq_nil_or_concat' later with rfl | ⟨init, final, rfl⟩
    · obtain ⟨_, same⟩ := List.append_inj' split rfl
      cases same
      exact .inl rfl
    · have whole : levels ++ [last] = (earlier ++ level :: init) ++ [final] := by
        rw [split]
        simp
      obtain ⟨rfl, same⟩ := List.append_inj' whole rfl
      cases same
      refine .inr ⟨⟨earlier, init, rfl, ?_⟩, ?_⟩
      · intro other member
        exact apart other (List.mem_append_left _ member)
      · exact apart _ (List.mem_append_right _ List.mem_cons_self)
  · rintro (rfl | ⟨⟨earlier, later, rfl, apart⟩, final⟩)
    · exact ⟨levels, [], rfl, by intro other member; cases member⟩
    · refine ⟨earlier, later ++ [last], by simp, ?_⟩
      intro other member
      rcases List.mem_append.1 member with held | held
      · exact apart other held
      · rw [List.mem_singleton.1 held]
        exact final

/-- Where a valid level has a price, some valid level is the last one that has it. -/
theorem Level.exists_stays {levels : List (Level Float)} {level : Level Float}
    (member : level ∈ levels) (sound : level.Sound) :
    ∃ last : Level Float, last.Sound ∧ last.Stays levels ∧ last.price = level.price := by
  induction levels using List.reverseRecOn with
  | nil => cases member
  | append_singleton earlier final ih =>
      by_cases replaces : final.Sound ∧ final.price = level.price
      · exact ⟨final, replaces.1, (stays_append_singleton _ _ _).2 (.inl rfl), replaces.2⟩
      · rcases List.mem_append.1 member with held | here
        · obtain ⟨last, lastSound, stays, same⟩ := ih held
          refine ⟨last, lastSound, (stays_append_singleton _ _ _).2 (.inr ⟨stays, ?_⟩), same⟩
          intro finalSound again
          exact replaces ⟨finalSound, again.trans same⟩
        · rw [List.mem_singleton.1 here] at sound replaces
          exact absurd ⟨sound, rfl⟩ replaces

/-- In a list without two levels of one price every level stays. -/
theorem Level.stays_of_pairwise {levels : List (Level Float)}
    (distinct : levels.Pairwise fun a b => a.price ≠ b.price) (level : Level Float) :
    level.Stays levels ↔ level ∈ levels := by
  constructor
  · rintro ⟨earlier, later, rfl, _⟩
    exact List.mem_append_right _ List.mem_cons_self
  · intro member
    obtain ⟨earlier, later, rfl⟩ := List.append_of_mem member
    refine ⟨earlier, later, rfl, ?_⟩
    intro other held _ same
    have apart := (List.pairwise_cons.1 (List.pairwise_append.1 distinct).2.1).1 other held
    exact apart same.symm

/-- In a list of valid levels one stays when it is the last of its price. -/
theorem Level.stays_iff_getLast? {levels : List (Level Float)}
    (sound : ∀ level ∈ levels, level.Sound) (level : Level Float) :
    level.Stays levels ↔
      (levels.filter fun other => other.price = level.price).getLast? = some level := by
  induction levels using List.reverseRecOn with
  | nil => simp [Level.Stays]
  | append_singleton earlier last ih =>
      have lastSound := sound last (List.mem_append_right _ List.mem_cons_self)
      have known := ih fun other member => sound other (List.mem_append_left _ member)
      rw [stays_append_singleton, known, List.filter_append]
      by_cases same : last.price = level.price
      · have kept : [last].filter (fun other => other.price = level.price) = [last] := by
          simp [same]
        rw [kept, List.getLast?_concat, Option.some.injEq, eq_comm]
        exact or_iff_left fun held => held.2 lastSound same
      · have dropped : [last].filter (fun other => other.price = level.price) = [] := by
          simp [same]
        have other : level ≠ last := fun equal => same (congrArg Level.price equal.symm)
        rw [dropped, List.append_nil, or_iff_right other]
        exact and_iff_left fun _ => same

/-- The valid levels of a list that stay are those that stay among its valid levels. -/
theorem Level.stays_filter_iff (levels : List (Level Float)) (level : Level Float) :
    level.Stays (levels.filter Level.isValid) ↔ level.Sound ∧ level.Stays levels := by
  induction levels using List.reverseRecOn with
  | nil => simp [Level.Stays]
  | append_singleton earlier last ih =>
      rw [stays_append_singleton, List.filter_append]
      by_cases sound : last.Sound
      · have kept : [last].filter Level.isValid = [last] := by
          simp [(Level.isValid_iff_sound last).2 sound]
        rw [kept, stays_append_singleton, ih]
        constructor
        · rintro (rfl | ⟨⟨soundLevel, stays⟩, apart⟩)
          · exact ⟨sound, .inl rfl⟩
          · exact ⟨soundLevel, .inr ⟨stays, apart⟩⟩
        · rintro ⟨soundLevel, rfl | ⟨stays, apart⟩⟩
          · exact .inl rfl
          · exact .inr ⟨⟨soundLevel, stays⟩, apart⟩
      · have dropped : [last].filter Level.isValid = [] := by
          simp [mt (Level.isValid_iff_sound last).1 sound]
        rw [dropped, List.append_nil, ih]
        refine and_congr_right fun soundLevel => ?_
        have other : level ≠ last := fun equal => sound (equal ▸ soundLevel)
        rw [or_iff_right other]
        exact (and_iff_left fun impossible => absurd impossible sound).symm

/-- A stable sort leaves items that are not told apart in the order they came in. -/
theorem filter_mergeSort {α : Type} {le : α → α → Bool}
    (transitive : ∀ a b c, le a b = true → le b c = true → le a c = true)
    (total : ∀ a b, (le a b || le b a) = true) (items : List α) {alike : α → Bool}
    (tied : ∀ a b, alike a = true → alike b = true → le a b = true) :
    (items.mergeSort le).filter alike = items.filter alike := by
  have order : (items.filter alike).Pairwise fun a b => le a b = true := by
    refine List.pairwise_of_forall_mem_list fun a ha b hb => ?_
    exact tied a b (List.mem_filter.1 ha).2 (List.mem_filter.1 hb).2
  have inside := List.sublist_mergeSort transitive total order List.filter_sublist
  have kept := inside.filter alike
  simp only [List.filter_filter, Bool.and_self] at kept
  have perm := (List.mergeSort_perm items le).filter alike
  exact (kept.eq_of_length perm.length_eq.symm).symm

namespace Snapshot

/-- The loop keeps of levels in order the last one of each price. -/
theorem mem_lastOfEach {levels : List (Level Float)}
    (order : levels.Pairwise fun a b => Binary64.rank a.price ≤ Binary64.rank b.price)
    (sound : ∀ level ∈ levels, level.Sound) (level : Level Float) :
    level ∈ lastOfEach levels ↔ level.Stays levels := by
  induction levels using List.reverseRecOn with
  | nil => simp [lastOfEach, Level.Stays]
  | append_singleton earlier last ih =>
      obtain ⟨start, _, below⟩ := List.pairwise_append.1 order
      have soundEarlier : ∀ level ∈ earlier, level.Sound := fun level member =>
        sound level (List.mem_append_left _ member)
      have lastSound := sound last (List.mem_append_right _ List.mem_cons_self)
      obtain ⟨strict, held⟩ := strict_lastOfEach start soundEarlier
      have step := mem_overwriteLast strict lastSound
        (fun other member => below other (held other member) last List.mem_cons_self) level
      rw [lastOfEach_append_singleton, step, Level.stays_append_singleton, ih start soundEarlier]
      refine or_congr_right (and_congr_right fun _ => ?_)
      exact ⟨fun apart _ => Ne.symm apart, fun apart => (apart lastSound).symm⟩

/-- The sort leaves the levels of one price in their order. -/
theorem stays_byPrice_iff (levels : List (Level Float)) (level : Level Float) :
    level.Stays (byPrice levels) ↔ level.Sound ∧ level.Stays levels := by
  have soundSorted : ∀ other ∈ byPrice levels, other.Sound :=
    fun _ member => (mem_byPrice.1 member).2
  have soundFiltered : ∀ other ∈ levels.filter Level.isValid, other.Sound :=
    fun other member => (Level.isValid_iff_sound other).1 (List.mem_filter.1 member).2
  have stable : (byPrice levels).filter (fun other => other.price = level.price) =
      (levels.filter Level.isValid).filter fun other => other.price = level.price := by
    rw [byPrice_eq_mergeSort]
    refine filter_mergeSort rank_transitive rank_total _ ?_
    intro a b ha hb
    rw [decide_eq_true_eq] at ha hb
    rw [ha, hb]
    exact decide_eq_true (Int.le_refl _)
  rw [← Level.stays_filter_iff, Level.stays_iff_getLast? soundFiltered,
    Level.stays_iff_getLast? soundSorted, stable]

/-- The levels by price are the valid ones that stay. -/
theorem mem_unique (levels : List (Level Float)) (level : Level Float) :
    level ∈ unique levels ↔ level.Sound ∧ level.Stays levels := by
  rw [unique, mem_lastOfEach (byPrice_rises levels) fun _ member => (mem_byPrice.1 member).2]
  exact stays_byPrice_iff levels level

theorem lined_unique (levels : List (Level Float)) :
    Replica.Lined Replica.askBefore (unique levels) where
  ordered := (strict_unique levels).prices_rise
  positive level member := ((strict_unique levels).sound level member).price_isPositive

/-- Valid levels are listed in some order exactly when that is the strict order of price. -/
theorem unique_eq_iff {levels listed : List (Level Float)}
    (sound : ∀ level ∈ levels, level.Sound) (perm : listed.Perm levels) :
    unique levels = listed ↔
      listed.Pairwise fun a b => Binary64.less a.price b.price = true := by
  constructor
  · intro same
    rw [← same]
    exact (strict_unique levels).prices_rise
  · intro rise
    have apart : listed.Pairwise fun a b => a.price ≠ b.price :=
      rise.imp fun less => Replica.askOrder.ne less
    have distinct : levels.Pairwise fun a b => a.price ≠ b.price :=
      perm.pairwise apart Ne.symm
    have lined : Replica.Lined Replica.askBefore listed :=
      ⟨rise, fun _ member => (sound _ (perm.subset member)).price_isPositive⟩
    refine Replica.Lined.ext Replica.askOrder (lined_unique levels) lined ?_
    intro level
    rw [mem_unique, Level.stays_of_pairwise distinct, perm.mem_iff]
    exact ⟨fun held => held.2, fun member => ⟨sound level member, member⟩⟩

theorem length_overwriteLast_le (kept : List (Level Float)) (level : Level Float) :
    (overwriteLast kept level).length ≤ kept.length + 1 := by
  rcases List.eq_nil_or_concat' kept with rfl | ⟨earlier, last, rfl⟩
  · exact Nat.le_refl _
  · rw [overwriteLast_append_singleton]
    split <;> simp

theorem length_lastOfEach_le (levels : List (Level Float)) :
    (lastOfEach levels).length ≤ levels.length := by
  induction levels using List.reverseRecOn with
  | nil => exact Nat.le_refl _
  | append_singleton earlier last ih =>
      rw [lastOfEach_append_singleton, List.length_append, List.length_singleton]
      exact Nat.le_trans (length_overwriteLast_le _ _) (Nat.succ_le_succ ih)

theorem length_unique_le (levels : List (Level Float)) :
    (unique levels).length ≤ levels.length := by
  refine Nat.le_trans (length_lastOfEach_le _) ?_
  rw [byPrice_eq_mergeSort, List.length_mergeSort]
  exact List.length_filter_le _ _

end Snapshot

end Tape
