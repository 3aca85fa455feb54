import Duroxide.Model.FetchQuery

/-! # Which work item a fetch returns

The clause for a tag filter says what `TagFilter::matches` says, whatever parameters stand before the tags,
and the join with the unexpired sessions says whether a session is free. So the queries return the eligible
item with the lowest id. A worker without a session configuration only takes items without a session.
-/

namespace Duroxide.Provider

open Lib.Sql

variable {store : Store} {now : Nat} {session : Option SessionFetchConfig} {filter : TagFilter} {row : WorkerRow}
  {entry : Option SessionEntry} {parameters : List Value}

/-! ## Tags -/

/-- Placeholders numbered from the end of other parameters stand for the values that are bound after these. -/
theorem exists_placeholder {columns : QueueColumn → Value} {before : List Value} {values : List String} {tag : String}
    {count : Nat} (counted : values.length = count) :
    (∃ item ∈ tagPlaceholders count (before.length + 1),
      Value.text tag = item.value columns (before ++ values.map Value.text)) ↔ tag ∈ values := by
  subst counted
  have position : ∀ offset, ((before ++ values.map Value.text)[before.length + 1 + offset - 1]?).getD .null =
      ((values[offset]?).map Value.text).getD .null := by
    intro offset
    rw [Nat.add_right_comm, Nat.add_sub_cancel, List.getElem?_append_right (Nat.le_add_right _ _), Nat.add_sub_cancel_left,
      List.getElem?_map]
  simp only [tagPlaceholders, List.mem_map, List.mem_range, exists_exists_and_eq_and, Operand.value, position]
  constructor
  · rintro ⟨offset, within, same⟩
    rw [List.getElem?_eq_getElem within, Option.map_some, Option.getD_some] at same
    cases same
    exact List.getElem_mem within
  · intro listed
    obtain ⟨offset, within, rfl⟩ := List.getElem_of_mem listed
    exact ⟨offset, within, by rw [List.getElem?_eq_getElem within, Option.map_some, Option.getD_some]⟩

theorem tag_value : (Operand.column QueueColumn.tag).value (queueColumns row entry) parameters =
    Value.ofOption .text row.tag := rfl

/-- The clause with the values bound after other parameters accepts what the filter matches. -/
theorem buildTagClause_holds (row : WorkerRow) (entry : Option SessionEntry) (filter : TagFilter) (before : List Value) :
    (buildTagClause filter (before.length + 1)).holds (queueColumns row entry)
      (before ++ (collectTagValues filter).map Value.text) ↔ filter.matches row.tag := by
  have listed : ∀ set : List String, (Condition.isIn (.column .tag) (tagPlaceholders set.length (before.length + 1))).holds
      (queueColumns row entry) (before ++ (set.mergeSort fun one other => decide (one ≤ other)).map Value.text) ↔
        ∃ tag, row.tag = some tag ∧ tag ∈ set := by
    intro set
    rw [Condition.holds_isIn, tag_value]
    rcases row.tag with _ | tag
    · simp [Value.ofOption]
    · simp [Value.ofOption, exists_placeholder (List.length_mergeSort set)]
  cases filter with
  | defaultOnly =>
    rw [buildTagClause, Condition.holds_isNull, tag_value]
    cases row.tag <;> simp [Value.ofOption, TagFilter.matches]
  | tags set =>
    rw [buildTagClause, collectTagValues, listed]
    cases row.tag <;> simp [TagFilter.matches]
  | defaultAnd set =>
    rw [buildTagClause, Condition.holds_or, Condition.holds_isNull, collectTagValues, listed, tag_value]
    cases row.tag <;> simp [Value.ofOption, TagFilter.matches]
  | any => simp [buildTagClause, TagFilter.matches]
  | none => simp [buildTagClause, TagFilter.matches]

/-- A filter accepts what it matches. -/
theorem accepts_eq_matches (filter : TagFilter) (tag : Option String) : filter.accepts tag = filter.matches tag := by
  cases filter <;> cases tag <;> simp [TagFilter.accepts, TagFilter.matches]

/-! ## Eligible items -/

/-- Nobody owns the session, its lock has expired, or the caller owns it. -/
def SessionFree (store : Store) (now : Nat) (session : Option SessionFetchConfig) (sessionId : String) : Prop :=
  ∀ owned, store.sessions.lookup sessionId = some owned →
    owned.lockedUntil ≤ now ∨ ∃ config, session = some config ∧ owned.workerId = config.ownerId

/-- The rule: visible, not locked, accepted by the filter, and without a session or with a free one. -/
structure Free (store : Store) (now : Nat) (session : Option SessionFetchConfig) (filter : TagFilter) (row : WorkerRow) :
    Prop where
  visible : row.visibleAt ≤ now
  unlocked : row.lockToken = none ∨ ∃ expiry, row.lockedUntil = some expiry ∧ expiry ≤ now
  tag : filter.matches row.tag
  sessionFree : ∀ sessionId, row.sessionId = some sessionId → SessionFree store now session sessionId

/-- What a worker takes: items of sessions only with a session configuration. -/
structure Eligible (store : Store) (now : Nat) (session : Option SessionFetchConfig) (filter : TagFilter) (row : WorkerRow) :
    Prop extends Free store now session filter row where
  configured : row.sessionId.isSome → session.isSome

theorem freeClause_holds (bound : parameters.head? = some (.integer now)) :
    freeClause.holds (queueColumns row entry) parameters ↔
      row.visibleAt ≤ now ∧ (row.lockToken = none ∨ ∃ expiry, row.lockedUntil = some expiry ∧ expiry ≤ now) := by
  have first : (Operand.parameter 1 : Operand QueueColumn).value (queueColumns row entry) parameters = .integer now := by
    rw [Operand.value, Nat.sub_self, ← List.head?_eq_getElem?, bound, Option.getD_some]
  have visible : (Operand.column QueueColumn.visibleAt).value (queueColumns row entry) parameters =
      .ofOption .integer (some row.visibleAt) := rfl
  have expiry : (Operand.column QueueColumn.lockedUntil).value (queueColumns row entry) parameters =
      .ofOption .integer row.lockedUntil := rfl
  have token : (Operand.column QueueColumn.lockToken).value (queueColumns row entry) parameters = .null ↔ row.lockToken = none := by
    rw [Operand.value, queueColumns]
    cases row.lockToken <;> simp [Value.ofOption]
  rw [freeClause, Condition.holds_and, Condition.holds_or, Condition.holds_isNull, token,
    Condition.holds_atMost_integer first visible, Condition.holds_atMost_integer first expiry]
  simp

/-! ## The queries -/

/-- The tag parameters stand after the clock, and after the owner when there is one. -/
theorem plainWhere_holds :
    (plainWhere (buildTagClause filter 2)).holds (queueColumns row none)
      (.integer now :: (collectTagValues filter).map Value.text) ↔ Eligible store now none filter row := by
  have tags := buildTagClause_holds row none filter [.integer now]
  have unbound : (Operand.column QueueColumn.sessionId).value (queueColumns row none)
      (.integer now :: (collectTagValues filter).map Value.text) = .null ↔ row.sessionId = none := by
    rw [Operand.value, queueColumns]
    cases row.sessionId <;> simp [Value.ofOption]
  rw [plainWhere, Condition.holds_and, Condition.holds_and, Condition.holds_isNull, unbound, freeClause_holds rfl]
  constructor
  · rintro ⟨⟨visible, unlocked⟩, unbound, accepted⟩
    refine ⟨⟨visible, unlocked, tags.mp accepted, ?_⟩, ?_⟩
    · intro sessionId bound
      rw [unbound] at bound
      cases bound
    · simp [unbound]
  · rintro ⟨⟨visible, unlocked, accepted, _⟩, configured⟩
    refine ⟨⟨visible, unlocked⟩, ?_, tags.mpr accepted⟩
    by_contra bound
    exact absurd (configured (Option.isSome_iff_ne_none.mpr bound)) Bool.false_ne_true

variable {config : SessionFetchConfig} {values : List Value}

theorem sessionOn_holds {owned : SessionEntry} :
    sessionOn.holds (queueColumns row (some owned)) (.integer now :: values) ↔
      row.sessionId = some owned.1 ∧ (now : Int) < owned.2.lockedUntil := by
  have expiry : (Operand.column QueueColumn.sLockedUntil).value (queueColumns row (some owned)) (.integer now :: values) =
      .ofOption .integer (some owned.2.lockedUntil) := rfl
  have named : (Operand.column QueueColumn.sSessionId).value (queueColumns row (some owned)) (.integer now :: values) =
      .text owned.1 := rfl
  have bound : (Operand.column QueueColumn.sessionId).value (queueColumns row (some owned)) (.integer now :: values) =
      .ofOption .text row.sessionId := rfl
  rw [sessionOn, Condition.holds_and, Condition.holds_equal, named, bound, Condition.holds_greater_integer rfl expiry]
  cases row.sessionId with
  | none => simp [Value.ofOption]
  | some sessionId => simp [Value.ofOption, eq_comm]

theorem sessionWhere_holds :
    (sessionWhere (buildTagClause filter 3)).holds (queueColumns row entry)
        (.integer now :: .text config.ownerId :: (collectTagValues filter).map Value.text) ↔
      (row.visibleAt ≤ now ∧ (row.lockToken = none ∨ ∃ expiry, row.lockedUntil = some expiry ∧ expiry ≤ now)) ∧
        (row.sessionId = none ∨ ∀ owned, entry = some owned → owned.2.workerId = config.ownerId) ∧ filter.matches row.tag := by
  have tags := buildTagClause_holds row entry filter [.integer now, .text config.ownerId]
  rw [sessionWhere, Condition.holds_and, Condition.holds_and, freeClause_holds rfl, Condition.holds_or, Condition.holds_or,
    Condition.holds_isNull, Condition.holds_isNull, Condition.holds_equal]
  refine and_congr_right fun _ => and_congr (or_congr ?_ ?_) tags
  · rw [Operand.value, queueColumns]
    cases row.sessionId <;> simp [Value.ofOption]
  · simp only [Operand.value, queueColumns]
    cases entry <;> simp [Value.ofOption]

/-- A row is in the join and passes the test exactly if it is eligible. -/
theorem exists_joined_iff :
    (∃ entry, (row, entry) ∈ leftJoin store.workerQueue store.sessions.entries (fun row owned =>
        sessionOn.holds (queueColumns row (some owned))
          (.integer now :: .text config.ownerId :: (collectTagValues filter).map Value.text)) ∧
      (sessionWhere (buildTagClause filter 3)).holds (queueColumns row entry)
        (.integer now :: .text config.ownerId :: (collectTagValues filter).map Value.text)) ↔
      row ∈ store.workerQueue ∧ Eligible store now (some config) filter row := by
  simp only [mem_leftJoin, sessionWhere_holds]
  constructor
  · rintro ⟨entry, ⟨listed, matched⟩, ⟨visible, unlocked⟩, free, accepted⟩
    refine ⟨listed, ⟨visible, unlocked, accepted, ?_⟩, fun _ => rfl⟩
    intro sessionId bound owned found
    have member : (⟨sessionId, owned⟩ : SessionEntry) ∈ store.sessions.entries := AList.mem_lookup_iff.mp found
    cases entry with
    | none =>
      left
      by_contra active
      exact matched ⟨sessionId, owned⟩ member (sessionOn_holds.mpr ⟨bound, Int.not_le.mp active⟩)
    | some entry =>
      right
      obtain ⟨present, joined⟩ := matched
      have same := (sessionOn_holds.mp joined).1
      rw [bound] at same
      obtain rfl := Option.some.inj same
      have stored : store.sessions.lookup entry.1 = some entry.2 := AList.mem_lookup_iff.mpr present
      rw [found] at stored
      obtain rfl := Option.some.inj stored
      refine ⟨config, rfl, (free.resolve_left fun unbound => ?_) entry rfl⟩
      rw [bound] at unbound
      cases unbound
  · rintro ⟨listed, ⟨visible, unlocked, accepted, sessionFree⟩, _⟩
    rcases Classical.em (∃ owned ∈ store.sessions.entries, sessionOn.holds (queueColumns row (some owned))
        (.integer now :: .text config.ownerId :: (collectTagValues filter).map Value.text) = true) with
      ⟨owned, present, joined⟩ | unmatched
    · obtain ⟨bound, active⟩ := sessionOn_holds.mp joined
      refine ⟨some owned, ⟨listed, present, joined⟩, ⟨visible, unlocked⟩, .inr ?_, accepted⟩
      intro other same
      obtain rfl := Option.some.inj same
      rcases sessionFree owned.1 bound owned.2 (AList.mem_lookup_iff.mpr present) with expired | ⟨_, caller, owns⟩
      · omega
      · obtain rfl := Option.some.inj caller
        exact owns
    · refine ⟨none, ⟨listed, fun owned present joined => unmatched ⟨owned, present, joined⟩⟩, ⟨visible, unlocked⟩, ?_, accepted⟩
      exact .inr fun owned none => nomatch none

/-! ## What a fetch returns -/

/-- The query returns the eligible row with the lowest id. -/
theorem nextItem_cases (store : Store) (now : Nat) (session : Option SessionFetchConfig) (filter : TagFilter) :
    match nextItem store now session filter with
    | some row => row ∈ store.workerQueue ∧ Eligible store now session filter row ∧
        ∀ other ∈ store.workerQueue, Eligible store now session filter other → row.id ≤ other.id
    | none => ∀ row ∈ store.workerQueue, ¬ Eligible store now session filter row := by
  cases session with
  | none =>
    simp only [nextItem, Option.isSome_none, Bool.false_eq_true, if_false]
    split
    · rename_i row found
      obtain ⟨listed, lowest⟩ := first_eq_some found
      obtain ⟨listed, selected⟩ := List.mem_filter.mp listed
      refine ⟨listed, plainWhere_holds.mp selected, fun other present eligible => ?_⟩
      exact lowest other (List.mem_filter.mpr ⟨present, plainWhere_holds.mpr eligible⟩)
    · rename_i found
      intro row listed eligible
      have unselected := List.filter_eq_nil_iff.mp (first_eq_none.mp found) row listed
      exact unselected (plainWhere_holds.mpr eligible)
  | some config =>
    simp only [nextItem, Option.isSome_some, if_true]
    split
    · rename_i row found
      obtain ⟨⟨_, entry⟩, picked, rfl⟩ := Option.map_eq_some_iff.mp found
      obtain ⟨listed, lowest⟩ := first_eq_some picked
      obtain ⟨joined, selected⟩ := List.mem_filter.mp listed
      obtain ⟨listed, eligible⟩ := exists_joined_iff.mp ⟨entry, joined, selected⟩
      refine ⟨listed, eligible, fun other present eligible => ?_⟩
      obtain ⟨entry, joined, selected⟩ := exists_joined_iff.mpr ⟨present, eligible⟩
      exact lowest (other, entry) (List.mem_filter.mpr ⟨joined, selected⟩)
    · rename_i found
      intro row listed eligible
      obtain ⟨entry, joined, selected⟩ := exists_joined_iff.mpr ⟨listed, eligible⟩
      have unselected := List.filter_eq_nil_iff.mp (first_eq_none.mp (Option.map_eq_none_iff.mp found)) (row, entry) joined
      exact unselected selected

/-- The session of an eligible item is claimed. -/
theorem claimItemSession_of_eligible (eligible : Eligible store now session filter row) (locked : Store)
    (same : locked.sessions = store.sessions) : ∃ sessions, claimItemSession locked now session row.sessionId =
      some { locked with sessions } := by
  unfold claimItemSession
  split
  · rename_i sessionId config bound
    unfold claimSession
    rw [same]
    rcases found : store.sessions.lookup sessionId with _ | owned
    · exact ⟨_, rfl⟩
    · have free := eligible.sessionFree sessionId bound owned found
      have claims : owned.lockedUntil ≤ now ∨ owned.workerId = config.ownerId := by
        refine free.imp_right ?_
        rintro ⟨_, same, owns⟩
        obtain rfl := Option.some.inj same
        exact owns
      exact ⟨_, if_pos claims⟩
  · exact ⟨locked.sessions, rfl⟩

/-- The row that the query returns is locked, and its session is claimed. -/
theorem fetchNextWorkItem_of_nextItem (wanted : filter ≠ .none) (found : nextItem store now session filter = some row)
    (lockTimeoutMs token : Nat) :
    ∃ sessions, fetchNextWorkItem store now lockTimeoutMs token session filter =
      some ((row.workItem, asU32 (row.attemptCount + 1)),
        { store.updateWorkerRows (·.id == row.id) fun other =>
            { other with
              lockToken := some token, lockedUntil := some (now + lockTimeoutMs), attemptCount := other.attemptCount + 1 } with
          sessions }) := by
  have cases := nextItem_cases store now session filter
  rw [found] at cases
  obtain ⟨sessions, claimed⟩ := claimItemSession_of_eligible cases.2.1
    (store.updateWorkerRows (·.id == row.id) fun row =>
      { row with
        lockToken := some token, lockedUntil := some (now + lockTimeoutMs), attemptCount := row.attemptCount + 1 }) rfl
  refine ⟨sessions, ?_⟩
  rw [fetchNextWorkItem, if_neg wanted, found]
  simp only [Option.bind_eq_bind, Option.bind_some, claimed]
  rfl

/-- A worker that takes nothing finds no item eligible. -/
theorem not_eligible_none : ¬ Eligible store now session .none row := by
  intro eligible
  have matched := eligible.tag
  cases row.tag <;> cases matched

/-- A fetch returns the eligible item with the lowest id and locks its row, and returns nothing only when no item is
eligible. -/
theorem fetchNextWorkItem_lowest (store : Store) (now lockTimeoutMs token : Nat) (session : Option SessionFetchConfig)
    (filter : TagFilter) :
    match fetchNextWorkItem store now lockTimeoutMs token session filter with
    | some ((workItem, attemptCount), after) => ∃ row ∈ store.workerQueue, Eligible store now session filter row ∧
        (∀ other ∈ store.workerQueue, Eligible store now session filter other → row.id ≤ other.id) ∧
        workItem = row.workItem ∧ attemptCount = asU32 (row.attemptCount + 1) ∧
        after.workerQueue = store.workerQueue.map fun other =>
          if other.id == row.id then
            { other with
              lockToken := some token, lockedUntil := some (now + lockTimeoutMs), attemptCount := other.attemptCount + 1 }
          else other
    | none => ∀ row ∈ store.workerQueue, ¬ Eligible store now session filter row := by
  by_cases nothing : filter = .none
  · subst nothing
    exact fun row _ => not_eligible_none
  · have cases := nextItem_cases store now session filter
    rcases found : nextItem store now session filter with _ | row
    · rw [found] at cases
      rw [fetchNextWorkItem, if_neg nothing, found]
      exact cases
    · rw [found] at cases
      obtain ⟨listed, eligible, lowest⟩ := cases
      obtain ⟨sessions, fetched⟩ := fetchNextWorkItem_of_nextItem nothing found lockTimeoutMs token
      rw [fetched]
      exact ⟨row, listed, eligible, lowest, rfl, rfl, rfl⟩

/-- A worker without a session configuration leaves an item whose session nobody owns. -/
def unownedSession : Store where
  workerQueue := [{ id := 1, workItem := .activityExecute "i" 1 2 "a" "" (some "s") none, visibleAt := 0, identity := none,
                    sessionId := some "s", tag := none }]

theorem fetchNextWorkItem_unownedSession :
    (∃ row ∈ unownedSession.workerQueue, Free unownedSession 5 none .any row) ∧
      fetchNextWorkItem unownedSession 5 1000 7 none .any = none := by
  refine ⟨⟨_, List.mem_singleton_self _, ⟨by decide, .inl rfl, rfl, ?_⟩⟩, by decide +kernel⟩
  intro sessionId _ owned found
  cases found

/-! ## The order of the queue -/

theorem sessionAllows_iff : sessionAllows store now session row.sessionId ↔
    (∀ sessionId, row.sessionId = some sessionId → SessionFree store now session sessionId) ∧
      (row.sessionId.isSome → session.isSome) := by
  rcases row.sessionId with _ | sessionId
  · simp [sessionAllows]
  · rcases session with _ | config
    · simp [sessionAllows]
    · rcases found : store.sessions.lookup sessionId with _ | owned
      · simp [sessionAllows, activeSession, SessionFree, found]
      · have free : SessionFree store now (some config) sessionId ↔
            owned.lockedUntil ≤ now ∨ owned.workerId = config.ownerId := by
          simp [SessionFree, found]
        by_cases active : (now : Int) < owned.lockedUntil
        · simp [sessionAllows, activeSession, found, free, active]
        · simp [sessionAllows, activeSession, found, free, active, Int.not_lt.mp active]

/-- A row is available exactly if it is eligible. -/
theorem isAvailable_iff : isAvailable store now session filter row ↔ Eligible store now session filter row := by
  rw [isAvailable, Bool.and_eq_true, Bool.and_eq_true, Bool.and_eq_true, sessionAllows_iff, accepts_eq_matches,
    decide_eq_true_eq, Bool.or_eq_true, Option.isNone_iff_eq_none, Option.any_eq_true]
  simp only [decide_eq_true_eq]
  constructor
  · rintro ⟨⟨⟨visible, unlocked⟩, free, configured⟩, accepted⟩
    exact ⟨⟨visible, unlocked, accepted, free⟩, configured⟩
  · rintro ⟨⟨visible, unlocked, accepted, free⟩, configured⟩
    exact ⟨⟨⟨visible, unlocked⟩, free, configured⟩, accepted⟩

/-- On a queue that is kept in the order of its ids the query returns the first available row. -/
theorem nextItem_eq_find? (sorted : store.workerQueue.Pairwise fun one other => one.id < other.id) :
    nextItem store now session filter = store.workerQueue.find? (isAvailable store now session filter) := by
  have cases := nextItem_cases store now session filter
  rcases picked : nextItem store now session filter with _ | row
  · rw [picked] at cases
    refine (List.find?_eq_none.mpr fun row listed available => ?_).symm
    exact cases row listed (isAvailable_iff.mp available)
  · rw [picked] at cases
    obtain ⟨listed, eligible, lowest⟩ := cases
    obtain ⟨before, after, split⟩ := List.append_of_mem listed
    refine (List.find?_eq_some_iff_append.mpr ⟨isAvailable_iff.mpr eligible, before, after, split, ?_⟩).symm
    intro other earlier
    rw [Bool.not_eq_true']
    apply Bool.eq_false_iff.mpr
    intro available
    rw [split] at sorted
    have less := (List.pairwise_append.mp sorted).2.2 other earlier row List.mem_cons_self
    have member : other ∈ store.workerQueue := split ▸ List.mem_append_left (row :: after) earlier
    exact absurd (lowest other member (isAvailable_iff.mp available)) (Nat.not_le.mpr less)

/-- The query and the first available row agree, so the fetches do. -/
theorem fetchNextWorkItem_eq_fetchWorkItem {lockTimeoutMs token : Nat}
    (sorted : store.workerQueue.Pairwise fun one other => one.id < other.id) :
    fetchNextWorkItem store now lockTimeoutMs token session filter =
      fetchWorkItem store now lockTimeoutMs token session filter := by
  unfold fetchNextWorkItem fetchWorkItem
  rw [nextItem_eq_find? sorted]
  split_ifs with nothing
  · have none : store.workerQueue.find? (isAvailable store now session filter) = none := by
      apply List.find?_eq_none.mpr
      intro row _ available
      exact not_eligible_none (nothing ▸ isAvailable_iff.mp available)
    rw [none]
    rfl
  · rfl

end Duroxide.Provider
