import Duroxide.Proofs.QueueTables

/-! # Progress of a fetch

A fetch turns to the instance of the oldest available message and to no other. It returns an item
exactly if that instance has a row, a recorded start or a start among its visible messages; otherwise it
returns nothing, whatever other instances are waiting behind it.
-/

namespace Duroxide.FetchProgress

open Provider Lib.Database Lib.Database.Db

variable {semver : Semver}

/-- A visible start item of an instance. -/
def StartQueued (store : Store) (now : Nat) (instanceId : String) : Prop :=
  ∃ row ∈ store.orchestratorQueue, row.instanceId = instanceId ∧ row.visibleAt ≤ (now : Int) ∧
    ∃ item ∈ row.decoded, item.isStart

/-- An instance that a fetch could serve: a visible message, no live lock, a supported version, and a
row or a start item. -/
structure Servable (filter : Option (List (SemverRange semver))) (store : Store) (now : Nat) (instanceId : String) :
    Prop where
  supports : filter.any (·.isEmpty) = false
  candidate : Candidate store now (rangeOf filter) instanceId
  opens : (store.instances instanceId).isSome ∨ StartQueued store now instanceId

/-- The events of the latest execution of an instance, or nothing when they cannot be read. -/
def latestEvents (store : Store) (instanceId : String) : List Event :=
  (store.readHistory instanceId (store.latestExecutionId instanceId)).toOption.getD []

/-- An instance of which a fetch makes an item. -/
inductive Answerable (store : Store) (now : Nat) (instanceId : String) : Prop
  | row (present : (store.instances instanceId).isSome)
  | recorded (started : ∃ event ∈ latestEvents store instanceId, event.kind.isStarted)
  | requested (start : StartQueued store now instanceId)

/-- A call returned an item. -/
def ReturnsItem (result : Except ProviderError (Option FetchedItem)) : Prop := ∃ fetched, result = .ok (some fetched)

/-! ## Executing a fetch -/

variable (config : ProviderConfig) {store committed working : Store} {now lockTimeoutMs token attemptCount : Nat}
  {instanceId : String} {reported : Option (Statement × SqlxError)}

theorem finishFetch_returns (item : OrchestrationItem) :
    ReturnsItem (finishFetch config token attemptCount item ⟨committed, working, none, reported⟩).1 :=
  ⟨_, rfl⟩

theorem fetchKnownInstance_returns (messages : List WorkItem) (info : InstanceRow) :
    ReturnsItem (fetchKnownInstance config token attemptCount instanceId messages info
      ⟨committed, working, none, reported⟩).1 := by
  unfold fetchKnownInstance
  dsimp only
  rcases read : working.readHistory instanceId info.currentExecutionId with error | events
  · rw [bind_ok (attempt_apply (statement_undisturbed_error (by rw [read]; rfl)))]
    exact ⟨_, rfl⟩
  · rw [bind_ok (attempt_apply (statement_undisturbed (by rw [read]; rfl)))]
    exact finishFetch_returns config _

/-- Reading the latest history gives its events, or an error. -/
theorem readLatestHistory_undisturbed (instanceId : String) (committed working : Store)
    (reported : Option (Statement × SqlxError)) :
    ∃ result, readLatestHistory instanceId ⟨committed, working, none, reported⟩ =
      (result, ⟨committed, working, none, reported⟩) ∧ result.toOption.getD [] = latestEvents working instanceId := by
  unfold readLatestHistory latestEvents
  rw [bind_ok query_undisturbed]
  rcases read : working.readHistory instanceId (working.latestExecutionId instanceId) with error | events
  · exact ⟨.error error, statement_undisturbed_error (by rw [read]; rfl), rfl⟩
  · exact ⟨.ok events, statement_undisturbed (by rw [read]; rfl), rfl⟩

theorem isStarted_iff_startedNameVersion (event : Event) :
    event.kind.isStarted = true ↔ ∃ identity, startedNameVersion event = some identity := by
  unfold startedNameVersion
  cases event.kind <;> simp [EventKind.isStarted]

theorem isStart_iff_startItemNameVersion (item : WorkItem) :
    item.isStart = true ↔ ∃ identity, startItemNameVersion item = some identity := by
  cases item <;> simp [startItemNameVersion, WorkItem.isStart]

theorem findSome_none_of_not_started {events : List Event} (absent : ¬ ∃ event ∈ events, event.kind.isStarted) :
    events.findSome? startedNameVersion = none := by
  rw [List.findSome?_eq_none_iff]
  intro event member
  by_contra found
  exact absent ⟨event, member, (isStarted_iff_startedNameVersion event).mpr (Option.ne_none_iff_exists'.mp found)⟩

theorem findSome_none_of_not_start {items : List WorkItem} (absent : ¬ ∃ item ∈ items, item.isStart) :
    items.findSome? startItemNameVersion = none := by
  rw [List.findSome?_eq_none_iff]
  intro item member
  by_contra found
  exact absent ⟨item, member, (isStart_iff_startItemNameVersion item).mpr (Option.ne_none_iff_exists'.mp found)⟩

/-- An instance without a row is answered from its history or from a start item, or not at all. -/
theorem fetchUnknownInstance_returns_iff (messages : List WorkItem) :
    ReturnsItem (fetchUnknownInstance config token attemptCount instanceId messages
        ⟨committed, working, none, reported⟩).1 ↔
      (∃ event ∈ latestEvents working instanceId, event.kind.isStarted) ∨ ∃ item ∈ messages, item.isStart := by
  obtain ⟨latest, read, events⟩ := readLatestHistory_undisturbed instanceId committed working reported
  unfold fetchUnknownInstance
  rw [bind_ok (attempt_apply read)]
  dsimp only
  rw [events]
  constructor
  · intro returns
    by_contra neither
    obtain ⟨noHistory, noStart⟩ := not_or.mp neither
    rw [findSome_none_of_not_started noHistory, findSome_none_of_not_start noStart] at returns
    obtain ⟨fetched, answer⟩ := returns
    dsimp only at answer
    split_ifs at answer
    · cases answer
    · cases answer
  · intro announced
    rcases noHistory : (latestEvents working instanceId).findSome? startedNameVersion with _ | identity
    · rcases noStart : messages.findSome? startItemNameVersion with _ | identity
      · rw [List.findSome?_eq_none_iff] at noHistory noStart
        rcases announced with ⟨event, member, started⟩ | ⟨item, member, start⟩
        · obtain ⟨identity, found⟩ := (isStarted_iff_startedNameVersion event).mp started
          rw [noHistory event member] at found
          cases found
        · obtain ⟨identity, found⟩ := (isStart_iff_startItemNameVersion item).mp start
          rw [noStart item member] at found
          cases found
      · exact finishFetch_returns config _
    · exact finishFetch_returns config _

/-- A fetch of a free instance with a visible message ends in the two branches above. -/
theorem fetchLocked_returns_iff (unused : Unused store token) (range : Option (Nat × Nat))
    (candidate : Candidate store now range instanceId) (lockTimeoutMs : Nat)
    (reported : Option (Statement × SqlxError)) :
    ReturnsItem (fetchLocked config now token instanceId
        ⟨store, (store.acquireLock now instanceId ⟨token, now + lockTimeoutMs⟩).2, none, reported⟩).1 ↔
      Answerable store now instanceId := by
  have inBatch := @mem_batch store now lockTimeoutMs token instanceId unused candidate.unlocked
  have nonempty : ((lockedStore store now lockTimeoutMs token instanceId).batch token).isEmpty = false := by
    obtain ⟨row, member, target, visible⟩ := candidate.queued
    rw [List.isEmpty_eq_false_iff]
    intro none
    rw [batch_lockedStore candidate.unlocked unused, List.map_eq_nil_iff, List.filter_eq_nil_iff] at none
    exact none row member (by simp [target, visible])
  obtain ⟨locks, queue, same⟩ := lockedStore_eq store now lockTimeoutMs token instanceId
  have events : latestEvents (lockedStore store now lockTimeoutMs token instanceId) instanceId =
      latestEvents store instanceId := by rw [same]; rfl
  unfold fetchLocked
  rw [bind_ok update_undisturbed, bind_ok query_undisturbed]
  change ReturnsItem ((if ((lockedStore store now lockTimeoutMs token instanceId).batch token).isEmpty then _ else _ : Op _)
    ⟨store, lockedStore store now lockTimeoutMs token instanceId, none, reported⟩).1 ↔ _
  rw [nonempty]
  simp only [Bool.false_eq_true, ↓reduceIte]
  rw [bind_ok query_undisturbed, lockedStore_instances]
  rcases row : store.instances instanceId with _ | info
  · refine (fetchUnknownInstance_returns_iff config _).trans ?_
    rw [events]
    constructor
    · rintro (started | ⟨item, member, start⟩)
      · exact .recorded started
      · obtain ⟨queued, listed, target, visible, read⟩ := (inBatch item).mp member
        exact .requested ⟨queued, listed, target, visible, item, read, start⟩
    · rintro (present | started | ⟨queued, listed, target, visible, item, read, start⟩)
      · rw [row] at present
        cases present
      · exact .inl started
      · exact .inr ⟨item, (inBatch item).mpr ⟨queued, listed, target, visible, read⟩, start⟩
  · refine iff_of_true (fetchKnownInstance_returns config _ info) (.row ?_)
    rw [row]
    rfl

theorem fetchCandidate_returns_iff (unused : Unused store token) (range : Option (Nat × Nat))
    (candidate : Candidate store now range instanceId) (lockTimeoutMs : Nat)
    (reported : Option (Statement × SqlxError)) :
    ReturnsItem (fetchCandidate config now lockTimeoutMs token instanceId ⟨store, store, none, reported⟩).1 ↔
      Answerable store now instanceId := by
  have acquired : store.acquireLock now instanceId ⟨token, now + lockTimeoutMs⟩ =
      (true, (store.acquireLock now instanceId ⟨token, now + lockTimeoutMs⟩).2) := by
    simp only [Store.acquireLock, candidate.unlocked, ↓reduceIte]
  unfold fetchCandidate
  rw [bind_ok (onError_undisturbed (statement_undisturbed (congrArg Except.ok acquired)))]
  exact fetchLocked_returns_iff config unused range candidate lockTimeoutMs reported

/-- A servable instance makes a fetch turn to some instance. -/
theorem Servable.selects {filter : Option (List (SemverRange semver))} (servable : Servable filter store now instanceId) :
    ∃ selected, store.selectCandidate now (rangeOf filter) = some selected := by
  obtain ⟨row, member, target, visible⟩ := servable.candidate.queued
  refine Option.isSome_iff_exists.mp ?_
  unfold Store.selectCandidate
  rw [Option.isSome_map, List.find?_isSome]
  refine ⟨row, member, ?_⟩
  simp only [Bool.and_eq_true, decide_eq_true_eq]
  exact ⟨⟨visible, target ▸ servable.candidate.unlocked⟩, target ▸ servable.candidate.supported⟩

/-- Without a database error, and with an instance to serve, a fetch returns an item exactly if the
instance of the oldest available message can be answered. -/
theorem returnsItem_iff (filter : Option (List (SemverRange semver))) (store : Store) (now lockTimeoutMs token : Nat)
    (unused : Unused store token) (servable : ∃ instanceId, Servable filter store now instanceId) :
    ReturnsItem (fetchOrchestrationItem config filter now lockTimeoutMs token (Conn.open store none)).1 ↔
      ∀ instanceId, store.selectCandidate now (rangeOf filter) = some instanceId → Answerable store now instanceId := by
  obtain ⟨served, servable⟩ := servable
  obtain ⟨instanceId, found⟩ := servable.selects
  have runs : ReturnsItem (fetchOrchestrationItem config filter now lockTimeoutMs token (Conn.open store none)).1 ↔
      Answerable store now instanceId := by
    rw [← fetchCandidate_returns_iff config unused _ (selectCandidate_spec found) lockTimeoutMs none]
    unfold fetchOrchestrationItem Conn.open
    rw [bind_ok begin_undisturbed, if_neg (by simp [servable.supports]), bind_ok query_undisturbed]
    have selected := found
    unfold rangeOf at selected
    rw [selected]
  rw [runs]
  constructor
  · intro answerable other same
    rw [found] at same
    cases same
    exact answerable
  · intro all
    exact all instanceId found

/-! A cancellation of an instance that does not exist waits in front of a start request. -/

def blockedStore : Store :=
  ((({} : Store).insertOrchestratorRow (.cancelInstance "ghost" "") 0).insertOrchestratorRow
    (.startOrchestration "i" "orch" "" none none none 1) 0)

theorem blockedStore_unused (token : Nat) : Unused blockedStore token where
  rows row member := by
    intro locked
    rcases List.mem_cons.mp member with rfl | later
    · cases locked
    · rw [List.mem_singleton.mp later] at locked
      cases locked
  locks instanceId lock found := by cases found

theorem blockedStore_servable (now : Nat) : Servable (none : Option (List (SemverRange textSemver))) blockedStore now "i" where
  supports := rfl
  candidate := ⟨⟨_, List.mem_cons_of_mem _ List.mem_cons_self, rfl, Int.natCast_nonneg now⟩, rfl, rfl⟩
  opens := .inr ⟨_, List.mem_cons_of_mem _ List.mem_cons_self, rfl, Int.natCast_nonneg now, _, rfl, rfl⟩

theorem returnsItem_iff_blocked : ReturnsItem (fetchOrchestrationItem {} (none : Option (List (SemverRange textSemver))) 0
      1000 1 (Conn.open blockedStore none)).1 ↔
    ∀ instanceId, blockedStore.selectCandidate 0 none = some instanceId → Answerable blockedStore 0 instanceId :=
  returnsItem_iff {} none blockedStore 0 1000 1 (blockedStore_unused 1) ⟨"i", blockedStore_servable 0⟩

/-- The start request could be served, but a fetch returns nothing and leaves everything in place. -/
theorem blockedStore_returns_nothing : Servable (none : Option (List (SemverRange textSemver))) blockedStore 0 "i" ∧
    ¬ ReturnsItem (fetchOrchestrationItem {} (none : Option (List (SemverRange textSemver))) 0 1000 1
      (Conn.open blockedStore none)).1 ∧
    (fetchOrchestrationItem {} (none : Option (List (SemverRange textSemver))) 0 1000 1
      (Conn.open blockedStore none)).2.committed.orchestratorQueue = blockedStore.orchestratorQueue := by
  refine ⟨blockedStore_servable 0, ?_, by decide +kernel⟩
  rintro ⟨fetched, returned⟩
  have nothing : ((fetchOrchestrationItem {} (none : Option (List (SemverRange textSemver))) 0 1000 1
      (Conn.open blockedStore none)).1.toOption.join).isNone = true := by
    decide +kernel
  rw [returned] at nothing
  cases nothing

end Duroxide.FetchProgress
