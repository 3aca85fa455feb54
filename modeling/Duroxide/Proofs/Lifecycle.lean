import Duroxide.Proofs.Requests

/-! # The life of an execution

What the tables say about the executions of an instance, in every run: the current execution has
recorded events and those above it have none, an instance without a row never started, and a
continue-as-new item belongs to an instance with a row. So a commit either adds a failure to a history
that nobody could read, or extends exactly the events that its decision was based on.
-/

namespace Duroxide

open Provider Dispatcher

variable {semver : Semver}

/-! ## The rows of the orchestrator queue -/

/-- A row of the orchestrator queue is an old one, or new with the step. -/
inductive RowStep (world : World semver) (label : Step semver) (after : World semver) (row : OrchestratorRow) : Prop
  | kept (original : OrchestratorRow) (member : original ∈ world.store.orchestratorQueue)
      (item : original.workItem = row.workItem) (sameInstance : original.instanceId = row.instanceId)
      (same : original.id = row.id)
  | client (target : row.instanceId = row.workItem.targetInstance) (item : row.workItem.isClientItem)
  | completion (target : row.instanceId = row.workItem.targetInstance) (item : isActivityCompletion row.workItem)
      (taken : ∃ now token maxAttempts outcome, label = .completeWork now token maxAttempts outcome)
  | committed (target : row.instanceId = row.workItem.targetInstance) (delivery : Delivery semver)
      (request : AckRequest semver) (instanceId : String)
      (commits : Commits world label delivery request instanceId after) (listed : row.workItem ∈ request.orchestratorItems)

theorem activityCompletion_isActivityCompletion {maxAttempts : Nat} {serialize : WorkItem → String} {held : WorkDelivery}
    {outcome : Except String String} {completion : WorkItem}
    (reported : activityCompletion maxAttempts serialize held outcome = some completion) :
    isActivityCompletion completion := by
  unfold activityCompletion at reported
  split at reported
  · split_ifs at reported
    · cases reported
      rfl
    · split at reported <;> cases reported <;> rfl
  · cases reported

theorem RowStep.marked {world after : World semver} {label : Step semver} {now lockTimeoutMs token : Nat}
    {instanceId : String} (unlocked : world.store.isUnlocked now instanceId) {row : OrchestratorRow}
    (member : row ∈ (lockedStore world.store now lockTimeoutMs token instanceId).orchestratorQueue) :
    RowStep world label after row := by
  rw [lockedStore_of_unlocked unlocked] at member
  obtain ⟨original, old, rfl⟩ := List.mem_map.mp member
  exact .kept original old (markedRow_workItem ..).symm (markedRow_instanceId ..).symm (markedRow_id ..).symm

theorem Effect.row {world after : World semver} {label : Step semver} (effect : Effect world label after)
    {row : OrchestratorRow} (member : row ∈ after.store.orchestratorQueue) : RowStep world label after row := by
  cases effect with
  | fetchedNothing | decided | ackFailed | turnFailed | abandonFailed | renewFailed | workCancelled | workAckFailed
  | workDropFailed | workAbandonFailed => exact .kept row member rfl rfl rfl
  | enqueued now item isClientItem =>
    rcases List.mem_append.mp member with old | new
    · exact .kept row old rfl rfl rfl
    · rw [List.mem_singleton.mp new]
      exact .client rfl isClientItem
  | fetched config filter now lockTimeoutMs token fault fresh item attemptCount candidate found =>
    exact .marked candidate.unlocked member
  | dropped config filter now lockTimeoutMs token fault fresh instanceId candidate noRow orphans =>
    exact .marked candidate.unlocked (List.mem_filter.mp member).1
  | acked config now token fault delivery request fallback failed holds phase instanceId store committed =>
    change row ∈ store.orchestratorQueue at member
    rw [committed.queue] at member
    rcases List.mem_append.mp member with old | new
    · exact .kept row (List.mem_filter.mp old).1 rfl rfl rfl
    · obtain ⟨_, _, _, _, listed, target, _⟩ := QueueSound.mem_enqueuedRows new
      exact .committed target delivery request instanceId ⟨⟨config, now, token, fault, rfl, holds, committed, rfl⟩,
        fallback, failed, phase⟩ (List.mem_filter.mp listed).1
  | abandoned now token delivery delayMs ignoreAttempt holds phase store released =>
    obtain ⟨instanceId, _, rfl⟩ := abandonOrchestrationItem_spec released
    obtain ⟨original, old, rfl⟩ := List.mem_map.mp member
    exact .kept original old (abandonedRow_workItem ..).symm (abandonedRow_identity ..).2.1.symm
      (abandonedRow_identity ..).1.symm
  | renewed now token extendMs store extended =>
    rw [QueueSound.renewOrchestrationItemLock_spec extended] at member
    exact .kept row member rfl rfl rfl
  | workFetched now lockTimeoutMs token session filter fresh workItem attemptCount store found =>
    obtain ⟨fetched, sessions, _, _, rfl⟩ := fetchWorkItem_spec found
    exact .kept row member rfl rfl rfl
  | workRenewed now token extendMs held holds store extended =>
    obtain ⟨sessions, rfl⟩ := renewWorkItemLock_spec extended
    exact .kept row member rfl rfl rfl
  | workCompleted now token maxAttempts outcome held holds completion reported store acked =>
    obtain ⟨locked, sessions, _, rfl⟩ := ackWorkItem_spec acked
    rcases List.mem_append.mp member with old | new
    · exact .kept row old rfl rfl rfl
    · rw [List.mem_singleton.mp new]
      exact .completion rfl (activityCompletion_isActivityCompletion reported) ⟨now, token, maxAttempts, outcome, rfl⟩
  | workDropped now token held holds cancelled store acked =>
    obtain ⟨locked, sessions, _, rfl⟩ := ackWorkItem_spec acked
    exact .kept row member rfl rfl rfl
  | workAbandoned now token delayMs ignoreAttempt store released =>
    rw [abandonWorkItem_spec released] at member
    exact .kept row member rfl rfl rfl

/-! ## Executions and their instance -/

/-- A continue-as-new item names an orchestration, and its instance has a row. -/
def ContinuesKnown (store : Store) (instanceId : String) : WorkItem → Prop
  | .continueAsNew _ orchestration .. => orchestration ≠ "" ∧ (store.instances instanceId).isSome
  | _ => True

/-- Other items say nothing about their instance. -/
theorem ContinuesKnown.of_other {store : Store} {target : String} {item : WorkItem}
    (other : ∀ {instanceId orchestration input version carried status},
      item ≠ .continueAsNew instanceId orchestration input version carried status) : ContinuesKnown store target item := by
  cases item with
  | continueAsNew => exact absurd rfl other
  | _ => trivial

theorem ContinuesKnown.mono {before after : Store} {target : String} {item : WorkItem}
    (kept : (before.instances target).isSome → (after.instances target).isSome)
    (known : ContinuesKnown before target item) : ContinuesKnown after target item := by
  cases item with
  | continueAsNew => exact ⟨known.1, kept known.2⟩
  | _ => trivial

/-- What the tables say about the executions of an instance. -/
structure InstanceRecords (store : Store) (instanceId : String) : Prop where
  positive : ∀ info, store.instances instanceId = some info → INITIAL_EXECUTION_ID ≤ info.currentExecutionId
  current : ∀ info, store.instances instanceId = some info → store.recorded instanceId info.currentExecutionId ≠ []
  above : ∀ info, store.instances instanceId = some info → ∀ executionId, info.currentExecutionId < executionId →
    store.recorded instanceId executionId = []
  absent : store.instances instanceId = none → ∀ executionId, executionId ≠ INITIAL_EXECUTION_ID →
    store.recorded instanceId executionId = []
  unstarted : store.instances instanceId = none → ∀ event ∈ store.recorded instanceId INITIAL_EXECUTION_ID,
    event.kind.isStarted = false
  numbered : store.recorded instanceId INITIAL_EXECUTION_ID = [] ∨
    ∃ event ∈ store.recorded instanceId INITIAL_EXECUTION_ID, event.eventId = INITIAL_EVENT_ID

/-- What holds of executions, instances and continue-as-new items in every run. -/
structure Lifecycle (world : World semver) : Prop where
  records : ∀ instanceId, InstanceRecords world.store instanceId
  queued : ∀ row ∈ world.store.orchestratorQueue, ContinuesKnown world.store row.instanceId row.workItem
  held : ∀ token delivery, world.deliveries token = some delivery → ∀ message ∈ delivery.item.messages,
    ContinuesKnown world.store delivery.item.instanceId message

/-- What a pending request of the holder of a lock is based on. -/
inductive Based (store : Store) (item : OrchestrationItem) (request : AckRequest semver) : Prop
  | corrupted (info : InstanceRow) (row : store.instances item.instanceId = some info)
      (current : request.executionId = info.currentExecutionId) (message : String)
      (unreadable : item.historyError = some message) (failed : Event) (delta : request.historyDelta = [failed])
      (numbered : failed.eventId = CORRUPTED_HISTORY_EVENT_ID) (kind : failed.kind.isFailed)
  | continued (readable : item.historyError = none) (same : request.executionId = item.executionId)
      (base : store.recorded item.instanceId request.executionId = item.history)
  | opened (readable : item.historyError = none) (continues : (workitemReader item).isContinueAsNew)
      (next : request.executionId = item.executionId + 1) (info : InstanceRow)
      (row : store.instances item.instanceId = some info) (current : item.executionId = info.currentExecutionId)
      (named : (workitemReader item).hasOrchestrationName)
      (base : store.recorded item.instanceId request.executionId = [])
  | requested (readable : item.historyError = none) (same : request.executionId = item.executionId)
      (noRow : store.instances item.instanceId = none) (first : request.executionId = 1) (empty : item.history = [])

/-- How a commit changes the recorded events of the execution that it is about. -/
inductive Extended (before after : Store) (item : OrchestrationItem) (request : AckRequest semver) : Prop
  | unchanged (readable : item.historyError = none) (same : request.executionId = item.executionId)
      (empty : item.history = []) (nothing : request.historyDelta = [])
      (kept : after.recorded item.instanceId request.executionId = before.recorded item.instanceId request.executionId)
  | corrupted (info : InstanceRow) (row : before.instances item.instanceId = some info)
      (current : request.executionId = info.currentExecutionId) (message : String)
      (unreadable : item.historyError = some message) (failed : Event) (delta : request.historyDelta = [failed])
      (numbered : failed.eventId = CORRUPTED_HISTORY_EVENT_ID) (kind : failed.kind.isFailed)
  | continued (readable : item.historyError = none) (same : request.executionId = item.executionId)
      (base : before.recorded item.instanceId request.executionId = item.history)
      (appended : after.recorded item.instanceId request.executionId = item.history ++ request.historyDelta)
  | opened (readable : item.historyError = none) (continues : (workitemReader item).isContinueAsNew)
      (next : request.executionId = item.executionId + 1) (info : InstanceRow)
      (row : before.instances item.instanceId = some info) (current : item.executionId = info.currentExecutionId)
      (named : (workitemReader item).hasOrchestrationName)
      (base : before.recorded item.instanceId request.executionId = [])
      (appended : after.recorded item.instanceId request.executionId = request.historyDelta)

/-- Events numbered above those of an execution are recorded behind them. -/
theorem recorded_of_appended {before after : World semver} (provenance : Provenance before) {instanceId : String}
    {executionId : Nat} {delta : List Event}
    (appended : insertEvents (before.store.history instanceId executionId) delta =
      some (after.store.history instanceId executionId))
    (ascending : Ascending (before.store.recorded instanceId executionId ++ delta)) :
    after.store.recorded instanceId executionId = before.store.recorded instanceId executionId ++ delta := by
  obtain ⟨history, inserted, holds⟩ :=
    ExecutionHistory.insertEvents_above (provenance.holds instanceId executionId) ascending
  rw [appended] at inserted
  cases inserted
  exact holds.events_eq

/-- What is recorded after a commit. -/
theorem mem_recorded_iff {store after : Store} {now token : Nat} {instanceId : String} {request : AckRequest semver}
    (committed : Acked store now token instanceId request after) {event : Event} :
    event ∈ after.recorded instanceId request.executionId ↔
      event ∈ store.recorded instanceId request.executionId ∨ event ∈ request.historyDelta := by
  simp only [Store.recorded, List.mem_filterMap]
  constructor
  · rintro ⟨row, member, holds⟩
    rcases (ExecutionHistory.mem_insertEvents_iff committed.appended).mp member with old | ⟨appended, listed, rfl⟩
    · exact .inl ⟨row, old, holds⟩
    · cases holds
      exact .inr listed
  · rintro (⟨row, old, holds⟩ | listed)
    · exact ⟨row, (ExecutionHistory.mem_insertEvents_iff committed.appended).mpr (.inl old), holds⟩
    · exact ⟨rowOf event, (ExecutionHistory.mem_insertEvents_iff committed.appended).mpr (.inr ⟨event, listed, rfl⟩), rfl⟩

theorem recorded_other {store after : Store} {now token : Nat} {instanceId : String} {request : AckRequest semver}
    (committed : Acked store now token instanceId request after) {other : String} {executionId : Nat}
    (differs : (other, executionId) ≠ (instanceId, request.executionId)) :
    after.recorded other executionId = store.recorded other executionId := by
  rw [Store.recorded, Store.recorded, committed.otherHistory other executionId differs]

/-- The current execution after a commit. -/
theorem currentExecutionId_of_acked {store after : Store} {now token : Nat} {instanceId : String}
    {request : AckRequest semver} (committed : Acked store now token instanceId request after) :
    (after.instances instanceId).map (·.currentExecutionId) =
      match store.instances instanceId with
      | some info => some (max info.currentExecutionId request.executionId)
      | none => if (identityOf request.metadata).isSome then some request.executionId else none := by
  have status : ∀ row, (statusInstance request row).map (·.currentExecutionId) = row.map (·.currentExecutionId) := by
    intro row
    cases row with
    | none => rfl
    | some info =>
      simp only [statusInstance, Option.map_some]
      split <;> rfl
  rw [committed.instanceRow, status]
  simp only [bumpedInstance, namedInstance]
  rcases identityOf request.metadata with _ | ⟨name, version⟩ <;> rcases store.instances instanceId with _ | info
  · rfl
  · rfl
  · simp
  · rfl

namespace Lifecycle

variable {world after : World semver} {label : Step semver} {delivery : Delivery semver} {request : AckRequest semver}
  {instanceId : String} {conditions : Conditions semver}

/-- A holder whose batch continues as new belongs to an instance with a row, and names an orchestration. -/
theorem continuation (lifecycle : Lifecycle world) {token : Nat} (holds : world.deliveries token = some delivery)
    (continues : (workitemReader delivery.item).isContinueAsNew) :
    (workitemReader delivery.item).hasOrchestrationName ∧
      (world.store.instances delivery.item.instanceId).isSome := by
  obtain ⟨_, orchestration, _, _, _, _, member, name⟩ := continuation_of_continues continues
  obtain ⟨named, known⟩ := lifecycle.held token delivery holds _ member
  exact ⟨by rw [WorkItemReader.hasOrchestrationName, name, bne_iff_ne]; exact named, known⟩

/-- The start of an instance without a row is not recorded anywhere. -/
theorem notRecorded (lifecycle : Lifecycle world) (noRow : world.store.instances instanceId = none) (executionId : Nat) :
    ∀ event ∈ world.store.recorded instanceId executionId, event.kind.isStarted = false := by
  by_cases first : executionId = INITIAL_EXECUTION_ID
  · rw [first]
    exact (lifecycle.records instanceId).unstarted noRow
  · rw [(lifecycle.records instanceId).absent noRow executionId first]
    exact fun _ none => absurd none List.not_mem_nil

/-- An item of an instance without a row has no history. -/
theorem describes_of_noRow (lifecycle : Lifecycle world) {item : OrchestrationItem} (describes : Describes world.store item)
    (noRow : world.store.instances item.instanceId = none) :
    item.executionId = 1 ∧ item.historyError = none ∧ item.history = [] := by
  cases describes with
  | known info row => exact nomatch noRow.symm.trans row
  | unreadable info row => exact nomatch noRow.symm.trans row
  | requested _ first readable empty => exact ⟨first, readable, empty⟩
  | recorded _ first readable history started =>
    obtain ⟨event, member, found⟩ := List.exists_of_findSome?_eq_some started
    rw [Store.recorded_of_readHistory history] at member
    have notStarted := lifecycle.notRecorded noRow _ event member
    obtain ⟨eventId, source, owner, executionId, timestamp, crate, kind⟩ := event
    cases kind with
    | orchestrationStarted => cases notStarted
    | _ => cases found

/-- The holder of a lock asks for something about the execution that it has read. -/
theorem based (lifecycle : Lifecycle world) (describes : Describes world.store delivery.item)
    (pending : Pending conditions world) {token : Nat} {fallback : Option (ProviderError → AckRequest semver)}
    {failed : Option ProviderError} (holds : world.deliveries token = some delivery)
    (phase : delivery.phase = .acking request fallback failed) : Based world.store delivery.item request := by
  have source := (pending token delivery request fallback failed holds phase).source
  have described := describes
  cases describes with
  | unreadable info row current named versioned error empty =>
    obtain ⟨message, unreadable⟩ := Option.isSome_iff_exists.mp error
    obtain ⟨same, event, delta, numbered, kind⟩ := source.corrupted unreadable
    exact .corrupted info row (same.trans current) message unreadable event delta numbered kind
  | known info row current named versioned readable history =>
    have base := Store.recorded_of_readHistory history
    rcases source.execution with same | ⟨next, continues⟩
    · rw [← current, ← same] at base
      exact .continued readable same base.symm
    · have fresh := (lifecycle.records _).above info row request.executionId (by omega)
      exact .opened readable continues next info row current (lifecycle.continuation holds continues).1 fresh
  | recorded noRow | requested noRow =>
    obtain ⟨first, readable, empty⟩ := lifecycle.describes_of_noRow described noRow
    have same : request.executionId = delivery.item.executionId := by
      refine source.execution.resolve_right fun ⟨_, continues⟩ => ?_
      have known := (lifecycle.continuation holds continues).2
      rw [noRow] at known
      cases known
    exact .requested readable same noRow (same.trans first) empty

/-- A commit records its events behind those of the execution that its decision was based on. -/
theorem extended (lifecycle : Lifecycle world) (provenance : Provenance world) (coherent : Coherent world)
    (pending : Pending conditions world) (commits : Commits world label delivery request instanceId after) :
    Extended world.store after.store delivery.item request := by
  obtain ⟨config, now, token, fault, _, holds, committed, _⟩ := commits.holds
  obtain ⟨fallback, failed, phase⟩ := commits.phase
  obtain ⟨rfl, describes⟩ := coherent.of_locked committed.locked holds
  have based := lifecycle.based describes pending holds phase
  have source := (pending token delivery request fallback failed holds phase).source
  have origin := provenance.items token delivery holds
  have appended := committed.appended
  cases based with
  | corrupted info row current message unreadable event delta numbered kind =>
    exact .corrupted info row current message unreadable event delta numbered kind
  | continued readable same base =>
    have ascending := source.ascending readable origin.ordered
    rw [same, baseHistory_self, ← base, same] at ascending
    rw [same] at appended
    refine .continued readable same base ?_
    rw [← base, same]
    exact recorded_of_appended provenance appended ascending
  | opened readable continues next info row current named base =>
    have ascending := source.ascending readable origin.ordered
    rw [next, baseHistory_next, List.nil_append] at ascending
    refine .opened readable continues next info row current named base ?_
    rw [recorded_of_appended provenance appended (by rwa [base]), base, List.nil_append]
  | requested readable same noRow first empty =>
    have ascending := source.ascending readable origin.ordered
    rw [same, baseHistory_self, empty, List.nil_append] at ascending
    rcases source.begins readable same empty with nothing | ⟨event, rest, delta, atStart⟩
    · refine .unchanged readable same empty nothing ?_
      rw [nothing] at appended
      rw [Store.recorded, Store.recorded, ← Option.some.inj appended]
    · have occupied := (lifecycle.records delivery.item.instanceId).numbered
      rw [INITIAL_EXECUTION_ID, ← first] at occupied
      rcases occupied with fresh | taken
      · refine .continued readable same (fresh.trans empty.symm) ?_
        rw [recorded_of_appended provenance appended (by rwa [fresh]), fresh, empty]
      · -- the first event id is taken, so nothing was appended
        have refused : insertEvents (world.store.history delivery.item.instanceId request.executionId)
            (event :: rest) = none := by
          refine ExecutionHistory.insertEvents_taken (provenance.holds _ _) ?_
          rwa [atStart]
        rw [delta, refused] at appended
        cases appended

/-- The execution that a commit is about: the current one, the next one, or the first one. -/
inductive Placed (store : Store) (instanceId : String) (request : AckRequest semver) : Prop
  | current (info : InstanceRow) (row : store.instances instanceId = some info)
      (same : request.executionId = info.currentExecutionId)
  | next (info : InstanceRow) (row : store.instances instanceId = some info)
      (after : request.executionId = info.currentExecutionId + 1) (records : request.historyDelta ≠ [])
  | first (noRow : store.instances instanceId = none) (same : request.executionId = INITIAL_EXECUTION_ID)

/-- What the holder of a lock asks for is about such an execution, whether or not it will be committed. -/
theorem placed_of_locked (lifecycle : Lifecycle world) (provenance : Provenance world) (coherent : Coherent world)
    (pending : Pending conditions world) {token : Nat} {fallback : Option (ProviderError → AckRequest semver)}
    {failed : Option ProviderError} (locked : world.store.lockedInstance token = some instanceId)
    (holds : world.deliveries token = some delivery) (phase : delivery.phase = .acking request fallback failed) :
    Placed world.store instanceId request := by
  obtain ⟨rfl, describes⟩ := coherent.of_locked locked holds
  have source := (pending token delivery request fallback failed holds phase).source
  have origin := provenance.items token delivery holds
  have ofRow : ∀ info, world.store.instances delivery.item.instanceId = some info →
      delivery.item.executionId = info.currentExecutionId →
      Placed world.store delivery.item.instanceId request := by
    intro info row current
    rcases source.execution with same | ⟨next, continues⟩
    · exact .current info row (same.trans current)
    · exact .next info row (by rw [next, current])
        (source.opens origin.ordered (by rw [next, baseHistory_next]) (lifecycle.continuation holds continues).1)
  have ofNone : world.store.instances delivery.item.instanceId = none → delivery.item.executionId = 1 →
      Placed world.store delivery.item.instanceId request := by
    intro noRow first
    refine .first noRow ((source.execution.resolve_right fun ⟨_, continues⟩ => ?_).trans first)
    have known := (lifecycle.continuation holds continues).2
    rw [noRow] at known
    cases known
  cases describes with
  | known info row current => exact ofRow info row current
  | unreadable info row current => exact ofRow info row current
  | recorded noRow first => exact ofNone noRow first
  | requested noRow first => exact ofNone noRow first

theorem placed (lifecycle : Lifecycle world) (provenance : Provenance world) (coherent : Coherent world)
    (pending : Pending conditions world) (commits : Commits world label delivery request instanceId after) :
    Placed world.store instanceId request := by
  obtain ⟨config, now, token, fault, _, holds, committed, _⟩ := commits.holds
  obtain ⟨fallback, failed, phase⟩ := commits.phase
  exact lifecycle.placed_of_locked provenance coherent pending committed.locked holds phase

theorem initial : Lifecycle ({} : World semver) where
  records _ :=
    { positive := fun _ row => nomatch row
      current := fun _ row => nomatch row
      above := fun _ row => nomatch row
      absent := fun _ _ _ => rfl
      unstarted := fun _ _ member => absurd member List.not_mem_nil
      numbered := .inl rfl }
  queued _ member := absurd member List.not_mem_nil
  held _ _ holds := nomatch holds

/-- Instances keep their rows. -/
theorem instances_kept (effect : Effect world label after) {target : String}
    (known : (world.store.instances target).isSome) : (after.store.instances target).isSome := by
  rcases effect.records with same | ⟨delivery, request, acked, commits⟩
  · rwa [same.instances]
  · obtain ⟨config, now, token, fault, _, holds, committed, _⟩ := commits.holds
    by_cases own : target = acked
    · subst own
      obtain ⟨info, row⟩ := Option.isSome_iff_exists.mp known
      have bumped := currentExecutionId_of_acked committed
      rw [row] at bumped
      obtain ⟨info', row', _⟩ := Option.map_eq_some_iff.mp bumped
      exact row' ▸ rfl
    · rwa [committed.otherInstances target own]

/-- The executions of an instance depend on its row and its histories only. -/
theorem instanceRecords_congr {before after : Store} {target : String}
    (records : InstanceRecords before target) (row : after.instances target = before.instances target)
    (recorded : ∀ executionId, after.recorded target executionId = before.recorded target executionId) :
    InstanceRecords after target := by
  constructor
  · rw [row]
    exact records.positive
  · simp only [row, recorded]
    exact records.current
  · simp only [row, recorded]
    exact records.above
  · simp only [row, recorded]
    exact records.absent
  · simp only [row, recorded]
    exact records.unstarted
  · simp only [recorded]
    exact records.numbered

/-- What the tables say about the executions of an instance with a row. -/
theorem instanceRecords_of_row {store : Store} {info : InstanceRow} (row : store.instances instanceId = some info)
    (positive : INITIAL_EXECUTION_ID ≤ info.currentExecutionId)
    (current : store.recorded instanceId info.currentExecutionId ≠ [])
    (above : ∀ executionId, info.currentExecutionId < executionId → store.recorded instanceId executionId = [])
    (numbered : store.recorded instanceId INITIAL_EXECUTION_ID = [] ∨
      ∃ event ∈ store.recorded instanceId INITIAL_EXECUTION_ID, event.eventId = INITIAL_EVENT_ID) :
    InstanceRecords store instanceId := by
  have known : ∀ found, store.instances instanceId = some found → found = info :=
    fun found same => Option.some.inj (same.symm.trans row)
  have occupied : store.instances instanceId ≠ none := row ▸ Option.some_ne_none info
  refine ⟨?_, ?_, ?_, fun noRow => absurd noRow occupied, fun noRow => absurd noRow occupied, numbered⟩
  · exact fun found same => known found same ▸ positive
  · exact fun found same => known found same ▸ current
  · exact fun found same => known found same ▸ above

/-- The first execution of an instance keeps the first number. -/
theorem numbered_of_commits (lifecycle : Lifecycle world) (provenance : Provenance world) (coherent : Coherent world)
    (pending : Pending conditions world) (commits : Commits world label delivery request instanceId after) :
    after.store.recorded instanceId INITIAL_EXECUTION_ID = [] ∨
      ∃ event ∈ after.store.recorded instanceId INITIAL_EXECUTION_ID, event.eventId = INITIAL_EVENT_ID := by
  have extended := lifecycle.extended provenance coherent pending commits
  have records := lifecycle.records instanceId
  obtain ⟨config, now, token, fault, _, holds, committed, _⟩ := commits.holds
  obtain ⟨fallback, failed, phase⟩ := commits.phase
  obtain ⟨rfl, _⟩ := coherent.of_locked committed.locked holds
  have source := (pending token delivery request fallback failed holds phase).source
  by_cases first : request.executionId = INITIAL_EXECUTION_ID
  swap
  · rw [recorded_other committed fun same => first (Prod.mk.inj same).2.symm]
    exact records.numbered
  rw [← first]
  have before := records.numbered
  rw [← first] at before
  rcases before with empty | ⟨event, member, atStart⟩
  · cases extended with
    | unchanged readable same _ nothing kept => exact .inl (kept.trans empty)
    | corrupted info row current =>
      rw [current] at empty
      exact absurd empty (records.current info row)
    | continued readable same base appended =>
      rw [empty] at base
      rw [appended, ← base, List.nil_append]
      rcases source.begins readable same base.symm with nothing | ⟨event, rest, delta, atStart⟩
      · exact .inl nothing
      · exact .inr ⟨event, delta ▸ List.mem_cons_self, atStart⟩
    | opened readable continues next info row current =>
      have positive := records.positive info row
      rw [INITIAL_EXECUTION_ID] at first positive
      omega
  · exact .inr ⟨event, (mem_recorded_iff committed).mpr (.inl member), atStart⟩

/-- An execution that has events keeps them. -/
theorem recorded_grows {now token executionId : Nat}
    (committed : Acked world.store now token instanceId request after.store)
    (occupied : world.store.recorded instanceId executionId ≠ []) :
    after.store.recorded instanceId executionId ≠ [] := by
  by_cases same : executionId = request.executionId
  · obtain ⟨event, member⟩ := List.exists_mem_of_ne_nil _ occupied
    rw [same] at member ⊢
    exact List.ne_nil_of_mem ((mem_recorded_iff committed).mpr (.inl member))
  · rwa [recorded_other committed fun both => same (Prod.mk.inj both).2]

/-- A commit keeps the executions of its instance in order. -/
theorem records_of_commits (lifecycle : Lifecycle world) (provenance : Provenance world) (coherent : Coherent world)
    (pending : Pending conditions world) (commits : Commits world label delivery request instanceId after) :
    InstanceRecords after.store instanceId := by
  have placed := lifecycle.placed provenance coherent pending commits
  have numbered := lifecycle.numbered_of_commits provenance coherent pending commits
  have records := lifecycle.records instanceId
  obtain ⟨config, now, token, fault, _, holds, committed, _⟩ := commits.holds
  obtain ⟨fallback, failed, phase⟩ := commits.phase
  have source := (pending token delivery request fallback failed holds phase).source
  have origin := provenance.items token delivery holds
  have bumped := currentExecutionId_of_acked committed
  have other : ∀ executionId, executionId ≠ request.executionId →
      after.store.recorded instanceId executionId = world.store.recorded instanceId executionId :=
    fun executionId differs => recorded_other committed fun same => differs (Prod.mk.inj same).2
  have written : request.historyDelta ≠ [] → after.store.recorded instanceId request.executionId ≠ [] := by
    intro occupied
    obtain ⟨event, member⟩ := List.exists_mem_of_ne_nil _ occupied
    exact List.ne_nil_of_mem ((mem_recorded_iff committed).mpr (.inr member))
  cases placed with
  | current info row same =>
    rw [row, same] at bumped
    dsimp only at bumped
    rw [Nat.max_self] at bumped
    obtain ⟨info', row', current'⟩ := Option.map_eq_some_iff.mp bumped
    apply instanceRecords_of_row row' _ _ _ numbered
    · rw [current']
      exact records.positive info row
    · rw [current']
      exact recorded_grows committed (records.current info row)
    · intro executionId higher
      rw [other executionId (by omega)]
      exact records.above info row executionId (current' ▸ higher)
  | next info row next recordsEvents =>
    rw [row] at bumped
    obtain ⟨info', row', current'⟩ := Option.map_eq_some_iff.mp bumped
    have known : info'.currentExecutionId = request.executionId := by omega
    have positive := records.positive info row
    apply instanceRecords_of_row row' _ _ _ numbered
    · omega
    · rw [known]
      exact written recordsEvents
    · intro executionId higher
      rw [other executionId (by omega)]
      exact records.above info row executionId (by omega)
  | first noRow first =>
    rw [noRow] at bumped
    dsimp only at bumped
    split_ifs at bumped with named
    · obtain ⟨info', row', current'⟩ := Option.map_eq_some_iff.mp bumped
      apply instanceRecords_of_row row' _ _ _ numbered
      · rw [current', first]
      · rw [current']
        exact written (source.records origin.ordered named)
      · intro executionId higher
        rw [other executionId (by omega)]
        exact records.absent noRow executionId (by omega)
    · have gone := Option.map_eq_none_iff.mp bumped
      have unknown : ∀ info, after.store.instances instanceId ≠ some info := fun info found => nomatch gone.symm.trans found
      refine ⟨fun info found => absurd found (unknown info), fun info found => absurd found (unknown info),
        fun info found => absurd found (unknown info), fun _ executionId differs => ?_, fun _ event member => ?_, numbered⟩
      · rw [other executionId (by omega)]
        exact records.absent noRow executionId differs
      · rw [← first] at member
        rcases (mem_recorded_iff committed).mp member with old | new
        · rw [first] at old
          exact records.unstarted noRow event old
        · by_contra started
          exact named (source.identity origin.ordered ⟨event, new, by simpa using started⟩)

theorem records_step (lifecycle : Lifecycle world) (provenance : Provenance world) (coherent : Coherent world)
    (pending : Pending conditions world) (effect : Effect world label after) (target : String) :
    InstanceRecords after.store target := by
  rcases effect.records with same | ⟨delivery, request, acked, commits⟩
  · refine instanceRecords_congr (lifecycle.records target) (by rw [same.instances]) fun executionId => ?_
    rw [Store.recorded, Store.recorded, same.history]
  · by_cases own : target = acked
    · rw [own]
      exact lifecycle.records_of_commits provenance coherent pending commits
    · obtain ⟨config, now, token, fault, _, holds, committed, _⟩ := commits.holds
      exact instanceRecords_congr (lifecycle.records target) (committed.otherInstances target own)
        fun executionId => recorded_other committed fun same => own (Prod.mk.inj same).1

/-- A continue-as-new item is committed with the row of its instance. -/
theorem continuesKnown_of_commits (lifecycle : Lifecycle world) (provenance : Provenance world)
    (coherent : Coherent world) (pending : Pending conditions world)
    (commits : Commits world label delivery request instanceId after) {item : WorkItem}
    (listed : item ∈ request.orchestratorItems) : ContinuesKnown after.store item.targetInstance item := by
  obtain ⟨config, now, token, fault, _, holds, committed, _⟩ := commits.holds
  obtain ⟨fallback, failed, phase⟩ := commits.phase
  obtain ⟨rfl, describes⟩ := coherent.of_locked committed.locked holds
  have source := (pending token delivery request fallback failed holds phase).source
  have origin := provenance.items token delivery holds
  have bumped := currentExecutionId_of_acked committed
  cases item with
  | continueAsNew target orchestration input version carried status =>
    have continues := source.continues origin.ordered listed
    refine ⟨continues.named, ?_⟩
    change (after.store.instances target).isSome
    rw [continues.own, ← Option.isSome_map (f := (·.currentExecutionId)), bumped]
    rcases row : world.store.instances delivery.item.instanceId with _ | info
    swap
    · rfl
    -- the instance is new, so it starts with this commit
    dsimp only
    rw [if_pos]
    · rfl
    refine source.identity origin.ordered ?_
    obtain ⟨event, member, started⟩ := continues.started
    rcases List.mem_append.mp member with base | delta
    · exfalso
      unfold baseHistory at base
      split_ifs at base
      · cases describes with
        | known info found => exact nomatch row.symm.trans found
        | unreadable info found => exact nomatch row.symm.trans found
        | recorded noRow first readable history =>
          rw [Store.recorded_of_readHistory history] at base
          rw [lifecycle.notRecorded noRow _ event base] at started
          cases started
        | requested noRow first readable empty =>
          rw [empty] at base
          exact List.not_mem_nil base
      · exact List.not_mem_nil base
    · exact ⟨event, delta, started⟩
  | _ => trivial

theorem step (lifecycle : Lifecycle world) (provenance : Provenance world) (coherent : Coherent world)
    (pending : Pending conditions world) (effect : Effect world label after) : Lifecycle after where
  records := lifecycle.records_step provenance coherent pending effect
  queued row member := by
    cases effect.row member with
    | kept original old item sameInstance =>
      rw [← item, ← sameInstance]
      exact .mono (instances_kept effect) (lifecycle.queued original old)
    | client target item => exact .of_other fun continues => by rw [continues] at item; cases item
    | completion target item taken => exact .of_other fun continues => by rw [continues] at item; cases item
    | committed target delivery request instanceId commits listed =>
      rw [target]
      exact lifecycle.continuesKnown_of_commits provenance coherent pending commits listed
  held token delivery held message member := by
    cases effect.deliveryStep held with
    | same holds => exact .mono (instances_kept effect) (lifecycle.held token delivery holds message member)
    | moved before holds step kept =>
      rw [kept] at member ⊢
      exact .mono (instances_kept effect) (lifecycle.held token before holds message member)
    | fetched config filter now lockTimeoutMs unused phase candidate found =>
      obtain ⟨desk, presents, sound⟩ := coherent
      have fresh : Unused world.store token := by
        rw [← presents.store]
        refine sound.unused ?_
        have items := presents.items token
        rw [unused, Option.map_none] at items
        exact Option.map_eq_none_iff.mp items.symm
      rw [found.messages] at member
      obtain ⟨row, old, sameInstance, _, item⟩ := (mem_batch fresh candidate.unlocked message).mp member
      rw [← sameInstance, ← OrchestratorRow.workItem_of_decoded item]
      exact .mono (instances_kept effect) (lifecycle.queued row old)

/-- In every run, executions and instances are in order. -/
theorem of_reachable {guard : World semver → Step semver → Prop} (reached : (system semver).Reachable guard world) :
    Lifecycle world := by
  have everywhere := reachable_unconditionally reached
  clear reached
  induction everywhere with
  | initial start => exact start ▸ initial
  | step reached _ taken ih =>
    exact ih.step (.of_reachable reached) (.of_reachable reached) (.of_reachable reached) (World.step_effect taken)

end Lifecycle

end Duroxide
