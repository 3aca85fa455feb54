import Duroxide.Proofs.KeyValueTables

/-! # What a fetch and an acknowledgement can do

Whatever statement a fault hits, a fetch either changes nothing, or locks one instance and returns the
item that its tables describe, or drops a batch of orphaned queue messages. An acknowledgement either
changes nothing or commits everything it was asked to under a valid lock.
-/

namespace Duroxide.Provider

open Lib.Database Lib.Database.Db Lib.Overlay

variable {semver : Semver}

/-! ## Fetching -/

/-- The store in which an instance has just been locked and its visible messages marked. -/
def lockedStore (store : Store) (now lockTimeoutMs token : Nat) (instanceId : String) : Store :=
  (store.acquireLock now instanceId ⟨token, now + lockTimeoutMs⟩).2.markBatch now instanceId token

/-- Locking touches the locks and the orchestrator queue only. -/
theorem lockedStore_eq (store : Store) (now lockTimeoutMs token : Nat) (instanceId : String) :
    ∃ locks queue, lockedStore store now lockTimeoutMs token instanceId =
      { store with instanceLocks := locks, orchestratorQueue := queue } := by
  unfold lockedStore Store.acquireLock
  split_ifs
  · exact ⟨_, _, rfl⟩
  · exact ⟨_, _, rfl⟩

@[simp] theorem lockedStore_instances (store : Store) (now lockTimeoutMs token : Nat) (instanceId : String) :
    (lockedStore store now lockTimeoutMs token instanceId).instances = store.instances := by
  obtain ⟨locks, queue, same⟩ := lockedStore_eq store now lockTimeoutMs token instanceId
  rw [same]

/-- How the tables describe the instance of an item. -/
inductive Describes (store : Store) (item : OrchestrationItem) : Prop
  | known (info : InstanceRow) (row : store.instances item.instanceId = some info)
      (current : item.executionId = info.currentExecutionId) (named : item.orchestrationName = info.orchestrationName)
      (versioned : item.version = info.orchestrationVersion.getD UNKNOWN_VERSION) (readable : item.historyError = none)
      (history : store.readHistory item.instanceId info.currentExecutionId = .ok item.history)
  | unreadable (info : InstanceRow) (row : store.instances item.instanceId = some info)
      (current : item.executionId = info.currentExecutionId) (named : item.orchestrationName = info.orchestrationName)
      (versioned : item.version = info.orchestrationVersion.getD UNKNOWN_VERSION)
      (failed : item.historyError.isSome) (empty : item.history = [])
  | recorded (noRow : store.instances item.instanceId = none) (first : item.executionId = 1)
      (readable : item.historyError = none)
      (history : store.readHistory item.instanceId (store.latestExecutionId item.instanceId) = .ok item.history)
      (started : item.history.findSome? startedNameVersion = some (item.orchestrationName, item.version))
  | requested (noRow : store.instances item.instanceId = none) (first : item.executionId = 1)
      (readable : item.historyError = none) (empty : item.history = []) (version : Option String)
      (start : item.messages.findSome? startItemNameVersion = some (item.orchestrationName, version))
      (versioned : item.version = version.getD UNKNOWN_VERSION)

/-- An item of the batch of its token. -/
structure Batched (store : Store) (token : Nat) (item : OrchestrationItem) (attemptCount : Nat) : Prop where
  nonempty : store.batch token ≠ []
  messages : item.messages = (store.batch token).filterMap (·.decoded)
  attempts : attemptCount = maxAttemptCount (store.batch token)
  describes : Describes store item

/-- A fetched item holds the batch of its token, and the key-value snapshot unless its history is unreadable. -/
structure Fetched (store : Store) (token : Nat) (item : OrchestrationItem) (attemptCount : Nat) : Prop
    extends Batched store token item attemptCount where
  snapshot : item.historyError = none → item.kvSnapshot = store.kvStore item.instanceId

/-- The instance that a fetch turns to. -/
structure Candidate (store : Store) (now : Nat) (range : Option (Nat × Nat)) (instanceId : String) : Prop where
  queued : ∃ row ∈ store.orchestratorQueue, row.instanceId = instanceId ∧ row.visibleAt ≤ now
  unlocked : store.isUnlocked now instanceId = true
  supported : store.supportsInstance range instanceId = true

/-- The packed range of a filter that supports something. -/
def rangeOf (filter : Option (List (SemverRange semver))) : Option (Nat × Nat) :=
  filter.bind fun ranges => ranges.head?.map packRange

/-- What a fetch can have done. -/
inductive FetchOutcome (store : Store) (now lockTimeoutMs token : Nat) (range : Option (Nat × Nat)) :
    Except ProviderError (Option FetchedItem) → Store → Prop
  | failed (error : ProviderError) : FetchOutcome store now lockTimeoutMs token range (.error error) store
  | nothing : FetchOutcome store now lockTimeoutMs token range (.ok none) store
  | locked (item : OrchestrationItem) (attemptCount : Nat) (candidate : Candidate store now range item.instanceId)
      (fetched : Fetched (lockedStore store now lockTimeoutMs token item.instanceId) token item attemptCount) :
      FetchOutcome store now lockTimeoutMs token range (.ok (some (item, token, attemptCount)))
        (lockedStore store now lockTimeoutMs token item.instanceId)
  | dropped (instanceId : String) (candidate : Candidate store now range instanceId)
      (noRow : store.instances instanceId = none)
      (orphans : ∀ row ∈ (lockedStore store now lockTimeoutMs token instanceId).batch token,
        ∀ item ∈ row.decoded, isQueueMessage item)
      (selected : store.selectCandidate now range = some instanceId) :
      FetchOutcome store now lockTimeoutMs token range (.ok none)
        (((lockedStore store now lockTimeoutMs token instanceId).deleteBatch token).deleteLocks
          fun _ lock => lock.lockToken == token)

theorem selectCandidate_spec {store : Store} {now : Nat} {range : Option (Nat × Nat)} {instanceId : String}
    (selected : store.selectCandidate now range = some instanceId) : Candidate store now range instanceId := by
  obtain ⟨row, found, rfl⟩ := Option.map_eq_some_iff.mp selected
  have tested := List.find?_some found
  simp only [Bool.and_eq_true, decide_eq_true_eq] at tested
  exact ⟨⟨row, List.mem_of_find?_eq_some found, rfl, tested.1.1⟩, tested.1.2, tested.2⟩

section Fetch

variable (config : ProviderConfig) {store : Store} {now lockTimeoutMs token : Nat} {range : Option (Nat × Nat)}

/-- The postcondition of a fetch looks at what is committed only. -/
def FetchPost (store : Store) (now lockTimeoutMs token : Nat) (range : Option (Nat × Nat))
    (result : Except ProviderError (Option FetchedItem)) (committed _working : Store) : Prop :=
  FetchOutcome store now lockTimeoutMs token range result committed

theorem fetchPost_failed (error : ProviderError) (working : Store) :
    FetchPost store now lockTimeoutMs token range (.error error) store working := .failed error

theorem fetchPost_nothing (working : Store) :
    FetchPost store now lockTimeoutMs token range (.ok none) store working := .nothing

/-- The key-value snapshot does not change what an item says about its instance. -/
theorem Describes.withKvSnapshot {item : OrchestrationItem} (describes : Describes store item)
    (kvSnapshot : AList fun _ : String => KvEntry) : Describes store { item with kvSnapshot } := by
  cases describes with
  | known info row current named versioned readable history =>
    exact .known info row current named versioned readable history
  | unreadable info row current named versioned failed empty =>
    exact .unreadable info row current named versioned failed empty
  | recorded noRow first readable history started => exact .recorded noRow first readable history started
  | requested noRow first readable empty version start versioned =>
    exact .requested noRow first readable empty version start versioned

theorem finishFetch_outcome {item : OrchestrationItem} {attemptCount : Nat}
    (candidate : Candidate store now range item.instanceId)
    (batched : Batched (lockedStore store now lockTimeoutMs token item.instanceId) token item attemptCount) :
    Outcome (finishFetch config token attemptCount item) store
      (lockedStore store now lockTimeoutMs token item.instanceId) (FetchPost store now lockTimeoutMs token range) := by
  refine outcome_query_bind (fun error => fetchPost_failed _ _) ?_
  refine outcome_commit_pure (fun error => fetchPost_failed _ _) ?_
  exact .locked { item with kvSnapshot := _ } attemptCount candidate
    ⟨⟨batched.nonempty, batched.messages, batched.attempts, batched.describes.withKvSnapshot _⟩, fun _ => rfl⟩

variable {instanceId : String}

theorem fetchKnownInstance_outcome {info : InstanceRow} (candidate : Candidate store now range instanceId)
    (row : (lockedStore store now lockTimeoutMs token instanceId).instances instanceId = some info)
    (nonempty : (lockedStore store now lockTimeoutMs token instanceId).batch token ≠ []) :
    Outcome (fetchKnownInstance config token
        (maxAttemptCount ((lockedStore store now lockTimeoutMs token instanceId).batch token)) instanceId
        (((lockedStore store now lockTimeoutMs token instanceId).batch token).filterMap (·.decoded)) info)
      store (lockedStore store now lockTimeoutMs token instanceId) (FetchPost store now lockTimeoutMs token range) := by
  have unreadable : ∀ error : SqlxError, Outcome (do
        commit (fetchError config) Statement.commit
        return some (({ instanceId, orchestrationName := info.orchestrationName, executionId := info.currentExecutionId
                        version := info.orchestrationVersion.getD UNKNOWN_VERSION, history := []
                        messages := ((lockedStore store now lockTimeoutMs token instanceId).batch token).filterMap (·.decoded)
                        historyError := some ("Failed to deserialize history: " ++ error.message)
                        kvSnapshot := ∅ } : OrchestrationItem), token,
          maxAttemptCount ((lockedStore store now lockTimeoutMs token instanceId).batch token)))
      store (lockedStore store now lockTimeoutMs token instanceId) (FetchPost store now lockTimeoutMs token range) := by
    intro error
    refine outcome_commit_pure (fun error => fetchPost_failed _ _) ?_
    exact .locked _ _ candidate ⟨⟨nonempty, rfl, rfl, .unreadable info row rfl rfl rfl rfl rfl⟩, nofun⟩
  refine outcome_attempt_bind (outcome_statement (fun error => unreadable _) ?_)
  intro history changed ran
  rcases read : (lockedStore store now lockTimeoutMs token instanceId).readHistory instanceId info.currentExecutionId
    with error | events
  · rw [read] at ran
    cases ran
  · rw [read] at ran
    cases ran
    exact finishFetch_outcome config candidate ⟨nonempty, rfl, rfl, .known info row rfl rfl rfl rfl read⟩

/-- Reading the latest history never changes anything, and gives the latest history or an error. -/
theorem readLatestHistory_outcome {committed working : Store} :
    Outcome (readLatestHistory instanceId) committed working fun result committed' working' =>
      committed' = committed ∧ working' = working ∧
        ∀ history, result = .ok history →
          working.readHistory instanceId (working.latestExecutionId instanceId) = .ok history := by
  refine outcome_query_bind (fun error => ⟨rfl, rfl, nofun⟩) ?_
  refine outcome_statement (fun error => ⟨rfl, rfl, nofun⟩) ?_
  intro history changed ran
  rcases read : working.readHistory instanceId (working.latestExecutionId instanceId) with error | events
  · rw [read] at ran
    cases ran
  · rw [read] at ran
    cases ran
    exact ⟨rfl, rfl, fun _ same => by rw [← same]⟩

theorem fetchUnknownInstance_outcome (selected : store.selectCandidate now range = some instanceId)
    (noRow : (lockedStore store now lockTimeoutMs token instanceId).instances instanceId = none)
    (nonempty : (lockedStore store now lockTimeoutMs token instanceId).batch token ≠ []) :
    Outcome (fetchUnknownInstance config token
        (maxAttemptCount ((lockedStore store now lockTimeoutMs token instanceId).batch token)) instanceId
        (((lockedStore store now lockTimeoutMs token instanceId).batch token).filterMap (·.decoded)))
      store (lockedStore store now lockTimeoutMs token instanceId) (FetchPost store now lockTimeoutMs token range) := by
  have candidate := selectCandidate_spec selected
  refine outcome_attempt_bind (readLatestHistory_outcome.mono ?_)
  rintro latest _ _ ⟨rfl, rfl, read⟩
  dsimp only
  split
  · rename_i started
    refine finishFetch_outcome config candidate ⟨nonempty, rfl, rfl, .recorded noRow rfl rfl ?_ started⟩
    rcases latest with error | events
    · simp [Except.toOption] at started
    · exact read events rfl
  · rename_i version _ start
    exact finishFetch_outcome config candidate ⟨nonempty, rfl, rfl, .requested noRow rfl rfl rfl version start rfl⟩
  · split_ifs with orphans
    · refine outcome_update_bind (fun error => fetchPost_failed _ _) ?_
      refine outcome_update_bind (fun error => fetchPost_failed _ _) ?_
      refine outcome_commit_pure (fun error => fetchPost_failed _ _) ?_
      refine .dropped instanceId candidate (by rwa [lockedStore_instances] at noRow)
        (fun row member item read => ?_) selected
      exact List.all_eq_true.mp orphans item (List.mem_filterMap.mpr ⟨row, member, read⟩)
    · exact outcome_ignore_bind keeps_restarted fun changed => outcome_pure (fetchPost_nothing _)

theorem fetchLocked_outcome (selected : store.selectCandidate now range = some instanceId) :
    Outcome (fetchLocked config now token instanceId) store
      (store.acquireLock now instanceId ⟨token, now + lockTimeoutMs⟩).2
      (FetchPost store now lockTimeoutMs token range) := by
  refine outcome_update_bind (fun error => fetchPost_failed _ _) ?_
  refine outcome_query_bind (fun error => fetchPost_failed _ _) ?_
  split_ifs with empty
  · refine outcome_ignore_bind (keeps_statement _) fun changed => ?_
    exact outcome_ignore_bind keeps_restarted fun changed => outcome_pure (fetchPost_nothing _)
  · have nonempty : (lockedStore store now lockTimeoutMs token instanceId).batch token ≠ [] := by
      intro isEmpty
      exact empty (by rw [← List.isEmpty_iff] at isEmpty; exact isEmpty)
    refine outcome_query_bind (fun error => fetchPost_failed _ _) ?_
    rcases row : (lockedStore store now lockTimeoutMs token instanceId).instances instanceId with _ | info
    · have unknown := fetchUnknownInstance_outcome config selected row nonempty
      unfold lockedStore at row unknown
      rw [row]
      exact unknown
    · have known := fetchKnownInstance_outcome config (selectCandidate_spec selected) row nonempty
      unfold lockedStore at row known
      rw [row]
      exact known

theorem fetchCandidate_outcome (selected : store.selectCandidate now range = some instanceId) :
    Outcome (fetchCandidate config now lockTimeoutMs token instanceId) store store
      (FetchPost store now lockTimeoutMs token range) := by
  refine outcome_bind (outcome_onError (outcome_statement (fun error changed => fetchPost_failed _ _) ?_)
    keeps_restarted)
  intro acquired changed ran
  obtain rfl : (store.acquireLock now instanceId ⟨token, now + lockTimeoutMs⟩).1 = acquired :=
    congrArg Prod.fst (Except.ok.inj ran)
  obtain rfl : (store.acquireLock now instanceId ⟨token, now + lockTimeoutMs⟩).2 = changed :=
    congrArg Prod.snd (Except.ok.inj ran)
  have free : (store.acquireLock now instanceId ⟨token, now + lockTimeoutMs⟩).1 = true := by
    simp [Store.acquireLock, (selectCandidate_spec selected).unlocked]
  simp only [free, ↓reduceIte]
  exact fetchLocked_outcome config selected

/-- Whatever statement a fault hits, a fetch ends in one of four ways. -/
theorem fetchOrchestrationItem_outcome (filter : Option (List (SemverRange semver))) (store : Store)
    (now lockTimeoutMs token : Nat) (fault : Option (Nat × SqlxError)) :
    FetchOutcome store now lockTimeoutMs token (rangeOf filter)
      (fetchOrchestrationItem config filter now lockTimeoutMs token (Conn.open store fault)).1
      (fetchOrchestrationItem config filter now lockTimeoutMs token (Conn.open store fault)).2.committed := by
  have whole : Outcome (fetchOrchestrationItem config filter now lockTimeoutMs token) store store
      (FetchPost store now lockTimeoutMs token (rangeOf filter)) := by
    refine outcome_begin_bind (fun error => fetchPost_failed _ _) ?_
    split_ifs
    · exact outcome_commit_pure (fun error => fetchPost_failed _ _) (fetchPost_nothing _)
    · refine outcome_query_bind (fun error => fetchPost_failed _ _) ?_
      split
      · rename_i instanceId selected
        exact fetchCandidate_outcome config selected
      · refine outcome_query_bind (fun error => fetchPost_failed _ _) ?_
        exact outcome_ignore_bind keeps_restarted fun changed => outcome_pure (fetchPost_nothing _)
  exact whole _ rfl rfl

end Fetch

/-! ## Acknowledging -/

/-- Insert events one by one; none when an event id is taken. -/
def insertEvents (history : ExecutionHistory) : List Event → Option ExecutionHistory
  | [] => some history
  | event :: rest => (history.insert ⟨event.eventId, .ok event⟩).bind (insertEvents · rest)

theorem insertEvents_append (history : ExecutionHistory) (first second : List Event) :
    insertEvents history (first ++ second) = (insertEvents history first).bind (insertEvents · second) := by
  induction first generalizing history with
  | nil => rfl
  | cons event rest ih => simp only [List.cons_append, insertEvents, Option.bind_assoc, ih]

/-- The rows of newly enqueued orchestrator items. -/
def enqueuedRows (visible : WorkItem → Int) : Nat → List WorkItem → List OrchestratorRow
  | _, [] => []
  | id, workItem :: rest =>
      { id, instanceId := workItem.targetInstance, workItem, visibleAt := visible workItem } ::
        enqueuedRows visible (id + 1) rest

theorem enqueuedRows_append (visible : WorkItem → Int) (id : Nat) (first second : List WorkItem) :
    enqueuedRows visible id (first ++ second) =
      enqueuedRows visible id first ++ enqueuedRows visible (id + first.length) second := by
  induction first generalizing id with
  | nil => rfl
  | cons item rest ih =>
    simp only [List.cons_append, enqueuedRows, ih, List.length_cons]
    rw [show id + 1 + rest.length = id + (rest.length + 1) by omega]

/-- The rows of newly enqueued worker items. -/
def workerRows (now : Nat) : Nat → List WorkItem → List WorkerRow
  | _, [] => []
  | id, workItem :: rest =>
      { id, workItem, visibleAt := now, identity := (Store.workerColumns workItem).1
        sessionId := (Store.workerColumns workItem).2.1, tag := (Store.workerColumns workItem).2.2 } ::
        workerRows now (id + 1) rest

theorem workerRows_append (now id : Nat) (first second : List WorkItem) :
    workerRows now id (first ++ second) = workerRows now id first ++ workerRows now (id + first.length) second := by
  induction first generalizing id with
  | nil => rfl
  | cons item rest ih =>
    simp only [List.cons_append, workerRows, ih, List.length_cons]
    rw [show id + 1 + rest.length = id + (rest.length + 1) by omega]

theorem mem_workerRows {now id : Nat} {items : List WorkItem} {row : WorkerRow} (member : row ∈ workerRows now id items) :
    id ≤ row.id ∧ row.id < id + items.length ∧ row.lockToken = none ∧
      row.sessionId = (Store.workerColumns row.workItem).2.1 := by
  induction items generalizing id with
  | nil => cases member
  | cons item rest ih =>
    rw [List.length_cons]
    rcases List.mem_cons.mp member with rfl | later
    · exact ⟨Nat.le_refl id, Nat.lt_add_of_pos_right (Nat.succ_pos _), rfl, rfl⟩
    · obtain ⟨above, below, unlocked, columns⟩ := ih later
      exact ⟨by omega, by omega, unlocked, columns⟩

/-- A new row holds an enqueued item, under the identity of its activity. -/
theorem workItem_of_mem_workerRows {now id : Nat} {items : List WorkItem} {row : WorkerRow}
    (member : row ∈ workerRows now id items) :
    row.workItem ∈ items ∧ row.identity = (Store.workerColumns row.workItem).1 := by
  induction items generalizing id with
  | nil => cases member
  | cons item rest ih =>
    rcases List.mem_cons.mp member with rfl | later
    · exact ⟨List.mem_cons_self, rfl⟩
    · exact (ih later).imp_left (List.mem_cons_of_mem _)

theorem workerRows_distinct (now id : Nat) (items : List WorkItem) : ((workerRows now id items).map (·.id)).Nodup := by
  induction items generalizing id with
  | nil => exact List.nodup_nil
  | cons item rest ih =>
    refine List.nodup_cons.mpr ⟨fun again => ?_, ih (id + 1)⟩
    obtain ⟨row, member, same⟩ := List.mem_map.mp again
    have above := (mem_workerRows member).1
    dsimp only at same
    omega

/-- The identities of new rows are those of their items, in order. -/
theorem workerRows_identity (now id : Nat) (items : List WorkItem) :
    (workerRows now id items).map (·.identity) = items.map fun item => (Store.workerColumns item).1 := by
  induction items generalizing id with
  | nil => rfl
  | cons item rest ih => exact congrArg (_ :: ·) (ih (id + 1))

/-- The instance row with the name and version of a request. -/
def namedInstance (request : AckRequest semver) (row : Option InstanceRow) : Option InstanceRow :=
  match identityOf request.metadata with
  | some (name, version) =>
      let info := row.getD { orchestrationName := name, orchestrationVersion := some version
                             currentExecutionId := request.executionId
                             parentInstanceId := request.metadata.parentInstanceId }
      some { info with orchestrationName := name, orchestrationVersion := some version }
  | none => row

/-- The instance row with its name, version and execution id. -/
def bumpedInstance (request : AckRequest semver) (row : Option InstanceRow) : Option InstanceRow :=
  (namedInstance request row).map fun info =>
    { info with currentExecutionId := max info.currentExecutionId request.executionId }

/-- The instance row with a new custom status. -/
def statusInstance (request : AckRequest semver) (row : Option InstanceRow) : Option InstanceRow :=
  row.map fun info =>
    match customStatusFromDelta request.historyDelta with
    | some customStatus => { info with customStatus, customStatusVersion := info.customStatusVersion + 1 }
    | none => info

/-- The row of the acknowledged execution, with its pinned version. -/
def pinnedExecution (request : AckRequest semver) (row : Option ExecutionRow) : ExecutionRow :=
  match request.metadata.pinnedDuroxideVersion with
  | some pinned =>
      { row.getD {} with duroxideVersion := some (semver.major pinned, semver.minor pinned, semver.patch pinned) }
  | none => row.getD {}

/-- The execution row with its status, if the turn ended the execution. -/
def statusExecution (request : AckRequest semver) (row : ExecutionRow) : ExecutionRow :=
  match request.metadata.status with
  | some status => { row with status, output := request.metadata.output }
  | none => row

/-- Whether a turn ends its execution for the provider. -/
def endsExecution (request : AckRequest semver) : Bool := request.metadata.status.any ExecutionStatus.isTerminal

/-- What an acknowledgement makes of the key-value tables: it records the mutations of its events, and the end of
an execution stores them. -/
structure KvMaterialized (instanceId : String) (request : AckRequest semver) (store after : Store) : Prop where
  foreignKvStore : ∀ other, other ≠ instanceId → after.kvStore other = store.kvStore other
  foreignKvDelta : ∀ other, other ≠ instanceId → after.kvDelta other = store.kvDelta other
  keptKvStore : endsExecution request = false → after.kvStore = store.kvStore
  recordedKv : endsExecution request = false → after.kvOverlay instanceId =
    recordAll (store.kvBase instanceId) (kvChanges request.historyDelta) (store.kvOverlay instanceId)
  mergedKv : endsExecution request → after.kvOverlay instanceId = unwritten ∧
    after.kvBase instanceId = applyAll (kvChanges request.historyDelta) (store.kvView instanceId)

/-- The effect of a committed acknowledgement, table by table. -/
structure Acked (store : Store) (now token : Nat) (instanceId : String) (request : AckRequest semver)
    (after : Store) : Prop extends KvMaterialized instanceId request store after where
  locked : store.lockedInstance token = some instanceId
  instanceRow : after.instances instanceId =
    statusInstance request (bumpedInstance request (store.instances instanceId))
  otherInstances : ∀ other, other ≠ instanceId → after.instances other = store.instances other
  executionRow : (after.executions instanceId).lookup request.executionId =
    some (statusExecution request (pinnedExecution request ((store.executions instanceId).lookup request.executionId)))
  otherExecutions : ∀ id, id ≠ request.executionId →
    (after.executions instanceId).lookup id = (store.executions instanceId).lookup id
  foreignExecutions : ∀ other, other ≠ instanceId → after.executions other = store.executions other
  appended : insertEvents (store.history instanceId request.executionId) request.historyDelta =
    some (after.history instanceId request.executionId)
  numbered : ∀ event ∈ request.historyDelta, event.eventId ≠ 0
  otherHistory : ∀ other id, (other, id) ≠ (instanceId, request.executionId) →
    after.history other id = store.history other id
  queue : after.orchestratorQueue = store.orchestratorQueue.filter (fun row => !(row.lockToken == some token)) ++
    enqueuedRows (visibleFrom now) store.nextOrchestratorId (request.orchestratorItems.filter (!isActivityExecute ·))
  nextOrchestratorId : after.nextOrchestratorId =
    store.nextOrchestratorId + (request.orchestratorItems.filter (!isActivityExecute ·)).length
  workers : after.workerQueue = (store.workerQueue ++ workerRows now store.nextWorkerId request.workerItems).filter
    fun row => !row.identity.any (· ∈ request.cancelledActivities)
  nextWorkerId : after.nextWorkerId = store.nextWorkerId + request.workerItems.length
  held : ∃ lock, store.instanceLocks.lookup instanceId = some lock ∧ lock.lockToken = token ∧
    (now : Int) < lock.lockedUntil
  released : after.instanceLocks.lookup instanceId = none
  otherLocks : ∀ other, other ≠ instanceId → (∀ lock, store.instanceLocks.lookup other = some lock →
    lock.lockToken ≠ token) → after.instanceLocks.lookup other = store.instanceLocks.lookup other
  sessions : after.sessions = store.sessions

section Ack

variable (config : ProviderConfig) {committed store : Store} {now token : Nat} {instanceId : String}
  {request : AckRequest semver}

/-- An extension of a lock only moves the end of an unexpired lock of this token. -/
structure ExtendedLocks (now token : Nat) (before after : AList fun _ : String => InstanceLock) : Prop where
  others : ∀ key, (∀ lock, before.lookup key = some lock → lock.lockToken ≠ token) →
    after.lookup key = before.lookup key
  held : ∀ key lock, after.lookup key = some lock → lock.lockToken = token → (now : Int) < lock.lockedUntil →
    ∃ original, before.lookup key = some original ∧ original.lockToken = token ∧ (now : Int) < original.lockedUntil

theorem extendedLocks_refl (locks : AList fun _ : String => InstanceLock) : ExtendedLocks now token locks locks where
  others _ _ := rfl
  held _ lock found tokens valid := ⟨lock, found, tokens, valid⟩

theorem extendAckLock_outcome : Outcome (extendAckLock config now token) committed store
    (StepPost committed fun changed => ∃ locks, changed = { store with instanceLocks := locks } ∧
      ExtendedLocks now token store.instanceLocks locks) := by
  unfold extendAckLock
  split
  · exact outcome_step_pure ⟨store.instanceLocks, rfl, extendedLocks_refl _⟩
  · refine outcome_bind (outcome_statement (fun error => ⟨rfl, nofun⟩) ?_)
    intro extended changed ran
    obtain ⟨rfl, rfl⟩ := Prod.mk.inj (Except.ok.inj ran)
    dsimp only
    split_ifs
    · refine outcome_step_pure ⟨_, rfl, ?_, ?_⟩
      · intro key other
        rw [Lib.KeyedTable.lookup_updateWhere]
        rcases found : store.instanceLocks.lookup key with _ | lock
        · rfl
        · simp [other lock found]
      · intro key lock found tokens valid
        rw [Lib.KeyedTable.lookup_updateWhere] at found
        obtain ⟨original, was, changes⟩ := Option.map_eq_some_iff.mp found
        refine ⟨original, was, ?_⟩
        split_ifs at changes with matched
        · simpa using matched
        · rw [changes]
          exact ⟨tokens, valid⟩
    · exact outcome_ignore_bind keeps_restarted fun changed => outcome_fail ⟨rfl, nofun⟩

/-- The instance row is written. -/
def withInstance (store : Store) (instanceId : String) (row : Option InstanceRow) : Store :=
  { store with instances := Function.update store.instances instanceId row }

theorem insertInstance_eq {row : InstanceRow} {changed : Store}
    (inserted : store.insertInstance instanceId row = .ok changed) :
    changed = withInstance store instanceId (some ((store.instances instanceId).getD row)) := by
  unfold Store.insertInstance at inserted
  split_ifs at inserted with present
  · obtain ⟨info, found⟩ := Option.isSome_iff_exists.mp present
    cases inserted
    rw [withInstance, found, Option.getD_some, ← found, Function.update_eq_self]
  · dsimp only at inserted
    split_ifs at inserted
    cases inserted
    rw [Option.not_isSome_iff_eq_none.mp present]
    rfl

theorem withInstance_updateInstance (store : Store) (instanceId : String) (row : Option InstanceRow)
    (change : InstanceRow → InstanceRow) :
    (withInstance store instanceId row).updateInstance instanceId change =
      withInstance store instanceId (row.map change) := by
  simp only [Store.updateInstance, withInstance, Function.update_self, Function.update_idem]

theorem recordInstance_outcome {name version : String} (identity : identityOf request.metadata = some (name, version)) :
    Outcome (recordInstance config instanceId request (name, version)) committed store
      (StepPost committed fun changed =>
        changed = withInstance store instanceId (namedInstance request (store.instances instanceId))) := by
  refine outcome_bind (outcome_statement (fun error => ⟨rfl, nofun⟩) ?_)
  intro _ changed ran
  rcases inserted : store.insertInstance instanceId
      { orchestrationName := name, orchestrationVersion := some version
        currentExecutionId := request.executionId, parentInstanceId := request.metadata.parentInstanceId }
    with error | result
  · rw [inserted] at ran
    cases ran
  · rw [inserted] at ran
    obtain rfl : result = changed := congrArg Prod.snd (Except.ok.inj ran)
    rw [insertInstance_eq inserted]
    refine outcome_step_update ?_
    rw [withInstance_updateInstance]
    simp only [Option.map_some, namedInstance, identity]

/-- One row of the executions of an instance changed. -/
def ExecutionChanged (instanceId : String) (id : Nat) (row : Option ExecutionRow → ExecutionRow)
    (store changed : Store) : Prop :=
  ∃ rows, changed = { store with executions := Function.update store.executions instanceId rows } ∧
    rows.lookup id = some (row ((store.executions instanceId).lookup id)) ∧
    ∀ other, other ≠ id → rows.lookup other = (store.executions instanceId).lookup other

theorem ensureExecution_changed (store : Store) (instanceId : String) (id : Nat) :
    ExecutionChanged instanceId id (·.getD {}) store (store.ensureExecution instanceId id) := by
  refine ⟨_, rfl, ?_, ?_⟩
  · rcases found : (store.executions instanceId).lookup id with _ | row
    · simp [found]
    · simp [found]
  · intro other differs
    dsimp only
    split_ifs
    · rfl
    · exact AList.lookup_insert_ne differs

theorem ExecutionChanged.update {id : Nat} {row : Option ExecutionRow → ExecutionRow} {changed : Store}
    (change : ExecutionRow → ExecutionRow) (before : ExecutionChanged instanceId id row store changed) :
    ExecutionChanged instanceId id (fun current => change (row current)) store
      (changed.updateExecution instanceId id change) := by
  obtain ⟨rows, rfl, here, elsewhere⟩ := before
  refine ⟨rows.insert id (change (row ((store.executions instanceId).lookup id))), ?_, AList.lookup_insert _, ?_⟩
  · simp only [Store.updateExecution, Store.updateExecutions, Function.update_self, here, Function.update_idem]
  · intro other differs
    rw [AList.lookup_insert_ne differs, elsewhere other differs]

/-- The metadata is recorded in the instance and in the execution. -/
def MetadataRecorded (instanceId : String) (request : AckRequest semver) (store changed : Store) : Prop :=
  ExecutionChanged instanceId request.executionId (pinnedExecution request)
    (withInstance store instanceId (bumpedInstance request (store.instances instanceId))) changed

/-- Pinning a version turns the row of an execution into its pinned row. -/
theorem pinVersion_outcome {base : Store}
    (ensured : ExecutionChanged instanceId request.executionId (·.getD {}) base store) :
    Outcome (ifSome request.metadata.pinnedDuroxideVersion fun pinned =>
        Db.update (ackError config) Statement.pinVersion (·.updateExecution instanceId request.executionId fun row =>
          { row with duroxideVersion := some (semver.major pinned, semver.minor pinned, semver.patch pinned) }))
      committed store
      (StepPost committed (ExecutionChanged instanceId request.executionId (pinnedExecution request) base)) := by
  refine outcome_step_ifSome (fun pinned found => outcome_step_update ?_) fun missing => ?_
  · have pinnedRow := ensured.update fun row =>
      { row with duroxideVersion := some (semver.major pinned, semver.minor pinned, semver.patch pinned) }
    unfold pinnedExecution
    rw [found]
    exact pinnedRow
  · unfold pinnedExecution
    rw [missing]
    exact ensured

theorem recordMetadata_outcome : Outcome (recordMetadata config instanceId request) committed store
    (StepPost committed (MetadataRecorded instanceId request store)) := by
  unfold recordMetadata
  have named : Outcome (ifSome (identityOf request.metadata) (recordInstance config instanceId request)) committed store
      (StepPost committed fun changed =>
        changed = withInstance store instanceId (namedInstance request (store.instances instanceId))) := by
    refine outcome_step_ifSome (fun identity found => recordInstance_outcome config found) fun missing => ?_
    simp only [namedInstance, missing, withInstance, Function.update_eq_self]
  refine outcome_step_bind named (fun error changed => ⟨rfl, nofun⟩) ?_
  rintro _ rfl
  refine outcome_update_bind (fun error => ⟨rfl, nofun⟩) ?_
  have ensured := ensureExecution_changed
    (withInstance store instanceId (namedInstance request (store.instances instanceId))) instanceId request.executionId
  refine outcome_step_bind (pinVersion_outcome config ensured) (fun error changed => ⟨rfl, nofun⟩) ?_
  rintro changed ⟨rows, rfl, here, elsewhere⟩
  refine outcome_step_update ⟨rows, ?_, here, elsewhere⟩
  simp only [Store.updateInstance, withInstance, bumpedInstance, Function.update_self, Function.update_idem]

/-- The events are inserted in the execution's history. -/
def EventsInserted (instanceId : String) (executionId : Nat) (store : Store) (events : List Event)
    (changed : Store) : Prop :=
  ∃ history, insertEvents (store.history instanceId executionId) events = some history ∧
    changed = { store with
      history := Function.update store.history instanceId
        (Function.update (store.history instanceId) executionId history) }

theorem appendHistory_outcome {executionId : Nat} {events : List Event} :
    Outcome (appendHistory instanceId executionId events) committed store
      (StepPost committed fun changed =>
        EventsInserted instanceId executionId store events changed ∧ ∀ event ∈ events, event.eventId ≠ 0) := by
  unfold appendHistory
  split_ifs with unset
  · exact outcome_fail ⟨rfl, nofun⟩
  · have numbered : ∀ event ∈ events, event.eventId ≠ 0 := by simpa using unset
    refine (outcome_forEach (EventsInserted instanceId executionId store) ?_ events []
      ⟨_, rfl, by simp only [Function.update_eq_self]⟩).mono fun result after changed post =>
        ⟨post.1, fun succeeded => ⟨post.2 succeeded, numbered⟩⟩
    rintro done event _ ⟨history, inserted, rfl⟩
    refine outcome_statement (fun error => ⟨rfl, nofun⟩) ?_
    intro _ changed ran
    simp only [Store.insertHistory, Function.update_self, Function.update_idem] at ran
    rcases more : history.insert ⟨event.eventId, .ok event⟩ with _ | next
    · rw [more] at ran
      cases ran
    · rw [more] at ran
      cases ran
      refine ⟨rfl, fun _ => ⟨next, ?_, rfl⟩⟩
      rw [insertEvents_append, inserted, Option.bind_some, insertEvents, more]
      rfl

theorem recordStatus_outcome (row : Option ExecutionRow → ExecutionRow) (base : Store) (info : Option InstanceRow)
    (recorded : ExecutionChanged instanceId request.executionId row (withInstance base instanceId info) store) :
    Outcome (recordStatus config instanceId request) committed store
      (StepPost committed (ExecutionChanged instanceId request.executionId
        (fun current => statusExecution request (row current))
        (withInstance base instanceId (statusInstance request info)))) := by
  unfold recordStatus
  have updated : Outcome (ifSome request.metadata.status fun status =>
        Db.update (ackError config) Statement.updateStatus (·.updateExecution instanceId request.executionId fun row =>
          { row with status, output := request.metadata.output }))
      committed store (StepPost committed (ExecutionChanged instanceId request.executionId
        (fun current => statusExecution request (row current)) (withInstance base instanceId info))) := by
    refine outcome_step_ifSome (fun status found => outcome_step_update ?_) fun missing => ?_
    · unfold statusExecution
      rw [found]
      exact recorded.update _
    · unfold statusExecution
      rw [missing]
      exact recorded
  refine outcome_step_bind updated (fun error changed => ⟨rfl, nofun⟩) ?_
  rintro _ ⟨rows, rfl, here, elsewhere⟩
  refine outcome_step_ifSome (fun customStatus found => outcome_step_update ?_) fun missing => ?_
  · refine ⟨rows, ?_, here, elsewhere⟩
    simp only [Store.updateInstance, withInstance, statusInstance, found, Function.update_self, Function.update_idem]
  · refine ⟨rows, ?_, here, elsewhere⟩
    simp only [withInstance, statusInstance, missing, Option.map_id']

/-- The mutations of events are recorded over what an instance has stored. -/
def KvRecorded (instanceId : String) (store : Store) (events : List Event) (changed : Store) : Prop :=
  ∃ delta, changed = { store with kvDelta := delta } ∧
    (∀ other, other ≠ instanceId → delta other = store.kvDelta other) ∧
    changed.kvOverlay instanceId =
      recordAll (store.kvBase instanceId) (kvChanges events) (store.kvOverlay instanceId)

theorem KvRecorded.base {events : List Event} {changed : Store} (recorded : KvRecorded instanceId store events changed)
    (target : String) : changed.kvBase target = store.kvBase target := by
  obtain ⟨delta, rfl, _⟩ := recorded
  rfl

/-- One more event is recorded by a change of the instance's mutations. -/
theorem KvRecorded.event {events : List Event} {changed next : Store}
    (recorded : KvRecorded instanceId store events changed) {event : Event} (change : Change String String)
    (kind : event.kind.kvChange = some change)
    (written : ∃ delta, next = { changed with kvDelta := Function.update changed.kvDelta instanceId delta })
    (overlay : next.kvOverlay instanceId = change.record (changed.kvBase instanceId) (changed.kvOverlay instanceId)) :
    KvRecorded instanceId store (events ++ [event]) next := by
  have base := recorded.base instanceId
  obtain ⟨delta, rfl, others, before⟩ := recorded
  obtain ⟨own, rfl⟩ := written
  refine ⟨_, rfl, fun other differs => ?_, ?_⟩
  · exact (Function.update_of_ne differs ..).trans (others other differs)
  · rw [overlay, base, before, kvChanges_append, recordAll_append]
    simp only [kvChanges, List.filterMap_cons, kind, List.filterMap_nil]
    rfl

theorem KvRecorded.other {events : List Event} {changed : Store} (recorded : KvRecorded instanceId store events changed)
    {event : Event} (kind : event.kind.kvChange = none) : KvRecorded instanceId store (events ++ [event]) changed := by
  obtain ⟨delta, same, others, written⟩ := recorded
  refine ⟨delta, same, others, ?_⟩
  rw [kvChanges_append]
  simpa [kvChanges, kind] using written

theorem recordKvEvent_outcome {events : List Event} {changed : Store}
    (recorded : KvRecorded instanceId store events changed) (event : Event) :
    Outcome (recordKvEvent config now instanceId event) committed changed
      (StepPost committed (KvRecorded instanceId store (events ++ [event]))) := by
  obtain ⟨eventId, source, owner, executionId, timestamp, version, kind⟩ := event
  cases kind with
  | keyValueSet key value written =>
    refine outcome_step_update (recorded.event (.set key value) rfl ⟨_, rfl⟩ ?_)
    exact Store.kvOverlay_upsertKv ⟨some value, written⟩
  | keyValueCleared key =>
    refine outcome_step_update (recorded.event (.clear key) rfl ⟨_, rfl⟩ ?_)
    exact Store.kvOverlay_upsertKv ⟨none, now⟩
  | keyValuesCleared =>
    refine outcome_update_bind (fun error => ⟨rfl, nofun⟩) (outcome_step_update ?_)
    exact recorded.event .clearAll rfl Store.tombstones_eq Store.kvOverlay_tombstones
  | _ => exact outcome_step_pure (recorded.other rfl)

theorem recordKv_outcome : Outcome (recordKv config now instanceId request) committed store
    (StepPost committed fun changed => ∃ stored delta, changed = { store with kvStore := stored, kvDelta := delta } ∧
      KvMaterialized instanceId request store changed) := by
  unfold recordKv
  refine outcome_step_bind (outcome_forEach (KvRecorded instanceId store)
    (fun done event working recorded => recordKvEvent_outcome config recorded event) _ []
    ⟨_, rfl, fun _ _ => rfl, rfl⟩) (fun error changed => ⟨rfl, nofun⟩) ?_
  intro changed recorded
  have base := recorded.base instanceId
  obtain ⟨delta, rfl, others, written⟩ := recorded
  split_ifs with terminal
  · refine outcome_update_bind (fun error => ⟨rfl, nofun⟩) ?_
    refine outcome_update_bind (fun error => ⟨rfl, nofun⟩) ?_
    refine outcome_step_update ⟨_, _, rfl, ?_⟩
    exact
      { foreignKvStore := fun other differs => by
          simp only [Store.clearKvDelta, Store.updateKvDelta, Store.mergeKvTombstones, Store.mergeKvValues,
            Store.updateKvStore, Function.update_of_ne differs]
        foreignKvDelta := fun other differs => (Function.update_of_ne differs ..).trans (others other differs)
        keptKvStore := fun goesOn => absurd terminal (by rw [← endsExecution, goesOn]; exact Bool.false_ne_true)
        recordedKv := fun goesOn => absurd terminal (by rw [← endsExecution, goesOn]; exact Bool.false_ne_true)
        mergedKv := fun _ => by
          refine ⟨Store.kvOverlay_mergeKv, Store.kvBase_mergeKv.trans ?_⟩
          rw [Store.kvView, written, base, view_recordAll]
          rfl }
  · refine outcome_step_pure ⟨_, _, rfl, ?_⟩
    exact
      { foreignKvStore := fun _ _ => rfl
        foreignKvDelta := others
        keptKvStore := fun _ => rfl
        recordedKv := fun _ => written
        mergedKv := fun ends => absurd ends terminal }

/-- The items of both queues are enqueued and the cancelled worker items deleted. -/
def ItemsEnqueued (now : Nat) (request : AckRequest semver) (store : Store) : Store :=
  let items := request.orchestratorItems.filter (!isActivityExecute ·)
  { store with
    workerQueue := (store.workerQueue ++ workerRows now store.nextWorkerId request.workerItems).filter fun row =>
      !row.identity.any (· ∈ request.cancelledActivities)
    nextWorkerId := store.nextWorkerId + request.workerItems.length
    orchestratorQueue := store.orchestratorQueue ++ enqueuedRows (visibleFrom now) store.nextOrchestratorId items
    nextOrchestratorId := store.nextOrchestratorId + items.length }

theorem deleteCancelled_outcome {cancelledActivities : List ScheduledActivityIdentifier} :
    Outcome (deleteCancelled config cancelledActivities) committed store (StepPost committed fun changed =>
      changed = store.deleteWorkerRows fun row => row.identity.any (· ∈ cancelledActivities)) := by
  unfold deleteCancelled
  split_ifs with none
  · refine outcome_step_pure ?_
    simp [Store.deleteWorkerRows, List.isEmpty_iff.mp none]
  · exact outcome_step_update rfl

theorem enqueueItems_outcome : Outcome (enqueueItems config now request) committed store
    (StepPost committed fun changed => changed = ItemsEnqueued now request store) := by
  unfold enqueueItems
  refine outcome_step_bind (outcome_forEach (fun done changed => changed = { store with
      workerQueue := store.workerQueue ++ workerRows now store.nextWorkerId done
      nextWorkerId := store.nextWorkerId + done.length }) ?_ _ [] ?_) (fun error changed => ⟨rfl, nofun⟩) ?_
  · rintro done item _ rfl
    refine outcome_step_update ?_
    simp [Store.insertWorkerRow, workerRows_append, workerRows, Nat.add_assoc]
  · simp [workerRows]
  rintro _ rfl
  refine outcome_step_bind (deleteCancelled_outcome config) (fun error changed => ⟨rfl, nofun⟩) ?_
  rintro _ rfl
  refine (outcome_forEach (fun done changed => changed = { store with
      workerQueue := (store.workerQueue ++ workerRows now store.nextWorkerId request.workerItems).filter fun row =>
        !row.identity.any (· ∈ request.cancelledActivities)
      nextWorkerId := store.nextWorkerId + request.workerItems.length
      orchestratorQueue := store.orchestratorQueue ++ enqueuedRows (visibleFrom now) store.nextOrchestratorId done
      nextOrchestratorId := store.nextOrchestratorId + done.length }) ?_ _ [] ?_).mono fun result after changed post =>
        ⟨post.1, fun succeeded => by simpa [ItemsEnqueued] using post.2 succeeded⟩
  · rintro done item _ rfl
    refine outcome_step_update ?_
    simp [Store.insertOrchestratorRow, enqueuedRows_append, enqueuedRows, Nat.add_assoc]
  · simp [Store.deleteWorkerRows, enqueuedRows]

/-- The postcondition of an acknowledgement: everything or nothing. -/
def AckPost (store : Store) (now token : Nat) (request : AckRequest semver) (result : Except ProviderError Unit)
    (committed _working : Store) : Prop :=
  (∃ error, result = .error error ∧ committed = store) ∨
    result = .ok () ∧ ∃ instanceId, Acked store now token instanceId request committed

theorem ackPost_failed {store : Store} (error : ProviderError) (working : Store) :
    AckPost store now token request (.error error) store working := .inl ⟨error, rfl, rfl⟩

theorem releaseAndCommit_outcome
    (acked : store.holdsLock now instanceId token = true → Acked committed now token instanceId request
      (store.deleteLocks fun locked lock => locked == instanceId && lock.lockToken == token)) :
    Outcome (releaseAndCommit config now token instanceId) committed store (AckPost committed now token request) := by
  refine outcome_query_bind (fun error => ackPost_failed _ _) ?_
  split_ifs with valid
  · refine outcome_update_bind (fun error => ackPost_failed _ _) ?_
    exact outcome_commit (fun error => ackPost_failed _ _) (.inr ⟨rfl, instanceId, acked valid⟩)
  · exact outcome_ignore_bind keeps_restarted fun changed => outcome_fail (ackPost_failed _ _)

/-- Whatever statement a fault hits, an acknowledgement commits everything or nothing. -/
theorem ackOrchestrationItem_outcome (store : Store) (now token : Nat) (request : AckRequest semver)
    (fault : Option (Nat × SqlxError)) :
    AckPost store now token request (ackOrchestrationItem config now token request (Conn.open store fault)).1
      (ackOrchestrationItem config now token request (Conn.open store fault)).2.committed
      (ackOrchestrationItem config now token request (Conn.open store fault)).2.working := by
  have whole : Outcome (ackOrchestrationItem config now token request) store store
      (AckPost store now token request) := by
    refine outcome_begin_bind (fun error => ackPost_failed _ _) ?_
    refine outcome_query_bind (fun error => ackPost_failed _ _) ?_
    split
    · exact outcome_fail (ackPost_failed _ _)
    rename_i instanceId locked
    refine outcome_step_bind (extendAckLock_outcome config) (fun error changed => ackPost_failed _ _) ?_
    rintro _ ⟨locks, rfl, extended⟩
    refine outcome_update_bind (fun error => ackPost_failed _ _) ?_
    refine outcome_step_bind (recordMetadata_outcome config) (fun error changed => ackPost_failed _ _) ?_
    rintro _ ⟨rows, rfl, here, elsewhere⟩
    refine outcome_step_bind (appendHistory_outcome) (fun error changed => ackPost_failed _ _) ?_
    rintro _ ⟨⟨history, inserted, rfl⟩, numbered⟩
    refine outcome_step_bind (recordStatus_outcome config (pinnedExecution request)
      ({ store.deleteBatch token with
        instanceLocks := locks
        history := Function.update store.history instanceId
          (Function.update (store.history instanceId) request.executionId history) })
      (bumpedInstance request (store.instances instanceId)) ⟨rows, rfl, here, elsewhere⟩)
      (fun error changed => ackPost_failed _ _) ?_
    rintro _ ⟨statusRows, rfl, statusHere, statusElsewhere⟩
    refine outcome_step_bind (recordKv_outcome config) (fun error changed => ackPost_failed _ _) ?_
    rintro _ ⟨stored, delta, rfl, materialized⟩
    refine outcome_step_bind (enqueueItems_outcome config) (fun error changed => ackPost_failed _ _) ?_
    rintro _ rfl
    refine releaseAndCommit_outcome config fun valid => ?_
    obtain ⟨lock, current, held⟩ : ∃ lock, locks.lookup instanceId = some lock ∧
        (lock.lockToken = token ∧ (now : Int) < lock.lockedUntil) := by
      simp only [Store.holdsLock, ItemsEnqueued, withInstance] at valid
      split at valid
      · rename_i lock current
        exact ⟨lock, current, by simpa using valid⟩
      · cases valid
    exact
      { locked
        instanceRow := Function.update_self ..
        otherInstances := fun other differs => Function.update_of_ne differs ..
        executionRow := by
          simpa [Store.deleteLocks, ItemsEnqueued, withInstance, Store.deleteBatch, Store.deleteOrchestratorRows]
            using statusHere
        otherExecutions := fun id differs => by
          simpa [Store.deleteLocks, ItemsEnqueued, withInstance, Store.deleteBatch, Store.deleteOrchestratorRows]
            using statusElsewhere id differs
        foreignExecutions := fun other differs => Function.update_of_ne differs ..
        appended := by
          simpa [Store.deleteLocks, ItemsEnqueued, withInstance, Store.deleteBatch, Store.deleteOrchestratorRows]
            using inserted
        numbered
        otherHistory := fun other id differs => by
          simp only [Store.deleteLocks, ItemsEnqueued, withInstance]
          by_cases same : other = instanceId
          · subst same
            rw [Function.update_self]
            exact Function.update_of_ne (fun sameId => differs (by rw [sameId])) ..
          · rw [Function.update_of_ne same]
        queue := rfl
        nextOrchestratorId := rfl
        workers := rfl
        nextWorkerId := rfl
        held := by
          obtain ⟨original, was, tokens, unexpired⟩ := extended.held instanceId lock current held.1 held.2
          exact ⟨original, was, tokens, unexpired⟩
        released := by
          simp only [Store.deleteLocks, ItemsEnqueued, withInstance, Lib.KeyedTable.lookup_deleteWhere]
          simp [current, held.1]
        otherLocks := fun other differs free => by
          simp only [Store.deleteLocks, ItemsEnqueued, withInstance, Lib.KeyedTable.lookup_deleteWhere]
          rw [extended.others other free]
          rcases store.instanceLocks.lookup other with _ | lock
          · rfl
          · simp [differs]
        sessions := rfl
        foreignKvStore := materialized.foreignKvStore
        foreignKvDelta := materialized.foreignKvDelta
        keptKvStore := materialized.keptKvStore
        recordedKv := materialized.recordedKv
        mergedKv := materialized.mergedKv }
  exact whole _ rfl rfl

end Ack

end Duroxide.Provider
