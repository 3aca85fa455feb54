import Duroxide.Lib.Database
import Duroxide.Model.Store
import Mathlib.Algebra.Group.Int.Defs

/-! # The SQLite-like providers: orchestration items

`fetchOrchestrationItem` and `ackOrchestrationItem` are transactions of labelled statements, so that
a database error can be placed at any of them; the other calls are single statements or short
transactions and are given as their effect. A call reads the clock once, and receives the lock token
that it generates. The two providers differ in the lock extension of an acknowledgement and in the
retry of conflicting transactions.
-/

namespace Duroxide

open Lib.Database

/-- The statements of a fetch and of an acknowledgement. -/
inductive Statement where
  | begin
  | commit
  | rollback
  | selectCandidate
  | countMessages
  | acquireLock
  | markBatch
  | readBatch
  | releaseEmptyBatch
  | readInstance
  | readHistory
  | readLatestExecution
  | readLatestHistory
  | dropOrphans
  | releaseOrphanLock
  | readKvSnapshot
  | readLock
  | extendLock
  | deleteBatch
  | insertInstance
  | updateInstance
  | ensureExecution
  | pinVersion
  | bumpExecution
  | insertHistory
  | updateStatus
  | updateCustomStatus
  | upsertKv
  | tombstoneDelta
  | tombstoneStored
  | mergeKvValues
  | mergeKvTombstones
  | clearKvDelta
  | insertWorkerItem
  | deleteCancelled
  | insertOrchestratorItem
  | validateLock
  | releaseLock
deriving DecidableEq, Repr

namespace ProviderError

def makeRetryable (operation message : String) : ProviderError := ⟨operation, message, true⟩

def makePermanent (operation message : String) : ProviderError := ⟨operation, message, false⟩

end ProviderError

/-- Where the two providers differ; Turso opts into both behaviors. -/
structure ProviderConfig where
  retriesTransactions : Bool := false
  isConcurrent : Bool := false
  transactionMaxRetries : Nat := 0
  ackLockExtensionMs : Option Nat := none
deriving DecidableEq, Repr

namespace Provider

abbrev Op := Db Store Statement SqlxError ProviderError

def TURSO_TRANSACTION_RETRY : String := "Turso transaction retry"

/-- Convert a driver error, deciding whether it is worth a retry. -/
def sqlxToProviderError (config : ProviderConfig) (operation : String) (error : SqlxError) : ProviderError :=
  let message := error.message
  if config.retriesTransactions && error.isTursoTransactionRetryable then
    .makeRetryable operation (TURSO_TRANSACTION_RETRY ++ ": " ++ message)
  else if contains message "database is locked" || contains message "SQLITE_BUSY" then
    .makeRetryable operation ("Database locked: " ++ message)
  else if contains message "UNIQUE constraint" || contains message "PRIMARY KEY" then
    .makePermanent operation ("Constraint violation: " ++ message)
  else if contains message "connection" || contains message "timeout" then
    .makeRetryable operation ("Connection error: " ++ message)
  else .makeRetryable operation message

/-- Whether a failed attempt of an operation is repeated. -/
def shouldRetryTransactionOperation (config : ProviderConfig) (error : ProviderError) (retryCount : Nat) : Bool :=
  config.retriesTransactions && config.isConcurrent && retryCount < config.transactionMaxRetries &&
    error.isRetryable && contains error.message TURSO_TRANSACTION_RETRY

/-- Repeat an operation while its error asks for it. Attempts are numbered, since the database may
have changed in between; the result is that of the last attempt, with its number. -/
def runProviderOperation {Value : Type} (config : ProviderConfig)
    (attempt : Nat → Except ProviderError Value) (retryCount : Nat) : Except ProviderError Value × Nat :=
  match attempt retryCount with
  | .ok value => (.ok value, retryCount)
  | .error error =>
      if shouldRetryTransactionOperation config error retryCount then
        runProviderOperation config attempt (retryCount + 1)
      else (.error error, retryCount)
termination_by config.transactionMaxRetries - retryCount
decreasing_by
  rename_i retried
  simp only [shouldRetryTransactionOperation, Bool.and_eq_true, decide_eq_true_eq] at retried
  omega

/-! ## Fetching -/

/-- A locked item with the token of its lock and its largest attempt count. -/
abbrev FetchedItem := OrchestrationItem × Nat × Nat

def fetchError (config : ProviderConfig) : SqlxError → ProviderError :=
  sqlxToProviderError config "fetch_orchestration_item"

def maxAttemptCount (rows : List OrchestratorRow) : Nat :=
  rows.foldl (fun largest row => max largest (asU32 row.attemptCount)) 0

def UNKNOWN_VERSION : String := "unknown"

/-- Load the key-value snapshot, commit the lock and return the item. -/
def finishFetch (config : ProviderConfig) (token attemptCount : Nat) (item : OrchestrationItem) :
    Op (Option FetchedItem) := do
  let kvSnapshot ← Db.query (sqlxToProviderError config "get_kv_snapshot_in_tx") Statement.readKvSnapshot
    (fun store : Store => store.kvStore item.instanceId)
  Db.commit (fetchError config) .commit
  return some ({ item with kvSnapshot }, token, attemptCount)

/-- An instance with a row: read the history of its current execution. A history that cannot be read
is reported in the item, so that the runtime can reach its poison check. -/
def fetchKnownInstance (config : ProviderConfig) (token attemptCount : Nat) (instanceId : String)
    (messages : List WorkItem) (info : InstanceRow) : Op (Option FetchedItem) := do
  let item : OrchestrationItem :=
    { instanceId, orchestrationName := info.orchestrationName, executionId := info.currentExecutionId
      version := info.orchestrationVersion.getD UNKNOWN_VERSION, history := [], messages, historyError := none
      kvSnapshot := ∅ }
  let history ← Db.attempt (Db.statement id Statement.readHistory fun store : Store =>
    (store.readHistory instanceId info.currentExecutionId).map (·, store))
  match history with
  | .ok history => finishFetch config token attemptCount { item with history }
  | .error error =>
      Db.commit (fetchError config) .commit
      return some ({ item with historyError := some ("Failed to deserialize history: " ++ error.message) },
        token, attemptCount)

def startedNameVersion (event : Event) : Option (String × String) :=
  match event.kind with
  | .orchestrationStarted name version _ _ _ _ _ => some (name, version)
  | _ => none

/-- The orchestration and version that a start item asks for. -/
def startItemNameVersion : WorkItem → Option (String × Option String)
  | .startOrchestration _ orchestration _ version _ _ _ => some (orchestration, version)
  | .continueAsNew _ orchestration _ version _ _ => some (orchestration, version)
  | _ => none

def isQueueMessage : WorkItem → Bool
  | .queueMessage .. => true
  | _ => false

/-- The history of the latest execution, for an instance without a row. -/
def readLatestHistory (instanceId : String) : Db Store Statement SqlxError SqlxError (List Event) := do
  let executionId ← Db.query id Statement.readLatestExecution fun store : Store => store.latestExecutionId instanceId
  Db.statement id .readLatestHistory fun store => (store.readHistory instanceId executionId).map (·, store)

/-- An instance without a row: take its parameters from history, else from a start item. A batch that
has neither goes back to the queue, unless it holds nothing but queue messages, which are dropped. -/
def fetchUnknownInstance (config : ProviderConfig) (token attemptCount : Nat) (instanceId : String)
    (messages : List WorkItem) : Op (Option FetchedItem) := do
  let latest ← Db.attempt (readLatestHistory instanceId)
  let history := latest.toOption.getD []
  let item : OrchestrationItem :=
    { instanceId, orchestrationName := "", executionId := 1, version := "", history := [], messages
      historyError := none, kvSnapshot := ∅ }
  match history.findSome? startedNameVersion, messages.findSome? startItemNameVersion with
  | some (orchestrationName, version), _ =>
      finishFetch config token attemptCount { item with orchestrationName, version, history }
  | none, some (orchestrationName, version) =>
      finishFetch config token attemptCount
        { item with orchestrationName, version := version.getD UNKNOWN_VERSION }
  | none, none =>
      if messages.all isQueueMessage then
        Db.update (fetchError config) .dropOrphans (·.deleteBatch token)
        Db.update (fetchError config) .releaseOrphanLock (·.deleteLocks fun _ lock => lock.lockToken == token)
        Db.commit (fetchError config) .commit
        return none
      else
        Db.ignore (Db.rollback (fetchError config) .rollback)
        return none

/-- Mark and read the batch of an instance that this call has just locked; messages that do not decode are left out. -/
def fetchLocked (config : ProviderConfig) (now token : Nat) (instanceId : String) : Op (Option FetchedItem) := do
  Db.update (fetchError config) .markBatch (·.markBatch now instanceId token)
  let rows ← Db.query (fetchError config) .readBatch (·.batch token)
  if rows.isEmpty then
    Db.ignore (Db.update (fetchError config) .releaseEmptyBatch (·.deleteLocks fun locked _ => locked == instanceId))
    Db.ignore (Db.rollback (fetchError config) .rollback)
    return none
  else
    let info ← Db.query (fetchError config) .readInstance (·.instances instanceId)
    match info with
    | some info => fetchKnownInstance config token (maxAttemptCount rows) instanceId (rows.filterMap (·.decoded)) info
    | none => fetchUnknownInstance config token (maxAttemptCount rows) instanceId (rows.filterMap (·.decoded))

/-- Lock a candidate; a lock that someone else holds by now ends the fetch. -/
def fetchCandidate (config : ProviderConfig) (now lockTimeoutMs token : Nat) (instanceId : String) :
    Op (Option FetchedItem) := do
  let acquired ← Db.onError (Db.statement (fetchError config) .acquireLock fun store =>
      .ok (store.acquireLock now instanceId ⟨token, now + lockTimeoutMs⟩))
    (Db.rollback (fetchError config) .rollback)
  if acquired then fetchLocked config now token instanceId
  else
    Db.ignore (Db.rollback (fetchError config) .rollback)
    return none

variable {semver : Semver}

/-- The packed bounds of a capability filter's first range. -/
def packRange (range : SemverRange semver) : Nat × Nat :=
  let pack version := Store.packVersion (semver.major version, semver.minor version, semver.patch version)
  (pack range.min, pack range.max)

/-- Lock the oldest available instance and return its batch; a filter without a range supports nothing. -/
def fetchOrchestrationItem (config : ProviderConfig) (filter : Option (List (SemverRange semver)))
    (now lockTimeoutMs token : Nat) : Op (Option FetchedItem) := do
  Db.begin (fetchError config) .begin
  if filter.any (·.isEmpty) then
    Db.commit (fetchError config) .commit
    return none
  else
    let range := filter.bind fun ranges => ranges.head?.map packRange
    let candidate ← Db.query (fetchError config) .selectCandidate (·.selectCandidate now range)
    match candidate with
    | some instanceId => fetchCandidate config now lockTimeoutMs token instanceId
    | none =>
        let _ ← Db.query (fetchError config) .countMessages (·.orchestratorQueue.length)
        Db.ignore (Db.rollback (fetchError config) .rollback)
        return none

/-! ## Acknowledging -/

def ackError (config : ProviderConfig) : SqlxError → ProviderError :=
  sqlxToProviderError config "ack_orchestration_item"

/-- Extend the lock at the start of an acknowledgement, where the provider is configured to. -/
def extendAckLock (config : ProviderConfig) (now token : Nat) : Op Unit :=
  match config.ackLockExtensionMs with
  | none => pure ()
  | some extendMs => do
      let valid := fun lock : InstanceLock => lock.lockToken == token && (now : Int) < lock.lockedUntil
      let extended ← Db.statement (ackError config) .extendLock fun store : Store =>
        .ok (store.instanceLocks.entries.any fun entry => valid entry.2,
          store.updateLocks valid fun lock => { lock with lockedUntil := max lock.lockedUntil (now + extendMs) })
      if extended then pure ()
      else
        Db.ignore (Db.rollback (ackError config) .rollback)
        Db.fail (.makePermanent "ack_orchestration_item" "Invalid, expired, or stolen lock token")

/-- Create the instance if it is new, and update its name and version. -/
def recordInstance (config : ProviderConfig) (instanceId : String) (request : AckRequest semver)
    (identity : String × String) : Op Unit := do
  let (name, version) := identity
  let row : InstanceRow :=
    { orchestrationName := name, orchestrationVersion := some version
      currentExecutionId := request.executionId, parentInstanceId := request.metadata.parentInstanceId }
  Db.statement (ackError config) .insertInstance fun store => (store.insertInstance instanceId row).map ((), ·)
  Db.update (ackError config) .updateInstance (·.updateInstance instanceId fun info =>
    { info with orchestrationName := name, orchestrationVersion := some version })

/-- The name and version of a request, when it has both. -/
def identityOf (metadata : ExecutionMetadata semver) : Option (String × String) := do
  let name ← metadata.orchestrationName
  let version ← metadata.orchestrationVersion
  return (name, version)

/-- Create or update the instance and the execution from the runtime's metadata. -/
def recordMetadata (config : ProviderConfig) (instanceId : String) (request : AckRequest semver) : Op Unit := do
  Db.ifSome (identityOf request.metadata) (recordInstance config instanceId request)
  Db.update (ackError config) .ensureExecution (·.ensureExecution instanceId request.executionId)
  Db.ifSome request.metadata.pinnedDuroxideVersion fun pinned =>
    Db.update (ackError config) .pinVersion (·.updateExecution instanceId request.executionId fun row =>
      { row with duroxideVersion := some (semver.major pinned, semver.minor pinned, semver.patch pinned) })
  Db.update (ackError config) .bumpExecution (·.updateInstance instanceId fun info =>
    { info with currentExecutionId := max info.currentExecutionId request.executionId })

/-- Every error of an append is permanent, whatever the driver reported. -/
def appendError (error : SqlxError) : ProviderError :=
  .makePermanent "ack_orchestration_item" ("Failed to append history: " ++ error.message)

def appendHistory (instanceId : String) (executionId : Nat) (events : List Event) : Op Unit :=
  if events.any (·.eventId == 0) then Db.fail (appendError { message := "event_id must be set by runtime" })
  else
    Db.forEach (fun event => Db.statement appendError .insertHistory fun store =>
      (store.insertHistory instanceId executionId event).map ((), ·)) events

/-- The custom status that a delta ends with, if it sets or resets one. -/
def customStatusFromDelta (historyDelta : List Event) : Option (Option String) :=
  historyDelta.reverse.findSome? fun event =>
    match event.kind with
    | .customStatusUpdated status => some status
    | _ => none

def recordStatus (config : ProviderConfig) (instanceId : String) (request : AckRequest semver) : Op Unit := do
  Db.ifSome request.metadata.status fun status =>
    Db.update (ackError config) .updateStatus (·.updateExecution instanceId request.executionId fun row =>
      { row with status, output := request.metadata.output })
  Db.ifSome (customStatusFromDelta request.historyDelta) fun customStatus =>
    Db.update (ackError config) .updateCustomStatus (·.updateInstance instanceId fun info =>
      { info with customStatus, customStatusVersion := info.customStatusVersion + 1 })

/-- The key-value mutations of one event. -/
def recordKvEvent (config : ProviderConfig) (now : Nat) (instanceId : String) (event : Event) : Op Unit :=
  match event.kind with
  | .keyValueSet key value lastUpdatedAtMs =>
      Db.update (ackError config) .upsertKv (·.upsertKv instanceId key ⟨some value, lastUpdatedAtMs⟩)
  | .keyValueCleared key => Db.update (ackError config) .upsertKv (·.upsertKv instanceId key ⟨none, now⟩)
  | .keyValuesCleared => do
      Db.update (ackError config) .tombstoneDelta (·.tombstoneDelta instanceId now)
      Db.update (ackError config) .tombstoneStored (·.tombstoneStored instanceId now)
  | _ => pure ()

def ExecutionStatus.isTerminal : ExecutionStatus → Bool
  | .completed | .continuedAsNew | .failed => true
  | .running => false

/-- Materialize the key-value mutations; a terminal turn merges them into the store. -/
def recordKv (config : ProviderConfig) (now : Nat) (instanceId : String) (request : AckRequest semver) :
    Op Unit := do
  Db.forEach (recordKvEvent config now instanceId) request.historyDelta
  if request.metadata.status.any ExecutionStatus.isTerminal then
    Db.update (ackError config) .mergeKvValues (·.mergeKvValues instanceId)
    Db.update (ackError config) .mergeKvTombstones (·.mergeKvTombstones instanceId)
    Db.update (ackError config) .clearKvDelta (·.clearKvDelta instanceId)
  else pure ()

/-- When an orchestrator item becomes visible: a timer when it is due, everything else at once. -/
def visibleFrom (now : Nat) : WorkItem → Int
  | .timerFired _ _ _ fireAtMs => asI64 fireAtMs
  | _ => now

def isActivityExecute : WorkItem → Bool
  | .activityExecute .. => true
  | _ => false

/-- Delete the worker items of cancelled activities (lock stealing). -/
def deleteCancelled (config : ProviderConfig) (cancelledActivities : List ScheduledActivityIdentifier) : Op Unit :=
  if cancelledActivities.isEmpty then pure ()
  else Db.update (ackError config) .deleteCancelled (·.deleteWorkerRows fun row =>
    row.identity.any (· ∈ cancelledActivities))

/-- Enqueue the items of both queues and delete the worker items of cancelled activities. -/
def enqueueItems (config : ProviderConfig) (now : Nat) (request : AckRequest semver) : Op Unit := do
  Db.forEach (fun item => Db.update (ackError config) .insertWorkerItem (·.insertWorkerRow item now))
    request.workerItems
  deleteCancelled config request.cancelledActivities
  Db.forEach (fun item => Db.update (ackError config) .insertOrchestratorItem fun store =>
      store.insertOrchestratorRow item (visibleFrom now item))
    (request.orchestratorItems.filter (!isActivityExecute ·))

/-- Commit if the lock is still held. -/
def releaseAndCommit (config : ProviderConfig) (now token : Nat) (instanceId : String) : Op Unit := do
  let valid ← Db.query (ackError config) .validateLock (·.holdsLock now instanceId token)
  if valid then
    Db.update (ackError config) .releaseLock (·.deleteLocks fun locked lock =>
      locked == instanceId && lock.lockToken == token)
    Db.commit (ackError config) .commit
  else
    Db.ignore (Db.rollback (ackError config) .rollback)
    Db.fail (.makePermanent "ack_orchestration_item" "Instance lock expired")

/-- Commit a turn under the lock of its item. -/
def ackOrchestrationItem (config : ProviderConfig) (now token : Nat) (request : AckRequest semver) :
    Op Unit := do
  Db.begin (ackError config) .begin
  let locked ← Db.query (ackError config) .readLock (·.lockedInstance token)
  match locked with
  | none => Db.fail (.makePermanent "ack_orchestration_item" "Invalid lock token")
  | some instanceId =>
      extendAckLock config now token
      Db.update (ackError config) .deleteBatch (·.deleteBatch token)
      recordMetadata config instanceId request
      appendHistory instanceId request.executionId request.historyDelta
      recordStatus config instanceId request
      recordKv config now instanceId request
      enqueueItems config now request
      releaseAndCommit config now token instanceId

/-! ## The other calls -/

/-- `i64::MAX`. -/
def I64_MAX : Int := 2 ^ 63 - 1

/-- The time a delay from now, saturating. -/
def delayed (now delayMs : Nat) : Int := min (now + min (delayMs : Int) I64_MAX) I64_MAX

/-- Enqueue a message for an orchestration, optionally visible later. -/
def enqueueForOrchestrator (store : Store) (now : Nat) (item : WorkItem) (delayMs : Option Nat) :
    Except ProviderError Store :=
  if isActivityExecute item then .error (.makePermanent "enqueue_for_orchestrator" "Invalid work item type")
  else .ok (store.insertOrchestratorRow item ((delayMs.map (delayed now)).getD now))

/-- Give an item back: drop its lock, undo the attempt if asked to, and delay what is visible. -/
def abandonOrchestrationItem (store : Store) (now token : Nat) (delayMs : Option Nat) (ignoreAttempt : Bool) :
    Except ProviderError Store :=
  match store.lockedInstance token with
  | none => .error (.makePermanent "abandon_orchestration_item" "Invalid lock token")
  | some instanceId =>
      let store := store.deleteLocks fun _ lock => lock.lockToken == token
      let store :=
        if ignoreAttempt then
          store.updateOrchestratorRows (·.instanceId == instanceId) fun row =>
            { row with attemptCount := row.attemptCount - 1 }
        else store
      match delayMs with
      | some delayMs =>
          .ok (store.updateOrchestratorRows (fun row => row.instanceId == instanceId && row.visibleAt ≤ now) fun row =>
            { row with visibleAt := delayed now delayMs })
      | none => .ok store

/-- Extend the lock of an item that is still held. -/
def renewOrchestrationItemLock (store : Store) (now token extendMs : Nat) : Except ProviderError Store :=
  let valid := fun lock : InstanceLock => lock.lockToken == token && (now : Int) < lock.lockedUntil
  if store.instanceLocks.entries.any fun entry => valid entry.2 then
    .ok (store.updateLocks valid fun lock => { lock with lockedUntil := now + extendMs })
  else .error (.makePermanent "renew_orchestration_item_lock" "Lock token invalid, expired, or already acked")

/-- The value of a key: what the current execution wrote or cleared, else what is stored. -/
def getKvValue (store : Store) (instanceId key : String) : Option String :=
  match (store.kvDelta instanceId).lookup key with
  | some row => row.value
  | none => ((store.kvStore instanceId).lookup key).map (·.value)

/-- Every key: the stored values, overlaid with what the current execution wrote or cleared. -/
def getKvAllValues (store : Store) (instanceId : String) : AList (fun _ : String => String) :=
  let stored := (store.kvStore instanceId).entries.foldl (fun map entry => map.insert entry.1 entry.2.value) ∅
  (store.kvDelta instanceId).entries.foldl (fun map entry =>
    match entry.2.value with
    | some value => map.insert entry.1 value
    | none => map.erase entry.1) stored

end Provider

end Duroxide
