import Duroxide.Lib.KeyedTable
import Duroxide.Model.Dispatcher
import Mathlib.Algebra.Group.Nat.Defs

/-! # The tables of a provider

The shared schema of the SQLite-like providers. Tables that are only looked up by instance are
functions of the instance; queues are lists in id order. Work items are stored decoded. A history row
keeps what decoding its text gives, since rows written by a newer runtime may be unreadable; the rows
of an execution are kept in event id order, which is the order every query asks for. Columns that no
query reads are left out. Milliseconds and row ids are unbounded, except where a value is cast.
-/

namespace Duroxide

structure InstanceRow where
  orchestrationName : String
  orchestrationVersion : Option String
  currentExecutionId : Nat
  customStatus : Option String := none
  customStatusVersion : Nat := 0
  parentInstanceId : Option String
deriving DecidableEq, Repr

structure ExecutionRow where
  status : ExecutionStatus := .running
  output : Option String := none
  duroxideVersion : Option (Nat × Nat × Nat) := none
deriving DecidableEq, Repr

/-- A history row: its event id, and the event or the error that decoding it gives. -/
structure HistoryRow where
  eventId : Nat
  event : Except String Event

/-- A message for an instance. A row whose text does not decode keeps that text, and its work item is never read. -/
structure OrchestratorRow where
  id : Nat
  instanceId : String
  workItem : WorkItem
  visibleAt : Int
  lockToken : Option Nat := none
  attemptCount : Nat := 0
  undecodable : Option String := none
deriving DecidableEq, Repr

/-- `serde_json::from_str(..).ok()` of the text of a row. -/
def OrchestratorRow.decoded (row : OrchestratorRow) : Option WorkItem :=
  if row.undecodable.isNone then some row.workItem else none

theorem OrchestratorRow.workItem_of_decoded {row : OrchestratorRow} {item : WorkItem} (decoded : item ∈ row.decoded) :
    row.workItem = item := by
  unfold OrchestratorRow.decoded at decoded
  split_ifs at decoded
  · exact Option.some.inj decoded
  · cases decoded

structure WorkerRow where
  id : Nat
  workItem : WorkItem
  visibleAt : Int
  lockToken : Option Nat := none
  lockedUntil : Option Int := none
  attemptCount : Nat := 0
  identity : Option ScheduledActivityIdentifier
  sessionId : Option String
  tag : Option String
deriving DecidableEq, Repr

structure InstanceLock where
  lockToken : Nat
  lockedUntil : Int
deriving DecidableEq, Repr

structure SessionRow where
  workerId : String
  lockedUntil : Int
  lastActivityAt : Int
deriving DecidableEq, Repr

/-- A key-value mutation of the current execution; no value is a tombstone. -/
structure KvDeltaRow where
  value : Option String
  lastUpdatedAtMs : Nat
deriving DecidableEq, Repr

/-- The history of one execution: its rows, with the primary key as their order. -/
structure ExecutionHistory where
  rows : List HistoryRow := []
  ordered : rows.Pairwise (·.eventId < ·.eventId) := by exact List.Pairwise.nil

namespace ExecutionHistory

/-- Event ids are a primary key. -/
theorem row_eq_of_eventId (history : ExecutionHistory) {row other : HistoryRow} (member : row ∈ history.rows)
    (otherMember : other ∈ history.rows) (same : row.eventId = other.eventId) : row = other := by
  have distinct : (history.rows.map (·.eventId)).Nodup :=
    List.pairwise_map.mpr (history.ordered.imp fun below => Nat.ne_of_lt below)
  exact List.inj_on_of_nodup_map distinct member otherMember same

/-- Insert a row at the place of its event id; none when the primary key is taken. -/
def insertRow (row : HistoryRow) : List HistoryRow → Option (List HistoryRow)
  | [] => some [row]
  | first :: rest =>
      if row.eventId < first.eventId then some (row :: first :: rest)
      else if row.eventId = first.eventId then none
      else (insertRow row rest).map (first :: ·)

theorem mem_of_insertRow {row : HistoryRow} {rows result : List HistoryRow} (inserted : insertRow row rows = some result)
    {other : HistoryRow} (member : other ∈ result) : other = row ∨ other ∈ rows := by
  induction rows generalizing result with
  | nil =>
    cases inserted
    exact .inl (List.mem_singleton.mp member)
  | cons first rest ih =>
    simp only [insertRow] at inserted
    split_ifs at inserted
    · cases inserted
      exact List.mem_cons.mp member
    · obtain ⟨tail, inner, rfl⟩ := Option.map_eq_some_iff.mp inserted
      rcases List.mem_cons.mp member with rfl | later
      · exact .inr List.mem_cons_self
      · exact (ih inner later).imp_right (List.mem_cons_of_mem first)

theorem insertRow_ordered {row : HistoryRow} {rows result : List HistoryRow}
    (ordered : rows.Pairwise (·.eventId < ·.eventId)) (inserted : insertRow row rows = some result) :
    result.Pairwise (·.eventId < ·.eventId) := by
  induction rows generalizing result with
  | nil =>
    cases inserted
    exact List.pairwise_singleton _ _
  | cons first rest ih =>
    obtain ⟨above, restOrdered⟩ := List.pairwise_cons.mp ordered
    simp only [insertRow] at inserted
    split_ifs at inserted with below taken
    · cases inserted
      refine List.pairwise_cons.mpr ⟨?_, ordered⟩
      intro other member
      rcases List.mem_cons.mp member with rfl | later
      · exact below
      · exact below.trans (above other later)
    · obtain ⟨tail, inner, rfl⟩ := Option.map_eq_some_iff.mp inserted
      refine List.pairwise_cons.mpr ⟨?_, ih restOrdered inner⟩
      intro other member
      rcases mem_of_insertRow inner member with rfl | later
      · omega
      · exact above other later

def insert (history : ExecutionHistory) (row : HistoryRow) : Option ExecutionHistory :=
  match inserted : insertRow row history.rows with
  | some rows => some ⟨rows, insertRow_ordered history.ordered inserted⟩
  | none => none

/-- Decode the rows in order; the first unreadable one gives the error, with its position. -/
def decode (describe : Nat → String → String) : Nat → List HistoryRow → Except String (List Event)
  | _, [] => .ok []
  | position, row :: rest =>
      match row.event with
      | .error error => .error (describe position error)
      | .ok event => (decode describe (position + 1) rest).map (event :: ·)

end ExecutionHistory

/-- The history of an execution that nothing was recorded of. -/
def ExecutionHistory.empty : ExecutionHistory := {}

structure Store where
  instances : String → Option InstanceRow := fun _ => none
  executions : String → AList (fun _ : Nat => ExecutionRow) := fun _ => ∅
  history : String → Nat → ExecutionHistory := fun _ _ => .empty
  orchestratorQueue : List OrchestratorRow := []
  nextOrchestratorId : Nat := 1
  workerQueue : List WorkerRow := []
  nextWorkerId : Nat := 1
  instanceLocks : AList (fun _ : String => InstanceLock) := ∅
  sessions : AList (fun _ : String => SessionRow) := ∅
  kvStore : String → AList (fun _ : String => KvEntry) := fun _ => ∅
  kvDelta : String → AList (fun _ : String => KvDeltaRow) := fun _ => ∅

/-- `as i64` of an unsigned 64-bit number. -/
def asI64 (value : Nat) : Int := Int.bmod value (2 ^ 64)

/-- Up to `i64::MAX` a number is cast to itself. -/
theorem asI64_of_small {value : Nat} (small : value < 2 ^ 63) : asI64 value = value := by
  have half : -(((2 ^ 64 : Nat) : Int) / 2) = -9223372036854775808 := by decide
  have top : (((2 ^ 64 : Nat) : Int) + 1) / 2 = 9223372036854775808 := by decide
  apply Int.bmod_eq_of_le
  · omega
  · omega

/-- The upper half of the numbers below a modulus stands for the negative ones. -/
theorem bmod_neg_of_upper {value modulus : Nat} (upper : modulus ≤ 2 * value) (fits : value < modulus) :
    Int.bmod value modulus < 0 := by
  rw [Int.bmod_def, Int.emod_eq_of_lt (by omega) (by omega), if_neg (by omega)]
  omega

/-- Beyond `i64::MAX` the cast is negative. -/
theorem asI64_neg_of_large {value : Nat} (large : 2 ^ 63 ≤ value) (fits : value < 2 ^ 64) : asI64 value < 0 := by
  apply bmod_neg_of_upper
  · omega
  · omega

/-- `as u32` of a count. -/
def asU32 (value : Nat) : Nat := value % 2 ^ 32

/-- An error of the database driver. -/
structure SqlxError where
  message : String
  isTursoTransactionRetryable : Bool := false
deriving DecidableEq, Repr

/-- `str::contains`, by characters. -/
def contains (text pattern : String) : Bool := text.toList.tails.any fun tail => pattern.toList.isPrefixOf tail

namespace Store

/-! ## Queries and statements -/

/-- The instance that a lock token locks. -/
def lockedInstance (store : Store) (token : Nat) : Option String :=
  (store.instanceLocks.entries.find? fun entry => entry.2.lockToken == token).map (·.1)

/-- Whether no unexpired lock is held on an instance. -/
def isUnlocked (store : Store) (now : Int) (instanceId : String) : Bool :=
  match store.instanceLocks.lookup instanceId with
  | none => true
  | some lock => lock.lockedUntil ≤ now

def packVersion (version : Nat × Nat × Nat) : Nat := version.1 * 1000000 + version.2.1 * 1000 + version.2.2

/-- The duroxide version pinned to the current execution of an instance. -/
def pinnedDuroxideVersion (store : Store) (instanceId : String) : Option (Nat × Nat × Nat) := do
  let info ← store.instances instanceId
  let execution ← (store.executions instanceId).lookup info.currentExecutionId
  execution.duroxideVersion

/-- The capability filter: a range of packed versions, or everything. -/
def supportsInstance (store : Store) (range : Option (Nat × Nat)) (instanceId : String) : Bool :=
  match range, store.pinnedDuroxideVersion instanceId with
  | some (low, high), some version => low ≤ packVersion version && packVersion version ≤ high
  | _, _ => true

/-- The instance of the oldest visible message that is free and supported. -/
def selectCandidate (store : Store) (now : Int) (range : Option (Nat × Nat)) : Option String :=
  (store.orchestratorQueue.find? fun row =>
    row.visibleAt ≤ now && store.isUnlocked now row.instanceId && store.supportsInstance range row.instanceId).map
    (·.instanceId)

/-- Lock an instance unless an unexpired lock is held; the flag counts the affected row. -/
def acquireLock (store : Store) (now : Int) (instanceId : String) (lock : InstanceLock) : Bool × Store :=
  if store.isUnlocked now instanceId then
    (true, { store with instanceLocks := store.instanceLocks.insert instanceId lock })
  else (false, store)

/-- Apply a change to the rows of the orchestrator queue that satisfy a test. -/
def updateOrchestratorRows (store : Store) (matching : OrchestratorRow → Bool)
    (change : OrchestratorRow → OrchestratorRow) : Store :=
  { store with
    orchestratorQueue := store.orchestratorQueue.map fun row => if matching row then change row else row }

def deleteOrchestratorRows (store : Store) (matching : OrchestratorRow → Bool) : Store :=
  { store with orchestratorQueue := store.orchestratorQueue.filter fun row => !matching row }

/-- Mark every visible message of an instance with a token and count the attempt. -/
def markBatch (store : Store) (now : Int) (instanceId : String) (token : Nat) : Store :=
  store.updateOrchestratorRows (fun row => row.instanceId == instanceId && row.visibleAt ≤ now) fun row =>
    { row with lockToken := some token, attemptCount := row.attemptCount + 1 }

def batch (store : Store) (token : Nat) : List OrchestratorRow :=
  store.orchestratorQueue.filter (·.lockToken == some token)

def deleteBatch (store : Store) (token : Nat) : Store :=
  store.deleteOrchestratorRows (·.lockToken == some token)

/-- Remove the locks that satisfy a test. -/
def deleteLocks (store : Store) (matching : String → InstanceLock → Bool) : Store :=
  { store with instanceLocks := Lib.KeyedTable.deleteWhere store.instanceLocks matching }

/-- Change the locks that satisfy a test. -/
def updateLocks (store : Store) (matching : InstanceLock → Bool) (change : InstanceLock → InstanceLock) : Store :=
  { store with instanceLocks := Lib.KeyedTable.updateWhere store.instanceLocks (fun _ => matching) change }

def insertOrchestratorRow (store : Store) (workItem : WorkItem) (visibleAt : Int) : Store :=
  { store with
    orchestratorQueue := store.orchestratorQueue ++
      [{ id := store.nextOrchestratorId, instanceId := workItem.targetInstance, workItem, visibleAt }]
    nextOrchestratorId := store.nextOrchestratorId + 1 }

/-- The identity, session and tag columns of a worker item. -/
def workerColumns : WorkItem → Option ScheduledActivityIdentifier × Option String × Option String
  | .activityExecute instanceId executionId id _ _ sessionId tag =>
      (some ⟨instanceId, executionId, id⟩, sessionId, tag)
  | _ => (none, none, none)

def insertWorkerRow (store : Store) (workItem : WorkItem) (visibleAt : Int) : Store :=
  let (identity, sessionId, tag) := workerColumns workItem
  { store with
    workerQueue := store.workerQueue ++ [{ id := store.nextWorkerId, workItem, visibleAt, identity, sessionId, tag }]
    nextWorkerId := store.nextWorkerId + 1 }

def deleteWorkerRows (store : Store) (matching : WorkerRow → Bool) : Store :=
  { store with workerQueue := store.workerQueue.filter fun row => !matching row }

def updateWorkerRows (store : Store) (matching : WorkerRow → Bool) (change : WorkerRow → WorkerRow) : Store :=
  { store with workerQueue := store.workerQueue.map fun row => if matching row then change row else row }

/-- Change the row of an instance, if there is one. -/
def updateInstance (store : Store) (instanceId : String) (change : InstanceRow → InstanceRow) : Store :=
  { store with instances := Function.update store.instances instanceId ((store.instances instanceId).map change) }

/-- `INSERT OR IGNORE` of an instance; the parent must have a row. -/
def insertInstance (store : Store) (instanceId : String) (row : InstanceRow) : Except SqlxError Store :=
  if (store.instances instanceId).isSome then .ok store
  else
    let instances := Function.update store.instances instanceId (some row)
    if row.parentInstanceId.any fun parent => (instances parent).isNone then
      .error { message := "FOREIGN KEY constraint failed" }
    else .ok { store with instances }

def updateExecutions (store : Store) (instanceId : String)
    (change : AList (fun _ : Nat => ExecutionRow) → AList (fun _ : Nat => ExecutionRow)) : Store :=
  { store with executions := Function.update store.executions instanceId (change (store.executions instanceId)) }

/-- `INSERT OR IGNORE` of an execution. -/
def ensureExecution (store : Store) (instanceId : String) (executionId : Nat) : Store :=
  store.updateExecutions instanceId fun rows =>
    if (rows.lookup executionId).isSome then rows else rows.insert executionId {}

/-- Change the row of an execution, if there is one. -/
def updateExecution (store : Store) (instanceId : String) (executionId : Nat)
    (change : ExecutionRow → ExecutionRow) : Store :=
  store.updateExecutions instanceId fun rows =>
    match rows.lookup executionId with
    | some row => rows.insert executionId (change row)
    | none => rows

/-- `COALESCE(MAX(execution_id), 1)`. -/
def latestExecutionId (store : Store) (instanceId : String) : Nat :=
  ((store.executions instanceId).keys.max?).getD 1

def insertHistory (store : Store) (instanceId : String) (executionId : Nat) (event : Event) :
    Except SqlxError Store :=
  match (store.history instanceId executionId).insert ⟨event.eventId, .ok event⟩ with
  | some history =>
      .ok { store with
        history := Function.update store.history instanceId
          (Function.update (store.history instanceId) executionId history) }
  | none => .error { message :=
      "UNIQUE constraint failed: history.instance_id, history.execution_id, history.event_id" }

def unreadableEvent (instanceId : String) (executionId position : Nat) (error : String) : String :=
  "Failed to deserialize history event at position " ++ toString position ++ " for instance '" ++ instanceId ++
    "' execution " ++ toString executionId ++ ": " ++ error

/-- The events of an execution in event id order. -/
def readHistory (store : Store) (instanceId : String) (executionId : Nat) : Except SqlxError (List Event) :=
  match ExecutionHistory.decode (unreadableEvent instanceId executionId) 0 (store.history instanceId executionId).rows with
  | .ok events => .ok events
  | .error message => .error { message }

def updateKvDelta (store : Store) (instanceId : String)
    (change : AList (fun _ : String => KvDeltaRow) → AList (fun _ : String => KvDeltaRow)) : Store :=
  { store with kvDelta := Function.update store.kvDelta instanceId (change (store.kvDelta instanceId)) }

def updateKvStore (store : Store) (instanceId : String)
    (change : AList (fun _ : String => KvEntry) → AList (fun _ : String => KvEntry)) : Store :=
  { store with kvStore := Function.update store.kvStore instanceId (change (store.kvStore instanceId)) }

def upsertKv (store : Store) (instanceId key : String) (row : KvDeltaRow) : Store :=
  store.updateKvDelta instanceId (·.insert key row)

/-- Tombstone every key written in this execution. -/
def tombstoneDelta (store : Store) (instanceId : String) (now : Nat) : Store :=
  store.updateKvDelta instanceId fun delta => Lib.KeyedTable.updateWhere delta (fun _ _ => true) fun _ => ⟨none, now⟩

/-- Tombstone the stored keys that this execution has not written. -/
def tombstoneStored (store : Store) (instanceId : String) (now : Nat) : Store :=
  store.updateKvDelta instanceId fun delta =>
    (store.kvStore instanceId).keys.foldl
      (fun delta key => if (delta.lookup key).isSome then delta else delta.insert key ⟨none, now⟩) delta

/-- Store the values written in this execution. -/
def mergeKvValues (store : Store) (instanceId : String) : Store :=
  store.updateKvStore instanceId fun stored =>
    (store.kvDelta instanceId).entries.foldl (fun stored entry =>
      match entry.2.value with
      | some value => stored.insert entry.1 ⟨value, entry.2.lastUpdatedAtMs⟩
      | none => stored) stored

/-- Remove the keys that this execution cleared. -/
def mergeKvTombstones (store : Store) (instanceId : String) : Store :=
  store.updateKvStore instanceId fun stored =>
    Lib.KeyedTable.deleteWhere stored fun key _ => ((store.kvDelta instanceId).lookup key).any (·.value.isNone)

def clearKvDelta (store : Store) (instanceId : String) : Store := store.updateKvDelta instanceId fun _ => ∅

/-- What an accepted `delete_instances_atomic` leaves. -/
def deleteInstances (store : Store) (ids : List String) : Store :=
  let kept := ((store.deleteOrchestratorRows (·.instanceId ∈ ids)).deleteWorkerRows fun row =>
    row.identity.any (·.instanceId ∈ ids)).deleteLocks fun instanceId _ => instanceId ∈ ids
  { kept with
    instances := fun instanceId => if instanceId ∈ ids then none else store.instances instanceId
    executions := fun instanceId => if instanceId ∈ ids then ∅ else store.executions instanceId
    history := fun instanceId => if instanceId ∈ ids then fun _ => .empty else store.history instanceId
    kvStore := fun instanceId => if instanceId ∈ ids then ∅ else store.kvStore instanceId
    kvDelta := fun instanceId => if instanceId ∈ ids then ∅ else store.kvDelta instanceId }

/-- The unexpired lock of an instance carries this token. -/
def holdsLock (store : Store) (now : Int) (instanceId : String) (token : Nat) : Bool :=
  match store.instanceLocks.lookup instanceId with
  | some lock => lock.lockToken == token && now < lock.lockedUntil
  | none => false

end Store

end Duroxide
