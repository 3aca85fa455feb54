import Duroxide.Model.Provider

/-! # The SQLite-like providers: work items

Fetching, acknowledging, renewing and giving back the items of the worker queue. A work item is locked
by its own row; an item with a session is only handed to the worker that holds the session, or claims
it. Each call is given as its effect when the database reports no error.
-/

namespace Duroxide.Provider

inductive TagFilter where
  | defaultOnly
  | tags (set : List String)
  | defaultAnd (set : List String)
  | any
  | none
deriving DecidableEq, Repr

/-- Whether a worker with this filter takes an item with this tag. -/
def TagFilter.accepts : TagFilter → Option String → Bool
  | .defaultOnly, tag => tag.isNone
  | .tags set, tag => tag.any (· ∈ set)
  | .defaultAnd set, tag => tag.all (· ∈ set)
  | .any, _ => true
  | .none, _ => false

/-- The identity and the session lock timeout of a worker that takes session items. -/
structure SessionFetchConfig where
  ownerId : String
  lockTimeoutMs : Nat
deriving DecidableEq, Repr

/-- The unexpired session of an id. -/
def activeSession (store : Store) (now : Nat) (sessionId : String) : Option SessionRow :=
  (store.sessions.lookup sessionId).filter fun session => (now : Int) < session.lockedUntil

/-- Whether the session of an item allows this worker to take it. -/
def sessionAllows (store : Store) (now : Nat) (session : Option SessionFetchConfig) : Option String → Bool
  | none => true
  | some sessionId => match session with
    | some config => (activeSession store now sessionId).all (·.workerId == config.ownerId)
    | none => false

def isAvailable (store : Store) (now : Nat) (session : Option SessionFetchConfig) (filter : TagFilter)
    (row : WorkerRow) : Bool :=
  row.visibleAt ≤ now && (row.lockToken.isNone || row.lockedUntil.any (· ≤ (now : Int))) &&
    sessionAllows store now session row.sessionId && filter.accepts row.tag

/-- Claim or refresh the session of an item; a session that another worker holds is not claimed. -/
def claimSession (store : Store) (now : Nat) (config : SessionFetchConfig) (sessionId : String) : Option Store :=
  let claimed : SessionRow := ⟨config.ownerId, now + config.lockTimeoutMs, now⟩
  match store.sessions.lookup sessionId with
  | some session =>
      if session.lockedUntil ≤ now ∨ session.workerId = config.ownerId then
        some { store with sessions := store.sessions.insert sessionId claimed }
      else none
  | none => some { store with sessions := store.sessions.insert sessionId claimed }

/-- Claim the session of an item, if it has one. -/
def claimItemSession (store : Store) (now : Nat) (session : Option SessionFetchConfig) (sessionId : Option String) :
    Option Store :=
  match sessionId, session with
  | some sessionId, some config => claimSession store now config sessionId
  | _, _ => some store

/-- Lock the oldest available work item; none when there is none. -/
def fetchWorkItem (store : Store) (now lockTimeoutMs token : Nat) (session : Option SessionFetchConfig)
    (filter : TagFilter) : Option ((WorkItem × Nat) × Store) := do
  let row ← store.workerQueue.find? (isAvailable store now session filter)
  let locked := store.updateWorkerRows (·.id == row.id) fun row =>
    { row with
      lockToken := some token, lockedUntil := some (now + lockTimeoutMs), attemptCount := row.attemptCount + 1 }
  let claimed ← claimItemSession locked now session row.sessionId
  return ((row.workItem, asU32 (row.attemptCount + 1)), claimed)

/-- The row that a token locks, while its lock is unexpired. -/
def holdsWork (now token : Nat) (row : WorkerRow) : Bool :=
  row.lockToken == some token && row.lockedUntil.any ((now : Int) < ·)

/-- Note that a session is in use, while it is held. -/
def touchSession (store : Store) (now : Nat) (sessionId : Option String) : Store :=
  match sessionId with
  | some sessionId =>
      { store with
        sessions := Lib.KeyedTable.updateWhere store.sessions
          (fun key session => key == sessionId && (now : Int) < session.lockedUntil)
          fun session => { session with lastActivityAt := now } }
  | none => store

def isActivityCompletion : WorkItem → Bool
  | .activityCompleted .. | .activityFailed .. => true
  | _ => false

/-- Delete a locked work item and enqueue its completion, if there is one. -/
def ackWorkItem (store : Store) (now token : Nat) (completion : Option WorkItem) : Except ProviderError Store :=
  match store.workerQueue.find? (holdsWork now token) with
  | none => .error (.makePermanent "ack_work_item"
      "Activity was cancelled or lock expired (worker queue row not found or lock invalid)")
  | some row =>
      let deleted := touchSession (store.deleteWorkerRows (holdsWork now token)) now row.sessionId
      match completion with
      | none => .ok deleted
      | some completion =>
          if isActivityCompletion completion then .ok (deleted.insertOrchestratorRow completion now)
          else .error (.makePermanent "ack_work_item" "Invalid completion type for worker ack")

/-- Extend the lock of a work item that is still held. -/
def renewWorkItemLock (store : Store) (now token extendMs : Nat) : Except ProviderError Store :=
  match store.workerQueue.find? (holdsWork now token) with
  | none => .error (.makePermanent "renew_work_item_lock"
      "Lock renewal failed - activity was cancelled or lock expired")
  | some row => .ok (touchSession (store.updateWorkerRows (holdsWork now token) fun row =>
      { row with lockedUntil := some (now + extendMs) }) now row.sessionId)

/-- Give a work item back, expired or not. -/
def abandonWorkItem (store : Store) (now token : Nat) (delayMs : Option Nat) (ignoreAttempt : Bool) :
    Except ProviderError Store :=
  if store.workerQueue.any (·.lockToken == some token) then
    .ok (store.updateWorkerRows (·.lockToken == some token) fun row =>
      { row with
        lockToken := none, lockedUntil := none, visibleAt := now + delayMs.getD 0
        attemptCount := if ignoreAttempt then row.attemptCount - 1 else row.attemptCount })
  else .error (.makePermanent "abandon_work_item" "Invalid lock token or already acked")

/-- Extend the sessions that these workers hold and have used lately; returns their number. -/
def renewSessionLock (store : Store) (now : Nat) (ownerIds : List String) (extendMs idleTimeoutMs : Nat) : Nat × Store :=
  if ownerIds.isEmpty then (0, store)
  else
    let renewed := fun (_ : String) (session : SessionRow) =>
      session.workerId ∈ ownerIds && (now : Int) < session.lockedUntil && (now : Int) - idleTimeoutMs < session.lastActivityAt
    (store.sessions.entries.countP fun entry => renewed entry.1 entry.2,
      { store with
        sessions := Lib.KeyedTable.updateWhere store.sessions renewed fun session =>
          { session with lockedUntil := now + extendMs } })

/-- Remove the sessions whose lock has run out and that no item of the queue needs; returns their number. -/
def cleanupOrphanedSessions (store : Store) (now : Nat) : Nat × Store :=
  let orphaned := fun (sessionId : String) (session : SessionRow) =>
    session.lockedUntil < now && !store.workerQueue.any (·.sessionId == some sessionId)
  (store.sessions.entries.countP fun entry => orphaned entry.1 entry.2,
    { store with sessions := Lib.KeyedTable.deleteWhere store.sessions orphaned })

end Duroxide.Provider
