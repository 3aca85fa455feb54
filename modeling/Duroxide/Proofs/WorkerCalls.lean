import Duroxide.Model.WorkerQueue

/-! # What the calls of a worker do

Each call is described by the rows it changes; sessions may change with every call.
-/

namespace Duroxide.Provider

variable {store after : Store} {now token : Nat}

theorem touchSession_eq (store : Store) (now : Nat) (sessionId : Option String) :
    ∃ sessions, touchSession store now sessionId = { store with sessions } := by
  unfold touchSession
  split
  · exact ⟨_, rfl⟩
  · exact ⟨store.sessions, rfl⟩

theorem claimSession_eq {config : SessionFetchConfig} {sessionId : String}
    (claimed : claimSession store now config sessionId = some after) : ∃ sessions, after = { store with sessions } := by
  unfold claimSession at claimed
  dsimp only at claimed
  split at claimed
  · split_ifs at claimed
    cases claimed
    exact ⟨_, rfl⟩
  · cases claimed
    exact ⟨_, rfl⟩

theorem claimItemSession_eq {session : Option SessionFetchConfig} {sessionId : Option String}
    (claimed : claimItemSession store now session sessionId = some after) :
    ∃ sessions, after = { store with sessions } := by
  unfold claimItemSession at claimed
  split at claimed
  · exact claimSession_eq claimed
  · cases claimed
    exact ⟨store.sessions, rfl⟩

/-- A worker row locked by a fetch. -/
def lockedWorkerRow (now lockTimeoutMs token : Nat) (row : WorkerRow) : WorkerRow :=
  { row with lockToken := some token, lockedUntil := some (now + lockTimeoutMs), attemptCount := row.attemptCount + 1 }

/-- A fetch locks the row of the item it returns. -/
theorem fetchWorkItem_spec {lockTimeoutMs : Nat} {session : Option SessionFetchConfig} {filter : TagFilter}
    {workItem : WorkItem} {attemptCount : Nat}
    (found : fetchWorkItem store now lockTimeoutMs token session filter = some ((workItem, attemptCount), after)) :
    ∃ row sessions, store.workerQueue.find? (isAvailable store now session filter) = some row ∧
      workItem = row.workItem ∧
      after = { store.updateWorkerRows (·.id == row.id) (lockedWorkerRow now lockTimeoutMs token) with sessions } := by
  obtain ⟨row, available, locked⟩ := Option.bind_eq_some_iff.mp found
  obtain ⟨claimed, claims, same⟩ := Option.bind_eq_some_iff.mp locked
  cases same
  obtain ⟨sessions, rfl⟩ := claimItemSession_eq claims
  exact ⟨row, sessions, available, rfl, rfl⟩

/-- The rows left by an acknowledgement, and the completion it enqueues. -/
def withCompletion (store : Store) (now : Nat) : Option WorkItem → Store
  | some completion => store.insertOrchestratorRow completion now
  | none => store

/-- An acknowledgement deletes the rows of its token and enqueues the completion. -/
theorem ackWorkItem_spec {completion : Option WorkItem} (acked : ackWorkItem store now token completion = .ok after) :
    ∃ row sessions, store.workerQueue.find? (holdsWork now token) = some row ∧
      after = withCompletion { store.deleteWorkerRows (holdsWork now token) with sessions } now completion := by
  unfold ackWorkItem at acked
  split at acked
  · cases acked
  rename_i row found
  obtain ⟨sessions, touched⟩ := touchSession_eq (store.deleteWorkerRows (holdsWork now token)) now row.sessionId
  dsimp only at acked
  rw [touched] at acked
  refine ⟨row, sessions, found, ?_⟩
  split at acked
  · cases acked
    rfl
  · split_ifs at acked
    cases acked
    rfl

theorem renewWorkItemLock_spec {extendMs : Nat} (extended : renewWorkItemLock store now token extendMs = .ok after) :
    ∃ sessions, after = { store.updateWorkerRows (holdsWork now token) fun row =>
      { row with lockedUntil := some (now + extendMs) } with sessions } := by
  unfold renewWorkItemLock at extended
  split at extended
  · cases extended
  · cases extended
    obtain ⟨sessions, touched⟩ := touchSession_eq (store.updateWorkerRows (holdsWork now token) fun row =>
      { row with lockedUntil := some (now + extendMs) }) now _
    exact ⟨sessions, touched⟩

/-- A worker row given back. -/
def releasedWorkerRow (now : Nat) (delayMs : Option Nat) (ignoreAttempt : Bool) (row : WorkerRow) : WorkerRow :=
  { row with
    lockToken := none, lockedUntil := none, visibleAt := now + delayMs.getD 0
    attemptCount := if ignoreAttempt then row.attemptCount - 1 else row.attemptCount }

theorem abandonWorkItem_spec {delayMs : Option Nat} {ignoreAttempt : Bool}
    (released : abandonWorkItem store now token delayMs ignoreAttempt = .ok after) :
    after = store.updateWorkerRows (·.lockToken == some token) (releasedWorkerRow now delayMs ignoreAttempt) := by
  unfold abandonWorkItem at released
  split at released
  · cases released
    rfl
  · cases released

end Duroxide.Provider
