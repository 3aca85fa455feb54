import Duroxide.Lib.Projection
import Duroxide.Proofs.Pruning
import Duroxide.Proofs.Succession

/-! # Pruning is not seen

The calls of dispatchers and workers read no execution before the current one, so a run of the system
with prune calls in it goes like the run without them: what is fetched and held is the same, and the
tables differ in the pruned executions only.
-/

namespace Duroxide

open Lib.Database Lib.Database.Db

namespace Store

variable {store : Store} {forgotten : String → Nat → Bool} {instanceId : String} {executionId : Nat}

/-- Only executions before the current one of their instance are forgotten. -/
def Spares (forgotten : String → Nat → Bool) (store : Store) : Prop :=
  ∀ instanceId executionId, forgotten instanceId executionId →
    ∃ info, store.instances instanceId = some info ∧ executionId < info.currentExecutionId

theorem Spares.reached (spares : store.Spares forgotten) {info : InstanceRow} (row : store.instances instanceId = some info)
    (reached : info.currentExecutionId ≤ executionId) : forgotten instanceId executionId = false := by
  by_contra lost
  obtain ⟨other, found, before⟩ := spares instanceId executionId (Bool.not_eq_false _ ▸ lost)
  rw [row] at found
  obtain rfl := Option.some.inj found
  omega

theorem Spares.current (spares : store.Spares forgotten) {info : InstanceRow} (row : store.instances instanceId = some info) :
    forgotten instanceId info.currentExecutionId = false := spares.reached row (le_refl _)

theorem Spares.unknown (spares : store.Spares forgotten) (noRow : store.instances instanceId = none) (executionId : Nat) :
    forgotten instanceId executionId = false := by
  by_contra lost
  obtain ⟨info, found, _⟩ := spares instanceId executionId (Bool.not_eq_false _ ▸ lost)
  rw [noRow] at found
  cases found

/-- A store in which every instance has its row still, with the same or a later current execution. -/
theorem Spares.mono {after : Store} (spares : store.Spares forgotten)
    (later : ∀ instanceId info, store.instances instanceId = some info →
      ∃ info', after.instances instanceId = some info' ∧ info.currentExecutionId ≤ info'.currentExecutionId) :
    after.Spares forgotten := by
  intro instanceId executionId lost
  obtain ⟨info, found, before⟩ := spares instanceId executionId lost
  obtain ⟨info', found', grown⟩ := later instanceId info found
  exact ⟨info', found', before.trans_le grown⟩

/-! ## Queries and statements on a store that has forgotten executions -/

theorem pinnedDuroxideVersion_forget (spares : store.Spares forgotten) (instanceId : String) :
    (store.forget forgotten).pinnedDuroxideVersion instanceId = store.pinnedDuroxideVersion instanceId := by
  have same : (store.forget forgotten).instances = store.instances := rfl
  unfold pinnedDuroxideVersion
  rw [same]
  rcases row : store.instances instanceId with _ | info
  · rfl
  · simp only [Option.bind_eq_bind, Option.bind_some, lookup_forget_of_kept (spares.current row)]

theorem selectCandidate_forget (spares : store.Spares forgotten) (now : Nat) (range : Option (Nat × Nat)) :
    (store.forget forgotten).selectCandidate now range = store.selectCandidate now range := by
  have supports : ∀ instanceId, (store.forget forgotten).supportsInstance range instanceId =
      store.supportsInstance range instanceId := by
    intro instanceId
    simp only [supportsInstance, pinnedDuroxideVersion_forget spares]
  simp only [selectCandidate, supports]
  rfl

theorem readHistory_forget (kept : forgotten instanceId executionId = false) :
    (store.forget forgotten).readHistory instanceId executionId = store.readHistory instanceId executionId := by
  simp only [readHistory, history_forget_of_kept kept]

/-- Of an instance that lost nothing all executions are there. -/
theorem latestExecutionId_forget (kept : ∀ executionId, forgotten instanceId executionId = false) :
    (store.forget forgotten).latestExecutionId instanceId = store.latestExecutionId instanceId := by
  have rows : (store.forget forgotten).executions instanceId = store.executions instanceId := by
    change Lib.KeyedTable.deleteWhere (store.executions instanceId) (fun executionId _ => forgotten instanceId executionId) = _
    exact Lib.KeyedTable.deleteWhere_eq_self fun entry _ => kept entry.1
  rw [latestExecutionId, rows]
  rfl

theorem insertInstance_forget (row : InstanceRow) :
    (store.forget forgotten).insertInstance instanceId row =
      (store.insertInstance instanceId row).map (Store.forget · forgotten) := by
  have same : (store.forget forgotten).instances = store.instances := rfl
  simp only [insertInstance, same]
  split_ifs <;> rfl

theorem updateExecutions_forget {change : AList (fun _ : Nat => ExecutionRow) → AList (fun _ : Nat => ExecutionRow)}
    (apart : change ((store.forget forgotten).executions instanceId) =
      Lib.KeyedTable.deleteWhere (change (store.executions instanceId)) fun executionId _ => forgotten instanceId executionId) :
    (store.forget forgotten).updateExecutions instanceId change = (store.updateExecutions instanceId change).forget forgotten := by
  have rows : Function.update (store.forget forgotten).executions instanceId (change ((store.forget forgotten).executions instanceId)) =
      fun other => Lib.KeyedTable.deleteWhere (Function.update store.executions instanceId (change (store.executions instanceId)) other)
        fun executionId _ => forgotten other executionId := by
    funext other
    by_cases same : other = instanceId
    · subst same
      rw [Function.update_self, Function.update_self, apart]
    · rw [Function.update_of_ne same, Function.update_of_ne same]
      rfl
  simp only [updateExecutions, rows]
  rfl

theorem ensureExecution_forget (kept : forgotten instanceId executionId = false) :
    (store.forget forgotten).ensureExecution instanceId executionId =
      (store.ensureExecution instanceId executionId).forget forgotten := by
  apply updateExecutions_forget
  rw [lookup_forget_of_kept kept]
  split_ifs
  · rfl
  · exact (Lib.KeyedTable.deleteWhere_insert _ (fun _ => kept) _).symm

theorem updateExecution_forget (kept : forgotten instanceId executionId = false) (change : ExecutionRow → ExecutionRow) :
    (store.forget forgotten).updateExecution instanceId executionId change =
      (store.updateExecution instanceId executionId change).forget forgotten := by
  apply updateExecutions_forget
  rw [lookup_forget_of_kept kept]
  cases (store.executions instanceId).lookup executionId with
  | none => rfl
  | some row => exact (Lib.KeyedTable.deleteWhere_insert _ (fun _ => kept) _).symm

theorem insertHistory_forget (kept : forgotten instanceId executionId = false) (event : Event) :
    (store.forget forgotten).insertHistory instanceId executionId event =
      (store.insertHistory instanceId executionId event).map (Store.forget · forgotten) := by
  simp only [insertHistory, history_forget_of_kept kept]
  cases inserted : (store.history instanceId executionId).insert ⟨event.eventId, .ok event⟩ with
  | none => rfl
  | some history =>
    have events : Function.update (store.forget forgotten).history instanceId
        (Function.update ((store.forget forgotten).history instanceId) executionId history) = fun other id =>
          if forgotten other id then .empty
          else Function.update store.history instanceId (Function.update (store.history instanceId) executionId history) other id := by
      funext other id
      by_cases same : other = instanceId
      · subst same
        by_cases executed : id = executionId
        · subst executed
          simp [kept]
        · simp [executed, forget]
      · simp [same, forget]
    simp only [Except.map, forget, Except.ok.injEq, Store.mk.injEq, true_and, and_true]
    exact events

theorem Spares.updateInstance (spares : store.Spares forgotten) (instanceId : String) {change : InstanceRow → InstanceRow}
    (grows : ∀ info, info.currentExecutionId ≤ (change info).currentExecutionId) :
    (store.updateInstance instanceId change).Spares forgotten := by
  refine spares.mono fun other info row => ?_
  by_cases same : other = instanceId
  · subst same
    exact ⟨change info, by simp [Store.updateInstance, row], grows info⟩
  · exact ⟨info, (Function.update_of_ne same _ _).trans row, le_refl _⟩

theorem Spares.insertInstance (spares : store.Spares forgotten) {row : InstanceRow} {changed : Store}
    (inserted : store.insertInstance instanceId row = .ok changed) : changed.Spares forgotten := by
  rw [Provider.insertInstance_eq inserted]
  refine spares.mono fun other info found => ⟨info, ?_, le_refl _⟩
  by_cases same : other = instanceId
  · subst same
    refine (Function.update_self _ _ _).trans ?_
    rw [found, Option.getD_some]
  · exact (Function.update_of_ne same _ _).trans found

end Store

namespace Provider

variable {forgotten : String → Nat → Bool} {config : ProviderConfig} {instanceId : String} {token : Nat}

/-! ## Fetching -/

theorem blind_finishFetch (attemptCount : Nat) (item : OrchestrationItem) :
    Blind (Store.forget · forgotten) (Store.Spares forgotten) (Store.Spares forgotten)
      (finishFetch config token attemptCount item) := by
  refine blind_bind (blind_query (fun _ holds => holds) fun _ _ => rfl) fun _ => ?_
  exact blind_bind blind_commit fun _ => blind_pure _

theorem blind_readHistory {executionId : Nat} (kept : forgotten instanceId executionId = false) (label : Statement) :
    Blind (Store.forget · forgotten) (Store.Spares forgotten) (Store.Spares forgotten)
      (Db.statement id label fun store : Store => (store.readHistory instanceId executionId).map (·, store) :
        Db Store Statement SqlxError SqlxError (List Event)) := by
  apply blind_statement
  · intro store _
    rw [Store.readHistory_forget kept]
    cases store.readHistory instanceId executionId <;> rfl
  · intro store value changed spares ran
    cases read : store.readHistory instanceId executionId with
    | error error =>
      rw [read] at ran
      cases ran
    | ok events =>
      rw [read] at ran
      cases ran
      exact spares

theorem blind_fetchKnownInstance (attemptCount : Nat) (messages : List WorkItem) {info : InstanceRow}
    (kept : forgotten instanceId info.currentExecutionId = false) :
    Blind (Store.forget · forgotten) (Store.Spares forgotten) (Store.Spares forgotten)
      (fetchKnownInstance config token attemptCount instanceId messages info) := by
  refine blind_bind (blind_attempt (blind_readHistory kept .readHistory)) fun history => ?_
  cases history with
  | ok history => exact blind_finishFetch attemptCount _
  | error error => exact blind_bind blind_commit fun _ => blind_pure _

theorem blind_readLatestHistory (kept : ∀ executionId, forgotten instanceId executionId = false) :
    Blind (Store.forget · forgotten) (Store.Spares forgotten) (Store.Spares forgotten) (readLatestHistory instanceId) := by
  refine blind_bind (blind_query (fun _ holds => holds) fun store _ => Store.latestExecutionId_forget kept) fun executionId => ?_
  exact blind_readHistory (kept executionId) .readLatestHistory

theorem blind_fetchUnknownInstance (attemptCount : Nat) (messages : List WorkItem)
    (kept : ∀ executionId, forgotten instanceId executionId = false) :
    Blind (Store.forget · forgotten) (Store.Spares forgotten) (Store.Spares forgotten)
      (fetchUnknownInstance config token attemptCount instanceId messages) := by
  refine blind_bind (blind_attempt (blind_readLatestHistory kept)) fun latest => ?_
  dsimp only
  split
  · exact blind_finishFetch attemptCount _
  · exact blind_finishFetch attemptCount _
  · split_ifs
    · refine blind_bind (blind_update (fun _ _ => rfl) fun _ spares => spares) fun _ => ?_
      refine blind_bind (blind_update (fun _ _ => rfl) fun _ spares => spares) fun _ => ?_
      exact blind_bind blind_commit fun _ => blind_pure _
    · exact blind_bind (blind_ignore blind_rollback) fun _ => blind_pure _

theorem blind_fetchLocked (now : Nat) (instanceId : String) :
    Blind (Store.forget · forgotten) (Store.Spares forgotten) (Store.Spares forgotten)
      (fetchLocked config now token instanceId) := by
  refine blind_bind (blind_update (fun _ _ => rfl) fun _ spares => spares) fun _ => ?_
  refine blind_bind (blind_query (fun _ holds => holds) fun _ _ => rfl) fun rows => ?_
  split_ifs
  · refine blind_bind (blind_ignore (blind_update (fun _ _ => rfl) fun _ spares => spares)) fun _ => ?_
    exact blind_bind (blind_ignore blind_rollback) fun _ => blind_pure _
  · refine blind_query_bind (fun _ holds => holds) (fun _ _ => rfl) fun store spares => ?_
    split
    · rename_i info row
      exact blind_fetchKnownInstance _ _ (spares.current row)
    · rename_i noRow
      exact blind_fetchUnknownInstance _ _ (spares.unknown noRow)

theorem blind_fetchCandidate (now lockTimeoutMs : Nat) (instanceId : String) :
    Blind (Store.forget · forgotten) (Store.Spares forgotten) (Store.Spares forgotten)
      (fetchCandidate config now lockTimeoutMs token instanceId) := by
  have acquires : Blind (Store.forget · forgotten) (Store.Spares forgotten) (Store.Spares forgotten)
      (Db.statement (fetchError config) Statement.acquireLock fun store : Store =>
        .ok (store.acquireLock now instanceId ⟨token, now + lockTimeoutMs⟩) : Op Bool) := by
    apply blind_statement
    · intro store _
      have unlocked : (store.forget forgotten).isUnlocked now instanceId = store.isUnlocked now instanceId := rfl
      simp only [Store.acquireLock, unlocked]
      split_ifs <;> rfl
    · intro store value changed spares ran
      unfold Store.acquireLock at ran
      split_ifs at ran <;> cases ran <;> exact spares
  refine blind_bind (blind_onError acquires blind_rollback) fun acquired => ?_
  split_ifs
  · exact blind_fetchLocked now instanceId
  · exact blind_bind (blind_ignore blind_rollback) fun _ => blind_pure _

variable {semver : Semver}

theorem blind_fetchOrchestrationItem (config : ProviderConfig) (filter : Option (List (SemverRange semver))) (now lockTimeoutMs token : Nat) :
    Blind (Store.forget · forgotten) (Store.Spares forgotten) (Store.Spares forgotten)
      (fetchOrchestrationItem config filter now lockTimeoutMs token) := by
  refine blind_bind blind_begin fun _ => ?_
  split_ifs
  · exact blind_bind blind_commit fun _ => blind_pure _
  · dsimp only
    refine blind_bind (blind_query (fun _ holds => holds) fun store spares => ?_) fun candidate => ?_
    · exact Store.selectCandidate_forget spares now _
    · cases candidate with
      | some instanceId => exact blind_fetchCandidate now lockTimeoutMs instanceId
      | none =>
        refine blind_bind (blind_query (fun _ holds => holds) fun _ _ => rfl) fun _ => ?_
        exact blind_bind (blind_ignore blind_rollback) fun _ => blind_pure _

/-! ## Acknowledging -/

variable {request : AckRequest semver}

theorem blind_recordMetadata (kept : forgotten instanceId request.executionId = false) :
    Blind (Store.forget · forgotten) (Store.Spares forgotten) (Store.Spares forgotten)
      (recordMetadata config instanceId request) := by
  refine blind_bind (blind_ifSome (fun identity => ?_) _) fun _ => ?_
  · refine blind_bind (blind_statement ?_ ?_) fun _ => ?_
    · intro store _
      rw [Store.insertInstance_forget]
      cases store.insertInstance instanceId _ <;> rfl
    · intro store value changed spares ran
      rcases inserted : store.insertInstance instanceId _ with error | result
      · rw [inserted] at ran
        cases ran
      · rw [inserted] at ran
        cases ran
        exact spares.insertInstance inserted
    · refine blind_update (fun _ _ => rfl) fun _ spares => spares.updateInstance instanceId ?_
      exact fun info => le_refl info.currentExecutionId
  · refine blind_bind (blind_update (fun _ _ => Store.ensureExecution_forget kept) fun _ spares => spares) fun _ => ?_
    refine blind_bind (blind_ifSome (fun pinned => ?_) _) fun _ => ?_
    · exact blind_update (fun _ _ => Store.updateExecution_forget kept _) fun _ spares => spares
    · refine blind_update (fun _ _ => rfl) fun _ spares => spares.updateInstance instanceId ?_
      exact fun info => le_max_left info.currentExecutionId request.executionId

theorem blind_appendHistory {executionId : Nat} (kept : forgotten instanceId executionId = false) (events : List Event) :
    Blind (Store.forget · forgotten) (Store.Spares forgotten) (Store.Spares forgotten)
      (appendHistory instanceId executionId events) := by
  unfold appendHistory
  split_ifs
  · exact blind_fail _
  · refine blind_forEach (fun event => blind_statement ?_ ?_) events
    · intro store _
      rw [Store.insertHistory_forget kept]
      cases store.insertHistory instanceId executionId event <;> rfl
    · intro store value changed spares ran
      unfold Store.insertHistory at ran
      split at ran
      · cases ran
        exact spares
      · cases ran

theorem blind_recordStatus (kept : forgotten instanceId request.executionId = false) :
    Blind (Store.forget · forgotten) (Store.Spares forgotten) (Store.Spares forgotten)
      (recordStatus config instanceId request) := by
  refine blind_bind (blind_ifSome (fun status => ?_) _) fun _ => blind_ifSome (fun customStatus => ?_) _
  · exact blind_update (fun _ _ => Store.updateExecution_forget kept _) fun _ spares => spares
  · refine blind_update (fun _ _ => rfl) fun _ spares => spares.updateInstance instanceId ?_
    exact fun info => le_refl info.currentExecutionId

theorem blind_recordKv (now : Nat) : Blind (Store.forget · forgotten) (Store.Spares forgotten) (Store.Spares forgotten)
    (recordKv config now instanceId request) := by
  refine blind_bind (blind_forEach (fun event => ?_) _) fun _ => ?_
  · unfold recordKvEvent
    split
    · exact blind_update (fun _ _ => rfl) fun _ spares => spares
    · exact blind_update (fun _ _ => rfl) fun _ spares => spares
    · exact blind_bind (blind_update (fun _ _ => rfl) fun _ spares => spares) fun _ =>
        blind_update (fun _ _ => rfl) fun _ spares => spares
    · exact blind_pure ()
  · split_ifs
    · refine blind_bind (blind_update (fun _ _ => rfl) fun _ spares => spares) fun _ => ?_
      refine blind_bind (blind_update (fun _ _ => rfl) fun _ spares => spares) fun _ => ?_
      exact blind_update (fun _ _ => rfl) fun _ spares => spares
    · exact blind_pure ()

theorem blind_enqueueItems (now : Nat) : Blind (Store.forget · forgotten) (Store.Spares forgotten) (Store.Spares forgotten)
    (enqueueItems config now request) := by
  refine blind_bind (blind_forEach (fun item => ?_) _) fun _ => blind_bind ?_ fun _ => blind_forEach (fun item => ?_) _
  · exact blind_update (fun _ _ => rfl) fun _ spares => spares
  · unfold deleteCancelled
    split_ifs
    · exact blind_pure ()
    · exact blind_update (fun _ _ => rfl) fun _ spares => spares
  · exact blind_update (fun _ _ => rfl) fun _ spares => spares

theorem blind_releaseAndCommit (now : Nat) :
    Blind (Store.forget · forgotten) (Store.Spares forgotten) (Store.Spares forgotten)
      (releaseAndCommit config now token instanceId) := by
  refine blind_bind (blind_query (fun _ holds => holds) fun _ _ => rfl) fun valid => ?_
  split_ifs
  · exact blind_bind (blind_update (fun _ _ => rfl) fun _ spares => spares) fun _ => blind_commit
  · exact blind_bind (blind_ignore blind_rollback) fun _ => blind_fail _

theorem blind_extendAckLock (now : Nat) : Blind (Store.forget · forgotten) (Store.Spares forgotten) (Store.Spares forgotten)
    (extendAckLock config now token) := by
  unfold extendAckLock
  split
  · exact blind_pure ()
  · refine blind_bind (blind_statement (fun _ _ => rfl) ?_) fun extended => ?_
    · intro store value changed spares ran
      cases ran
      exact spares
    · split_ifs
      · exact blind_pure ()
      · exact blind_bind (blind_ignore blind_rollback) fun _ => blind_fail _

/-- The execution that an acknowledgement is about is not forgotten, when it finds its lock. -/
structure SparesRequest (forgotten : String → Nat → Bool) (token : Nat) (request : AckRequest semver) (store : Store) :
    Prop where
  spares : store.Spares forgotten
  kept : ∀ instanceId, store.lockedInstance token = some instanceId → forgotten instanceId request.executionId = false

theorem blind_ackOrchestrationItem (config : ProviderConfig) (now token : Nat) (request : AckRequest semver) :
    Blind (Store.forget · forgotten) (SparesRequest forgotten token request) (Store.Spares forgotten)
      (ackOrchestrationItem config now token request) := by
  refine blind_bind_known (fun _ holds => holds.spares) blind_begin fun _ _ _ _ _ => ?_
  refine blind_query_bind (fun _ holds => holds.spares) (fun _ _ => rfl) fun store holds => ?_
  split
  · exact blind_fail _
  · rename_i instanceId locked
    have kept := holds.kept instanceId locked
    refine blind_bind (blind_extendAckLock now) fun _ => ?_
    refine blind_bind (blind_update (fun _ _ => rfl) fun _ spares => spares) fun _ => ?_
    refine blind_bind (blind_recordMetadata kept) fun _ => ?_
    refine blind_bind (blind_appendHistory kept _) fun _ => ?_
    refine blind_bind (blind_recordStatus kept) fun _ => ?_
    refine blind_bind (blind_recordKv now) fun _ => ?_
    exact blind_bind (blind_enqueueItems now) fun _ => blind_releaseAndCommit now

/-! ## The other calls -/

section Calls

variable {store : Store} {now : Nat}

theorem abandonOrchestrationItem_forget (delayMs : Option Nat) (ignoreAttempt : Bool) :
    abandonOrchestrationItem (store.forget forgotten) now token delayMs ignoreAttempt =
      (abandonOrchestrationItem store now token delayMs ignoreAttempt).map (Store.forget · forgotten) := by
  have same : (store.forget forgotten).lockedInstance token = store.lockedInstance token := rfl
  unfold abandonOrchestrationItem
  rw [same]
  cases store.lockedInstance token with
  | none => rfl
  | some instanceId => cases delayMs <;> cases ignoreAttempt <;> rfl

theorem renewOrchestrationItemLock_forget (extendMs : Nat) :
    renewOrchestrationItemLock (store.forget forgotten) now token extendMs =
      (renewOrchestrationItemLock store now token extendMs).map (Store.forget · forgotten) := by
  have same : (store.forget forgotten).instanceLocks = store.instanceLocks := rfl
  simp only [renewOrchestrationItemLock, same]
  split_ifs <;> rfl

theorem touchSession_forget (store : Store) (sessionId : Option String) :
    touchSession (store.forget forgotten) now sessionId = (touchSession store now sessionId).forget forgotten := by
  cases sessionId <;> rfl

theorem claimItemSession_forget (store : Store) (session : Option SessionFetchConfig) (sessionId : Option String) :
    claimItemSession (store.forget forgotten) now session sessionId =
      (claimItemSession store now session sessionId).map (Store.forget · forgotten) := by
  have same : (store.forget forgotten).sessions = store.sessions := rfl
  unfold claimItemSession
  split
  · unfold claimSession
    rw [same]
    dsimp only
    split
    · split_ifs <;> rfl
    · rfl
  · rfl

theorem fetchWorkItem_forget (lockTimeoutMs : Nat) (session : Option SessionFetchConfig) (filter : TagFilter) :
    fetchWorkItem (store.forget forgotten) now lockTimeoutMs token session filter =
      (fetchWorkItem store now lockTimeoutMs token session filter).map fun fetched => (fetched.1, fetched.2.forget forgotten) := by
  have same : (store.forget forgotten).workerQueue.find? (isAvailable (store.forget forgotten) now session filter) =
      store.workerQueue.find? (isAvailable store now session filter) := rfl
  unfold fetchWorkItem
  rw [same]
  cases store.workerQueue.find? (isAvailable store now session filter) with
  | none => rfl
  | some row =>
    simp only [Option.bind_eq_bind, Option.bind_some]
    refine (congrArg (Option.bind · _) (claimItemSession_forget (store.updateWorkerRows _ _) session row.sessionId)).trans ?_
    cases claimItemSession (store.updateWorkerRows _ _) now session row.sessionId <;> rfl

theorem ackWorkItem_forget (completion : Option WorkItem) :
    ackWorkItem (store.forget forgotten) now token completion =
      (ackWorkItem store now token completion).map (Store.forget · forgotten) := by
  have same : (store.forget forgotten).workerQueue = store.workerQueue := rfl
  unfold ackWorkItem
  rw [same]
  cases store.workerQueue.find? (holdsWork now token) with
  | none => rfl
  | some row =>
    have touched : touchSession ((store.forget forgotten).deleteWorkerRows (holdsWork now token)) now row.sessionId =
        (touchSession (store.deleteWorkerRows (holdsWork now token)) now row.sessionId).forget forgotten :=
      touchSession_forget (store.deleteWorkerRows (holdsWork now token)) row.sessionId
    cases completion with
    | none => exact congrArg Except.ok touched
    | some completion =>
      dsimp only
      split_ifs
      · exact congrArg (fun left : Store => Except.ok (left.insertOrchestratorRow completion now)) touched
      · rfl

theorem renewWorkItemLock_forget (extendMs : Nat) :
    renewWorkItemLock (store.forget forgotten) now token extendMs =
      (renewWorkItemLock store now token extendMs).map (Store.forget · forgotten) := by
  have same : (store.forget forgotten).workerQueue = store.workerQueue := rfl
  unfold renewWorkItemLock
  rw [same]
  cases store.workerQueue.find? (holdsWork now token) with
  | none => rfl
  | some row => exact congrArg Except.ok (touchSession_forget (store.updateWorkerRows _ _) row.sessionId)

theorem abandonWorkItem_forget (delayMs : Option Nat) (ignoreAttempt : Bool) :
    abandonWorkItem (store.forget forgotten) now token delayMs ignoreAttempt =
      (abandonWorkItem store now token delayMs ignoreAttempt).map (Store.forget · forgotten) := by
  have same : (store.forget forgotten).workerQueue = store.workerQueue := rfl
  simp only [abandonWorkItem, same]
  split_ifs <;> rfl

end Calls

end Provider

/-! ## Steps of the system -/

variable {semver : Semver} {world after : World semver} {label : Step semver} {forgotten : String → Nat → Bool}

def World.forget (world : World semver) (forgotten : String → Nat → Bool) : World semver :=
  { world with store := world.store.forget forgotten }

/-- Instances keep their rows and only move on to later executions. -/
theorem Effect.instances_later (effect : Effect world label after) (instanceId : String) (info : InstanceRow)
    (row : world.store.instances instanceId = some info) :
    ∃ info', after.store.instances instanceId = some info' ∧ info.currentExecutionId ≤ info'.currentExecutionId := by
  rcases effect.records with same | ⟨delivery, request, acked, commits⟩
  · exact ⟨info, by rw [same.instances, row], le_refl _⟩
  · obtain ⟨config, now, token, fault, _, holds, committed, _⟩ := commits.holds
    by_cases own : instanceId = acked
    · subst own
      have bumped := currentExecutionId_of_acked committed
      rw [row] at bumped
      obtain ⟨info', row', same⟩ := Option.map_eq_some_iff.mp bumped
      exact ⟨info', row', same ▸ Nat.le_max_left _ _⟩
    · exact ⟨info, by rw [committed.otherInstances instanceId own, row], le_refl _⟩

/-- The current execution of an instance is stored, and none above it. -/
structure Store.Topped (store : Store) : Prop where
  below : ∀ instanceId executionId, ((store.executions instanceId).lookup executionId).isSome →
    executionId ≤ store.currentExecution instanceId
  current : ∀ instanceId info, store.instances instanceId = some info →
    ((store.executions instanceId).lookup info.currentExecutionId).isSome

theorem Store.topped_of_reachable (reached : (system semver).Reachable (fun _ _ => True) world) : world.store.Topped := by
  have everywhere := reachable_unconditionally reached
  clear reached
  induction everywhere with
  | initial start =>
    rw [start]
    exact ⟨fun _ _ stored => (nomatch stored), fun _ _ row => nomatch row⟩
  | @step world after label reached _ taken ih =>
    have effect := World.step_effect taken
    rcases effect.records with same | ⟨delivery, request, acked, commits⟩
    · constructor
      · intro instanceId executionId stored
        rw [same.executions] at stored
        rw [Store.currentExecution, same.instances]
        exact ih.below instanceId executionId stored
      · rw [same.instances, same.executions]
        exact ih.current
    · have placed := (Lifecycle.of_reachable reached).placed (.of_reachable reached) (.of_reachable reached)
        (.of_reachable reached) commits
      obtain ⟨config, now, token, fault, _, holds, committed, _⟩ := commits.holds
      have opened := placed.currentExecution committed
      constructor
      · intro instanceId executionId stored
        by_cases own : instanceId = acked
        · subst own
          rw [opened]
          by_cases executed : executionId = request.executionId
          · exact executed.le
          · rw [committed.otherExecutions executionId executed] at stored
            have below := ih.below instanceId executionId stored
            rcases placed.previous with same | next <;> omega
        · rw [committed.foreignExecutions instanceId own] at stored
          rw [Store.currentExecution, committed.otherInstances instanceId own]
          exact ih.below instanceId executionId stored
      · intro instanceId info row
        by_cases own : instanceId = acked
        · subst own
          rw [← currentExecution_of_row row, opened, committed.executionRow]
          rfl
        · rw [committed.otherInstances instanceId own] at row
          rw [committed.foreignExecutions instanceId own]
          exact ih.current instanceId info row

/-- What the holder of a lock asks for is not about a forgotten execution. -/
theorem sparesRequest_of_reachable (reached : (system semver).Reachable (fun _ _ => True) world)
    (spares : world.store.Spares forgotten) {token : Nat} {delivery : Delivery semver} {request : AckRequest semver}
    {fallback : Option (ProviderError → AckRequest semver)} {failed : Option ProviderError}
    (holds : world.deliveries token = some delivery) (phase : delivery.phase = .acking request fallback failed) :
    Provider.SparesRequest forgotten token request world.store where
  spares := spares
  kept instanceId locked := by
    have everywhere := reachable_unconditionally reached
    have placed := (Lifecycle.of_reachable reached).placed_of_locked (.of_reachable reached) (.of_reachable reached)
      (.of_reachable everywhere) locked holds phase
    cases placed with
    | current info row same => exact spares.reached row same.ge
    | next info row next => exact spares.reached row (next ▸ Nat.le_succ _)
    | first noRow same => exact spares.unknown noRow _

namespace World

theorem fetch_forget (spares : world.store.Spares forgotten) (config : ProviderConfig)
    (filter : Option (List (SemverRange semver))) (now lockTimeoutMs token : Nat) (fault : Fault) :
    (world.forget forgotten).fetch config filter now lockTimeoutMs token fault =
      (world.fetch config filter now lockTimeoutMs token fault).map (·.forget forgotten) := by
  have fresh : (world.forget forgotten).isFresh token = world.isFresh token := rfl
  obtain ⟨result, committed⟩ :=
    (Provider.blind_fetchOrchestrationItem config filter now lockTimeoutMs token).open spares fault
  have stored : (world.forget forgotten).store = world.store.forget forgotten := rfl
  unfold World.fetch
  rw [fresh, stored]
  split_ifs
  · rcases ran : Provider.fetchOrchestrationItem config filter now lockTimeoutMs token (Conn.open world.store fault)
      with ⟨answer, conn⟩
    rcases mirrored : Provider.fetchOrchestrationItem config filter now lockTimeoutMs token
      (Conn.open (world.store.forget forgotten) fault) with ⟨same, left⟩
    rw [ran, mirrored] at result committed
    obtain rfl : same = answer := result
    replace committed : left.committed = conn.committed.forget forgotten := committed
    dsimp only
    rw [committed]
    rcases same with error | _ | ⟨item, lockToken, attemptCount⟩ <;> rfl
  · rfl

theorem ack_forget (reached : (system semver).Reachable (fun _ _ => True) world) (spares : world.store.Spares forgotten)
    (config : ProviderConfig) (now token : Nat) (fault : Fault) :
    (world.forget forgotten).ack config now token fault = (world.ack config now token fault).map (·.forget forgotten) := by
  have deliveries : (world.forget forgotten).deliveries = world.deliveries := rfl
  have stored : (world.forget forgotten).store = world.store.forget forgotten := rfl
  unfold World.ack
  rw [deliveries, stored]
  rcases holds : world.deliveries token with _ | delivery
  · rfl
  · simp only [Option.bind_eq_bind, Option.bind_some]
    rcases phase : delivery.phase with _ | ⟨request, fallback, failed⟩ | _ | _
    · rfl
    · obtain ⟨result, committed⟩ := (Provider.blind_ackOrchestrationItem config now token request).open
        (sparesRequest_of_reachable reached spares holds phase) fault
      dsimp only
      rw [result, committed]
      cases (Provider.ackOrchestrationItem config now token request (Conn.open world.store fault)).1 <;> rfl
    · rfl
    · rfl

end World

/-- A step does the same on a database that has forgotten executions before the current ones. -/
theorem step_forget (reached : (system semver).Reachable (fun _ _ => True) world) (spares : world.store.Spares forgotten)
    (label : Step semver) : (world.forget forgotten).step label = (world.step label).map (·.forget forgotten) := by
  have deliveries : (world.forget forgotten).deliveries = world.deliveries := rfl
  have work : (world.forget forgotten).work = world.work := rfl
  have stored : (world.forget forgotten).store = world.store.forget forgotten := rfl
  cases label with
  | client now item =>
    simp only [World.step, World.client, Provider.enqueueForOrchestrator]
    split_ifs <;> rfl
  | fetch config filter now lockTimeoutMs token fault => exact World.fetch_forget spares _ _ _ _ _ _
  | decide token env =>
    simp only [World.step, World.decide, deliveries]
    rcases world.deliveries token with _ | ⟨item, attemptCount, phase⟩
    · rfl
    · cases phase <;> rfl
  | ack config now token fault => exact World.ack_forget reached spares config now token fault
  | failTurn token =>
    simp only [World.step, World.failTurn, deliveries]
    rcases world.deliveries token with _ | ⟨item, attemptCount, phase⟩
    · rfl
    · rcases phase with _ | ⟨request, _ | fallback, _ | failed⟩ | _ | _ <;> rfl
  | abandon now token =>
    simp only [World.step, World.abandon, deliveries]
    rcases world.deliveries token with _ | ⟨item, attemptCount, phase⟩
    · rfl
    · rcases phase with _ | _ | ⟨delayMs, ignoreAttempt⟩ | _
      · rfl
      · rfl
      · simp only [Option.bind_eq_bind, Option.bind_some, stored, Provider.abandonOrchestrationItem_forget]
        cases Provider.abandonOrchestrationItem world.store now token delayMs ignoreAttempt <;> rfl
      · rfl
  | renew now token extendMs =>
    simp only [World.step, World.renew, deliveries, stored, Provider.renewOrchestrationItemLock_forget]
    split_ifs
    · cases Provider.renewOrchestrationItemLock world.store now token extendMs <;> rfl
    · rfl
  | fetchWork now lockTimeoutMs token session filter =>
    have fresh : (world.forget forgotten).isFresh token = world.isFresh token := rfl
    simp only [World.step, World.fetchWork, fresh, stored, Provider.fetchWorkItem_forget]
    split_ifs
    · cases Provider.fetchWorkItem world.store now lockTimeoutMs token session filter <;> rfl
    · rfl
  | renewWork now token extendMs error =>
    simp only [World.step, World.renewWork, work, stored, Provider.renewWorkItemLock_forget]
    cases world.work token with
    | none => rfl
    | some held => cases error <;> cases Provider.renewWorkItemLock world.store now token extendMs <;> rfl
  | completeWork now token maxAttempts outcome =>
    simp only [World.step, World.completeWork, work, stored, Provider.ackWorkItem_forget]
    cases world.work token with
    | none => rfl
    | some held =>
      simp only [Option.bind_eq_bind, Option.bind_some]
      cases activityCompletion maxAttempts (fun _ => "") held outcome with
      | none => rfl
      | some completion =>
        simp only [Option.bind_some]
        cases Provider.ackWorkItem world.store now token (some completion) <;> rfl
  | dropWork now token =>
    simp only [World.step, World.dropWork, work, stored, Provider.ackWorkItem_forget]
    cases world.work token with
    | none => rfl
    | some held =>
      simp only [Option.bind_eq_bind, Option.bind_some]
      split_ifs
      · cases Provider.ackWorkItem world.store now token none <;> rfl
      · rfl
  | abandonWork now token delayMs ignoreAttempt =>
    simp only [World.step, World.abandonWork, work, stored, Provider.abandonWorkItem_forget]
    cases world.work token with
    | none => rfl
    | some held =>
      simp only [Option.bind_eq_bind, Option.bind_some]
      cases Provider.abandonWorkItem world.store now token delayMs ignoreAttempt <;> rfl

/-! ## Runs with prune calls -/

/-- The executions that a call is about to delete come before the current one; what it read of the instance is no
later than the current execution. -/
def PrunePhase.IsPast (store : Store) : PrunePhase → Prop
  | .called .. | .returned .. => True
  | .current instanceId _ currentExecutionId =>
      ∃ info, store.instances instanceId = some info ∧ currentExecutionId ≤ info.currentExecutionId
  | .selected instanceId executionIds => executionIds.Nodup ∧ ∀ executionId ∈ executionIds,
      ∃ info, store.instances instanceId = some info ∧ executionId < info.currentExecutionId

theorem PrunePhase.IsPast.mono {before after : Store} {phase : PrunePhase} (past : phase.IsPast before)
    (later : ∀ instanceId info, before.instances instanceId = some info →
      ∃ info', after.instances instanceId = some info' ∧ info.currentExecutionId ≤ info'.currentExecutionId) :
    phase.IsPast after := by
  cases phase with
  | called | returned => trivial
  | current instanceId options currentExecutionId =>
    obtain ⟨info, row, reached⟩ := past
    obtain ⟨info', row', grown⟩ := later instanceId info row
    exact ⟨info', row', reached.trans grown⟩
  | selected instanceId executionIds =>
    refine ⟨past.1, fun executionId listed => ?_⟩
    obtain ⟨info, row, before⟩ := past.2 executionId listed
    obtain ⟨info', row', grown⟩ := later instanceId info row
    exact ⟨info', row', before.trans_le grown⟩

/-- A state with prune calls beside the state of the system without them. -/
structure PrunedFrom (state : PruningWorld semver) (world : World semver) (forgotten : String → Nat → Bool) : Prop where
  reached : (system semver).Reachable (fun _ _ => True) world
  spares : world.store.Spares forgotten
  forgets : state.world = world.forget forgotten
  calls : ∀ id phase, state.calls id = some phase → phase.IsPast world.store

namespace PrunedFrom

variable {state next : PruningWorld semver}

theorem initial : PrunedFrom ({} : PruningWorld semver) {} fun _ _ => false where
  reached := .initial rfl
  spares _ _ lost := nomatch lost
  forgets := by rw [World.forget, Store.forget_nothing]
  calls _ _ held := nomatch held

theorem setCall (pruned : PrunedFrom state world forgotten) (id : Nat) {phase : PrunePhase} (past : phase.IsPast world.store) :
    PrunedFrom (state.setCall id phase) world forgotten where
  reached := pruned.reached
  spares := pruned.spares
  forgets := pruned.forgets
  calls other found held := by
    by_cases same : other = id
    · subst same
      simp only [PruningWorld.setCall, Function.update_self] at held
      obtain rfl := Option.some.inj held
      exact past
    · simp only [PruningWorld.setCall, Function.update_of_ne same] at held
      exact pruned.calls other found held

theorem step_world (pruned : PrunedFrom state world forgotten) {label : Step semver}
    (taken : state.step (.world label) = some next) :
    ∃ after, world.step label = some after ∧ PrunedFrom next after forgotten := by
  obtain ⟨left, stepped, rfl⟩ := Option.map_eq_some_iff.mp taken
  rw [pruned.forgets, step_forget pruned.reached pruned.spares] at stepped
  obtain ⟨after, ran, rfl⟩ := Option.map_eq_some_iff.mp stepped
  have later := (World.step_effect ran).instances_later
  exact ⟨after, ran, .step pruned.reached trivial ran, pruned.spares.mono later, rfl,
    fun id phase held => (pruned.calls id phase held).mono later⟩

/-- What a call reads to delete, while the instance stays with the execution that the call read before. -/
theorem past_of_select (pruned : PrunedFrom state world forgotten) {id : Nat} {instanceId : String} {options : PruneOptions}
    {currentExecutionId : Nat} (held : state.calls id = some (.current instanceId options currentExecutionId))
    (together : (state.world.store.instances instanceId).all (·.currentExecutionId == currentExecutionId))
    (completedAt : CompletedAt) :
    (PrunePhase.selected instanceId (ProviderAdmin.executionsToPrune state.world.store completedAt instanceId
      currentExecutionId options)).IsPast world.store := by
  have same : state.world.store.instances = world.store.instances := by rw [pruned.forgets]; rfl
  obtain ⟨info, row, _⟩ := pruned.calls id _ held
  rw [same, row, Option.all_some, beq_iff_eq] at together
  refine ⟨ProviderAdmin.executionsToPrune_nodup currentExecutionId, fun executionId listed => ⟨info, row, ?_⟩⟩
  have prunes := ProviderAdmin.mem_executionsToPrune.mp listed
  obtain ⟨execution, found, _⟩ := prunes.ended
  have stored : ((world.store.executions instanceId).lookup executionId).isSome := by
    rw [pruned.forgets, World.forget, Store.lookup_forget] at found
    split_ifs at found
    rw [found]
    rfl
  have topped := (Store.topped_of_reachable pruned.reached).below instanceId executionId stored
  rw [currentExecution_of_row row] at topped
  exact lt_of_le_of_ne topped (together ▸ prunes.past)

/-- Deleting executions forgets more of them. -/
theorem delete (pruned : PrunedFrom state world forgotten) {id : Nat} {instanceId : String} {executionIds : List Nat}
    (held : state.calls id = some (.selected instanceId executionIds)) :
    PrunedFrom { state with
        world := { state.world with store := (ProviderAdmin.deleteExecutions state.world.store instanceId executionIds).2 } }
      world fun other executionId =>
        forgotten other executionId || (other == instanceId && decide (executionId ∈ executionIds)) where
  reached := pruned.reached
  spares other executionId lost := by
    rcases Bool.or_eq_true _ _ ▸ lost with earlier | deleted
    · exact pruned.spares other executionId earlier
    · obtain ⟨same, listed⟩ := Bool.and_eq_true _ _ ▸ deleted
      rw [beq_iff_eq] at same
      subst same
      exact (pruned.calls id _ held).2 executionId (of_decide_eq_true listed)
  forgets := by
    rw [ProviderAdmin.deleteExecutions_eq _ (pruned.calls id _ held).1, pruned.forgets]
    exact congrArg (fun store => { world with store }) (Store.forget_forget _ _ _)
  calls := pruned.calls

theorem step (pruned : PrunedFrom state world forgotten) {label : PruningStep semver} (together : state.readsTogether label)
    (taken : state.step label = some next) :
    ∃ after forgotten', world.run label.label?.toList = some after ∧ PrunedFrom next after forgotten' := by
  cases label with
  | world label =>
    obtain ⟨after, ran, kept⟩ := pruned.step_world taken
    exact ⟨after, forgotten, by simp only [PruningStep.label?, Option.toList, World.run, ran, Option.bind_some], kept⟩
  | call id instanceId options =>
    simp only [PruningWorld.step] at taken
    split_ifs at taken
    cases taken
    exact ⟨world, forgotten, rfl, pruned.setCall id trivial⟩
  | readCurrent id =>
    simp only [PruningWorld.step] at taken
    split at taken
    · rename_i instanceId options held
      have same : state.world.store.instances = world.store.instances := by rw [pruned.forgets]; rfl
      split at taken
      · cases taken
        exact ⟨world, forgotten, rfl, pruned.setCall id trivial⟩
      · rename_i currentExecutionId read
        cases taken
        refine ⟨world, forgotten, rfl, pruned.setCall id ?_⟩
        rw [ProviderAdmin.readCurrentExecution, same] at read
        split at read
        · rename_i info row
          cases read
          exact ⟨info, row, le_refl _⟩
        · cases read
    · cases taken
  | select id completedAt =>
    simp only [PruningWorld.step] at taken
    split at taken
    · rename_i instanceId options currentExecutionId held
      cases taken
      simp only [PruningWorld.readsTogether, held] at together
      exact ⟨world, forgotten, rfl, pruned.setCall id (pruned.past_of_select held together completedAt)⟩
    · cases taken
  | delete id =>
    simp only [PruningWorld.step] at taken
    split at taken
    · rename_i instanceId executionIds held
      cases taken
      exact ⟨world, _, rfl, (pruned.delete held).setCall id trivial⟩
    · cases taken

theorem run (pruned : PrunedFrom state world forgotten) {labels : List (PruningStep semver)} {last : PruningWorld semver}
    (ran : Lib.TransitionSystem.runTested PruningWorld.step PruningWorld.readsTogether state labels = some last) :
    ∃ after forgotten', world.run (labels.filterMap (·.label?)) = some after ∧ PrunedFrom last after forgotten' := by
  induction labels generalizing state world forgotten with
  | nil =>
    cases ran
    exact ⟨world, forgotten, rfl, pruned⟩
  | cons label rest ih =>
    rw [Lib.TransitionSystem.runTested] at ran
    split_ifs at ran with together
    obtain ⟨middle, taken, later⟩ := Option.bind_eq_some_iff.mp ran
    obtain ⟨between, forgotten', first, pruned⟩ := pruned.step together taken
    obtain ⟨after, forgotten', others, pruned⟩ := ih pruned later
    refine ⟨after, forgotten', ?_, pruned⟩
    cases erased : label.label? with
    | none =>
      rw [erased] at first
      cases first
      rwa [List.filterMap_cons_none erased]
    | some kept =>
      rw [erased] at first
      obtain ⟨target, stepped, same⟩ := Option.bind_eq_some_iff.mp first
      cases same
      rw [List.filterMap_cons_some erased, World.run, stepped]
      exact others

theorem of_run {labels : List (PruningStep semver)} {last : PruningWorld semver}
    (ran : Lib.TransitionSystem.runTested PruningWorld.step PruningWorld.readsTogether {} labels = some last) :
    ∃ world forgotten, PrunedFrom last world forgotten := by
  obtain ⟨world, forgotten, _, pruned⟩ := initial.run ran
  exact ⟨world, forgotten, pruned⟩

end PrunedFrom

/-- Whatever prune calls run beside the system, leaving them out gives a run of the system in which everything that was
fetched, decided and held is the same, and the tables differ in executions before the current ones only. The next call
of any kind returns the same in both. -/
theorem pruning_unseen {labels : List (PruningStep semver)} {last : PruningWorld semver}
    (ran : Lib.TransitionSystem.runTested PruningWorld.step PruningWorld.readsTogether {} labels = some last) :
    ∃ world forgotten, World.run {} (labels.filterMap (·.label?)) = some world ∧ world.store.Spares forgotten ∧
      last.world = world.forget forgotten ∧
      ∀ label, last.world.step label = (world.step label).map (·.forget forgotten) := by
  obtain ⟨world, forgotten, whole, pruned⟩ := PrunedFrom.initial.run ran
  refine ⟨world, forgotten, whole, pruned.spares, pruned.forgets, fun label => ?_⟩
  rw [pruned.forgets]
  exact step_forget pruned.reached pruned.spares label

/-- An instance continues as new, and its first execution is pruned. -/
def prunedRun : List (PruningStep textSemver) :=
  (OutcomeViews.viewedTurn "continue").map .world ++
    [.world (.fetch {} none 0 1000 2 none), .world (.decide 2 OutcomeViews.viewedEnv), .world (.ack {} 0 2 none),
      .call 0 "i" {}, .readCurrent 0, .select 0 fun _ _ => none, .delete 0]

theorem pruning_unseen_continued : ∃ last,
    Lib.TransitionSystem.runTested PruningWorld.step PruningWorld.readsTogether {} prunedRun = some last ∧
      (last.world.store.executions "i").keys = [2] ∧
      ∃ world forgotten, World.run {} (prunedRun.filterMap (·.label?)) = some world ∧ world.store.Spares forgotten ∧
        last.world = world.forget forgotten ∧
        ∀ label, last.world.step label = (world.step label).map (·.forget forgotten) := by
  have ran : (Lib.TransitionSystem.runTested PruningWorld.step PruningWorld.readsTogether {} prunedRun).any (fun last =>
      (last.world.store.executions "i").keys == [2]) = true := by
    decide +kernel
  obtain ⟨last, reached, kept⟩ := (Option.any_eq_true _ _).mp ran
  exact ⟨last, reached, beq_iff_eq.mp kept, pruning_unseen reached⟩

/-- The instance continues as new and ends between the two reads of a call. -/
def readsApart : List (PruningStep textSemver) :=
  (OutcomeViews.viewedTurn "continue").map .world ++
    [.call 0 "i" {}, .readCurrent 0, .world (.fetch {} none 0 1000 2 none), .world (.decide 2 OutcomeViews.viewedEnv),
      .world (.ack {} 0 2 none), .select 0 fun _ _ => none, .delete 0]

/-- Without that condition a call may delete the current execution. -/
theorem readsApart_prunes_current : ∃ last,
    Lib.TransitionSystem.runTested PruningWorld.step (fun _ _ => true) {} readsApart = some last ∧
      last.world.store.currentExecution "i" = 2 ∧ (last.world.store.executions "i").keys = [1] := by
  have ran : (Lib.TransitionSystem.runTested PruningWorld.step (fun _ _ => true) {} readsApart).any (fun last =>
      last.world.store.currentExecution "i" == 2 && (last.world.store.executions "i").keys == [1]) = true := by
    decide +kernel
  obtain ⟨last, reached, facts⟩ := (Option.any_eq_true _ _).mp ran
  simp only [Bool.and_eq_true, beq_iff_eq] at facts
  exact ⟨last, reached, facts⟩

/-! ## Keeping no, one or any execution -/

theorem Store.Topped.forget {store : Store} (topped : store.Topped) (spares : store.Spares forgotten) :
    (store.forget forgotten).Topped where
  below instanceId executionId stored := by
    rw [Store.lookup_forget] at stored
    split_ifs at stored
    · cases stored
    · exact topped.below instanceId executionId stored
  current instanceId info row := by
    rw [Store.lookup_forget_of_kept (spares.current row)]
    exact topped.current instanceId info row

namespace ProviderAdmin

variable {store : Store} {completedAt : CompletedAt} {instanceId : String} {completedBefore : Option Nat} {keepLast : Nat}

/-- Keeping the last execution keeps the current one, which is kept anyway. -/
theorem prunes_keepLast (topped : store.Topped) {info : InstanceRow} (row : store.instances instanceId = some info)
    (few : keepLast ≤ 1) (executionId : Nat) :
    Prunes store completedAt instanceId info.currentExecutionId ⟨some keepLast, completedBefore⟩ executionId ↔
      Prunes store completedAt instanceId info.currentExecutionId ⟨none, completedBefore⟩ executionId := by
  constructor
  · rintro ⟨ended, past, _, before⟩
    exact ⟨ended, past, nofun, before⟩
  · rintro ⟨ended, past, _, before⟩
    refine ⟨ended, past, ?_, before⟩
    rintro kept same
    obtain rfl := Option.some.inj same
    refine few.trans (List.length_pos_of_mem (a := info.currentExecutionId) (List.mem_filter.mpr ⟨?_, decide_eq_true ?_⟩))
    · rw [← AList.mem_keys, ← AList.lookup_isSome]
      exact topped.current instanceId info row
    · obtain ⟨execution, found, _⟩ := ended
      have below := topped.below instanceId executionId (found ▸ rfl)
      rw [currentExecution_of_row row] at below
      exact lt_of_le_of_ne below past

theorem pruneExecutions_keepLast (topped : store.Topped) (few : keepLast ≤ 1) :
    pruneExecutions store completedAt instanceId ⟨some keepLast, completedBefore⟩ =
      pruneExecutions store completedAt instanceId ⟨none, completedBefore⟩ := by
  unfold pruneExecutions
  cases read : readCurrentExecution store instanceId with
  | error error => rfl
  | ok currentExecutionId =>
    obtain ⟨info, row, rfl⟩ : ∃ info, store.instances instanceId = some info ∧ info.currentExecutionId = currentExecutionId := by
      unfold readCurrentExecution at read
      split at read
      · rename_i info row
        exact ⟨info, row, Except.ok.inj read⟩
      · cases read
    have same : executionsToPrune store completedAt instanceId info.currentExecutionId ⟨some keepLast, completedBefore⟩ =
        executionsToPrune store completedAt instanceId info.currentExecutionId ⟨none, completedBefore⟩ := by
      refine congrArg (List.map Sigma.fst) (List.filter_congr fun entry member => Bool.eq_iff_iff.mpr ?_)
      have found := Lib.KeyedTable.mem_entries_iff.mp member
      rw [isPruned_iff found, isPruned_iff found]
      exact prunes_keepLast topped row few entry.1
    simp only [same]

/-- In every run `keep_last` may as well be missing, zero or one. -/
theorem pruneExecutions_keepLast_of_run {labels : List (PruningStep semver)} {last : PruningWorld semver}
    (ran : Lib.TransitionSystem.runTested PruningWorld.step PruningWorld.readsTogether {} labels = some last)
    (completedAt : CompletedAt) (instanceId : String) (completedBefore : Option Nat) {keepLast : Nat} (few : keepLast ≤ 1) :
    pruneExecutions last.world.store completedAt instanceId ⟨some keepLast, completedBefore⟩ =
      pruneExecutions last.world.store completedAt instanceId ⟨none, completedBefore⟩ := by
  obtain ⟨world, forgotten, pruned⟩ := PrunedFrom.of_run ran
  rw [pruned.forgets]
  exact pruneExecutions_keepLast ((Store.topped_of_reachable pruned.reached).forget pruned.spares) few

theorem pruneExecutions_keepLast_of_run_continued : ∃ last,
    Lib.TransitionSystem.runTested PruningWorld.step PruningWorld.readsTogether {} (prunedRun.take 7) = some last ∧
      (last.world.store.executions "i").keys.length = 2 ∧
      pruneExecutions last.world.store (fun _ _ => none) "i" ⟨some 1, none⟩ =
        pruneExecutions last.world.store (fun _ _ => none) "i" ⟨none, none⟩ := by
  have ran : (Lib.TransitionSystem.runTested PruningWorld.step PruningWorld.readsTogether {} (prunedRun.take 7)).any
      (fun last => (last.world.store.executions "i").keys.length == 2) = true := by
    decide +kernel
  obtain ⟨last, reached, both⟩ := (Option.any_eq_true _ _).mp ran
  exact ⟨last, reached, beq_iff_eq.mp both,
    pruneExecutions_keepLast_of_run reached (fun _ _ => none) "i" none (Nat.le_refl 1)⟩

end ProviderAdmin

end Duroxide
