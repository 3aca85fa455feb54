import Duroxide.Lib.Integrity
import Duroxide.Proofs.Deletion
import Duroxide.Proofs.Provenance

/-! # What a cascading delete leaves behind

Deleting a root deletes every row of its tree, and the parent column keeps what was deleted from coming
back: an acknowledgement is refused when it would create an instance whose parent has no row. The tree is
read off the instances table alone, so the start of a child that was scheduled but has not run yet stays
in the queue, under its own instance, and goes on naming its parent.
-/

namespace Duroxide

open Lib.Database Provider

variable {semver : Semver}

/-! ## Parents that have rows -/

/-- Every instance with a parent among some instances has one that has a row. -/
def ParentsPresent (among : String → Prop) (store : Store) : Prop :=
  ∀ child parent, store.parentId child = some parent → among parent → (store.instances parent).isSome

namespace ParentsPresent

variable {among : String → Prop} {before after : Store} {instanceId : String}

theorem congr (present : ParentsPresent among before) (same : after.instances = before.instances) :
    ParentsPresent among after := by
  intro child parent linked member
  simp only [Store.parentId, same] at linked ⊢
  exact present child parent linked member

/-- A new row is only inserted when its parent has one. -/
theorem insertInstance {row : InstanceRow} (present : ParentsPresent among before)
    (inserted : before.insertInstance instanceId row = .ok after) : ParentsPresent among after := by
  unfold Store.insertInstance at inserted
  dsimp only at inserted
  split_ifs at inserted with occupied orphaned
  · cases inserted
    exact present
  · cases inserted
    have kept : ∀ {other : String}, (before.instances other).isSome →
        (Function.update before.instances instanceId (some row) other).isSome := by
      intro other isSome
      by_cases same : other = instanceId
      · rw [same, Function.update_self]
        rfl
      · rwa [Function.update_of_ne same]
    intro child parent linked member
    by_cases same : child = instanceId
    · subst same
      simp only [Store.parentId, Function.update_self, Option.bind_some] at linked
      simp only [linked, Option.any_some, Option.isNone_iff_eq_none] at orphaned
      exact Option.isSome_iff_ne_none.mpr orphaned
    · simp only [Store.parentId, Function.update_of_ne same] at linked
      exact kept (present child parent linked member)

theorem updateInstance {change : InstanceRow → InstanceRow} (present : ParentsPresent among before)
    (keeps : ∀ row, (change row).parentInstanceId = row.parentInstanceId) :
    ParentsPresent among (before.updateInstance instanceId change) := by
  have isSome : ∀ other, ((before.updateInstance instanceId change).instances other).isSome =
      (before.instances other).isSome := by
    intro other
    by_cases same : other = instanceId
    · subst same
      simp [Store.updateInstance]
    · simp [Store.updateInstance, same]
  have sameParent : ∀ other, (before.updateInstance instanceId change).parentId other = before.parentId other := by
    intro other
    by_cases same : other = instanceId
    · subst same
      rcases found : before.instances other with _ | row
      · simp [Store.parentId, Store.updateInstance, found]
      · simp [Store.parentId, Store.updateInstance, found, keeps]
    · simp [Store.parentId, Store.updateInstance, same]
  intro child parent linked member
  rw [isSome]
  exact present child parent (sameParent child ▸ linked) member

end ParentsPresent

/-! ## The statements of an acknowledgement -/

section Acknowledging

variable {among : String → Prop} {config : ProviderConfig} {instanceId : String} {request : AckRequest semver}

/-- A statement on other tables. -/
theorem upholds_elsewhere {map : SqlxError → ProviderError} {label : Statement} {change : Store → Store}
    (same : ∀ store, (change store).instances = store.instances) :
    Db.Upholds (ParentsPresent among) (Db.update map label change : Op Unit) :=
  Db.upholds_update fun store present => present.congr (same store)

theorem extendAckLock_upholds (now token : Nat) :
    Db.Upholds (ParentsPresent among) (extendAckLock config now token) := by
  unfold extendAckLock
  split
  · exact Db.upholds_pure ()
  · apply Db.upholds_bind
    · apply Db.upholds_statement
      intro store value changed present ran
      cases ran
      exact present.congr rfl
    · intro extended
      split_ifs
      · exact Db.upholds_pure ()
      · exact Db.upholds_bind (Db.upholds_ignore Db.upholds_rollback) fun _ => Db.upholds_fail _

theorem recordInstance_upholds (identity : String × String) :
    Db.Upholds (ParentsPresent among) (recordInstance config instanceId request identity) := by
  apply Db.upholds_bind
  · apply Db.upholds_statement
    intro store value changed present ran
    generalize inserted : store.insertInstance instanceId _ = result at ran
    cases result with
    | error error => cases ran
    | ok after =>
      cases ran
      exact present.insertInstance inserted
  · intro _
    exact Db.upholds_update fun store present => present.updateInstance fun _ => rfl

theorem recordMetadata_upholds : Db.Upholds (ParentsPresent among) (recordMetadata config instanceId request) := by
  unfold recordMetadata
  refine Db.upholds_bind (Db.upholds_ifSome fun identity _ => recordInstance_upholds identity) fun _ => ?_
  refine Db.upholds_bind (upholds_elsewhere fun _ => rfl) fun _ => ?_
  refine Db.upholds_bind (Db.upholds_ifSome fun pinned _ => upholds_elsewhere fun _ => rfl) fun _ => ?_
  exact Db.upholds_update fun store present => present.updateInstance fun _ => rfl

theorem appendHistory_upholds (executionId : Nat) (events : List Event) :
    Db.Upholds (ParentsPresent among) (appendHistory instanceId executionId events) := by
  unfold appendHistory
  split_ifs
  · exact Db.upholds_fail _
  · apply Db.upholds_forEach
    intro event
    apply Db.upholds_statement
    intro store value changed present ran
    unfold Store.insertHistory at ran
    split at ran
    · cases ran
      exact present.congr rfl
    · cases ran

theorem recordStatus_upholds : Db.Upholds (ParentsPresent among) (recordStatus config instanceId request) := by
  apply Db.upholds_bind
  · exact Db.upholds_ifSome fun status _ => upholds_elsewhere fun _ => rfl
  · intro _
    apply Db.upholds_ifSome
    intro customStatus _
    exact Db.upholds_update fun store present => present.updateInstance fun _ => rfl

theorem recordKv_upholds (now : Nat) : Db.Upholds (ParentsPresent among) (recordKv config now instanceId request) := by
  apply Db.upholds_bind
  · apply Db.upholds_forEach
    intro event
    unfold recordKvEvent
    split
    · exact upholds_elsewhere fun _ => rfl
    · exact upholds_elsewhere fun _ => rfl
    · exact Db.upholds_bind (upholds_elsewhere fun _ => rfl) fun _ => upholds_elsewhere fun _ => rfl
    · exact Db.upholds_pure ()
  · intro _
    split_ifs
    · refine Db.upholds_bind (upholds_elsewhere fun _ => rfl) fun _ => ?_
      exact Db.upholds_bind (upholds_elsewhere fun _ => rfl) fun _ => upholds_elsewhere fun _ => rfl
    · exact Db.upholds_pure ()

theorem enqueueItems_upholds (now : Nat) : Db.Upholds (ParentsPresent among) (enqueueItems config now request) := by
  apply Db.upholds_bind
  · apply Db.upholds_forEach
    exact fun item => upholds_elsewhere fun _ => rfl
  · intro _
    apply Db.upholds_bind
    · unfold deleteCancelled
      split_ifs
      · exact Db.upholds_pure ()
      · exact upholds_elsewhere fun _ => rfl
    · intro _
      apply Db.upholds_forEach
      exact fun item => upholds_elsewhere fun _ => rfl

theorem releaseAndCommit_upholds (now token : Nat) :
    Db.Upholds (ParentsPresent among) (releaseAndCommit config now token instanceId) := by
  refine Db.upholds_bind (Db.upholds_query _) fun valid => ?_
  split_ifs
  · exact Db.upholds_bind (upholds_elsewhere fun _ => rfl) fun _ => Db.upholds_commit
  · exact Db.upholds_bind (Db.upholds_ignore Db.upholds_rollback) fun _ => Db.upholds_fail _

/-- No acknowledgement creates an instance whose parent has no row. -/
theorem ackOrchestrationItem_upholds (now token : Nat) :
    Db.Upholds (ParentsPresent among) (ackOrchestrationItem config now token request) := by
  refine Db.upholds_bind Db.upholds_begin fun _ => Db.upholds_bind (Db.upholds_query _) fun locked => ?_
  cases locked with
  | none => exact Db.upholds_fail _
  | some instanceId =>
    refine Db.upholds_bind (extendAckLock_upholds now token) fun _ => ?_
    refine Db.upholds_bind (upholds_elsewhere fun _ => rfl) fun _ => ?_
    refine Db.upholds_bind recordMetadata_upholds fun _ => ?_
    refine Db.upholds_bind (appendHistory_upholds request.executionId request.historyDelta) fun _ => ?_
    refine Db.upholds_bind recordStatus_upholds fun _ => Db.upholds_bind (recordKv_upholds now) fun _ => ?_
    exact Db.upholds_bind (enqueueItems_upholds now) fun _ => releaseAndCommit_upholds now token

end Acknowledging

/-! ## Later states -/

/-- Some steps of the system lead from one state to another. -/
def World.Leads : World semver → World semver → Prop :=
  Relation.ReflTransGen fun world after => ∃ label, world.step label = some after

namespace ParentsPresent

variable {among : String → Prop} {world after : World semver} {label : Step semver}

theorem step (present : ParentsPresent among world.store) (taken : world.step label = some after) :
    ParentsPresent among after.store := by
  have effect := World.step_effect taken
  rcases effect.records with same | ⟨delivery, request, instanceId, commits⟩
  · exact present.congr same.instances
  · obtain ⟨config, now, token, fault, rfl, _⟩ := commits.holds
    obtain ⟨held, _, answered⟩ := Option.bind_eq_some_iff.mp taken
    split at answered
    · rename_i acked fallback failed _
      have upholds : Db.Upholds (ParentsPresent among) (ackOrchestrationItem config now token acked) :=
        ackOrchestrationItem_upholds now token
      have upheld := upholds.committed present fault
      dsimp only at answered
      split at answered <;> cases answered <;> exact upheld
    · cases answered

theorem leads (present : ParentsPresent among world.store) (later : world.Leads after) :
    ParentsPresent among after.store := by
  induction later with
  | refl => exact present
  | tail _ taken ih =>
    obtain ⟨label, taken⟩ := taken
    exact ih.step taken

end ParentsPresent

/-! ## What refers to an instance -/

/-- Whether a message starts an instance as the child of another one. -/
def OrchestratorRow.startsChildOf (parent : String) (row : OrchestratorRow) : Bool :=
  row.decoded.any fun
    | .startOrchestration _ _ _ _ parentInstance _ _ => parentInstance == some parent
    | _ => false

/-- The rows that refer to an instance, by table. -/
inductive Store.Refers (store : Store) (instanceId : String) : Prop
  | instances (row : InstanceRow) (found : store.instances instanceId = some row)
  | parent (child : String) (linked : store.parentId child = some instanceId)
  | executions (executionId : Nat) (found : ((store.executions instanceId).lookup executionId).isSome)
  | history (executionId : Nat) (row : HistoryRow) (recorded : row ∈ (store.history instanceId executionId).rows)
  | orchestratorQueue (row : OrchestratorRow) (queued : row ∈ store.orchestratorQueue) (addressed : row.instanceId = instanceId)
  | queuedChild (row : OrchestratorRow) (queued : row ∈ store.orchestratorQueue) (names : row.startsChildOf instanceId)
  | workerQueue (row : WorkerRow) (queued : row ∈ store.workerQueue) (identity : row.identity.any (·.instanceId = instanceId))
  | instanceLocks (found : (store.instanceLocks.lookup instanceId).isSome)
  | kvStore (key : String) (found : ((store.kvStore instanceId).lookup key).isSome)
  | kvDelta (key : String) (found : ((store.kvDelta instanceId).lookup key).isSome)

/-- A tree is gone from every table, and whatever the system does next, no child of it is created before its
parent is created anew. -/
structure DeletedCompletely (semver : Semver) (tree : String → Prop) (store : Store) : Prop where
  unreferred : ∀ instanceId, tree instanceId → ¬ store.Refers instanceId
  notRecreated : ∀ world after : World semver, world.store = store → world.Leads after → ParentsPresent tree after.store

namespace ProviderAdmin

variable {db after : ListedStore} {ids : List String} {root : String} {force : Bool} {result : DeleteInstanceResult}

/-- An accepted deletion deletes exactly the tree of a root. -/
theorem deleteInstance_deletes (deleted : deleteInstance db root force = some (.ok result, after)) :
    ∃ ids, after = db.deleteInstances ids ∧ ∀ instanceId, instanceId ∈ ids ↔ db.forest.Below root instanceId := by
  unfold deleteInstance at deleted
  split at deleted
  · cases deleted
  · cases deleted
  · rename_i parent
    have parentless : db.store.parentId root = none := by
      unfold getParentId at parent
      split at parent
      · rename_i row found
        simp only [Store.parentId, found, Option.bind_some]
        exact Except.ok.inj parent
      · cases parent
    obtain ⟨tree, collected, isTree⟩ := getInstanceTree_root parentless
    rw [collected, Option.map_some, Option.some.injEq] at deleted
    refine ⟨tree.allIds, ?_, isTree⟩
    rcases deleteInstancesAtomic_cases db tree.allIds force with ⟨empty, _⟩ | ⟨⟨error, refused⟩, _⟩ | ⟨done, _⟩
    · have rooted := (isTree root).mpr (.refl root)
      rw [empty] at rooted
      cases rooted
    · rw [refused] at deleted
      cases deleted
    · rw [done] at deleted
      cases deleted
      rfl

/-- What still refers to a deleted instance is the start of a child outside of the deletion. -/
theorem refers_of_deleted (closed : ∀ child parent, db.store.parentId child = some parent → parent ∈ ids → child ∈ ids)
    {instanceId : String} (listed : instanceId ∈ ids) (refers : (db.deleteInstances ids).store.Refers instanceId) :
    ∃ row ∈ db.store.orchestratorQueue, row.startsChildOf instanceId ∧ row.instanceId ∉ ids := by
  have unqueued : ∀ row ∈ (db.deleteInstances ids).store.orchestratorQueue,
      row ∈ db.store.orchestratorQueue ∧ row.instanceId ∉ ids := by
    intro row queued
    simp only [ListedStore.deleteInstances, Store.deleteInstances, Store.deleteOrchestratorRows, Store.deleteWorkerRows,
      Store.deleteLocks, List.mem_filter, Bool.not_eq_true', decide_eq_false_iff_not] at queued
    exact queued
  cases refers with
  | instances row found =>
    rw [ListedStore.deleted_of_mem listed] at found
    cases found
  | parent child linked =>
    have old := ListedStore.parentId_of_deleteInstances linked
    rw [ListedStore.parentId_deleted (closed child instanceId old listed)] at linked
    cases linked
  | executions executionId found =>
    simp [ListedStore.deleteInstances, Store.deleteInstances, listed] at found
  | history executionId row recorded =>
    simp [ListedStore.deleteInstances, Store.deleteInstances, listed, ExecutionHistory.empty] at recorded
  | orchestratorQueue row queued addressed => exact absurd (addressed ▸ listed) (unqueued row queued).2
  | queuedChild row queued names => exact ⟨row, (unqueued row queued).1, names, (unqueued row queued).2⟩
  | workerQueue row queued identity =>
    obtain ⟨activity, known, same⟩ := (Option.any_eq_true _ _).mp identity
    simp only [decide_eq_true_eq] at same
    simp only [ListedStore.deleteInstances, Store.deleteInstances, Store.deleteWorkerRows, Store.deleteLocks, known,
      Option.any_some, List.mem_filter, Bool.not_eq_true', decide_eq_false_iff_not] at queued
    exact absurd (same ▸ listed) queued.2
  | instanceLocks found =>
    simp [ListedStore.deleteInstances, Store.deleteInstances, Store.deleteLocks, Lib.KeyedTable.lookup_deleteWhere,
      listed] at found
  | kvStore key found => simp [ListedStore.deleteInstances, Store.deleteInstances, listed] at found
  | kvDelta key found => simp [ListedStore.deleteInstances, Store.deleteInstances, listed] at found

/-- An accepted cascading delete is complete exactly if no queued message is to start a child of the tree that
has no row yet. -/
theorem deletedCompletely_iff (semver : Semver) (deleted : deleteInstance db root force = some (.ok result, after)) :
    DeletedCompletely semver (db.forest.Below root) after.store ↔
      ∀ row ∈ db.store.orchestratorQueue, ∀ parent, db.forest.Below root parent → row.startsChildOf parent →
        db.forest.Below root row.instanceId := by
  obtain ⟨ids, rfl, isTree⟩ := deleteInstance_deletes deleted
  have closed : ∀ child parent, db.store.parentId child = some parent → parent ∈ ids → child ∈ ids := by
    intro child parent linked named
    exact (isTree child).mpr (((isTree parent).mp named).step linked)
  constructor
  · intro complete row queued parent below names
    by_contra outside
    apply complete.unreferred parent below
    refine .queuedChild row ?_ names
    simp only [ListedStore.deleteInstances, Store.deleteInstances, Store.deleteOrchestratorRows, Store.deleteWorkerRows,
      Store.deleteLocks, List.mem_filter, Bool.not_eq_true', decide_eq_false_iff_not]
    exact ⟨queued, fun named => outside ((isTree _).mp named)⟩
  · intro settled
    constructor
    · intro instanceId below refers
      obtain ⟨row, queued, names, outside⟩ := refers_of_deleted closed ((isTree instanceId).mpr below) refers
      exact outside ((isTree _).mpr (settled row queued instanceId below names))
    · intro world later same leads
      refine ParentsPresent.leads ?_ leads
      rw [same]
      intro child parent linked below
      have old := ListedStore.parentId_of_deleteInstances linked
      rw [ListedStore.parentId_deleted (closed child parent old ((isTree parent).mpr below))] at linked
      cases linked

/-- A completed parent and its running child are deleted completely. -/
theorem deletedCompletely_iff_completedParent :
    DeletedCompletely textSemver (completedParent.forest.Below "order")
      (completedParent.deleteInstances ["order", "order::sub::2"]).store := by
  have deleted : deleteInstance completedParent "order" true =
      some (.ok ⟨2, 2, 0, 0⟩, completedParent.deleteInstances ["order", "order::sub::2"]) := rfl
  apply (deletedCompletely_iff textSemver deleted).mpr
  intro row queued
  cases queued

/-- A completed orchestration, with the start and the cancellation of a child that never ran. -/
def unstartedChild : ListedStore where
  store :=
    { instances := fun instanceId =>
        if instanceId = "order" then some
          { orchestrationName := "Order", orchestrationVersion := some "1.0.0", currentExecutionId := 1
            parentInstanceId := none }
        else none
      executions := fun instanceId =>
        if instanceId = "order" then AList.singleton 1 { status := .completed, output := some "done" } else ∅
      orchestratorQueue :=
        [{ id := 2, instanceId := "order::sub::2", visibleAt := 0
           workItem := .startOrchestration "order::sub::2" "Payment" "42" none (some "order") (some 2) 1 },
          { id := 4, instanceId := "order::sub::2", visibleAt := 0
            workItem := .cancelInstance "order::sub::2" "parent dropped sub-orchestration future" }]
      nextOrchestratorId := 5 }
  ids := ["order"]
  distinct := by decide
  listed := by
    intro instanceId row found
    dsimp only at found
    split_ifs at found with same
    simp [same]

/-- The deletion is accepted without force, and the start of the child stays in the queue, naming its parent. -/
theorem unstartedChild_left :
    deleteInstance unstartedChild "order" false = some (.ok ⟨1, 1, 0, 0⟩, unstartedChild.deleteInstances ["order"]) ∧
      ¬ DeletedCompletely textSemver (unstartedChild.forest.Below "order") (unstartedChild.deleteInstances ["order"]).store := by
  refine ⟨rfl, ?_⟩
  intro complete
  apply complete.unreferred "order" (.refl "order")
  exact .queuedChild _ List.mem_cons_self (by decide)

end ProviderAdmin

end Duroxide
