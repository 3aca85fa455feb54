import Duroxide.Proofs.QueuedActivities
import Duroxide.Proofs.RaisedEvents

/-! # The queued rows of an instance

What a step does to the rows that are queued for an instance: it keeps them and adds new ones, or a fetch marks the
visible ones or drops them as orphans, or the step commits the batch of the instance. Only clients add rows that raise
events, and only commits of the instance add rows that continue it as new.
-/

namespace Duroxide

open Provider Dispatcher

variable {semver : Semver} {world after : World semver} {label : Step semver} {instanceId : String}

/-! ## Rows of an instance -/

/-- The queued rows of an instance. -/
def Store.rowsOf (store : Store) (instanceId : String) : List OrchestratorRow :=
  store.orchestratorQueue.filter (·.instanceId == instanceId)

/-- The event that a row raises. -/
def OrchestratorRow.raised (row : OrchestratorRow) : Option EventKind := row.decoded.bind WorkItem.raised

/-- The row continues its instance as new. -/
def OrchestratorRow.continues (row : OrchestratorRow) : Bool := row.decoded.any isContinuation

/-- The event that a step raises for an instance. -/
def Step.raises (instanceId : String) : Step semver → Option EventKind
  | .client _ item => if item.targetInstance = instanceId then item.raised else none
  | _ => none

theorem mem_rowsOf {store : Store} {row : OrchestratorRow} :
    row ∈ store.rowsOf instanceId ↔ row ∈ store.orchestratorQueue ∧ row.instanceId = instanceId := by
  rw [Store.rowsOf, List.mem_filter, beq_iff_eq]

/-- Changing rows, but not their instances. -/
theorem rowsOf_map {store result : Store} {change : OrchestratorRow → OrchestratorRow}
    (queue : result.orchestratorQueue = store.orchestratorQueue.map change)
    (own : ∀ row, (change row).instanceId = row.instanceId) :
    result.rowsOf instanceId = (store.rowsOf instanceId).map change := by
  have same : ((·.instanceId == instanceId) ∘ change : OrchestratorRow → Bool) = (·.instanceId == instanceId) := by
    funext row
    rw [Function.comp_apply, own]
  rw [Store.rowsOf, Store.rowsOf, queue, List.filter_map, same]

theorem rowsOf_append {store result : Store} {rows : List OrchestratorRow}
    (queue : result.orchestratorQueue = store.orchestratorQueue ++ rows) :
    result.rowsOf instanceId = store.rowsOf instanceId ++ rows.filter (·.instanceId == instanceId) := by
  rw [Store.rowsOf, Store.rowsOf, queue, List.filter_append]

/-- Deleting rows of other instances. -/
theorem rowsOf_filter {store result : Store} {kept : OrchestratorRow → Bool}
    (queue : result.orchestratorQueue = store.orchestratorQueue.filter kept)
    (own : ∀ row ∈ store.rowsOf instanceId, kept row) : result.rowsOf instanceId = store.rowsOf instanceId := by
  rw [Store.rowsOf, queue, List.filter_filter]
  refine List.filter_congr fun row member => ?_
  cases same : row.instanceId == instanceId
  · rfl
  · exact own row (mem_rowsOf.mpr ⟨member, beq_iff_eq.mp same⟩)

theorem OrchestratorRow.raised_of_workItem {row : OrchestratorRow} (plain : row.workItem.raised = none) :
    row.raised = none := by
  unfold OrchestratorRow.raised OrchestratorRow.decoded
  split_ifs
  · exact plain
  · rfl

theorem OrchestratorRow.continues_of_workItem {row : OrchestratorRow} (plain : isContinuation row.workItem = false) :
    row.continues = false := by
  unfold OrchestratorRow.continues OrchestratorRow.decoded
  split_ifs
  · exact plain
  · rfl

theorem OrchestratorRow.isContinuation_of_continues {row : OrchestratorRow} (continues : row.continues) :
    isContinuation row.workItem := by
  obtain ⟨item, read, holds⟩ := (Option.any_eq_true _ _).mp continues
  rwa [OrchestratorRow.workItem_of_decoded read]

/-! ## What a step does to the rows of an instance -/

/-- The executions of an instance are the same in two stores. -/
structure SameExecutions (before after : Store) (instanceId : String) : Prop where
  row : after.instances instanceId = before.instances instanceId
  recorded : ∀ executionId, after.recorded instanceId executionId = before.recorded instanceId executionId

theorem SameRecords.sameExecutions {before after : Store} (same : SameRecords before after) (instanceId : String) :
    SameExecutions before after instanceId :=
  ⟨by rw [same.instances], fun executionId => by rw [Store.recorded, Store.recorded, same.history]⟩

/-- What a step does to the queue of an instance: rows are kept, and new ones come without a mark; or the visible ones
are marked by a fetch, or dropped by one as orphans; or the step commits the batch of the instance. -/
inductive Turnover (instanceId : String) (world : World semver) (label : Step semver) (after : World semver) : Prop
  | changed (change : OrchestratorRow → OrchestratorRow) (added : List OrchestratorRow)
      (rows : after.store.rowsOf instanceId = (world.store.rowsOf instanceId).map change ++ added)
      (decoded : ∀ row, (change row).decoded = row.decoded) (tokens : ∀ row, (change row).lockToken = row.lockToken)
      (locks : ∀ lock, after.store.instanceLocks.lookup instanceId = some lock →
        ∃ original, world.store.instanceLocks.lookup instanceId = some original ∧ original.lockToken = lock.lockToken)
      (unmarked : ∀ row ∈ added, row.lockToken = none) (plain : ∀ row ∈ added, row.continues = false)
      (raised : added.filterMap (·.raised) = (label.raises instanceId).toList)
      (same : SameExecutions world.store after.store instanceId)
  | fetched (config : ProviderConfig) (filter : Option (List (SemverRange semver))) (now lockTimeoutMs token : Nat)
      (fault : Fault) (taken : label = .fetch config filter now lockTimeoutMs token fault)
      (rows : after.store.rowsOf instanceId = (world.store.rowsOf instanceId).map (markedRow now instanceId token))
      (locked : ∀ lock, after.store.instanceLocks.lookup instanceId = some lock → lock.lockToken = token)
      (same : SameExecutions world.store after.store instanceId)
  | dropped (config : ProviderConfig) (filter : Option (List (SemverRange semver))) (now lockTimeoutMs token : Nat)
      (fault : Fault) (taken : label = .fetch config filter now lockTimeoutMs token fault)
      (noRow : world.store.instances instanceId = none)
      (orphans : ∀ row ∈ world.store.rowsOf instanceId, row.visibleAt ≤ (now : Int) →
        ∀ item ∈ row.decoded, isQueueMessage item)
      (kept : after.store.rowsOf instanceId =
        (world.store.rowsOf instanceId).filter fun row => !(row.visibleAt ≤ (now : Int)))
      (released : after.store.instanceLocks.lookup instanceId = none)
      (same : SameExecutions world.store after.store instanceId)
  | committed (delivery : Delivery semver) (request : AckRequest semver)
      (commits : Commits world label delivery request instanceId after)

namespace Turnover

/-- A step that leaves the rows of an instance, its lock and its executions alone. -/
theorem untouched (queue : after.store.rowsOf instanceId = world.store.rowsOf instanceId)
    (locks : ∀ lock, after.store.instanceLocks.lookup instanceId = some lock →
      ∃ original, world.store.instanceLocks.lookup instanceId = some original ∧ original.lockToken = lock.lockToken)
    (silent : label.raises instanceId = none) (same : SameExecutions world.store after.store instanceId) :
    Turnover instanceId world label after :=
  .changed id [] (by rw [queue, List.map_id, List.append_nil]) (fun _ => rfl) (fun _ => rfl) locks
    (fun _ none => absurd none List.not_mem_nil) (fun _ none => absurd none List.not_mem_nil) (by rw [silent]; rfl) same

/-- A fetch of another instance marks none of the rows. -/
theorem rowsOf_lockedStore_of_other {store : Store} {now lockTimeoutMs token : Nat} {other : String}
    (unlocked : store.isUnlocked now other) (differs : instanceId ≠ other) :
    (lockedStore store now lockTimeoutMs token other).rowsOf instanceId = store.rowsOf instanceId := by
  rw [lockedStore_of_unlocked unlocked, rowsOf_map rfl (markedRow_instanceId now other token)]
  refine (List.map_congr_left fun row member => ?_).trans (List.map_id _)
  rw [markedRow, if_neg]
  · rfl
  · simp [(mem_rowsOf.mp member).2, differs]

theorem locks_lockedStore_of_other {store : Store} {now lockTimeoutMs token : Nat} {other : String}
    (unlocked : store.isUnlocked now other) (differs : instanceId ≠ other) :
    (lockedStore store now lockTimeoutMs token other).instanceLocks.lookup instanceId =
      store.instanceLocks.lookup instanceId := by
  rw [lockedStore_of_unlocked unlocked]
  exact AList.lookup_insert_ne differs

/-- Dropping the visible rows of an instance. -/
theorem rowsOf_dropped {store : Store} {now lockTimeoutMs token : Nat} (unlocked : store.isUnlocked now instanceId)
    (unused : Unused store token) :
    ((lockedStore store now lockTimeoutMs token instanceId).deleteBatch token).rowsOf instanceId =
      (store.rowsOf instanceId).filter fun row => !(row.visibleAt ≤ (now : Int)) := by
  have marked : (lockedStore store now lockTimeoutMs token instanceId).rowsOf instanceId =
      (store.rowsOf instanceId).map (markedRow now instanceId token) := by
    rw [lockedStore_of_unlocked unlocked]
    exact rowsOf_map rfl (markedRow_instanceId now instanceId token)
  have filtered : ((lockedStore store now lockTimeoutMs token instanceId).deleteBatch token).rowsOf instanceId =
      ((lockedStore store now lockTimeoutMs token instanceId).rowsOf instanceId).filter
        fun row => !(row.lockToken == some token) := List.filter_comm ..
  rw [filtered, marked, List.filter_map]
  have kept : ∀ row ∈ store.rowsOf instanceId,
      (markedRow now instanceId token row).lockToken = some token ↔ row.visibleAt ≤ (now : Int) := by
    intro row member
    obtain ⟨queued, own⟩ := mem_rowsOf.mp member
    constructor
    · exact fun token => (markedRow_lockToken (unused.rows row queued) token).2
    · intro visible
      rw [markedRow, if_pos (by simp [own, visible])]
  rw [List.filter_congr (q := fun row => !(row.visibleAt ≤ (now : Int))) fun row member => by
    rw [Function.comp_apply, Bool.eq_iff_iff, Bool.not_eq_true', Bool.not_eq_true', beq_eq_false_iff_ne, ne_eq,
      kept row member, decide_eq_false_iff_not]]
  refine (List.map_congr_left fun row member => ?_).trans (List.map_id _)
  obtain ⟨_, late⟩ := List.mem_filter.mp member
  rw [markedRow, if_neg]
  · rfl
  · simpa using fun _ => late

/-- A commit for another instance adds rows that neither raise an event nor continue the instance. -/
theorem of_other {conditions : Conditions semver} (around : QueuedActivities.Surroundings conditions world)
    {delivery : Delivery semver} {request : AckRequest semver} {other : String}
    (commits : Commits world label delivery request other after) (differs : instanceId ≠ other) :
    Turnover instanceId world label after := by
  have continuations := fun item => @Succession.continues_of_enqueued _ _ _ _ _ _ _ conditions around.provenance
    around.coherent around.pending commits item
  obtain ⟨config, now, token, fault, taken, holds, committed, _⟩ := commits.holds
  obtain ⟨fallback, failed, phase⟩ := commits.phase
  have source := (around.pending token delivery request fallback failed holds phase).source
  have silent := (source.proceeds (around.provenance.items token delivery holds).ordered).raised
  have sound := around.coherent.queueSound
  have kept : (world.store.deleteBatch token).rowsOf instanceId = world.store.rowsOf instanceId := by
    refine rowsOf_filter rfl fun row member => ?_
    obtain ⟨queued, own⟩ := mem_rowsOf.mp member
    obtain ⟨lock, found, rfl, _⟩ := committed.held
    rw [Bool.not_eq_true', beq_eq_false_iff_ne]
    exact fun marked => differs (own.symm.trans (sound.owned row queued other lock found marked).symm)
  have added := @rowsOf_append instanceId (world.store.deleteBatch token) after.store _ committed.queue
  rw [kept] at added
  refine .changed id _ (by rw [added, List.map_id]) (fun _ => rfl) (fun _ => rfl)
    (QueueSound.locksKept_acked sound committed instanceId) ?_ ?_ ?_
    ⟨committed.otherInstances instanceId differs, fun executionId => recorded_other committed fun same =>
      differs (Prod.mk.inj same).1⟩
  · exact fun row member => (QueueSound.mem_enqueuedRows (List.mem_filter.mp member).1).2.2.1
  · intro row member
    obtain ⟨new, own⟩ := List.mem_filter.mp member
    obtain ⟨_, _, _, _, listed, target, _⟩ := QueueSound.mem_enqueuedRows new
    refine OrchestratorRow.continues_of_workItem (Bool.eq_false_iff.mpr fun continues => ?_)
    have same := (continuations row.workItem (List.mem_filter.mp listed).1 continues).1
    exact differs ((beq_iff_eq.mp own).symm.trans (target.trans same))
  · rw [taken]
    refine List.filterMap_eq_nil_iff.mpr fun row member => OrchestratorRow.raised_of_workItem ?_
    obtain ⟨_, _, _, _, listed, _⟩ := QueueSound.mem_enqueuedRows (List.mem_filter.mp member).1
    exact silent row.workItem (List.mem_filter.mp listed).1

end Turnover

/-- The row that a client or a worker adds to the queue. -/
theorem rowsOf_inserted {store : Store} (result : Store) {item : WorkItem} {visibleAt : Int} {id : Nat}
    (queue : result.orchestratorQueue = store.orchestratorQueue ++
      [{ id, instanceId := item.targetInstance, workItem := item, visibleAt }]) :
    ∃ added, result.rowsOf instanceId = store.rowsOf instanceId ++ added ∧
      (∀ row ∈ added, row.lockToken = none ∧ row.workItem = item) ∧
      added.filterMap (·.raised) = (if item.targetInstance = instanceId then item.raised else none).toList := by
  refine ⟨_, rowsOf_append queue, ?_, ?_⟩
  · intro row member
    rw [List.mem_singleton.mp (List.mem_filter.mp member).1]
    exact ⟨rfl, rfl⟩
  · by_cases own : item.targetInstance = instanceId
    · rw [if_pos own, List.filter_cons_of_pos (by simpa using own)]
      have raised :
          OrchestratorRow.raised { id, instanceId := item.targetInstance, workItem := item, visibleAt } = item.raised := rfl
      rw [List.filter_nil, List.filterMap_cons, raised]
      cases item.raised <;> rfl
    · rw [if_neg own, List.filter_cons_of_neg (by simpa using own)]
      rfl

/-- What a step does to the queue of an instance. -/
theorem Effect.turnover {conditions : Conditions semver} (effect : Effect world label after)
    (around : QueuedActivities.Surroundings conditions world) : Turnover instanceId world label after := by
  have locked : ∀ lock, world.store.instanceLocks.lookup instanceId = some lock →
      ∃ original, world.store.instanceLocks.lookup instanceId = some original ∧ original.lockToken = lock.lockToken :=
    fun lock found => ⟨lock, found, rfl⟩
  have same := effect.records
  cases effect with
  | fetchedNothing | decided | ackFailed | turnFailed | abandonFailed | renewFailed | workCancelled | workAckFailed
  | workDropFailed | workAbandonFailed =>
    exact .untouched rfl locked rfl ((SameRecords.refl world.store).sameExecutions instanceId)
  | enqueued now item isClientItem =>
    obtain ⟨added, rows, new, raised⟩ := @rowsOf_inserted instanceId world.store
      (world.store.insertOrchestratorRow item now) item now _ rfl
    refine .changed id added (by rw [List.map_id]; exact rows) (fun _ => rfl) (fun _ => rfl) locked
      (fun row member => (new row member).1) (fun row member => ?_) raised ⟨rfl, fun _ => rfl⟩
    refine OrchestratorRow.continues_of_workItem ?_
    rw [(new row member).2]
    cases item <;> first | rfl | cases isClientItem
  | fetched config filter now lockTimeoutMs token fault fresh item attemptCount candidate found =>
    have records := (SameRecords.lockedStore world.store now lockTimeoutMs token item.instanceId).sameExecutions instanceId
    by_cases own : instanceId = item.instanceId
    · subst own
      refine .fetched config filter now lockTimeoutMs token fault rfl ?_ ?_ records
      · change (lockedStore world.store now lockTimeoutMs token item.instanceId).rowsOf item.instanceId = _
        rw [lockedStore_of_unlocked candidate.unlocked]
        exact rowsOf_map rfl (markedRow_instanceId now item.instanceId token)
      · intro lock held
        change (lockedStore world.store now lockTimeoutMs token item.instanceId).instanceLocks.lookup item.instanceId =
          some lock at held
        rw [lockedStore_of_unlocked candidate.unlocked, AList.lookup_insert] at held
        rw [← Option.some.inj held]
    · refine .untouched (Turnover.rowsOf_lockedStore_of_other candidate.unlocked own) ?_ rfl records
      intro lock held
      exact ⟨lock, (Turnover.locks_lockedStore_of_other candidate.unlocked own).symm.trans held, rfl⟩
  | dropped config filter now lockTimeoutMs token fault fresh other candidate noRow orphans =>
    have unused := around.coherent.unused fresh
    have records := (SameRecords.lockedStore world.store now lockTimeoutMs token other).sameExecutions instanceId
    by_cases own : instanceId = other
    · subst own
      refine .dropped config filter now lockTimeoutMs token fault rfl noRow ?_
        (Turnover.rowsOf_dropped candidate.unlocked unused) ?_ ⟨records.row, records.recorded⟩
      · intro row member visible item read
        obtain ⟨queued, own⟩ := mem_rowsOf.mp member
        refine orphans (markedRow now instanceId token row) (List.mem_filter.mpr ⟨?_, ?_⟩) item ?_
        · exact mem_lockedStore candidate.unlocked queued
        · rw [markedRow, if_pos (by simp [own, visible])]
          exact beq_self_eq_true _
        · rwa [markedRow_decoded]
      · simp only [Store.deleteLocks, Lib.KeyedTable.lookup_deleteWhere, Option.filter_eq_none_iff]
        intro lock held
        change (lockedStore world.store now lockTimeoutMs token instanceId).instanceLocks.lookup instanceId = _ at held
        rw [lockedStore_of_unlocked candidate.unlocked, AList.lookup_insert] at held
        rw [← Option.some.inj held]
        simp
    · refine .untouched ?_ ?_ rfl ⟨records.row, records.recorded⟩
      · rw [← @Turnover.rowsOf_lockedStore_of_other _ world.store now lockTimeoutMs token _ candidate.unlocked own]
        refine rowsOf_filter rfl fun row member => ?_
        rw [Turnover.rowsOf_lockedStore_of_other candidate.unlocked own] at member
        rw [Bool.not_eq_true', beq_eq_false_iff_ne]
        exact unused.rows row (mem_rowsOf.mp member).1
      · intro lock held
        obtain ⟨original, was, token⟩ := QueueSound.locksKept_deleteLocks _ _ instanceId lock held
        exact ⟨original, (Turnover.locks_lockedStore_of_other candidate.unlocked own).symm.trans was, token⟩
  | acked config now token fault delivery request fallback failed holds phase other store committed =>
    have commits : Commits world (.ack config now token fault) delivery request other
        ({ world with store }.setPhase token delivery .done) :=
      ⟨⟨config, now, token, fault, rfl, holds, committed, rfl⟩, fallback, failed, phase⟩
    by_cases own : instanceId = other
    · subst own
      exact .committed delivery request commits
    · exact .of_other around commits own
  | abandoned now token delivery delayMs ignoreAttempt holds phase store released =>
    obtain ⟨other, _, rfl⟩ := abandonOrchestrationItem_spec released
    refine .changed (abandonedRow now other delayMs ignoreAttempt) [] ?_
      (abandonedRow_decoded now other delayMs ignoreAttempt)
      (fun row => (abandonedRow_identity now other delayMs ignoreAttempt row).2.2)
      (QueueSound.locksKept_deleteLocks world.store _ instanceId) (fun _ none => absurd none List.not_mem_nil)
      (fun _ none => absurd none List.not_mem_nil) rfl ⟨rfl, fun _ => rfl⟩
    rw [List.append_nil]
    exact rowsOf_map rfl fun row => (abandonedRow_identity now other delayMs ignoreAttempt row).2.1
  | renewed now token extendMs store extended =>
    obtain rfl := QueueSound.renewOrchestrationItemLock_spec extended
    exact .untouched rfl (QueueSound.locksKept_updateLocks world.store _ _ instanceId) rfl ⟨rfl, fun _ => rfl⟩
  | workFetched now lockTimeoutMs token session filter fresh workItem attemptCount store found =>
    obtain ⟨row, sessions, _, _, rfl⟩ := fetchWorkItem_spec found
    exact .untouched rfl locked rfl ⟨rfl, fun _ => rfl⟩
  | workRenewed now token extendMs held holds store extended =>
    obtain ⟨sessions, rfl⟩ := renewWorkItemLock_spec extended
    exact .untouched rfl locked rfl ⟨rfl, fun _ => rfl⟩
  | workCompleted now token maxAttempts outcome held holds completion reported store acked =>
    obtain ⟨row, sessions, _, rfl⟩ := ackWorkItem_spec acked
    have reports := activityCompletion_isActivityCompletion reported
    obtain ⟨added, rows, new, raised⟩ := @rowsOf_inserted instanceId world.store (withCompletion _ now (some completion))
      completion now _ rfl
    refine .changed id added (by rw [List.map_id]; exact rows) (fun _ => rfl) (fun _ => rfl) locked
      (fun row member => (new row member).1) (fun row member => ?_) ?_ ⟨rfl, fun _ => rfl⟩
    · refine OrchestratorRow.continues_of_workItem ?_
      rw [(new row member).2]
      cases completion <;> first | rfl | cases reports
    · rw [raised]
      have silent : completion.raised = none := by cases completion <;> first | rfl | cases reports
      rw [silent, ite_self]
      rfl
  | workDropped now token held holds cancelled store acked =>
    obtain ⟨row, sessions, _, rfl⟩ := ackWorkItem_spec acked
    exact .untouched rfl locked rfl ⟨rfl, fun _ => rfl⟩
  | workAbandoned now token delayMs ignoreAttempt store released =>
    rw [abandonWorkItem_spec released]
    exact .untouched rfl locked rfl ⟨rfl, fun _ => rfl⟩

end Duroxide
