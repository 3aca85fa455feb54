import Duroxide.Model.Pruning

/-! # What pruning deletes

A call of `prune_executions` deletes the executions that pass every filter, each with its history, and
nothing else. `Store.forget` says what a store is without some executions, however they were deleted.
-/

namespace Duroxide

namespace Store

/-- The store without the rows and the histories of some executions. -/
def forget (store : Store) (forgotten : String → Nat → Bool) : Store :=
  { store with
    executions := fun instanceId =>
      Lib.KeyedTable.deleteWhere (store.executions instanceId) fun executionId _ => forgotten instanceId executionId
    history := fun instanceId executionId =>
      if forgotten instanceId executionId then .empty else store.history instanceId executionId }

variable {store : Store} {forgotten : String → Nat → Bool} {instanceId : String} {executionId : Nat}

theorem forget_nothing (store : Store) : store.forget (fun _ _ => false) = store := by
  have rows : ∀ instanceId, Lib.KeyedTable.deleteWhere (store.executions instanceId) (fun _ _ => false) =
      store.executions instanceId := fun _ => Lib.KeyedTable.deleteWhere_eq_self fun _ _ => rfl
  simp [forget, rows]

theorem forget_forget (store : Store) (first second : String → Nat → Bool) :
    (store.forget first).forget second = store.forget fun instanceId executionId =>
      first instanceId executionId || second instanceId executionId := by
  have events : (fun instanceId executionId => if second instanceId executionId then ExecutionHistory.empty
      else if first instanceId executionId then .empty else store.history instanceId executionId) =
      fun instanceId executionId => if first instanceId executionId || second instanceId executionId then .empty
        else store.history instanceId executionId := by
    funext instanceId executionId
    cases first instanceId executionId <;> cases second instanceId executionId <;> rfl
  simp only [forget, Lib.KeyedTable.deleteWhere_deleteWhere, events]

theorem lookup_forget : ((store.forget forgotten).executions instanceId).lookup executionId =
    if forgotten instanceId executionId then none else (store.executions instanceId).lookup executionId := by
  rw [forget, Lib.KeyedTable.lookup_deleteWhere]
  cases forgotten instanceId executionId <;> cases (store.executions instanceId).lookup executionId <;> rfl

theorem lookup_forget_of_kept (kept : forgotten instanceId executionId = false) :
    ((store.forget forgotten).executions instanceId).lookup executionId = (store.executions instanceId).lookup executionId := by
  rw [lookup_forget, kept, if_neg Bool.false_ne_true]

theorem history_forget_of_kept (kept : forgotten instanceId executionId = false) :
    (store.forget forgotten).history instanceId executionId = store.history instanceId executionId := by
  simp only [forget, kept, Bool.false_eq_true, if_false]

/-- Deleting the history and the row of an execution forgets it. -/
theorem deleteExecution_eq_forget (store : Store) (instanceId : String) (executionId : Nat) :
    (store.deleteHistory instanceId executionId).deleteExecution instanceId executionId =
      store.forget fun other id => other == instanceId && id == executionId := by
  have rows : Function.update store.executions instanceId
      (Lib.KeyedTable.deleteWhere (store.executions instanceId) fun id _ => id == executionId) =
      fun other => Lib.KeyedTable.deleteWhere (store.executions other) fun id _ => other == instanceId && id == executionId := by
    funext other
    by_cases same : other = instanceId
    · subst same
      simp
    · rw [Function.update_of_ne same, beq_eq_false_iff_ne.mpr same]
      exact (Lib.KeyedTable.deleteWhere_eq_self fun _ _ => rfl).symm
  have events : Function.update store.history instanceId
      (Function.update (store.history instanceId) executionId .empty) =
      fun other id => if other == instanceId && id == executionId then .empty else store.history other id := by
    funext other id
    by_cases same : other = instanceId
    · subst same
      by_cases executed : id = executionId
      · subst executed
        simp
      · simp [executed]
    · simp [same]
  simp only [deleteExecution, updateExecutions, deleteHistory, forget, rows, events]

end Store

namespace ProviderAdmin

variable {store : Store} {completedAt : CompletedAt} {instanceId : String} {options : PruneOptions}

/-! ## The executions that are deleted -/

/-- The rule: not current and not running, not among the last ones to keep, and ended before the bound. -/
structure Prunes (store : Store) (completedAt : CompletedAt) (instanceId : String) (currentExecutionId : Nat)
    (options : PruneOptions) (executionId : Nat) : Prop where
  ended : ∃ execution, (store.executions instanceId).lookup executionId = some execution ∧ execution.status ≠ .running
  past : executionId ≠ currentExecutionId
  outnumbered : ∀ keepLast, options.keepLast = some keepLast →
    keepLast ≤ ((store.executions instanceId).keys.filter fun other => decide (executionId < other)).length
  before : ∀ bound, options.completedBefore = some bound →
    ∃ time, completedAt instanceId executionId = some time ∧ time < asI64 bound

theorem isPruned_iff {currentExecutionId executionId : Nat} {execution : ExecutionRow}
    (found : (store.executions instanceId).lookup executionId = some execution) :
    isPruned store completedAt instanceId currentExecutionId options executionId execution ↔
      Prunes store completedAt instanceId currentExecutionId options executionId := by
  have listed : executionId ∈ (store.executions instanceId).keys := by
    rw [← AList.mem_keys, ← AList.lookup_isSome, found]
    rfl
  have last : ∀ keepLast, executionId ∉ lastExecutions store instanceId keepLast ↔
      keepLast ≤ ((store.executions instanceId).keys.filter fun other => decide (executionId < other)).length := fun keepLast =>
    (not_congr (Lib.Sql.mem_highest (store.executions instanceId).keys_nodup listed)).trans Nat.not_lt
  simp only [isPruned, Bool.and_eq_true, bne_iff_ne, Option.all_eq_true, decide_eq_true_eq, last, Option.any_eq_true]
  constructor
  · rintro ⟨⟨⟨past, ended⟩, outnumbered⟩, before⟩
    exact ⟨⟨execution, found, ended⟩, past, outnumbered, before⟩
  · rintro ⟨⟨other, same, ended⟩, past, outnumbered, before⟩
    rw [found] at same
    obtain rfl := Option.some.inj same
    exact ⟨⟨⟨past, ended⟩, outnumbered⟩, before⟩

theorem mem_executionsToPrune {currentExecutionId executionId : Nat} :
    executionId ∈ executionsToPrune store completedAt instanceId currentExecutionId options ↔
      Prunes store completedAt instanceId currentExecutionId options executionId := by
  simp only [executionsToPrune, List.mem_map, List.mem_filter]
  constructor
  · rintro ⟨⟨id, execution⟩, ⟨member, passes⟩, rfl⟩
    exact (isPruned_iff (Lib.KeyedTable.mem_entries_iff.mp member)).mp passes
  · intro prunes
    obtain ⟨execution, found, _⟩ := prunes.ended
    exact ⟨⟨executionId, execution⟩, ⟨Lib.KeyedTable.mem_entries_iff.mpr found, (isPruned_iff found).mpr prunes⟩, rfl⟩

theorem executionsToPrune_nodup (currentExecutionId : Nat) :
    (executionsToPrune store completedAt instanceId currentExecutionId options).Nodup := by
  have keys : ((store.executions instanceId).entries.map Sigma.fst).Nodup := (store.executions instanceId).nodupKeys
  exact keys.sublist (List.filter_sublist.map Sigma.fst)

/-! ## Deleting them -/

/-- The events of some executions. -/
def countEvents (store : Store) (instanceId : String) (executionIds : List Nat) : Nat :=
  (executionIds.map fun executionId => (store.history instanceId executionId).rows.length).sum

theorem foldl_pruneExecution (result : PruneResult) (store : Store) {executionIds : List Nat} (distinct : executionIds.Nodup) :
    executionIds.foldl (pruneExecution instanceId) (result, store) =
      ({ result with
          executionsDeleted := result.executionsDeleted + executionIds.length
          eventsDeleted := result.eventsDeleted + countEvents store instanceId executionIds },
        store.forget fun other executionId => other == instanceId && decide (executionId ∈ executionIds)) := by
  induction executionIds generalizing result store with
  | nil => simp [countEvents, Store.forget_nothing]
  | cons executionId rest ih =>
    obtain ⟨fresh, distinct⟩ := List.nodup_cons.mp distinct
    rw [List.foldl_cons, pruneExecution, Store.deleteExecution_eq_forget, ih _ _ distinct, Store.forget_forget]
    have events : countEvents (store.forget fun other id => other == instanceId && id == executionId) instanceId rest =
        countEvents store instanceId rest := by
      unfold countEvents
      refine congrArg List.sum (List.map_congr_left fun other member => ?_)
      rw [Store.history_forget_of_kept]
      rw [beq_self_eq_true, Bool.true_and, beq_eq_false_iff_ne]
      rintro rfl
      exact fresh member
    rw [events]
    congr 1
    · simp only [countEvents, List.length_cons, List.map_cons, List.sum_cons, PruneResult.mk.injEq, true_and]
      omega
    · congr 1
      funext other id
      simp only [← Bool.and_or_distrib_left, List.mem_cons, Bool.decide_or]
      rfl

theorem deleteExecutions_eq (store : Store) {executionIds : List Nat} (distinct : executionIds.Nodup) :
    deleteExecutions store instanceId executionIds =
      ({ instancesProcessed := 1, executionsDeleted := executionIds.length
         eventsDeleted := countEvents store instanceId executionIds },
        store.forget fun other executionId => other == instanceId && decide (executionId ∈ executionIds)) := by
  unfold deleteExecutions
  split_ifs with none
  · rw [List.isEmpty_iff.mp none]
    simp [countEvents, Store.forget_nothing]
  · rw [foldl_pruneExecution _ _ distinct]
    simp only [Nat.zero_add]

/-- A call deletes the executions that the rule names with their histories, and counts them. -/
theorem pruneExecutions_exact (store : Store) (completedAt : CompletedAt) (instanceId : String) (options : PruneOptions) :
    match store.instances instanceId with
    | none => pruneExecutions store completedAt instanceId options =
        (.error (.makePermanent "prune_executions" ("Instance " ++ instanceId ++ " not found")), store)
    | some info => ∃ pruned : List Nat, pruned.Nodup ∧
        (∀ executionId, executionId ∈ pruned ↔
          Prunes store completedAt instanceId info.currentExecutionId options executionId) ∧
        pruneExecutions store completedAt instanceId options =
          (.ok { instancesProcessed := 1, executionsDeleted := pruned.length
                 eventsDeleted := countEvents store instanceId pruned },
            store.forget fun other executionId => other == instanceId && decide (executionId ∈ pruned)) := by
  rcases found : store.instances instanceId with _ | info
  · simp only [pruneExecutions, readCurrentExecution, found]
  · have distinct : (executionsToPrune store completedAt instanceId info.currentExecutionId options).Nodup :=
      executionsToPrune_nodup info.currentExecutionId
    refine ⟨_, distinct, fun executionId => mem_executionsToPrune, ?_⟩
    simp only [pruneExecutions, readCurrentExecution, found, deleteExecutions_eq store distinct]

/-! ## Pruning in bulk -/

/-- The executions that a call deletes from an instance. -/
def prunedExecutions (store : Store) (completedAt : CompletedAt) (options : PruneOptions) (instanceId : String) : List Nat :=
  match store.instances instanceId with
  | some info => executionsToPrune store completedAt instanceId info.currentExecutionId options
  | none => []

theorem pruneExecutions_eq (known : (store.instances instanceId).isSome) :
    pruneExecutions store completedAt instanceId options =
      (.ok { instancesProcessed := 1, executionsDeleted := (prunedExecutions store completedAt options instanceId).length
             eventsDeleted := countEvents store instanceId (prunedExecutions store completedAt options instanceId) },
        store.forget fun other executionId =>
          other == instanceId && decide (executionId ∈ prunedExecutions store completedAt options instanceId)) := by
  obtain ⟨info, found⟩ := Option.isSome_iff_exists.mp known
  have distinct : (executionsToPrune store completedAt instanceId info.currentExecutionId options).Nodup :=
    executionsToPrune_nodup info.currentExecutionId
  simp only [pruneExecutions, readCurrentExecution, found, prunedExecutions, deleteExecutions_eq store distinct]

/-! Pruning one instance leaves the executions of the others. -/

section Others

variable {forgotten : Nat → Bool} {other : String}

theorem history_forget_other (differs : other ≠ instanceId) :
    (store.forget fun owner executionId => owner == instanceId && forgotten executionId).history other =
      store.history other := by
  funext executionId
  exact Store.history_forget_of_kept (by rw [beq_eq_false_iff_ne.mpr differs, Bool.false_and])

theorem executions_forget_other (differs : other ≠ instanceId) :
    (store.forget fun owner executionId => owner == instanceId && forgotten executionId).executions other =
      store.executions other := by
  simp only [Store.forget, beq_eq_false_iff_ne.mpr differs, Bool.false_and]
  exact Lib.KeyedTable.deleteWhere_eq_self fun _ _ => rfl

theorem countEvents_forget_other (differs : other ≠ instanceId) (executionIds : List Nat) :
    countEvents (store.forget fun owner executionId => owner == instanceId && forgotten executionId) other executionIds =
      countEvents store other executionIds := by
  simp only [countEvents, history_forget_other differs]

theorem prunedExecutions_forget_other (differs : other ≠ instanceId) :
    prunedExecutions (store.forget fun owner executionId => owner == instanceId && forgotten executionId)
        completedAt options other = prunedExecutions store completedAt options other := by
  have rows : (store.forget fun owner executionId => owner == instanceId && forgotten executionId).executions other =
      store.executions other := executions_forget_other differs
  have instances : (store.forget fun owner executionId => owner == instanceId && forgotten executionId).instances =
      store.instances := rfl
  have last : lastExecutions (store.forget fun owner executionId => owner == instanceId && forgotten executionId) other =
      lastExecutions store other := by
    funext limit
    rw [lastExecutions, lastExecutions, rows]
  unfold prunedExecutions
  rw [instances]
  cases store.instances other with
  | none => rfl
  | some info => simp only [executionsToPrune, isPruned, last, rows]

end Others

theorem pruneInstances_eq (result : PruneResult) (store : Store) {ids : List String} (distinct : ids.Nodup)
    (known : ∀ instanceId ∈ ids, (store.instances instanceId).isSome) :
    pruneInstances completedAt options result store ids =
      (.ok { instancesProcessed := result.instancesProcessed + ids.length
             executionsDeleted := result.executionsDeleted +
               (ids.map fun instanceId => (prunedExecutions store completedAt options instanceId).length).sum
             eventsDeleted := result.eventsDeleted + (ids.map fun instanceId =>
               countEvents store instanceId (prunedExecutions store completedAt options instanceId)).sum },
        store.forget fun instanceId executionId => decide (instanceId ∈ ids) &&
          decide (executionId ∈ prunedExecutions store completedAt options instanceId)) := by
  induction ids generalizing result store with
  | nil => simp [pruneInstances, Store.forget_nothing]
  | cons instanceId rest ih =>
    obtain ⟨fresh, distinct⟩ := List.nodup_cons.mp distinct
    have differs : ∀ other ∈ rest, other ≠ instanceId := fun other listed both => fresh (both ▸ listed)
    rw [pruneInstances, pruneExecutions_eq (known instanceId List.mem_cons_self)]
    dsimp only
    have forgotten := ih
      { instancesProcessed := result.instancesProcessed + 1
        executionsDeleted := result.executionsDeleted + (prunedExecutions store completedAt options instanceId).length
        eventsDeleted := result.eventsDeleted +
          countEvents store instanceId (prunedExecutions store completedAt options instanceId) }
      (store.forget fun other executionId =>
        other == instanceId && decide (executionId ∈ prunedExecutions store completedAt options instanceId))
      distinct fun other listed => known other (List.mem_cons_of_mem _ listed)
    rw [forgotten, Store.forget_forget]
    -- What is deleted from the rest is read from the store as it was.
    have executions : (rest.map fun other => (prunedExecutions (store.forget fun owner executionId => owner == instanceId &&
        decide (executionId ∈ prunedExecutions store completedAt options instanceId)) completedAt options other).length) =
        rest.map fun other => (prunedExecutions store completedAt options other).length :=
      List.map_congr_left fun other listed => by rw [prunedExecutions_forget_other (differs other listed)]
    have events : (rest.map fun other => countEvents (store.forget fun owner executionId => owner == instanceId &&
        decide (executionId ∈ prunedExecutions store completedAt options instanceId)) other
          (prunedExecutions (store.forget fun owner executionId => owner == instanceId &&
            decide (executionId ∈ prunedExecutions store completedAt options instanceId)) completedAt options other)) =
        rest.map fun other => countEvents store other (prunedExecutions store completedAt options other) :=
      List.map_congr_left fun other listed => by
        rw [prunedExecutions_forget_other (differs other listed), countEvents_forget_other (differs other listed)]
    rw [executions, events]
    congr 1
    · simp only [List.length_cons, List.map_cons, List.sum_cons, Except.ok.injEq, PruneResult.mk.injEq]
      omega
    · congr 1
      funext other executionId
      by_cases same : other = instanceId
      · subst same
        simp [fresh]
      · rw [prunedExecutions_forget_other same]
        simp [same]

/-- A bulk call prunes each instance that matches its filter as a call for that instance alone would, and adds up. -/
theorem pruneExecutionsBulk_exact (db : ListedStore) (completedAt : CompletedAt) (filter : InstanceFilter)
    (options : PruneOptions) :
    let ids := if filter.instanceIds.any (·.isEmpty) then [] else instancesToPrune db completedAt filter
    pruneExecutionsBulk db completedAt filter options =
      (.ok { instancesProcessed := ids.length
             executionsDeleted := (ids.map fun instanceId =>
               (prunedExecutions db.store completedAt options instanceId).length).sum
             eventsDeleted := (ids.map fun instanceId =>
               countEvents db.store instanceId (prunedExecutions db.store completedAt options instanceId)).sum },
        db.store.forget fun instanceId executionId => decide (instanceId ∈ ids) &&
          decide (executionId ∈ prunedExecutions db.store completedAt options instanceId)) := by
  unfold pruneExecutionsBulk
  split_ifs
  · simp [Store.forget_nothing]
  · have distinct : (instancesToPrune db completedAt filter).Nodup := (db.distinct.filter _).sublist (List.take_sublist _ _)
    have known : ∀ instanceId ∈ instancesToPrune db completedAt filter, (db.store.instances instanceId).isSome := by
      intro instanceId listed
      have passes := (List.mem_filter.mp (List.mem_of_mem_take listed)).2
      obtain ⟨info, found, _⟩ := (Option.any_eq_true _ _).mp passes
      rw [found]
      rfl
    rw [pruneInstances_eq {} db.store distinct known]
    simp only [Nat.zero_add]

end ProviderAdmin

end Duroxide
