import Duroxide.Lib.Forest
import Duroxide.Model.Admin

/-! # What a deletion deletes

The tree of an instance is what lies below it along the parent links. For an instance without a parent
the traversal ends and a deletion of its tree is never refused for an orphan, so a bulk deletion deletes
the trees of the roots that it picks, whatever is still running in them; and a deletion by name refuses
only what is `Running`, not an instance that waits for its next execution.
-/

namespace Duroxide

namespace ListedStore

variable {db : ListedStore} {ids : List String} {instanceId root : String}

/-- The parent links of the instances table. -/
def forest (db : ListedStore) : Lib.Forest String where
  entries := db.ids
  parent := db.store.parentId
  distinct := db.distinct
  listed := by
    intro instanceId parent linked
    obtain ⟨row, found, _⟩ := Option.bind_eq_some_iff.mp linked
    exact db.listed instanceId row found

theorem deleted_of_mem (listed : instanceId ∈ ids) : (db.deleteInstances ids).store.instances instanceId = none :=
  if_pos listed

theorem kept_of_not_mem (unlisted : instanceId ∉ ids) :
    (db.deleteInstances ids).store.instances instanceId = db.store.instances instanceId :=
  if_neg unlisted

theorem parentId_deleted (listed : instanceId ∈ ids) : (db.deleteInstances ids).store.parentId instanceId = none := by
  simp only [Store.parentId, deleted_of_mem listed, Option.bind_none]

theorem parentId_kept (unlisted : instanceId ∉ ids) :
    (db.deleteInstances ids).store.parentId instanceId = db.store.parentId instanceId := by
  simp only [Store.parentId, kept_of_not_mem unlisted]

/-- Deleting instances removes links and adds none. -/
theorem parentId_of_deleteInstances {parent : String}
    (linked : (db.deleteInstances ids).store.parentId instanceId = some parent) :
    db.store.parentId instanceId = some parent := by
  by_cases listed : instanceId ∈ ids
  · rw [parentId_deleted listed] at linked
    cases linked
  · rwa [parentId_kept listed] at linked

theorem exists_row_of_below {row : InstanceRow} (found : db.store.instances root = some row)
    (below : db.forest.Below root instanceId) : ∃ row, db.store.instances instanceId = some row := by
  rcases Lib.Forest.below_iff_parent.mp below with rfl | ⟨up, _, linked⟩
  · exact ⟨row, found⟩
  · obtain ⟨row, found, _⟩ := Option.bind_eq_some_iff.mp linked
    exact ⟨row, found⟩

end ListedStore

namespace ProviderAdmin

variable {db : ListedStore} {ids : List String} {root : String}

theorem collectTree_eq_walk (fuel : Nat) (toProcess : List String) :
    collectTree db fuel toProcess = db.forest.walk fuel toProcess := by
  induction fuel generalizing toProcess with
  | zero => cases toProcess <;> rfl
  | succ fuel ih =>
    cases toProcess with
    | nil => rfl
    | cons top rest => exact congrArg (Option.map (top :: ·)) (ih _)

/-- The traversal below an instance without a parent ends with everything below it. -/
theorem getInstanceTree_root (parentless : db.store.parentId root = none) :
    ∃ tree, getInstanceTree db root = some tree ∧ ∀ instanceId, instanceId ∈ tree.allIds ↔ db.forest.Below root instanceId := by
  have unlinked : db.forest.parent root = none := parentless
  obtain ⟨visited, walked, _, visits⟩ := Lib.Forest.walk_root unlinked (Nat.le_refl _)
  refine ⟨⟨root, visited⟩, ?_, visits⟩
  have collected := (collectTree_eq_walk (db.ids.length + 1) [root]).trans walked
  simp only [getInstanceTree, collected, Option.map_some]

theorem runningAmong_eq_none :
    runningAmong db ids = none ↔ ∀ instanceId ∈ ids, db.store.currentStatus instanceId ≠ some .running := by
  simp only [runningAmong, List.find?_eq_none, Bool.and_eq_true, decide_eq_true_eq, beq_iff_eq, not_and]
  constructor
  · intro none instanceId named running
    obtain ⟨row, found, _⟩ := Option.bind_eq_some_iff.mp running
    exact none instanceId (db.listed instanceId row found) named running
  · intro none instanceId _ named
    exact none instanceId named

theorem orphanOf_eq_none :
    orphanOf db ids = none ↔ ∀ child parent, db.store.parentId child = some parent → parent ∈ ids → child ∈ ids := by
  simp only [orphanOf, List.findSome?_eq_none_iff]
  constructor
  · intro none child parent linked named
    have checked := none child (db.forest.listed child parent linked)
    simp only [linked, Option.bind_eq_bind, Option.bind_some] at checked
    by_contra orphan
    rw [if_pos ⟨named, orphan⟩] at checked
    cases checked
  · intro closed child _
    rcases linked : db.store.parentId child with _ | parent
    · rfl
    · simp only [Option.bind_eq_bind, Option.bind_some]
      apply if_neg
      rintro ⟨named, orphan⟩
      exact orphan (closed child parent linked named)

/-- A whole tree leaves no orphan. -/
theorem orphanOf_tree (tree : ∀ instanceId, instanceId ∈ ids ↔ db.forest.Below root instanceId) :
    orphanOf db ids = none := by
  apply orphanOf_eq_none.mpr
  intro child parent linked named
  exact (tree child).mpr (((tree parent).mp named).step linked)

/-- What a deletion by name does: nothing to delete, a refusal, or the deletion of all of them. -/
theorem deleteInstancesAtomic_cases (db : ListedStore) (ids : List String) (force : Bool) :
    ids = [] ∧ deleteInstancesAtomic db ids force = (.ok {}, db) ∨
      (∃ error, deleteInstancesAtomic db ids force = (.error error, db)) ∧
        ((force = false ∧ ∃ instanceId ∈ ids, db.store.currentStatus instanceId = some .running) ∨
          ∃ child parent, db.store.parentId child = some parent ∧ parent ∈ ids ∧ child ∉ ids) ∨
      deleteInstancesAtomic db ids force = (.ok (countDeleted db.store ids), db.deleteInstances ids) ∧
        (force = false → ∀ instanceId ∈ ids, db.store.currentStatus instanceId ≠ some .running) ∧
        ∀ child parent, db.store.parentId child = some parent → parent ∈ ids → child ∈ ids := by
  rcases ids with _ | ⟨first, rest⟩
  · exact .inl ⟨rfl, rfl⟩
  · generalize listed : first :: rest = ids
    have filled : ids.isEmpty = false := by
      subst listed
      rfl
    rcases running : (if force then none else runningAmong db ids) with _ | instanceId
    · have idle : force = false → ∀ instanceId ∈ ids, db.store.currentStatus instanceId ≠ some .running := by
        rintro rfl
        exact runningAmong_eq_none.mp running
      rcases orphan : orphanOf db ids with _ | ⟨child, parent⟩
      · refine .inr (.inr ⟨?_, idle, orphanOf_eq_none.mp orphan⟩)
        simp only [deleteInstancesAtomic, filled, running, orphan, Bool.false_eq_true, if_false]
      · right; left
        constructor
        · simp only [deleteInstancesAtomic, filled, running, orphan, Bool.false_eq_true, if_false]
          exact ⟨_, rfl⟩
        · right
          by_contra none
          push Not at none
          rw [orphanOf_eq_none.mpr none] at orphan
          cases orphan
    · right; left
      constructor
      · simp only [deleteInstancesAtomic, filled, running, Bool.false_eq_true, if_false]
        exact ⟨_, rfl⟩
      · left
        cases force with
        | true => cases running
        | false =>
          refine ⟨rfl, ?_⟩
          by_contra none
          push Not at none
          rw [if_neg Bool.false_ne_true, runningAmong_eq_none.mpr none] at running
          cases running

end ProviderAdmin

/-! ## Live work -/

/-- The current execution of an instance has neither completed nor failed. -/
structure Store.IsLive (store : Store) (instanceId : String) : Prop where
  present : (store.instances instanceId).isSome
  notCompleted : store.currentStatus instanceId ≠ some .completed
  notFailed : store.currentStatus instanceId ≠ some .failed

/-- An instance that is live without being `Running`: it was continued as new, or its current execution has no row. -/
structure Store.IsBetween (store : Store) (instanceId : String) : Prop where
  present : (store.instances instanceId).isSome
  status : store.currentStatus instanceId = some .continuedAsNew ∨ store.currentStatus instanceId = none

/-- No live instance is deleted. -/
def SparesLive (before after : Store) : Prop :=
  ∀ instanceId, before.IsLive instanceId → (after.instances instanceId).isSome

theorem Store.IsBetween.isLive {store : Store} {instanceId : String} (between : store.IsBetween instanceId) :
    store.IsLive instanceId where
  present := between.present
  notCompleted := by rcases between.status with status | status <;> simp [status]
  notFailed := by rcases between.status with status | status <;> simp [status]

theorem Store.IsLive.between {store : Store} {instanceId : String} (live : store.IsLive instanceId)
    (idle : store.currentStatus instanceId ≠ some .running) : store.IsBetween instanceId where
  present := live.present
  status := by
    rcases status : store.currentStatus instanceId with _ | (_ | _ | _ | _)
    · exact .inr rfl
    · exact absurd status idle
    · exact absurd status live.notCompleted
    · exact absurd status live.notFailed
    · exact .inl rfl

theorem SparesLive.refl (store : Store) : SparesLive store store := fun _ live => live.present

namespace ProviderAdmin

variable {db : ListedStore} {ids : List String}

/-- A deletion by name is refused for an instance that is running, or for a child that is not named. -/
def Refuses (db : ListedStore) (ids : List String) : Prop :=
  (∃ instanceId ∈ ids, db.store.currentStatus instanceId = some .running) ∨
    ∃ child parent, db.store.parentId child = some parent ∧ parent ∈ ids ∧ child ∉ ids

theorem sparesLive_atomic_iff :
    SparesLive db.store (deleteInstancesAtomic db ids false).2.store ↔
      Refuses db ids ∨ ∀ instanceId ∈ ids, ¬ db.store.IsBetween instanceId := by
  rcases deleteInstancesAtomic_cases db ids false with ⟨rfl, unchanged⟩ | ⟨⟨error, unchanged⟩, why⟩ | ⟨deleted, idle, closed⟩
  · rw [unchanged]
    exact iff_of_true (.refl db.store) (.inr (by simp))
  · rw [unchanged]
    refine iff_of_true (.refl db.store) ?_
    rcases why with ⟨_, running⟩ | orphan
    · exact .inl (.inl running)
    · exact .inl (.inr orphan)
  · rw [deleted]
    constructor
    · intro spares
      right
      intro instanceId named between
      have kept := spares instanceId between.isLive
      rw [ListedStore.deleted_of_mem named] at kept
      cases kept
    · rintro ((⟨other, named, running⟩ | ⟨child, parent, linked, named, unnamed⟩) | noneBetween) instanceId live
      · exact absurd running (idle rfl other named)
      · exact absurd (closed child parent linked named) unnamed
      · have unnamed : instanceId ∉ ids := fun named => noneBetween instanceId named (live.between (idle rfl instanceId named))
        rw [ListedStore.kept_of_not_mem unnamed]
        exact live.present

theorem parentless_of_matching {filter : InstanceFilter} {root : String} (matching : root ∈ matchingRoots db filter) :
    db.store.parentId root = none ∧ ∃ row, db.store.instances root = some row := by
  have picked := List.mem_of_mem_take matching
  simp only [List.mem_filter, Bool.and_eq_true, Option.any_eq_true] at picked
  obtain ⟨⟨⟨row, found, parentless⟩, _⟩, _⟩ := picked.2.1
  refine ⟨?_, row, found⟩
  simp only [Store.parentId, found, Option.bind_some]
  exact Option.isNone_iff_eq_none.mp parentless

/-- Roots without parents are deleted with everything below them, and nothing else is. -/
theorem deleteTrees_deletes {roots : List String} (distinct : roots.Nodup)
    (parentless : ∀ root ∈ roots, db.store.parentId root = none) (result : DeleteInstanceResult) :
    ∃ total after, deleteTrees db result roots = some (.ok total, after) ∧
      (∀ root ∈ roots, ∀ instanceId, db.forest.Below root instanceId → after.store.instances instanceId = none) ∧
      ∀ instanceId, (∀ root ∈ roots, ¬ db.forest.Below root instanceId) →
        after.store.instances instanceId = db.store.instances instanceId := by
  induction roots generalizing db result with
  | nil => exact ⟨result, db, rfl, by simp, fun _ _ => rfl⟩
  | cons root rest ih =>
    obtain ⟨unlisted, restDistinct⟩ := List.nodup_cons.mp distinct
    have rootParentless := parentless root List.mem_cons_self
    obtain ⟨tree, collected, isTree⟩ := getInstanceTree_root rootParentless
    have closed := orphanOf_tree isTree
    have filled : tree.allIds.isEmpty = false := by
      rcases ids : tree.allIds with _ | _
      · have rooted := (isTree root).mpr (.refl root)
        rw [ids] at rooted
        cases rooted
      · rfl
    have deleted : deleteInstancesAtomic db tree.allIds true =
        (.ok (countDeleted db.store tree.allIds), db.deleteInstances tree.allIds) := by
      simp only [deleteInstancesAtomic, filled, closed, Bool.false_eq_true, if_false, if_true]
    -- the other roots' trees lie apart, so this deletion leaves them as they are
    have apart : ∀ other ∈ rest, ∀ instanceId, db.forest.Below other instanceId → instanceId ∉ tree.allIds := by
      intro other waiting instanceId below named
      have same := Lib.Forest.Below.root_unique rootParentless (parentless other (List.mem_cons_of_mem root waiting))
        ((isTree instanceId).mp named) below
      exact unlisted (same ▸ waiting)
    have restParentless : ∀ other ∈ rest, (db.deleteInstances tree.allIds).store.parentId other = none := by
      intro other waiting
      rw [ListedStore.parentId_kept (apart other waiting other (.refl other))]
      exact parentless other (List.mem_cons_of_mem root waiting)
    have sameBelow : ∀ other ∈ rest, ∀ instanceId,
        (db.deleteInstances tree.allIds).forest.Below other instanceId ↔ db.forest.Below other instanceId := by
      intro other waiting instanceId
      apply Lib.Forest.below_congr
      · exact fun _ _ linked => ListedStore.parentId_of_deleteInstances linked
      · exact fun entry below => ListedStore.parentId_kept (apart other waiting entry below)
    obtain ⟨total, after, ran, gone, kept⟩ := ih restDistinct restParentless
      { instancesDeleted := result.instancesDeleted + tree.allIds.length
        executionsDeleted := result.executionsDeleted + (countDeleted db.store tree.allIds).executionsDeleted
        eventsDeleted := result.eventsDeleted + (countDeleted db.store tree.allIds).eventsDeleted
        queueMessagesDeleted := result.queueMessagesDeleted + (countDeleted db.store tree.allIds).queueMessagesDeleted }
    refine ⟨total, after, ?_, ?_, ?_⟩
    · simp only [deleteTrees, collected, deleted, Option.bind_eq_bind, Option.bind_some]
      exact ran
    · intro other listed instanceId below
      by_cases later : ∃ other ∈ rest, db.forest.Below other instanceId
      · obtain ⟨other, waiting, below⟩ := later
        exact gone other waiting instanceId ((sameBelow other waiting instanceId).mpr below)
      · push Not at later
        rw [kept instanceId fun other waiting below => later other waiting ((sameBelow other waiting instanceId).mp below)]
        rcases List.mem_cons.mp listed with rfl | waiting
        · exact ListedStore.deleted_of_mem ((isTree instanceId).mpr below)
        · exact absurd below (later other waiting)
    · intro instanceId outside
      rw [kept instanceId fun other waiting below =>
        outside other (List.mem_cons_of_mem root waiting) ((sameBelow other waiting instanceId).mp below)]
      exact ListedStore.kept_of_not_mem fun named => outside root List.mem_cons_self ((isTree instanceId).mp named)

/-- A bulk deletion deletes the trees of the roots that it picks. -/
theorem deleteInstanceBulk_deletes (db : ListedStore) (filter : InstanceFilter) :
    ∃ total after, deleteInstanceBulk db filter = some (.ok total, after) ∧
      (∀ root ∈ matchingRoots db filter, ∀ instanceId, db.forest.Below root instanceId →
        after.store.instances instanceId = none) ∧
      ∀ instanceId, (∀ root ∈ matchingRoots db filter, ¬ db.forest.Below root instanceId) →
        after.store.instances instanceId = db.store.instances instanceId := by
  unfold deleteInstanceBulk
  split_ifs with nothing
  · obtain ⟨none, given, empty⟩ := Option.any_eq_true _ _ |>.mp nothing
    obtain rfl := List.isEmpty_iff.mp empty
    have unmatched : matchingRoots db filter = [] := by simp [matchingRoots, given]
    rw [unmatched]
    exact ⟨{}, db, rfl, by simp, fun _ _ => rfl⟩
  · apply deleteTrees_deletes
    · exact (db.distinct.filter _).sublist (List.take_sublist _ _)
    · exact fun root matching => (parentless_of_matching matching).1

/-- A tree that a bulk deletion may pick without harm: its root is not waiting for its next execution, and every
other instance in it has completed or failed. -/
structure HasEnded (db : ListedStore) (root : String) : Prop where
  notContinued : db.store.currentStatus root ≠ some .continuedAsNew
  descendants : ∀ instanceId, db.forest.Below root instanceId → instanceId ≠ root →
    db.store.currentStatus instanceId = some .completed ∨ db.store.currentStatus instanceId = some .failed

/-- The tree of a picked root has ended exactly if nothing in it is live. -/
theorem hasEnded_iff {filter : InstanceFilter} {root : String} (matching : root ∈ matchingRoots db filter) :
    HasEnded db root ↔ ∀ instanceId, db.forest.Below root instanceId → ¬ db.store.IsLive instanceId := by
  obtain ⟨_, row, found⟩ := parentless_of_matching matching
  constructor
  · intro ended instanceId below live
    by_cases same : instanceId = root
    · subst same
      have picked := List.mem_of_mem_take matching
      simp only [List.mem_filter, Bool.and_eq_true, isPicked, List.mem_cons, List.not_mem_nil, or_false,
        decide_eq_true_eq] at picked
      rcases picked.2.1.1.2 with completed | failed | continued
      · exact live.notCompleted completed
      · exact live.notFailed failed
      · exact ended.notContinued continued
    · rcases ended.descendants instanceId below same with completed | failed
      · exact live.notCompleted completed
      · exact live.notFailed failed
  · intro noneLive
    constructor
    · intro continued
      apply noneLive root (.refl root)
      exact Store.IsBetween.isLive ⟨by rw [found]; rfl, .inl continued⟩
    · intro instanceId below _
      obtain ⟨row, present⟩ := ListedStore.exists_row_of_below found below
      by_contra unended
      push Not at unended
      exact noneLive instanceId below ⟨by rw [present]; rfl, unended.1, unended.2⟩

theorem sparesLive_bulk_iff (db : ListedStore) (filter : InstanceFilter) :
    ∃ answer after, deleteInstanceBulk db filter = some (answer, after) ∧
      (SparesLive db.store after.store ↔ ∀ root ∈ matchingRoots db filter, HasEnded db root) := by
  obtain ⟨total, after, ran, gone, kept⟩ := deleteInstanceBulk_deletes db filter
  refine ⟨.ok total, after, ran, ?_⟩
  constructor
  · intro spares root matching
    apply (hasEnded_iff matching).mpr
    intro instanceId below live
    have present := spares instanceId live
    rw [gone root matching instanceId below] at present
    cases present
  · intro ended instanceId live
    rw [kept instanceId fun root matching below => (hasEnded_iff matching).mp (ended root matching) instanceId below live]
    exact live.present

/-- A deletion by name without force spares live work exactly if it is refused or names nothing between two
executions, and a bulk deletion exactly if every tree that it picks has ended. -/
theorem sparesLive_iff (db : ListedStore) :
    (∀ ids, SparesLive db.store (deleteInstancesAtomic db ids false).2.store ↔
      Refuses db ids ∨ ∀ instanceId ∈ ids, ¬ db.store.IsBetween instanceId) ∧
    ∀ filter, ∃ answer after, deleteInstanceBulk db filter = some (answer, after) ∧
      (SparesLive db.store after.store ↔ ∀ root ∈ matchingRoots db filter, HasEnded db root) :=
  ⟨fun _ => sparesLive_atomic_iff, sparesLive_bulk_iff db⟩

/-- An instance that was continued as new, and the message that opens its next execution. -/
def continuedLoop : ListedStore where
  store :=
    { instances := fun instanceId =>
        if instanceId = "loop" then some
          { orchestrationName := "Loop", orchestrationVersion := some "1.0.0", currentExecutionId := 1
            parentInstanceId := none }
        else none
      executions := fun instanceId =>
        if instanceId = "loop" then AList.singleton 1 { status := .continuedAsNew, output := some "next" } else ∅
      orchestratorQueue :=
        [{ id := 2, instanceId := "loop", workItem := .continueAsNew "loop" "Loop" "next" none [] none, visibleAt := 0 }]
      nextOrchestratorId := 3 }
  ids := ["loop"]
  distinct := by decide
  listed := by
    intro instanceId row found
    dsimp only at found
    split_ifs at found with same
    simp [same]

/-- A completed orchestration whose child is still running. -/
def completedParent : ListedStore where
  store :=
    { instances := fun instanceId =>
        if instanceId = "order" then some
          { orchestrationName := "Order", orchestrationVersion := some "1.0.0", currentExecutionId := 1
            parentInstanceId := none }
        else if instanceId = "order::sub::2" then some
          { orchestrationName := "Payment", orchestrationVersion := some "1.0.0", currentExecutionId := 1
            parentInstanceId := some "order" }
        else none
      executions := fun instanceId =>
        if instanceId = "order" then AList.singleton 1 { status := .completed, output := some "done" }
        else if instanceId = "order::sub::2" then AList.singleton 1 {}
        else ∅ }
  ids := ["order", "order::sub::2"]
  distinct := by decide
  listed := by
    intro instanceId row found
    dsimp only at found
    split_ifs at found with same sub
    · simp [same]
    · simp [sub]

/-- The loop is deleted between two executions without force, and the running child with its parent in bulk. -/
theorem live_deleted :
    ¬ SparesLive continuedLoop.store (deleteInstancesAtomic continuedLoop ["loop"] false).2.store ∧
      ¬ SparesLive continuedLoop.store (((deleteInstanceBulk continuedLoop {}).map (·.2.store)).getD continuedLoop.store) ∧
      ¬ SparesLive completedParent.store
        (((deleteInstanceBulk completedParent {}).map (·.2.store)).getD completedParent.store) := by
  refine ⟨?_, ?_, ?_⟩
  · intro spares
    exact absurd (spares "loop" ⟨by decide, by decide, by decide⟩) (by decide)
  · intro spares
    exact absurd (spares "loop" ⟨by decide, by decide, by decide⟩) (by decide)
  · intro spares
    exact absurd (spares "order::sub::2" ⟨by decide, by decide, by decide⟩) (by decide)

end ProviderAdmin

end Duroxide
