import Duroxide.Lib.DepthFirst
import Duroxide.Model.Provider
import Mathlib.Algebra.GroupWithZero.Nat

/-! # Administration: deleting instances

The hierarchy primitives and the deletions of `ProviderAdmin`, each as its effect on a database that
reports no error. A query meets the rows of the instances table in some order, which is kept beside the
store; the time at which the current execution of an instance ended is a column that nothing else reads.
An error undoes the transaction it occurs in, so every call returns the store that it leaves.
-/

namespace Duroxide

/-- A store, with the order in which queries meet the rows of its instances table. -/
structure ListedStore where
  store : Store
  ids : List String
  completedAt : String → Option Int := fun _ => none
  distinct : ids.Nodup
  listed : ∀ instanceId row, store.instances instanceId = some row → instanceId ∈ ids

/-- The status of the current execution of an instance; none without a row of either table. -/
def Store.currentStatus (store : Store) (instanceId : String) : Option ExecutionStatus := do
  let info ← store.instances instanceId
  let execution ← (store.executions instanceId).lookup info.currentExecutionId
  return execution.status

def Store.parentId (store : Store) (instanceId : String) : Option String :=
  (store.instances instanceId).bind (·.parentInstanceId)

structure InstanceTree where
  rootId : String
  allIds : List String
deriving DecidableEq, Repr

structure DeleteInstanceResult where
  instancesDeleted : Nat := 0
  executionsDeleted : Nat := 0
  eventsDeleted : Nat := 0
  queueMessagesDeleted : Nat := 0
deriving DecidableEq, Repr

structure InstanceFilter where
  instanceIds : Option (List String) := none
  completedBefore : Option Nat := none
  limit : Option Nat := none
deriving DecidableEq, Repr

def DEFAULT_BULK_OPERATION_LIMIT : Nat := 1000

namespace ListedStore

/-- The store after the rows of some instances were deleted. -/
def deleteInstances (db : ListedStore) (ids : List String) : ListedStore :=
  { db with
    store := db.store.deleteInstances ids
    listed := by
      intro instanceId row found
      simp only [Store.deleteInstances] at found
      split_ifs at found
      exact db.listed instanceId row found }

end ListedStore

namespace ProviderAdmin

/-- What a call returns, and the store that it leaves. -/
abbrev Answer := Except ProviderError DeleteInstanceResult × ListedStore

/-! ## Hierarchy primitives -/

def listChildren (db : ListedStore) (instanceId : String) : List String :=
  db.ids.filter fun child => db.store.parentId child == some instanceId

def getParentId (db : ListedStore) (instanceId : String) : Except ProviderError (Option String) :=
  match db.store.instances instanceId with
  | some row => .ok row.parentInstanceId
  | none => .error (.makePermanent "get_parent_id" ("Instance " ++ instanceId ++ " not found"))

/-- The first of some instances that is running. -/
def runningAmong (db : ListedStore) (ids : List String) : Option String :=
  db.ids.find? fun instanceId => instanceId ∈ ids && db.store.currentStatus instanceId == some .running

/-- The first instance whose parent is among some instances and which is not, with its parent. -/
def orphanOf (db : ListedStore) (ids : List String) : Option (String × String) :=
  db.ids.findSome? fun child => do
    let parent ← db.store.parentId child
    if parent ∈ ids ∧ child ∉ ids then some (child, parent) else none

/-- The rows that a deletion counts before it deletes them. Events lie under an execution row. -/
def countDeleted (store : Store) (ids : List String) : DeleteInstanceResult where
  instancesDeleted := ids.length
  executionsDeleted := (ids.eraseDups.map fun instanceId => (store.executions instanceId).entries.length).sum
  eventsDeleted := (ids.eraseDups.map fun instanceId =>
    ((store.executions instanceId).keys.map fun executionId => (store.history instanceId executionId).rows.length).sum).sum
  queueMessagesDeleted := (store.orchestratorQueue.filter (·.instanceId ∈ ids)).length +
    (store.workerQueue.filter fun row => row.identity.any (·.instanceId ∈ ids)).length

def deleteInstancesAtomic (db : ListedStore) (ids : List String) (force : Bool) : Answer :=
  if ids.isEmpty then (.ok {}, db)
  else
    match if force then none else runningAmong db ids with
    | some instanceId =>
        (.error (.makePermanent "delete_instances_atomic" ("Instance " ++ instanceId ++
          " is still running. Use force=true to delete anyway, or cancel first.")), db)
    | none =>
        match orphanOf db ids with
        | some (orphanId, parentId) =>
            (.error (.makePermanent "delete_instances_atomic" ("Cannot delete: instance " ++ parentId ++ " has child " ++
              orphanId ++ " that was created after tree traversal. Re-fetch the tree and retry.")), db)
        | none => (.ok (countDeleted db.store ids), db.deleteInstances ids)

/-! ## Deleting the instance rows one by one

`leaf_first_instance_delete`, which replaces the bulk deletion of the instance rows where that is rejected.
-/

/-- `SELECT instance_id, parent_instance_id FROM instances WHERE instance_id IN (..)`. -/
def relRows (db : ListedStore) (ids : List String) : List (String × Option String) :=
  db.ids.filterMap fun instanceId =>
    if instanceId ∈ ids then (db.store.instances instanceId).map fun row => (instanceId, row.parentInstanceId) else none

/-- `children_by_parent.entry(parent_id).or_default().push(instance_id)`, for a row whose parent is among the ids. -/
def pushChild (ids : List String) (childrenByParent : String → List String) :
    String × Option String → String → List String
  | (_, none) => childrenByParent
  | (instanceId, some parentId) =>
      if parentId ∈ ids then Function.update childrenByParent parentId (childrenByParent parentId ++ [instanceId])
      else childrenByParent

/-- A key that the map lacks has no children. -/
def childrenByParent (ids : List String) (relRows : List (String × Option String)) : String → List String :=
  relRows.foldl (pushChild ids) fun _ => []

/-- The recursion over the visited set and the order built so far; none when the fuel runs out. -/
def pushInstanceDeleteOrder (childrenByParent : String → List String) :
    Nat → Lib.Search String → String → Option (Lib.Search String)
  | 0, _, _ => none
  | fuel + 1, ⟨visited, order⟩, instanceId =>
      if instanceId ∈ visited then some ⟨visited, order⟩
      else do
        let ⟨visited, order⟩ ← (childrenByParent instanceId).foldlM (pushInstanceDeleteOrder childrenByParent fuel)
          ⟨instanceId :: visited, order⟩
        return ⟨visited, order ++ [instanceId]⟩

/-- The order in which the rows are deleted, with as much fuel as there are ids and one more. -/
def instanceDeleteOrder (db : ListedStore) (ids : List String) : Option (List String) :=
  (ids.foldlM (pushInstanceDeleteOrder (childrenByParent ids (relRows db ids)) (ids.length + 1)) ⟨[], []⟩).map (·.order)

/-- `DELETE FROM instances WHERE instance_id = ?`; none when a row that stays refers to the deleted one, which
the foreign key of the parent column rejects. -/
def deleteInstanceRow (rows : String → Option InstanceRow) (instanceId : String) (listed : List String) :
    Option (String → Option InstanceRow) :=
  if listed.any fun child => child != instanceId && (rows child).any (·.parentInstanceId == some instanceId) then none
  else some (Function.update rows instanceId none)

/-- Delete the rows of some instances one by one. -/
def leafFirstInstanceDelete (db : ListedStore) (ids : List String) : Option (String → Option InstanceRow) := do
  let order ← instanceDeleteOrder db ids
  order.foldlM (fun rows instanceId => deleteInstanceRow rows instanceId db.ids) db.store.instances

/-! ## Hierarchy composites -/

/-- `while let Some(parent_id) = to_process.pop()`: the worklist is kept with its end first. None when the
fuel runs out. -/
def collectTree (db : ListedStore) : Nat → List String → Option (List String)
  | _, [] => some []
  | 0, _ :: _ => none
  | fuel + 1, parentId :: toProcess =>
      (collectTree db fuel ((listChildren db parentId).reverse ++ toProcess)).map (parentId :: ·)

/-- An instance and everything below it; none when the traversal does not end. -/
def getInstanceTree (db : ListedStore) (instanceId : String) : Option InstanceTree :=
  (collectTree db (db.ids.length + 1) [instanceId]).map (⟨instanceId, ·⟩)

def deleteInstance (db : ListedStore) (instanceId : String) (force : Bool) : Option Answer :=
  match getParentId db instanceId with
  | .error error => some (.error error, db)
  | .ok (some _) =>
      some (.error (.makePermanent "delete_instance" ("Cannot delete sub-orchestration " ++ instanceId ++
        " directly. Delete root instance instead.")), db)
  | .ok none => (getInstanceTree db instanceId).map fun tree => deleteInstancesAtomic db tree.allIds force

/-! ## Bulk deletion -/

/-- `e.status IN ('Completed', 'Failed', 'ContinuedAsNew')`. -/
def isPicked (status : Option ExecutionStatus) : Bool :=
  status ∈ [some .completed, some .failed, some .continuedAsNew]

/-- The root instances that match a filter, as many as it allows. -/
def matchingRoots (db : ListedStore) (filter : InstanceFilter) : List String :=
  (db.ids.filter fun instanceId =>
    (db.store.instances instanceId).any (·.parentInstanceId.isNone) && isPicked (db.store.currentStatus instanceId) &&
      (filter.instanceIds.all fun ids => instanceId ∈ ids) &&
      (filter.completedBefore.all fun before => (db.completedAt instanceId).any (· < asI64 before))).take
    (filter.limit.getD DEFAULT_BULK_OPERATION_LIMIT)

/-- Delete the tree of each root in turn; the first error ends the call. -/
def deleteTrees (db : ListedStore) (result : DeleteInstanceResult) : List String → Option Answer
  | [] => some (.ok result, db)
  | instanceId :: rest => do
      let tree ← getInstanceTree db instanceId
      match deleteInstancesAtomic db tree.allIds true with
      | (.error error, after) => some (.error error, after)
      | (.ok deleted, after) =>
          deleteTrees after
            { instancesDeleted := result.instancesDeleted + tree.allIds.length
              executionsDeleted := result.executionsDeleted + deleted.executionsDeleted
              eventsDeleted := result.eventsDeleted + deleted.eventsDeleted
              queueMessagesDeleted := result.queueMessagesDeleted + deleted.queueMessagesDeleted } rest

/-- An empty list of instances matches nothing. -/
def deleteInstanceBulk (db : ListedStore) (filter : InstanceFilter) : Option Answer :=
  if filter.instanceIds.any (·.isEmpty) then some (.ok {}, db) else deleteTrees db {} (matchingRoots db filter)

end ProviderAdmin

end Duroxide
