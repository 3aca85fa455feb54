import Duroxide.Lib.Sql
import Duroxide.Model.Admin
import Duroxide.Model.System

/-! # Administration: pruning executions

`prune_executions` and its bulk form. A call reads the current execution of the instance, then the
executions to delete, and then deletes them in a transaction of its own, so the three parts are kept
apart: other calls may come between them. `completedAt` is the column of the executions table that
nothing else reads; an execution without a value there has not ended.
-/

namespace Duroxide

structure PruneOptions where
  keepLast : Option Nat := none
  completedBefore : Option Nat := none
deriving DecidableEq, Repr

structure PruneResult where
  instancesProcessed : Nat := 0
  executionsDeleted : Nat := 0
  eventsDeleted : Nat := 0
deriving DecidableEq, Repr

/-- Ended executions, by instance and execution. -/
abbrev CompletedAt := String → Nat → Option Int

namespace Store

/-- `DELETE FROM history WHERE instance_id = ? AND execution_id = ?`. -/
def deleteHistory (store : Store) (instanceId : String) (executionId : Nat) : Store :=
  { store with
    history := Function.update store.history instanceId
      (Function.update (store.history instanceId) executionId .empty) }

def deleteExecution (store : Store) (instanceId : String) (executionId : Nat) : Store :=
  store.updateExecutions instanceId fun rows => Lib.KeyedTable.deleteWhere rows fun id _ => id == executionId

end Store

namespace ProviderAdmin

/-- `SELECT execution_id FROM executions WHERE instance_id = ? ORDER BY execution_id DESC LIMIT n`. -/
def lastExecutions (store : Store) (instanceId : String) (limit : Nat) : List Nat :=
  Lib.Sql.highest limit (store.executions instanceId).keys

/-- The conditions of the query, joined by `AND`. -/
def isPruned (store : Store) (completedAt : CompletedAt) (instanceId : String) (currentExecutionId : Nat)
    (options : PruneOptions) (executionId : Nat) (execution : ExecutionRow) : Bool :=
  executionId != currentExecutionId && execution.status != .running &&
    (options.keepLast.all fun keepLast => executionId ∉ lastExecutions store instanceId keepLast) &&
    options.completedBefore.all fun before => (completedAt instanceId executionId).any (· < asI64 before)

def readCurrentExecution (store : Store) (instanceId : String) : Except ProviderError Nat :=
  match store.instances instanceId with
  | some info => .ok info.currentExecutionId
  | none => .error (.makePermanent "prune_executions" ("Instance " ++ instanceId ++ " not found"))

def executionsToPrune (store : Store) (completedAt : CompletedAt) (instanceId : String) (currentExecutionId : Nat)
    (options : PruneOptions) : List Nat :=
  ((store.executions instanceId).entries.filter fun entry =>
    isPruned store completedAt instanceId currentExecutionId options entry.1 entry.2).map (·.1)

/-- Count the events of an execution, and delete them and the execution. -/
def pruneExecution (instanceId : String) (progress : PruneResult × Store) (executionId : Nat) : PruneResult × Store :=
  let (result, store) := progress
  ({ result with
      executionsDeleted := result.executionsDeleted + 1
      eventsDeleted := result.eventsDeleted + (store.history instanceId executionId).rows.length },
    (store.deleteHistory instanceId executionId).deleteExecution instanceId executionId)

/-- The transaction; without executions it is not begun. -/
def deleteExecutions (store : Store) (instanceId : String) (executionIds : List Nat) : PruneResult × Store :=
  if executionIds.isEmpty then ({ instancesProcessed := 1 }, store)
  else executionIds.foldl (pruneExecution instanceId) ({ instancesProcessed := 1 }, store)

/-- The call, with nothing between its parts. -/
def pruneExecutions (store : Store) (completedAt : CompletedAt) (instanceId : String) (options : PruneOptions) :
    Except ProviderError PruneResult × Store :=
  match readCurrentExecution store instanceId with
  | .error error => (.error error, store)
  | .ok currentExecutionId =>
      let (result, after) := deleteExecutions store instanceId
        (executionsToPrune store completedAt instanceId currentExecutionId options)
      (.ok result, after)

/-- The instances that match a filter, whatever their status. -/
def instancesToPrune (db : ListedStore) (completedAt : CompletedAt) (filter : InstanceFilter) : List String :=
  (db.ids.filter fun instanceId =>
    (db.store.instances instanceId).any fun info =>
      (filter.instanceIds.all fun ids => instanceId ∈ ids) &&
        filter.completedBefore.all fun before =>
          ((db.store.executions instanceId).lookup info.currentExecutionId).isSome &&
            (completedAt instanceId info.currentExecutionId).any (· < asI64 before)).take
    (filter.limit.getD DEFAULT_BULK_OPERATION_LIMIT)

/-- Prune each instance in turn; the first error ends the call. -/
def pruneInstances (completedAt : CompletedAt) (options : PruneOptions) (result : PruneResult) (store : Store) :
    List String → Except ProviderError PruneResult × Store
  | [] => (.ok result, store)
  | instanceId :: rest =>
      match pruneExecutions store completedAt instanceId options with
      | (.error error, after) => (.error error, after)
      | (.ok single, after) =>
          pruneInstances completedAt options
            { instancesProcessed := result.instancesProcessed + single.instancesProcessed
              executionsDeleted := result.executionsDeleted + single.executionsDeleted
              eventsDeleted := result.eventsDeleted + single.eventsDeleted } after rest

def pruneExecutionsBulk (db : ListedStore) (completedAt : CompletedAt) (filter : InstanceFilter)
    (options : PruneOptions) : Except ProviderError PruneResult × Store :=
  if filter.instanceIds.any (·.isEmpty) then (.ok {}, db.store)
  else pruneInstances completedAt options {} db.store (instancesToPrune db completedAt filter)

end ProviderAdmin

/-! ## Prune calls beside the system

Any number of prune calls run beside dispatchers, workers and clients, each at its own pace.
-/

/-- How far a prune call got. -/
inductive PrunePhase where
  | called (instanceId : String) (options : PruneOptions)
  | current (instanceId : String) (options : PruneOptions) (currentExecutionId : Nat)
  | selected (instanceId : String) (executionIds : List Nat)
  | returned (result : Except ProviderError PruneResult)

structure PruningWorld (semver : Semver) where
  world : World semver := {}
  calls : Nat → Option PrunePhase := fun _ => none

inductive PruningStep (semver : Semver) where
  | world (label : Step semver)
  | call (id : Nat) (instanceId : String) (options : PruneOptions)
  | readCurrent (id : Nat)
  | select (id : Nat) (completedAt : CompletedAt)
  | delete (id : Nat)

/-- A step that is not about a prune call. -/
def PruningStep.label? {semver : Semver} : PruningStep semver → Option (Step semver)
  | .world label => some label
  | _ => none

namespace PruningWorld

variable {semver : Semver}

def setCall (state : PruningWorld semver) (id : Nat) (phase : PrunePhase) : PruningWorld semver :=
  { state with calls := Function.update state.calls id (some phase) }

def step (state : PruningWorld semver) : PruningStep semver → Option (PruningWorld semver)
  | .world label => (state.world.step label).map fun world => { state with world }
  | .call id instanceId options => if (state.calls id).isNone then some (state.setCall id (.called instanceId options)) else none
  | .readCurrent id =>
      match state.calls id with
      | some (.called instanceId options) =>
          match ProviderAdmin.readCurrentExecution state.world.store instanceId with
          | .error error => some (state.setCall id (.returned (.error error)))
          | .ok currentExecutionId => some (state.setCall id (.current instanceId options currentExecutionId))
      | _ => none
  | .select id completedAt =>
      match state.calls id with
      | some (.current instanceId options currentExecutionId) =>
          some (state.setCall id (.selected instanceId
            (ProviderAdmin.executionsToPrune state.world.store completedAt instanceId currentExecutionId options)))
      | _ => none
  | .delete id =>
      match state.calls id with
      | some (.selected instanceId executionIds) =>
          let (result, store) := ProviderAdmin.deleteExecutions state.world.store instanceId executionIds
          some ({ state with world := { state.world with store } }.setCall id (.returned (.ok result)))
      | _ => none

/-- The instance of a call did not continue as new between the two reads of the call. -/
def readsTogether (state : PruningWorld semver) : PruningStep semver → Bool
  | .select id _ =>
      match state.calls id with
      | some (.current instanceId _ currentExecutionId) =>
          (state.world.store.instances instanceId).all (·.currentExecutionId == currentExecutionId)
      | _ => true
  | _ => true

end PruningWorld

end Duroxide
