import Duroxide.Model.System

/-! # Runtimes and the executions that they remember

Several runtimes share the database. Each remembers, for the instances it runs, an execution id, which is
noted when a turn that goes on enqueues an activity or a timer, is looked up when a child ends, and is
lost when the runtime restarts. A token belongs to the runtime that fetched under it.
-/

namespace Duroxide

variable {semver : Semver}

namespace Dispatcher

/-- The outcome of the turn that a dispatcher takes over an item, if it runs a handler. -/
def executedOutcome (env : RuntimeEnv semver) (item : OrchestrationItem) (attemptCount : Nat) : Option ExecutionOutcome :=
  if (pinnedVersion semver item.history).all env.supportedRange.contains && attemptCount ≤ env.maxAttempts &&
      item.historyError.isNone && !isTerminalFor (tempHistoryMgr item) (workitemReader item) &&
      (workitemReader item).hasOrchestrationName then
    resolveAndExecuteOrchestrationHandler env item.instanceId (turnExecution item).2 (workitemReader item)
      (turnExecution item).1 item.kvSnapshot
  else none

end Dispatcher

/-- Whether a turn looked up its own execution: for each activity and each timer that it enqueues. -/
def ExecutionOutcome.notesExecution (outcome : ExecutionOutcome) : Bool :=
  outcome.workerItems.any (fun | .activityExecute .. => true | _ => false) ||
    outcome.orchestratorItems.any fun | .timerFired .. => true | _ => false

/-- The execution that a decision notes for its instance. -/
def notedExecution (env : RuntimeEnv semver) (item : OrchestrationItem) (attemptCount : Nat) : Option (String × Nat) :=
  match Dispatcher.executedOutcome env item attemptCount with
  | some outcome => if outcome.notesExecution then some (item.instanceId, (Dispatcher.turnExecution item).1) else none
  | none => none

/-- The system with the executions that each runtime remembers. The turns that noted them, since the
runtime started and latest first, are only looked at in statements. -/
structure Cluster (semver : Semver) where
  world : World semver := {}
  executionIds : Nat → Execution.ExecutionIds := fun _ _ => none
  turns : Nat → List (String × Nat) := fun _ => []

inductive ClusterStep (semver : Semver) where
  | restart (runtime : Nat)
  | world (label : Step semver)

namespace Cluster

/-- The environment of a decision: its runtime looks executions up in its own table. -/
def envOf (home : Nat → Nat) (cluster : Cluster semver) (token : Nat) (env : RuntimeEnv semver) : RuntimeEnv semver :=
  { env with executionIds := cluster.executionIds (home token) }

/-- A runtime notes the execution of an instance. -/
def note (cluster : Cluster semver) (runtime : Nat) : Option (String × Nat) → Cluster semver
  | some (instanceId, executionId) =>
      { cluster with
        executionIds := Function.update cluster.executionIds runtime
          (Function.update (cluster.executionIds runtime) instanceId (some executionId))
        turns := Function.update cluster.turns runtime ((instanceId, executionId) :: cluster.turns runtime) }
  | none => cluster

def decide (home : Nat → Nat) (cluster : Cluster semver) (token : Nat) (env : RuntimeEnv semver) :
    Option (Cluster semver) := do
  let delivery ← cluster.world.deliveries token
  let env := cluster.envOf home token env
  let world ← cluster.world.decide token env
  some ({ cluster with world }.note (home token) (notedExecution env delivery.item delivery.attemptCount))

def step (home : Nat → Nat) (cluster : Cluster semver) : ClusterStep semver → Option (Cluster semver)
  | .restart runtime =>
      some { cluster with
        executionIds := Function.update cluster.executionIds runtime fun _ => none
        turns := Function.update cluster.turns runtime [] }
  | .world (.decide token env) => cluster.decide home token env
  | .world label => (cluster.world.step label).map fun world => { cluster with world }

/-- Run a list of steps. -/
def run (home : Nat → Nat) (cluster : Cluster semver) : List (ClusterStep semver) → Option (Cluster semver)
  | [] => some cluster
  | label :: rest => (cluster.step home label).bind (·.run home rest)

end Cluster

/-- The runtimes start with empty tables on an empty database. -/
def runtimes (semver : Semver) (home : Nat → Nat) : Lib.TransitionSystem (Cluster semver) (ClusterStep semver) where
  initial cluster := cluster = {}
  step source label target := source.step home label = some target

end Duroxide
