import Duroxide.Model.Event

/-! # Work items and actions

Work items are the messages of the two provider queues: the orchestrator queue of an instance and
the shared worker queue. Actions are the decisions that orchestration code emits while it is
polled; the replay engine gives each of them an event id.
-/

namespace Duroxide

inductive WorkItem where
  | startOrchestration (instanceId orchestration input : String) (version parentInstance : Option String)
      (parentId : Option Nat) (executionId : Nat)
  | activityExecute (instanceId : String) (executionId id : Nat) (name input : String)
      (sessionId tag : Option String)
  | activityCompleted (instanceId : String) (executionId id : Nat) (result : String)
  | activityFailed (instanceId : String) (executionId id : Nat) (details : ErrorDetails)
  | timerFired (instanceId : String) (executionId id fireAtMs : Nat)
  | externalRaised (instanceId name data : String)
  | subOrchCompleted (parentInstance : String) (parentExecutionId parentId : Nat) (result : String)
  | subOrchFailed (parentInstance : String) (parentExecutionId parentId : Nat) (details : ErrorDetails)
  | cancelInstance (instanceId reason : String)
  | continueAsNew (instanceId orchestration input : String) (version : Option String)
      (carryForwardEvents : List (String × String)) (initialCustomStatus : Option String)
  | queueMessage (instanceId name data : String)
deriving DecidableEq, Repr

/-- The instance whose orchestrator queue an item belongs to. -/
def WorkItem.targetInstance : WorkItem → String
  | .startOrchestration instanceId .. | .activityExecute instanceId .. | .activityCompleted instanceId ..
  | .activityFailed instanceId .. | .timerFired instanceId .. | .externalRaised instanceId ..
  | .cancelInstance instanceId .. | .continueAsNew instanceId .. | .queueMessage instanceId .. => instanceId
  | .subOrchCompleted parentInstance .. | .subOrchFailed parentInstance .. => parentInstance

/-- Start and continue-as-new items open an execution; every other item is a completion message. -/
def WorkItem.isStart : WorkItem → Bool
  | .startOrchestration .. | .continueAsNew .. => true
  | _ => false

/-- Names one scheduled activity in the worker queue. -/
structure ScheduledActivityIdentifier where
  instanceId : String
  executionId : Nat
  activityId : Nat
deriving DecidableEq, Repr

inductive Action where
  | callActivity (schedulingEventId : Nat) (name input : String) (sessionId tag : Option String)
  | createTimer (schedulingEventId fireAtMs : Nat)
  | waitExternal (schedulingEventId : Nat) (name : String)
  | startOrchestrationDetached (schedulingEventId : Nat) (name : String) (version : Option String)
      (instanceId input : String)
  | startSubOrchestration (schedulingEventId : Nat) (name : String) (version : Option String)
      (instanceId input : String)
  | continueAsNew (input : String) (version : Option String)
  | updateCustomStatus (status : Option String)
  | dequeueEvent (schedulingEventId : Nat) (name : String)
  | setKeyValue (key value : String) (lastUpdatedAtMs : Nat)
  | clearKeyValue (key : String)
  | clearKeyValues
deriving DecidableEq, Repr

/-- What a durable operation delivers to its future. -/
inductive CompletionResult where
  | activityOk (result : String)
  | activityErr (message : String)
  | timerFired
  | subOrchOk (result : String)
  | subOrchErr (message : String)
  | externalData (data : String)
deriving DecidableEq, Repr

/-- What a durable future stands for; decides what dropping it cancels. -/
inductive ScheduleKind where
  | activity (name : String)
  | timer
  | externalWait (eventName : String)
  | queueDequeue (eventName : String)
  | subOrchestration (token : Nat)
deriving DecidableEq, Repr

end Duroxide
