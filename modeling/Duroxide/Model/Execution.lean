import Duroxide.Model.History
import Duroxide.Model.ReplayEngine

/-! # One atomic execution step

`runSingleExecutionAtomic` runs the replay engine on a batch and turns its result into history events
and work items. Terminal results also record what is still outstanding; continue-as-new carries the
queue messages forward that no subscription of this execution consumed.
-/

namespace Duroxide

/-- Maximum number of unmatched persistent events carried across a continue-as-new boundary. -/
def MAX_CARRY_FORWARD_EVENTS : Nat := 100

/-- The history, the items for both queues and the cancelled activities of one turn. -/
structure ExecutionOutcome where
  historyMgr : HistoryManager
  workerItems : List WorkItem := []
  orchestratorItems : List WorkItem := []
  cancelledActivities : List ScheduledActivityIdentifier := []

namespace Execution

def isQueueEventDelivered : Event → Option (String × String)
  | ⟨_, _, _, _, _, _, .queueEventDelivered name data⟩ => some (name, data)
  | _ => none

def isQueueSubscribed : Event → Option (Nat × String)
  | ⟨eventId, _, _, _, _, _, .queueSubscribed name⟩ => some (eventId, name)
  | _ => none

def isQueueCancelled : Event → Option Nat
  | ⟨_, source, _, _, _, _, .queueSubscriptionCancelled _⟩ => source
  | _ => none

/-- The persistent subscriptions of a history that no breadcrumb cancels. -/
def activeQueueSubs (history : List Event) : List (Nat × String) :=
  let cancelledIds := history.filterMap isQueueCancelled
  (history.filterMap isQueueSubscribed).filter fun sub => sub.1 ∉ cancelledIds

def activeSubsByName (history : List Event) (name : String) : Nat :=
  (activeQueueSubs history).countP fun sub => sub.2 == name

/-- Walk arrivals in order: each name's first `active` arrivals count as consumed. -/
def unmatchedFrom (active consumed : String → Nat) : List (String × String) → List (String × String)
  | [] => []
  | (name, data) :: rest =>
      if consumed name < active name then
        unmatchedFrom active (Function.update consumed name (consumed name + 1)) rest
      else (name, data) :: unmatchedFrom active consumed rest

/-- Collect unmatched persistent events from history, in history order. -/
def collectUnmatchedQueueMessages (history : List Event) : List (String × String) :=
  unmatchedFrom (activeSubsByName history) (fun _ => 0) (history.filterMap isQueueEventDelivered)

/-- The last custom status written in a history. -/
def computeAccumulatedCustomStatus (history : List Event) : Option String :=
  history.foldl (fun status event =>
    match event.kind with
    | .orchestrationStarted _ _ _ _ _ _ (some initial) => some initial
    | .customStatusUpdated updated => updated
    | _ => status) none

/-- Schedules without a resolution or a cancellation. -/
structure OutstandingSchedules where
  subOrchestrations : List (Nat × String)
  positionalSubscriptions : List Nat
  queueSubscriptions : List Nat

/-- Positional matching over a history: pending subscriptions in order, and the resolved ones. -/
structure PositionalMatch where
  pending : List (String × Nat) := []
  resolved : List Nat := []

def PositionalMatch.step (matching : PositionalMatch) (event : Event) : PositionalMatch :=
  match event.kind with
  | .externalSubscribed name => { matching with pending := matching.pending ++ [(name, event.eventId)] }
  | .externalEvent name _ =>
      match matching.pending.find? (·.1 == name) with
      | some (_, id) => ⟨matching.pending.eraseP (·.1 == name), matching.resolved ++ [id]⟩
      | none => matching
  | .externalSubscribedCancelled _ =>
      match event.sourceEventId with
      | some source => { matching with pending := matching.pending.filter (·.2 != source) }
      | none => matching
  | _ => matching

/-- The subscriptions that an arrival of their name was counted for, in subscription order. -/
def resolvedQueueFrom (available consumed : String → Nat) : List (Nat × String) → List Nat
  | [] => []
  | (id, name) :: rest =>
      if consumed name < available name then
        id :: resolvedQueueFrom available (Function.update consumed name (consumed name + 1)) rest
      else resolvedQueueFrom available consumed rest

def getOutstandingScheduleIds (history : List Event) : OutstandingSchedules :=
  let resolvedSubOrchs := HistoryManager.sourcesOf history fun
    | .subOrchestrationCompleted _ | .subOrchestrationFailed _ => true | _ => false
  let cancelledSubOrchs := HistoryManager.sourcesOf history fun
    | .subOrchestrationCancelRequested _ => true | _ => false
  let cancelledPositional := HistoryManager.sourcesOf history fun
    | .externalSubscribedCancelled _ => true | _ => false
  let resolvedPositional := (history.foldl PositionalMatch.step {}).resolved
  let cancelledPersistent := history.filterMap isQueueCancelled
  let available name := (history.filterMap isQueueEventDelivered).countP fun arrival => arrival.1 == name
  let resolvedPersistent := resolvedQueueFrom available (fun _ => 0) (activeQueueSubs history)
  { subOrchestrations := history.filterMap fun event =>
      match event.kind with
      | .subOrchestrationScheduled _ child _ =>
          if event.eventId ∉ resolvedSubOrchs && event.eventId ∉ cancelledSubOrchs then some (event.eventId, child)
          else none
      | _ => none
    positionalSubscriptions := history.filterMap fun event =>
      match event.kind with
      | .externalSubscribed _ =>
          if event.eventId ∉ resolvedPositional && event.eventId ∉ cancelledPositional then some event.eventId
          else none
      | _ => none
    queueSubscriptions := ((history.filterMap isQueueSubscribed).map (·.1)).filter fun id =>
      id ∉ resolvedPersistent && id ∉ cancelledPersistent }

def orchestrationTerminal : String := "orchestration_terminal"

/-- Record one terminal breadcrumb for each outstanding schedule of a kind. -/
def emitBreadcrumbs (stamp : Stamp) (instanceId : String) (executionId : Nat) (kind : EventKind)
    (manager : HistoryManager) (ids : List Nat) : HistoryManager :=
  ids.foldl (fun manager id =>
    manager.append (Event.withEventId stamp manager.nextEventId instanceId executionId (some id) kind)) manager

def emitTerminalCancellationBreadcrumbs (stamp : Stamp) (manager : HistoryManager) (instanceId : String)
    (executionId : Nat) (outstanding : OutstandingSchedules) : HistoryManager :=
  let manager := emitBreadcrumbs stamp instanceId executionId
    (.externalSubscribedCancelled orchestrationTerminal) manager outstanding.positionalSubscriptions
  emitBreadcrumbs stamp instanceId executionId
    (.queueSubscriptionCancelled orchestrationTerminal) manager outstanding.queueSubscriptions

/-- Detached starts are honored at terminal results; other pending actions are ignored there. -/
def detachedStart : Action → Option WorkItem
  | .startOrchestrationDetached _ name version target input =>
      some (.startOrchestration target name input version none none INITIAL_EXECUTION_ID)
  | _ => none

/-- The worker queue item of an action. -/
def workerItem (instanceId : String) (executionId : Nat) : Action → Option WorkItem
  | .callActivity id name input sessionId tag =>
      some (.activityExecute instanceId executionId id name input sessionId tag)
  | _ => none

/-- The orchestrator queue item of an action. -/
def orchestratorItem (instanceId : String) (executionId : Nat) : Action → Option WorkItem
  | .createTimer id fireAtMs => some (.timerFired instanceId executionId id fireAtMs)
  | .startSubOrchestration id name version child input =>
      some (.startOrchestration (buildChildInstanceId instanceId child) name input version (some instanceId)
        (some id) INITIAL_EXECUTION_ID)
  | action => detachedStart action

/-- What the runtime knows about executions it has run itself. -/
abbrev ExecutionIds := String → Option Nat

def getExecutionIdForInstance (executionIds : ExecutionIds) (instanceId : String) : Nat :=
  (executionIds instanceId).getD INITIAL_EXECUTION_ID

def notifyParent (executionIds : ExecutionIds) (parentLink : Option (String × Nat))
    (item : String → Nat → Nat → WorkItem) : List WorkItem :=
  match parentLink with
  | some (parentInstance, parentId) =>
      [item parentInstance (getExecutionIdForInstance executionIds parentInstance) parentId]
  | none => []

/-- Materialize the result of a turn; the manager already holds the turn's events. -/
def applyTurnResult (stamp : Stamp) (executionIds : ExecutionIds) (instanceId orchestrationName : String)
    (executionId : Nat) (manager : HistoryManager) (parentLink : Option (String × Nat))
    (pendingActions : List Action) : TurnResult → ExecutionOutcome
  | .continue =>
      { historyMgr := manager
        workerItems := pendingActions.filterMap (workerItem instanceId executionId)
        orchestratorItems := pendingActions.filterMap (orchestratorItem instanceId executionId) }
  | .completed output =>
      let ended := emitTerminalCancellationBreadcrumbs stamp manager instanceId executionId
        (getOutstandingScheduleIds manager.fullHistory)
      { historyMgr := ended.append (Event.withEventId stamp ended.nextEventId instanceId executionId none
          (.orchestrationCompleted output))
        orchestratorItems := pendingActions.filterMap detachedStart ++
          notifyParent executionIds parentLink (.subOrchCompleted · · · output) }
  | .failed details =>
      let ended := emitTerminalCancellationBreadcrumbs stamp manager instanceId executionId
        (getOutstandingScheduleIds manager.fullHistory)
      { historyMgr := ended.appendFailed stamp details
        orchestratorItems := pendingActions.filterMap detachedStart ++
          notifyParent executionIds parentLink (.subOrchFailed · · · details) }
  | .continueAsNew input version =>
      -- Matching happens before the terminal breadcrumbs, which would change it.
      let unmatched := collectUnmatchedQueueMessages manager.fullHistory
      let ended := emitTerminalCancellationBreadcrumbs stamp manager instanceId executionId
        (getOutstandingScheduleIds manager.fullHistory)
      let ended := ended.append (Event.withEventId stamp ended.nextEventId instanceId executionId none
        (.orchestrationContinuedAsNew input))
      { historyMgr := ended
        orchestratorItems := [.continueAsNew instanceId orchestrationName input version
          (unmatched.take MAX_CARRY_FORWARD_EVENTS) (computeAccumulatedCustomStatus ended.fullHistory)] }
  | .cancelled reason =>
      let details : ErrorDetails := .application (.cancelled reason) "" false
      let outstanding := getOutstandingScheduleIds manager.fullHistory
      let ended := emitTerminalCancellationBreadcrumbs stamp manager instanceId executionId outstanding
      { historyMgr := ended.appendFailed stamp details
        orchestratorItems := outstanding.subOrchestrations.map (fun child =>
            .cancelInstance (buildChildInstanceId instanceId child.2) "parent canceled") ++
          notifyParent executionIds parentLink (.subOrchFailed · · · details) }

/-- The engine of a turn, with the batch's completions prepared. -/
def prepareTurn (stamp : Stamp) (instanceId : String) (executionId : Nat) (manager : HistoryManager)
    (reader : WorkItemReader) (kvSnapshot : AList (fun _ : String => KvEntry)) : ReplayEngine :=
  ((((ReplayEngine.new stamp instanceId executionId manager.fullHistory).withPersistedHistoryLen
    manager.originalLen).withKvSnapshot kvSnapshot).prepCompletions reader.completionMessages)

def runSingleExecutionAtomic (stamp : Stamp) (executionIds : ExecutionIds) (instanceId : String)
    (manager : HistoryManager) (reader : WorkItemReader) (executionId : Nat) (handler : OrchestrationHandler)
    (orchestrationVersion : String) (kvSnapshot : AList (fun _ : String => KvEntry)) : ExecutionOutcome :=
  let (input, parentLink) := manager.extractContext
  let turn := prepareTurn stamp instanceId executionId manager reader kvSnapshot
  let (result, turn) := turn.executeOrchestration handler input reader.orchestrationName orchestrationVersion
  let outcome := applyTurnResult stamp executionIds instanceId reader.orchestrationName executionId
    (manager.extend turn.historyDelta) parentLink turn.pendingActions result
  { outcome with
    cancelledActivities := turn.cancelledActivityIds.map fun id => ⟨instanceId, executionId, id⟩
    orchestratorItems := outcome.orchestratorItems ++ turn.cancelledSubOrchestrationIds.map fun child =>
      .cancelInstance (buildChildInstanceId instanceId child) "parent dropped sub-orchestration future" }

end Execution

end Duroxide
