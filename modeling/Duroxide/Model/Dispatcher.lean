import Duroxide.Model.Execution
import Duroxide.Model.Registry
import Mathlib.Algebra.Group.Nat.Defs

/-! # The orchestration dispatcher

What a dispatcher does with one fetched item, as a decision: give the item back with a delay, or
acknowledge it with changes. An acknowledgement that fails may be followed by one that commits an
infrastructure failure. The runtime-side version check comes before everything else; metrics and
logging are left out.
-/

namespace Duroxide

structure ProviderError where
  operation : String
  message : String
  retryable : Bool
deriving DecidableEq, Repr

namespace ProviderError

def isRetryable (error : ProviderError) : Bool := error.retryable

def toInfrastructureError (error : ProviderError) : ErrorDetails :=
  .infrastructure error.operation error.message error.retryable

end ProviderError

/-- The states of an execution row. -/
inductive ExecutionStatus where
  | running
  | completed
  | failed
  | continuedAsNew
deriving DecidableEq, Repr

/-- What the runtime tells the provider about an execution, so that it need not inspect events. -/
structure ExecutionMetadata (semver : Semver) where
  status : Option ExecutionStatus := none
  output : Option String := none
  orchestrationName : Option String := none
  orchestrationVersion : Option String := none
  parentInstanceId : Option String := none
  pinnedDuroxideVersion : Option semver.Version := none

/-- A locked instance: its history, its message batch and its key-value snapshot. -/
structure OrchestrationItem where
  instanceId : String
  orchestrationName : String
  executionId : Nat
  version : String
  history : List Event
  messages : List WorkItem
  historyError : Option String
  kvSnapshot : AList (fun _ : String => KvEntry)

/-- The arguments of `ack_orchestration_item` besides the lock token. -/
structure AckRequest (semver : Semver) where
  executionId : Nat
  historyDelta : List Event := []
  workerItems : List WorkItem := []
  orchestratorItems : List WorkItem := []
  metadata : ExecutionMetadata semver := {}
  cancelledActivities : List ScheduledActivityIdentifier := []

/-- How a dispatcher answers a fetched item. -/
inductive Decision (semver : Semver) where
  | abandon (delayMs : Option Nat) (ignoreAttempt : Bool)
  | ack (request : AckRequest semver) (fallback : Option (ProviderError → AckRequest semver))

structure UnregisteredBackoffConfig where
  baseDelayMs : Nat := 1000
  maxDelayMs : Nat := 60000

def MAX_BACKOFF_EXPONENT : Nat := 6

/-- Exponential backoff by fetch attempt, capped. -/
def UnregisteredBackoffConfig.delay (config : UnregisteredBackoffConfig) (attemptCount : Nat) : Nat :=
  min (config.baseDelayMs * 2 ^ min (attemptCount - 1) MAX_BACKOFF_EXPONENT) config.maxDelayMs

/-- What a dispatcher's answer depends on besides the item: options, registry, clock and the ids of
the executions it ran. -/
structure RuntimeEnv (semver : Semver) where
  stamp : Stamp
  registry : Registry semver
  executionIds : Execution.ExecutionIds
  maxAttempts : Nat := 10
  unregisteredBackoff : UnregisteredBackoffConfig := {}
  supportedRange : SemverRange semver
  serializeMessages : List WorkItem → String

namespace Dispatcher

variable {semver : Semver}

def MAX_CUSTOM_STATUS_BYTES : Nat := 256 * 1024
def MAX_TAG_NAME_BYTES : Nat := 256
def MAX_KV_VALUE_BYTES : Nat := 64 * 1024
def MAX_KV_KEYS : Nat := 150

def exceeds (what : String) (size limit : Nat) : String :=
  what ++ " (" ++ toString size ++ " bytes) exceeds limit (" ++ toString limit ++ " bytes)"

def customStatusError (historyDelta : List Event) : Option String := do
  let status ← historyDelta.reverse.findSome? fun event =>
    match event.kind with | .customStatusUpdated status => status | _ => none
  if status.utf8ByteSize > MAX_CUSTOM_STATUS_BYTES then
    some (exceeds "Custom status size" status.utf8ByteSize MAX_CUSTOM_STATUS_BYTES)
  else none

def tagError (historyDelta : List Event) : Option String :=
  historyDelta.findSome? fun event =>
    match event.kind with
    | .activityScheduled name _ _ (some tag) =>
        if tag.utf8ByteSize > MAX_TAG_NAME_BYTES then
          some (exceeds ("Activity '" ++ name ++ "' tag size") tag.utf8ByteSize MAX_TAG_NAME_BYTES)
        else none
    | _ => none

def kvValueError (historyDelta : List Event) : Option String :=
  historyDelta.findSome? fun event =>
    match event.kind with
    | .keyValueSet key value _ =>
        if value.utf8ByteSize > MAX_KV_VALUE_BYTES then
          some (exceeds ("KV value for key '" ++ key ++ "'") value.utf8ByteSize MAX_KV_VALUE_BYTES)
        else none
    | _ => none

/-- The user keys after the delta is applied to the snapshot. -/
def effectiveKeys (historyDelta : List Event) (kvSnapshot : AList (fun _ : String => KvEntry)) : List String :=
  historyDelta.foldl (fun keys event =>
    match event.kind with
    | .keyValueSet key _ _ => keys.insert key
    | .keyValueCleared key => keys.erase key
    | .keyValuesCleared => []
    | _ => keys) kvSnapshot.keys

def kvKeyCountError (historyDelta : List Event) (kvSnapshot : AList (fun _ : String => KvEntry)) : Option String :=
  let count := (effectiveKeys historyDelta kvSnapshot).length
  if count > MAX_KV_KEYS then
    some ("KV key count (" ++ toString count ++ ") exceeds limit (" ++ toString MAX_KV_KEYS ++ ")")
  else none

/-- The first limit that a turn's events exceed. -/
def limitError (historyDelta : List Event) (kvSnapshot : AList (fun _ : String => KvEntry)) : Option String :=
  customStatusError historyDelta <|> tagError historyDelta <|> kvValueError historyDelta <|>
    kvKeyCountError historyDelta kvSnapshot

/-- Summarize a delta: the start's parameters, and the first terminal event. -/
def computeExecutionMetadata (semver : Semver) : List Event → ExecutionMetadata semver → ExecutionMetadata semver
  | [], metadata => metadata
  | event :: rest, metadata =>
      match event.kind with
      | .orchestrationStarted name version _ parentInstance _ _ _ =>
          computeExecutionMetadata semver rest { metadata with
            orchestrationName := some name
            orchestrationVersion := some version
            parentInstanceId := parentInstance
            pinnedDuroxideVersion := semver.parse event.duroxideVersion }
      | .orchestrationCompleted output => { metadata with status := some .completed, output := some output }
      | .orchestrationFailed details =>
          { metadata with status := some .failed, output := some details.displayMessage }
      | .orchestrationContinuedAsNew input =>
          { metadata with status := some .continuedAsNew, output := some input }
      | _ => computeExecutionMetadata semver rest metadata

/-- The version whose handler a turn runs, with the handler; none when it is not registered. -/
def resolveTurnHandler (registry : Registry semver) (name : String) :
    Option String → Option (semver.Version × OrchestrationHandler)
  | some text => match semver.parse text with
    | some version => (registry.resolveHandlerExact name version).map (version, ·)
    | none => none
  | none => registry.resolveHandler name

/-- The start event of a new execution. -/
def startedEvent (stamp : Stamp) (instanceId : String) (executionId : Nat) (reader : WorkItemReader)
    (version : String) : Event :=
  let (carryForwardEvents, initialCustomStatus) := match reader.startItem with
    | some (.continueAsNew _ _ _ _ carried status) => (if carried.isEmpty then none else some carried, status)
    | _ => (none, none)
  Event.withEventId stamp 1 instanceId executionId none
    (.orchestrationStarted reader.orchestrationName version reader.input reader.parentInstance reader.parentId
      carryForwardEvents initialCustomStatus)

/-- Open an execution that has no events yet. -/
def startIfNew (stamp : Stamp) (instanceId : String) (executionId : Nat) (reader : WorkItemReader) (version : String)
    (manager : HistoryManager) : HistoryManager :=
  if manager.isEmpty then manager.append (startedEvent stamp instanceId executionId reader version) else manager

/-- Resolve the handler, open the execution if it is new and run one turn; none when unregistered. -/
def resolveAndExecuteOrchestrationHandler (env : RuntimeEnv semver) (instanceId : String)
    (manager : HistoryManager) (reader : WorkItemReader) (executionId : Nat)
    (kvSnapshot : AList (fun _ : String => KvEntry)) : Option ExecutionOutcome :=
  (resolveTurnHandler env.registry reader.orchestrationName reader.version).map fun (version, handler) =>
    Execution.runSingleExecutionAtomic env.stamp env.executionIds instanceId
      (startIfNew env.stamp instanceId executionId reader (semver.render version) manager) reader executionId handler
      (semver.render version) kvSnapshot

def terminalReason : ExecutionStatus → String
  | .completed => "orchestration_terminal_completed"
  | .failed => "orchestration_terminal_failed"
  | .continuedAsNew => "orchestration_terminal_continued_as_new"
  | .running => "orchestration_terminal_failed"

/-- The commit of an infrastructure failure, after an acknowledgement failed with `error`. -/
def failureCommit (env : RuntimeEnv semver) (item : OrchestrationItem) (executionId : Nat)
    (error : ProviderError) : AckRequest semver :=
  let delta := ((HistoryManager.fromHistory item.history).appendFailed env.stamp error.toInfrastructureError).delta
  { executionId, historyDelta := delta, metadata := computeExecutionMetadata semver delta {} }

/-- Record the cancellation of the activities in flight at a terminal status. -/
def recordInflight (stamp : Stamp) (instanceId : String) (executionId : Nat) (status : ExecutionStatus)
    (manager : HistoryManager) (inflight : List ScheduledActivityIdentifier) : HistoryManager :=
  Execution.emitBreadcrumbs stamp instanceId executionId (.activityCancelRequested (terminalReason status)) manager
    (inflight.map (·.activityId))

/-- Summarize the events of a turn; a turn that exceeds a limit fails and enqueues nothing. -/
def enforceLimits (env : RuntimeEnv semver) (item : OrchestrationItem) (executionId : Nat)
    (outcome : ExecutionOutcome) : ExecutionOutcome × ExecutionMetadata semver :=
  let delta := outcome.historyMgr.delta
  let metadata := computeExecutionMetadata semver delta {}
  match limitError delta item.kvSnapshot with
  | none => (outcome, metadata)
  | some message =>
      let details : ErrorDetails := .application .orchestrationFailed message false
      ({ outcome with
          historyMgr := outcome.historyMgr.append (Event.withEventId env.stamp outcome.historyMgr.nextEventId
            item.instanceId executionId none (.orchestrationFailed details))
          workerItems := [], orchestratorItems := [] },
        { metadata with status := some .failed, output := some details.displayMessage })

/-- Cancel what is in flight at a terminal status. -/
def cancelInflight (stamp : Stamp) (instanceId : String) (executionId : Nat) (outcome : ExecutionOutcome) :
    Option ExecutionStatus → HistoryManager × List ScheduledActivityIdentifier
  | some status =>
      let inflight := outcome.historyMgr.computeInflightActivities instanceId executionId
      (recordInflight stamp instanceId executionId status outcome.historyMgr inflight,
        outcome.cancelledActivities ++ inflight)
  | none => (outcome.historyMgr, outcome.cancelledActivities)

/-- Check the limits, cancel what is in flight at a terminal status, and acknowledge. -/
def finishTurn (env : RuntimeEnv semver) (item : OrchestrationItem) (executionId : Nat)
    (outcome : ExecutionOutcome) : Decision semver :=
  let (outcome, metadata) := enforceLimits env item executionId outcome
  let (manager, cancelled) := cancelInflight env.stamp item.instanceId executionId outcome metadata.status
  .ack
    { executionId, historyDelta := manager.delta, workerItems := outcome.workerItems
      orchestratorItems := outcome.orchestratorItems, metadata, cancelledActivities := cancelled.eraseDups }
    (some (failureCommit env item executionId))

/-- Parameters of an execution that fails before it ever ran, from its start item. -/
def poisonStart (item : OrchestrationItem) : String × String × Option String × Option Nat ×
    Option (List (String × String)) :=
  (item.messages.findSome? fun
    | .startOrchestration _ orchestration input _ parentInstance parentId _ =>
        some (orchestration, input, parentInstance, parentId, none)
    | .continueAsNew _ orchestration input _ carried _ => some (orchestration, input, none, none, some carried)
    | _ => none).getD (item.orchestrationName, "", none, none, none)

def parentOfStarted (event : Event) : Option (String × Nat) :=
  match event.kind with
  | .orchestrationStarted _ _ _ parentInstance parentId _ _ => HistoryManager.parentLink parentInstance parentId
  | _ => none

/-- The history a poison failure is appended to, and the parent to notify. -/
def poisonManager (env : RuntimeEnv semver) (item : OrchestrationItem) : HistoryManager × Option (String × Nat) :=
  let manager := HistoryManager.fromHistory item.history
  if manager.isEmpty then
    let (name, input, parentInstance, parentId, carried) := poisonStart item
    (manager.append (Event.withEventId env.stamp INITIAL_EVENT_ID item.instanceId item.executionId none
      (.orchestrationStarted name item.version input parentInstance parentId carried none)),
      HistoryManager.parentLink parentInstance parentId)
  else (manager, item.history.findSome? parentOfStarted)

/-- Sentinel event id for a failure recorded over a history that cannot be read. -/
def CORRUPTED_HISTORY_EVENT_ID : Nat := 99999

/-- Fail an orchestration as a poison message. -/
def failOrchestrationAsPoison (env : RuntimeEnv semver) (item : OrchestrationItem) (attemptCount : Nat) :
    AckRequest semver :=
  match item.historyError with
  | some message =>
      let details : ErrorDetails := .poison attemptCount env.maxAttempts
        (.failedDeserialization item.instanceId item.executionId message) message
      { executionId := item.executionId
        historyDelta := [Event.withEventId env.stamp CORRUPTED_HISTORY_EVENT_ID item.instanceId item.executionId none
          (.orchestrationFailed details)]
        metadata :=
          { status := some .failed, output := some details.displayMessage
            orchestrationName := some item.orchestrationName, orchestrationVersion := some item.version } }
  | none =>
      let details : ErrorDetails := .poison attemptCount env.maxAttempts
        (.orchestration item.instanceId item.executionId) (env.serializeMessages item.messages)
      let (manager, parentLink) := poisonManager env item
      { executionId := item.executionId
        historyDelta := (manager.appendFailed env.stamp details).delta
        orchestratorItems := Execution.notifyParent env.executionIds parentLink (.subOrchFailed · · · details)
        metadata :=
          { status := some .failed, output := some details.displayMessage
            orchestrationName := some item.orchestrationName, orchestrationVersion := some item.version
            parentInstanceId := parentLink.map (·.1) } }

/-- Delay before an item with unreadable history or an unsupported version is fetched again. -/
def SHORT_BACKOFF_MS : Nat := 1000

/-- Histories that take no further turn: ended ones, and continued ones without their start item. -/
def isTerminalFor (manager : HistoryManager) (reader : WorkItemReader) : Bool :=
  manager.isCompleted || manager.isFailed || (manager.isContinuedAsNew && !reader.isContinueAsNew)

/-- The history of an item, read for its parameters and its state. -/
def tempHistoryMgr (item : OrchestrationItem) : HistoryManager := HistoryManager.fromHistory item.history

def workitemReader (item : OrchestrationItem) : WorkItemReader :=
  WorkItemReader.fromMessages item.messages (tempHistoryMgr item) item.instanceId

/-- The execution that a turn belongs to and its events: a continue-as-new item opens the next one. -/
def turnExecution (item : OrchestrationItem) : Nat × HistoryManager :=
  if (workitemReader item).isContinueAsNew then (item.executionId + 1, HistoryManager.fromHistory [])
  else (item.executionId, tempHistoryMgr item)

/-- Run one turn; a batch that names no orchestration is acknowledged without one. -/
def executeTurn (env : RuntimeEnv semver) (item : OrchestrationItem) (attemptCount : Nat) : Decision semver :=
  let reader := workitemReader item
  let (executionId, manager) := turnExecution item
  if reader.hasOrchestrationName then
    match resolveAndExecuteOrchestrationHandler env item.instanceId manager reader executionId item.kvSnapshot with
    | some outcome => finishTurn env item executionId outcome
    | none => .abandon (some (env.unregisteredBackoff.delay attemptCount)) false
  else finishTurn env item executionId { historyMgr := manager }

def processOrchestrationItem (env : RuntimeEnv semver) (item : OrchestrationItem) (attemptCount : Nat) :
    Decision semver :=
  if attemptCount > env.maxAttempts then .ack (failOrchestrationAsPoison env item attemptCount) none
  else if item.historyError.isSome then .abandon (some SHORT_BACKOFF_MS) false
  else if isTerminalFor (tempHistoryMgr item) (workitemReader item) then .ack { executionId := item.executionId } none
  else executeTurn env item attemptCount

/-- The version pinned by a history: that of the first start event whose version parses. -/
def pinnedVersion (semver : Semver) (history : List Event) : Option semver.Version :=
  history.findSome? fun event =>
    match event.kind with
    | .orchestrationStarted .. => semver.parse event.duroxideVersion
    | _ => none

/-- What the dispatcher loop does with a fetched item: the version check, then the turn. -/
def handleFetchedItem (env : RuntimeEnv semver) (item : OrchestrationItem) (attemptCount : Nat) :
    Decision semver :=
  match pinnedVersion semver item.history with
  | some pinned =>
      if !env.supportedRange.contains pinned then .abandon (some SHORT_BACKOFF_MS) false
      else processOrchestrationItem env item attemptCount
  | none => processOrchestrationItem env item attemptCount

end Dispatcher

end Duroxide
