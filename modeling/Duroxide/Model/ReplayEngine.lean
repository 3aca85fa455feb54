import Duroxide.Model.Orchestration
import Mathlib.Data.Finset.Erase

/-! # The replay engine

One turn first turns the incoming messages into history events (`prepCompletions`) and then runs the
orchestration against history (`executeOrchestration`): events are applied in order, actions that the
program emits are matched against the persisted schedule events, completions are delivered, and
whatever the program emits beyond history becomes new events and pending actions. Debug renderings
inside diagnostics (sets, actions, event kinds) are left out of the messages.
-/

namespace Duroxide

inductive TurnResult where
  | continue
  | completed (output : String)
  | failed (details : ErrorDetails)
  | continueAsNew (input : String) (version : Option String)
  | cancelled (reason : String)
deriving DecidableEq, Repr

structure KvEntry where
  value : String
  lastUpdatedAtMs : Nat
deriving DecidableEq, Repr

structure ReplayEngine where
  instanceId : String
  executionId : Nat
  historyDelta : List Event := []
  pendingActions : List Action := []
  cancelledActivityIds : List Nat := []
  cancelledSubOrchestrationIds : List String := []
  baselineHistory : List Event
  nextEventId : Nat
  abortError : Option ErrorDetails := none
  persistedHistoryLen : Nat
  kvSnapshot : AList (fun _ : String => KvEntry) := ∅
  stamp : Stamp

inductive ActionKind where
  | activity
  | timer
  | external
  | persistent
  | subOrch
deriving DecidableEq, Repr

def nondeterminismError (message : String) : ErrorDetails := .configuration .nondeterminism "" (some message)

/-- Convert an action to the event that records it; `ContinueAsNew` has its own terminal event. -/
def actionToEvent (stamp : Stamp) (action : Action) (instanceId : String) (executionId eventId : Nat) :
    Option Event :=
  let event := Event.withEventId stamp eventId instanceId executionId none
  match action with
  | .callActivity _ name input sessionId tag => some (event (.activityScheduled name input sessionId tag))
  | .createTimer _ fireAtMs => some (event (.timerCreated fireAtMs))
  | .waitExternal _ name => some (event (.externalSubscribed name))
  | .dequeueEvent _ name => some (event (.queueSubscribed name))
  | .startSubOrchestration _ name _ subInstance input =>
      some (event (.subOrchestrationScheduled name subInstance input))
  | .startOrchestrationDetached _ name _ target input => some (event (.orchestrationChained name target input))
  | .continueAsNew _ _ => none
  | .updateCustomStatus status => some (event (.customStatusUpdated status))
  | .setKeyValue key value lastUpdatedAtMs => some (event (.keyValueSet key value lastUpdatedAtMs))
  | .clearKeyValue key => some (event (.keyValueCleared key))
  | .clearKeyValues => some (event .keyValuesCleared)

/-- Give an action its event id; placeholder child instances become `sub::{event_id}`. -/
def updateActionEventId (action : Action) (eventId : Nat) : Action :=
  match action with
  | .callActivity _ name input sessionId tag => .callActivity eventId name input sessionId tag
  | .createTimer _ fireAtMs => .createTimer eventId fireAtMs
  | .waitExternal _ name => .waitExternal eventId name
  | .dequeueEvent _ name => .dequeueEvent eventId name
  | .startSubOrchestration _ name version subInstance input =>
      let finalInstance :=
        if startsWith subInstance SUB_ORCH_PENDING_PREFIX then SUB_ORCH_AUTO_PREFIX ++ toString eventId
        else subInstance
      .startSubOrchestration eventId name version finalInstance input
  | .startOrchestrationDetached _ name version target input =>
      .startOrchestrationDetached eventId name version target input
  | action => action

/-- Whether an emitted action matches a history event; timers and statuses match by kind only. -/
def actionMatchesEventKind : Action → EventKind → Bool
  | .callActivity _ name input sessionId tag, .activityScheduled eventName eventInput eventSession eventTag =>
      name == eventName && input == eventInput && sessionId == eventSession && tag == eventTag
  | .createTimer _ _, .timerCreated _ => true
  | .waitExternal _ name, .externalSubscribed eventName => name == eventName
  | .dequeueEvent _ name, .queueSubscribed eventName => name == eventName
  | .startSubOrchestration _ name _ _ input, .subOrchestrationScheduled eventName _ eventInput =>
      name == eventName && input == eventInput
  | .startOrchestrationDetached _ name _ target input, .orchestrationChained eventName eventInstance eventInput =>
      name == eventName && target == eventInstance && input == eventInput
  | .updateCustomStatus _, .customStatusUpdated _ => true
  | .setKeyValue key value _, .keyValueSet eventKey eventValue _ => key == eventKey && value == eventValue
  | .clearKeyValue key, .keyValueCleared eventKey => key == eventKey
  | .clearKeyValues, .keyValuesCleared => true
  | _, _ => false

namespace ReplayEngine

def new (stamp : Stamp) (instanceId : String) (executionId : Nat) (baselineHistory : List Event) : ReplayEngine where
  instanceId := instanceId
  executionId := executionId
  baselineHistory := baselineHistory
  nextEventId := (baselineHistory.getLast?.map (·.eventId + 1)).getD 1
  persistedHistoryLen := baselineHistory.length
  stamp := stamp

def withPersistedHistoryLen (engine : ReplayEngine) (len : Nat) : ReplayEngine :=
  { engine with persistedHistoryLen := len }

def withKvSnapshot (engine : ReplayEngine) (snapshot : AList (fun _ : String => KvEntry)) : ReplayEngine :=
  { engine with kvSnapshot := snapshot }

/-! ## Stage 1: messages become events -/

/-- Completions of other executions are ignored; messages without an execution id always apply. -/
def isCompletionForCurrentExecution (engine : ReplayEngine) : WorkItem → Bool
  | .activityCompleted _ executionId _ _ | .activityFailed _ executionId _ _ | .timerFired _ executionId _ _ =>
      executionId == engine.executionId
  | .subOrchCompleted _ parentExecutionId _ _ | .subOrchFailed _ parentExecutionId _ _ =>
      parentExecutionId == engine.executionId
  | .externalRaised .. | .queueMessage .. | .cancelInstance .. => true
  | _ => false

def hasSource (events : List Event) (id : Nat) (kindMatches : EventKind → Bool) : Bool :=
  events.any fun event => event.sourceEventId == some id && kindMatches event.kind

/-- Duplicates of persisted completions; a failed activity is not looked up. -/
def isCompletionAlreadyInHistory (engine : ReplayEngine) : WorkItem → Bool
  | .activityCompleted _ _ id _ =>
      hasSource engine.baselineHistory id fun | .activityCompleted _ => true | _ => false
  | .timerFired _ _ id _ => hasSource engine.baselineHistory id fun | .timerFired _ => true | _ => false
  | .subOrchCompleted _ _ parentId _ =>
      hasSource engine.baselineHistory parentId fun | .subOrchestrationCompleted _ => true | _ => false
  | .subOrchFailed _ _ parentId _ =>
      hasSource engine.baselineHistory parentId fun | .subOrchestrationFailed _ => true | _ => false
  | _ => false

/-- Duplicates of completions staged earlier in this turn. -/
def isAlreadyInDelta (engine : ReplayEngine) : WorkItem → Bool
  | .activityCompleted _ _ id _ | .activityFailed _ _ id _ =>
      hasSource engine.historyDelta id fun | .activityCompleted _ | .activityFailed _ => true | _ => false
  | .timerFired _ _ id _ => hasSource engine.historyDelta id fun | .timerFired _ => true | _ => false
  | .subOrchCompleted _ _ parentId _ | .subOrchFailed _ _ parentId _ =>
      hasSource engine.historyDelta parentId fun
        | .subOrchestrationCompleted _ | .subOrchestrationFailed _ => true | _ => false
  | _ => false

/-- The kind of schedule recorded under an event id. -/
def scheduleKind (engine : ReplayEngine) (id : Nat) : Option String :=
  (engine.baselineHistory ++ engine.historyDelta).findSome? fun event =>
    if event.eventId != id then none else
    match event.kind with
    | .activityScheduled .. => some "activity"
    | .timerCreated _ => some "timer"
    | .subOrchestrationScheduled .. => some "suborchestration"
    | _ => none

/-- A completion must name a schedule of its own kind. -/
def expectSchedule (engine : ReplayEngine) (id : Nat) (kind described : String) : Option ErrorDetails :=
  match engine.scheduleKind id with
  | some found =>
      if found = kind then none
      else some (nondeterminismError ("completion kind mismatch for id=" ++ toString id ++ ", expected '" ++
        found ++ "', got '" ++ kind ++ "'"))
  | none => some (nondeterminismError ("no matching schedule for " ++ described ++ " id=" ++ toString id))

def completionError (engine : ReplayEngine) : WorkItem → Option ErrorDetails
  | .activityCompleted _ _ id _ | .activityFailed _ _ id _ => engine.expectSchedule id "activity" "completion"
  | .timerFired _ _ id _ => engine.expectSchedule id "timer" "timer"
  | .subOrchCompleted _ _ parentId _ | .subOrchFailed _ _ parentId _ =>
      engine.expectSchedule parentId "suborchestration" "sub-orchestration"
  | _ => none

def isCancelRequest : EventKind → Bool
  | .orchestrationCancelRequested _ => true
  | _ => false

/-- Convert a message to its event kind and the schedule it completes. -/
def messageToEventKind (engine : ReplayEngine) : WorkItem → Option (Option Nat × EventKind)
  | .activityCompleted _ _ id result => some (some id, .activityCompleted result)
  | .activityFailed _ _ id details => some (some id, .activityFailed details)
  | .timerFired _ _ id fireAtMs => some (some id, .timerFired fireAtMs)
  | .externalRaised _ name data => some (none, .externalEvent name data)
  | .queueMessage _ name data => some (none, .queueEventDelivered name data)
  | .subOrchCompleted _ _ parentId result => some (some parentId, .subOrchestrationCompleted result)
  | .subOrchFailed _ _ parentId details => some (some parentId, .subOrchestrationFailed details)
  | .cancelInstance _ reason =>
      let alreadyTerminated := engine.baselineHistory.any fun event =>
        match event.kind with | .orchestrationCompleted _ | .orchestrationFailed _ => true | _ => false
      let alreadyCancelled := (engine.baselineHistory ++ engine.historyDelta).any (isCancelRequest ·.kind)
      if !alreadyTerminated && !alreadyCancelled then some (none, .orchestrationCancelRequested reason) else none
  | _ => none

/-- System errors of an activity or a child abort the turn; the first one is kept. -/
def abortOnSystemError (engine : ReplayEngine) : WorkItem → ReplayEngine
  | .activityFailed _ _ _ details | .subOrchFailed _ _ _ details =>
      if details.isSystem && engine.abortError.isNone then { engine with abortError := some details } else engine
  | _ => engine

/-- Append an event with the next id. -/
def pushEvent (engine : ReplayEngine) (source : Option Nat) (kind : EventKind) : ReplayEngine :=
  { engine with
    nextEventId := engine.nextEventId + 1
    historyDelta := engine.historyDelta ++
      [Event.withEventId engine.stamp engine.nextEventId engine.instanceId engine.executionId source kind] }

def prepCompletion (engine : ReplayEngine) (message : WorkItem) : ReplayEngine :=
  if !engine.isCompletionForCurrentExecution message then engine
  else if engine.isCompletionAlreadyInHistory message then engine
  else if engine.isAlreadyInDelta message then engine
  else match engine.completionError message with
    | some error => { engine with abortError := some error }
    | none =>
        let prepared := engine.abortOnSystemError message
        match engine.messageToEventKind message with
        | some (source, kind) => prepared.pushEvent source kind
        | none => prepared

def prepCompletions (engine : ReplayEngine) (messages : List WorkItem) : ReplayEngine :=
  messages.foldl prepCompletion engine

end ReplayEngine

/-! ## Stage 2: one evaluation of the orchestration -/

/-- The local variables of `execute_orchestration`. -/
structure Replay (State : Type) where
  ctx : CtxInner
  fut : State
  emittedActions : List (Nat × Action) := []
  openSchedules : Finset Nat := ∅
  scheduleKinds : Nat → Option ActionKind := fun _ => none
  mustPoll : Bool := true
  output : Option (Except String String) := none

namespace Replay

variable {State : Type}

def panicked (message : String) : TurnResult := .failed (.application .panicked message false)

/-- Poll the orchestration once and collect what it emitted. -/
def pollOrchestrationFuture (poll : State → Script State) (replay : Replay State) :
    Except TurnResult (Replay State) :=
  match (poll replay.fut).run replay.ctx with
  | (.ready output, ctx) =>
      let (drained, ctx) := ctx.drainEmittedActions
      .ok { replay with ctx, emittedActions := replay.emittedActions ++ drained, output := some output }
  | (.pending fut, ctx) =>
      let (drained, ctx) := ctx.drainEmittedActions
      .ok { replay with ctx, fut, emittedActions := replay.emittedActions ++ drained }
  | (.panicked message, _) => .error (panicked message)

/-- Match the oldest unmatched action against a schedule event and bind its token. -/
def matchAndBindSchedule (replay : Replay State) (event : Event) (kind : ActionKind) :
    Except TurnResult (Nat × Replay State) :=
  match replay.emittedActions with
  | [] => .error (.failed (nondeterminismError "history schedule but no emitted action"))
  | (token, action) :: rest =>
      if !actionMatchesEventKind action event.kind then
        .error (.failed (nondeterminismError "schedule mismatch"))
      else .ok (token, { replay with
        ctx := replay.ctx.bindToken token event.eventId
        emittedActions := rest
        openSchedules := insert event.eventId replay.openSchedules
        scheduleKinds := Function.update replay.scheduleKinds event.eventId (some kind) })

/-- Consume the action of a fire-and-forget event; a missing action is accepted. -/
def consumeAction (replay : Replay State) (event : Event) (mismatch : String) :
    Except TurnResult (Replay State) :=
  match replay.emittedActions with
  | [] => .ok replay
  | (_, action) :: rest =>
      if !actionMatchesEventKind action event.kind then .error (.failed (nondeterminismError mismatch))
      else .ok { replay with emittedActions := rest }

/-- Deliver a completion to an open schedule and close it. -/
def deliverCompletion (replay : Replay State) (event : Event) (activityOnly : Bool) (result : CompletionResult) :
    Except TurnResult (Replay State) :=
  match event.sourceEventId with
  | none => .ok replay
  | some sourceId =>
      if sourceId ∉ replay.openSchedules then
        .error (.failed (nondeterminismError "completion without open schedule"))
      else if activityOnly && replay.scheduleKinds sourceId != some .activity then
        .error (.failed (nondeterminismError "completion kind mismatch: expected activity"))
      else .ok { replay with
        ctx := replay.ctx.deliverResult sourceId result
        openSchedules := replay.openSchedules.erase sourceId
        mustPoll := true }

def applyHistoryEvent (replay : Replay State) (event : Event) : Except TurnResult (Replay State) :=
  match event.kind with
  | .orchestrationStarted _ _ _ _ _ _ (some status) =>
      .ok { replay with ctx := { replay.ctx with accumulatedCustomStatus := some status } }
  | .orchestrationStarted _ _ _ _ _ _ none => .ok replay
  | .customStatusUpdated _ => replay.consumeAction event "custom status mismatch"
  | .keyValueSet .. => replay.consumeAction event "kv set mismatch"
  | .keyValueCleared _ => replay.consumeAction event "kv clear mismatch"
  | .keyValuesCleared => replay.consumeAction event "kv clear_all mismatch"
  | .activityScheduled .. => return (← replay.matchAndBindSchedule event .activity).2
  | .timerCreated _ => return (← replay.matchAndBindSchedule event .timer).2
  | .externalSubscribed name => do
      let (_, replay) ← replay.matchAndBindSchedule event .external
      return { replay with ctx := replay.ctx.mapExternal (·.bindExternalSubscription event.eventId name) }
  | .queueSubscribed name => do
      let (_, replay) ← replay.matchAndBindSchedule event .persistent
      return { replay with
        ctx := replay.ctx.mapQueue (·.bindQueueSubscription event.eventId name), mustPoll := true }
  | .subOrchestrationScheduled _ child _ => do
      let (token, replay) ← replay.matchAndBindSchedule event .subOrch
      return { replay with ctx := replay.ctx.bindSubOrchestrationInstance token child }
  | .orchestrationChained .. =>
      match replay.emittedActions with
      | [] => .error (.failed (nondeterminismError "history OrchestrationChained but no emitted action"))
      | (token, action) :: rest =>
          if !actionMatchesEventKind action event.kind then
            .error (.failed (nondeterminismError "schedule mismatch"))
          else .ok { replay with ctx := replay.ctx.bindToken token event.eventId, emittedActions := rest }
  | .activityCompleted result => replay.deliverCompletion event true (.activityOk result)
  | .activityFailed details => replay.deliverCompletion event false (.activityErr details.displayMessage)
  | .timerFired _ => replay.deliverCompletion event false .timerFired
  | .subOrchestrationCompleted result => replay.deliverCompletion event false (.subOrchOk result)
  | .subOrchestrationFailed details => replay.deliverCompletion event false (.subOrchErr details.displayMessage)
  | .externalSubscribedCancelled _ =>
      match event.sourceEventId with
      | some sourceId =>
          .ok { replay with ctx := replay.ctx.mapExternal (·.markExternalSubscriptionCancelled sourceId) }
      | none => .ok replay
  | .queueSubscriptionCancelled _ =>
      match event.sourceEventId with
      | some sourceId =>
          .ok { replay with ctx := replay.ctx.mapQueue (·.markQueueSubscriptionCancelled sourceId) }
      | none => .ok replay
  | .externalEvent name data =>
      -- An arrival without a pending slot stays in history only.
      if replay.ctx.external.hasPendingSubscriptionSlot name then
        .ok { replay with ctx := replay.ctx.mapExternal (·.deliverExternalEvent name data), mustPoll := true }
      else .ok replay
  | .queueEventDelivered name data =>
      .ok { replay with ctx := replay.ctx.mapQueue (·.deliverQueueMessage name data), mustPoll := true }
  | .activityCancelRequested _ | .subOrchestrationCancelRequested _ | .orchestrationCancelRequested _
  | .orchestrationCompleted _ | .orchestrationFailed _ | .orchestrationContinuedAsNew _ => .ok replay

/-- Poll when something was delivered; the flag is cleared only while the program is pending. -/
def pollIfNeeded (poll : State → Script State) (replay : Replay State) : Except TurnResult (Replay State) :=
  if replay.mustPoll then do
    let replay ← replay.pollOrchestrationFuture poll
    return if replay.output.isSome then replay else { replay with mustPoll := false }
  else .ok replay

/-- Apply history in order, polling in between, until the program finishes. -/
def applyHistory (poll : State → Script State) : List Event → Replay State → Except TurnResult (Replay State)
  | [], replay => .ok replay
  | event :: rest, replay => do
      let replay ← replay.pollIfNeeded poll
      if replay.output.isSome then return replay
      let replay ← replay.applyHistoryEvent event
      replay.applyHistory poll rest

end Replay

namespace ReplayEngine

variable {State : Type}

/-- Bind one emitted action to the next event id and record it. -/
def convertEmittedAction (engine : ReplayEngine) (ctx : CtxInner) (emitted : Nat × Action) :
    ReplayEngine × CtxInner :=
  let (token, action) := emitted
  let eventId := engine.nextEventId
  let ctx := ctx.bindToken token eventId
  let updatedAction := updateActionEventId action eventId
  let ctx := match updatedAction with
    | .startSubOrchestration _ _ _ child _ => ctx.bindSubOrchestrationInstance token child
    | .waitExternal _ name => ctx.mapExternal (·.bindExternalSubscription eventId name)
    | .dequeueEvent _ name => ctx.mapQueue (·.bindQueueSubscription eventId name)
    | _ => ctx
  let events := (actionToEvent engine.stamp updatedAction engine.instanceId engine.executionId eventId).toList
  ({ engine with
    nextEventId := eventId + 1
    historyDelta := engine.historyDelta ++ events
    pendingActions := engine.pendingActions ++ [updatedAction] }, ctx)

def convertEmittedActions (engine : ReplayEngine) (ctx : CtxInner) (actions : List (Nat × Action)) :
    ReplayEngine × CtxInner :=
  actions.foldl (fun state emitted => state.1.convertEmittedAction state.2 emitted) (engine, ctx)

def MAX_QUIESCENCE_ITERATIONS : Nat := 100

def quiescenceError : TurnResult :=
  .failed (.infrastructure "quiescence_loop"
    ("quiescence loop exceeded " ++ toString MAX_QUIESCENCE_ITERATIONS ++ " iterations — " ++
      "                     orchestration is emitting unbounded persistent event subscriptions") false)

/-- Poll until the program emits nothing new; `remaining` iterations are left of the limit. The engine
keeps what it recorded when a poll fails. -/
def runQuiescenceLoop (poll : State → Script State) : Nat → ReplayEngine → Replay State →
    Except TurnResult (Replay State) × ReplayEngine
  | 0, engine, _ => (.error quiescenceError, engine)
  | remaining + 1, engine, replay =>
      if replay.output.isSome || engine.pendingActions.isEmpty then (.ok replay, engine)
      else match { replay with emittedActions := [] }.pollOrchestrationFuture poll with
        | .error result => (.error result, engine)
        | .ok replay =>
            let (converted, ctx) := engine.convertEmittedActions replay.ctx replay.emittedActions
            let replay := { replay with ctx, emittedActions := [] }
            if remaining = 0 then (.error quiescenceError, converted)
            else if converted.pendingActions.length = engine.pendingActions.length then (.ok replay, converted)
            else runQuiescenceLoop poll remaining converted replay

/-- The reason of the breadcrumbs that dropped futures leave. -/
def droppedFuture : String := "dropped_future"

/-- Sources of the persisted breadcrumbs of one kind with the dropped-future reason. -/
def baselineDropped (engine : ReplayEngine) (reasonOf : EventKind → Option String) : List Nat :=
  (engine.baselineHistory.take engine.persistedHistoryLen).filterMap fun event =>
    if reasonOf event.kind = some droppedFuture then event.sourceEventId else none

/-- Event ids of the persisted schedules of one kind. -/
def baselineScheduled (engine : ReplayEngine) (isSchedule : EventKind → Bool) : List Nat :=
  ((engine.baselineHistory.take engine.persistedHistoryLen).filter (isSchedule ·.kind)).map (·.eventId)

/-- Every persisted breadcrumb must be reproduced by the program's drops in the replayed segment. -/
def cancellationsReproduced (engine : ReplayEngine) (reasonOf : EventKind → Option String)
    (isSchedule : EventKind → Bool) (cancelled : List Nat) : Bool :=
  (engine.baselineDropped reasonOf).all fun id => id ∈ cancelled && id ∈ engine.baselineScheduled isSchedule

def activityCancelReason : EventKind → Option String
  | .activityCancelRequested reason => some reason
  | _ => none

def subOrchestrationCancelReason : EventKind → Option String
  | .subOrchestrationCancelRequested reason => some reason
  | _ => none

def externalCancelReason : EventKind → Option String
  | .externalSubscribedCancelled reason => some reason
  | _ => none

def queueCancelReason : EventKind → Option String
  | .queueSubscriptionCancelled reason => some reason
  | _ => none

def isActivityScheduled : EventKind → Bool
  | .activityScheduled .. => true
  | _ => false

def isSubOrchestrationScheduled : EventKind → Bool
  | .subOrchestrationScheduled .. => true
  | _ => false

def isExternalSubscribed : EventKind → Bool
  | .externalSubscribed _ => true
  | _ => false

def isQueueSubscribed : EventKind → Bool
  | .queueSubscribed _ => true
  | _ => false

/-- Schedules that already have a breadcrumb of one kind, whatever its reason. -/
def alreadyCancelled (engine : ReplayEngine) (reasonOf : EventKind → Option String) : List Nat :=
  (engine.baselineHistory ++ engine.historyDelta).filterMap fun event =>
    if (reasonOf event.kind).isSome then event.sourceEventId else none

/-- Record a breadcrumb for each cancelled schedule that has none yet; returns the new ones. -/
def recordCancellations (breadcrumb : EventKind) : List Nat → List Nat → ReplayEngine → List Nat × ReplayEngine
  | [], _, engine => ([], engine)
  | scheduleId :: rest, seen, engine =>
      if scheduleId ∈ seen then recordCancellations breadcrumb rest seen engine
      else
        let (recorded, engine) :=
          recordCancellations breadcrumb rest (scheduleId :: seen) (engine.pushEvent (some scheduleId) breadcrumb)
        (scheduleId :: recorded, engine)

/-- Reconcile the dropped futures of this turn with history and record the new ones. -/
def collectCancelledFromContext (engine : ReplayEngine) (ctx : CtxInner) :
    Except TurnResult (ReplayEngine × CtxInner) :=
  let activities := ctx.getCancelledActivityIds
  let subOrchs := ctx.getCancelledSubOrchestrationCancellations
  let externalWaits := ctx.getCancelledExternalWaitIds
  let queueWaits := ctx.getCancelledQueueIds
  let mismatch (what : String) : Except TurnResult (ReplayEngine × CtxInner) :=
    .error (.failed (nondeterminismError ("cancellation mismatch (" ++ what ++ ")")))
  if !engine.cancellationsReproduced activityCancelReason isActivityScheduled activities then mismatch "activities"
  else if !engine.cancellationsReproduced subOrchestrationCancelReason isSubOrchestrationScheduled
      (subOrchs.map (·.1)) then mismatch "sub-orchestrations"
  else if !engine.cancellationsReproduced externalCancelReason isExternalSubscribed externalWaits then
    mismatch "external waits"
  else if !engine.cancellationsReproduced queueCancelReason isQueueSubscribed queueWaits then
    mismatch "persistent waits"
  else
    let seenActivities := engine.alreadyCancelled activityCancelReason
    let seenSubOrchs := engine.alreadyCancelled subOrchestrationCancelReason
    let seenExternal := engine.alreadyCancelled externalCancelReason
    let (newActivities, engine) :=
      recordCancellations (.activityCancelRequested droppedFuture) activities seenActivities engine
    let (newSubOrchs, engine) :=
      recordCancellations (.subOrchestrationCancelRequested droppedFuture) (subOrchs.map (·.1)) seenSubOrchs engine
    let (_, engine) :=
      recordCancellations (.externalSubscribedCancelled droppedFuture) externalWaits seenExternal engine
    let (_, engine) := recordCancellations (.queueSubscriptionCancelled droppedFuture) queueWaits
      (engine.alreadyCancelled queueCancelReason) engine
    .ok ({ engine with
      cancelledActivityIds := engine.cancelledActivityIds ++ newActivities
      cancelledSubOrchestrationIds := engine.cancelledSubOrchestrationIds ++
        newSubOrchs.filterMap fun id => (subOrchs.find? (·.1 == id)).map (·.2) }, ctx.clearCancelledTokens)

def continueAsNewOf : Action → Option TurnResult
  | .continueAsNew input version => some (.continueAsNew input version)
  | _ => none

def cancelReasonOf (event : Event) : Option String :=
  match event.kind with
  | .orchestrationCancelRequested reason => some reason
  | _ => none

/-- Cancellation comes first, then continue-as-new, then the program's own result. -/
def finalizeTurn (engine : ReplayEngine) (ctx : CtxInner) (output : Option (Except String String)) :
    TurnResult × ReplayEngine :=
  match (engine.baselineHistory ++ engine.historyDelta).findSome? cancelReasonOf with
  | some reason => (.cancelled reason, engine)
  | none => match engine.pendingActions.findSome? continueAsNewOf with
    | some result => (result, engine)
    | none => match engine.collectCancelledFromContext ctx with
      | .error result => (result, engine)
      | .ok (engine, _) => match output with
        | some (.ok result) => (.completed result, engine)
        | some (.error message) => (.failed (.application .orchestrationFailed message false), engine)
        | none => (.continue, engine)

/-- A context seeded with the provider's key-value snapshot. -/
def seedContext (engine : ReplayEngine) (orchestrationName orchestrationVersion : String) : CtxInner :=
  let ctx := CtxInner.new engine.executionId engine.instanceId orchestrationName orchestrationVersion
    engine.stamp.timestampMs
  { ctx with
    kvState := (engine.kvSnapshot.entries.map fun entry => (⟨entry.1, entry.2.value⟩ : Sigma fun _ : String => String)).toAList
    kvMetadata := (engine.kvSnapshot.entries.map fun entry =>
      (⟨entry.1, entry.2.lastUpdatedAtMs⟩ : Sigma fun _ : String => Nat)).toAList }

def initialCustomStatusOf (history : List Event) : Option String :=
  match history with
  | ⟨_, _, _, _, _, _, .orchestrationStarted _ _ _ _ _ _ status⟩ :: _ => status
  | _ => none

/-- Mark the queue waits dropped so far, before this turn's own subscriptions are bound. -/
def markDroppedQueueWaits (ctx : CtxInner) : CtxInner :=
  ctx.getCancelledQueueIds.foldl (fun ctx id => ctx.mapQueue (·.markQueueSubscriptionCancelled id)) ctx

/-- The part of a turn that replays history: returns the program's state after the last event. -/
def replayHistory (engine : ReplayEngine) (handler : OrchestrationHandler) (input orchestrationName
    orchestrationVersion : String) (workingHistory : List Event) : Except TurnResult (Replay handler.State) := do
  let ctx := engine.seedContext orchestrationName orchestrationVersion
  let ctx := { ctx with accumulatedCustomStatus := initialCustomStatusOf workingHistory }
  let replay : Replay handler.State := { ctx, fut := handler.invoke input }
  let replay ← replay.applyHistory handler.poll workingHistory
  if replay.mustPoll && replay.output.isNone then replay.pollOrchestrationFuture handler.poll else return replay

/-- The part of a turn beyond history: new actions are bound and the program runs until quiescence. -/
def runLive (engine : ReplayEngine) (handler : OrchestrationHandler) (replay : Replay handler.State) :
    Except TurnResult (Replay handler.State) × ReplayEngine :=
  let (engine, ctx) := engine.convertEmittedActions (markDroppedQueueWaits replay.ctx) replay.emittedActions
  engine.runQuiescenceLoop handler.poll MAX_QUIESCENCE_ITERATIONS { replay with ctx, emittedActions := [] }

/-- Run the program over history and then beyond it, up to the point where the turn is finalized. -/
def evaluate (engine : ReplayEngine) (handler : OrchestrationHandler) (input orchestrationName
    orchestrationVersion : String) : Except TurnResult (Replay handler.State) × ReplayEngine :=
  match engine.replayHistory handler input orchestrationName orchestrationVersion
      (engine.baselineHistory ++ engine.historyDelta) with
  | .error result => (.error result, engine)
  | .ok replay => engine.runLive handler replay

def startsExecution : List Event → Bool
  | ⟨_, _, _, _, _, _, .orchestrationStarted ..⟩ :: _ => true
  | _ => false

/-- Whether a turn gets as far as polling its program: no message aborted it, and the execution has
started and not ended. -/
def evaluates (engine : ReplayEngine) : Bool :=
  engine.abortError.isNone && !(engine.baselineHistory ++ engine.historyDelta).any (·.isTerminal) &&
    startsExecution (engine.baselineHistory ++ engine.historyDelta)

def executeOrchestration (engine : ReplayEngine) (handler : OrchestrationHandler)
    (input orchestrationName orchestrationVersion : String) : TurnResult × ReplayEngine :=
  let workingHistory := engine.baselineHistory ++ engine.historyDelta
  match engine.abortError with
  | some error => (.failed error, engine)
  | none =>
      if workingHistory.any (·.isTerminal) then (.continue, engine)
      else if workingHistory.isEmpty then (.failed (nondeterminismError "corrupted history: empty"), engine)
      else if !startsExecution workingHistory then
        (.failed (nondeterminismError "corrupted history: first event must be OrchestrationStarted"), engine)
      else match engine.evaluate handler input orchestrationName orchestrationVersion with
        | (.error result, engine) => (result, engine)
        | (.ok replay, engine) => engine.finalizeTurn replay.ctx replay.output

end ReplayEngine

end Duroxide
