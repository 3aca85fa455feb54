import Duroxide.Model.Dispatcher
import Mathlib.Logic.Relation

/-! # What a turn records

While a program runs, the engine records conversions of emitted actions and breadcrumbs of dropped
futures, and nothing else. Together with the prepared messages, the start event and the terminal
events this gives the origin of every event that a dispatcher asks a provider to append.
-/

namespace Duroxide

/-! ## Kinds of events -/

/-- The breadcrumbs that cancellations leave. -/
def EventKind.isBreadcrumb : EventKind → Bool
  | .activityCancelRequested _ | .subOrchestrationCancelRequested _ | .externalSubscribedCancelled _
  | .queueSubscriptionCancelled _ => true
  | _ => false

/-- The kinds that messages become. -/
def EventKind.isMessage : EventKind → Bool
  | .activityCompleted _ | .activityFailed _ | .timerFired _ | .externalEvent _ _ | .queueEventDelivered _ _
  | .subOrchestrationCompleted _ | .subOrchestrationFailed _ | .orchestrationCancelRequested _ => true
  | _ => false

/-- The kinds that neither begin nor end an execution. -/
def EventKind.isInner (kind : EventKind) : Bool := !kind.isStarted && !kind.isTerminal

theorem EventKind.isInner_of_isBreadcrumb {kind : EventKind} (breadcrumb : kind.isBreadcrumb) : kind.isInner := by
  cases kind <;> first | rfl | cases breadcrumb

theorem EventKind.isInner_of_isMessage {kind : EventKind} (message : kind.isMessage) : kind.isInner := by
  cases kind <;> first | rfl | cases message

theorem EventKind.isBreadcrumb_of_isMessage {kind : EventKind} (message : kind.isMessage) : kind.isBreadcrumb = false := by
  cases kind <;> first | rfl | cases message

theorem EventKind.isStarted_of_isInner {kind : EventKind} (inner : kind.isInner) : kind.isStarted = false := by
  simp only [EventKind.isInner, Bool.and_eq_true, Bool.not_eq_true'] at inner
  exact inner.1

theorem EventKind.isTerminal_of_isInner {kind : EventKind} (inner : kind.isInner) : kind.isTerminal = false := by
  simp only [EventKind.isInner, Bool.and_eq_true, Bool.not_eq_true'] at inner
  exact inner.2

theorem EventKind.isTerminal_of_isBreadcrumb {kind : EventKind} (breadcrumb : kind.isBreadcrumb) :
    kind.isTerminal = false :=
  isTerminal_of_isInner (isInner_of_isBreadcrumb breadcrumb)

theorem EventKind.isStarted_of_isTerminal {kind : EventKind} (terminal : kind.isTerminal) : kind.isStarted = false := by
  cases kind <;> first | rfl | cases terminal

theorem messageToEventKind_isMessage {engine : ReplayEngine} {item : WorkItem} {source : Option Nat} {kind : EventKind}
    (converted : engine.messageToEventKind item = some (source, kind)) : kind.isMessage := by
  cases item with
  | cancelInstance instanceId reason =>
    simp only [ReplayEngine.messageToEventKind] at converted
    split_ifs at converted
    cases converted
    rfl
  | startOrchestration | activityExecute | continueAsNew => cases converted
  | activityCompleted | activityFailed | timerFired | externalRaised | subOrchCompleted | subOrchFailed
  | queueMessage =>
    cases converted
    rfl

theorem actionToEvent_spec {stamp : Stamp} {action : Action} {instanceId : String} {executionId eventId : Nat}
    {event : Event} (converted : actionToEvent stamp action instanceId executionId eventId = some event) :
    event.eventId = eventId ∧ event.kind.isInner := by
  cases action <;> cases converted <;> exact ⟨rfl, rfl⟩

namespace ReplayEngine

variable {State : Type} {engine : ReplayEngine}

/-! ## The steps of an evaluation -/

/-- What an engine does to its records after the messages are prepared. -/
inductive Records (engine : ReplayEngine) : ReplayEngine → Prop
  | action (ctx : CtxInner) (emitted : Nat × Action) : Records engine (engine.convertEmittedAction ctx emitted).1
  | breadcrumb (id : Nat) (kind : EventKind) (isBreadcrumb : kind.isBreadcrumb) :
      Records engine (engine.pushEvent (some id) kind)
  | cancelled (activities : List Nat) (children : List String) :
      Records engine { engine with cancelledActivityIds := activities, cancelledSubOrchestrationIds := children }

abbrev Recorded : ReplayEngine → ReplayEngine → Prop := Relation.ReflTransGen Records

theorem convertEmittedActions_recorded (engine : ReplayEngine) (ctx : CtxInner) (actions : List (Nat × Action)) :
    Recorded engine (engine.convertEmittedActions ctx actions).1 := by
  unfold convertEmittedActions
  induction actions generalizing engine ctx with
  | nil => exact .refl
  | cons emitted rest ih => exact .head (.action ctx emitted) (ih _ _)

/-- Every emitted action becomes pending. -/
theorem length_convertEmittedActions (engine : ReplayEngine) (ctx : CtxInner) (actions : List (Nat × Action)) :
    (engine.convertEmittedActions ctx actions).1.pendingActions.length = engine.pendingActions.length + actions.length := by
  unfold convertEmittedActions
  induction actions generalizing engine ctx with
  | nil => rfl
  | cons emitted rest ih =>
    refine (ih _ _).trans ?_
    simp only [List.length_append, List.length_cons, List.length_nil]
    omega

theorem pending_of_emits (engine : ReplayEngine) (ctx : CtxInner) {actions : List (Nat × Action)} (emits : actions ≠ []) :
    (engine.convertEmittedActions ctx actions).1.pendingActions ≠ [] := by
  apply List.ne_nil_of_length_pos
  rw [length_convertEmittedActions]
  exact Nat.add_pos_right _ (List.length_pos_iff.mpr emits)

theorem runQuiescenceLoop_recorded (poll : State → Script State) (remaining : Nat) (replay : Replay State) :
    Recorded engine (engine.runQuiescenceLoop poll remaining replay).2 := by
  induction remaining generalizing engine replay with
  | zero => exact .refl
  | succ remaining ih =>
    unfold runQuiescenceLoop
    split
    · exact .refl
    split
    · exact .refl
    have converted := convertEmittedActions_recorded engine
    dsimp only
    split_ifs
    · exact converted _ _
    · exact converted _ _
    · exact (converted _ _).trans (ih _)

theorem evaluate_recorded (engine : ReplayEngine) (handler : OrchestrationHandler)
    (input orchestrationName orchestrationVersion : String) :
    Recorded engine (engine.evaluate handler input orchestrationName orchestrationVersion).2 := by
  unfold evaluate
  split
  · exact .refl
  · exact (convertEmittedActions_recorded _ _ _).trans (runQuiescenceLoop_recorded _ _ _)

theorem recordCancellations_recorded {breadcrumb : EventKind} (isBreadcrumb : breadcrumb.isBreadcrumb)
    (ids seen : List Nat) : Recorded engine (recordCancellations breadcrumb ids seen engine).2 := by
  induction ids generalizing engine seen with
  | nil => exact .refl
  | cons id rest ih =>
    unfold recordCancellations
    split_ifs
    · exact ih seen
    · exact .head (.breadcrumb id breadcrumb isBreadcrumb) (ih _)

theorem collectCancelledFromContext_recorded {ctx after : CtxInner} {result : ReplayEngine}
    (collected : engine.collectCancelledFromContext ctx = .ok (result, after)) : Recorded engine result := by
  unfold collectCancelledFromContext at collected
  dsimp only at collected
  split_ifs at collected
  cases collected
  refine Relation.ReflTransGen.tail ?_ (.cancelled _ _)
  refine .trans ?_ (recordCancellations_recorded rfl _ _)
  refine .trans ?_ (recordCancellations_recorded rfl _ _)
  refine .trans ?_ (recordCancellations_recorded rfl _ _)
  exact recordCancellations_recorded rfl _ _

theorem finalizeTurn_recorded (ctx : CtxInner) (output : Option (Except String String)) :
    Recorded engine (engine.finalizeTurn ctx output).2 := by
  unfold finalizeTurn
  split
  · exact .refl
  split
  · exact .refl
  split
  · exact .refl
  rename_i after _ collected
  have recorded := collectCancelledFromContext_recorded collected
  split
  · exact recorded
  · exact recorded
  · exact recorded

/-- A turn extends the records of its engine step by step. -/
theorem executeOrchestration_recorded (handler : OrchestrationHandler)
    (input orchestrationName orchestrationVersion : String) :
    Recorded engine (engine.executeOrchestration handler input orchestrationName orchestrationVersion).2 := by
  unfold executeOrchestration
  dsimp only
  split
  · exact .refl
  split_ifs
  · exact .refl
  · exact .refl
  · exact .refl
  have evaluated := evaluate_recorded engine handler input orchestrationName orchestrationVersion
  split
  · rename_i ran
    rwa [ran] at evaluated
  · rename_i ran
    rw [ran] at evaluated
    exact evaluated.trans (finalizeTurn_recorded _ _)

/-! ## Actions and their events -/

/-- A reading of the events of an execution and of actions: the event of an action reads as the action, and
events of another origin read as nothing. -/
structure Projects {Reading : Type} (instanceId : String) (executionId : Nat) (ofEvent : Event → Option Reading)
    (ofAction : Action → Option Reading) : Prop where
  action : ∀ stamp action eventId, (actionToEvent stamp (updateActionEventId action eventId) instanceId executionId
    eventId).bind ofEvent = ofAction (updateActionEventId action eventId)
  message : ∀ event, event.kind.isMessage → ofEvent event = none
  breadcrumb : ∀ event, event.kind.isBreadcrumb → ofEvent event = none

theorem Recorded.identity {result : ReplayEngine} (recorded : Recorded engine result) :
    result.instanceId = engine.instanceId ∧ result.executionId = engine.executionId := by
  induction recorded with
  | refl => exact ⟨rfl, rfl⟩
  | tail _ records ih => cases records <;> exact ih

/-- What is read of the events that an engine recorded is what is read of its pending actions, in order. -/
def Projected {Reading : Type} (ofEvent : Event → Option Reading) (ofAction : Action → Option Reading)
    (engine : ReplayEngine) : Prop :=
  engine.historyDelta.filterMap ofEvent = engine.pendingActions.filterMap ofAction

namespace Projects

variable {Reading : Type} {ofEvent : Event → Option Reading} {ofAction : Action → Option Reading} {result : ReplayEngine}

theorem records (projects : Projects engine.instanceId engine.executionId ofEvent ofAction)
    (projected : Projected ofEvent ofAction engine) (records : Records engine result) :
    Projected ofEvent ofAction result := by
  unfold Projected at projected
  cases records with
  | action ctx emitted =>
    change (engine.historyDelta ++ Option.toList _).filterMap ofEvent = (engine.pendingActions ++ [_]).filterMap ofAction
    rw [List.filterMap_append, List.filterMap_append, projected]
    have same := projects.action engine.stamp emitted.2 engine.nextEventId
    congr 1
    rw [List.filterMap_cons, ← same, List.filterMap_nil]
    cases actionToEvent engine.stamp (updateActionEventId emitted.2 engine.nextEventId) engine.instanceId
      engine.executionId engine.nextEventId with
    | none => rfl
    | some event => rfl
  | breadcrumb id kind isBreadcrumb =>
    change (engine.historyDelta ++ [_]).filterMap ofEvent = engine.pendingActions.filterMap ofAction
    rw [List.filterMap_append, projected, List.filterMap_cons, projects.breadcrumb _ isBreadcrumb]
    exact List.append_nil _
  | cancelled activities children => exact projected

theorem recorded (projects : Projects engine.instanceId engine.executionId ofEvent ofAction)
    (projected : Projected ofEvent ofAction engine) (recorded : Recorded engine result) :
    Projected ofEvent ofAction result := by
  induction recorded with
  | refl => exact projected
  | tail earlier records ih =>
    obtain ⟨sameInstance, sameExecution⟩ := Recorded.identity earlier
    exact Projects.records (sameInstance ▸ sameExecution ▸ projects) ih records

end Projects

/-! ## Preparing messages -/

/-- A message leaves the engine's records alone or becomes its next event. -/
theorem prepCompletion_cases (engine : ReplayEngine) (message : WorkItem) :
    (∃ abortError, engine.prepCompletion message = { engine with abortError }) ∨
      ∃ abortError source kind, engine.messageToEventKind message = some (source, kind) ∧
        engine.prepCompletion message = { engine with abortError }.pushEvent source kind := by
  unfold prepCompletion
  split_ifs
  · exact .inl ⟨engine.abortError, rfl⟩
  · exact .inl ⟨engine.abortError, rfl⟩
  · exact .inl ⟨engine.abortError, rfl⟩
  split
  · rename_i error _
    exact .inl ⟨some error, rfl⟩
  obtain ⟨abortError, aborted⟩ : ∃ abortError, engine.abortOnSystemError message = { engine with abortError } := by
    unfold abortOnSystemError
    split
    · split_ifs
      · exact ⟨_, rfl⟩
      · exact ⟨engine.abortError, rfl⟩
    · split_ifs
      · exact ⟨_, rfl⟩
      · exact ⟨engine.abortError, rfl⟩
    · exact ⟨engine.abortError, rfl⟩
  dsimp only
  rw [aborted]
  split
  · rename_i source kind converted
    exact .inr ⟨abortError, source, kind, converted, rfl⟩
  · exact .inl ⟨abortError, rfl⟩

theorem prepCompletions_baselineHistory (engine : ReplayEngine) (messages : List WorkItem) :
    (engine.prepCompletions messages).baselineHistory = engine.baselineHistory := by
  unfold prepCompletions
  induction messages generalizing engine with
  | nil => rfl
  | cons message rest ih =>
    rw [List.foldl_cons, ih]
    rcases engine.prepCompletion_cases message with ⟨_, unchanged⟩ | ⟨_, _, _, _, pushed⟩
    · rw [unchanged]
    · rw [pushed]
      rfl

/-- Messages are not read, and no action is pending for them. -/
theorem Projects.prepCompletions {Reading : Type} {ofEvent : Event → Option Reading} {ofAction : Action → Option Reading}
    (projects : Projects engine.instanceId engine.executionId ofEvent ofAction)
    (projected : Projected ofEvent ofAction engine) (messages : List WorkItem) :
    Projected ofEvent ofAction (engine.prepCompletions messages) ∧
      (engine.prepCompletions messages).instanceId = engine.instanceId ∧
      (engine.prepCompletions messages).executionId = engine.executionId := by
  unfold ReplayEngine.prepCompletions
  induction messages generalizing engine with
  | nil => exact ⟨projected, rfl, rfl⟩
  | cons message rest ih =>
    rw [List.foldl_cons]
    rcases engine.prepCompletion_cases message with ⟨_, unchanged⟩ | ⟨_, _, kind, converted, pushed⟩
    · rw [unchanged]
      exact ih projects projected
    · rw [pushed]
      refine @ih ({ engine with abortError := _ }.pushEvent _ kind) projects ?_
      unfold Projected at projected ⊢
      change (engine.historyDelta ++ [_]).filterMap ofEvent = engine.pendingActions.filterMap ofAction
      rw [List.filterMap_append, projected, List.filterMap_cons,
        projects.message _ (messageToEventKind_isMessage converted)]
      exact List.append_nil _

end ReplayEngine

/-! ## Origins -/

/-- Where an event in an appended delta comes from. -/
inductive Origin (event : Event) : Prop
  | started (isStarted : event.kind.isStarted) (first : event.eventId = INITIAL_EVENT_ID)
  | message (engine : ReplayEngine) (item : WorkItem) (source : Option Nat)
      (converted : engine.messageToEventKind item = some (source, event.kind))
  | action (stamp : Stamp) (instanceId : String) (executionId eventId : Nat) (emitted : Action)
      (converted : actionToEvent stamp (updateActionEventId emitted eventId) instanceId executionId eventId = some event)
  | breadcrumb (isBreadcrumb : event.kind.isBreadcrumb)
  | terminal (isTerminal : event.kind.isTerminal)

/-- Only the first event of an execution starts it. -/
theorem Origin.eventId_of_isStarted {event : Event} (origin : Origin event) (started : event.kind.isStarted) :
    event.eventId = INITIAL_EVENT_ID := by
  cases origin with
  | started _ first => exact first
  | message engine item source converted =>
    have inner := EventKind.isInner_of_isMessage (messageToEventKind_isMessage converted)
    rw [EventKind.isStarted_of_isInner inner] at started
    cases started
  | action stamp instanceId executionId eventId emitted converted =>
    rw [EventKind.isStarted_of_isInner (actionToEvent_spec converted).2] at started
    cases started
  | breadcrumb isBreadcrumb =>
    rw [EventKind.isStarted_of_isInner (EventKind.isInner_of_isBreadcrumb isBreadcrumb)] at started
    cases started
  | terminal isTerminal =>
    rw [EventKind.isTerminal_of_isStarted started] at isTerminal
    cases isTerminal

namespace ReplayEngine

variable {engine result : ReplayEngine}

theorem Records.origin (records : Records engine result) (known : ∀ event ∈ engine.historyDelta, Origin event) :
    ∀ event ∈ result.historyDelta, Origin event := by
  intro event member
  cases records with
  | action ctx emitted =>
    rcases List.mem_append.mp member with old | new
    · exact known event old
    · exact .action _ _ _ _ _ (Option.mem_toList.mp new)
  | breadcrumb id kind isBreadcrumb =>
    rcases List.mem_append.mp member with old | new
    · exact known event old
    · rw [List.mem_singleton.mp new]
      exact .breadcrumb isBreadcrumb
  | cancelled activities children => exact known event member

theorem Recorded.origin (recorded : Recorded engine result) (known : ∀ event ∈ engine.historyDelta, Origin event) :
    ∀ event ∈ result.historyDelta, Origin event := by
  induction recorded with
  | refl => exact known
  | tail _ records ih => exact records.origin ih

theorem prepCompletion_origin (message : WorkItem) (known : ∀ event ∈ engine.historyDelta, Origin event) :
    ∀ event ∈ (engine.prepCompletion message).historyDelta, Origin event := by
  rcases engine.prepCompletion_cases message with ⟨abortError, unchanged⟩ | ⟨abortError, source, kind, converted, pushed⟩
  · rw [unchanged]
    exact known
  · rw [pushed]
    intro event member
    rcases List.mem_append.mp member with old | new
    · exact known event old
    · rw [List.mem_singleton.mp new]
      exact .message engine message source converted

theorem prepCompletions_origin (messages : List WorkItem) (known : ∀ event ∈ engine.historyDelta, Origin event) :
    ∀ event ∈ (engine.prepCompletions messages).historyDelta, Origin event := by
  unfold prepCompletions
  induction messages generalizing engine with
  | nil => exact known
  | cons message rest ih => exact ih (prepCompletion_origin message known)

end ReplayEngine

namespace Execution

variable {stamp : Stamp} {instanceId orchestrationName : String} {executionId : Nat} {manager : HistoryManager}

theorem emitBreadcrumbs_delta (manager : HistoryManager) (kind : EventKind) (ids : List Nat) :
    ∃ breadcrumbs, (emitBreadcrumbs stamp instanceId executionId kind manager ids).delta = manager.delta ++ breadcrumbs ∧
      ∀ event ∈ breadcrumbs, event.kind = kind := by
  unfold emitBreadcrumbs
  induction ids generalizing manager with
  | nil => exact ⟨[], (List.append_nil _).symm, fun _ none => absurd none List.not_mem_nil⟩
  | cons id rest ih =>
    obtain ⟨breadcrumbs, extended, kinds⟩ := @ih (manager.append _)
    refine ⟨_ :: breadcrumbs, extended.trans (List.append_assoc _ _ _), ?_⟩
    intro event member
    rcases List.mem_cons.mp member with rfl | later
    · rfl
    · exact kinds event later

theorem emitBreadcrumbs_origin {kind : EventKind} (isBreadcrumb : kind.isBreadcrumb) (ids : List Nat)
    (known : ∀ event ∈ manager.delta, Origin event) :
    ∀ event ∈ (emitBreadcrumbs stamp instanceId executionId kind manager ids).delta, Origin event := by
  obtain ⟨breadcrumbs, extended, kinds⟩ := emitBreadcrumbs_delta manager kind ids
  rw [extended]
  intro event member
  rcases List.mem_append.mp member with old | new
  · exact known event old
  · exact .breadcrumb (by rwa [kinds event new])

theorem emitTerminalCancellationBreadcrumbs_origin (outstanding : OutstandingSchedules)
    (known : ∀ event ∈ manager.delta, Origin event) :
    ∀ event ∈ (emitTerminalCancellationBreadcrumbs stamp manager instanceId executionId outstanding).delta,
      Origin event :=
  emitBreadcrumbs_origin rfl _ (emitBreadcrumbs_origin rfl _ known)

theorem append_origin {appended : Event} (known : ∀ event ∈ manager.delta, Origin event) (origin : Origin appended) :
    ∀ event ∈ (manager.append appended).delta, Origin event := by
  intro event member
  rcases List.mem_append.mp member with old | new
  · exact known event old
  · rwa [List.mem_singleton.mp new]

theorem applyTurnResult_origin (executionIds : ExecutionIds) (parentLink : Option (String × Nat))
    (pendingActions : List Action) (result : TurnResult) (known : ∀ event ∈ manager.delta, Origin event) :
    ∀ event ∈ (applyTurnResult stamp executionIds instanceId orchestrationName executionId manager parentLink
      pendingActions result).historyMgr.delta, Origin event := by
  have ended : ∀ outstanding, ∀ event ∈ (emitTerminalCancellationBreadcrumbs stamp manager instanceId executionId
      outstanding).delta, Origin event :=
    fun outstanding => emitTerminalCancellationBreadcrumbs_origin outstanding known
  cases result with
  | «continue» => exact known
  | completed output => exact append_origin (ended _) (.terminal rfl)
  | failed details => exact append_origin (ended _) (.terminal rfl)
  | continueAsNew input version => exact append_origin (ended _) (.terminal rfl)
  | cancelled reason => exact append_origin (ended _) (.terminal rfl)

/-- A turn adds to a manager's events, each of them with an origin. -/
theorem runSingleExecutionAtomic_origin (executionIds : ExecutionIds) (reader : WorkItemReader)
    (handler : OrchestrationHandler) (orchestrationVersion : String) (kvSnapshot : AList (fun _ : String => KvEntry))
    (known : ∀ event ∈ manager.delta, Origin event) :
    ∀ event ∈ (runSingleExecutionAtomic stamp executionIds instanceId manager reader executionId handler
      orchestrationVersion kvSnapshot).historyMgr.delta, Origin event := by
  refine applyTurnResult_origin _ _ _ _ ?_
  intro event member
  rcases List.mem_append.mp member with old | new
  · exact known event old
  · refine ReplayEngine.Recorded.origin (ReplayEngine.executeOrchestration_recorded _ _ _ _) ?_ event new
    exact ReplayEngine.prepCompletions_origin _ fun _ none => absurd none List.not_mem_nil

end Execution

namespace Dispatcher

variable {semver : Semver} {env : RuntimeEnv semver} {item : OrchestrationItem} {executionId attemptCount : Nat}
  {request : AckRequest semver} {fallback : Option (ProviderError → AckRequest semver)}

/-- A request and its fallback append events with an origin only. -/
structure RequestOrigin (request : AckRequest semver) (fallback : Option (ProviderError → AckRequest semver)) :
    Prop where
  request : ∀ event ∈ request.historyDelta, Origin event
  fallback : ∀ commit, fallback = some commit → ∀ error, ∀ event ∈ (commit error).historyDelta, Origin event

theorem fromHistory_origin (history : List Event) : ∀ event ∈ (HistoryManager.fromHistory history).delta, Origin event := by
  simp

theorem failureCommit_origin (error : ProviderError) :
    ∀ event ∈ (failureCommit env item executionId error).historyDelta, Origin event :=
  Execution.append_origin (fromHistory_origin _) (.terminal rfl)

theorem failOrchestrationAsPoison_origin :
    ∀ event ∈ (failOrchestrationAsPoison env item attemptCount).historyDelta, Origin event := by
  unfold failOrchestrationAsPoison
  split
  · intro event member
    rw [List.mem_singleton.mp member]
    exact .terminal rfl
  · refine Execution.append_origin ?_ (.terminal rfl)
    unfold poisonManager
    dsimp only
    split_ifs
    · exact Execution.append_origin (fromHistory_origin _) (.started rfl rfl)
    · exact fromHistory_origin _

theorem enforceLimits_origin {outcome : ExecutionOutcome}
    (known : ∀ event ∈ outcome.historyMgr.delta, Origin event) :
    ∀ event ∈ (enforceLimits env item executionId outcome).1.historyMgr.delta, Origin event := by
  unfold enforceLimits
  dsimp only
  split
  · exact known
  · exact Execution.append_origin known (.terminal rfl)

theorem cancelInflight_origin {stamp : Stamp} {instanceId : String} {outcome : ExecutionOutcome}
    (status : Option ExecutionStatus) (known : ∀ event ∈ outcome.historyMgr.delta, Origin event) :
    ∀ event ∈ (cancelInflight stamp instanceId executionId outcome status).1.delta, Origin event := by
  cases status with
  | some status => exact Execution.emitBreadcrumbs_origin rfl _ known
  | none => exact known

theorem finishTurn_origin {outcome : ExecutionOutcome} (known : ∀ event ∈ outcome.historyMgr.delta, Origin event)
    (decided : finishTurn env item executionId outcome = .ack request fallback) :
    RequestOrigin request fallback := by
  unfold finishTurn at decided
  cases decided
  refine ⟨cancelInflight_origin _ (enforceLimits_origin known), fun commit same => ?_⟩
  cases same
  exact failureCommit_origin

theorem resolveAndExecuteOrchestrationHandler_origin {manager : HistoryManager} {reader : WorkItemReader}
    {outcome : ExecutionOutcome} {instanceId : String} {kvSnapshot : AList (fun _ : String => KvEntry)}
    (known : ∀ event ∈ manager.delta, Origin event)
    (executed : resolveAndExecuteOrchestrationHandler env instanceId manager reader executionId kvSnapshot =
      some outcome) :
    ∀ event ∈ outcome.historyMgr.delta, Origin event := by
  obtain ⟨⟨version, handler⟩, _, rfl⟩ := Option.map_eq_some_iff.mp executed
  refine Execution.runSingleExecutionAtomic_origin _ _ _ _ _ ?_
  unfold startIfNew
  split_ifs
  · exact Execution.append_origin known (.started rfl rfl)
  · exact known

theorem executeTurn_origin (decided : executeTurn env item attemptCount = .ack request fallback) :
    RequestOrigin request fallback := by
  have opened : ∀ event ∈ (turnExecution item).2.delta, Origin event := by
    unfold turnExecution
    split_ifs
    · exact fromHistory_origin []
    · exact fromHistory_origin item.history
  unfold executeTurn at decided
  dsimp only at decided
  split_ifs at decided
  · split at decided
    · rename_i executed
      exact finishTurn_origin (resolveAndExecuteOrchestrationHandler_origin opened executed) decided
    · cases decided
  · exact finishTurn_origin opened decided

/-- Every event that a dispatcher wants appended has an origin. -/
theorem handleFetchedItem_origin (decided : handleFetchedItem env item attemptCount = .ack request fallback) :
    RequestOrigin request fallback := by
  have processed : processOrchestrationItem env item attemptCount = .ack request fallback →
      RequestOrigin request fallback := by
    intro processed
    unfold processOrchestrationItem at processed
    split_ifs at processed
    · cases processed
      exact ⟨failOrchestrationAsPoison_origin, nofun⟩
    · cases processed
      exact ⟨fun _ none => absurd none List.not_mem_nil, nofun⟩
    · exact executeTurn_origin processed
  unfold handleFetchedItem at decided
  split at decided
  · split_ifs at decided
    exact processed decided
  · exact processed decided

end Dispatcher

end Duroxide
