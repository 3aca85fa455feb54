import Duroxide.Proofs.Turns

/-! # Turns and their engines

A turn that runs a handler appends what opens its execution, what its engine recorded and what ends it, and
asks for the items of its result and of the children that it dropped. Limits and activities in flight add no
more than a failure and breadcrumbs.
-/

namespace Duroxide.Dispatcher

open HistoryManager

variable {semver : Semver} {env : RuntimeEnv semver} {item : OrchestrationItem} {outcome : ExecutionOutcome}
  {result : TurnResult} {engine : ReplayEngine} {manager : HistoryManager} {ending : List Event}

/-- The result of a turn's handler, with the engine that ran it; none when nothing ran. -/
def turnExecuted (env : RuntimeEnv semver) (item : OrchestrationItem) : Option (TurnResult × ReplayEngine) :=
  if (workitemReader item).hasOrchestrationName then
    (resolveTurnHandler env.registry (workitemReader item).orchestrationName (workitemReader item).version).map
      fun (version, handler) => Execution.executedTurn env.stamp item.instanceId
        (startIfNew env.stamp item.instanceId (turnExecution item).1 (workitemReader item) (semver.render version)
          (turnExecution item).2)
        (workitemReader item) (turnExecution item).1 handler (semver.render version) item.kvSnapshot
  else none

/-- The engine of a turn when its batch is prepared, over the events that `manager` opened the turn with. -/
def preparedEngine (env : RuntimeEnv semver) (item : OrchestrationItem) (manager : HistoryManager) : ReplayEngine :=
  Execution.prepareTurn env.stamp item.instanceId (turnExecution item).1 manager (workitemReader item) item.kvSnapshot

/-- What the result of a turn's handler is turned into. -/
def appliedResult (env : RuntimeEnv semver) (item : OrchestrationItem) (manager : HistoryManager) (result : TurnResult)
    (engine : ReplayEngine) : ExecutionOutcome :=
  Execution.applyTurnResult env.stamp env.executionIds item.instanceId (workitemReader item).orchestrationName
    (turnExecution item).1 (manager.extend engine.historyDelta) manager.extractContext.2 engine.pendingActions result

/-- What a turn makes of the result of its handler; `manager` opened the turn. -/
structure Turned (env : RuntimeEnv semver) (item : OrchestrationItem) (result : TurnResult) (engine : ReplayEngine)
    (outcome : ExecutionOutcome) (manager : HistoryManager) (ending : List Event) : Prop where
  history : manager.history = baseHistory item (turnExecution item).1
  opens : Opening env item manager.delta
  ran : ∃ version handler, resolveTurnHandler env.registry (workitemReader item).orchestrationName
      (workitemReader item).version = some (version, handler) ∧
    (result, engine) = (preparedEngine env item manager).executeOrchestration handler manager.extractContext.1
      (workitemReader item).orchestrationName (semver.render version)
  historyMgr : outcome.historyMgr = (appliedResult env item manager result engine).historyMgr
  delta : outcome.historyMgr.delta = manager.delta ++ (engine.historyDelta ++ ending)
  ends : Execution.Ends result ending
  workerItems : outcome.workerItems = (appliedResult env item manager result engine).workerItems
  orchestratorItems : outcome.orchestratorItems = (appliedResult env item manager result engine).orchestratorItems ++
    engine.cancelledSubOrchestrationIds.map fun child =>
      .cancelInstance (buildChildInstanceId item.instanceId child) "parent dropped sub-orchestration future"
  cancelledActivities : outcome.cancelledActivities =
    engine.cancelledActivityIds.map fun id => ⟨item.instanceId, (turnExecution item).1, id⟩

/-- The events of a turn's execution, opened by the turn if it is new. -/
def openedManager (env : RuntimeEnv semver) (item : OrchestrationItem) (version : semver.Version) : HistoryManager :=
  startIfNew env.stamp item.instanceId (turnExecution item).1 (workitemReader item) (semver.render version)
    (turnExecution item).2

theorem turned_of_resolved {version : semver.Version} {handler : OrchestrationHandler}
    (named : (workitemReader item).hasOrchestrationName)
    (resolved : resolveTurnHandler env.registry (workitemReader item).orchestrationName (workitemReader item).version =
      some (version, handler))
    (run : (preparedEngine env item (openedManager env item version)).executeOrchestration handler
      (openedManager env item version).extractContext.1 (workitemReader item).orchestrationName (semver.render version) =
        (result, engine))
    (ran : turnOutcome env item = some outcome) :
    ∃ ending, Turned env item result engine outcome (openedManager env item version) ending := by
  rw [turnOutcome, if_pos named, resolveAndExecuteOrchestrationHandler, resolved] at ran
  cases ran
  obtain ⟨opening, opens, started⟩ := startIfNew_extends env item named version
  have base : (turnExecution item).2.history = baseHistory item (turnExecution item).1 := by
    rw [← turnExecution_fullHistory, HistoryManager.fullHistory, turnExecution_delta, List.append_nil]
  unfold openedManager at run ⊢
  dsimp only at run ⊢
  generalize startIfNew env.stamp item.instanceId (turnExecution item).1 (workitemReader item) (semver.render version)
    (turnExecution item).2 = manager at started run ⊢
  obtain rfl : manager.delta = opening := by rw [started.delta, turnExecution_delta, List.nil_append]
  obtain ⟨ending, ended, ends⟩ := @Execution.applyTurnResult_extends env.stamp item.instanceId
    (workitemReader item).orchestrationName (turnExecution item).1 env.executionIds (manager.extend engine.historyDelta)
    manager.extractContext.2 engine.pendingActions result
  have applied := run
  unfold preparedEngine at applied
  refine ⟨ending, started.history.trans base, opens, ⟨version, handler, resolved, run.symm⟩, ?_, ?_, ends, ?_, ?_, ?_⟩
  · unfold Execution.runSingleExecutionAtomic
    dsimp only
    rw [applied]
    rfl
  · unfold Execution.runSingleExecutionAtomic
    dsimp only
    rw [applied, ended.delta, HistoryManager.extend, List.append_assoc]
  · unfold Execution.runSingleExecutionAtomic
    dsimp only
    rw [applied]
    rfl
  · unfold Execution.runSingleExecutionAtomic
    dsimp only
    rw [applied]
    rfl
  · unfold Execution.runSingleExecutionAtomic
    dsimp only
    rw [applied]

theorem turned_of_executed (executed : turnExecuted env item = some (result, engine))
    (ran : turnOutcome env item = some outcome) : ∃ manager ending, Turned env item result engine outcome manager ending := by
  unfold turnExecuted at executed
  split_ifs at executed with named
  obtain ⟨⟨version, handler⟩, resolved, run⟩ := Option.map_eq_some_iff.mp executed
  exact ⟨_, turned_of_resolved named resolved run ran⟩

/-- A turn that runs no handler leaves everything as it is. -/
theorem outcome_of_unexecuted (idle : turnExecuted env item = none) (ran : turnOutcome env item = some outcome) :
    outcome = { historyMgr := (turnExecution item).2 } := by
  cases ran_of_turnOutcome ran with
  | unnamed => rfl
  | executed named version handler resolved =>
    rw [turnExecuted, if_pos named, resolved] at idle
    cases idle

/-- The engine of a turn only recorded since its batch was prepared. -/
theorem Turned.recorded (turned : Turned env item result engine outcome manager ending) :
    ReplayEngine.Recorded (preparedEngine env item manager) engine := by
  obtain ⟨version, handler, _, run⟩ := turned.ran
  rw [(Prod.mk.inj run).2]
  exact ReplayEngine.executeOrchestration_recorded _ _ _ _

/-- The events that the engine of a turn recorded read as its pending actions. -/
theorem Turned.projected {Reading : Type} {ofEvent : Event → Option Reading} {ofAction : Action → Option Reading}
    (projects : ReplayEngine.Projects item.instanceId (turnExecution item).1 ofEvent ofAction)
    (turned : Turned env item result engine outcome manager ending) : ReplayEngine.Projected ofEvent ofAction engine := by
  obtain ⟨prepared, sameInstance, sameExecution⟩ := @ReplayEngine.Projects.prepCompletions
    (((ReplayEngine.new env.stamp item.instanceId (turnExecution item).1 manager.fullHistory).withPersistedHistoryLen
      manager.originalLen).withKvSnapshot item.kvSnapshot) _ _ _ projects rfl (workitemReader item).completionMessages
  refine ReplayEngine.Projects.recorded ?_ prepared turned.recorded
  rw [sameInstance, sameExecution]
  exact projects

/-! ## Readings of the events of a turn -/

/-- A reading of events that sees neither the begin and the end of an execution nor breadcrumbs. -/
structure ReadsInner {Reading : Type} (ofEvent : Event → Option Reading) : Prop where
  outer : ∀ event, event.kind.isInner = false → ofEvent event = none
  breadcrumb : ∀ event, event.kind.isBreadcrumb → ofEvent event = none

/-- Behind the events of its outcome a turn appends a failure, if a limit is exceeded, and breadcrumbs. -/
theorem turnRequest_delta (env : RuntimeEnv semver) (item : OrchestrationItem) (outcome : ExecutionOutcome) :
    ∃ limit trailing, (turnRequest env item outcome).historyDelta = outcome.historyMgr.delta ++ limit ++ trailing ∧
      (∀ event ∈ limit, event.kind.isTerminal) ∧ ∀ event ∈ trailing, event.kind.isBreadcrumb := by
  obtain ⟨limit, limited⟩ := enforceLimits_limited env item (turnExecution item).1 outcome
  obtain ⟨trailing, cancelled, kinds⟩ := cancelInflight_extends env.stamp item.instanceId (turnExecution item).1
    (enforceLimits env item (turnExecution item).1 outcome).1 (enforceLimits env item (turnExecution item).1 outcome).2.status
  exact ⟨limit, trailing, (limited.extends.trans cancelled).delta.trans (List.append_assoc _ _ _).symm, limited.terminal,
    kinds⟩

namespace ReadsInner

variable {Reading : Type} {ofEvent : Event → Option Reading}

theorem terminal (reads : ReadsInner ofEvent) {event : Event} (terminal : event.kind.isTerminal) : ofEvent event = none :=
  reads.outer event (by simp [EventKind.isInner, terminal])

/-- The inner events of a turn's request are those of its outcome. -/
theorem turnRequest (reads : ReadsInner ofEvent) (env : RuntimeEnv semver) (item : OrchestrationItem)
    (outcome : ExecutionOutcome) :
    (Dispatcher.turnRequest env item outcome).historyDelta.filterMap ofEvent =
      outcome.historyMgr.delta.filterMap ofEvent := by
  obtain ⟨limit, trailing, delta, terminal, breadcrumbs⟩ := turnRequest_delta env item outcome
  have limits : limit.filterMap ofEvent = [] :=
    List.filterMap_eq_nil_iff.mpr fun event member => reads.terminal (terminal event member)
  have trails : trailing.filterMap ofEvent = [] :=
    List.filterMap_eq_nil_iff.mpr fun event member => reads.breadcrumb event (breadcrumbs event member)
  rw [delta, List.filterMap_append, List.filterMap_append, limits, trails, List.append_nil, List.append_nil]

theorem of_opening (reads : ReadsInner ofEvent) {events : List Event} (opens : Opening env item events) :
    events.filterMap ofEvent = [] := by
  refine List.filterMap_eq_nil_iff.mpr fun event member => ?_
  cases opens with
  | continues | unnamed => exact absurd member List.not_mem_nil
  | opens => exact List.mem_singleton.mp member ▸ reads.outer _ rfl

theorem of_ending (reads : ReadsInner ofEvent) {events : List Event} (ends : Execution.Ends result events) :
    events.filterMap ofEvent = [] := by
  refine List.filterMap_eq_nil_iff.mpr fun event member => ?_
  obtain ⟨marks, tail, rfl, kinds, last⟩ := ends.split
  rcases List.mem_append.mp member with mark | final
  · exact reads.breadcrumb event (kinds event mark)
  · have listed : event.kind ∈ tail.map (·.kind) := List.mem_map_of_mem final
    rw [last, Option.mem_toList] at listed
    exact reads.terminal (Execution.isTerminal_of_terminalKind listed)

/-- The inner events of a turn's request are those that its engine recorded. -/
theorem turned (reads : ReadsInner ofEvent) (turned : Turned env item result engine outcome manager ending) :
    (Dispatcher.turnRequest env item outcome).historyDelta.filterMap ofEvent = engine.historyDelta.filterMap ofEvent := by
  rw [reads.turnRequest, turned.delta, List.filterMap_append, List.filterMap_append, reads.of_opening turned.opens,
    reads.of_ending turned.ends, List.nil_append, List.append_nil]

end ReadsInner

end Duroxide.Dispatcher
