import Duroxide.Proofs.DropBreadcrumbs

/-! # Runs that drop futures

After a turn that goes on or returns a value, the breadcrumbs of dropped futures in the history are those of the
schedules whose futures the program has dropped, one for each, and the turn cancels the activities and the children
of the breadcrumbs that it recorded. A history that a run of turns reaches keeps what the next turn needs for this.
-/

namespace Duroxide

/-- Events that schedule an operation, or that cancel one. -/
def EventKind.isBooking (kind : EventKind) : Bool := kind.isSchedule || kind.isBreadcrumb

theorem EventKind.isBreadcrumb_of_unbooked {kind : EventKind} (unbooked : kind.isBooking = false) :
    kind.isBreadcrumb = false := (Bool.or_eq_false_iff.mp unbooked).2

theorem EventKind.isSchedule_of_unbooked {kind : EventKind} (unbooked : kind.isBooking = false) :
    kind.isSchedule = false := (Bool.or_eq_false_iff.mp unbooked).1

theorem EventKind.unbooked_of_isTerminal {kind : EventKind} (terminal : kind.isTerminal) : kind.isBooking = false := by
  cases kind <;> first | rfl | cases terminal

namespace Execution.Ends

variable {result : TurnResult} {ending : List Event}

theorem unscheduled (ends : Ends result ending) : ∀ event ∈ ending, event.kind.isSchedule = false := by
  obtain ⟨breadcrumbs, tail, rfl, kinds, terminal⟩ := ends.split
  intro event member
  rcases List.mem_append.mp member with crumb | last
  · have breadcrumb := kinds event crumb
    cases kind : event.kind <;> rw [kind] at breadcrumb <;> first | rfl | cases breadcrumb
  · have listed : event.kind ∈ tail.map (·.kind) := List.mem_map_of_mem last
    rw [terminal, Option.mem_toList] at listed
    exact EventKind.isSchedule_of_unbooked (EventKind.unbooked_of_isTerminal (isTerminal_of_terminalKind listed))

/-- Without a terminal event a turn goes on. -/
theorem goesOn_of_unended (ends : Ends result ending) (unended : ending.any (·.isTerminal) = false) : result = .continue := by
  obtain ⟨breadcrumbs, tail, rfl, _, terminal⟩ := ends.split
  rcases kind : terminalKind result with _ | last
  · cases result <;> first | rfl | cases kind
  · rw [kind] at terminal
    obtain ⟨event, rfl, same⟩ := List.map_eq_singleton_iff.mp terminal
    have ended := List.any_eq_false.mp unended event (List.mem_append_right _ List.mem_cons_self)
    rw [Event.isTerminal, same] at ended
    exact absurd (isTerminal_of_terminalKind kind) ended

end Execution.Ends

namespace Dispatcher

open HistoryManager ReplayEngine

variable {semver : Semver} {env : RuntimeEnv semver} {item : OrchestrationItem} {outcome : ExecutionOutcome}
  {result : TurnResult} {engine : ReplayEngine} {manager : HistoryManager} {ending : List Event}

/-! ## What a turn accounts for -/

/-- The context in which a turn leaves its program, if it evaluates one. -/
def turnContext (env : RuntimeEnv semver) (item : OrchestrationItem) : Option CtxInner :=
  if (workitemReader item).hasOrchestrationName then
    (resolveTurnHandler env.registry (workitemReader item).orchestrationName (workitemReader item).version).bind
      fun (version, handler) =>
        (preparedEngine env item (openedManager env item version)).evaluatedCtx handler
          (openedManager env item version).extractContext.1 (workitemReader item).orchestrationName (semver.render version)
  else none

/-- Cancellations of children whose futures were dropped. -/
def isCancelInstance : WorkItem → Bool
  | .cancelInstance .. => true
  | _ => false

/-- What a turn asks to record and to cancel is what its program has dropped: the breadcrumbs of dropped futures are
those of the dropped schedules, each of these has no other breadcrumb, an activity is cancelled exactly when a
breadcrumb of it is recorded, a child is cancelled exactly when the breadcrumb of its dropped future is recorded, and
nothing gets a breadcrumb again. -/
structure DropsExactly (env : RuntimeEnv semver) (item : OrchestrationItem) (request : AckRequest semver)
    (history : List Event) : Prop where
  dropped : ∀ droppable id, id ∈ droppedSources droppable history ↔
    ∃ ctx, turnContext env item = some ctx ∧ ctx.Dropped droppable id
  once : ∀ droppable, ∀ id ∈ droppedSources droppable history,
    ∃! event, event ∈ history ∧ event.kind.isBreadcrumb ∧ event.sourceEventId = some id
  activities : ∀ cancelled, cancelled ∈ request.cancelledActivities ↔
    ∃ event ∈ request.historyDelta, (activityCancelReason event.kind).isSome ∧
      ∃ id, event.sourceEventId = some id ∧ cancelled = ⟨item.instanceId, request.executionId, id⟩
  distinct : request.cancelledActivities.Nodup
  children : ∃ children : List String, (droppedSources .subOrchestration request.historyDelta).map (childScheduled history) =
      children.map some ∧
    request.orchestratorItems.filter isCancelInstance = children.map fun child =>
      .cancelInstance (buildChildInstanceId item.instanceId child) "parent dropped sub-orchestration future"
  never : ∀ old ∈ baseHistory item request.executionId, old.kind.isBreadcrumb →
    ∀ new ∈ request.historyDelta, new.kind.isBreadcrumb → old.sourceEventId ≠ new.sourceEventId

/-! ## Histories that turns reach -/

/-- A history that begins with a start event. -/
def Starts (history : List Event) : Prop := ∃ first ∈ history.head?, first.kind.isStarted

theorem Starts.append {history : List Event} (starts : Starts history) (events : List Event) : Starts (history ++ events) := by
  obtain ⟨first, head, started⟩ := starts
  obtain ⟨rest, rfl⟩ := List.head?_eq_some_iff.mp head
  exact ⟨first, rfl, started⟩

/-- What schedules an operation or cancels one is behind a start event. -/
def Opened (history : List Event) : Prop := ∀ event ∈ history, event.kind.isBooking → Starts history

namespace Opened

variable {history events : List Event}

theorem of_starts (starts : Starts history) : Opened history := fun _ _ _ => starts

theorem append (opened : Opened history)
    (behind : ∀ event ∈ events, event.kind.isBooking → Starts history) :
    Opened (history ++ events) := by
  intro event member books
  apply Starts.append
  rcases List.mem_append.mp member with old | new
  · exact opened event old books
  · exact behind event new books

theorem append_of_unbooked (opened : Opened history)
    (unbooked : ∀ event ∈ events, event.kind.isBooking = false) : Opened (history ++ events) :=
  opened.append fun event member books => absurd books (ne_true_of_eq_false (unbooked event member))

/-- Breadcrumbs that close an execution are for its schedules. -/
theorem append_of_closes (opened : Opened history) (closes : Closes history events)
    (unscheduled : ∀ event ∈ events, event.kind.isSchedule = false) : Opened (history ++ events) := by
  apply opened.append
  intro event member books
  rw [EventKind.isBooking, unscheduled event member, Bool.false_or] at books
  obtain ⟨_, _, _, _, _, _, ⟨schedule, scheduled, _, schedules⟩, _⟩ := closes event member books
  apply opened schedule scheduled
  rw [EventKind.isBooking, Droppable.eventKind_isSchedule schedules, Bool.true_or]

end Opened

/-- What runs of turns keep about a history: as long as it has not ended, its breadcrumbs are those of dropped
futures. -/
structure Kept (history : List Event) : Prop where
  ascending : Ascending history
  startsOnce : ∀ event ∈ history.tail, event.kind.isStarted = false
  opened : Opened history
  tidy : history.any (·.isTerminal) = false → Tidy history

theorem Kept.nil : Kept [] where
  ascending := .nil
  startsOnce _ none := absurd none List.not_mem_nil
  opened _ none := absurd none List.not_mem_nil
  tidy _ := ⟨fun _ none => absurd none List.not_mem_nil, fun _ none => absurd none List.not_mem_nil⟩

theorem Kept.baseHistory (kept : Kept item.history) (executionId : Nat) : Kept (baseHistory item executionId) := by
  unfold Dispatcher.baseHistory
  split_ifs
  · exact kept
  · exact .nil

/-- Only what opens an execution starts it. -/
theorem Kept.unstarted {history opening events : List Event} (kept : Kept history)
    (opens : opening = [] ∨ history = [] ∧ opening.length = 1)
    (unstarted : ∀ event ∈ events, event.kind.isStarted = false) :
    ∀ event ∈ (history ++ opening ++ events).tail, event.kind.isStarted = false := by
  intro event member
  rcases opens with rfl | ⟨rfl, single⟩
  · rw [List.append_nil] at member
    cases history with
    | nil => exact unstarted event (List.mem_of_mem_tail member)
    | cons first rest => exact (List.mem_append.mp member).elim (kept.startsOnce event) (unstarted event)
  · obtain ⟨first, rfl⟩ := List.length_eq_one_iff.mp single
    exact unstarted event member

/-- A turn over the execution that was read finds no ending behind its start. -/
theorem unended_of_running (running : isTerminalFor (tempHistoryMgr item) (workitemReader item) = false)
    (same : (workitemReader item).isContinueAsNew = false) {first : Event} {rest : List Event}
    (history : item.history = first :: rest) (started : first.kind.isStarted)
    (once : ∀ later ∈ rest, later.kind.isStarted = false) : item.history.any (·.isTerminal) = false := by
  obtain ⟨completed, failed, continued⟩ := fromHistory_state (first :: rest)
  rw [decidingEvent_cons started once] at completed failed continued
  simp only [isTerminalFor, tempHistoryMgr, history, same, completed, failed, continued, Bool.not_false, Bool.and_true,
    Bool.or_eq_false_iff] at running
  rw [history, List.any_cons, Event.isTerminal, EventKind.isTerminal_of_isStarted started, Bool.false_or]
  rcases found : rest.find? (·.isTerminal) with _ | event
  · rw [List.any_eq_false]
    exact List.find?_eq_none.mp found
  · have terminal := List.find?_some found
    rw [found] at running
    obtain ⟨⟨notCompleted, notFailed⟩, notContinued⟩ := running
    obtain ⟨eventId, source, instanceId, executionId, timestamp, crate, kind⟩ := event
    cases kind with
    | orchestrationCompleted => cases notCompleted
    | orchestrationFailed => cases notFailed
    | orchestrationContinuedAsNew => cases notContinued
    | _ => cases terminal

/-- A turn that continues an execution which has started finds no ending in it. -/
theorem unended_of_starts (kept : Kept item.history)
    (running : isTerminalFor (tempHistoryMgr item) (workitemReader item) = false)
    (starts : Starts (baseHistory item (turnExecution item).1)) :
    (baseHistory item (turnExecution item).1).any (·.isTerminal) = false := by
  obtain ⟨first, head, started⟩ := starts
  obtain ⟨rest, base⟩ := List.head?_eq_some_iff.mp head
  have same : (workitemReader item).isContinueAsNew = false := by
    apply Bool.eq_false_of_not_eq_true
    intro continues
    rw [baseHistory, turnExecution, if_pos continues, if_neg (Nat.succ_ne_self _)] at base
    cases base
  rw [turnExecution, if_neg (ne_true_of_eq_false same), baseHistory_self] at base ⊢
  apply unended_of_running running same base started
  have once := kept.startsOnce
  rwa [base] at once

/-- A turn that concludes without running its program finds an ending. -/
theorem ended_of_idle {handler : OrchestrationHandler} {input orchestrationName orchestrationVersion : String}
    (idle : engine.evaluates = false)
    (concluded : Concluded (engine.executeOrchestration handler input orchestrationName orchestrationVersion).1) :
    (engine.baselineHistory ++ engine.historyDelta).any (·.isTerminal) := by
  unfold executeOrchestration at concluded
  dsimp only at concluded
  unfold evaluates at idle
  rcases aborted : engine.abortError with _ | error <;> rw [aborted] at concluded idle
  · dsimp only at concluded
    split_ifs at concluded with ended empty unstarted
    · exact ended
    · exact absurd concluded not_concluded_of_failed
    · exact absurd concluded not_concluded_of_failed
    · simp only [Bool.not_eq_true', Bool.not_eq_false] at unstarted
      rw [unstarted, Bool.eq_false_of_not_eq_true ended] at idle
      cases idle
  · exact absurd concluded not_concluded_of_failed

theorem prepared_frame (env : RuntimeEnv semver) (item : OrchestrationItem) (manager : HistoryManager) :
    (preparedEngine env item manager).baselineHistory = manager.fullHistory ∧
      (preparedEngine env item manager).persistedHistoryLen = manager.originalLen ∧
      (preparedEngine env item manager).cancelledActivityIds = [] ∧
      (preparedEngine env item manager).cancelledSubOrchestrationIds = [] := by
  obtain ⟨boundary, activities, children⟩ := prepCompletions_frame
    (((ReplayEngine.new env.stamp item.instanceId (turnExecution item).1 manager.fullHistory).withPersistedHistoryLen
      manager.originalLen).withKvSnapshot item.kvSnapshot) (workitemReader item).completionMessages
  exact ⟨Execution.prepareTurn_baselineHistory _ _, boundary, activities, children⟩

/-- Nothing that opens an execution, and no message, schedules or cancels an operation. -/
theorem unbooked_of_opening {opening : List Event} (opens : Opening env item opening) :
    ∀ event ∈ opening, event.kind.isBooking = false := by
  intro event member
  cases opens with
  | continues | unnamed => exact absurd member List.not_mem_nil
  | opens =>
    rw [List.mem_singleton.mp member]
    rfl

theorem unbooked_of_messages (env : RuntimeEnv semver) (item : OrchestrationItem) (manager : HistoryManager) :
    ∀ event ∈ (preparedEngine env item manager).historyDelta, event.kind.isBooking = false := by
  intro event member
  have message := Completions.messages_preparedEngine env item manager event member
  cases kind : event.kind <;> rw [kind] at message <;> first | rfl | cases message

theorem silent_of_opening {opening : List Event} (opens : Opening env item opening) :
    ∀ event ∈ opening, event.kind.isBreadcrumb = false :=
  fun event member => EventKind.isBreadcrumb_of_unbooked (unbooked_of_opening opens event member)

/-- The events that a turn is opened with ascend. -/
theorem Turned.ascending (turned : Turned env item result engine outcome manager ending)
    (base : Ascending (baseHistory item (turnExecution item).1)) : Ascending manager.fullHistory := by
  have opens := turned.opens
  rw [HistoryManager.fullHistory, turned.history]
  generalize manager.delta = opening at opens
  cases opens with
  | continues | unnamed => rwa [List.append_nil]
  | opens new =>
    rw [new, List.nil_append]
    exact List.pairwise_singleton _ _

/-- A turn that evaluates its program starts from an engine without breadcrumbs of its own. -/
theorem unmarked_of_evaluates (turned : Turned env item result engine outcome manager ending)
    (kept : Kept (baseHistory item (turnExecution item).1)) (evaluates : (preparedEngine env item manager).evaluates) :
    Unmarked (preparedEngine env item manager) := by
  obtain ⟨baseline, boundary, activities, children⟩ := prepared_frame env item manager
  have quiet := silent_of_opening turned.opens
  have tidy := kept.tidy (starts_of_evaluates turned evaluates).1
  refine ⟨Execution.prepareTurn_sound (turned.ascending kept.ascending), ?_, ?_, Completions.silent_preparedEngine env item manager,
    activities, children⟩
  · rw [baseline, HistoryManager.fullHistory, turned.history]
    exact tidy.append quiet
  · rw [baseline, boundary, HistoryManager.fullHistory, HistoryManager.originalLen, List.drop_left]
    exact quiet

/-- A turn that evaluates its program is of an execution that has started. -/
theorem begun_of_evaluates (turned : Turned env item result engine outcome manager ending)
    (evaluates : (preparedEngine env item manager).evaluates) :
    Starts (baseHistory item (turnExecution item).1 ++ manager.delta) := by
  simp only [ReplayEngine.evaluates, Bool.and_eq_true] at evaluates
  have starts := evaluates.2
  rw [(prepared_frame env item manager).1, HistoryManager.fullHistory, turned.history] at starts
  rcases opened : baseHistory item (turnExecution item).1 ++ manager.delta with _ | ⟨first, rest⟩
  · rw [opened, List.nil_append] at starts
    obtain ⟨event, member, started⟩ := started_of_startsExecution starts
    have inner := EventKind.isInner_of_isMessage (Completions.messages_preparedEngine env item manager event member)
    rw [EventKind.isStarted_of_isInner inner] at started
    cases started
  · rw [opened, List.cons_append] at starts
    refine ⟨first, rfl, ?_⟩
    obtain ⟨eventId, source, owner, executionId, timestamp, crate, kind⟩ := first
    cases kind <;> first | rfl | cases starts

/-- A turn that concludes without running its program is not of an execution that has started. -/
theorem unstarted_of_idle (turned : Turned env item result engine outcome manager ending) (kept : Kept item.history)
    (running : isTerminalFor (tempHistoryMgr item) (workitemReader item) = false)
    (idle : (preparedEngine env item manager).evaluates = false) (concluded : Concluded result) :
    ¬ Starts (baseHistory item (turnExecution item).1) := by
  intro starts
  obtain ⟨version, handler, _, run⟩ := turned.ran
  rw [(Prod.mk.inj run).1] at concluded
  have ended := ended_of_idle idle concluded
  have plain : (preparedEngine env item manager).historyDelta.any (·.isTerminal) = false := by
    rw [List.any_eq_false]
    intro event member
    have inner := EventKind.isInner_of_isMessage (Completions.messages_preparedEngine env item manager event member)
    exact ne_true_of_eq_false (EventKind.isTerminal_of_isInner inner)
  rw [(prepared_frame env item manager).1, HistoryManager.fullHistory, turned.history, List.any_append, plain,
    List.any_append, unended_of_starts kept running starts, Bool.or_false, Bool.false_or] at ended
  obtain ⟨event, member, terminal⟩ := List.any_eq_true.mp ended
  have opens := turned.opens
  generalize manager.delta = opening at opens member
  cases opens with
  | continues | unnamed => exact absurd member List.not_mem_nil
  | opens =>
    rw [List.mem_singleton.mp member] at terminal
    cases terminal

/-- The ending of a turn closes what its engine recorded. -/
theorem Turned.closes (turned : Turned env item result engine outcome manager ending) :
    Closes (manager.fullHistory ++ engine.historyDelta) ending ∧
      (∀ event ∈ ending, activityCancelReason event.kind = none) ∧
      outcome.historyMgr.fullHistory = (manager.fullHistory ++ engine.historyDelta) ++ ending := by
  obtain ⟨other, extended, closes, kinds⟩ := @Execution.applyTurnResult_closes env.stamp item.instanceId
    (workitemReader item).orchestrationName (turnExecution item).1 env.executionIds (manager.extend engine.historyDelta)
    manager.extractContext.2 engine.pendingActions result
  have full : (manager.extend engine.historyDelta).fullHistory = manager.fullHistory ++ engine.historyDelta :=
    (List.append_assoc _ _ _).symm
  have delta := turned.delta
  rw [turned.historyMgr] at delta
  have same := extended.delta.symm.trans delta
  rw [HistoryManager.extend, List.append_assoc] at same
  obtain rfl := List.append_cancel_left (List.append_cancel_left same)
  rw [full] at closes
  refine ⟨closes, kinds, ?_⟩
  rw [turned.historyMgr]
  exact extended.fullHistory.trans (by rw [full])

theorem Turned.outcome_history (turned : Turned env item result engine outcome manager ending) :
    outcome.historyMgr.history = baseHistory item (turnExecution item).1 := by
  obtain ⟨_, _, full⟩ := turned.closes
  rw [HistoryManager.fullHistory, turned.delta, HistoryManager.fullHistory, turned.history, List.append_assoc,
    List.append_assoc] at full
  exact List.append_cancel_right full

theorem isBreadcrumb_of_activityCancelReason {kind : EventKind} (cancels : (activityCancelReason kind).isSome) :
    kind.isBreadcrumb := by
  cases kind <;> first | rfl | cases cancels

/-- A child that is scheduled stays scheduled when events follow. -/
theorem childScheduled_append {history events : List Event} {id : Nat} (named : (childScheduled history id).isSome) :
    childScheduled (history ++ events) id = childScheduled history id := by
  rw [childScheduled, List.findSome?_append]
  exact Option.or_of_isSome named

/-! ## What a turn keeps -/

/-- What is recorded behind the outcome of a turn cancels what the outcome has scheduled. -/
theorem opened_of_outcome (history : outcome.historyMgr.history = baseHistory item (turnExecution item).1)
    (opened : Opened outcome.historyMgr.fullHistory) :
    Opened (baseHistory item (turnExecution item).1 ++ (turnRequest env item outcome).historyDelta) := by
  obtain ⟨limit, trailing, delta, _, terminal, trails, kinds, _⟩ := turnRequest_closes env item outcome
  have whole : baseHistory item (turnExecution item).1 ++ (turnRequest env item outcome).historyDelta =
      outcome.historyMgr.fullHistory ++ limit ++ trailing := by
    rw [delta, HistoryManager.fullHistory, history]
    simp only [List.append_assoc]
  rw [whole]
  apply Opened.append_of_closes _ trails
  · intro event member
    have crumb := isBreadcrumb_of_activityCancelReason (kinds event member)
    cases kind : event.kind <;> rw [kind] at crumb <;> first | rfl | cases crumb
  · exact opened.append_of_unbooked fun event member => EventKind.unbooked_of_isTerminal (terminal event member)

/-- Without an ending a turn neither exceeds a limit nor cancels what is in flight. -/
theorem request_of_unended {opening body trailing limit : List Event}
    (events : RequestEvents env item outcome opening body ending limit trailing)
    (unended : (turnRequest env item outcome).historyDelta.any (·.isTerminal) = false) :
    (turnRequest env item outcome).historyDelta = outcome.historyMgr.delta := by
  have delta := events.delta
  rw [← events.outcomeDelta] at delta
  have plain : ∀ event ∈ (turnRequest env item outcome).historyDelta, event.kind.isTerminal = false := fun event member =>
    Bool.eq_false_of_not_eq_true (List.any_eq_false.mp unended event member)
  have limited := events.limited
  have quiet := events.quiet
  change (enforceLimits env item (turnExecution item).1 outcome).2.status = none → _ at quiet
  generalize enforceLimits env item (turnExecution item).1 outcome = enforced at limited quiet
  cases limited with
  | within =>
    have summary := OutcomeViews.computeExecutionMetadata_summary outcome.historyMgr.delta ({} : ExecutionMetadata semver)
    rw [OutcomeViews.endings_of_unterminal fun event member => plain event (by
      rw [delta, List.append_nil]
      exact List.mem_append_left _ member)] at summary
    rw [delta, quiet (Prod.mk.inj summary).1, List.append_nil, List.append_nil]
  | exceeded message some failure failed =>
    have terminal := plain failure (by
      rw [delta]
      exact List.mem_append_left _ (List.mem_append_right _ List.mem_cons_self))
    rw [failed] at terminal
    cases terminal

/-- A turn keeps what its outcome keeps. -/
theorem kept_of_outcome (kept : Kept (baseHistory item (turnExecution item).1)) {opening body limit trailing : List Event}
    (events : RequestEvents env item outcome opening body ending limit trailing)
    (history : outcome.historyMgr.history = baseHistory item (turnExecution item).1)
    (opened : Opened outcome.historyMgr.fullHistory)
    (tidy : outcome.historyMgr.fullHistory.any (·.isTerminal) = false → Tidy outcome.historyMgr.fullHistory) :
    Kept (baseHistory item (turnExecution item).1 ++ (turnRequest env item outcome).historyDelta) where
  ascending := events.ascending
  startsOnce := by
    have opens : opening = [] ∨ baseHistory item (turnExecution item).1 = [] ∧ opening.length = 1 := by
      cases events.turn.opens with
      | continues | unnamed => exact .inl rfl
      | opens new => exact .inr ⟨new, rfl⟩
    have delta : (turnRequest env item outcome).historyDelta = opening ++ (body ++ ending ++ limit ++ trailing) := by
      rw [events.delta]
      simp only [List.append_assoc]
    rw [delta, ← List.append_assoc]
    exact kept.unstarted opens events.unstarted
  opened := opened_of_outcome history opened
  tidy := by
    intro unended
    rw [List.any_append, Bool.or_eq_false_iff] at unended
    have delta := request_of_unended events unended.2
    rw [delta, ← history] at unended ⊢
    apply tidy
    rw [HistoryManager.fullHistory, List.any_append, unended.1, unended.2]
    rfl

/-- A turn that evaluates its program, and concludes, has accounted for the futures that it dropped. -/
theorem accounted_of_turned (turned : Turned env item result engine outcome manager ending)
    (kept : Kept (baseHistory item (turnExecution item).1)) (evaluates : (preparedEngine env item manager).evaluates)
    {handler : OrchestrationHandler} {input orchestrationName orchestrationVersion : String}
    (run : (preparedEngine env item manager).executeOrchestration handler input orchestrationName orchestrationVersion =
      (result, engine)) (concluded : Concluded result) :
    ∃ ctx, (preparedEngine env item manager).evaluatedCtx handler input orchestrationName orchestrationVersion = some ctx ∧
      Accounted ctx (manager.fullHistory ++ engine.historyDelta) engine := by
  obtain ⟨ctx, context, accounted⟩ :=
    accounted_of_concluded (unmarked_of_evaluates turned kept evaluates) evaluates run concluded
  have baseline := turned.recorded.baselineHistory.trans (prepared_frame env item manager).1
  rw [baseline] at accounted
  exact ⟨ctx, context, accounted⟩

/-- What a turn schedules or cancels is behind the start of its execution. -/
theorem Turned.opened (turned : Turned env item result engine outcome manager ending)
    (kept : Kept (baseHistory item (turnExecution item).1)) : Opened outcome.historyMgr.fullHistory := by
  obtain ⟨closes, _, full⟩ := turned.closes
  have base : manager.fullHistory = baseHistory item (turnExecution item).1 ++ manager.delta := by
    rw [HistoryManager.fullHistory, turned.history]
  rw [full]
  rcases evaluates : (preparedEngine env item manager).evaluates with _ | _
  · obtain ⟨version, handler, _, run⟩ := turned.ran
    rw [(Prod.mk.inj run).2.trans (executeOrchestration_of_idle evaluates)] at closes ⊢
    apply Opened.append_of_closes _ closes
    · exact turned.ends.unscheduled
    · rw [base]
      apply Opened.append_of_unbooked _ (unbooked_of_messages env item manager)
      exact kept.opened.append_of_unbooked (unbooked_of_opening turned.opens)
  · apply Opened.of_starts
    rw [base]
    exact ((begun_of_evaluates turned evaluates).append _).append _

/-- A turn leaves the breadcrumbs of dropped futures alone, unless it ends its execution. -/
theorem Turned.tidy (turned : Turned env item result engine outcome manager ending)
    (kept : Kept (baseHistory item (turnExecution item).1))
    (unended : outcome.historyMgr.fullHistory.any (·.isTerminal) = false) : Tidy outcome.historyMgr.fullHistory := by
  obtain ⟨_, _, full⟩ := turned.closes
  have base : manager.fullHistory = baseHistory item (turnExecution item).1 ++ manager.delta := by
    rw [HistoryManager.fullHistory, turned.history]
  rw [full, List.any_append, Bool.or_eq_false_iff] at unended
  have goesOn := turned.ends.goesOn_of_unended unended.2
  rw [full, turned.ends.goesOn goesOn, List.append_nil]
  rcases evaluates : (preparedEngine env item manager).evaluates with _ | _
  · obtain ⟨version, handler, _, run⟩ := turned.ran
    rw [(Prod.mk.inj run).2.trans (executeOrchestration_of_idle evaluates), base] at unended ⊢
    simp only [List.any_append, Bool.or_eq_false_iff] at unended
    have tidy := kept.tidy unended.1.1.1
    exact (tidy.append (silent_of_opening turned.opens)).append (Completions.silent_preparedEngine env item manager)
  · obtain ⟨version, handler, _, run⟩ := turned.ran
    obtain ⟨ctx, _, accounted⟩ := accounted_of_turned turned kept evaluates run.symm (.inl goesOn)
    exact accounted.tidy

/-- A turn whose execution was not cancelled cancels no children but those it dropped. -/
theorem cancels_of_uncancelled (turned : Turned env item result engine outcome manager ending)
    (uncancelled : ∀ reason, result ≠ .cancelled reason) :
    outcome.orchestratorItems.filter isCancelInstance = engine.cancelledSubOrchestrationIds.map fun child =>
      .cancelInstance (buildChildInstanceId item.instanceId child) "parent dropped sub-orchestration future" := by
  have notified : ∀ (link : Option (String × Nat)) (notice : String → Nat → Nat → WorkItem),
      (∀ parent execution id, isCancelInstance (notice parent execution id) = false) →
      ∀ other ∈ Execution.notifyParent env.executionIds link notice, isCancelInstance other = false := by
    intro link notice silent other member
    unfold Execution.notifyParent at member
    split at member
    · rw [List.mem_singleton.mp member]
      exact silent _ _ _
    · exact absurd member List.not_mem_nil
  have detached : ∀ other ∈ engine.pendingActions.filterMap Execution.detachedStart, isCancelInstance other = false := by
    intro other member
    obtain ⟨action, _, item⟩ := List.mem_filterMap.mp member
    cases action <;> cases item
    rfl
  have others : (appliedResult env item manager result engine).orchestratorItems.filter isCancelInstance = [] := by
    refine List.filter_eq_nil_iff.mpr fun other member => ne_true_of_eq_false ?_
    cases result with
    | «continue» =>
      obtain ⟨action, _, item⟩ := List.mem_filterMap.mp member
      cases action <;> cases item <;> rfl
    | completed output => exact (List.mem_append.mp member).elim (detached other) (notified _ _ (fun _ _ _ => rfl) other)
    | failed details => exact (List.mem_append.mp member).elim (detached other) (notified _ _ (fun _ _ _ => rfl) other)
    | continueAsNew input version =>
      rw [List.mem_singleton.mp member]
      rfl
    | cancelled reason => exact absurd rfl (uncancelled reason)
  rw [turned.orchestratorItems, List.filter_append, others, List.nil_append, List.filter_eq_self]
  intro cancels member
  obtain ⟨child, _, rfl⟩ := List.mem_map.mp member
  rfl

theorem cancels_of_concluded (turned : Turned env item result engine outcome manager ending) (concluded : Concluded result) :
    outcome.orchestratorItems.filter isCancelInstance = engine.cancelledSubOrchestrationIds.map fun child =>
      .cancelInstance (buildChildInstanceId item.instanceId child) "parent dropped sub-orchestration future" := by
  apply cancels_of_uncancelled turned
  rintro reason rfl
  rcases concluded with cancelled | ⟨output, cancelled⟩ <;> cases cancelled

section Evaluated

variable {ctx : CtxInner}

/-- The breadcrumbs behind those of dropped futures are for other schedules. -/
theorem apart_of_accounted {history closing : List Event} {whole : List Event} (accounted : Accounted ctx history engine)
    (ascending : Ascending whole) (inside : ∀ event ∈ history, event ∈ whole) {seen : List Event}
    (known : ∀ event ∈ history, event ∈ seen) (seenInside : ∀ event ∈ seen, event ∈ whole) (closes : Closes seen closing)
    {old new : Event} (member : old ∈ history) (crumb : old.kind.isBreadcrumb) (newMember : new ∈ closing)
    (newCrumb : new.kind.isBreadcrumb) : old.sourceEventId ≠ new.sourceEventId := by
  intro same
  obtain ⟨_, _, id, _, _, newSource, _⟩ := closes new newMember newCrumb
  have source := same.trans newSource
  obtain ⟨droppable, kind⟩ := accounted.tidy.dropped old member crumb
  have listed : id ∈ droppedSources droppable history :=
    mem_droppedSources.mpr ⟨old, member, by rw [kind, Droppable.reasonOf_breadcrumb, if_pos rfl], source⟩
  obtain ⟨schedule, scheduled, eventId, schedules⟩ := accounted.scheduled droppable id listed
  exact closes.apart ascending seenInside (known old member) kind source
    ⟨schedule, inside schedule scheduled, eventId, schedules⟩ new newMember newCrumb newSource

/-- Behind the events of its engine a turn leaves breadcrumbs for other schedules, and it cancels their activities. -/
theorem closing_of_accounted (turned : Turned env item result engine outcome manager ending)
    (within : limitError outcome.historyMgr.delta item.kvSnapshot = none)
    (accounted : Accounted ctx (manager.fullHistory ++ engine.historyDelta) engine)
    (ascending : Ascending (baseHistory item (turnExecution item).1 ++ (turnRequest env item outcome).historyDelta)) :
    ∃ closing, (turnRequest env item outcome).historyDelta = manager.delta ++ engine.historyDelta ++ closing ∧
      (∀ droppable, droppedSources droppable closing = []) ∧
      (∀ old ∈ manager.fullHistory ++ engine.historyDelta, old.kind.isBreadcrumb → ∀ new ∈ closing,
        new.kind.isBreadcrumb → old.sourceEventId ≠ new.sourceEventId) ∧
      (∀ cancelled, cancelled ∈ (turnRequest env item outcome).cancelledActivities ↔
        cancelled ∈ outcome.cancelledActivities ∨ ∃ event ∈ closing, (activityCancelReason event.kind).isSome ∧
          ∃ id, event.sourceEventId = some id ∧ cancelled = ⟨item.instanceId, (turnExecution item).1, id⟩) ∧
      (turnRequest env item outcome).cancelledActivities.Nodup := by
  obtain ⟨limit, trailing, delta, unlimited, _, trails, kinds, listed, distinct⟩ := turnRequest_closes env item outcome
  obtain rfl := unlimited within
  rw [List.append_nil] at delta trails
  obtain ⟨closes, passive, full⟩ := turned.closes
  rw [full] at trails
  have whole : baseHistory item (turnExecution item).1 ++ (turnRequest env item outcome).historyDelta =
      (manager.fullHistory ++ engine.historyDelta) ++ ending ++ trailing := by
    rw [delta, turned.delta, HistoryManager.fullHistory, turned.history]
    simp only [List.append_assoc]
  rw [whole] at ascending
  have inside : ∀ event ∈ manager.fullHistory ++ engine.historyDelta,
      event ∈ (manager.fullHistory ++ engine.historyDelta) ++ ending ++ trailing := fun event member =>
    List.mem_append_left _ (List.mem_append_left _ member)
  refine ⟨ending ++ trailing, ?_, ?_, ?_, ?_, distinct⟩
  · rw [delta, turned.delta]
    simp only [List.append_assoc]
  · intro droppable
    rw [droppedSources_append, closes.droppedSources, trails.droppedSources, List.append_nil]
  · intro old member crumb new newMember newCrumb
    rcases List.mem_append.mp newMember with ends | trailed
    · exact apart_of_accounted accounted ascending inside (fun _ known => known) inside closes member crumb ends newCrumb
    · exact apart_of_accounted accounted ascending inside (fun event known => List.mem_append_left _ known)
        (fun event seen => List.mem_append_left _ seen) trails member crumb trailed newCrumb
  · intro cancelled
    rw [listed]
    refine or_congr_right ⟨?_, ?_⟩
    · rintro ⟨event, member, id, source, same⟩
      exact ⟨event, List.mem_append_right _ member, kinds event member, id, source, same⟩
    · rintro ⟨event, member, requests, id, source, same⟩
      rcases List.mem_append.mp member with ends | trailed
      · rw [passive event ends] at requests
        cases requests
      · exact ⟨event, trailed, id, source, same⟩

/-- The children that an engine cancels are those of its new breadcrumbs, also when events follow. -/
theorem children_of_accounted {history events : List Event} (accounted : Accounted ctx history engine) :
    (droppedSources .subOrchestration engine.historyDelta).map (childScheduled (history ++ events)) =
      engine.cancelledSubOrchestrationIds.map some := by
  rw [← accounted.children]
  refine List.map_congr_left fun id member => childScheduled_append ?_
  have listed : childScheduled history id ∈ (droppedSources .subOrchestration engine.historyDelta).map
      (childScheduled history) := List.mem_map_of_mem member
  rw [accounted.children] at listed
  obtain ⟨child, _, same⟩ := List.mem_map.mp listed
  rw [← same]
  rfl

/-- A breadcrumb of an activity in an accounted history is for a dropped future. -/
theorem reason_of_accounted {history : List Event} (accounted : Accounted ctx history engine) {event : Event}
    (member : event ∈ history) (cancels : (activityCancelReason event.kind).isSome) :
    Droppable.activity.reasonOf event.kind = some droppedFuture := by
  obtain ⟨droppable, kind⟩ := accounted.tidy.dropped event member (isBreadcrumb_of_activityCancelReason cancels)
  rw [kind] at cancels ⊢
  cases droppable <;> first | rfl | cases cancels

theorem dropsExactly_of_accounted (turned : Turned env item result engine outcome manager ending)
    (within : limitError outcome.historyMgr.delta item.kvSnapshot = none) (concluded : Concluded result)
    (context : turnContext env item = some ctx)
    (accounted : Accounted ctx (manager.fullHistory ++ engine.historyDelta) engine)
    (ascending : Ascending (baseHistory item (turnExecution item).1 ++ (turnRequest env item outcome).historyDelta)) :
    DropsExactly env item (turnRequest env item outcome)
      (baseHistory item (turnExecution item).1 ++ (turnRequest env item outcome).historyDelta) := by
  obtain ⟨closing, delta, unsourced, apart, listed, distinct⟩ := closing_of_accounted turned within accounted ascending
  have silent := silent_of_opening turned.opens
  have whole : baseHistory item (turnExecution item).1 ++ (turnRequest env item outcome).historyDelta =
      (manager.fullHistory ++ engine.historyDelta) ++ closing := by
    rw [delta, HistoryManager.fullHistory, turned.history]
    simp only [List.append_assoc]
  rw [whole] at ascending ⊢
  have sources : ∀ droppable, droppedSources droppable ((manager.fullHistory ++ engine.historyDelta) ++ closing) =
      droppedSources droppable (manager.fullHistory ++ engine.historyDelta) := by
    intro droppable
    rw [droppedSources_append, unsourced, List.append_nil]
  constructor
  · intro droppable id
    rw [sources, accounted.exact, context]
    simp only [Option.some.injEq, exists_eq_left']
  · intro droppable id member
    rw [sources] at member
    obtain ⟨event, inHistory, reason, source⟩ := mem_droppedSources.mp member
    have crumb : event.kind.isBreadcrumb := by
      rw [Droppable.eq_breadcrumb reason]
      exact droppable.isBreadcrumb_breadcrumb _
    refine ⟨event, ⟨List.mem_append_left _ inHistory, crumb, source⟩, ?_⟩
    rintro other ⟨otherMember, otherCrumb, otherSource⟩
    rcases List.mem_append.mp otherMember with before | behind
    · exact accounted.tidy.once other before event inHistory otherCrumb crumb (otherSource.trans source.symm)
    · exact absurd (source.trans otherSource.symm) (apart event inHistory crumb other behind otherCrumb)
  · intro cancelled
    rw [listed, turned.cancelledActivities, accounted.activities, delta]
    constructor
    · rintro (dropped | ⟨event, member, requests, sourced⟩)
      · obtain ⟨id, member, rfl⟩ := List.mem_map.mp dropped
        obtain ⟨event, recorded, reason, source⟩ := mem_droppedSources.mp member
        exact ⟨event, List.mem_append_left _ (List.mem_append_right _ recorded), Option.isSome_of_eq_some reason, id,
          source, rfl⟩
      · exact ⟨event, List.mem_append_right _ member, requests, sourced⟩
    · rintro ⟨event, member, requests, id, source, rfl⟩
      simp only [List.mem_append] at member
      rcases member with (opened | recorded) | closed
      · exact absurd (isBreadcrumb_of_activityCancelReason requests) (ne_true_of_eq_false (silent event opened))
      · have reason := reason_of_accounted accounted (List.mem_append_right _ recorded) requests
        exact .inl (List.mem_map.mpr ⟨id, mem_droppedSources.mpr ⟨event, recorded, reason, source⟩, rfl⟩)
      · exact .inr ⟨event, closed, requests, id, source, rfl⟩
  · exact distinct
  · refine ⟨engine.cancelledSubOrchestrationIds, ?_, ?_⟩
    · rw [delta, droppedSources_append, droppedSources_append, droppedSources_of_silent silent, unsourced, List.nil_append,
        List.append_nil, children_of_accounted accounted]
    · rw [items_of_within within, cancels_of_concluded turned concluded]
  · intro old oldMember crumb new newMember newCrumb same
    have early : old ∈ manager.fullHistory := by
      rw [HistoryManager.fullHistory, turned.history]
      exact List.mem_append_left _ oldMember
    have oldInside := List.mem_append_left engine.historyDelta early
    rw [delta] at newMember
    simp only [List.mem_append] at newMember
    rcases newMember with (opened | recorded) | closed
    · rw [silent new opened] at newCrumb
      cases newCrumb
    · -- The two would be one event, but the old one comes first.
      obtain rfl := accounted.tidy.once old oldInside new (List.mem_append_right _ recorded) crumb newCrumb same
      have ordered := (List.pairwise_append.mp (List.pairwise_append.mp ascending).1).2.2 old early old recorded
      exact absurd ordered (Nat.lt_irrefl _)
    · exact apart old oldInside crumb new closed newCrumb same

end Evaluated

/-! ## Runs of turns -/

/-- An ending behind what a history keeps. -/
theorem Kept.append_ending {history opening : List Event} (kept : Kept history) {last : Event}
    (ascending : Ascending (history ++ (opening ++ [last]))) (opens : opening = [] ∨ history = [] ∧ opening.length = 1)
    (unbooked : ∀ event ∈ opening, event.kind.isBooking = false) (ends : last.kind.isTerminal) :
    Kept (history ++ (opening ++ [last])) := by
  rw [← List.append_assoc] at ascending ⊢
  refine ⟨ascending, kept.unstarted opens fun event member => ?_, ?_, fun unended => ?_⟩
  · rw [List.mem_singleton.mp member]
    exact EventKind.isStarted_of_isTerminal ends
  · apply (kept.opened.append_of_unbooked unbooked).append_of_unbooked
    intro event member
    rw [List.mem_singleton.mp member]
    exact EventKind.unbooked_of_isTerminal ends
  · have ended := List.any_eq_false.mp unended last (List.mem_append_right _ List.mem_cons_self)
    exact absurd ends ended

/-- A turn keeps what its history keeps. -/
theorem kept_of_turn (ran : turnOutcome env item = some outcome) (ascending : Ascending item.history)
    (kept : Kept (baseHistory item (turnExecution item).1)) :
    Kept (baseHistory item (turnExecution item).1 ++ (turnRequest env item outcome).historyDelta) := by
  obtain ⟨opening, body, ending, limit, trailing, events⟩ := requestEvents ran ascending
  rcases executed : turnExecuted env item with _ | ⟨result, engine⟩
  · obtain rfl := outcome_of_unexecuted executed ran
    have full := turnExecution_fullHistory item
    have history : (turnExecution item).2.history = baseHistory item (turnExecution item).1 := by
      rw [← full, HistoryManager.fullHistory, turnExecution_delta, List.append_nil]
    apply kept_of_outcome kept events history
    · rw [full]
      exact kept.opened
    · rw [full]
      exact kept.tidy
  · obtain ⟨manager, closing, turned⟩ := turned_of_executed executed ran
    exact kept_of_outcome kept events turned.outcome_history (turned.opened kept) (turned.tidy kept)

theorem kept_of_answered {attemptCount : Nat} {request : AckRequest semver}
    {fallback : Option (ProviderError → AckRequest semver)} (answered : Answered env item attemptCount request fallback)
    (readable : item.historyError = none) (kept : Kept item.history) :
    Kept (baseHistory item request.executionId ++ request.historyDelta) := by
  cases answered with
  | corrupted exceeded message unreadable =>
    rw [readable] at unreadable
    cases unreadable
  | poisoned exceeded =>
    obtain ⟨events, ascending⟩ := @failOrchestrationAsPoison_events semver env item attemptCount readable kept.ascending
    rw [failOrchestrationAsPoison_executionId, baseHistory_self]
    generalize (failOrchestrationAsPoison env item attemptCount).historyDelta = delta at events ascending
    cases events with
    | recorded continues failed kind =>
      exact @Kept.append_ending _ [] kept _ ascending (.inl rfl) (fun _ none => absurd none List.not_mem_nil) (by rw [kind]; rfl)
    | new empty started failed begins kind =>
      refine @Kept.append_ending _ [started] kept _ ascending (.inr ⟨empty, rfl⟩) (fun event member => ?_) (by rw [kind]; rfl)
      rw [List.mem_singleton.mp member, begins.kind]
      rfl
  | ended =>
    rw [baseHistory_self, List.append_nil]
    exact kept
  | turned inTime _ running outcome ran => exact kept_of_turn ran kept.ascending (kept.baseHistory _)

/-- What a turn ends with, if it runs a handler: with the result of the handler, unless it exceeds a limit. -/
def turnResult (env : RuntimeEnv semver) (item : OrchestrationItem) : Option TurnResult :=
  (turnExecuted env item).bind fun (result, _) => (turnOutcome env item).map fun outcome =>
    match limitError outcome.historyMgr.delta item.kvSnapshot with
    | none => result
    | some message => .failed (.application .orchestrationFailed message false)

/-- A turn that concludes without running its program has nothing scheduled, and nothing cancelled. -/
theorem unbooked_of_idle (turned : Turned env item result engine outcome manager ending) (kept : Kept item.history)
    (running : isTerminalFor (tempHistoryMgr item) (workitemReader item) = false) (concluded : Concluded result)
    (idle : (preparedEngine env item manager).evaluates = false) :
    ∀ event ∈ outcome.historyMgr.fullHistory, event.kind.isBooking = false := by
  have base := kept.baseHistory (turnExecution item).1
  have unstarted := unstarted_of_idle turned kept running idle concluded
  obtain ⟨version, handler, _, run⟩ := turned.ran
  obtain rfl := (Prod.mk.inj run).2.trans (executeOrchestration_of_idle idle)
  obtain ⟨closes, _, full⟩ := turned.closes
  have seen : ∀ event ∈ manager.fullHistory ++ (preparedEngine env item manager).historyDelta,
      event.kind.isBooking = false := by
    rw [HistoryManager.fullHistory, turned.history]
    intro event member
    simp only [List.mem_append] at member
    rcases member with (old | opened) | prepared
    · exact Bool.eq_false_of_not_eq_true fun books => unstarted (base.opened event old books)
    · exact unbooked_of_opening turned.opens event opened
    · exact unbooked_of_messages env item manager event prepared
  have crumbs := closes.silent fun event member => EventKind.isSchedule_of_unbooked (seen event member)
  rw [full]
  intro event member
  rcases List.mem_append.mp member with before | closing
  · exact seen event before
  · rw [EventKind.isBooking, turned.ends.unscheduled event closing, crumbs event closing]
    rfl

/-- Such a turn leaves no breadcrumbs, and cancels nothing. -/
theorem dropsExactly_of_idle (turned : Turned env item result engine outcome manager ending) (kept : Kept item.history)
    (running : isTerminalFor (tempHistoryMgr item) (workitemReader item) = false)
    (within : limitError outcome.historyMgr.delta item.kvSnapshot = none) (concluded : Concluded result)
    (idle : (preparedEngine env item manager).evaluates = false) (context : turnContext env item = none) :
    DropsExactly env item (turnRequest env item outcome)
      (baseHistory item (turnExecution item).1 ++ (turnRequest env item outcome).historyDelta) := by
  have unbooked := unbooked_of_idle turned kept running concluded idle
  obtain ⟨version, handler, _, run⟩ := turned.ran
  obtain rfl := (Prod.mk.inj run).2.trans (executeOrchestration_of_idle idle)
  obtain ⟨_, _, activities, children⟩ := prepared_frame env item manager
  obtain ⟨limit, trailing, delta, unlimited, _, trails, kinds, listed, distinct⟩ := turnRequest_closes env item outcome
  obtain rfl := unlimited within
  rw [List.append_nil] at delta trails
  have whole : baseHistory item (turnExecution item).1 ++ (turnRequest env item outcome).historyDelta =
      outcome.historyMgr.fullHistory ++ trailing := by
    rw [delta, HistoryManager.fullHistory, turned.outcome_history, List.append_assoc]
  have silent : ∀ event ∈ outcome.historyMgr.fullHistory ++ trailing, event.kind.isBreadcrumb = false := by
    intro event member
    rcases List.mem_append.mp member with before | trailed
    · exact EventKind.isBreadcrumb_of_unbooked (unbooked event before)
    · exact trails.silent (fun event member => EventKind.isSchedule_of_unbooked (unbooked event member)) event trailed
  rw [whole]
  have asked : ∀ event ∈ (turnRequest env item outcome).historyDelta, event.kind.isBreadcrumb = false :=
    fun event member => silent event (whole ▸ List.mem_append_right _ member)
  have unsourced : ∀ droppable, droppedSources droppable (outcome.historyMgr.fullHistory ++ trailing) = [] :=
    droppedSources_of_silent silent
  constructor
  · intro droppable id
    rw [unsourced, context]
    simp
  · intro droppable id member
    rw [unsourced] at member
    cases member
  · intro cancelled
    rw [listed, turned.cancelledActivities, activities]
    constructor
    · rintro (none | ⟨event, member, _⟩)
      · cases none
      · have crumb := isBreadcrumb_of_activityCancelReason (kinds event member)
        rw [silent event (List.mem_append_right _ member)] at crumb
        cases crumb
    · rintro ⟨event, member, cancels, _⟩
      have crumb := isBreadcrumb_of_activityCancelReason cancels
      rw [asked event member] at crumb
      cases crumb
  · exact distinct
  · refine ⟨[], by rw [droppedSources_of_silent asked]; rfl, ?_⟩
    rw [items_of_within within, cancels_of_concluded turned concluded, children, List.map_nil]
  · intro old _ _ new newMember crumb
    rw [asked new newMember] at crumb
    cases crumb

theorem dropsExactly_of_turn (kept : Kept item.history)
    (running : isTerminalFor (tempHistoryMgr item) (workitemReader item) = false)
    (ran : turnOutcome env item = some outcome) (ended : turnResult env item = some result) (concluded : Concluded result) :
    DropsExactly env item (turnRequest env item outcome)
      (baseHistory item (turnExecution item).1 ++ (turnRequest env item outcome).historyDelta) := by
  obtain ⟨⟨_, engine⟩, executed, ends⟩ := Option.bind_eq_some_iff.mp ended
  rw [ran] at ends
  rcases within : limitError outcome.historyMgr.delta item.kvSnapshot with _ | message
  · simp only [Option.map_some, within, Option.some.injEq] at ends
    obtain rfl := ends
    unfold turnExecuted at executed
    split_ifs at executed with named
    obtain ⟨⟨version, handler⟩, resolved, run⟩ := Option.map_eq_some_iff.mp executed
    obtain ⟨ending, turned⟩ := turned_of_resolved named resolved run ran
    have context : turnContext env item = (preparedEngine env item (openedManager env item version)).evaluatedCtx handler
        (openedManager env item version).extractContext.1 (workitemReader item).orchestrationName
        (semver.render version) := by
      rw [turnContext, if_pos named, resolved]
      rfl
    have base := kept.baseHistory (turnExecution item).1
    obtain ⟨_, _, _, _, _, events⟩ := requestEvents ran kept.ascending
    rcases evaluates : (preparedEngine env item (openedManager env item version)).evaluates with _ | _
    · apply dropsExactly_of_idle turned kept running within concluded evaluates
      rw [context, evaluatedCtx, evaluates, if_neg Bool.false_ne_true]
    · obtain ⟨ctx, found, accounted⟩ := accounted_of_turned turned base evaluates run concluded
      exact dropsExactly_of_accounted turned within concluded (context.trans found) accounted events.ascending
  · simp only [Option.map_some, within, Option.some.injEq] at ends
    rw [← ends] at concluded
    exact absurd concluded not_concluded_of_failed

end Dispatcher

namespace Completions

open Dispatcher ReplayEngine

variable {semver : Semver} {history next : List Event} {turn : Turn semver}

/-- What a turn ends with, if it ran a handler and its acknowledgement was accepted. -/
def Turn.result (turn : Turn semver) : Option TurnResult :=
  if turn.failed.isNone && (executedOutcome turn.env turn.item turn.attemptCount).isSome then
    turnResult turn.env turn.item
  else none

/-- Turn after turn, from an instance without events. -/
def newTurns (semver : Semver) : Lib.TransitionSystem (List Event) (Turn semver) where
  initial history := history = []
  step history turn after := turn.step history = some after

theorem kept_step (kept : Kept history) (taken : turn.step history = some next) : Kept next := by
  obtain ⟨request, _, rfl, readable, rfl, _, committed⟩ := Turn.step_spec taken
  cases committed with
  | answered _ fallback acknowledged answered => exact kept_of_answered answered readable kept
  | failed error refused inTime running outcome ran =>
    have ascending := @failureCommit_ascending _ turn.env turn.item (turnExecution turn.item).1 error kept.ascending
    obtain ⟨failed, kind, delta, _⟩ := @failureCommit_events _ turn.env turn.item (turnExecution turn.item).1 error
      kept.ascending
    rw [delta] at ascending ⊢
    exact @Kept.append_ending _ [] (kept.baseHistory _) failed ascending (.inl rfl) (fun _ none => absurd none List.not_mem_nil)
      (by rw [kind]; rfl)

theorem kept_of_reachable (reached : (newTurns semver).Reachable (fun _ _ => True) history) : Kept history := by
  induction reached with
  | initial start =>
    rw [start]
    exact .nil
  | step _ _ taken ih => exact kept_step ih taken

/-- After a turn that goes on or returns a value, what is recorded as dropped is what the program has dropped. -/
theorem dropsExactly_of_reachable (reached : (newTurns semver).Reachable (fun _ _ => True) history)
    (taken : turn.step history = some next) {result : TurnResult} (ended : turn.result = some result)
    (concluded : result = .continue ∨ ∃ output, result = .completed output) :
    ∃ request, turn.committed = some request ∧
      next = baseHistory turn.item request.executionId ++ request.historyDelta ∧
      DropsExactly turn.env turn.item request next := by
  have kept := kept_of_reachable reached
  obtain ⟨request, commits, rfl, _, rfl, _, committed⟩ := Turn.step_spec taken
  refine ⟨request, commits, rfl, ?_⟩
  unfold Turn.result at ended
  split_ifs at ended with accepted
  simp only [Bool.and_eq_true, Option.isNone_iff_eq_none, executedOutcome] at accepted
  obtain ⟨unfailed, executed⟩ := accepted
  split_ifs at executed with runs
  · simp only [decide_eq_true_eq, Bool.not_eq_true'] at runs
    obtain ⟨⟨⟨⟨supported, inTime⟩, _⟩, running⟩, named⟩ := runs
    cases committed with
    | answered _ fallback acknowledged answered =>
      cases answered with
      | corrupted exceeded | poisoned exceeded => exact absurd inTime (Nat.not_le.mpr exceeded)
      | ended _ _ terminal =>
        rw [running] at terminal
        cases terminal
      | turned _ _ _ outcome ran => exact dropsExactly_of_turn kept running ran ended concluded
    | failed error refused =>
      rw [refused] at unfailed
      cases unfailed
  · cases executed

/-! A program that schedules an activity and drops its future at once. -/

def droppingHandler : OrchestrationHandler where
  State := Bool
  invoke _ := false
  poll
    | false => .call (.scheduleActivity "work" "1" none) fun token => .call (.dropFuture token) fun _ => .suspend true
    | true => .suspend true

def droppingTurn : Turn textSemver :=
  { turnOver [] startBatch with
    env := VersionPinning.registeredEnv fun name => if name = "orch" then some droppingHandler else none }

theorem dropsExactly_of_reachable_dropping : ∃ request next, droppingTurn.step [] = some next ∧
    droppedSources .activity next = [2] ∧ request.cancelledActivities = [⟨"i", 1, 2⟩] ∧
    DropsExactly droppingTurn.env droppingTurn.item request next := by
  have observed : ((droppingTurn.step []).any fun next => droppedSources .activity next == [2]) = true := by
    decide +kernel
  have goesOn : droppingTurn.result = some .continue := by decide +kernel
  have cancels : (droppingTurn.committed.all fun request => request.cancelledActivities == [⟨"i", 1, 2⟩]) = true := by
    decide +kernel
  obtain ⟨next, taken, dropped⟩ := (Option.any_eq_true _ _).mp observed
  obtain ⟨request, committed, _, exactly⟩ := dropsExactly_of_reachable (.initial rfl) taken goesOn (.inl rfl)
  rw [committed] at cancels
  exact ⟨request, next, taken, eq_of_beq dropped, eq_of_beq cancels, exactly⟩

end Completions

end Duroxide
