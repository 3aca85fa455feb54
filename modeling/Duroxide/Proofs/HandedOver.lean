import Duroxide.Proofs.DropRuns
import Duroxide.Proofs.QueuedActivities

/-! # What a commit hands over

A commit to an execution that goes on enqueues the activities that it schedules, sends a message for every timer that
it creates, takes the reports of its batch into the history, and leaves a breadcrumb for each activity that it cancels.
A batch that names no orchestration runs nothing, and its reports are gone.
-/

namespace Duroxide

open Provider Dispatcher ReplayEngine

variable {semver : Semver}

namespace ReplayEngine

variable {engine : ReplayEngine} {handler : OrchestrationHandler} {input orchestrationName orchestrationVersion : String}

/-- A turn leaves a breadcrumb for each activity that it cancels. -/
theorem requested_of_cancelled (sound : Sound engine) (untouched : engine.cancelledActivityIds = []) {id : Nat}
    (cancelled : id ∈
      (engine.executeOrchestration handler input orchestrationName orchestrationVersion).2.cancelledActivityIds) :
    CancelsActivity (engine.executeOrchestration handler input orchestrationName orchestrationVersion).2.historyDelta
      id := by
  have concludes := executeOrchestration_concludes engine handler input orchestrationName orchestrationVersion
  generalize engine.executeOrchestration handler input orchestrationName orchestrationVersion = executed
    at cancelled concludes ⊢
  obtain ⟨result, last⟩ := executed
  have none : ∀ {middle : ReplayEngine}, Converted engine middle → id ∉ middle.cancelledActivityIds := by
    intro middle converted listed
    rw [converted.activities, untouched] at listed
    exact absurd listed List.not_mem_nil
  cases concludes with
  | idle => exact absurd cancelled (none (.refl _))
  | failed _ _ _ evaluated => exact absurd cancelled (none (converted_of_evaluate sound evaluated).1)
  | cancelled _ _ _ _ evaluated => exact absurd cancelled (none (converted_of_evaluate sound evaluated).1)
  | continuesAsNew _ _ _ _ evaluated => exact absurd cancelled (none (converted_of_evaluate sound evaluated).1)
  | mismatched _ _ _ _ evaluated => exact absurd cancelled (none (converted_of_evaluate sound evaluated).1)
  | collected replay middle _ ctx _ evaluated _ _ reconciled =>
    obtain ⟨activities, children, activityEvents, childEvents, waitEvents, collected⟩ := collected_of_ok reconciled
    dsimp only at cancelled ⊢
    rw [collected.cancelledActivities] at cancelled
    have recorded : some id ∈ activityEvents.map (·.sourceEventId) := by
      rw [collected.activitySources]
      exact List.mem_map_of_mem
        ((List.mem_append.mp cancelled).resolve_left (none (converted_of_evaluate sound evaluated).1))
    obtain ⟨event, member, source⟩ := List.mem_map.mp recorded
    refine ⟨event, ?_, ?_, source⟩
    · rw [collected.delta]
      simp [member]
    · rw [collected.activityKinds event member]
      rfl

end ReplayEngine

/-- An activity that an ascending history schedules is what stands under its id. -/
theorem scheduleKindOf_of_schedules {history : List Event} (ascending : Ascending history) {id : Nat}
    (scheduled : SchedulesActivity history id) : scheduleKindOf history id = some "activity" := by
  obtain ⟨event, member, rfl, kind⟩ := scheduled
  obtain ⟨before, after, rfl⟩ := List.append_of_mem member
  have earlier : scheduleKindOf before event.eventId = none := by
    refine List.findSome?_eq_none_iff.mpr fun other listed => ?_
    have below := (List.pairwise_append.mp ascending).2.2 other listed event List.mem_cons_self
    rw [if_pos (by simpa using below.ne)]
  rw [scheduleKindOf, List.findSome?_append]
  change (scheduleKindOf before event.eventId).or (scheduleKindOf (event :: after) event.eventId) = _
  rw [earlier, Option.none_or, scheduleKindOf, List.findSome?_cons, if_neg (by simp)]
  obtain ⟨eventId, source, instanceId, executionId, timestamp, crate, eventKind⟩ := event
  cases eventKind <;> first | rfl | cases kind

theorem exists_of_scheduleKindOf {history : List Event} {id : Nat} {kind : String}
    (scheduled : scheduleKindOf history id = some kind) : ∃ event ∈ history, event.kind.isSchedule := by
  obtain ⟨event, member, found⟩ := List.exists_of_findSome?_eq_some scheduled
  refine ⟨event, member, ?_⟩
  split_ifs at found
  cases same : event.kind <;> rw [same] at found <;> first | rfl | simp at found

/-- What a request hands over for an execution that goes on. -/
structure HandsOver (item : OrchestrationItem) (request : AckRequest semver) : Prop where
  enqueued : ∀ id, SchedulesActivity request.historyDelta id → ∃ workItem ∈ request.workerItems,
    (Store.workerColumns workItem).1 = some ⟨item.instanceId, request.executionId, id⟩
  timed : ∀ id, scheduleKindOf request.historyDelta id = some "timer" → ∃ message ∈ request.orchestratorItems,
    message.targetInstance = item.instanceId ∧ message.completion = some (request.executionId, "timer", id)
  settled : ∀ message ∈ item.messages, ∀ kind id, message.completion = some (request.executionId, kind, id) →
    scheduleKindOf (baseHistory item request.executionId) id = some kind →
    (kind, id) ∈ completions (baseHistory item request.executionId ++ request.historyDelta)
  requested : ∀ identity ∈ request.cancelledActivities, CancelsActivity request.historyDelta identity.activityId

/-- The events of an execution do not end it. -/
def GoesOn (events : List Event) : Prop := events.any (·.isTerminal) = false

theorem GoesOn.of_mem {events : List Event} (goesOn : GoesOn events) {event : Event} (member : event ∈ events) :
    event.kind.isTerminal = false :=
  Bool.eq_false_of_not_eq_true (List.any_eq_false.mp goesOn event member)

theorem GoesOn.mono {events longer : List Event} (goesOn : GoesOn longer) (contains : events ⊆ longer) : GoesOn events :=
  List.any_eq_false.mpr fun event member => List.any_eq_false.mp goesOn event (contains member)

namespace Dispatcher

variable {env : RuntimeEnv semver} {item : OrchestrationItem} {outcome : ExecutionOutcome} {result : TurnResult}
  {engine : ReplayEngine} {manager : HistoryManager} {ending : List Event} {attemptCount : Nat}
  {request : AckRequest semver}

/-- A turn is refused for a history that has ended only. -/
theorem ended_of_isTerminalFor (terminal : isTerminalFor (tempHistoryMgr item) (workitemReader item)) :
    ¬ GoesOn item.history := by
  intro goesOn
  obtain ⟨completed, failed, continued⟩ := HistoryManager.fromHistory_state item.history
  rw [HistoryManager.decidingEvent_of_running goesOn] at completed failed continued
  simp [isTerminalFor, tempHistoryMgr, completed, failed, continued] at terminal

/-- A turn that does not end its execution goes on within its limits. -/
theorem goesOn_of_turned (turned : Turned env item result engine outcome manager ending)
    (goesOn : GoesOn (turnRequest env item outcome).historyDelta) :
    result = .continue ∧ limitError outcome.historyMgr.delta item.kvSnapshot = none := by
  obtain ⟨limit, limited⟩ := enforceLimits_limited env item (turnExecution item).1 outcome
  obtain ⟨trailing, cancelled, _⟩ := cancelInflight_extends env.stamp item.instanceId (turnExecution item).1
    (enforceLimits env item (turnExecution item).1 outcome).1
    (enforceLimits env item (turnExecution item).1 outcome).2.status
  have delta : (turnRequest env item outcome).historyDelta = outcome.historyMgr.delta ++ (limit ++ trailing) :=
    (limited.extends.trans cancelled).delta
  constructor
  · obtain ⟨breadcrumbs, tail, rfl, _, kinds⟩ := turned.ends.split
    rcases terminal : Execution.terminalKind result with _ | kind
    · cases result <;> first | rfl | cases terminal
    · rw [terminal] at kinds
      obtain ⟨last, rfl, same⟩ := List.map_eq_singleton_iff.mp (show tail.map (·.kind) = [kind] from kinds)
      have ends : last.kind.isTerminal := by
        rw [same]
        cases result <;> cases terminal <;> rfl
      have member : last ∈ (turnRequest env item outcome).historyDelta := by
        rw [delta, turned.delta]
        simp
      rw [goesOn.of_mem member] at ends
      cases ends
  · generalize enforceLimits env item (turnExecution item).1 outcome = enforced at limited
    cases limited with
    | within none => exact none
    | exceeded message _ failure failed =>
      have member : failure ∈ (turnRequest env item outcome).historyDelta := by
        rw [delta]
        simp
      have unended := goesOn.of_mem member
      rw [failed] at unended
      cases unended

/-- Behind what a turn schedules is an action of its program. -/
theorem action_of_scheduled (turned : Turned env item result engine outcome manager ending) {event : Event}
    (member : event ∈ (turnRequest env item outcome).historyDelta) {work : Work} (asked : Work.ofEvent event = some work) :
    ∃ action ∈ engine.pendingActions, Work.ofAction item.instanceId (turnExecution item).1 action = some work := by
  have recorded : work ∈ (turnRequest env item outcome).historyDelta.filterMap Work.ofEvent :=
    List.mem_filterMap.mpr ⟨event, member, asked⟩
  rw [turned.work] at recorded
  exact List.mem_filterMap.mp recorded

/-- A turn that goes on enqueues the activities that it schedules. -/
theorem enqueued_of_turned (turned : Turned env item result engine outcome manager ending)
    (goesOn : GoesOn (turnRequest env item outcome).historyDelta) {id : Nat}
    (scheduled : SchedulesActivity (turnRequest env item outcome).historyDelta id) :
    ∃ workItem ∈ (turnRequest env item outcome).workerItems,
      (Store.workerColumns workItem).1 = some ⟨item.instanceId, (turnExecution item).1, id⟩ := by
  obtain ⟨rfl, within⟩ := goesOn_of_turned turned goesOn
  obtain ⟨event, member, rfl, kind⟩ := scheduled
  obtain ⟨work, asked, own⟩ : ∃ work, Work.ofEvent event = some work ∧ work.activityId = some event.eventId := by
    obtain ⟨eventId, source, instanceId, executionId, timestamp, crate, eventKind⟩ := event
    cases eventKind <;> first | exact ⟨_, rfl, rfl⟩ | cases kind
  obtain ⟨action, pending, does⟩ := action_of_scheduled turned member asked
  rw [workerItems_of_within within, turned.workerItems, appliedResult, Execution.applyTurnResult_workerItems, if_pos rfl]
  cases action with
  | callActivity id name input sessionId tag =>
    cases does
    obtain rfl := Option.some.inj own
    exact ⟨_, List.mem_filterMap.mpr ⟨_, pending, rfl⟩, rfl⟩
  | _ => cases does <;> cases own

/-- A turn that goes on sends its instance a message for each timer that it creates. -/
theorem timed_of_turned (turned : Turned env item result engine outcome manager ending)
    (goesOn : GoesOn (turnRequest env item outcome).historyDelta) {id : Nat}
    (scheduled : scheduleKindOf (turnRequest env item outcome).historyDelta id = some "timer") :
    ∃ message ∈ (turnRequest env item outcome).orchestratorItems, message.targetInstance = item.instanceId ∧
      message.completion = some ((turnExecution item).1, "timer", id) := by
  obtain ⟨rfl, within⟩ := goesOn_of_turned turned goesOn
  obtain ⟨event, member, found⟩ := List.exists_of_findSome?_eq_some scheduled
  split_ifs at found with other
  obtain rfl : event.eventId = id := by simpa using other
  obtain ⟨instanceId, executionId, fireAtMs, asked⟩ : ∃ instanceId executionId fireAtMs, Work.ofEvent event =
      some (.timer instanceId executionId event.eventId fireAtMs) := by
    obtain ⟨eventId, source, instanceId, executionId, timestamp, crate, eventKind⟩ := event
    cases eventKind <;> first | exact ⟨_, _, _, rfl⟩ | simp at found
  obtain ⟨action, pending, does⟩ := action_of_scheduled turned member asked
  rw [items_of_within within, turned.orchestratorItems]
  cases action with
  | createTimer id fireAtMs =>
    cases does
    exact ⟨_, List.mem_append_left _ (List.mem_filterMap.mpr ⟨_, pending, rfl⟩), rfl, rfl⟩
  | _ => cases does

/-- A turn completes the schedules that its batch reports, unless they were completed before. -/
theorem settled_of_turned (turned : Turned env item result engine outcome manager ending) {message : WorkItem}
    (member : message ∈ item.messages) {kind : String} {id : Nat}
    (completion : message.completion = some ((turnExecution item).1, kind, id))
    (scheduled : scheduleKindOf (baseHistory item (turnExecution item).1) id = some kind) :
    (kind, id) ∈ completions (baseHistory item (turnExecution item).1 ++ (turnRequest env item outcome).historyDelta) := by
  have listed : message ∈ (workitemReader item).completionMessages := by
    have kept : message ∈ item.messages.filter WorkItemReader.isCompletionMessage := by
      refine List.mem_filter.mpr ⟨member, ?_⟩
      cases message <;> first | rfl | cases completion
    have parsed := VersionPinning.parsed_workitemReader item
    generalize workitemReader item = reader at parsed
    cases parsed with
    | start | neither => exact kept
    | continueAsNew => exact List.mem_append_right _ kept
  have known : scheduleKindOf manager.fullHistory id = some kind := by
    rw [HistoryManager.fullHistory, turned.history]
    exact scheduleKindOf_append scheduled _
  have delta : completions (turnRequest env item outcome).historyDelta =
      completions (preparedEngine env item manager).historyDelta :=
    (Completions.reads_completion.turned turned).trans (ReplayEngine.Recorded.completions turned.recorded)
  rw [completions_append, delta]
  rcases known_of_delivered (Completions.staged_seeded env item manager) listed completion known with before | staged
  · have opened : completions manager.delta = [] := Completions.reads_completion.of_opening turned.opens
    rw [HistoryManager.fullHistory, completions_append, turned.history, opened, List.append_nil] at before
    exact List.mem_append_left _ before
  · exact List.mem_append_right _ staged

/-- A turn that does not end its execution cancels what its program dropped. -/
theorem dropped_of_cancelled (goesOn : GoesOn (turnRequest env item outcome).historyDelta)
    {identity : ScheduledActivityIdentifier} (cancelled : identity ∈ (turnRequest env item outcome).cancelledActivities) :
    identity ∈ outcome.cancelledActivities := by
  have running : (enforceLimits env item (turnExecution item).1 outcome).2.status = none := by
    apply Option.not_isSome_iff_eq_none.mp
    intro status
    obtain ⟨event, member, terminal⟩ := @ended_of_turnRequest semver env item outcome status
    rw [goesOn.of_mem member] at terminal
    cases terminal
  have kept := List.mem_eraseDups.mp cancelled
  rw [running] at kept
  change identity ∈ (enforceLimits env item (turnExecution item).1 outcome).1.cancelledActivities at kept
  unfold enforceLimits at kept
  dsimp only at kept
  split at kept <;> exact kept

/-- A turn that goes on leaves a breadcrumb for each activity that it cancels. -/
theorem requested_of_turned (turned : Turned env item result engine outcome manager ending)
    (history : Ascending item.history) (ran : turnOutcome env item = some outcome)
    (goesOn : GoesOn (turnRequest env item outcome).historyDelta) {identity : ScheduledActivityIdentifier}
    (cancelled : identity ∈ (turnRequest env item outcome).cancelledActivities) :
    CancelsActivity (turnRequest env item outcome).historyDelta identity.activityId := by
  have listed := dropped_of_cancelled goesOn cancelled
  rw [turned.cancelledActivities] at listed
  obtain ⟨id, dropped, rfl⟩ := List.mem_map.mp listed
  obtain ⟨version, handler, _, run⟩ := turned.ran
  rw [(Prod.mk.inj run).2] at dropped
  obtain ⟨event, member, requests, source⟩ := requested_of_cancelled (turned.sound history ran)
    (prepared_frame env item manager).2.2.1 dropped
  have recorded : event ∈ engine.historyDelta := by
    rw [(Prod.mk.inj run).2]
    exact member
  obtain ⟨limit, trailing, delta, _⟩ := turnRequest_delta env item outcome
  refine ⟨event, ?_, requests, source⟩
  rw [delta, turned.delta]
  simp [recorded]

/-- A turn that runs nothing schedules nothing. -/
theorem unscheduled_of_unexecuted (idle : turnExecuted env item = none) (ran : turnOutcome env item = some outcome) :
    ∀ event ∈ (turnRequest env item outcome).historyDelta, event.kind.isSchedule = false := by
  obtain ⟨limit, trailing, delta, terminal, crumbs⟩ := turnRequest_delta env item outcome
  have nothing : outcome.historyMgr.delta = [] := by
    rw [outcome_of_unexecuted idle ran]
    exact turnExecution_delta item
  intro event member
  rw [delta, nothing, List.nil_append] at member
  have other := (List.mem_append.mp member).imp (terminal event) (crumbs event)
  obtain ⟨eventId, source, instanceId, executionId, timestamp, crate, kind⟩ := event
  cases kind <;> first | rfl | (rcases other with other | other <;> cases other)

/-- A turn that goes on hands over what its execution waits for, when its batch names the orchestration. -/
theorem handsOver_of_turnOutcome (history : Ascending item.history) (ran : turnOutcome env item = some outcome)
    (named : item.history ≠ [] → (workitemReader item).hasOrchestrationName)
    (goesOn : GoesOn (turnRequest env item outcome).historyDelta) : HandsOver item (turnRequest env item outcome) := by
  rcases executed : turnExecuted env item with _ | ⟨result, engine⟩
  · have unscheduled := unscheduled_of_unexecuted executed ran
    constructor
    · rintro id ⟨event, member, _, scheduled⟩
      have schedules := unscheduled event member
      cases kind : event.kind <;> rw [kind] at scheduled schedules <;> first | cases scheduled; done | cases schedules
    · intro id scheduled
      obtain ⟨event, member, schedules⟩ := exists_of_scheduleKindOf scheduled
      rw [unscheduled event member] at schedules
      cases schedules
    · intro message _ kind id _ scheduled
      have occupied : item.history ≠ [] := by
        obtain ⟨event, member, _⟩ := exists_of_scheduleKindOf scheduled
        unfold baseHistory at member
        split_ifs at member
        · exact List.ne_nil_of_mem member
        · exact absurd member List.not_mem_nil
      unfold turnExecuted at executed
      unfold turnOutcome resolveAndExecuteOrchestrationHandler at ran
      rw [if_pos (named occupied)] at executed ran
      rw [Option.map_eq_none_iff.mp executed] at ran
      cases ran
    · intro identity cancelled
      have listed := dropped_of_cancelled goesOn cancelled
      rw [outcome_of_unexecuted executed ran] at listed
      exact absurd listed List.not_mem_nil
  · obtain ⟨manager, ending, turned⟩ := turned_of_executed executed ran
    exact ⟨fun _ => enqueued_of_turned turned goesOn, fun _ => timed_of_turned turned goesOn,
      fun _ member _ _ => settled_of_turned turned member, fun _ => requested_of_turned turned history ran goesOn⟩

/-- A turn cancels activities of its execution. -/
theorem cancelsOwn_of_turnOutcome (ran : turnOutcome env item = some outcome) {identity : ScheduledActivityIdentifier}
    (cancelled : identity ∈ (turnRequest env item outcome).cancelledActivities) :
    identity.instanceId = item.instanceId ∧ identity.executionId = (turnExecution item).1 := by
  obtain ⟨_, _, _, _, _, _, _, listed, _⟩ := turnRequest_closes env item outcome
  rcases (listed identity).mp cancelled with dropped | ⟨_, _, _, _, rfl⟩
  · rcases executed : turnExecuted env item with _ | ⟨result, engine⟩
    · rw [outcome_of_unexecuted executed ran] at dropped
      exact absurd dropped List.not_mem_nil
    · obtain ⟨manager, ending, turned⟩ := turned_of_executed executed ran
      rw [turned.cancelledActivities] at dropped
      obtain ⟨id, _, rfl⟩ := List.mem_map.mp dropped
      exact ⟨rfl, rfl⟩
  · exact ⟨rfl, rfl⟩

/-- A turn that schedules something has started its execution. -/
theorem begun_of_turnOutcome (ran : turnOutcome env item = some outcome) {event : Event}
    (member : event ∈ (turnRequest env item outcome).historyDelta) (schedules : event.kind.isSchedule) :
    ∃ first ∈ baseHistory item (turnExecution item).1 ++ (turnRequest env item outcome).historyDelta,
      first.kind.isStarted := by
  rcases executed : turnExecuted env item with _ | ⟨result, engine⟩
  · rw [unscheduled_of_unexecuted executed ran event member] at schedules
    cases schedules
  obtain ⟨manager, ending, turned⟩ := turned_of_executed executed ran
  obtain ⟨limit, trailing, delta, terminal, crumbs⟩ := turnRequest_delta env item outcome
  rw [turned.delta] at delta
  rcases evaluates : (preparedEngine env item manager).evaluates with _ | _
  · -- A turn that does not run its program schedules nothing.
    obtain ⟨version, handler, _, run⟩ := turned.ran
    rw [(Prod.mk.inj run).2.trans (executeOrchestration_of_idle evaluates)] at delta
    rw [delta] at member
    simp only [List.mem_append] at member
    have unscheduled : event.kind.isSchedule = false := by
      rcases member with ((opened | prepared | ended) | limited) | trailed
      · exact EventKind.isSchedule_of_unbooked (unbooked_of_opening turned.opens event opened)
      · exact EventKind.isSchedule_of_unbooked (unbooked_of_messages env item manager event prepared)
      · exact turned.ends.unscheduled event ended
      · exact EventKind.isSchedule_of_unbooked (EventKind.unbooked_of_isTerminal (terminal event limited))
      · have crumb := crumbs event trailed
        cases kind : event.kind <;> rw [kind] at crumb <;> first | rfl | cases crumb
    rw [unscheduled] at schedules
    cases schedules
  · obtain ⟨first, head, started⟩ := begun_of_evaluates turned evaluates
    refine ⟨first, ?_, started⟩
    rw [delta]
    rcases List.mem_append.mp (List.mem_of_mem_head? head) with old | opened
    · exact List.mem_append_left _ old
    · simp [opened]

/-- A poison failure schedules nothing. -/
theorem unscheduled_of_poisoned (history : Ascending item.history) :
    ∀ event ∈ (failOrchestrationAsPoison env item attemptCount).historyDelta, event.kind.isSchedule = false := by
  intro event member
  rcases error : item.historyError with _ | message
  · have events := (@failOrchestrationAsPoison_events semver env item attemptCount error history).1
    generalize (failOrchestrationAsPoison env item attemptCount).historyDelta = delta at events member
    cases events with
    | recorded continues failed kind =>
      rw [List.mem_singleton.mp member, kind]
      rfl
    | new empty started failed begins kind =>
      rcases List.mem_pair.mp member with rfl | rfl
      · rw [begins.kind]
        rfl
      · rw [kind]
        rfl
  · unfold failOrchestrationAsPoison at member
    rw [error] at member
    rw [List.mem_singleton.mp member]
    rfl

end Dispatcher

namespace Asks.Source

variable {conditions : Conditions semver} {item : OrchestrationItem} {attemptCount : Nat} {request : AckRequest semver}

/-- What is asked for hands over what an execution that goes on waits for. -/
theorem handsOver (source : Asks.Source conditions item attemptCount request) (history : Ascending item.history)
    (named : item.history ≠ [] → (workitemReader item).hasOrchestrationName)
    (goesOn : GoesOn (baseHistory item request.executionId ++ request.historyDelta)) : HandsOver item request := by
  have inner := goesOn.mono (List.subset_append_right ..)
  have unended : ∀ event ∈ request.historyDelta, ¬ event.kind.isTerminal := fun event member terminal => by
    rw [inner.of_mem member] at terminal
    cases terminal
  have accounts := source.accounts history
  cases source with
  | answer env allowed supported _ fallback answered =>
    cases answered with
    | corrupted | poisoned =>
      obtain ⟨event, member, terminal⟩ := accounts.ended (by unfold failOrchestrationAsPoison; split <;> rfl)
      exact absurd terminal (unended event member)
    | ended inTime readable terminal =>
      rw [baseHistory_self] at goesOn
      exact absurd (goesOn.mono (List.subset_append_left ..)) (ended_of_isTerminalFor terminal)
    | turned inTime readable running outcome ran => exact handsOver_of_turnOutcome history ran named inner
  | failure env allowed supported turned _ outcome ran running error =>
    obtain ⟨failed, kind, delta, _⟩ := @failureCommit_events semver env item (turnExecution item).1 error history
    refine absurd ?_ (unended failed (delta ▸ List.mem_singleton_self _))
    rw [kind]
    rfl

/-- What is asked for cancels activities of the execution that it is about. -/
theorem cancelsOwn (source : Asks.Source conditions item attemptCount request) {identity : ScheduledActivityIdentifier}
    (cancelled : identity ∈ request.cancelledActivities) :
    identity.instanceId = item.instanceId ∧ identity.executionId = request.executionId := by
  cases source with
  | answer env allowed supported _ fallback answered =>
    cases answered with
    | corrupted | poisoned =>
      rw [FinishedExecutions.cancelledActivities_of_failsOutright (.inl ⟨env, attemptCount, rfl⟩)] at cancelled
      exact absurd cancelled List.not_mem_nil
    | ended => exact absurd cancelled List.not_mem_nil
    | turned inTime readable running outcome ran => exact cancelsOwn_of_turnOutcome ran cancelled
  | failure => exact absurd cancelled List.not_mem_nil

/-- What is asked for schedules something behind the start of its execution only. -/
theorem schedulesStarted (source : Asks.Source conditions item attemptCount request) (history : Ascending item.history)
    {event : Event} (member : event ∈ request.historyDelta) (schedules : event.kind.isSchedule) :
    ∃ first ∈ baseHistory item request.executionId ++ request.historyDelta, first.kind.isStarted := by
  cases source with
  | answer env allowed supported _ fallback answered =>
    cases answered with
    | corrupted | poisoned =>
      rw [unscheduled_of_poisoned history event member] at schedules
      cases schedules
    | ended => exact absurd member List.not_mem_nil
    | turned inTime readable running outcome ran => exact begun_of_turnOutcome ran member schedules
  | failure env allowed supported turned _ outcome ran running error =>
    obtain ⟨failed, kind, delta, _⟩ := @failureCommit_events semver env item (turnExecution item).1 error history
    rw [delta] at member
    rw [List.mem_singleton.mp member, kind] at schedules
    cases schedules

end Asks.Source

end Duroxide
