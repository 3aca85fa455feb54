import Duroxide.Proofs.Completions
import Duroxide.Proofs.DroppedFutures
import Duroxide.Proofs.OutcomeViews
import Duroxide.Proofs.Requests
import Duroxide.Proofs.ScheduledWork

/-! # Activities in a request

What a dispatcher asks for about the activities of an execution: it runs activities that it schedules in the
same commit, completes those that messages of its batch report, and requests the cancellation of those that it
cancels. A turn that ends its execution cancels every activity that is neither completed nor cancelled before.
-/

namespace Duroxide

open Dispatcher ReplayEngine

variable {semver : Semver}

/-- The activity that a message reports an outcome of. -/
def WorkItem.reportedActivity : WorkItem → Option ScheduledActivityIdentifier
  | .activityCompleted instanceId executionId id _ | .activityFailed instanceId executionId id _ =>
      some ⟨instanceId, executionId, id⟩
  | _ => none

/-- A history schedules an activity under an id. -/
def SchedulesActivity (history : List Event) (id : Nat) : Prop :=
  ∃ event ∈ history, event.eventId = id ∧ isActivityScheduled event.kind

/-- A history completes an activity. -/
def CompletesActivity (history : List Event) (id : Nat) : Prop := ("activity", id) ∈ completions history

/-- A history requests the cancellation of an activity. -/
def CancelsActivity (history : List Event) (id : Nat) : Prop :=
  ∃ event ∈ history, (activityCancelReason event.kind).isSome ∧ event.sourceEventId = some id

theorem SchedulesActivity.mono {history longer : List Event} {id : Nat} (contains : history ⊆ longer)
    (scheduled : SchedulesActivity history id) : SchedulesActivity longer id := by
  obtain ⟨event, member, same, kind⟩ := scheduled
  exact ⟨event, contains member, same, kind⟩

theorem completesActivity_iff {history : List Event} {id : Nat} : CompletesActivity history id ↔
    ∃ event ∈ history, event.completion = some ("activity", id) := List.mem_filterMap

/-- The id of an activity. -/
def Work.activityId : Work → Option Nat
  | .activity _ _ id _ _ _ _ => some id
  | _ => none

theorem Work.eventId_of_activityId {event : Event} {work : Work} {id : Nat} (scheduled : Work.ofEvent event = some work)
    (own : work.activityId = some id) : event.eventId = id := by
  obtain ⟨eventId, source, instanceId, executionId, timestamp, crate, kind⟩ := event
  cases kind <;> cases scheduled <;> cases own
  rfl

/-- What a request says about the activities of its execution. -/
structure Accounts (item : OrchestrationItem) (request : AckRequest semver) : Prop where
  runs : ∀ workItem ∈ request.workerItems, ∃ id name input sessionId tag,
    workItem = .activityExecute item.instanceId request.executionId id name input sessionId tag ∧
      SchedulesActivity request.historyDelta id
  distinct : (request.workerItems.map fun workItem => (Store.workerColumns workItem).1).Nodup
  running : request.metadata.status.isSome → request.workerItems = []
  unended : request.workerItems ≠ [] → (baseHistory item request.executionId).any (·.isTerminal) = false
  reports : ∀ workItem ∈ request.orchestratorItems, workItem.reportedActivity = none
  completes : ∀ id, CompletesActivity request.historyDelta id →
    ∃ message ∈ item.messages, message.completion = some (request.executionId, "activity", id)
  cancels : ∀ id, CancelsActivity request.historyDelta id →
    (⟨item.instanceId, request.executionId, id⟩ : ScheduledActivityIdentifier) ∈ request.cancelledActivities
  refers : ∀ event ∈ request.historyDelta, (activityCancelReason event.kind).isSome →
    ∀ id, event.sourceEventId = some id → id < event.eventId
  ended : request.metadata.status.isSome → ∃ event ∈ request.historyDelta, event.kind.isTerminal

/-- A request that cancels what is in flight at the end of its execution. -/
def Settles (item : OrchestrationItem) (request : AckRequest semver) : Prop :=
  request.metadata.status.isSome → ∀ id,
    SchedulesActivity (baseHistory item request.executionId ++ request.historyDelta) id →
    CompletesActivity (baseHistory item request.executionId ++ request.historyDelta) id ∨
    CancelsActivity (baseHistory item request.executionId ++ request.historyDelta) id ∨
    (⟨item.instanceId, request.executionId, id⟩ : ScheduledActivityIdentifier) ∈ request.cancelledActivities

/-! ## The pieces of a turn -/

namespace ReplayEngine

variable {engine : ReplayEngine} {executionId : Nat} {history : List Event}

/-- What a batch completes, one of its messages completes. -/
theorem completion_of_prepCompletions (staged : Staged history executionId engine) (messages : List WorkItem)
    {kind : String} {id : Nat} (completed : (kind, id) ∈ completions (engine.prepCompletions messages).historyDelta) :
    (kind, id) ∈ completions engine.historyDelta ∨
      ∃ message ∈ messages, message.completion = some (executionId, kind, id) := by
  unfold prepCompletions at completed
  induction messages generalizing engine with
  | nil => exact .inl completed
  | cons message rest ih =>
    rcases ih (staged.prepCompletion message) completed with before | ⟨later, member, completion⟩
    swap
    · exact .inr ⟨later, List.mem_cons_of_mem _ member, completion⟩
    rcases found : message.completion with _ | ⟨completedExecution, messageKind, messageId⟩
    · left
      rcases engine.prepCompletion_cases message with ⟨abortError, same⟩ | ⟨abortError, source, eventKind, converted, pushed⟩
      · rwa [same] at before
      · rw [pushed, completions_pushEvent, completes_of_not_completion found converted] at before
        exact (List.append_nil (completions engine.historyDelta)) ▸ before
    · have prepares := @preparesCompletion engine _ _ _ _ found
      generalize engine.prepCompletion message = result at before prepares
      cases prepares with
      | ignored | persisted | duplicate => exact .inl before
      | refused => exact .inl before
      | staged own new first scheduled abortError eventKind completes =>
        rw [completions_pushEvent, completes] at before
        rcases List.mem_append.mp before with old | pushed
        · exact .inl old
        · right
          obtain ⟨rfl, rfl⟩ := Prod.mk.inj (List.mem_singleton.mp pushed)
          exact ⟨message, List.mem_cons_self, found.trans (by rw [own, staged.execution])⟩

end ReplayEngine

namespace Execution

open HistoryManager

variable {stamp : Stamp} {instanceId orchestrationName : String} {executionId : Nat} {manager : HistoryManager}

/-- Breadcrumbs refer to the ids that they are for, and are numbered behind all that was recorded. -/
theorem emitBreadcrumbs_refers (kind : EventKind) (manager : HistoryManager) (ids : List Nat) :
    ∀ event ∈ (emitBreadcrumbs stamp instanceId executionId kind manager ids).delta, event ∈ manager.delta ∨
      event.kind = kind ∧ manager.nextEventId ≤ event.eventId ∧ ∃ id ∈ ids, event.sourceEventId = some id := by
  unfold emitBreadcrumbs
  induction ids generalizing manager with
  | nil => exact fun _ member => .inl member
  | cons id rest ih =>
    intro event member
    rcases ih _ event member with old | ⟨same, above, source, listed, refers⟩
    · rcases List.mem_append.mp old with kept | new
      · exact .inl kept
      · rw [List.mem_singleton.mp new]
        exact .inr ⟨rfl, Nat.le_refl _, id, List.mem_cons_self, rfl⟩
    · refine .inr ⟨same, Nat.le_trans ?_ above, source, List.mem_cons_of_mem _ listed, refers⟩
      have recorded : Event.withEventId stamp manager.nextEventId instanceId executionId (some id) kind ∈
          (manager.append (Event.withEventId stamp manager.nextEventId instanceId executionId (some id) kind)).fullHistory :=
        List.mem_append_right _ (List.mem_append_right _ (List.mem_singleton_self _))
      exact Nat.le_of_lt (eventId_lt_nextEventId recorded)

/-- The breadcrumbs at the end of an execution are not about activities. -/
theorem mem_emitTerminalCancellationBreadcrumbs {outstanding : OutstandingSchedules} {event : Event}
    (requests : (activityCancelReason event.kind).isSome)
    (member : event ∈ (emitTerminalCancellationBreadcrumbs stamp manager instanceId executionId outstanding).delta) :
    event ∈ manager.delta := by
  rcases emitBreadcrumbs_refers _ _ _ event member with old | ⟨kind, _⟩
  · rcases emitBreadcrumbs_refers _ _ _ event old with kept | ⟨kind, _⟩
    · exact kept
    · rw [kind] at requests
      cases requests
  · rw [kind] at requests
    cases requests

/-- The result of a turn requests the cancellation of no activity. -/
theorem mem_applyTurnResult {executionIds : ExecutionIds} {parentLink : Option (String × Nat)}
    {pendingActions : List Action} {result : TurnResult} {event : Event}
    (requests : (activityCancelReason event.kind).isSome)
    (member : event ∈ (applyTurnResult stamp executionIds instanceId orchestrationName executionId manager parentLink
      pendingActions result).historyMgr.delta) : event ∈ manager.delta := by
  have appended : ∀ {outstanding : OutstandingSchedules} {last : Event}, activityCancelReason last.kind = none →
      event ∈ ((emitTerminalCancellationBreadcrumbs stamp manager instanceId executionId outstanding).append last).delta →
      event ∈ manager.delta := by
    intro outstanding last silent listed
    rcases List.mem_append.mp listed with old | new
    · exact mem_emitTerminalCancellationBreadcrumbs requests old
    · rw [List.mem_singleton.mp new, silent] at requests
      cases requests
  cases result with
  | «continue» => exact member
  | completed | failed | continueAsNew | cancelled => exact appended rfl member

/-- A turn runs activities only if its program goes on. -/
theorem applyTurnResult_workerItems {executionIds : ExecutionIds} {parentLink : Option (String × Nat)}
    {pendingActions : List Action} {result : TurnResult} :
    (applyTurnResult stamp executionIds instanceId orchestrationName executionId manager parentLink pendingActions
      result).workerItems =
      if result = .continue then pendingActions.filterMap (workerItem instanceId executionId) else [] := by
  cases result with
  | «continue» => rfl
  | completed | failed | continueAsNew | cancelled => exact (if_neg nofun).symm

/-- The items of a result report no activity. -/
theorem reportedActivity_of_applyTurnResult {executionIds : ExecutionIds} {parentLink : Option (String × Nat)}
    {pendingActions : List Action} {result : TurnResult} :
    ∀ workItem ∈ (applyTurnResult stamp executionIds instanceId orchestrationName executionId manager parentLink
      pendingActions result).orchestratorItems, workItem.reportedActivity = none := by
  have detached : ∀ workItem ∈ pendingActions.filterMap detachedStart, workItem.reportedActivity = none := by
    intro workItem member
    obtain ⟨action, _, asked⟩ := List.mem_filterMap.mp member
    cases action <;> cases asked
    rfl
  have notified : ∀ {notice : String → Nat → Nat → WorkItem},
      (∀ parentInstance parentExecution parentId, (notice parentInstance parentExecution parentId).reportedActivity = none) →
      ∀ workItem ∈ notifyParent executionIds parentLink notice, workItem.reportedActivity = none := by
    intro notice silent workItem member
    obtain ⟨_, _, _, rfl⟩ := mem_notifyParent member
    exact silent _ _ _
  intro workItem member
  cases result with
  | «continue» =>
    obtain ⟨action, _, asked⟩ := List.mem_filterMap.mp member
    cases action <;> cases asked <;> rfl
  | completed | failed =>
    rcases List.mem_append.mp member with started | notice
    · exact detached workItem started
    · exact notified (fun _ _ _ => rfl) workItem notice
  | continueAsNew =>
    rw [List.mem_singleton.mp member]
    rfl
  | cancelled =>
    rcases List.mem_append.mp member with cancels | notice
    · obtain ⟨child, _, rfl⟩ := List.mem_map.mp cancels
      rfl
    · exact notified (fun _ _ _ => rfl) workItem notice

end Execution

/-! ## Turns -/

namespace Dispatcher

open HistoryManager OutcomeViews Completions

variable {env : RuntimeEnv semver} {item : OrchestrationItem} {outcome : ExecutionOutcome} {result : TurnResult}
  {engine : ReplayEngine} {manager : HistoryManager} {ending : List Event}

/-- A status says that a terminal event is recorded. -/
theorem ended_of_turnRequest (status : (turnRequest env item outcome).metadata.status.isSome) :
    ∃ event ∈ (turnRequest env item outcome).historyDelta, event.kind.isTerminal := by
  have summary := computeExecutionMetadata_summary outcome.historyMgr.delta ({} : ExecutionMetadata semver)
  obtain ⟨limit, limited⟩ := enforceLimits_limited env item (turnExecution item).1 outcome
  obtain ⟨trailing, cancelled, _⟩ := cancelInflight_extends env.stamp item.instanceId (turnExecution item).1
    (enforceLimits env item (turnExecution item).1 outcome).1 (enforceLimits env item (turnExecution item).1 outcome).2.status
  have delta : (turnRequest env item outcome).historyDelta = outcome.historyMgr.delta ++ (limit ++ trailing) :=
    (limited.extends.trans cancelled).delta
  rw [delta]
  change (enforceLimits env item (turnExecution item).1 outcome).2.status.isSome at status
  generalize enforceLimits env item (turnExecution item).1 outcome = enforced at limited status
  cases limited with
  | within =>
    rcases kinds : endings outcome.historyMgr.delta with _ | ⟨kind, later⟩
    · rw [kinds] at summary
      rw [(Prod.mk.inj summary).1] at status
      cases status
    · obtain ⟨terminal, event, member, rfl⟩ := mem_endings.mp (kinds ▸ List.mem_cons_self : kind ∈ _)
      exact ⟨event, List.mem_append_left _ member, terminal⟩
  | exceeded message some failure failed =>
    exact ⟨failure, List.mem_append_right _ (List.mem_append_left _ (List.mem_singleton_self _)), by rw [failed]; rfl⟩

/-- A turn that ends its execution cancels what is then in flight. -/
theorem mem_cancelled_of_inflight (status : (turnRequest env item outcome).metadata.status.isSome)
    {identity : ScheduledActivityIdentifier}
    (inflight : identity ∈ (enforceLimits env item (turnExecution item).1 outcome).1.historyMgr.computeInflightActivities
      item.instanceId (turnExecution item).1) : identity ∈ (turnRequest env item outcome).cancelledActivities := by
  obtain ⟨ended, same⟩ := Option.isSome_iff_exists.mp status
  change (enforceLimits env item (turnExecution item).1 outcome).2.status = some ended at same
  refine List.mem_eraseDups.mpr ?_
  rw [same]
  exact List.mem_append_right _ inflight

theorem mem_cancelled_of_outcome {identity : ScheduledActivityIdentifier}
    (member : identity ∈ outcome.cancelledActivities) :
    identity ∈ (turnRequest env item outcome).cancelledActivities := by
  have kept : identity ∈ (enforceLimits env item (turnExecution item).1 outcome).1.cancelledActivities := by
    unfold enforceLimits
    dsimp only
    split <;> exact member
  refine List.mem_eraseDups.mpr ?_
  rcases (enforceLimits env item (turnExecution item).1 outcome).2.status with _ | status
  · exact kept
  · exact List.mem_append_left _ kept

/-- Where the request to cancel an activity comes from: the outcome, or the activities in flight at the end. -/
theorem cancels_of_turnRequest {event : Event} (requests : (activityCancelReason event.kind).isSome)
    (member : event ∈ (turnRequest env item outcome).historyDelta) :
    event ∈ outcome.historyMgr.delta ∨ ∃ id, event.sourceEventId = some id ∧ id < event.eventId ∧
      (⟨item.instanceId, (turnExecution item).1, id⟩ : ScheduledActivityIdentifier) ∈
        (turnRequest env item outcome).cancelledActivities := by
  have unlimited : event ∈ (enforceLimits env item (turnExecution item).1 outcome).1.historyMgr.delta →
      event ∈ outcome.historyMgr.delta := by
    obtain ⟨limit, limited⟩ := enforceLimits_limited env item (turnExecution item).1 outcome
    rw [limited.extends.delta]
    intro listed
    rcases List.mem_append.mp listed with kept | added
    · exact kept
    · generalize enforceLimits env item (turnExecution item).1 outcome = enforced at limited
      cases limited with
      | within => exact absurd added List.not_mem_nil
      | exceeded message some failure failed =>
        rw [List.mem_singleton.mp added, failed] at requests
        cases requests
  rcases same : (enforceLimits env item (turnExecution item).1 outcome).2.status with _ | status
  · refine .inl (unlimited ?_)
    change event ∈ (cancelInflight env.stamp item.instanceId (turnExecution item).1
      (enforceLimits env item (turnExecution item).1 outcome).1
      (enforceLimits env item (turnExecution item).1 outcome).2.status).1.delta at member
    rwa [same] at member
  · have ended : (turnRequest env item outcome).metadata.status.isSome :=
      Option.isSome_iff_exists.mpr ⟨status, same⟩
    change event ∈ (cancelInflight env.stamp item.instanceId (turnExecution item).1
      (enforceLimits env item (turnExecution item).1 outcome).1
      (enforceLimits env item (turnExecution item).1 outcome).2.status).1.delta at member
    rw [same] at member
    rcases Execution.emitBreadcrumbs_refers _ _ _ event member with old | ⟨_, above, id, listed, refers⟩
    · exact .inl (unlimited old)
    · obtain ⟨identity, inflight, rfl⟩ := List.mem_map.mp listed
      have cancelled := mem_cancelled_of_inflight ended inflight
      obtain ⟨id, open_, rfl⟩ := List.mem_map.mp inflight
      refine .inr ⟨id, refers, ?_, cancelled⟩
      have scheduled := List.mem_dedup.mp (List.mem_filter.mp open_).1
      obtain ⟨earlier, recorded, rfl⟩ := List.mem_map.mp scheduled
      exact Nat.lt_of_lt_of_le (eventId_lt_nextEventId (List.mem_filter.mp recorded).1) above

/-- A turn runs the activities that it schedules. -/
theorem runs_of_turnRequest (turned : Turned env item result engine outcome manager ending) :
    (turnRequest env item outcome).workerItems = [] ∨ result = .continue ∧ (turnRequest env item outcome).workerItems =
      engine.pendingActions.filterMap (Execution.workerItem item.instanceId (turnExecution item).1) := by
  rcases within : limitError outcome.historyMgr.delta item.kvSnapshot with _ | message
  · rw [workerItems_of_within within, turned.workerItems]
    rw [appliedResult, Execution.applyTurnResult_workerItems]
    split_ifs with goesOn
    · exact .inr ⟨goesOn, rfl⟩
    · exact .inl rfl
  · left
    change (enforceLimits env item (turnExecution item).1 outcome).1.workerItems = []
    unfold enforceLimits
    dsimp only
    rw [within]

/-- The engine of a turn numbers its events behind those that were read. -/
theorem Turned.sound (turned : Turned env item result engine outcome manager ending)
    (history : Ascending item.history) (ran : turnOutcome env item = some outcome) :
    ReplayEngine.Sound (preparedEngine env item manager) := by
  obtain ⟨opening, body, rest, limit, trailing, events⟩ := requestEvents ran history
  refine Execution.prepareTurn_sound ?_
  have all := events.ascending
  rw [events.delta, ← events.outcomeDelta, turned.delta] at all
  rw [HistoryManager.fullHistory, turned.history]
  refine all.sublist (List.append_sublist_append_left _ |>.mpr ?_)
  rw [List.append_assoc, List.append_assoc]
  exact List.sublist_append_left _ _

/-- A turn that ends its execution runs nothing more. -/
theorem workerItems_of_ended (turned : Turned env item result engine outcome manager ending)
    (history : Ascending item.history) (ran : turnOutcome env item = some outcome)
    (status : (turnRequest env item outcome).metadata.status.isSome) : (turnRequest env item outcome).workerItems = [] := by
  rcases runs_of_turnRequest turned with none | ⟨rfl, items⟩
  · exact none
  have summary := computeExecutionMetadata_summary outcome.historyMgr.delta ({} : ExecutionMetadata semver)
  rcases within : limitError outcome.historyMgr.delta item.kvSnapshot with _ | message
  · have opens : endings manager.delta = [] := by
      refine endings_of_unterminal fun event member => ?_
      have plain := plain_opening turned.opens event member
      obtain ⟨eventId, source, instanceId, executionId, timestamp, crate, kind⟩ := event
      cases kind <;> first | rfl | cases plain
    have inner : endings engine.historyDelta = [] :=
      endings_of_inner ((turned.sound history ran).recorded turned.recorded).inner
    have same : (turnRequest env item outcome).metadata.status =
        (computeExecutionMetadata semver outcome.historyMgr.delta {}).status := by
      change (enforceLimits env item (turnExecution item).1 outcome).2.status = _
      unfold enforceLimits
      dsimp only
      rw [within]
    rw [turned.delta, turned.ends.goesOn rfl, List.append_nil, endings_append, opens, inner] at summary
    rw [same, turned.delta, turned.ends.goesOn rfl, List.append_nil, (Prod.mk.inj summary).1] at status
    cases status
  · change (enforceLimits env item (turnExecution item).1 outcome).1.workerItems = []
    unfold enforceLimits
    dsimp only
    rw [within]

/-- A turn requests the cancellation of the activities that it cancels, each behind its schedule. -/
theorem cancels_of_turned (turned : Turned env item result engine outcome manager ending)
    (history : Ascending item.history) (ran : turnOutcome env item = some outcome) {event : Event}
    (requests : (activityCancelReason event.kind).isSome)
    (member : event ∈ (turnRequest env item outcome).historyDelta) :
    ∃ id, event.sourceEventId = some id ∧ id < event.eventId ∧
      (⟨item.instanceId, (turnExecution item).1, id⟩ : ScheduledActivityIdentifier) ∈
        (turnRequest env item outcome).cancelledActivities := by
  rcases cancels_of_turnRequest requests member with inOutcome | cancelled
  swap
  · exact cancelled
  rw [turned.historyMgr] at inOutcome
  have recorded : event ∈ manager.delta ++ engine.historyDelta := Execution.mem_applyTurnResult requests inOutcome
  rcases List.mem_append.mp recorded with opening | inEngine
  · have plain := plain_opening turned.opens event opening
    obtain ⟨eventId, source, instanceId, executionId, timestamp, crate, kind⟩ := event
    cases kind <;> first | cases requests; done | cases plain
  · obtain ⟨version, handler, _, run⟩ := turned.ran
    rw [(Prod.mk.inj run).2] at inEngine
    obtain ⟨id, source, below, cancelled⟩ := ReplayEngine.cancelled_of_executeOrchestration (turned.sound history ran)
      (silent_preparedEngine env item manager) inEngine requests
    refine ⟨id, source, below, mem_cancelled_of_outcome ?_⟩
    rw [turned.cancelledActivities, (Prod.mk.inj run).2]
    exact List.mem_map.mpr ⟨id, cancelled, rfl⟩

/-- A turn runs activities that it schedules in the same commit. -/
theorem runs_of_turned (turned : Turned env item result engine outcome manager ending) :
    ∀ workItem ∈ (turnRequest env item outcome).workerItems, ∃ id name input sessionId tag,
      workItem = .activityExecute item.instanceId (turnExecution item).1 id name input sessionId tag ∧
        SchedulesActivity (turnRequest env item outcome).historyDelta id := by
  intro workItem member
  rcases runs_of_turnRequest turned with none | ⟨_, items⟩
  · rw [none] at member
    exact absurd member List.not_mem_nil
  rw [items] at member
  obtain ⟨action, pending, asked⟩ := List.mem_filterMap.mp member
  cases action with
  | callActivity id name input sessionId tag =>
    cases asked
    refine ⟨id, name, input, sessionId, tag, rfl, ?_⟩
    have recorded : Work.activity item.instanceId (turnExecution item).1 id name input sessionId tag ∈
        (turnRequest env item outcome).historyDelta.filterMap Work.ofEvent :=
      turned.work ▸ List.mem_filterMap.mpr ⟨_, pending, rfl⟩
    obtain ⟨event, inDelta, scheduled⟩ := List.mem_filterMap.mp recorded
    obtain ⟨eventId, source, instanceId, executionId, timestamp, crate, kind⟩ := event
    cases kind <;> cases scheduled
    exact ⟨_, inDelta, rfl, rfl⟩
  | _ => cases asked

/-- A turn runs activities only over a history that has not ended. -/
theorem unended_of_turned (turned : Turned env item result engine outcome manager ending)
    (runs : (turnRequest env item outcome).workerItems ≠ []) :
    (baseHistory item (turnExecution item).1).any (·.isTerminal) = false := by
  obtain ⟨workItem, member⟩ := List.exists_mem_of_ne_nil _ runs
  obtain ⟨id, name, input, sessionId, tag, rfl, event, inDelta, rfl, scheduled⟩ := runs_of_turned turned workItem member
  obtain ⟨work, asked⟩ : ∃ work, Work.ofEvent event = some work := by
    obtain ⟨eventId, source, instanceId, executionId, timestamp, crate, kind⟩ := event
    cases kind <;> first | exact ⟨_, rfl⟩ | cases scheduled
  have recorded : work ∈ engine.historyDelta.filterMap Work.ofEvent :=
    reads_work.turned turned ▸ List.mem_filterMap.mpr ⟨event, inDelta, asked⟩
  have evaluates : (preparedEngine env item manager).evaluates := by
    by_contra idle
    obtain ⟨version, handler, _, run⟩ := turned.ran
    have same : engine = preparedEngine env item manager :=
      (Prod.mk.inj run).2.trans (ReplayEngine.executeOrchestration_of_idle (Bool.eq_false_of_not_eq_true idle))
    rw [same] at recorded
    obtain ⟨staged, prepared, asks⟩ := List.mem_filterMap.mp recorded
    rw [Work.ofEvent_of_isMessage (messages_preparedEngine env item manager staged prepared)] at asks
    cases asks
  simp only [ReplayEngine.evaluates, Bool.and_eq_true, Bool.not_eq_true'] at evaluates
  have unended := evaluates.1.2
  rw [preparedEngine, Execution.prepareTurn_baselineHistory, HistoryManager.fullHistory, turned.history, List.any_append,
    List.any_append, Bool.or_eq_false_iff, Bool.or_eq_false_iff] at unended
  exact unended.1.1

/-- A turn runs no activity twice. -/
theorem distinct_of_turned (turned : Turned env item result engine outcome manager ending)
    (history : Ascending item.history) (ran : turnOutcome env item = some outcome) :
    ((turnRequest env item outcome).workerItems.map fun workItem => (Store.workerColumns workItem).1).Nodup := by
  obtain ⟨opening, body, rest, limit, trailing, events⟩ := requestEvents ran history
  have ordered : Ascending (turnRequest env item outcome).historyDelta := (List.pairwise_append.mp events.ascending).2.1
  rcases runs_of_turnRequest turned with none | ⟨_, items⟩
  · rw [none]
    exact List.nodup_nil
  have works : ((turnRequest env item outcome).historyDelta.filterMap Work.ofEvent).Pairwise
      fun first second => ∀ id, first.activityId = some id → second.activityId ≠ some id := by
    refine List.pairwise_filterMap.mpr (ordered.imp fun {first second} below => ?_)
    intro work recorded other later id own same
    have firstId := Work.eventId_of_activityId recorded own
    have secondId := Work.eventId_of_activityId later same
    omega
  rw [items, List.nodup_iff_pairwise_ne, List.pairwise_map, List.pairwise_filterMap]
  rw [turned.work, List.pairwise_filterMap] at works
  refine works.imp fun {first second} apart workItem asked other later same => ?_
  cases first <;> cases asked
  cases second <;> cases later
  exact apart _ rfl _ rfl _ rfl (congrArg (·.map (·.activityId)) same).symm

/-- A turn completes activities that messages of its batch report. -/
theorem completes_of_turned (turned : Turned env item result engine outcome manager ending) {id : Nat}
    (completes : CompletesActivity (turnRequest env item outcome).historyDelta id) :
    ∃ message ∈ item.messages, message.completion = some ((turnExecution item).1, "activity", id) := by
  have prepared : ("activity", id) ∈ completions (preparedEngine env item manager).historyDelta := by
    rw [← ReplayEngine.Recorded.completions turned.recorded, completions, ← reads_completion.turned turned]
    exact completes
  rcases ReplayEngine.completion_of_prepCompletions (staged_seeded env item manager) _ prepared with none | reported
  · exact absurd none List.not_mem_nil
  · obtain ⟨message, member, completion⟩ := reported
    exact ⟨message, mem_messages_of_completion member (completion ▸ rfl), completion⟩

/-- The items of a turn report no activity. -/
theorem reports_of_turned (turned : Turned env item result engine outcome manager ending) :
    ∀ workItem ∈ (turnRequest env item outcome).orchestratorItems, workItem.reportedActivity = none := by
  intro workItem member
  rcases within : limitError outcome.historyMgr.delta item.kvSnapshot with _ | message
  · rw [items_of_within within, turned.orchestratorItems] at member
    rcases List.mem_append.mp member with applied | cancelled
    · exact Execution.reportedActivity_of_applyTurnResult workItem applied
    · obtain ⟨child, _, rfl⟩ := List.mem_map.mp cancelled
      rfl
  · rw [items_of_exceeded (by rw [within]; nofun)] at member
    exact absurd member List.not_mem_nil

theorem accounts_of_turned (turned : Turned env item result engine outcome manager ending)
    (history : Ascending item.history) (ran : turnOutcome env item = some outcome) :
    Accounts item (turnRequest env item outcome) where
  runs := runs_of_turned turned
  distinct := distinct_of_turned turned history ran
  running := workerItems_of_ended turned history ran
  unended := unended_of_turned turned
  reports := reports_of_turned turned
  completes _ := completes_of_turned turned
  cancels id cancels := by
    obtain ⟨event, member, requests, source⟩ := cancels
    obtain ⟨other, refers, _, cancelled⟩ := cancels_of_turned turned history ran requests member
    cases source.symm.trans refers
    exact cancelled
  refers event member requests id source := by
    obtain ⟨other, refers, below, _⟩ := cancels_of_turned turned history ran requests member
    cases source.symm.trans refers
    exact below
  ended := ended_of_turnRequest

/-- A turn that runs nothing has nothing to say about activities. -/
theorem accounts_of_unexecuted (idle : turnExecuted env item = none) (ran : turnOutcome env item = some outcome) :
    Accounts item (turnRequest env item outcome) := by
  have same := outcome_of_unexecuted idle ran
  have nothing : outcome.historyMgr.delta = [] := by
    rw [same]
    exact turnExecution_delta item
  have workers : (turnRequest env item outcome).workerItems = [] := by
    change (enforceLimits env item (turnExecution item).1 outcome).1.workerItems = []
    unfold enforceLimits
    dsimp only
    split
    · rw [same]
    · rfl
  have others : (turnRequest env item outcome).orchestratorItems = [] := by
    change (enforceLimits env item (turnExecution item).1 outcome).1.orchestratorItems = []
    unfold enforceLimits
    dsimp only
    split
    · rw [same]
    · rfl
  have cancels : ∀ event ∈ (turnRequest env item outcome).historyDelta, (activityCancelReason event.kind).isSome →
      ∃ id, event.sourceEventId = some id ∧ id < event.eventId ∧
        (⟨item.instanceId, (turnExecution item).1, id⟩ : ScheduledActivityIdentifier) ∈
          (turnRequest env item outcome).cancelledActivities := by
    intro event member requests
    rcases cancels_of_turnRequest requests member with inOutcome | cancelled
    · rw [nothing] at inOutcome
      exact absurd inOutcome List.not_mem_nil
    · exact cancelled
  refine ⟨?_, ?_, fun _ => workers, fun runs => absurd workers runs, ?_, ?_, ?_, ?_, ended_of_turnRequest⟩
  · rw [workers]
    exact fun _ none => absurd none List.not_mem_nil
  · rw [workers]
    exact List.nodup_nil
  · rw [others]
    exact fun _ none => absurd none List.not_mem_nil
  · intro id completes
    rw [CompletesActivity, completions, reads_completion.turnRequest, nothing] at completes
    exact absurd completes List.not_mem_nil
  · rintro id ⟨event, member, requests, source⟩
    obtain ⟨other, refers, _, cancelled⟩ := cancels event member requests
    cases source.symm.trans refers
    exact cancelled
  · intro event member requests id source
    obtain ⟨other, refers, below, _⟩ := cancels event member requests
    cases source.symm.trans refers
    exact below

/-- A request that records only how an execution begins and ends. -/
theorem accounts_of_outer {request : AckRequest semver} (workers : request.workerItems = [])
    (reports : ∀ workItem ∈ request.orchestratorItems, workItem.reportedActivity = none)
    (outer : ∀ event ∈ request.historyDelta, event.kind.isInner = false)
    (ended : request.metadata.status.isSome → ∃ event ∈ request.historyDelta, event.kind.isTerminal) :
    Accounts item request := by
  have uncancelled : ∀ event ∈ request.historyDelta, activityCancelReason event.kind = none := by
    intro event member
    have plain := outer event member
    obtain ⟨eventId, source, instanceId, executionId, timestamp, crate, kind⟩ := event
    cases kind <;> first | rfl | cases plain
  refine ⟨?_, ?_, fun _ => workers, fun runs => absurd workers runs, reports, ?_, ?_, ?_, ended⟩
  · rw [workers]
    exact fun _ none => absurd none List.not_mem_nil
  · rw [workers]
    exact List.nodup_nil
  · intro id completes
    obtain ⟨event, member, completion⟩ := completesActivity_iff.mp completes
    rw [reads_completion.outer event (outer event member)] at completion
    cases completion
  · rintro id ⟨event, member, requests, _⟩
    rw [uncancelled event member] at requests
    cases requests
  · intro event member requests
    rw [uncancelled event member] at requests
    cases requests

/-- A turn that ends its execution leaves no activity open that it does not cancel. -/
theorem settles_turnRequest (env : RuntimeEnv semver) (item : OrchestrationItem) (ran : turnOutcome env item = some outcome)
    (history : Ascending item.history) : Settles item (turnRequest env item outcome) := by
  intro status id scheduled
  obtain ⟨opening, body, rest, limit, trailing, events⟩ := requestEvents ran history
  have full : (enforceLimits env item (turnExecution item).1 outcome).1.historyMgr.fullHistory =
      baseHistory item (turnExecution item).1 ++ (opening ++ (body ++ rest) ++ limit) := by
    rw [events.limited.extends.fullHistory, events.turn.extended.fullHistory, turnExecution_fullHistory,
      List.append_assoc]
  have delta : baseHistory item (turnExecution item).1 ++ (turnRequest env item outcome).historyDelta =
      (enforceLimits env item (turnExecution item).1 outcome).1.historyMgr.fullHistory ++ trailing := by
    rw [events.delta, full]
    simp only [List.append_assoc]
  change SchedulesActivity (baseHistory item (turnExecution item).1 ++ _) id at scheduled
  change CompletesActivity (baseHistory item (turnExecution item).1 ++ _) id ∨
    CancelsActivity (baseHistory item (turnExecution item).1 ++ _) id ∨ _
  rw [delta] at scheduled ⊢
  by_contra unsettled
  simp only [not_or] at unsettled
  obtain ⟨uncompleted, uncancelled, unlisted⟩ := unsettled
  refine unlisted (mem_cancelled_of_inflight status (List.mem_map.mpr ⟨id, List.mem_filter.mpr ⟨?_, ?_⟩, rfl⟩))
  · obtain ⟨event, member, rfl, kind⟩ := scheduled
    refine List.mem_dedup.mpr (List.mem_map.mpr ⟨event, List.mem_filter.mpr ⟨?_, kind⟩, rfl⟩)
    rcases List.mem_append.mp member with kept | crumb
    · exact kept
    · have trails := events.breadcrumbs event crumb
      obtain ⟨eventId, source, instanceId, executionId, timestamp, crate, eventKind⟩ := event
      dsimp only at kind trails
      cases eventKind <;> first | cases trails; done | cases kind
  · simp only [Bool.and_eq_true, decide_eq_true_eq]
    constructor
    · intro completed
      obtain ⟨event, member, source⟩ := List.mem_filterMap.mp completed
      refine uncompleted (completesActivity_iff.mpr ⟨event, List.mem_append_left _ member, ?_⟩)
      obtain ⟨eventId, sourceId, instanceId, executionId, timestamp, crate, kind⟩ := event
      cases kind <;> cases source <;> rfl
    · intro requested
      obtain ⟨event, member, source⟩ := List.mem_filterMap.mp requested
      refine uncancelled ⟨event, List.mem_append_left _ member, ?_⟩
      obtain ⟨eventId, sourceId, instanceId, executionId, timestamp, crate, kind⟩ := event
      cases kind <;> cases source
      exact ⟨rfl, rfl⟩

/-- A poison failure has nothing to say about activities. -/
theorem accounts_of_poison {attemptCount : Nat} (history : Ascending item.history) :
    Accounts item (failOrchestrationAsPoison env item attemptCount) := by
  have notified : ∀ {parentLink : Option (String × Nat)} {details : ErrorDetails},
      ∀ workItem ∈ Execution.notifyParent env.executionIds parentLink (.subOrchFailed · · · details),
        workItem.reportedActivity = none := by
    intro parentLink details workItem member
    obtain ⟨_, _, _, rfl⟩ := mem_notifyParent member
    rfl
  rcases error : item.historyError with _ | message
  · have events := (@failOrchestrationAsPoison_events semver env item attemptCount error history).1
    refine accounts_of_outer (by unfold failOrchestrationAsPoison; rw [error]) ?_ ?_ fun _ => ?_
    · rw [failOrchestrationAsPoison_items error]
      exact notified
    · intro event member
      generalize (failOrchestrationAsPoison env item attemptCount).historyDelta = delta at events member
      cases events with
      | recorded continues failed kind =>
        rw [List.mem_singleton.mp member, EventKind.isInner, kind]
        rfl
      | new empty started failed begins kind =>
        rcases List.mem_pair.mp member with rfl | rfl
        · rw [EventKind.isInner, begins.kind]
          rfl
        · rw [EventKind.isInner, kind]
          rfl
    · generalize (failOrchestrationAsPoison env item attemptCount).historyDelta = delta at events
      cases events with
      | recorded continues failed kind => exact ⟨failed, List.mem_singleton_self _, by rw [kind]; rfl⟩
      | new empty started failed begins kind =>
        exact ⟨failed, List.mem_cons_of_mem _ (List.mem_singleton_self _), by rw [kind]; rfl⟩
  · unfold failOrchestrationAsPoison
    rw [error]
    refine accounts_of_outer rfl (fun _ none => absurd none List.not_mem_nil) ?_ fun _ =>
      ⟨_, List.mem_singleton_self _, rfl⟩
    exact fun event member => List.mem_singleton.mp member ▸ rfl

end Dispatcher

/-- What is asked for accounts for its activities. -/
theorem Asks.Source.accounts {conditions : Conditions semver} {item : OrchestrationItem} {attemptCount : Nat}
    {request : AckRequest semver} (source : Asks.Source conditions item attemptCount request)
    (history : Ascending item.history) : Accounts item request := by
  cases source with
  | answer env allowed supported _ fallback answered =>
    cases answered with
    | corrupted | poisoned => exact accounts_of_poison history
    | ended =>
      exact accounts_of_outer rfl (fun _ none => absurd none List.not_mem_nil)
        (fun _ none => absurd none List.not_mem_nil) nofun
    | turned inTime readable running outcome ran =>
      rcases executed : turnExecuted env item with _ | ⟨result, engine⟩
      · exact accounts_of_unexecuted executed ran
      · obtain ⟨manager, ending, turned⟩ := turned_of_executed executed ran
        exact accounts_of_turned turned history ran
  | failure env allowed supported turned _ outcome ran running error =>
    obtain ⟨failed, kind, delta, _⟩ := @failureCommit_events semver env item (turnExecution item).1 error history
    refine accounts_of_outer rfl (fun _ none => absurd none List.not_mem_nil) ?_ fun _ => ⟨failed, ?_, ?_⟩
    · rw [delta]
      intro event member
      rw [List.mem_singleton.mp member, EventKind.isInner, kind]
      rfl
    · rw [delta]
      exact List.mem_singleton_self _
    · rw [kind]
      rfl

/-- A request that fails an execution without a turn of its own: as poison, or after an acknowledgement failed. -/
def FailsOutright (item : OrchestrationItem) (request : AckRequest semver) : Prop :=
  (∃ env attemptCount, request = failOrchestrationAsPoison env item attemptCount) ∨
    ∃ env executionId error, request = failureCommit env item executionId error

/-- What is asked for otherwise settles the activities of an execution that it ends. -/
theorem Asks.Source.settles {conditions : Conditions semver} {item : OrchestrationItem} {attemptCount : Nat}
    {request : AckRequest semver} (source : Asks.Source conditions item attemptCount request)
    (history : Ascending item.history) :
    FailsOutright item request ∨ item.historyError = none ∧ Settles item request := by
  cases source with
  | answer env allowed supported _ fallback answered =>
    cases answered with
    | corrupted | poisoned => exact .inl (.inl ⟨env, attemptCount, rfl⟩)
    | ended inTime readable => exact .inr ⟨readable, nofun⟩
    | turned inTime readable running outcome ran => exact .inr ⟨readable, settles_turnRequest env item ran history⟩
  | failure env allowed supported turned _ outcome ran running error => exact .inl (.inr ⟨env, _, error, rfl⟩)

end Duroxide
