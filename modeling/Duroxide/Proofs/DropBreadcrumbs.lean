import Duroxide.Proofs.ActionReadings
import Duroxide.Proofs.Determinism
import Duroxide.Proofs.DropRecords

/-! # Breadcrumbs over runs of turns

While an execution runs, its breadcrumbs are those of the futures that its program has dropped, one for each
schedule, and a turn cancels the activities and children that it leaves breadcrumbs for. At the end of an execution
what is outstanding gets breadcrumbs of its own.
-/

namespace Duroxide

/-- Breadcrumbs that are left at the end of an execution: for schedules of their kind that have none yet. -/
def Closes (history events : List Event) : Prop :=
  ∀ event ∈ events, event.kind.isBreadcrumb → ∃ droppable reason id, event.kind = Droppable.breadcrumb droppable reason ∧
    reason ≠ ReplayEngine.droppedFuture ∧ event.sourceEventId = some id ∧
    (∃ schedule ∈ history, schedule.eventId = id ∧ droppable.isSchedule schedule.kind) ∧
    ∀ crumb ∈ history, (droppable.reasonOf crumb.kind).isSome → crumb.sourceEventId ≠ some id

namespace Closes

variable {history events other : List Event}

theorem of_silent (silent : ∀ event ∈ events, event.kind.isBreadcrumb = false) : Closes history events := by
  intro event member crumb
  rw [silent event member] at crumb
  cases crumb

theorem append (first : Closes history events) (second : Closes history other) : Closes history (events ++ other) :=
  fun event member => (List.mem_append.mp member).elim (first event) (second event)

/-- Nothing that closes an execution is for a dropped future. -/
theorem droppedSources (closes : Closes history events) (droppable : Droppable) : droppedSources droppable events = [] := by
  refine List.filterMap_eq_nil_iff.mpr fun event member => ?_
  split_ifs with dropped
  · have kind := Droppable.eq_breadcrumb dropped
    obtain ⟨other, reason, _, kind', different, _⟩ :=
      closes event member (kind ▸ droppable.isBreadcrumb_breadcrumb _)
    rw [kind', Droppable.reasonOf_breadcrumb] at dropped
    split_ifs at dropped
    exact absurd (Option.some.inj dropped) different
  · rfl

/-- Where nothing is scheduled, nothing is closed. -/
theorem silent (closes : Closes history events) (unscheduled : ∀ event ∈ history, event.kind.isSchedule = false) :
    ∀ event ∈ events, event.kind.isBreadcrumb = false := by
  intro event member
  apply Bool.eq_false_of_not_eq_true
  intro crumb
  obtain ⟨_, _, _, _, _, _, ⟨schedule, scheduled, _, schedules⟩, _⟩ := closes event member crumb
  have none := unscheduled schedule scheduled
  rw [Droppable.eventKind_isSchedule schedules] at none
  cases none

/-- Breadcrumbs of one kind, for schedules that have none. -/
theorem of_sources {droppable : Droppable} {reason : String} (different : reason ≠ ReplayEngine.droppedFuture)
    {ids : List Nat} (kinds : ∀ event ∈ events, event.kind = droppable.breadcrumb reason)
    (sources : events.map (·.sourceEventId) = ids.map some)
    (outstanding : ∀ id ∈ ids, (∃ schedule ∈ history, schedule.eventId = id ∧ droppable.isSchedule schedule.kind) ∧
      ∀ crumb ∈ history, (droppable.reasonOf crumb.kind).isSome → crumb.sourceEventId ≠ some id) :
    Closes history events := by
  intro event member _
  have listed : event.sourceEventId ∈ events.map (·.sourceEventId) := List.mem_map_of_mem member
  rw [sources] at listed
  obtain ⟨id, isOutstanding, source⟩ := List.mem_map.mp listed
  exact ⟨droppable, reason, id, kinds event member, different, source.symm, outstanding id isOutstanding⟩

/-- A breadcrumb for a schedule that was there before stays the only one. -/
theorem apart (closes : Closes history events) {whole : List Event} (ascending : Ascending whole)
    (inside : ∀ event ∈ history, event ∈ whole) {old : Event} (member : old ∈ history) {droppable : Droppable}
    {reason : String} (kind : old.kind = droppable.breadcrumb reason) {id : Nat} (source : old.sourceEventId = some id)
    (scheduled : ∃ schedule ∈ whole, schedule.eventId = id ∧ droppable.isSchedule schedule.kind) :
    ∀ new ∈ events, new.kind.isBreadcrumb → new.sourceEventId ≠ some id := by
  intro new newMember crumb same
  obtain ⟨other, _, id', _, _, source', ⟨schedule', member', eventId', schedules'⟩, unmarked⟩ :=
    closes new newMember crumb
  obtain rfl : id' = id := Option.some.inj (source'.symm.trans same)
  obtain ⟨schedule, member'', eventId, schedules⟩ := scheduled
  obtain rfl := ReplayEngine.eq_of_eventId ascending member'' (inside schedule' member') (eventId.trans eventId'.symm)
  obtain rfl := Droppable.eq_of_isSchedule schedules schedules'
  refine unmarked old member ?_ source
  rw [kind, Droppable.reasonOf_breadcrumb, if_pos rfl]
  rfl

end Closes

/-! ## The end of a turn -/

namespace HistoryManager

/-- A source that a test lists is that of an event. -/
theorem not_mem_sourcesOf {events : List Event} {test : EventKind → Bool} {id : Nat} (unlisted : id ∉ sourcesOf events test)
    {event : Event} (member : event ∈ events) (passes : test event.kind) : event.sourceEventId ≠ some id := by
  intro source
  refine unlisted (List.mem_filterMap.mpr ⟨event, member, ?_⟩)
  rw [if_pos passes, source]

end HistoryManager

namespace Execution

open HistoryManager

variable {stamp : Stamp} {instanceId orchestrationName : String} {executionId : Nat} {manager : HistoryManager}

/-- The breadcrumbs for a list of schedules. -/
theorem emitBreadcrumbs_sources (manager : HistoryManager) (kind : EventKind) (ids : List Nat) :
    ∃ breadcrumbs, Extends manager (emitBreadcrumbs stamp instanceId executionId kind manager ids) breadcrumbs ∧
      (∀ event ∈ breadcrumbs, event.kind = kind) ∧ breadcrumbs.map (·.sourceEventId) = ids.map some := by
  unfold emitBreadcrumbs
  induction ids generalizing manager with
  | nil => exact ⟨[], .refl manager, fun _ none => absurd none List.not_mem_nil, rfl⟩
  | cons id rest ih =>
    obtain ⟨breadcrumbs, extended, kinds, sources⟩ := ih (manager.append
      (Event.withEventId stamp manager.nextEventId instanceId executionId (some id) kind))
    refine ⟨_, (extends_append rfl).trans extended, fun event member => ?_, ?_⟩
    · rcases List.mem_cons.mp member with rfl | later
      · rfl
      · exact kinds event later
    · rw [List.singleton_append, List.map_cons, sources]
      rfl

/-- A subscription that is outstanding is in the history and was not cancelled. -/
theorem outstanding_positional {history : List Event} {id : Nat}
    (outstanding : id ∈ (getOutstandingScheduleIds history).positionalSubscriptions) :
    (∃ schedule ∈ history, schedule.eventId = id ∧ Droppable.externalWait.isSchedule schedule.kind) ∧
      ∀ crumb ∈ history, (Droppable.externalWait.reasonOf crumb.kind).isSome → crumb.sourceEventId ≠ some id := by
  obtain ⟨event, member, found⟩ := List.mem_filterMap.mp outstanding
  split at found
  · rename_i name kind
    split_ifs at found with unresolved
    cases found
    simp only [Bool.and_eq_true, decide_eq_true_eq] at unresolved
    refine ⟨⟨event, member, rfl, by rw [kind]; rfl⟩, fun crumb present cancels => ?_⟩
    apply not_mem_sourcesOf unresolved.2 present
    obtain ⟨reason, cancelled⟩ := Option.isSome_iff_exists.mp cancels
    rw [Droppable.eq_breadcrumb cancelled]
    rfl
  · cases found

theorem outstanding_queue {history : List Event} {id : Nat}
    (outstanding : id ∈ (getOutstandingScheduleIds history).queueSubscriptions) :
    (∃ schedule ∈ history, schedule.eventId = id ∧ Droppable.queueDequeue.isSchedule schedule.kind) ∧
      ∀ crumb ∈ history, (Droppable.queueDequeue.reasonOf crumb.kind).isSome → crumb.sourceEventId ≠ some id := by
  obtain ⟨subscribed, unresolved⟩ := List.mem_filter.mp outstanding
  simp only [Bool.and_eq_true, decide_eq_true_eq] at unresolved
  obtain ⟨subscription, found, rfl⟩ := List.mem_map.mp subscribed
  obtain ⟨⟨eventId, source, owner, execution, timestamp, crate, kind⟩, member, subscribes⟩ := List.mem_filterMap.mp found
  constructor
  · refine ⟨_, member, ?_⟩
    cases kind <;> cases subscribes
    exact ⟨rfl, rfl⟩
  · intro crumb present cancels source'
    refine unresolved.2 (List.mem_filterMap.mpr ⟨crumb, present, ?_⟩)
    obtain ⟨reason, cancelled⟩ := Option.isSome_iff_exists.mp cancels
    obtain ⟨crumbId, crumbSource, crumbOwner, crumbExecution, crumbTime, crumbCrate, crumbKind⟩ := crumb
    obtain rfl : crumbKind = .queueSubscriptionCancelled reason := Droppable.eq_breadcrumb cancelled
    exact source'

/-- What ends an execution closes it. -/
theorem ended_closes (manager : HistoryManager) (kind : EventKind) (terminal : kind.isTerminal) (owner : String)
    (execution : Nat) :
    ∃ ending, Extends manager ((emitTerminalCancellationBreadcrumbs stamp manager instanceId executionId
        (getOutstandingScheduleIds manager.fullHistory)).append (Event.withEventId stamp
          (emitTerminalCancellationBreadcrumbs stamp manager instanceId executionId
            (getOutstandingScheduleIds manager.fullHistory)).nextEventId owner execution none kind)) ending ∧
      Closes manager.fullHistory ending ∧ ∀ event ∈ ending, ReplayEngine.activityCancelReason event.kind = none := by
  have different : orchestrationTerminal ≠ ReplayEngine.droppedFuture := by decide
  obtain ⟨first, firstExtends, firstKinds, firstSources⟩ := @emitBreadcrumbs_sources stamp instanceId executionId manager
    (.externalSubscribedCancelled orchestrationTerminal)
    (getOutstandingScheduleIds manager.fullHistory).positionalSubscriptions
  obtain ⟨second, secondExtends, secondKinds, secondSources⟩ := @emitBreadcrumbs_sources stamp instanceId executionId
    (emitBreadcrumbs stamp instanceId executionId (.externalSubscribedCancelled orchestrationTerminal) manager
      (getOutstandingScheduleIds manager.fullHistory).positionalSubscriptions)
    (.queueSubscriptionCancelled orchestrationTerminal)
    (getOutstandingScheduleIds manager.fullHistory).queueSubscriptions
  refine ⟨_, (firstExtends.trans secondExtends).trans (extends_append rfl), Closes.append (Closes.append ?_ ?_) ?_, ?_⟩
  · exact @Closes.of_sources _ _ .externalWait _ different _ firstKinds firstSources fun id => outstanding_positional
  · exact @Closes.of_sources _ _ .queueDequeue _ different _ secondKinds secondSources fun id => outstanding_queue
  · apply Closes.of_silent
    intro event member
    rw [List.mem_singleton.mp member]
    cases kind <;> first | rfl | cases terminal
  · intro event member
    simp only [List.mem_append, List.mem_singleton] at member
    rcases member with (positional | persistent) | rfl
    · rw [firstKinds event positional]
      rfl
    · rw [secondKinds event persistent]
      rfl
    · cases kind <;> first | rfl | cases terminal

theorem applyTurnResult_closes (executionIds : ExecutionIds) (manager : HistoryManager)
    (parentLink : Option (String × Nat)) (pendingActions : List Action) (result : TurnResult) :
    ∃ ending, Extends manager (applyTurnResult stamp executionIds instanceId orchestrationName executionId manager
      parentLink pendingActions result).historyMgr ending ∧ Closes manager.fullHistory ending ∧
        ∀ event ∈ ending, ReplayEngine.activityCancelReason event.kind = none := by
  cases result with
  | «continue» =>
    exact ⟨[], .refl manager, fun _ none => absurd none List.not_mem_nil, fun _ none => absurd none List.not_mem_nil⟩
  | completed output => exact ended_closes manager _ rfl _ _
  | failed details => exact ended_closes manager _ rfl _ _
  | continueAsNew input version => exact ended_closes manager _ rfl _ _
  | cancelled reason => exact ended_closes manager _ rfl _ _

end Execution

namespace ReplayEngine

variable {engine last : ReplayEngine} {handler : OrchestrationHandler}
  {input orchestrationName orchestrationVersion : String} {result : TurnResult}

/-- Preparing a batch neither moves the persisted boundary nor cancels anything. -/
theorem prepCompletion_frame (engine : ReplayEngine) (message : WorkItem) :
    (engine.prepCompletion message).persistedHistoryLen = engine.persistedHistoryLen ∧
      (engine.prepCompletion message).cancelledActivityIds = engine.cancelledActivityIds ∧
      (engine.prepCompletion message).cancelledSubOrchestrationIds = engine.cancelledSubOrchestrationIds := by
  have aborts : (engine.abortOnSystemError message).persistedHistoryLen = engine.persistedHistoryLen ∧
      (engine.abortOnSystemError message).cancelledActivityIds = engine.cancelledActivityIds ∧
      (engine.abortOnSystemError message).cancelledSubOrchestrationIds = engine.cancelledSubOrchestrationIds := by
    unfold abortOnSystemError
    split
    · split_ifs <;> exact ⟨rfl, rfl, rfl⟩
    · split_ifs <;> exact ⟨rfl, rfl, rfl⟩
    · exact ⟨rfl, rfl, rfl⟩
  unfold prepCompletion
  split_ifs
  · exact ⟨rfl, rfl, rfl⟩
  · exact ⟨rfl, rfl, rfl⟩
  · exact ⟨rfl, rfl, rfl⟩
  · split
    · exact ⟨rfl, rfl, rfl⟩
    · dsimp only
      split
      · exact aborts
      · exact aborts

theorem prepCompletions_frame (engine : ReplayEngine) (messages : List WorkItem) :
    (engine.prepCompletions messages).persistedHistoryLen = engine.persistedHistoryLen ∧
      (engine.prepCompletions messages).cancelledActivityIds = engine.cancelledActivityIds ∧
      (engine.prepCompletions messages).cancelledSubOrchestrationIds = engine.cancelledSubOrchestrationIds := by
  unfold prepCompletions
  induction messages generalizing engine with
  | nil => exact ⟨rfl, rfl, rfl⟩
  | cons message rest ih =>
    obtain ⟨boundary, activities, children⟩ := prepCompletion_frame engine message
    obtain ⟨boundary', activities', children'⟩ := ih (engine.prepCompletion message)
    exact ⟨boundary'.trans boundary, activities'.trans activities, children'.trans children⟩

/-- The results of a program that goes on or has returned a value. -/
def Concluded (result : TurnResult) : Prop := result = .continue ∨ ∃ output, result = .completed output

theorem not_concluded_of_failed {details : ErrorDetails} : ¬ Concluded (.failed details) := by
  rintro (failed | ⟨output, failed⟩) <;> cases failed

/-- A turn that evaluates its program to a value, or to a wait, has emitted no continuation as new, and has reconciled
the futures that it dropped. -/
theorem reconciled_of_concluded (evaluates : engine.evaluates)
    (executed : engine.executeOrchestration handler input orchestrationName orchestrationVersion = (result, last))
    (concluded : Concluded result) :
    ∃ (replay : Replay handler.State) (after : ReplayEngine),
      engine.evaluate handler input orchestrationName orchestrationVersion = (.ok replay, after) ∧
      result = outputResult replay.output ∧ after.pendingActions.findSome? continueAsNewOf = none ∧
      ∃ recorded events, Reconciled after replay.ctx last recorded events := by
  have concludes := executeOrchestration_concludes engine handler input orchestrationName orchestrationVersion
  rw [executed] at concludes
  cases concludes with
  | idle _ unevaluated =>
    rw [evaluates] at unevaluated
    cases unevaluated
  | failed _ _ _ evaluated =>
    obtain ⟨details, rfl⟩ : ∃ details, result = .failed details := onlyFails_evaluate result (by rw [evaluated])
    exact absurd concluded not_concluded_of_failed
  | cancelled => rcases concluded with cancelled | ⟨output, cancelled⟩ <;> cases cancelled
  | continuesAsNew _ replay after _ evaluated unrequested emitted =>
    obtain ⟨action, _, found⟩ := List.exists_of_findSome?_eq_some emitted
    rcases concluded with rfl | ⟨output, rfl⟩ <;> cases action <;> cases found
  | mismatched _ replay after _ evaluated unrequested unemitted mismatch =>
    obtain ⟨message, rfl⟩ := CarryForward.collectCancelled_error mismatch
    exact absurd concluded not_concluded_of_failed
  | collected replay after _ ctx _ evaluated unrequested unemitted reconciled =>
    exact ⟨replay, after, evaluated, rfl, unemitted, reconciled_of_ok reconciled⟩

/-- Such a turn has accounted for them. -/
theorem accounted_of_concluded (unmarked : Unmarked engine) (evaluates : engine.evaluates)
    (executed : engine.executeOrchestration handler input orchestrationName orchestrationVersion = (result, last))
    (concluded : Concluded result) :
    ∃ ctx, engine.evaluatedCtx handler input orchestrationName orchestrationVersion = some ctx ∧
      Accounted ctx (last.baselineHistory ++ last.historyDelta) last := by
  have recorded : Recorded engine (engine.executeOrchestration handler input orchestrationName orchestrationVersion).2 :=
    executeOrchestration_recorded handler input orchestrationName orchestrationVersion
  have sound := unmarked.sound.recorded recorded
  rw [executed] at sound
  obtain ⟨replay, after, evaluated, _, _, recorded, events, reconciled⟩ := reconciled_of_concluded evaluates executed concluded
  refine ⟨replay.ctx, ?_, accounted_of_reconciled unmarked evaluated sound.numbered.ascending reconciled⟩
  rw [evaluatedCtx, if_pos evaluates, evaluated]

end ReplayEngine

namespace Dispatcher

open HistoryManager ReplayEngine

variable {semver : Semver} {env : RuntimeEnv semver} {item : OrchestrationItem} {outcome : ExecutionOutcome}
  {result : TurnResult} {engine : ReplayEngine} {manager : HistoryManager} {ending : List Event}

/-- What is in flight is scheduled and nobody has asked to cancel it. -/
theorem inflight_outstanding {instanceId : String} {executionId id : Nat}
    (inflight : id ∈ (manager.computeInflightActivities instanceId executionId).map (·.activityId)) :
    (∃ schedule ∈ manager.fullHistory, schedule.eventId = id ∧ Droppable.activity.isSchedule schedule.kind) ∧
      ∀ crumb ∈ manager.fullHistory, (Droppable.activity.reasonOf crumb.kind).isSome → crumb.sourceEventId ≠ some id := by
  unfold computeInflightActivities at inflight
  dsimp only at inflight
  rw [List.map_map, Function.comp_def, List.map_id', List.mem_filter, List.mem_dedup, List.mem_map] at inflight
  obtain ⟨⟨event, scheduled, same⟩, unresolved⟩ := inflight
  obtain ⟨member, schedules⟩ := List.mem_filter.mp scheduled
  simp only [Bool.and_eq_true, decide_eq_true_eq] at unresolved
  constructor
  · refine ⟨event, member, same, ?_⟩
    cases kind : event.kind <;> rw [kind] at schedules <;> first | rfl | cases schedules
  · intro crumb present cancels
    apply not_mem_sourcesOf unresolved.2 present
    obtain ⟨reason, cancelled⟩ := Option.isSome_iff_exists.mp cancels
    rw [Droppable.eq_breadcrumb cancelled]
    rfl

/-- What is in flight is of the execution. -/
theorem mem_inflight {instanceId : String} {executionId : Nat} {cancelled : ScheduledActivityIdentifier} :
    cancelled ∈ manager.computeInflightActivities instanceId executionId ↔
      ∃ id ∈ (manager.computeInflightActivities instanceId executionId).map (·.activityId),
        cancelled = ⟨instanceId, executionId, id⟩ := by
  constructor
  · intro inflight
    refine ⟨_, List.mem_map_of_mem inflight, ?_⟩
    obtain ⟨id, _, rfl⟩ := List.mem_map.mp inflight
    rfl
  · rintro ⟨id, listed, rfl⟩
    obtain ⟨other, inflight, rfl⟩ := List.mem_map.mp listed
    have own := inflight
    obtain ⟨id, _, rfl⟩ := List.mem_map.mp own
    exact inflight

/-- What is cancelled at the end of an execution gets a breadcrumb, and nothing else does. -/
theorem cancelInflight_closes (stamp : Stamp) (instanceId : String) (executionId : Nat) (outcome : ExecutionOutcome)
    (status : Option ExecutionStatus) :
    ∃ trailing, Extends outcome.historyMgr (cancelInflight stamp instanceId executionId outcome status).1 trailing ∧
      Closes outcome.historyMgr.fullHistory trailing ∧
      (∀ event ∈ trailing, (activityCancelReason event.kind).isSome) ∧
      ∀ cancelled, cancelled ∈ (cancelInflight stamp instanceId executionId outcome status).2 ↔
        cancelled ∈ outcome.cancelledActivities ∨ ∃ event ∈ trailing, ∃ id, event.sourceEventId = some id ∧
          cancelled = ⟨instanceId, executionId, id⟩ := by
  cases status with
  | none =>
    exact ⟨[], .refl _, fun _ none => absurd none List.not_mem_nil, fun _ none => absurd none List.not_mem_nil,
      fun cancelled => by simp [cancelInflight]⟩
  | some status =>
    have different : terminalReason status ≠ droppedFuture := by cases status <;> decide
    obtain ⟨trailing, extended, kinds, sources⟩ := @Execution.emitBreadcrumbs_sources stamp instanceId executionId
      outcome.historyMgr (.activityCancelRequested (terminalReason status))
      ((outcome.historyMgr.computeInflightActivities instanceId executionId).map (·.activityId))
    refine ⟨trailing, extended, @Closes.of_sources _ _ .activity _ different _ kinds sources fun id =>
      inflight_outstanding, fun event member => by rw [kinds event member]; rfl, fun cancelled => ?_⟩
    have listed : ∀ id, (∃ event ∈ trailing, event.sourceEventId = some id) ↔
        id ∈ (outcome.historyMgr.computeInflightActivities instanceId executionId).map (·.activityId) := by
      intro id
      rw [← List.mem_map, sources]
      exact List.mem_map_of_injective (Option.some_injective _)
    change cancelled ∈ outcome.cancelledActivities ++ outcome.historyMgr.computeInflightActivities instanceId executionId ↔ _
    rw [List.mem_append, mem_inflight]
    refine or_congr_right ⟨?_, ?_⟩
    · rintro ⟨id, inflight, rfl⟩
      obtain ⟨event, member, source⟩ := (listed id).mpr inflight
      exact ⟨event, member, id, source, rfl⟩
    · rintro ⟨event, member, id, source, rfl⟩
      exact ⟨id, (listed id).mp ⟨event, member, source⟩, rfl⟩

theorem nodup_eraseDups {Value : Type} [BEq Value] [LawfulBEq Value] (values : List Value) : values.eraseDups.Nodup := by
  induction bound : values.length using Nat.strong_induction_on generalizing values with
  | _ size ih =>
    cases values with
    | nil => exact List.nodup_nil
    | cons value rest =>
      rw [List.eraseDups_cons, List.nodup_cons]
      have shorter : (rest.filter fun other => !other == value).length < size := by
        have filtered := List.length_filter_le (fun other => !other == value) rest
        rw [List.length_cons] at bound
        omega
      refine ⟨fun again => ?_, ih _ shorter _ rfl⟩
      rw [List.mem_eraseDups, List.mem_filter] at again
      simp at again

/-- Behind the events of its outcome a turn appends a failure, if it exceeds a limit, and breadcrumbs for what it
cancels. -/
theorem turnRequest_closes (env : RuntimeEnv semver) (item : OrchestrationItem) (outcome : ExecutionOutcome) :
    ∃ limit trailing, (turnRequest env item outcome).historyDelta = outcome.historyMgr.delta ++ limit ++ trailing ∧
      (limitError outcome.historyMgr.delta item.kvSnapshot = none → limit = []) ∧
      (∀ event ∈ limit, event.kind.isTerminal) ∧
      Closes (outcome.historyMgr.fullHistory ++ limit) trailing ∧
      (∀ event ∈ trailing, (activityCancelReason event.kind).isSome) ∧
      (∀ cancelled, cancelled ∈ (turnRequest env item outcome).cancelledActivities ↔
        cancelled ∈ outcome.cancelledActivities ∨ ∃ event ∈ trailing, ∃ id, event.sourceEventId = some id ∧
          cancelled = ⟨item.instanceId, (turnExecution item).1, id⟩) ∧
      (turnRequest env item outcome).cancelledActivities.Nodup := by
  obtain ⟨limit, limited⟩ := enforceLimits_limited env item (turnExecution item).1 outcome
  obtain ⟨trailing, cancelled, closes, kinds, listed⟩ := cancelInflight_closes env.stamp item.instanceId
    (turnExecution item).1 (enforceLimits env item (turnExecution item).1 outcome).1
    (enforceLimits env item (turnExecution item).1 outcome).2.status
  have extended := limited.extends
  have full := extended.fullHistory
  refine ⟨limit, trailing, (extended.trans cancelled).delta.trans (List.append_assoc _ _ _).symm, ?_, limited.terminal,
    full ▸ closes, kinds, ?_, nodup_eraseDups _⟩
  · intro within
    generalize enforceLimits env item (turnExecution item).1 outcome = enforced at limited
    cases limited with
    | within => rfl
    | exceeded message some => exact nomatch within.symm.trans some
  · intro cancelled
    have same : (enforceLimits env item (turnExecution item).1 outcome).1.cancelledActivities =
        outcome.cancelledActivities := by
      generalize enforceLimits env item (turnExecution item).1 outcome = enforced at limited
      cases limited <;> rfl
    rw [← same, ← listed]
    exact List.mem_eraseDups

end Dispatcher

end Duroxide
