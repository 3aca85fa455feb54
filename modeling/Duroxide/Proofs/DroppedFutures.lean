import Duroxide.Proofs.Evaluation
import Duroxide.Proofs.Turns

/-! # Dropped futures

A turn that gets as far as its result leaves a breadcrumb for each schedule whose future the program dropped,
unless there is one already, and cancels what it left breadcrumbs for. Whatever it cancels was bound before,
so it is numbered below its breadcrumb.
-/

namespace Duroxide

namespace CtxInner

/-- Two contexts that agree on what the engine has told them. -/
structure SameBindings (before after : CtxInner) : Prop where
  tokens : after.tokenBindings = before.tokenBindings
  schedules : after.scheduleBindings = before.scheduleBindings
  results : after.completionResults = before.completionResults
  children : after.subOrchestrationInstances = before.subOrchestrationInstances

namespace SameBindings

variable {before middle after ctx : CtxInner}

theorem refl (ctx : CtxInner) : SameBindings ctx ctx := ⟨rfl, rfl, rfl, rfl⟩

theorem trans (first : SameBindings before middle) (second : SameBindings middle after) : SameBindings before after :=
  ⟨second.tokens.trans first.tokens, second.schedules.trans first.schedules, second.results.trans first.results,
    second.children.trans first.children⟩

/-- Context calls bind nothing. -/
theorem perform {request : CtxCall} {reply : request.Reply} (performed : ctx.perform request = .ok (reply, after)) :
    SameBindings ctx after := by
  obtain ⟨_, _, _, _, _, _, _, _, _, rfl, _⟩ := perform_frame performed
  exact ⟨rfl, rfl, rfl, rfl⟩

theorem markDroppedQueueWaits (ctx : CtxInner) : SameBindings ctx (ReplayEngine.markDroppedQueueWaits ctx) := by
  obtain ⟨queue, marked⟩ := markDroppedQueueWaits_frame ctx
  rw [marked]
  exact ⟨rfl, rfl, rfl, rfl⟩

end SameBindings

theorem observe_tokenBindings (ctx : CtxInner) (event : Event) : (ctx.observe event).tokenBindings = ctx.tokenBindings := by
  obtain ⟨results, external, queue, status, same⟩ := observe_frame ctx event
  rw [same]

theorem bindSchedule_tokenBindings (ctx : CtxInner) (token : Nat) (event : Event) :
    (ctx.bindSchedule token event).tokenBindings = Function.update ctx.tokenBindings token (some event.eventId) := by
  obtain ⟨external, queue, children, same⟩ := bindSchedule_frame ctx token event
  rw [same]
  rfl

end CtxInner

namespace ReplayEngine

variable {engine : ReplayEngine} {ctx : CtxInner}

theorem convertEmittedAction_tokenBindings (engine : ReplayEngine) (ctx : CtxInner) (emitted : Nat × Action) :
    (engine.convertEmittedAction ctx emitted).2.tokenBindings =
      Function.update ctx.tokenBindings emitted.1 (some engine.nextEventId) := by
  unfold convertEmittedAction
  dsimp only
  split <;> rfl

/-- What the conversion of actions leaves of an engine. -/
structure Converted (before after : ReplayEngine) : Prop where
  baseline : after.baselineHistory = before.baselineHistory
  persisted : after.persistedHistoryLen = before.persistedHistoryLen
  activities : after.cancelledActivityIds = before.cancelledActivityIds
  children : after.cancelledSubOrchestrationIds = before.cancelledSubOrchestrationIds
  next : before.nextEventId ≤ after.nextEventId
  delta : ∃ events, after.historyDelta = before.historyDelta ++ events ∧
    ∀ event ∈ events, event.kind.isBreadcrumb = false ∧ event.kind.isMessage = false

theorem Converted.refl (engine : ReplayEngine) : Converted engine engine :=
  ⟨rfl, rfl, rfl, rfl, Nat.le_refl _, [], (List.append_nil _).symm, fun _ none => absurd none List.not_mem_nil⟩

theorem Converted.trans {before middle after : ReplayEngine} (first : Converted before middle)
    (second : Converted middle after) : Converted before after := by
  obtain ⟨earlier, before', kinds⟩ := first.delta
  obtain ⟨later, middle', laterKinds⟩ := second.delta
  refine ⟨second.baseline.trans first.baseline, second.persisted.trans first.persisted,
    second.activities.trans first.activities, second.children.trans first.children, first.next.trans second.next,
    earlier ++ later, by rw [middle', before', List.append_assoc], fun event member => ?_⟩
  rcases List.mem_append.mp member with old | new
  · exact kinds event old
  · exact laterKinds event new

theorem actionToEvent_kind {stamp : Stamp} {action : Action} {instanceId : String} {executionId eventId : Nat}
    {event : Event} (recorded : actionToEvent stamp action instanceId executionId eventId = some event) :
    event.kind.isBreadcrumb = false ∧ event.kind.isMessage = false := by
  cases action <;> cases recorded <;> exact ⟨rfl, rfl⟩

theorem convertEmittedAction_converted (engine : ReplayEngine) (ctx : CtxInner) (emitted : Nat × Action) :
    Converted engine (engine.convertEmittedAction ctx emitted).1 :=
  ⟨rfl, rfl, rfl, rfl, Nat.le_succ _, _, rfl, fun _ member => actionToEvent_kind (Option.mem_toList.mp member)⟩

end ReplayEngine

namespace Evaluation

/-- Everything that is bound or still to be applied is numbered below the next event. -/
structure Below (evaluation : Evaluation) : Prop where
  bound : ∀ token id, evaluation.ctx.tokenBindings token = some id → id < evaluation.engine.nextEventId
  unread : ∀ event ∈ evaluation.unread, event.eventId < evaluation.engine.nextEventId

theorem Below.bind {engine : ReplayEngine} {unread : List Event} {waiting : List (Nat × Action)} {ctx : CtxInner}
    (below : Below ⟨engine, unread, waiting, ctx⟩) {token id bound : Nat} (above : id < engine.nextEventId) {other : Nat}
    (found : Function.update ctx.tokenBindings token (some id) other = some bound) : bound < engine.nextEventId := by
  by_cases same : other = token
  · rw [same, Function.update_self] at found
    cases found
    exact above
  · rw [Function.update_of_ne same] at found
    exact below.bound other bound found

theorem Below.step {source target : Evaluation} (below : Below source) (step : Step source target) : Below target := by
  cases step with
  | called request reply performed =>
    refine ⟨fun token id found => ?_, below.unread⟩
    rw [(CtxInner.SameBindings.perform performed).tokens] at found
    exact below.bound token id found
  | drained => exact ⟨below.bound, below.unread⟩
  | bound schedules matched =>
    refine ⟨fun other id found => ?_, fun event member => below.unread event (List.mem_cons_of_mem _ member)⟩
    rw [CtxInner.bindSchedule_tokenBindings] at found
    exact below.bind (below.unread _ List.mem_cons_self) found
  | consumed => exact ⟨below.bound, fun event member => below.unread event (List.mem_cons_of_mem _ member)⟩
  | skipped => exact ⟨below.bound, fun event member => below.unread event (List.mem_cons_of_mem _ member)⟩
  | observed =>
    refine ⟨fun token id found => ?_, fun event member => below.unread event (List.mem_cons_of_mem _ member)⟩
    rw [CtxInner.observe_tokenBindings] at found
    exact below.bound token id found
  | marked =>
    refine ⟨fun token id found => ?_, below.unread⟩
    rw [(CtxInner.SameBindings.markDroppedQueueWaits _).tokens] at found
    exact below.bound token id found
  | @converted engine unread emitted later ctx =>
    have next : engine.nextEventId < (engine.convertEmittedAction ctx emitted).1.nextEventId := Nat.lt_succ_self _
    refine ⟨fun other id found => ?_, fun event member => (below.unread event member).trans next⟩
    rw [ReplayEngine.convertEmittedAction_tokenBindings] at found
    by_cases same : other = emitted.1
    · rw [same, Function.update_self] at found
      cases found
      exact next
    · rw [Function.update_of_ne same] at found
      exact (below.bound other id found).trans next

theorem Steps.below {source target : Evaluation} (steps : Steps source target) (below : Below source) : Below target :=
  steps.invariant (fun _ _ => Below.step) below

theorem Steps.converted {source target : Evaluation} (steps : Steps source target) :
    ReplayEngine.Converted source.engine target.engine := by
  induction steps with
  | refl => exact .refl _
  | tail _ step ih =>
    cases step with
    | @converted engine unread emitted later ctx =>
      exact ih.trans (ReplayEngine.convertEmittedAction_converted engine ctx emitted)
    | called | drained | bound | consumed | skipped | observed | marked => exact ih

end Evaluation

namespace ReplayEngine

variable {engine result : ReplayEngine} {ctx after : CtxInner}

/-- Breadcrumbs of one kind that an engine recorded, in order, for the schedules in a list. -/
structure Breadcrumbs (kind : EventKind) (ids : List Nat) (before after : ReplayEngine) (events : List Event) : Prop where
  same : after = { before with nextEventId := after.nextEventId, historyDelta := before.historyDelta ++ events }
  next : before.nextEventId ≤ after.nextEventId
  sources : events.map (·.sourceEventId) = ids.map some
  kinds : ∀ event ∈ events, event.kind = kind
  above : ∀ event ∈ events, before.nextEventId ≤ event.eventId

theorem Breadcrumbs.push {kind : EventKind} {id : Nat} {ids : List Nat} {before after : ReplayEngine} {events : List Event}
    (crumbs : Breadcrumbs kind ids (before.pushEvent (some id) kind) after events) :
    Breadcrumbs kind (id :: ids) before after (Event.withEventId before.stamp before.nextEventId before.instanceId
      before.executionId (some id) kind :: events) where
  same := by
    have same := crumbs.same
    rw [same]
    simp only [pushEvent, List.append_assoc, List.singleton_append]
  next := (Nat.le_succ _).trans crumbs.next
  sources := by
    rw [List.map_cons, List.map_cons, crumbs.sources]
    rfl
  kinds event member := by
    rcases List.mem_cons.mp member with rfl | later
    · rfl
    · exact crumbs.kinds event later
  above event member := by
    rcases List.mem_cons.mp member with rfl | later
    · exact Nat.le_refl _
    · exact (Nat.le_succ _).trans (crumbs.above event later)

/-- Each cancelled schedule without a breadcrumb gets one. -/
theorem recordCancellations_spec (breadcrumb : EventKind) (ids seen : List Nat) (engine : ReplayEngine) :
    (∃ events, Breadcrumbs breadcrumb (recordCancellations breadcrumb ids seen engine).1 engine
      (recordCancellations breadcrumb ids seen engine).2 events) ∧
    (recordCancellations breadcrumb ids seen engine).1.Nodup ∧
    ∀ id, id ∈ (recordCancellations breadcrumb ids seen engine).1 ↔ id ∈ ids ∧ id ∉ seen := by
  induction ids generalizing seen engine with
  | nil =>
    refine ⟨⟨[], ?_, Nat.le_refl _, rfl, ?_, ?_⟩, List.nodup_nil, fun id => ?_⟩
    · simp [recordCancellations]
    · exact fun _ none => absurd none List.not_mem_nil
    · exact fun _ none => absurd none List.not_mem_nil
    · simp [recordCancellations]
  | cons id rest ih =>
    unfold recordCancellations
    split_ifs with already
    · obtain ⟨events, distinct, listed⟩ := ih seen engine
      refine ⟨events, distinct, fun other => ?_⟩
      rw [listed, List.mem_cons]
      refine and_congr_left fun fresh => ⟨.inr, fun member => member.resolve_left ?_⟩
      rintro rfl
      exact fresh already
    · obtain ⟨⟨events, crumbs⟩, distinct, listed⟩ := ih (id :: seen) (engine.pushEvent (some id) breadcrumb)
      refine ⟨⟨_, crumbs.push⟩, ?_, fun other => ?_⟩
      · refine List.nodup_cons.mpr ⟨fun again => ?_, distinct⟩
        exact ((listed id).mp again).2 List.mem_cons_self
      · rw [List.mem_cons, listed, List.mem_cons, List.mem_cons]
        by_cases same : other = id
        · simp [same, already]
        · simp [same]

/-- What the reconciliation of dropped futures adds to an engine. -/
structure Collected (engine : ReplayEngine) (ctx : CtxInner) (result : ReplayEngine) (activities children : List Nat)
    (activityEvents childEvents waitEvents : List Event) : Prop where
  baseline : result.baselineHistory = engine.baselineHistory
  delta : result.historyDelta = engine.historyDelta ++ activityEvents ++ childEvents ++ waitEvents
  pending : result.pendingActions = engine.pendingActions
  cancelledActivities : result.cancelledActivityIds = engine.cancelledActivityIds ++ activities
  cancelledChildren : result.cancelledSubOrchestrationIds = engine.cancelledSubOrchestrationIds ++
    children.filterMap fun id => (ctx.getCancelledSubOrchestrationCancellations.find? (·.1 == id)).map (·.2)
  activityDistinct : activities.Nodup
  activityListed : ∀ id, id ∈ activities ↔
    id ∈ ctx.getCancelledActivityIds ∧ id ∉ engine.alreadyCancelled activityCancelReason
  childDistinct : children.Nodup
  childListed : ∀ id, id ∈ children ↔ id ∈ ctx.getCancelledSubOrchestrationCancellations.map (·.1) ∧
    id ∉ engine.alreadyCancelled subOrchestrationCancelReason
  activitySources : activityEvents.map (·.sourceEventId) = activities.map some
  activityKinds : ∀ event ∈ activityEvents, event.kind = .activityCancelRequested droppedFuture
  childSources : childEvents.map (·.sourceEventId) = children.map some
  childKinds : ∀ event ∈ childEvents, event.kind = .subOrchestrationCancelRequested droppedFuture
  waitKinds : ∀ event ∈ waitEvents, event.kind = .externalSubscribedCancelled droppedFuture ∨
    event.kind = .queueSubscriptionCancelled droppedFuture
  above : ∀ event ∈ activityEvents ++ childEvents ++ waitEvents, engine.nextEventId ≤ event.eventId

theorem collected_of_ok (collected : engine.collectCancelledFromContext ctx = .ok (result, after)) :
    ∃ activities children activityEvents childEvents waitEvents,
      Collected engine ctx result activities children activityEvents childEvents waitEvents := by
  unfold collectCancelledFromContext at collected
  dsimp only at collected
  split_ifs at collected
  obtain ⟨⟨activityEvents, activity⟩, activityDistinct, activityListed⟩ := recordCancellations_spec
    (.activityCancelRequested droppedFuture) ctx.getCancelledActivityIds (engine.alreadyCancelled activityCancelReason) engine
  generalize recordCancellations (.activityCancelRequested droppedFuture) ctx.getCancelledActivityIds
    (engine.alreadyCancelled activityCancelReason) engine = first at collected activity activityDistinct activityListed
  obtain ⟨activities, first⟩ := first
  dsimp only at collected activity activityDistinct activityListed
  obtain ⟨⟨childEvents, child⟩, childDistinct, childListed⟩ := recordCancellations_spec
    (.subOrchestrationCancelRequested droppedFuture) (ctx.getCancelledSubOrchestrationCancellations.map (·.1))
    (engine.alreadyCancelled subOrchestrationCancelReason) first
  generalize recordCancellations (.subOrchestrationCancelRequested droppedFuture)
    (ctx.getCancelledSubOrchestrationCancellations.map (·.1)) (engine.alreadyCancelled subOrchestrationCancelReason)
    first = second at collected child childDistinct childListed
  obtain ⟨children, second⟩ := second
  dsimp only at collected child childDistinct childListed
  obtain ⟨⟨externalEvents, external⟩, _, _⟩ := recordCancellations_spec
    (.externalSubscribedCancelled droppedFuture) ctx.getCancelledExternalWaitIds
    (engine.alreadyCancelled externalCancelReason) second
  generalize recordCancellations (.externalSubscribedCancelled droppedFuture) ctx.getCancelledExternalWaitIds
    (engine.alreadyCancelled externalCancelReason) second = third at collected external
  obtain ⟨externals, third⟩ := third
  dsimp only at collected external
  obtain ⟨⟨queueEvents, queue⟩, _, _⟩ := recordCancellations_spec
    (.queueSubscriptionCancelled droppedFuture) ctx.getCancelledQueueIds (third.alreadyCancelled queueCancelReason) third
  generalize recordCancellations (.queueSubscriptionCancelled droppedFuture) ctx.getCancelledQueueIds
    (third.alreadyCancelled queueCancelReason) third = fourth at collected queue
  obtain ⟨queues, fourth⟩ := fourth
  dsimp only at collected queue
  cases collected
  refine ⟨activities, children, activityEvents, childEvents, externalEvents ++ queueEvents, ?_⟩
  have afterFirst := activity.same
  have afterSecond := child.same
  have afterThird := external.same
  have afterFourth := queue.same
  refine ⟨?_, ?_, ?_, ?_, ?_, activityDistinct, activityListed, childDistinct, childListed, activity.sources,
    activity.kinds, child.sources, child.kinds, ?_, ?_⟩
  · rw [afterFourth, afterThird, afterSecond, afterFirst]
  · rw [afterFourth, afterThird, afterSecond, afterFirst]
    simp only [List.append_assoc]
  · rw [afterFourth, afterThird, afterSecond, afterFirst]
  · rw [afterFourth, afterThird, afterSecond, afterFirst]
  · rw [afterFourth, afterThird, afterSecond, afterFirst]
  · intro event member
    rcases List.mem_append.mp member with wait | dequeue
    · exact .inl (external.kinds event wait)
    · exact .inr (queue.kinds event dequeue)
  · intro event member
    simp only [List.mem_append] at member
    rcases member with (inActivities | inChildren) | wait | dequeue
    · exact activity.above event inActivities
    · exact activity.next.trans (child.above event inChildren)
    · exact (activity.next.trans child.next).trans (external.above event wait)
    · exact ((activity.next.trans child.next).trans external.next).trans (queue.above event dequeue)

/-! ## How a turn ends -/

/-- The result of a program that was not cancelled and did not continue as new. -/
def outputResult : Option (Except String String) → TurnResult
  | some (.ok result) => .completed result
  | some (.error message) => .failed (.application .orchestrationFailed message false)
  | none => .continue

/-- How a turn comes to its result: without an evaluation, by a failed one, before its dropped futures are
reconciled, or after that. -/
inductive Concludes (engine : ReplayEngine) (handler : OrchestrationHandler)
    (input orchestrationName orchestrationVersion : String) : TurnResult → ReplayEngine → Prop
  | idle (result : TurnResult) (unevaluated : engine.evaluates = false) :
      Concludes engine handler input orchestrationName orchestrationVersion result engine
  | failed (result : TurnResult) (after : ReplayEngine) (evaluates : engine.evaluates)
      (evaluated : engine.evaluate handler input orchestrationName orchestrationVersion = (.error result, after)) :
      Concludes engine handler input orchestrationName orchestrationVersion result after
  | cancelled (reason : String) (replay : Replay handler.State) (after : ReplayEngine) (evaluates : engine.evaluates)
      (evaluated : engine.evaluate handler input orchestrationName orchestrationVersion = (.ok replay, after))
      (requested : (after.baselineHistory ++ after.historyDelta).findSome? cancelReasonOf = some reason) :
      Concludes engine handler input orchestrationName orchestrationVersion (.cancelled reason) after
  | continuesAsNew (result : TurnResult) (replay : Replay handler.State) (after : ReplayEngine)
      (evaluates : engine.evaluates)
      (evaluated : engine.evaluate handler input orchestrationName orchestrationVersion = (.ok replay, after))
      (unrequested : (after.baselineHistory ++ after.historyDelta).findSome? cancelReasonOf = none)
      (emitted : after.pendingActions.findSome? continueAsNewOf = some result) :
      Concludes engine handler input orchestrationName orchestrationVersion result after
  | mismatched (result : TurnResult) (replay : Replay handler.State) (after : ReplayEngine)
      (evaluates : engine.evaluates)
      (evaluated : engine.evaluate handler input orchestrationName orchestrationVersion = (.ok replay, after))
      (unrequested : (after.baselineHistory ++ after.historyDelta).findSome? cancelReasonOf = none)
      (unemitted : after.pendingActions.findSome? continueAsNewOf = none)
      (mismatch : after.collectCancelledFromContext replay.ctx = .error result) :
      Concludes engine handler input orchestrationName orchestrationVersion result after
  | collected (replay : Replay handler.State) (after last : ReplayEngine) (ctx : CtxInner)
      (evaluates : engine.evaluates)
      (evaluated : engine.evaluate handler input orchestrationName orchestrationVersion = (.ok replay, after))
      (unrequested : (after.baselineHistory ++ after.historyDelta).findSome? cancelReasonOf = none)
      (unemitted : after.pendingActions.findSome? continueAsNewOf = none)
      (reconciled : after.collectCancelledFromContext replay.ctx = .ok (last, ctx)) :
      Concludes engine handler input orchestrationName orchestrationVersion (outputResult replay.output) last

variable {handler : OrchestrationHandler} {input orchestrationName orchestrationVersion : String}

theorem concludes_of_finalizeTurn {replay : Replay handler.State} (evaluates : engine.evaluates)
    (evaluated : engine.evaluate handler input orchestrationName orchestrationVersion = (.ok replay, result)) :
    Concludes engine handler input orchestrationName orchestrationVersion
      (result.finalizeTurn replay.ctx replay.output).1 (result.finalizeTurn replay.ctx replay.output).2 := by
  unfold finalizeTurn
  split
  · rename_i reason requested
    exact .cancelled reason replay result evaluates evaluated requested
  · rename_i unrequested
    split
    · rename_i continued emitted
      exact .continuesAsNew continued replay result evaluates evaluated unrequested emitted
    · rename_i unemitted
      split
      · rename_i failure mismatch
        exact .mismatched failure replay result evaluates evaluated unrequested unemitted mismatch
      · rename_i last ctx reconciled
        have collected := Concludes.collected replay result last ctx evaluates evaluated unrequested unemitted reconciled
        split <;> rename_i output <;> rw [output] at collected <;> exact collected

theorem executeOrchestration_concludes (engine : ReplayEngine) (handler : OrchestrationHandler)
    (input orchestrationName orchestrationVersion : String) :
    Concludes engine handler input orchestrationName orchestrationVersion
      (engine.executeOrchestration handler input orchestrationName orchestrationVersion).1
      (engine.executeOrchestration handler input orchestrationName orchestrationVersion).2 := by
  unfold executeOrchestration
  dsimp only
  split
  · rename_i error aborted
    exact .idle _ (by simp [evaluates, aborted])
  rename_i unaborted
  split_ifs with ended empty unstarted
  · exact .idle _ (by simp only [evaluates, ended, Bool.not_true, Bool.and_false, Bool.false_and])
  · refine .idle _ ?_
    simp only [evaluates, List.isEmpty_iff.mp empty, startsExecution, Bool.and_false]
  · refine .idle _ ?_
    simp only [Bool.not_eq_true'] at unstarted
    simp only [evaluates, unstarted, Bool.and_false]
  · have evaluates : engine.evaluates := by
      simp only [Bool.not_eq_true', Bool.not_eq_false] at unstarted
      simp only [ReplayEngine.evaluates, unaborted, ended, unstarted, Option.isNone_none, Bool.not_false, Bool.and_self]
    split
    · rename_i failure after evaluated
      exact .failed failure after evaluates evaluated
    · rename_i replay after evaluated
      exact concludes_of_finalizeTurn evaluates evaluated

/-- An engine that evaluates nothing stays as it is. -/
theorem executeOrchestration_of_idle (idle : engine.evaluates = false) :
    (engine.executeOrchestration handler input orchestrationName orchestrationVersion).2 = engine := by
  have concludes := executeOrchestration_concludes engine handler input orchestrationName orchestrationVersion
  generalize engine.executeOrchestration handler input orchestrationName orchestrationVersion = executed at concludes ⊢
  obtain ⟨result, last⟩ := executed
  cases concludes with
  | idle => rfl
  | failed _ _ evaluates | cancelled _ _ _ evaluates | continuesAsNew _ _ _ evaluates | mismatched _ _ _ evaluates
  | collected _ _ _ _ evaluates =>
    rw [idle] at evaluates
    cases evaluates

/-! ## Breadcrumbs of activities -/

theorem below_start (sound : Sound engine) (orchestrationName orchestrationVersion : String) :
    (Evaluation.start engine orchestrationName orchestrationVersion).Below where
  bound _ _ none := nomatch none
  unread event member := sound.numbered.below event member

/-- An evaluation records neither breadcrumbs nor messages, and binds tokens to numbers below the next event. -/
theorem converted_of_evaluate (sound : Sound engine) {outcome : Except TurnResult (Replay handler.State)}
    (evaluated : engine.evaluate handler input orchestrationName orchestrationVersion = (outcome, result)) :
    Converted engine result ∧ ∀ replay, outcome = .ok replay → ∀ token id, replay.ctx.tokenBindings token = some id →
      id < result.nextEventId := by
  obtain ⟨last, ends⟩ := Evaluation.ends_evaluate engine handler input orchestrationName orchestrationVersion
  rw [evaluated] at ends
  have below := ends.steps.below (below_start sound _ _)
  obtain rfl := ends.engine_eq
  refine ⟨ends.steps.converted, fun replay same => ?_⟩
  have state := ends.state replay same
  intro token id found
  rw [state] at below ⊢
  exact below.bound token id found

/-- A turn leaves a breadcrumb for an activity only when it cancels it, behind the schedule. -/
theorem cancelled_of_executeOrchestration (sound : Sound engine)
    (silent : ∀ event ∈ engine.historyDelta, event.kind.isBreadcrumb = false) {event : Event}
    (member : event ∈ (engine.executeOrchestration handler input orchestrationName orchestrationVersion).2.historyDelta)
    (requests : (activityCancelReason event.kind).isSome) :
    ∃ id, event.sourceEventId = some id ∧ id < event.eventId ∧
      id ∈ (engine.executeOrchestration handler input orchestrationName orchestrationVersion).2.cancelledActivityIds := by
  have crumb : event.kind.isBreadcrumb := by
    obtain ⟨eventId, source, instanceId, executionId, timestamp, version, kind⟩ := event
    cases kind <;> first | rfl | cases requests
  have concludes := executeOrchestration_concludes engine handler input orchestrationName orchestrationVersion
  generalize engine.executeOrchestration handler input orchestrationName orchestrationVersion = executed at member concludes ⊢
  obtain ⟨result, last⟩ := executed
  dsimp only at member concludes ⊢
  have quiet : ∀ {middle : ReplayEngine}, Converted engine middle → event ∉ middle.historyDelta := by
    intro middle converted present
    obtain ⟨events, delta, kinds⟩ := converted.delta
    rw [delta] at present
    rcases List.mem_append.mp present with old | new
    · rw [silent event old] at crumb
      cases crumb
    · rw [(kinds event new).1] at crumb
      cases crumb
  cases concludes with
  | idle => exact absurd member (quiet (.refl _))
  | failed _ _ _ evaluated => exact absurd member (quiet (converted_of_evaluate sound evaluated).1)
  | cancelled _ _ _ _ evaluated => exact absurd member (quiet (converted_of_evaluate sound evaluated).1)
  | continuesAsNew _ _ _ _ evaluated => exact absurd member (quiet (converted_of_evaluate sound evaluated).1)
  | mismatched _ _ _ _ evaluated => exact absurd member (quiet (converted_of_evaluate sound evaluated).1)
  | collected replay middle _ ctx _ evaluated _ _ reconciled =>
    obtain ⟨converted, bound⟩ := converted_of_evaluate sound evaluated
    obtain ⟨activities, children, activityEvents, childEvents, waitEvents, collected⟩ := collected_of_ok reconciled
    rw [collected.delta] at member
    simp only [List.mem_append] at member
    rcases member with ((old | inActivities) | inChildren) | inWaits
    · exact absurd old (quiet converted)
    · have listed : event.sourceEventId ∈ activityEvents.map (·.sourceEventId) := List.mem_map_of_mem inActivities
      rw [collected.activitySources] at listed
      obtain ⟨id, recorded, source⟩ := List.mem_map.mp listed
      refine ⟨id, source.symm, ?_, ?_⟩
      · have dropped := ((collected.activityListed id).mp recorded).1
        unfold CtxInner.getCancelledActivityIds CtxInner.cancelledIds at dropped
        obtain ⟨token, _, found⟩ := List.mem_filterMap.mp dropped
        split_ifs at found
        refine Nat.lt_of_lt_of_le (bound replay rfl token id found) (collected.above event ?_)
        exact List.mem_append_left _ (List.mem_append_left _ inActivities)
      · rw [collected.cancelledActivities]
        exact List.mem_append_right _ recorded
    · rw [collected.childKinds event inChildren] at requests
      cases requests
    · rcases collected.waitKinds event inWaits with kind | kind <;> rw [kind] at requests <;> cases requests

end ReplayEngine

end Duroxide
