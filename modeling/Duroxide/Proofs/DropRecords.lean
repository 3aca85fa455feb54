import Duroxide.Proofs.Bindings

/-! # The record of dropped futures

A context records the tokens whose futures were dropped before they were ready. When a turn is finalized every
token is bound, so the record names the schedules of the dropped futures; each of them that has no breadcrumb yet
gets one, and the breadcrumbs that were persisted must be among them.
-/

namespace Duroxide

/-- The operations whose schedules are cancelled when their futures are dropped; timers are not. -/
inductive Droppable where
  | activity
  | subOrchestration
  | externalWait
  | queueDequeue
deriving DecidableEq, Repr

namespace Droppable

/-- The reason of a breadcrumb of this kind. -/
def reasonOf : Droppable → EventKind → Option String
  | activity => ReplayEngine.activityCancelReason
  | subOrchestration => ReplayEngine.subOrchestrationCancelReason
  | externalWait => ReplayEngine.externalCancelReason
  | queueDequeue => ReplayEngine.queueCancelReason

/-- The events that schedule operations of this kind. -/
def isSchedule : Droppable → EventKind → Bool
  | activity => ReplayEngine.isActivityScheduled
  | subOrchestration => ReplayEngine.isSubOrchestrationScheduled
  | externalWait => ReplayEngine.isExternalSubscribed
  | queueDequeue => ReplayEngine.isQueueSubscribed

/-- The breadcrumb of this kind. -/
def breadcrumb : Droppable → String → EventKind
  | activity => .activityCancelRequested
  | subOrchestration => .subOrchestrationCancelRequested
  | externalWait => .externalSubscribedCancelled
  | queueDequeue => .queueSubscriptionCancelled

/-- The futures of operations of this kind. -/
def holds : Droppable → ScheduleKind → Bool
  | activity, .activity _ | subOrchestration, .subOrchestration _ | externalWait, .externalWait _
  | queueDequeue, .queueDequeue _ => true
  | _, _ => false

/-- The schedules that a context reports as dropped. -/
def cancelled (ctx : CtxInner) : Droppable → List Nat
  | activity => ctx.getCancelledActivityIds
  | subOrchestration => ctx.getCancelledSubOrchestrationCancellations.map (·.1)
  | externalWait => ctx.getCancelledExternalWaitIds
  | queueDequeue => ctx.getCancelledQueueIds

variable {droppable other : Droppable} {kind : EventKind} {reason : String}

@[simp] theorem reasonOf_breadcrumb (droppable other : Droppable) (reason : String) :
    droppable.reasonOf (other.breadcrumb reason) = if droppable = other then some reason else none := by
  cases droppable <;> cases other <;> rfl

theorem isBreadcrumb_breadcrumb (droppable : Droppable) (reason : String) : (droppable.breadcrumb reason).isBreadcrumb := by
  cases droppable <;> rfl

theorem eq_breadcrumb (crumb : droppable.reasonOf kind = some reason) : kind = droppable.breadcrumb reason := by
  cases droppable <;> cases kind <;> cases crumb <;> rfl

theorem isSchedule_iff (droppable : Droppable) (kind : EventKind) (token : Nat) :
    droppable.isSchedule kind ↔ (kind.futureKind token).any droppable.holds := by
  cases droppable <;> cases kind <;> simp [isSchedule, holds, EventKind.futureKind, ReplayEngine.isActivityScheduled,
    ReplayEngine.isSubOrchestrationScheduled, ReplayEngine.isExternalSubscribed, ReplayEngine.isQueueSubscribed]

/-- An event schedules an operation of one kind. -/
theorem eq_of_isSchedule (first : droppable.isSchedule kind) (second : other.isSchedule kind) : droppable = other := by
  cases droppable <;> cases other <;> first | rfl | (cases kind <;> first | cases first; done | cases second)

theorem eq_of_holds {future : ScheduleKind} (first : droppable.holds future) (second : other.holds future) :
    droppable = other := by
  cases droppable <;> cases other <;> first | rfl | (cases future <;> first | cases first; done | cases second)

theorem eventKind_isSchedule (schedules : droppable.isSchedule kind) : kind.isSchedule := by
  cases droppable <;> cases kind <;> first | rfl | cases schedules

end Droppable

namespace CtxInner

variable {ctx after : CtxInner} {token id : Nat} {future : DurableFuture}

/-- The program has dropped a future before a poll of it was ready. -/
def IsDropped (ctx : CtxInner) (token : Nat) (future : DurableFuture) : Prop :=
  ctx.futures token = some future ∧ future.dropped ∧ future.value = none

/-- A schedule of one kind whose future the program has dropped before a poll of it was ready. -/
def Dropped (ctx : CtxInner) (droppable : Droppable) (id : Nat) : Prop :=
  ∃ token future, ctx.IsDropped token future ∧ droppable.holds future.kind ∧ ctx.tokenBindings token = some id

theorem IsDropped.kindOf (dropped : ctx.IsDropped token future) : ctx.kindOf token = some future.kind := by
  rw [CtxInner.kindOf, dropped.1]
  rfl

/-- The record of a context holds the dropped futures with their kinds. -/
structure Watched (ctx : CtxInner) : Prop where
  tokens : ∀ token, token ∈ ctx.cancelledTokens ↔ ∃ future, ctx.IsDropped token future
  kinds : ∀ token future, ctx.IsDropped token future → ctx.cancelledTokenKinds token = some future.kind

namespace Watched

/-- What the record and the futures do not depend on may change. -/
theorem frame (watched : Watched ctx) (futures : after.futures = ctx.futures)
    (tokens : after.cancelledTokens = ctx.cancelledTokens) (kinds : after.cancelledTokenKinds = ctx.cancelledTokenKinds) :
    Watched after := by
  constructor
  · simpa only [IsDropped, futures, tokens] using watched.tokens
  · simpa only [IsDropped, futures, kinds] using watched.kinds

/-- A future that is replaced while it is not dropped, or was ready. -/
theorem replace (watched : Watched ctx) (alive : ∀ future, ¬ ctx.IsDropped token future)
    (kept : ¬ (future.dropped ∧ future.value = none))
    (futures : after.futures = Function.update ctx.futures token (some future))
    (tokens : after.cancelledTokens = ctx.cancelledTokens) (kinds : after.cancelledTokenKinds = ctx.cancelledTokenKinds) :
    Watched after := by
  have same : ∀ other held, after.IsDropped other held ↔ ctx.IsDropped other held := by
    intro other held
    unfold IsDropped
    rw [futures]
    rcases eq_or_ne other token with rfl | different
    · rw [Function.update_self]
      refine ⟨fun dropped => absurd ?_ kept, fun dropped => absurd dropped (alive held)⟩
      rw [Option.some.inj dropped.1]
      exact dropped.2
    · rw [Function.update_of_ne different]
  constructor
  · simpa only [same, tokens] using watched.tokens
  · simpa only [same, kinds] using watched.kinds

/-- A new operation hands out a future that nobody has dropped. -/
theorem schedule (watched : Watched ctx) (fresh : ctx.futures (ctx.nextToken + 1) = none) {action : Action}
    {kind : Nat → ScheduleKind} (scheduled : ctx.schedule action kind = (token, after)) : Watched after := by
  have alive : ∀ held, ¬ ctx.IsDropped (ctx.nextToken + 1) held := by
    intro held dropped
    have none := fresh.symm.trans dropped.1
    cases none
  cases scheduled
  apply @replace _ _ (ctx.nextToken + 1) { kind := kind (ctx.nextToken + 1) } watched alive
  · exact fun dropped => Bool.false_ne_true dropped.1
  · rfl
  · rfl
  · rfl

/-- A poll that is ready makes a future ready that was not dropped. -/
theorem pollFuture (watched : Watched ctx) (token : Nat) : Watched (ctx.pollFuture token).2 := by
  unfold CtxInner.pollFuture
  split
  · rename_i future found
    split_ifs with dropped
    · exact watched
    obtain ⟨queue, same, _⟩ := readyValue_frame ctx token future.kind
    have alive : ∀ held, ¬ ctx.IsDropped token held := by
      rintro held ⟨here, drop, _⟩
      rw [found] at here
      exact dropped (Option.some.inj here ▸ drop)
    generalize ctx.readyValue token future.kind = taken at same
    obtain ⟨value, after⟩ := taken
    cases same
    cases value with
    | none => exact watched.frame rfl rfl rfl
    | some value =>
      apply @replace _ _ token { future with value := future.value <|> some value } watched alive
      · exact fun drop => dropped drop.1
      · rfl
      · rfl
      · rfl
  · exact watched

/-- A future that is dropped before it was ready is recorded. -/
theorem mark (watched : Watched ctx) (found : ctx.futures token = some future) (pending : future.value = none)
    (futures : after.futures = Function.update ctx.futures token (some { future with dropped := true }))
    (tokens : after.cancelledTokens = ctx.cancelledTokens.insert token)
    (kinds : after.cancelledTokenKinds = Function.update ctx.cancelledTokenKinds token (some future.kind)) :
    Watched after := by
  have here : ∀ held, after.IsDropped token held ↔ held = { future with dropped := true } := by
    intro held
    unfold IsDropped
    rw [futures, Function.update_self]
    constructor
    · exact fun dropped => (Option.some.inj dropped.1).symm
    · rintro rfl
      exact ⟨rfl, rfl, pending⟩
  have others : ∀ other ≠ token, ∀ held, after.IsDropped other held ↔ ctx.IsDropped other held := by
    intro other different held
    unfold IsDropped
    rw [futures, Function.update_of_ne different]
  constructor
  · intro other
    rw [tokens, List.mem_insert_iff]
    rcases eq_or_ne other token with rfl | different
    · simp only [here, exists_eq, true_or]
    · simp only [others other different, different, false_or, watched.tokens]
  · intro other held dropped
    rw [kinds]
    rcases eq_or_ne other token with rfl | different
    · rw [Function.update_self, (here held).mp dropped]
    · rw [Function.update_of_ne different]
      exact watched.kinds other held ((others other different held).mp dropped)

theorem dropFuture (watched : Watched ctx) (token : Nat) : Watched (ctx.dropFuture token) := by
  unfold CtxInner.dropFuture
  split
  · rename_i future found
    split_ifs with dropped completed
    · exact watched
    · have alive : ∀ held, ¬ ctx.IsDropped token held := by
        rintro held ⟨here, drop, _⟩
        rw [found] at here
        exact dropped (Option.some.inj here ▸ drop)
      apply @replace _ _ token { future with dropped := true } watched alive
      · rintro ⟨_, pending⟩
        rw [DurableFuture.completed, pending] at completed
        cases completed
      · rfl
      · rfl
      · rfl
    · exact watched.mark found (Option.not_isSome_iff_eq_none.mp completed) rfl rfl rfl
  · exact watched

/-- Context calls keep the record. -/
theorem perform (watched : Watched ctx) (fresh : ctx.futures (ctx.nextToken + 1) = none) {request : CtxCall}
    {reply : request.Reply} (performed : ctx.perform request = .ok (reply, after)) : Watched after := by
  cases request with
  | scheduleActivity | scheduleTimer | scheduleWait | dequeueEvent | scheduleSubOrchestration =>
    exact watched.schedule fresh (Except.ok.inj performed)
  | pollFuture token =>
    rw [← (Prod.mk.inj (Except.ok.inj performed)).2]
    exact watched.pollFuture token
  | dropFuture token =>
    cases performed
    exact watched.dropFuture token
  | withTag token tag =>
    obtain ⟨retag, rfl, _⟩ := withTag_frame performed
    exact watched.frame rfl rfl rfl
  | pruneKvValuesUpdatedBefore updatedBeforeMs =>
    obtain ⟨state, metadata, next, emitted, _, same⟩ := clearKvValues_frame (ctx.staleKvKeys updatedBeforeMs) ctx
    cases performed
    rw [same]
    exact watched.frame rfl rfl rfl
  | _ =>
    cases performed
    exact watched.frame rfl rfl rfl

theorem bindSchedule (watched : Watched ctx) (token : Nat) (event : Event) : Watched (ctx.bindSchedule token event) := by
  obtain ⟨external, queue, children, same⟩ := bindSchedule_frame ctx token event
  rw [same]
  exact watched.frame rfl rfl rfl

theorem observe (watched : Watched ctx) (event : Event) : Watched (ctx.observe event) := by
  obtain ⟨results, external, queue, status, same⟩ := observe_frame ctx event
  rw [same]
  exact watched.frame rfl rfl rfl

theorem convertEmittedAction (watched : Watched ctx) (engine : ReplayEngine) (emitted : Nat × Action) :
    Watched (engine.convertEmittedAction ctx emitted).2 := by
  obtain ⟨token, action⟩ := emitted
  rw [Linked.convertEmittedAction_ctx]
  split
  · exact watched.bindSchedule _ _
  · exact watched.frame rfl rfl rfl

end Watched

/-! ### The schedules of an evaluation -/

theorem convertEmittedAction_scheduleBindings (engine : ReplayEngine) {action : Action}
    (unbound : ctx.tokenBindings token = none) :
    (engine.convertEmittedAction ctx (token, action)).2.scheduleBindings =
      Function.update ctx.scheduleBindings engine.nextEventId (some token) := by
  have bound : ∀ id, (ctx.bindToken token id).scheduleBindings = Function.update ctx.scheduleBindings id (some token) := by
    intro id
    unfold bindToken
    rw [unbound]
  rw [Linked.convertEmittedAction_ctx]
  split
  · rename_i event recorded
    obtain ⟨schedules, _⟩ := Linked.bindSchedule_same ctx token event
    rw [schedules, bound, Linked.actionToEvent_eventId recorded]
  · exact bound _

theorem observe_scheduleBindings (ctx : CtxInner) (event : Event) :
    (ctx.observe event).scheduleBindings = ctx.scheduleBindings := by
  obtain ⟨results, external, queue, status, same⟩ := observe_frame ctx event
  rw [same]

end CtxInner

namespace Evaluation

/-- The schedules that were read or recorded are bound as their events say, those to be read are bound to nobody
yet, and the dropped futures are on record. -/
structure Booked (evaluation : Evaluation) : Prop where
  linked : ∃ events, evaluation.ctx.Linked events (evaluation.ctx.promises evaluation.waiting) ∧
    ∀ event ∈ events, event ∈ evaluation.engine.baselineHistory ++ evaluation.engine.historyDelta
  listed : ∀ event ∈ evaluation.unread, event ∈ evaluation.engine.baselineHistory ++ evaluation.engine.historyDelta
  distinct : (evaluation.unread.map (·.eventId)).Nodup
  fresh : ∀ event ∈ evaluation.unread, evaluation.ctx.scheduleBindings event.eventId = none
  below : Below evaluation
  watched : evaluation.ctx.Watched

namespace Booked

variable {engine : ReplayEngine} {event : Event} {rest unread : List Event} {waiting later : List (Nat × Action)}
  {ctx after : CtxInner}

/-- An event is read. -/
theorem read (booked : Booked ⟨engine, event :: rest, waiting, ctx⟩)
    (linked : ∀ events, ctx.Linked events (ctx.promises waiting) →
      after.Linked (events ++ [event]) (after.promises later))
    (schedules : after.scheduleBindings = ctx.scheduleBindings ∨
      ∃ token, after.scheduleBindings = Function.update ctx.scheduleBindings event.eventId (some token))
    (below : Below ⟨engine, rest, later, after⟩) (watched : after.Watched) : Booked ⟨engine, rest, later, after⟩ := by
  have listed := fun other member => booked.listed other (List.mem_cons_of_mem event member)
  obtain ⟨unseen, distinct⟩ := List.nodup_cons.mp booked.distinct
  refine ⟨?_, listed, distinct, ?_, below, watched⟩
  · obtain ⟨events, known, members⟩ := booked.linked
    refine ⟨events ++ [event], linked events known, fun other member => ?_⟩
    rcases List.mem_append.mp member with earlier | last
    · exact members other earlier
    · rw [List.mem_singleton.mp last]
      exact booked.listed event List.mem_cons_self
  · intro other member
    have old := booked.fresh other (List.mem_cons_of_mem event member)
    rcases schedules with same | ⟨token, updated⟩
    · rw [same]
      exact old
    · have different : other.eventId ≠ event.eventId :=
        fun same => unseen (List.mem_map.mpr ⟨other, member, same⟩)
      rw [updated, Function.update_of_ne different]
      exact old

/-- An action is bound to a new event. -/
theorem converted {emitted : Nat × Action} (booked : Booked ⟨engine, unread, emitted :: later, ctx⟩)
    (below : Below ⟨(engine.convertEmittedAction ctx emitted).1, unread, later, (engine.convertEmittedAction ctx emitted).2⟩) :
    Booked ⟨(engine.convertEmittedAction ctx emitted).1, unread, later, (engine.convertEmittedAction ctx emitted).2⟩ := by
  obtain ⟨token, action⟩ := emitted
  obtain ⟨events, linked, members⟩ := booked.linked
  have free : ctx.scheduleBindings engine.nextEventId = none := by
    by_contra bound
    obtain ⟨other, found⟩ := Option.ne_none_iff_exists'.mp bound
    exact Nat.lt_irrefl _ (booked.below.bound other _ ((linked.paired other _).mpr found))
  have schedules := @CtxInner.convertEmittedAction_scheduleBindings ctx token engine action
    (linked.unbound (promise (token, action)) List.mem_cons_self).1
  have kept : ∀ event ∈ engine.baselineHistory ++ engine.historyDelta, event ∈ engine.baselineHistory ++
      (engine.convertEmittedAction ctx (token, action)).1.historyDelta := by
    intro event member
    rw [CtxInner.Linked.convertEmittedAction_delta, ← List.append_assoc]
    exact List.mem_append_left _ member
  refine ⟨⟨events ++ (actionToEvent engine.stamp (updateActionEventId action engine.nextEventId) engine.instanceId
    engine.executionId engine.nextEventId).toList, linked.converts free, ?_⟩,
    fun event member => kept event (booked.listed event member), booked.distinct, ?_, below,
    booked.watched.convertEmittedAction engine (token, action)⟩
  · intro event member
    rcases List.mem_append.mp member with earlier | last
    · exact kept event (members event earlier)
    · dsimp only
      rw [CtxInner.Linked.convertEmittedAction_delta]
      exact List.mem_append_right _ (List.mem_append_right _ last)
  · intro event member
    have lower := booked.below.unread event member
    rw [schedules, Function.update_of_ne (Nat.ne_of_lt lower)]
    exact booked.fresh event member

theorem step {source target : Evaluation} (booked : Booked source) (step : Step source target) : Booked target := by
  have below := booked.below.step step
  cases step with
  | @called engine unread waiting ctx after request reply performed =>
    obtain ⟨events, linked, members⟩ := booked.linked
    have fresh : ctx.futures (ctx.nextToken + 1) = none :=
      Option.map_eq_none_iff.mp (linked.known _ (Nat.lt_succ_self _)).1
    refine ⟨⟨events, linked.perform performed, members⟩, booked.listed, booked.distinct, ?_, below,
      booked.watched.perform fresh performed⟩
    intro event member
    rw [(CtxInner.SameBindings.perform performed).schedules]
    exact booked.fresh event member
  | @drained engine unread waiting ctx =>
    obtain ⟨events, linked, members⟩ := booked.linked
    have waits : CtxInner.promises { ctx with emittedActions := [] } (waiting ++ ctx.emittedActions) =
        ctx.promises waiting := by simp [CtxInner.promises]
    refine ⟨⟨events, ?_, members⟩, booked.listed, booked.distinct, booked.fresh, below, booked.watched.frame rfl rfl rfl⟩
    dsimp only
    rw [waits]
    exact linked.frame ⟨rfl, rfl, rfl, rfl⟩ rfl fun _ => rfl
  | @bound engine event rest token action later ctx schedules matched =>
    obtain ⟨bindings, _⟩ := CtxInner.Linked.bindSchedule_same ctx token event
    have unseen := booked.fresh event List.mem_cons_self
    have unbound : ctx.tokenBindings token = none := by
      obtain ⟨events, linked, _⟩ := booked.linked
      exact (linked.unbound (promise (token, action)) List.mem_cons_self).1
    apply booked.read (fun events linked => linked.reads_bound unseen matched) (.inr ⟨token, ?_⟩) below
    · exact booked.watched.bindSchedule token event
    · rw [bindings]
      unfold CtxInner.bindToken
      rw [unbound]
  | @consumed engine event rest token action later ctx forgets matched =>
    exact booked.read (fun events linked => linked.reads_consumed forgets) (.inl rfl) below booked.watched
  | skipped forgets =>
    exact booked.read (fun events linked => linked.read (EventKind.isSchedule_of_isFireAndForget forgets)) (.inl rfl)
      below booked.watched
  | @observed engine event rest waiting ctx noSchedule remembered =>
    exact booked.read (fun events linked => linked.reads_observed noSchedule)
      (.inl (CtxInner.observe_scheduleBindings ctx event)) below (booked.watched.observe event)
  | @marked engine unread waiting ctx =>
    obtain ⟨events, linked, members⟩ := booked.linked
    obtain ⟨queue, marked⟩ := CtxInner.markDroppedQueueWaits_frame ctx
    rw [marked] at below ⊢
    exact ⟨⟨events, linked.frame ⟨rfl, rfl, rfl, rfl⟩ rfl fun _ => rfl, members⟩, booked.listed, booked.distinct,
      booked.fresh, below, booked.watched.frame rfl rfl rfl⟩
  | converted => exact booked.converted below

theorem steps {source target : Evaluation} (booked : Booked source) (steps : Steps source target) : Booked target :=
  steps.invariant (fun _ _ => step) booked

theorem start (sound : ReplayEngine.Sound engine) (orchestrationName orchestrationVersion : String) :
    Booked (Evaluation.start engine orchestrationName orchestrationVersion) where
  linked := ⟨[], .nil _ rfl rfl rfl rfl, fun _ none => absurd none List.not_mem_nil⟩
  listed _ member := member
  distinct := by
    have ascending := sound.numbered.ascending
    exact List.pairwise_map.mpr (ascending.imp Nat.ne_of_lt)
  fresh _ _ := rfl
  below := ReplayEngine.below_start sound _ _
  watched := by
    constructor
    · intro token
      constructor
      · exact fun recorded => absurd recorded List.not_mem_nil
      · rintro ⟨future, held, _⟩
        cases held
    · rintro token future ⟨held, _⟩
      cases held

/-- A bound token that holds a future is bound to the event that schedules it. -/
theorem scheduled (booked : Booked ⟨engine, unread, waiting, ctx⟩) {token id : Nat} {kind : ScheduleKind}
    (bound : ctx.tokenBindings token = some id) (held : ctx.kindOf token = some kind) :
    ∃ event ∈ engine.baselineHistory ++ engine.historyDelta, event.eventId = id ∧
      event.kind.futureKind token = some kind ∧ ∀ name child input,
        event.kind = .subOrchestrationScheduled name child input → ctx.subOrchestrationInstances token = some child := by
  obtain ⟨events, linked, members⟩ := booked.linked
  obtain ⟨event, member, same, future⟩ := linked.origin token id kind bound held
  refine ⟨event, members event member, same, future, fun name child input schedules => ?_⟩
  obtain ⟨other, found, _, booked⟩ := linked.booked event member (by rw [schedules]; rfl)
  rw [same, linked.paired, (linked.paired token id).mp bound] at found
  cases found
  exact booked name child input schedules

/-- A schedule that was dropped is in the history, as one of its kind. -/
theorem scheduled_of_dropped (booked : Booked ⟨engine, unread, waiting, ctx⟩) {droppable : Droppable} {id : Nat}
    (dropped : ctx.Dropped droppable id) :
    ∃ event ∈ engine.baselineHistory ++ engine.historyDelta, event.eventId = id ∧ droppable.isSchedule event.kind := by
  obtain ⟨token, future, dropped, holds, bound⟩ := dropped
  obtain ⟨event, member, same, kind, _⟩ := booked.scheduled bound dropped.kindOf
  refine ⟨event, member, same, (droppable.isSchedule_iff event.kind token).mpr ?_⟩
  rw [kind]
  exact holds

/-- The child of a dropped sub-orchestration is the one that its event names. -/
theorem child_of_dropped (booked : Booked ⟨engine, unread, waiting, ctx⟩) {token id : Nat} {future : DurableFuture}
    (dropped : ctx.IsDropped token future) (holds : Droppable.subOrchestration.holds future.kind)
    (bound : ctx.tokenBindings token = some id) :
    future.kind = .subOrchestration token ∧ ∃ event ∈ engine.baselineHistory ++ engine.historyDelta, event.eventId = id ∧
      ∃ name child input, event.kind = .subOrchestrationScheduled name child input ∧
        ctx.subOrchestrationInstances token = some child := by
  obtain ⟨event, member, same, kind, child⟩ := booked.scheduled bound dropped.kindOf
  generalize future.kind = held at holds kind ⊢
  cases held with
  | subOrchestration other =>
    cases scheduled : event.kind <;> rw [scheduled] at kind <;> cases kind
    exact ⟨rfl, event, member, same, _, _, _, scheduled, child _ _ _ scheduled⟩
  | _ => cases holds

/-- The sub-orchestrations that a context reports as dropped. -/
theorem mem_children_iff (booked : Booked ⟨engine, unread, waiting, ctx⟩) {id : Nat} {child : String} :
    (id, child) ∈ ctx.getCancelledSubOrchestrationCancellations ↔ ∃ token future, ctx.IsDropped token future ∧
      Droppable.subOrchestration.holds future.kind ∧ ctx.tokenBindings token = some id ∧
        ctx.subOrchestrationInstances token = some child := by
  unfold CtxInner.getCancelledSubOrchestrationCancellations
  rw [List.mem_filterMap]
  constructor
  · rintro ⟨token, member, reported⟩
    obtain ⟨future, dropped⟩ := (booked.watched.tokens token).mp member
    rw [booked.watched.kinds token future dropped] at reported
    generalize same : future.kind = kind at reported
    cases kind with
    | subOrchestration other =>
      obtain ⟨schedule, bound, reported⟩ := Option.bind_eq_some_iff.mp reported
      obtain ⟨name, named, reported⟩ := Option.bind_eq_some_iff.mp reported
      cases reported
      have holds : Droppable.subOrchestration.holds future.kind := by
        rw [same]
        rfl
      have own := (booked.child_of_dropped dropped holds bound).1
      rw [same] at own
      cases own
      exact ⟨token, future, dropped, holds, bound, named⟩
    | _ => cases reported
  · rintro ⟨token, future, dropped, holds, bound, named⟩
    refine ⟨token, (booked.watched.tokens token).mpr ⟨future, dropped⟩, ?_⟩
    rw [booked.watched.kinds token future dropped, (booked.child_of_dropped dropped holds bound).1]
    simp only [bound, named]
    rfl

/-- The schedules of one kind that a context reports as dropped, where the kind is told by the future alone. -/
theorem mem_cancelledIds_iff (booked : Booked ⟨engine, unread, waiting, ctx⟩) {droppable : Droppable} (id : Nat) :
    id ∈ ctx.cancelledIds droppable.holds ↔ ctx.Dropped droppable id := by
  unfold CtxInner.cancelledIds
  rw [List.mem_filterMap]
  constructor
  · rintro ⟨token, member, reported⟩
    obtain ⟨future, dropped⟩ := (booked.watched.tokens token).mp member
    rw [booked.watched.kinds token future dropped, Option.any_some] at reported
    split_ifs at reported with holds
    exact ⟨token, future, dropped, holds, reported⟩
  · rintro ⟨token, future, dropped, holds, bound⟩
    refine ⟨token, (booked.watched.tokens token).mpr ⟨future, dropped⟩, ?_⟩
    rw [booked.watched.kinds token future dropped, Option.any_some, if_pos holds, bound]

/-- A context reports the schedules whose futures were dropped. -/
theorem mem_cancelled_iff (booked : Booked ⟨engine, unread, waiting, ctx⟩) (droppable : Droppable) (id : Nat) :
    id ∈ droppable.cancelled ctx ↔ ctx.Dropped droppable id := by
  have held : ∀ test : ScheduleKind → Bool, test = droppable.holds →
      (id ∈ ctx.cancelledIds test ↔ ctx.Dropped droppable id) := by
    rintro _ rfl
    exact booked.mem_cancelledIds_iff id
  cases droppable with
  | activity | externalWait | queueDequeue =>
    apply held
    funext kind
    cases kind <;> rfl
  | subOrchestration =>
    change id ∈ ctx.getCancelledSubOrchestrationCancellations.map (·.1) ↔ _
    rw [List.mem_map]
    constructor
    · rintro ⟨⟨_, child⟩, member, rfl⟩
      obtain ⟨token, future, dropped, holds, bound, _⟩ := booked.mem_children_iff.mp member
      exact ⟨token, future, dropped, holds, bound⟩
    · rintro ⟨token, future, dropped, holds, bound⟩
      obtain ⟨_, _, _, _, _, child, _, _, named⟩ := booked.child_of_dropped dropped holds bound
      exact ⟨(id, child), booked.mem_children_iff.mpr ⟨token, future, dropped, holds, bound, named⟩, rfl⟩

/-- A dropped schedule is of one kind. -/
theorem droppable_eq (booked : Booked ⟨engine, unread, waiting, ctx⟩) {first second : Droppable} {id : Nat}
    (left : ctx.Dropped first id) (right : ctx.Dropped second id) : first = second := by
  obtain ⟨events, linked, _⟩ := booked.linked
  obtain ⟨token, future, dropped, holds, bound⟩ := left
  obtain ⟨other, held, dropped', holds', bound'⟩ := right
  have same : other = token := by
    rw [linked.paired] at bound bound'
    exact Option.some.inj (bound'.symm.trans bound)
  subst same
  obtain rfl : held = future := Option.some.inj (dropped'.1.symm.trans dropped.1)
  exact Droppable.eq_of_holds holds holds'

end Booked

end Evaluation

/-! ## Breadcrumbs -/

/-- The schedules with a breadcrumb of one kind that says their future was dropped. -/
def droppedSources (droppable : Droppable) (events : List Event) : List Nat :=
  events.filterMap fun event =>
    if droppable.reasonOf event.kind = some ReplayEngine.droppedFuture then event.sourceEventId else none

theorem droppedSources_append (droppable : Droppable) (first second : List Event) :
    droppedSources droppable (first ++ second) = droppedSources droppable first ++ droppedSources droppable second :=
  List.filterMap_append

theorem mem_droppedSources {droppable : Droppable} {events : List Event} {id : Nat} :
    id ∈ droppedSources droppable events ↔ ∃ event ∈ events,
      droppable.reasonOf event.kind = some ReplayEngine.droppedFuture ∧ event.sourceEventId = some id := by
  simp only [droppedSources, List.mem_filterMap, Option.ite_none_right_eq_some]

theorem droppedSources_of_silent {events : List Event} (silent : ∀ event ∈ events, event.kind.isBreadcrumb = false)
    (droppable : Droppable) : droppedSources droppable events = [] := by
  refine List.filterMap_eq_nil_iff.mpr fun event member => ?_
  split_ifs with dropped
  · have crumb := droppable.isBreadcrumb_breadcrumb ReplayEngine.droppedFuture
    rw [← Droppable.eq_breadcrumb dropped, silent event member] at crumb
    cases crumb
  · rfl

namespace ReplayEngine

variable {engine before result : ReplayEngine} {ctx after : CtxInner} {events : List Event} {ids : List Nat}

theorem Breadcrumbs.droppedSources {droppable : Droppable}
    (crumbs : Breadcrumbs (droppable.breadcrumb droppedFuture) ids before result events) (other : Droppable) :
    Duroxide.droppedSources other events = if other = droppable then ids else [] := by
  have read : Duroxide.droppedSources other events =
      events.filterMap fun event => if other = droppable then event.sourceEventId else none := by
    refine List.filterMap_congr fun event member => ?_
    rw [crumbs.kinds event member, Droppable.reasonOf_breadcrumb]
    rcases eq_or_ne other droppable with same | different
    · simp only [same, if_true]
    · simp only [different, if_false, reduceCtorEq]
  rw [read]
  split_ifs
  · have sources := congrArg (List.filterMap id) crumbs.sources
    rw [List.filterMap_map, List.filterMap_map] at sources
    exact sources.trans List.filterMap_some
  · exact List.filterMap_eq_nil_iff.mpr fun _ _ => rfl

theorem Breadcrumbs.sourced {kind : EventKind} (crumbs : Breadcrumbs kind ids before result events) :
    ∀ event ∈ events, event.sourceEventId.isSome := by
  intro event member
  have listed : event.sourceEventId ∈ events.map (·.sourceEventId) := List.mem_map_of_mem member
  rw [crumbs.sources] at listed
  obtain ⟨id, _, source⟩ := List.mem_map.mp listed
  rw [← source]
  rfl

/-- Breadcrumbs of other kinds cancel nothing of this kind. -/
theorem Breadcrumbs.alreadyCancelled {droppable other : Droppable} (different : other ≠ droppable)
    (crumbs : Breadcrumbs (droppable.breadcrumb droppedFuture) ids before result events) :
    result.alreadyCancelled other.reasonOf = before.alreadyCancelled other.reasonOf := by
  have none : events.filterMap (fun event =>
      if (other.reasonOf event.kind).isSome then event.sourceEventId else none) = [] := by
    refine List.filterMap_eq_nil_iff.mpr fun event member => ?_
    rw [crumbs.kinds event member, Droppable.reasonOf_breadcrumb, if_neg different]
    rfl
  unfold ReplayEngine.alreadyCancelled
  rw [crumbs.same, ← List.append_assoc, List.filterMap_append, none, List.append_nil]

/-- What the reconciliation of dropped futures with history comes to. -/
structure Reconciled (engine : ReplayEngine) (ctx : CtxInner) (result : ReplayEngine) (recorded : Droppable → List Nat)
    (events : List Event) : Prop where
  baseline : result.baselineHistory = engine.baselineHistory
  delta : result.historyDelta = engine.historyDelta ++ events
  reproduced : ∀ droppable : Droppable,
    engine.cancellationsReproduced droppable.reasonOf droppable.isSchedule (droppable.cancelled ctx)
  listed : ∀ (droppable : Droppable) (id : Nat), id ∈ recorded droppable ↔
    id ∈ droppable.cancelled ctx ∧ id ∉ engine.alreadyCancelled droppable.reasonOf
  distinct : ∀ droppable, (recorded droppable).Nodup
  crumbs : ∀ event ∈ events, event.sourceEventId.isSome ∧
    ∃ droppable : Droppable, event.kind = droppable.breadcrumb droppedFuture
  sources : ∀ droppable, droppedSources droppable events = recorded droppable
  activities : result.cancelledActivityIds = engine.cancelledActivityIds ++ recorded .activity
  children : result.cancelledSubOrchestrationIds = engine.cancelledSubOrchestrationIds ++
    (recorded .subOrchestration).filterMap fun id =>
      (ctx.getCancelledSubOrchestrationCancellations.find? (·.1 == id)).map (·.2)

/-- One recording of breadcrumbs, with what it recorded. -/
theorem recordCancellations_cases (droppable : Droppable) (ids seen : List Nat) (engine : ReplayEngine) :
    ∃ recorded after events, recordCancellations (droppable.breadcrumb droppedFuture) ids seen engine = (recorded, after) ∧
      Breadcrumbs (droppable.breadcrumb droppedFuture) recorded engine after events ∧ recorded.Nodup ∧
      ∀ id, id ∈ recorded ↔ id ∈ ids ∧ id ∉ seen := by
  obtain ⟨⟨events, crumbs⟩, distinct, listed⟩ :=
    recordCancellations_spec (droppable.breadcrumb droppedFuture) ids seen engine
  exact ⟨_, _, events, rfl, crumbs, distinct, listed⟩

theorem reconciled_of_ok (collected : engine.collectCancelledFromContext ctx = .ok (result, after)) :
    ∃ recorded events, Reconciled engine ctx result recorded events := by
  obtain ⟨activities, first, activityEvents, recordsActivities, activity, activityDistinct, activityListed⟩ :=
    recordCancellations_cases .activity ctx.getCancelledActivityIds (engine.alreadyCancelled activityCancelReason) engine
  obtain ⟨children, second, childEvents, recordsChildren, child, childDistinct, childListed⟩ :=
    recordCancellations_cases .subOrchestration (ctx.getCancelledSubOrchestrationCancellations.map (·.1))
      (engine.alreadyCancelled subOrchestrationCancelReason) first
  obtain ⟨externals, third, externalEvents, recordsExternals, external, externalDistinct, externalListed⟩ :=
    recordCancellations_cases .externalWait ctx.getCancelledExternalWaitIds
      (engine.alreadyCancelled externalCancelReason) second
  obtain ⟨queues, fourth, queueEvents, recordsQueues, queue, queueDistinct, queueListed⟩ :=
    recordCancellations_cases .queueDequeue ctx.getCancelledQueueIds (third.alreadyCancelled queueCancelReason) third
  have unseen : third.alreadyCancelled queueCancelReason = engine.alreadyCancelled queueCancelReason := by
    have afterThird := external.alreadyCancelled (show Droppable.queueDequeue ≠ .externalWait by decide)
    have afterSecond := child.alreadyCancelled (show Droppable.queueDequeue ≠ .subOrchestration by decide)
    have afterFirst := activity.alreadyCancelled (show Droppable.queueDequeue ≠ .activity by decide)
    exact afterThird.trans (afterSecond.trans afterFirst)
  rw [unseen] at queueListed
  unfold collectCancelledFromContext at collected
  dsimp only at collected
  split_ifs at collected
  rename_i activitiesMatch childrenMatch externalsMatch queuesMatch
  simp only [Bool.not_eq_true', Bool.not_eq_false] at activitiesMatch childrenMatch externalsMatch queuesMatch
  dsimp only [Droppable.breadcrumb] at recordsActivities recordsChildren recordsExternals recordsQueues
  rw [recordsActivities] at collected
  dsimp only at collected
  rw [recordsChildren] at collected
  dsimp only at collected
  rw [recordsExternals] at collected
  dsimp only at collected
  rw [recordsQueues] at collected
  cases collected
  have same := queue.same
  rw [external.same, child.same, activity.same] at same
  have recorded : ∃ recorded : Droppable → List Nat, recorded .activity = activities ∧
      recorded .subOrchestration = children ∧ recorded .externalWait = externals ∧ recorded .queueDequeue = queues :=
    ⟨Droppable.rec activities children externals queues, rfl, rfl, rfl, rfl⟩
  obtain ⟨recorded, rfl, rfl, rfl, rfl⟩ := recorded
  refine ⟨recorded, activityEvents ++ childEvents ++ externalEvents ++ queueEvents, ?_⟩
  constructor
  · rw [same]
  · rw [same]
    simp only [List.append_assoc]
  · intro droppable
    cases droppable <;> assumption
  · intro droppable
    cases droppable
    exacts [activityListed, childListed, externalListed, queueListed]
  · intro droppable
    cases droppable <;> assumption
  · intro event member
    simp only [List.mem_append] at member
    rcases member with ((inActivities | inChildren) | inExternals) | inQueues
    · exact ⟨activity.sourced event inActivities, .activity, activity.kinds event inActivities⟩
    · exact ⟨child.sourced event inChildren, .subOrchestration, child.kinds event inChildren⟩
    · exact ⟨external.sourced event inExternals, .externalWait, external.kinds event inExternals⟩
    · exact ⟨queue.sourced event inQueues, .queueDequeue, queue.kinds event inQueues⟩
  · intro droppable
    rw [droppedSources_append, droppedSources_append, droppedSources_append, activity.droppedSources,
      child.droppedSources, external.droppedSources, queue.droppedSources]
    cases droppable <;> simp
  · rw [same]
  · rw [same]

/-! ## The end of an evaluation -/

variable {handler : OrchestrationHandler} {input orchestrationName orchestrationVersion : String}

/-- The context in which an evaluation leaves its program. -/
def evaluatedCtx (engine : ReplayEngine) (handler : OrchestrationHandler)
    (input orchestrationName orchestrationVersion : String) : Option CtxInner :=
  if engine.evaluates then
    match (engine.evaluate handler input orchestrationName orchestrationVersion).1 with
    | .ok replay => some replay.ctx
    | .error _ => none
  else none

/-- Dropped futures alone left the breadcrumbs of a history, and no schedule has two of them. -/
structure Tidy (history : List Event) : Prop where
  dropped : ∀ event ∈ history, event.kind.isBreadcrumb →
    ∃ droppable : Droppable, event.kind = droppable.breadcrumb droppedFuture
  once : ∀ first ∈ history, ∀ second ∈ history, first.kind.isBreadcrumb → second.kind.isBreadcrumb →
    first.sourceEventId = second.sourceEventId → first = second

/-- Other events leave a history tidy. -/
theorem Tidy.append {history : List Event} (tidy : Tidy history) {other : List Event}
    (silent : ∀ event ∈ other, event.kind.isBreadcrumb = false) : Tidy (history ++ other) := by
  have old : ∀ event ∈ history ++ other, event.kind.isBreadcrumb → event ∈ history := by
    intro event member crumb
    apply (List.mem_append.mp member).resolve_right
    intro new
    rw [silent event new] at crumb
    cases crumb
  constructor
  · exact fun event member crumb => tidy.dropped event (old event member crumb) crumb
  · intro first firstMember second secondMember firstCrumb secondCrumb
    exact tidy.once first (old first firstMember firstCrumb) second (old second secondMember secondCrumb) firstCrumb
      secondCrumb

/-- The child that a history schedules under an event id. -/
def childScheduled (history : List Event) (id : Nat) : Option String :=
  history.findSome? fun event =>
    match event.kind with
    | .subOrchestrationScheduled _ child _ => if event.eventId = id then some child else none
    | _ => none

/-- The breadcrumbs of a history are those of the futures that a program has dropped, and an engine cancels what it
left a new breadcrumb for. -/
structure Accounted (ctx : CtxInner) (history : List Event) (engine : ReplayEngine) : Prop where
  exact : ∀ droppable id, id ∈ droppedSources droppable history ↔ ctx.Dropped droppable id
  tidy : Tidy history
  scheduled : ∀ droppable, ∀ id ∈ droppedSources droppable history,
    ∃ event ∈ history, event.eventId = id ∧ droppable.isSchedule event.kind
  activities : engine.cancelledActivityIds = droppedSources .activity engine.historyDelta
  children : (droppedSources .subOrchestration engine.historyDelta).map (childScheduled history) =
    engine.cancelledSubOrchestrationIds.map some

/-- An engine over a tidy history that has left no breadcrumb and cancelled nothing yet. -/
structure Unmarked (engine : ReplayEngine) : Prop where
  sound : Sound engine
  tidy : Tidy engine.baselineHistory
  opened : ∀ event ∈ engine.baselineHistory.drop engine.persistedHistoryLen, event.kind.isBreadcrumb = false
  silent : ∀ event ∈ engine.historyDelta, event.kind.isBreadcrumb = false
  activities : engine.cancelledActivityIds = []
  children : engine.cancelledSubOrchestrationIds = []

/-- Until the reconciliation nothing leaves a breadcrumb. -/
theorem Unmarked.droppedSources_delta (unmarked : Unmarked engine) (converted : Converted engine result)
    (droppable : Droppable) : droppedSources droppable result.historyDelta = [] := by
  obtain ⟨events, delta, kinds⟩ := converted.delta
  rw [delta]
  apply droppedSources_of_silent
  intro event member
  rcases List.mem_append.mp member with old | new
  · exact unmarked.silent event old
  · exact (kinds event new).1

/-- The breadcrumbs before the reconciliation are those that were persisted. -/
theorem Unmarked.droppedSources_eq (unmarked : Unmarked engine) (converted : Converted engine result)
    (droppable : Droppable) :
    droppedSources droppable (result.baselineHistory ++ result.historyDelta) = result.baselineDropped droppable.reasonOf := by
  rw [droppedSources_append, unmarked.droppedSources_delta converted, List.append_nil, converted.baseline, baselineDropped,
    converted.baseline, converted.persisted]
  conv_lhs => rw [← List.take_append_drop engine.persistedHistoryLen engine.baselineHistory]
  rw [droppedSources_append, droppedSources_of_silent unmarked.opened, List.append_nil]
  rfl

theorem Unmarked.tidy_of_converted (unmarked : Unmarked engine) (converted : Converted engine result) :
    Tidy (result.baselineHistory ++ result.historyDelta) := by
  obtain ⟨events, delta, kinds⟩ := converted.delta
  rw [converted.baseline, delta]
  refine unmarked.tidy.append fun event member => ?_
  rcases List.mem_append.mp member with prepared | recorded
  · exact unmarked.silent event prepared
  · exact (kinds event recorded).1

/-- In a tidy history every breadcrumb says that a future was dropped. -/
theorem Tidy.alreadyCancelled_eq (tidy : Tidy (engine.baselineHistory ++ engine.historyDelta)) (droppable : Droppable) :
    engine.alreadyCancelled droppable.reasonOf =
      droppedSources droppable (engine.baselineHistory ++ engine.historyDelta) := by
  refine List.filterMap_congr fun event member => ?_
  rcases reason : droppable.reasonOf event.kind with _ | reason'
  · rfl
  · have kind := Droppable.eq_breadcrumb reason
    obtain ⟨other, dropped⟩ := tidy.dropped event member (kind ▸ droppable.isBreadcrumb_breadcrumb reason')
    rw [dropped, Droppable.reasonOf_breadcrumb] at reason
    split_ifs at reason
    cases reason
    rfl

/-- Without repetition among the sources of a kind, a schedule has one breadcrumb of the kind. -/
theorem eq_of_droppedSources {droppable : Droppable} (distinct : (droppedSources droppable events).Nodup)
    {first second : Event} (firstMember : first ∈ events) (secondMember : second ∈ events)
    (firstKind : first.kind = droppable.breadcrumb droppedFuture)
    (secondKind : second.kind = droppable.breadcrumb droppedFuture) {id : Nat} (firstSource : first.sourceEventId = some id)
    (secondSource : second.sourceEventId = some id) : first = second := by
  by_contra different
  have apart := List.pairwise_filterMap.mp distinct
  have symmetric : Std.Symm fun left right : Event =>
      ∀ id, (if droppable.reasonOf left.kind = some droppedFuture then left.sourceEventId else none) = some id →
        ∀ other, (if droppable.reasonOf right.kind = some droppedFuture then right.sourceEventId else none) = some other →
          id ≠ other := ⟨fun _ _ apart id left other right => (apart other right id left).symm⟩
  refine apart.forall firstMember secondMember different id ?_ id ?_ rfl
  · rw [firstKind, Droppable.reasonOf_breadcrumb, if_pos rfl, if_pos rfl, firstSource]
  · rw [secondKind, Droppable.reasonOf_breadcrumb, if_pos rfl, if_pos rfl, secondSource]

theorem eq_of_eventId {history : List Event} (ascending : Ascending history) {first second : Event}
    (firstMember : first ∈ history) (secondMember : second ∈ history) (same : first.eventId = second.eventId) :
    first = second := by
  have distinct : (history.map (·.eventId)).Nodup := List.pairwise_map.mpr (ascending.imp Nat.ne_of_lt)
  exact List.inj_on_of_nodup_map distinct firstMember secondMember same

/-- A history schedules one child under an event id. -/
theorem childScheduled_eq {history : List Event} (ascending : Ascending history) {event : Event} (member : event ∈ history)
    {name child input : String} (schedules : event.kind = .subOrchestrationScheduled name child input) :
    childScheduled history event.eventId = some child := by
  have found : (childScheduled history event.eventId).isSome := by
    rw [childScheduled, List.findSome?_isSome_iff]
    refine ⟨event, member, ?_⟩
    rw [schedules]
    simp only [if_true, Option.isSome_some]
  obtain ⟨other, named⟩ := Option.isSome_iff_exists.mp found
  obtain ⟨source, sourceMember, names⟩ := List.exists_of_findSome?_eq_some named
  split at names
  · rename_i kind
    split_ifs at names with same
    cases names
    rw [eq_of_eventId ascending sourceMember member same, schedules] at kind
    cases kind
    exact named
  · cases names

theorem map_eq_of_filterMap {ids : List Nat} {first second : Nat → Option String}
    (same : ∀ id ∈ ids, ∃ child, first id = some child ∧ second id = some child) :
    ids.map first = (ids.filterMap second).map some := by
  induction ids with
  | nil => rfl
  | cons id rest ih =>
    obtain ⟨child, left, right⟩ := same id List.mem_cons_self
    rw [List.map_cons, List.filterMap_cons, right, ih fun other member => same other (List.mem_cons_of_mem id member), left]
    rfl

/-- At the end of an evaluation the schedules of the program are booked. -/
theorem booked_of_evaluate (sound : Sound engine) {replay : Replay handler.State}
    (evaluated : engine.evaluate handler input orchestrationName orchestrationVersion = (.ok replay, result)) :
    ∃ unread, Evaluation.Booked ⟨result, unread, replay.emittedActions, replay.ctx⟩ := by
  obtain ⟨last, ends⟩ := Evaluation.ends_evaluate engine handler input orchestrationName orchestrationVersion
  rw [evaluated] at ends
  have booked := (Evaluation.Booked.start sound orchestrationName orchestrationVersion).steps ends.steps
  rw [ends.state replay rfl] at booked
  obtain rfl : last.engine = result := ends.engine_eq
  exact ⟨last.unread, booked⟩

section Reconciling

variable {middle : ReplayEngine} {unread : List Event} {waiting : List (Nat × Action)} {recorded : Droppable → List Nat}

/-- The breadcrumbs that an engine records are for dropped schedules that had none. -/
theorem Reconciled.recorded_iff (reconciled : Reconciled middle ctx result recorded events)
    (booked : Evaluation.Booked ⟨middle, unread, waiting, ctx⟩) (tidy : Tidy (middle.baselineHistory ++ middle.historyDelta))
    (droppable : Droppable) (id : Nat) : id ∈ recorded droppable ↔ ctx.Dropped droppable id ∧
      id ∉ droppedSources droppable (middle.baselineHistory ++ middle.historyDelta) := by
  rw [reconciled.listed, booked.mem_cancelled_iff, tidy.alreadyCancelled_eq]

/-- Breadcrumbs from before were persisted, and what was persisted is dropped again. -/
theorem Reconciled.dropped_again (reconciled : Reconciled middle ctx result recorded events) (unmarked : Unmarked engine)
    (converted : Converted engine middle) (booked : Evaluation.Booked ⟨middle, unread, waiting, ctx⟩)
    {droppable : Droppable} {id : Nat}
    (member : id ∈ droppedSources droppable (middle.baselineHistory ++ middle.historyDelta)) : ctx.Dropped droppable id := by
  rw [unmarked.droppedSources_eq converted] at member
  have reproduces := List.all_eq_true.mp (reconciled.reproduced droppable) id member
  simp only [Bool.and_eq_true, decide_eq_true_eq] at reproduces
  exact (booked.mem_cancelled_iff droppable id).mp reproduces.1

/-- A recorded breadcrumb is for a dropped schedule that had none. -/
theorem Reconciled.dropped_of_event (reconciled : Reconciled middle ctx result recorded events) {event : Event}
    (member : event ∈ events) : ∃ droppable id, event.kind = Droppable.breadcrumb droppable droppedFuture ∧
      event.sourceEventId = some id ∧ id ∈ recorded droppable := by
  obtain ⟨sourced, droppable, kind⟩ := reconciled.crumbs event member
  obtain ⟨id, source⟩ := Option.isSome_iff_exists.mp sourced
  refine ⟨droppable, id, kind, source, ?_⟩
  rw [← reconciled.sources, mem_droppedSources]
  exact ⟨event, member, by rw [kind, Droppable.reasonOf_breadcrumb, if_pos rfl], source⟩

theorem Reconciled.tidy (reconciled : Reconciled middle ctx result recorded events) (unmarked : Unmarked engine)
    (converted : Converted engine middle) (booked : Evaluation.Booked ⟨middle, unread, waiting, ctx⟩) :
    Tidy ((middle.baselineHistory ++ middle.historyDelta) ++ events) := by
  have tidy := unmarked.tidy_of_converted converted
  -- A breadcrumb from before and a new one are for different schedules.
  have apart : ∀ old ∈ middle.baselineHistory ++ middle.historyDelta, old.kind.isBreadcrumb → ∀ new ∈ events,
      old.sourceEventId ≠ new.sourceEventId := by
    intro old oldMember crumb new newMember same
    obtain ⟨droppable, oldKind⟩ := tidy.dropped old oldMember crumb
    obtain ⟨other, id, newKind, source, isNew⟩ := reconciled.dropped_of_event newMember
    obtain ⟨dropped, unseen⟩ := (reconciled.recorded_iff booked tidy other id).mp isNew
    have seen : id ∈ droppedSources droppable (middle.baselineHistory ++ middle.historyDelta) := by
      rw [mem_droppedSources]
      exact ⟨old, oldMember, by rw [oldKind, Droppable.reasonOf_breadcrumb, if_pos rfl], same.trans source⟩
    rw [booked.droppable_eq (reconciled.dropped_again unmarked converted booked seen) dropped] at seen
    exact unseen seen
  constructor
  · intro event member crumb
    rcases List.mem_append.mp member with old | new
    · exact tidy.dropped event old crumb
    · exact (reconciled.crumbs event new).2
  · intro first firstMember second secondMember firstCrumb secondCrumb same
    rcases List.mem_append.mp firstMember with firstOld | firstNew <;>
      rcases List.mem_append.mp secondMember with secondOld | secondNew
    · exact tidy.once first firstOld second secondOld firstCrumb secondCrumb same
    · exact absurd same (apart first firstOld firstCrumb second secondNew)
    · exact absurd same.symm (apart second secondOld secondCrumb first firstNew)
    · obtain ⟨droppable, id, firstKind, firstSource, isNew⟩ := reconciled.dropped_of_event firstNew
      obtain ⟨other, id', secondKind, secondSource, isNew'⟩ := reconciled.dropped_of_event secondNew
      obtain rfl : id' = id := Option.some.inj (secondSource.symm.trans (same.symm.trans firstSource))
      have dropped := ((reconciled.recorded_iff booked tidy droppable id').mp isNew).1
      have dropped' := ((reconciled.recorded_iff booked tidy other id').mp isNew').1
      obtain rfl := booked.droppable_eq dropped dropped'
      have distinct := reconciled.distinct droppable
      rw [← reconciled.sources] at distinct
      exact eq_of_droppedSources distinct firstNew secondNew firstKind secondKind firstSource secondSource

/-- The new breadcrumbs of sub-orchestrations are for the children that the engine cancels. -/
theorem Reconciled.children_eq (reconciled : Reconciled middle ctx result recorded events) (unmarked : Unmarked engine)
    (converted : Converted engine middle) (booked : Evaluation.Booked ⟨middle, unread, waiting, ctx⟩)
    (ascending : Ascending (result.baselineHistory ++ result.historyDelta)) :
    (recorded .subOrchestration).map (childScheduled (result.baselineHistory ++ result.historyDelta)) =
      result.cancelledSubOrchestrationIds.map some := by
  rw [reconciled.children, converted.children, unmarked.children, List.nil_append]
  refine map_eq_of_filterMap fun id isNew => ?_
  obtain ⟨dropped, _⟩ := (reconciled.listed .subOrchestration id).mp isNew
  obtain ⟨reported, member, same⟩ := List.mem_map.mp dropped
  rcases found : ctx.getCancelledSubOrchestrationCancellations.find? (·.1 == id) with _ | ⟨other, named⟩
  · exact absurd (beq_iff_eq.mpr same) (List.find?_eq_none.mp found reported member)
  have matched := List.find?_some found
  obtain rfl : other = id := beq_iff_eq.mp matched
  obtain ⟨token, future, isDropped, holds, bound, instance'⟩ :=
    booked.mem_children_iff.mp (List.mem_of_find?_eq_some found)
  obtain ⟨_, event, inMiddle, eventId, _, _, _, schedules, instance''⟩ :=
    booked.child_of_dropped isDropped holds bound
  rw [instance'] at instance''
  cases instance''
  have present : event ∈ result.baselineHistory ++ result.historyDelta := by
    rw [reconciled.baseline, reconciled.delta, ← List.append_assoc]
    exact List.mem_append_left _ inMiddle
  rw [← eventId]
  exact ⟨named, childScheduled_eq ascending present schedules, by rw [eventId, found]; rfl⟩

end Reconciling

theorem accounted_of_reconciled (unmarked : Unmarked engine) {replay : Replay handler.State} {middle : ReplayEngine}
    (evaluated : engine.evaluate handler input orchestrationName orchestrationVersion = (.ok replay, middle))
    {recorded : Droppable → List Nat} (ascending : Ascending (result.baselineHistory ++ result.historyDelta))
    (reconciled : Reconciled middle replay.ctx result recorded events) :
    Accounted replay.ctx (result.baselineHistory ++ result.historyDelta) result := by
  have converted := (converted_of_evaluate unmarked.sound evaluated).1
  obtain ⟨unread, booked⟩ := booked_of_evaluate unmarked.sound evaluated
  have tidy := unmarked.tidy_of_converted converted
  have history : result.baselineHistory ++ result.historyDelta =
      (middle.baselineHistory ++ middle.historyDelta) ++ events := by
    rw [reconciled.baseline, reconciled.delta, List.append_assoc]
  have exactly : ∀ droppable id, id ∈ droppedSources droppable (result.baselineHistory ++ result.historyDelta) ↔
      replay.ctx.Dropped droppable id := by
    intro droppable id
    rw [history, droppedSources_append, reconciled.sources, List.mem_append, reconciled.recorded_iff booked tidy]
    constructor
    · rintro (old | ⟨dropped, _⟩)
      · exact reconciled.dropped_again unmarked converted booked old
      · exact dropped
    · intro dropped
      rcases em (id ∈ droppedSources droppable (middle.baselineHistory ++ middle.historyDelta)) with old | new
      · exact .inl old
      · exact .inr ⟨dropped, new⟩
  have recordedNow : ∀ droppable, droppedSources droppable result.historyDelta = recorded droppable := by
    intro droppable
    rw [reconciled.delta, droppedSources_append, reconciled.sources, unmarked.droppedSources_delta converted,
      List.nil_append]
  constructor
  · exact exactly
  · rw [history]
    exact reconciled.tidy unmarked converted booked
  · intro droppable id member
    obtain ⟨event, member, same, schedules⟩ := booked.scheduled_of_dropped ((exactly droppable id).mp member)
    exact ⟨event, history ▸ List.mem_append_left _ member, same, schedules⟩
  · rw [recordedNow, reconciled.activities, converted.activities, unmarked.activities, List.nil_append]
  · rw [recordedNow]
    exact reconciled.children_eq unmarked converted booked ascending

end ReplayEngine

end Duroxide
