import Duroxide.Proofs.DroppedFutures

/-! # Tokens and schedules

Every durable operation gets a token when the program starts it and a schedule id when an event records it. Between
the two it waits; from then on the token and the schedule name each other, and the future of the token has the
kind of the event.
-/

namespace Duroxide

/-- The kind of the future that an action hands out under a token. -/
def Action.futureKind (token : Nat) : Action → Option ScheduleKind
  | .callActivity _ name .. => some (.activity name)
  | .createTimer .. => some .timer
  | .waitExternal _ name => some (.externalWait name)
  | .dequeueEvent _ name => some (.queueDequeue name)
  | .startSubOrchestration .. => some (.subOrchestration token)
  | _ => none

/-- The kind of the future that an event records. -/
def EventKind.futureKind (token : Nat) : EventKind → Option ScheduleKind
  | .activityScheduled name .. => some (.activity name)
  | .timerCreated _ => some .timer
  | .externalSubscribed name => some (.externalWait name)
  | .queueSubscribed name => some (.queueDequeue name)
  | .subOrchestrationScheduled .. => some (.subOrchestration token)
  | _ => none

/-- An action and an event that match are about futures of one kind. -/
theorem futureKind_of_matches {action : Action} {kind : EventKind} (matched : actionMatchesEventKind action kind)
    (token : Nat) : action.futureKind token = kind.futureKind token := by
  cases action <;> cases kind <;> first | cases matched; done | skip
  all_goals
    simp only [actionMatchesEventKind, Bool.and_eq_true, beq_iff_eq] at matched
    simp [Action.futureKind, EventKind.futureKind, matched]

@[simp] theorem futureKind_updateActionEventId (token eventId : Nat) (action : Action) :
    (updateActionEventId action eventId).futureKind token = action.futureKind token := by
  cases action <;> rfl

/-- The event of an action records the future that the action hands out. -/
theorem futureKind_of_actionToEvent {stamp : Stamp} {action : Action} {instanceId : String} {executionId eventId : Nat}
    {event : Event} (recorded : actionToEvent stamp action instanceId executionId eventId = some event) (token : Nat) :
    event.kind.futureKind token = action.futureKind token := by
  cases action <;> cases recorded <;> rfl

/-- An action without an event hands out no future. -/
theorem futureKind_of_unrecorded {stamp : Stamp} {action : Action} {instanceId : String} {executionId eventId : Nat}
    (unrecorded : actionToEvent stamp action instanceId executionId eventId = none) (token : Nat) :
    action.futureKind token = none := by
  cases action <;> first | rfl | cases unrecorded

/-- An operation that waits for its event: its token and the kind of its future. -/
def promise (emitted : Nat × Action) : Nat × Option ScheduleKind := (emitted.1, emitted.2.futureKind emitted.1)

namespace CtxInner

/-- The kind of the future that orchestration code holds under a token. -/
def kindOf (ctx : CtxInner) (token : Nat) : Option ScheduleKind := (ctx.futures token).map (·.kind)

/-- The operations that wait for their events, those that the engine drained and those that it has not. -/
def promises (ctx : CtxInner) (waiting : List (Nat × Action)) : List (Nat × Option ScheduleKind) :=
  (waiting ++ ctx.emittedActions).map promise

/-- The tokens of a context, the operations that wait and the events that were read or recorded agree. -/
structure Linked (events : List Event) (promises : List (Nat × Option ScheduleKind)) (ctx : CtxInner) : Prop where
  issued : ∀ promise ∈ promises, promise.1 ≤ ctx.nextToken
  known : ∀ token, ctx.nextToken < token →
    ctx.kindOf token = none ∧ ctx.tokenBindings token = none ∧ ctx.completionResults token = none
  distinct : (promises.map (·.1)).Nodup
  unbound : ∀ promise ∈ promises, ctx.tokenBindings promise.1 = none ∧ ctx.completionResults promise.1 = none
  promised : ∀ promise ∈ promises, ctx.kindOf promise.1 = promise.2
  paired : ∀ token id, ctx.tokenBindings token = some id ↔ ctx.scheduleBindings id = some token
  origin : ∀ token id kind, ctx.tokenBindings token = some id → ctx.kindOf token = some kind →
    ∃ event ∈ events, event.eventId = id ∧ event.kind.futureKind token = some kind
  booked : ∀ event ∈ events, event.kind.isSchedule → ∃ token, ctx.tokenBindings token = some event.eventId ∧
    ctx.kindOf token = event.kind.futureKind token ∧
    ∀ name child input, event.kind = .subOrchestrationScheduled name child input →
      ctx.subOrchestrationInstances token = some child

namespace Linked

variable {events : List Event} {promises : List (Nat × Option ScheduleKind)} {ctx after : CtxInner}

theorem nil (ctx : CtxInner) (tokens : ctx.tokenBindings = fun _ => none) (schedules : ctx.scheduleBindings = fun _ => none)
    (results : ctx.completionResults = fun _ => none) (futures : ctx.futures = fun _ => none) : Linked [] [] ctx where
  issued := by simp
  known := by simp [kindOf, tokens, results, futures]
  distinct := List.nodup_nil
  unbound := by simp
  promised := by simp
  paired := by simp [tokens, schedules]
  origin := by simp [tokens]
  booked := by simp

/-- The bound tokens are different from those that wait. -/
theorem ne_of_bound (linked : Linked events promises ctx) {token id : Nat} (bound : ctx.tokenBindings token = some id)
    {waiting : Nat × Option ScheduleKind} (member : waiting ∈ promises) : waiting.1 ≠ token := by
  rintro rfl
  rw [(linked.unbound _ member).1] at bound
  cases bound

/-- Nothing changes for the tokens. -/
theorem frame (linked : Linked events promises ctx) (same : SameBindings ctx after) (next : after.nextToken = ctx.nextToken)
    (kinds : ∀ token, after.kindOf token = ctx.kindOf token) : Linked events promises after := by
  constructor
  · simpa only [next] using linked.issued
  · simpa only [next, kinds, same.tokens, same.results] using linked.known
  · exact linked.distinct
  · simpa only [same.tokens, same.results] using linked.unbound
  · simpa only [kinds] using linked.promised
  · simpa only [same.tokens, same.schedules] using linked.paired
  · simpa only [same.tokens, kinds] using linked.origin
  · simpa only [same.tokens, kinds, same.children] using linked.booked

/-- An operation is started under the next token. -/
theorem emit (linked : Linked events promises ctx) (same : SameBindings ctx after) {kind : Option ScheduleKind}
    (next : after.nextToken = ctx.nextToken + 1)
    (kinds : ∀ token, after.kindOf token = if token = ctx.nextToken + 1 then kind else ctx.kindOf token) :
    Linked events (promises ++ [(ctx.nextToken + 1, kind)]) after := by
  have fresh := linked.known (ctx.nextToken + 1) (Nat.lt_succ_self _)
  have old : ∀ token, token ≤ ctx.nextToken → after.kindOf token = ctx.kindOf token := by
    intro token bound
    rw [kinds, if_neg (by omega)]
  have boundOld : ∀ token id, ctx.tokenBindings token = some id → token ≤ ctx.nextToken := by
    intro token id bound
    by_contra above
    rw [(linked.known token (by omega)).2.1] at bound
    cases bound
  constructor
  · intro promise member
    rw [List.mem_append, List.mem_singleton] at member
    rcases member with earlier | rfl
    · have := linked.issued promise earlier
      omega
    · exact next.ge
  · intro token above
    have unknown := linked.known token (by omega)
    rw [kinds, if_neg (by omega), same.tokens, same.results]
    exact unknown
  · rw [List.map_append, List.nodup_append]
    refine ⟨linked.distinct, List.nodup_singleton _, ?_⟩
    intro token member other last
    obtain ⟨promise, earlier, rfl⟩ := List.mem_map.mp member
    have := linked.issued promise earlier
    simp at last
    omega
  · intro promise member
    rw [same.tokens, same.results]
    rw [List.mem_append, List.mem_singleton] at member
    rcases member with earlier | rfl
    · exact linked.unbound promise earlier
    · exact fresh.2
  · intro promise member
    rw [List.mem_append, List.mem_singleton] at member
    rcases member with earlier | rfl
    · rw [old _ (linked.issued promise earlier)]
      exact linked.promised promise earlier
    · rw [kinds, if_pos rfl]
  · simpa only [same.tokens, same.schedules] using linked.paired
  · intro token id found bound
    rw [same.tokens] at bound
    rw [old token (boundOld token id bound)]
    exact linked.origin token id found bound
  · intro event member schedules
    obtain ⟨token, bound, kind', child⟩ := linked.booked event member schedules
    refine ⟨token, by rw [same.tokens, bound], ?_, ?_⟩
    · rw [old token (boundOld token _ bound), kind']
    · rwa [same.children]

/-- The next action of the program that waits is given up. -/
theorem drop {waiting : Nat × Option ScheduleKind} (linked : Linked events (waiting :: promises) ctx) :
    Linked events promises ctx where
  issued promise member := linked.issued promise (List.mem_cons_of_mem _ member)
  known := linked.known
  distinct := (List.nodup_cons.mp linked.distinct).2
  unbound promise member := linked.unbound promise (List.mem_cons_of_mem _ member)
  promised promise member := linked.promised promise (List.mem_cons_of_mem _ member)
  paired := linked.paired
  origin := linked.origin
  booked := linked.booked

/-- An event that no token waits for is read. -/
theorem read (linked : Linked events promises ctx) {event : Event} (noSchedule : event.kind.isSchedule = false) :
    Linked (events ++ [event]) promises ctx where
  issued := linked.issued
  known := linked.known
  distinct := linked.distinct
  unbound := linked.unbound
  promised := linked.promised
  paired := linked.paired
  origin token id kind bound held := by
    obtain ⟨source, member, same⟩ := linked.origin token id kind bound held
    exact ⟨source, List.mem_append_left _ member, same⟩
  booked source member schedules := by
    rw [List.mem_append, List.mem_singleton] at member
    rcases member with earlier | rfl
    · exact linked.booked source earlier schedules
    · rw [noSchedule] at schedules
      cases schedules

/-- The oldest operation that waits is bound to a new schedule, and to the event that records it if one does. -/
theorem bindToken {token scheduleId : Nat} {kind : Option ScheduleKind} (linked : Linked events ((token, kind) :: promises) ctx)
    (fresh : ctx.scheduleBindings scheduleId = none) {recorded : Option Event} (silent : recorded = none → kind = none)
    (records : ∀ event, recorded = some event → event.eventId = scheduleId ∧ event.kind.futureKind token = kind ∧
      ∀ name child input, event.kind = .subOrchestrationScheduled name child input →
        after.subOrchestrationInstances token = some child)
    (bound : after.tokenBindings = Function.update ctx.tokenBindings token (some scheduleId))
    (schedules : after.scheduleBindings = Function.update ctx.scheduleBindings scheduleId (some token))
    (results : after.completionResults = ctx.completionResults) (next : after.nextToken = ctx.nextToken)
    (futures : after.futures = ctx.futures)
    (children : ∀ other ≠ token, after.subOrchestrationInstances other = ctx.subOrchestrationInstances other) :
    Linked (events ++ recorded.toList) promises after := by
  have kinds : ∀ token, after.kindOf token = ctx.kindOf token := fun token => by unfold kindOf; rw [futures]
  have unbound : ctx.tokenBindings token = none := (linked.unbound (token, kind) List.mem_cons_self).1
  have others : ∀ promise ∈ promises, promise.1 ≠ token := by
    rintro promise member rfl
    exact (List.nodup_cons.mp linked.distinct).1 (List.mem_map.mpr ⟨promise, member, rfl⟩)
  have rest := linked.drop
  have held : ctx.kindOf token = kind := linked.promised (token, kind) List.mem_cons_self
  constructor
  · simpa only [next] using rest.issued
  · intro other above
    rw [next] at above
    have issued := linked.issued (token, kind) List.mem_cons_self
    rw [kinds, bound, results, Function.update_of_ne (by rintro rfl; omega)]
    exact linked.known other above
  · exact rest.distinct
  · intro promise member
    rw [bound, results, Function.update_of_ne (others promise member)]
    exact rest.unbound promise member
  · simpa only [kinds] using rest.promised
  · intro other id
    rw [bound, schedules]
    by_cases same : other = token
    · subst same
      rw [Function.update_self]
      constructor
      · rintro ⟨⟩
        rw [Function.update_self]
      · intro found
        by_cases here : id = scheduleId
        · rw [here]
        · rw [Function.update_of_ne here, ← linked.paired, unbound] at found
          cases found
    · rw [Function.update_of_ne same, linked.paired]
      by_cases here : id = scheduleId
      · subst here
        rw [Function.update_self, fresh]
        simp [Ne.symm same]
      · rw [Function.update_of_ne here]
  · intro other id found found' holds
    rw [bound] at found'
    rw [kinds] at holds
    by_cases same : other = token
    · subst same
      rw [Function.update_self] at found'
      cases found'
      cases record : recorded with
      | none =>
        rw [held, silent record] at holds
        cases holds
      | some event =>
        obtain ⟨named, kind', _⟩ := records event record
        exact ⟨event, by simp, named, by rw [kind', ← held, holds]⟩
    · rw [Function.update_of_ne same] at found'
      obtain ⟨source, member, origin⟩ := linked.origin other id found found' holds
      exact ⟨source, List.mem_append_left _ member, origin⟩
  · intro source member isSchedule
    rcases List.mem_append.mp member with earlier | last
    · obtain ⟨other, found, same, child⟩ := linked.booked source earlier isSchedule
      have different : other ≠ token := by
        rintro rfl
        rw [unbound] at found
        cases found
      refine ⟨other, by rw [bound, Function.update_of_ne different, found], by rw [kinds, same], ?_⟩
      rwa [children other different]
    · obtain ⟨named, kind', child⟩ := records source (Option.mem_toList.mp last)
      exact ⟨token, by rw [bound, Function.update_self, named], by rw [kinds, held, kind'], child⟩

/-- A result goes to a token that is bound. -/
theorem deliverResult (linked : Linked events promises ctx) (scheduleId : Nat) (result : CompletionResult) :
    Linked events promises (ctx.deliverResult scheduleId result) := by
  rcases found : ctx.scheduleBindings scheduleId with _ | token
  · unfold CtxInner.deliverResult
    rwa [found]
  have bound := (linked.paired token scheduleId).mpr found
  have delivered : ctx.deliverResult scheduleId result =
      { ctx with completionResults := Function.update ctx.completionResults token (some result) } := by
    unfold CtxInner.deliverResult
    rw [found]
  rw [delivered]
  refine { linked with known := ?_, unbound := ?_ }
  · intro other above
    have unknown := linked.known other above
    have different : other ≠ token := by
      rintro rfl
      rw [bound] at unknown
      cases unknown.2.1
    exact ⟨unknown.1, unknown.2.1, (Function.update_of_ne different _ _).trans unknown.2.2⟩
  · intro promise member
    have fresh := linked.unbound promise member
    exact ⟨fresh.1, (Function.update_of_ne (linked.ne_of_bound bound member) _ _).trans fresh.2⟩

/-! ### Context calls -/

variable {waiting : List (Nat × Action)}

theorem promises_emit (waiting : List (Nat × Action)) (ctx : CtxInner) (action : Action) :
    (ctx.emitAction action).2.promises waiting =
      ctx.promises waiting ++ [(ctx.nextToken + 1, action.futureKind (ctx.nextToken + 1))] := by
  simp [CtxInner.promises, emitAction, promise]

/-- What waits is changed in what it promises to nobody. -/
theorem retag (linked : Linked events (ctx.promises waiting) ctx)
    (same : after.emittedActions.map promise = ctx.emittedActions.map promise)
    (others : after = { ctx with emittedActions := after.emittedActions }) : Linked events (after.promises waiting) after := by
  have waits : after.promises waiting = ctx.promises waiting := by
    unfold CtxInner.promises
    rw [List.map_append, List.map_append, same]
  rw [waits, others]
  exact linked.frame ⟨rfl, rfl, rfl, rfl⟩ rfl fun _ => rfl

/-- An action that hands out no future. -/
theorem emitAction (linked : Linked events (ctx.promises waiting) ctx) {action : Action}
    (silent : action.futureKind (ctx.nextToken + 1) = none) (emitted : (ctx.emitAction action).2 = after) :
    Linked events (after.promises waiting) after := by
  subst emitted
  rw [promises_emit, silent]
  apply linked.emit
  · exact ⟨rfl, rfl, rfl, rfl⟩
  · rfl
  · intro token
    split_ifs with same
    · rw [same]
      exact (linked.known _ (Nat.lt_succ_self _)).1
    · rfl

/-- An action that hands out a future. -/
theorem schedule (linked : Linked events (ctx.promises waiting) ctx) {action : Action} {kind : Nat → ScheduleKind}
    {token : Nat} (held : action.futureKind (ctx.nextToken + 1) = some (kind (ctx.nextToken + 1)))
    (scheduled : ctx.schedule action kind = (token, after)) : Linked events (after.promises waiting) after := by
  obtain rfl : (ctx.schedule action kind).2 = after := by rw [scheduled]
  have waits : (ctx.schedule action kind).2.promises waiting =
      ctx.promises waiting ++ [(ctx.nextToken + 1, some (kind (ctx.nextToken + 1)))] := by
    rw [← held]
    exact promises_emit waiting ctx action
  rw [waits]
  apply linked.emit
  · exact ⟨rfl, rfl, rfl, rfl⟩
  · rfl
  · intro other
    change Option.map _ (Function.update ctx.futures (ctx.nextToken + 1) _ other) = _
    split_ifs with same
    · rw [same, Function.update_self]
      rfl
    · rw [Function.update_of_ne same]
      rfl

theorem clearKvValues (keys : List String) (linked : Linked events (ctx.promises waiting) ctx) :
    Linked events ((keys.foldl CtxInner.clearKvValue ctx).promises waiting) (keys.foldl CtxInner.clearKvValue ctx) := by
  induction keys generalizing ctx with
  | nil => exact linked
  | cons key rest ih =>
    have erased : Linked events (ctx.promises waiting)
        { ctx with kvState := ctx.kvState.erase key, kvMetadata := ctx.kvMetadata.erase key } :=
      linked.frame ⟨rfl, rfl, rfl, rfl⟩ rfl fun _ => rfl
    exact ih (erased.emitAction rfl rfl)

/-- Context calls keep the tokens in order. -/
theorem perform (linked : Linked events (ctx.promises waiting) ctx) {request : CtxCall} {reply : request.Reply}
    (performed : ctx.perform request = .ok (reply, after)) : Linked events (after.promises waiting) after := by
  cases request with
  | scheduleActivity | scheduleTimer | scheduleWait | dequeueEvent | scheduleSubOrchestration =>
    exact linked.schedule (by rfl) (Except.ok.inj performed)
  | scheduleOrchestration | continueAsNew =>
    exact linked.emitAction (by rfl) (Prod.mk.inj (Except.ok.inj performed)).2
  | setCustomStatus | resetCustomStatus | setKvValue | clearKvValue | clearAllKvValues =>
    have called := (Prod.mk.inj (Except.ok.inj performed)).2
    simp only [CtxInner.setCustomStatus, CtxInner.setKvValue, CtxInner.clearKvValue, CtxInner.clearAllKvValues] at called
    apply emitAction _ _ called
    · exact linked.frame ⟨rfl, rfl, rfl, rfl⟩ rfl fun _ => rfl
    · rfl
  | getCustomStatus | getKvValue | getKvLength =>
    cases performed
    exact linked
  | pollFuture token =>
    obtain ⟨futures, queue, rfl, _, kinds⟩ := perform_pollFuture performed
    exact linked.frame ⟨rfl, rfl, rfl, rfl⟩ rfl kinds
  | dropFuture token =>
    obtain ⟨futures, tokens, cancelledKinds, same, kinds⟩ := dropFuture_frame ctx token
    cases performed
    rw [same]
    exact linked.frame ⟨rfl, rfl, rfl, rfl⟩ rfl kinds
  | withTag token tag =>
    obtain ⟨retag, rfl, retagged⟩ := withTag_frame performed
    apply linked.retag _ rfl
    rw [List.map_map]
    refine List.map_congr_left fun emitted _ => ?_
    -- a routing tag is no part of what an action promises
    rcases retagged emitted with same | ⟨id, name, input, sessionId, untagged, rfl, same⟩
    · exact congrArg promise same
    · rw [Function.comp_apply, same]
      rfl
  | pruneKvValuesUpdatedBefore updatedBeforeMs =>
    cases performed
    exact linked.clearKvValues _

/-! ### Events -/

theorem bindSchedule_same (ctx : CtxInner) (token : Nat) (event : Event) :
    (ctx.bindSchedule token event).scheduleBindings = (ctx.bindToken token event.eventId).scheduleBindings ∧
      (ctx.bindSchedule token event).completionResults = ctx.completionResults ∧
      (ctx.bindSchedule token event).nextToken = ctx.nextToken ∧
      (ctx.bindSchedule token event).emittedActions = ctx.emittedActions ∧
      (ctx.bindSchedule token event).futures = ctx.futures := by
  obtain ⟨external, queue, children, same⟩ := bindSchedule_frame ctx token event
  rw [same]
  exact ⟨rfl, rfl, rfl, rfl, rfl⟩

/-- The oldest operation that waits is bound to the event that records it. -/
theorem bindSchedule {token : Nat} {kind : Option ScheduleKind} (linked : Linked events ((token, kind) :: promises) ctx)
    {event : Event} (fresh : ctx.scheduleBindings event.eventId = none) (records : event.kind.futureKind token = kind) :
    Linked (events ++ [event]) promises (ctx.bindSchedule token event) := by
  obtain ⟨schedules, results, next, _, futures⟩ := bindSchedule_same ctx token event
  have unbound : ctx.tokenBindings token = none := (linked.unbound (token, kind) List.mem_cons_self).1
  apply @bindToken events promises ctx _ token event.eventId kind linked fresh (some event)
  · exact fun nothing => nomatch nothing
  · rintro _ ⟨⟩
    refine ⟨rfl, records, fun name child input kind => ?_⟩
    unfold CtxInner.bindSchedule
    rw [kind]
    exact Function.update_self ..
  · exact bindSchedule_tokenBindings ctx token event
  · rw [schedules]
    unfold CtxInner.bindToken
    rw [unbound]
  · exact results
  · exact next
  · exact futures
  · intro other different
    unfold CtxInner.bindSchedule
    dsimp only
    split
    case h_3 => exact Function.update_of_ne different _ _
    all_goals rfl

theorem observe_emittedActions (ctx : CtxInner) (event : Event) :
    (ctx.observe event).emittedActions = ctx.emittedActions := by
  obtain ⟨results, external, queue, status, same⟩ := observe_frame ctx event
  rw [same]

/-- An event that records no operation keeps the tokens in order. -/
theorem observe (linked : Linked events promises ctx) {event : Event} (noSchedule : event.kind.isSchedule = false) :
    Linked (events ++ [event]) promises (ctx.observe event) := by
  refine Linked.read ?_ noSchedule
  rcases observe_cases ctx event with ⟨result, delivers⟩ | ⟨external, queue, status, same⟩
  · rw [delivers]
    unfold CtxInner.deliverTo
    split
    · exact linked.deliverResult _ _
    · exact linked
  · rw [same]
    exact linked.frame ⟨rfl, rfl, rfl, rfl⟩ rfl fun _ => rfl

/-- The engine binds an emitted action to the event that it records, if it records one. -/
theorem convertEmittedAction_ctx (engine : ReplayEngine) (ctx : CtxInner) (token : Nat) (action : Action) :
    (engine.convertEmittedAction ctx (token, action)).2 =
      match actionToEvent engine.stamp (updateActionEventId action engine.nextEventId) engine.instanceId
        engine.executionId engine.nextEventId with
      | some event => ctx.bindSchedule token event
      | none => ctx.bindToken token engine.nextEventId := by
  cases action <;> rfl

theorem convertEmittedAction_delta (engine : ReplayEngine) (ctx : CtxInner) (token : Nat) (action : Action) :
    (engine.convertEmittedAction ctx (token, action)).1.historyDelta = engine.historyDelta ++
      (actionToEvent engine.stamp (updateActionEventId action engine.nextEventId) engine.instanceId
        engine.executionId engine.nextEventId).toList := rfl

theorem actionToEvent_eventId {stamp : Stamp} {action : Action} {instanceId : String} {executionId eventId : Nat}
    {event : Event} (recorded : actionToEvent stamp action instanceId executionId eventId = some event) :
    event.eventId = eventId := by
  cases action <;> cases recorded <;> rfl

/-- The engine records the oldest action that waits. -/
theorem convert {engine : ReplayEngine} {token : Nat} {action : Action}
    (linked : Linked events (promise (token, action) :: promises) ctx)
    (fresh : ctx.scheduleBindings engine.nextEventId = none) :
    Linked (events ++ (actionToEvent engine.stamp (updateActionEventId action engine.nextEventId) engine.instanceId
        engine.executionId engine.nextEventId).toList) promises (engine.convertEmittedAction ctx (token, action)).2 := by
  rw [convertEmittedAction_ctx]
  have unbound : ctx.tokenBindings token = none := (linked.unbound _ List.mem_cons_self).1
  cases recorded : actionToEvent engine.stamp (updateActionEventId action engine.nextEventId) engine.instanceId
      engine.executionId engine.nextEventId with
  | some event =>
    apply linked.bindSchedule
    · rwa [actionToEvent_eventId recorded]
    · rw [futureKind_of_actionToEvent recorded, futureKind_updateActionEventId]
  | none =>
    have silent := futureKind_of_unrecorded recorded token
    rw [futureKind_updateActionEventId] at silent
    apply linked.bindToken fresh
    · exact fun _ => silent
    · exact fun _ nothing => nomatch nothing
    · rfl
    · unfold CtxInner.bindToken
      rw [unbound]
    · rfl
    · rfl
    · rfl
    · exact fun _ _ => rfl

/-! ### What waits while events are read and recorded -/

variable {engine : ReplayEngine} {event : Event} {token : Nat} {action : Action} {waiting later : List (Nat × Action)}

theorem promises_congr (same : after.emittedActions = ctx.emittedActions) :
    after.promises waiting = ctx.promises waiting := by
  unfold CtxInner.promises
  rw [same]

/-- An event binds the oldest action that waits. -/
theorem reads_bound (linked : Linked events (ctx.promises ((token, action) :: later)) ctx)
    (fresh : ctx.scheduleBindings event.eventId = none) (matched : actionMatchesEventKind action event.kind) :
    Linked (events ++ [event]) ((ctx.bindSchedule token event).promises later) (ctx.bindSchedule token event) := by
  obtain ⟨_, _, _, emitted, _⟩ := bindSchedule_same ctx token event
  rw [promises_congr emitted]
  exact linked.bindSchedule fresh (futureKind_of_matches matched token).symm

/-- An event takes the oldest action that waits, and nobody waits for it. -/
theorem reads_consumed (linked : Linked events (ctx.promises ((token, action) :: later)) ctx)
    (forgets : event.kind.isFireAndForget) : Linked (events ++ [event]) (ctx.promises later) ctx :=
  linked.drop.read (EventKind.isSchedule_of_isFireAndForget forgets)

/-- An event is no record of an action. -/
theorem reads_observed (linked : Linked events (ctx.promises waiting) ctx) (noSchedule : event.kind.isSchedule = false) :
    Linked (events ++ [event]) ((ctx.observe event).promises waiting) (ctx.observe event) := by
  rw [promises_congr (observe_emittedActions ctx event)]
  exact linked.observe noSchedule

/-- The oldest action that waits is bound to a new event. -/
theorem converts (linked : Linked events (ctx.promises ((token, action) :: later)) ctx)
    (free : ctx.scheduleBindings engine.nextEventId = none) :
    Linked (events ++ (actionToEvent engine.stamp (updateActionEventId action engine.nextEventId) engine.instanceId
        engine.executionId engine.nextEventId).toList)
      ((engine.convertEmittedAction ctx (token, action)).2.promises later)
      (engine.convertEmittedAction ctx (token, action)).2 := by
  have emitted : (engine.convertEmittedAction ctx (token, action)).2.emittedActions = ctx.emittedActions := by
    rw [convertEmittedAction_ctx]
    split
    · exact (bindSchedule_same ctx token _).2.2.2.1
    · rfl
  rw [promises_congr emitted]
  exact linked.convert free

end Linked

end CtxInner

end Duroxide
