import Duroxide.Proofs.ContextCalls
import Duroxide.Proofs.Recording

/-! # The steps of an evaluation

An evaluation makes context calls, drains what they emitted, applies the events of the history one by one, and
binds what no event matched to new events. Whatever each of these steps keeps, a whole evaluation keeps,
whether it ends with a result or with an error.
-/

namespace Duroxide

/-- Events that a token of the program waits for. -/
def EventKind.isSchedule : EventKind → Bool
  | .activityScheduled .. | .timerCreated _ | .externalSubscribed _ | .queueSubscribed _
  | .subOrchestrationScheduled .. | .orchestrationChained .. => true
  | _ => false

/-- Events of actions that nobody waits for. -/
def EventKind.isFireAndForget : EventKind → Bool
  | .customStatusUpdated _ | .keyValueSet .. | .keyValueCleared _ | .keyValuesCleared => true
  | _ => false

theorem EventKind.isSchedule_of_isFireAndForget {kind : EventKind} (forgets : kind.isFireAndForget) :
    kind.isSchedule = false := by
  cases kind <;> first | rfl | cases forgets

namespace CtxInner

/-- Bind a token to the event of its action. -/
def bindSchedule (ctx : CtxInner) (token : Nat) (event : Event) : CtxInner :=
  let ctx := ctx.bindToken token event.eventId
  match event.kind with
  | .externalSubscribed name => ctx.mapExternal (·.bindExternalSubscription event.eventId name)
  | .queueSubscribed name => ctx.mapQueue (·.bindQueueSubscription event.eventId name)
  | .subOrchestrationScheduled _ child _ => ctx.bindSubOrchestrationInstance token child
  | _ => ctx

/-- Deliver a result to the schedule that an event completes. -/
def deliverTo (ctx : CtxInner) (sourceEventId : Option Nat) (result : CompletionResult) : CtxInner :=
  match sourceEventId with
  | some sourceId => ctx.deliverResult sourceId result
  | none => ctx

/-- What an event that records no action tells the context. -/
def observe (ctx : CtxInner) (event : Event) : CtxInner :=
  match event.kind with
  | .orchestrationStarted _ _ _ _ _ _ (some status) => { ctx with accumulatedCustomStatus := some status }
  | .activityCompleted result => ctx.deliverTo event.sourceEventId (.activityOk result)
  | .activityFailed details => ctx.deliverTo event.sourceEventId (.activityErr details.displayMessage)
  | .timerFired _ => ctx.deliverTo event.sourceEventId .timerFired
  | .subOrchestrationCompleted result => ctx.deliverTo event.sourceEventId (.subOrchOk result)
  | .subOrchestrationFailed details => ctx.deliverTo event.sourceEventId (.subOrchErr details.displayMessage)
  | .externalSubscribedCancelled _ => match event.sourceEventId with
    | some sourceId => ctx.mapExternal (·.markExternalSubscriptionCancelled sourceId)
    | none => ctx
  | .queueSubscriptionCancelled _ => match event.sourceEventId with
    | some sourceId => ctx.mapQueue (·.markQueueSubscriptionCancelled sourceId)
    | none => ctx
  | .externalEvent name data =>
      if ctx.external.hasPendingSubscriptionSlot name then ctx.mapExternal (·.deliverExternalEvent name data) else ctx
  | .queueEventDelivered name data => ctx.mapQueue (·.deliverQueueMessage name data)
  | _ => ctx

/-! ### What the engine touches -/

theorem bindSchedule_frame (ctx : CtxInner) (token : Nat) (event : Event) :
    ∃ external queue subOrchestrationInstances, ctx.bindSchedule token event =
      { ctx.bindToken token event.eventId with external, queue, subOrchestrationInstances } := by
  unfold bindSchedule
  dsimp only
  split <;> exact ⟨_, _, _, rfl⟩

theorem deliverTo_frame (ctx : CtxInner) (sourceEventId : Option Nat) (result : CompletionResult) :
    ∃ completionResults, ctx.deliverTo sourceEventId result = { ctx with completionResults } := by
  unfold deliverTo deliverResult
  split
  · split <;> exact ⟨_, rfl⟩
  · exact ⟨_, rfl⟩

/-- What an event tells a context is a result, or has nothing to do with tokens. -/
theorem observe_cases (ctx : CtxInner) (event : Event) :
    (∃ result, ctx.observe event = ctx.deliverTo event.sourceEventId result) ∨
      ∃ external queue accumulatedCustomStatus, ctx.observe event =
        { ctx with external, queue, accumulatedCustomStatus } := by
  unfold observe
  split
  case h_2 | h_3 | h_4 | h_5 | h_6 => exact .inl ⟨_, rfl⟩
  case h_7 | h_8 => split <;> exact .inr ⟨_, _, _, rfl⟩
  case h_9 => split_ifs <;> exact .inr ⟨_, _, _, rfl⟩
  all_goals exact .inr ⟨_, _, _, rfl⟩

theorem observe_frame (ctx : CtxInner) (event : Event) :
    ∃ completionResults external queue accumulatedCustomStatus, ctx.observe event =
      { ctx with completionResults, external, queue, accumulatedCustomStatus } := by
  rcases observe_cases ctx event with ⟨result, delivers⟩ | ⟨external, queue, status, same⟩
  · obtain ⟨results, same⟩ := deliverTo_frame ctx event.sourceEventId result
    exact ⟨results, _, _, _, delivers.trans same⟩
  · exact ⟨_, external, queue, status, same⟩

theorem markDroppedQueueWaits_frame (ctx : CtxInner) :
    ∃ queue, ReplayEngine.markDroppedQueueWaits ctx = { ctx with queue } := by
  unfold ReplayEngine.markDroppedQueueWaits
  generalize ctx.getCancelledQueueIds = ids
  induction ids generalizing ctx with
  | nil => exact ⟨ctx.queue, rfl⟩
  | cons id rest ih =>
    obtain ⟨queue, marked⟩ := ih (ctx.mapQueue (·.markQueueSubscriptionCancelled id))
    exact ⟨queue, marked⟩

end CtxInner

/-- A computation that succeeds first runs its first half. -/
theorem ok_of_bind {Failure Value Result : Type} {first : Except Failure Value} {next : Value → Except Failure Result}
    {result : Result} (ran : first >>= next = .ok result) : ∃ value, first = .ok value ∧ next value = .ok result := by
  cases first with
  | error failure => cases ran
  | ok value => exact ⟨value, rfl, ran⟩

namespace Replay

variable {State : Type} {replay after : Replay State} {event : Event}

/-- How an event is applied: to the oldest action that waits for its event, or to the context. -/
inductive Applies (replay : Replay State) (event : Event) (after : Replay State) : Prop
  | bound (token : Nat) (action : Action) (schedules : event.kind.isSchedule)
      (waiting : replay.emittedActions = (token, action) :: after.emittedActions)
      (matched : actionMatchesEventKind action event.kind) (ctx : after.ctx = replay.ctx.bindSchedule token event)
  | consumed (token : Nat) (action : Action) (forgets : event.kind.isFireAndForget)
      (waiting : replay.emittedActions = (token, action) :: after.emittedActions)
      (matched : actionMatchesEventKind action event.kind) (ctx : after.ctx = replay.ctx)
  | skipped (forgets : event.kind.isFireAndForget) (nothing : replay.emittedActions = []) (same : after = replay)
  | observed (noSchedule : event.kind.isSchedule = false) (remembered : event.kind.isFireAndForget = false)
      (kept : after.emittedActions = replay.emittedActions) (ctx : after.ctx = replay.ctx.observe event)

theorem matchAndBindSchedule_spec {kind : ActionKind} {token : Nat}
    (matched : replay.matchAndBindSchedule event kind = .ok (token, after)) :
    ∃ action, replay.emittedActions = (token, action) :: after.emittedActions ∧
      actionMatchesEventKind action event.kind ∧ after.ctx = replay.ctx.bindToken token event.eventId ∧
      after.fut = replay.fut ∧ after.output = replay.output := by
  unfold matchAndBindSchedule at matched
  split at matched
  · cases matched
  · rename_i first action rest waiting
    split_ifs at matched with differs
    cases matched
    exact ⟨action, waiting, by simpa using differs, rfl, rfl, rfl⟩

theorem consumeAction_spec {mismatch : String} (forgets : event.kind.isFireAndForget)
    (consumed : replay.consumeAction event mismatch = .ok after) :
    Applies replay event after ∧ after.fut = replay.fut ∧ after.output = replay.output := by
  unfold consumeAction at consumed
  split at consumed
  · rename_i nothing
    cases consumed
    exact ⟨.skipped forgets nothing rfl, rfl, rfl⟩
  · rename_i token action rest waiting
    split_ifs at consumed with differs
    cases consumed
    exact ⟨.consumed token action forgets waiting (by simpa using differs) rfl, rfl, rfl⟩

theorem deliverCompletion_spec {activityOnly : Bool} {result : CompletionResult}
    (delivered : replay.deliverCompletion event activityOnly result = .ok after) :
    after.emittedActions = replay.emittedActions ∧ after.ctx = replay.ctx.deliverTo event.sourceEventId result ∧
      after.fut = replay.fut ∧ after.output = replay.output := by
  unfold deliverCompletion at delivered
  split at delivered
  · rename_i source
    cases delivered
    rw [source]
    exact ⟨rfl, rfl, rfl, rfl⟩
  · rename_i sourceId source
    split_ifs at delivered
    cases delivered
    rw [source]
    exact ⟨rfl, rfl, rfl, rfl⟩

/-- An event that is applied leaves the program alone. -/
theorem applyHistoryEvent_spec (applied : replay.applyHistoryEvent event = .ok after) :
    Applies replay event after ∧ after.fut = replay.fut ∧ after.output = replay.output := by
  obtain ⟨eventId, source, instanceId, executionId, timestamp, version, kind⟩ := event
  cases kind with
  | orchestrationStarted name version input parentInstance parentId carried status =>
    cases status <;> cases applied <;> exact ⟨.observed rfl rfl rfl rfl, rfl, rfl⟩
  | customStatusUpdated | keyValueSet | keyValueCleared | keyValuesCleared => exact consumeAction_spec rfl applied
  | activityScheduled | timerCreated =>
    obtain ⟨⟨token, bound⟩, matched, result⟩ := ok_of_bind applied
    cases result
    obtain ⟨action, waiting, matches', ctx, fut, output⟩ := matchAndBindSchedule_spec matched
    exact ⟨.bound token action rfl waiting matches' ctx, fut, output⟩
  | externalSubscribed | queueSubscribed | subOrchestrationScheduled =>
    obtain ⟨⟨token, bound⟩, matched, result⟩ := ok_of_bind applied
    cases result
    obtain ⟨action, waiting, matches', ctx, fut, output⟩ := matchAndBindSchedule_spec matched
    refine ⟨.bound token action rfl waiting matches' ?_, fut, output⟩
    dsimp only
    rw [ctx]
    rfl
  | orchestrationChained name target input =>
    unfold applyHistoryEvent at applied
    dsimp only at applied
    split at applied
    · cases applied
    · rename_i token action rest waiting
      split_ifs at applied with differs
      cases applied
      exact ⟨.bound token action rfl waiting (by simpa using differs) rfl, rfl, rfl⟩
  | activityCompleted | activityFailed | timerFired | subOrchestrationCompleted | subOrchestrationFailed =>
    obtain ⟨kept, ctx, fut, output⟩ := deliverCompletion_spec applied
    exact ⟨.observed rfl rfl kept ctx, fut, output⟩
  | externalSubscribedCancelled | queueSubscriptionCancelled =>
    cases source <;> cases applied <;> exact ⟨.observed rfl rfl rfl rfl, rfl, rfl⟩
  | externalEvent name data =>
    unfold applyHistoryEvent at applied
    dsimp only at applied
    split_ifs at applied with pending
    · cases applied
      refine ⟨.observed rfl rfl rfl ?_, rfl, rfl⟩
      change _ = if _ then _ else _
      rw [if_pos pending]
    · cases applied
      refine ⟨.observed rfl rfl rfl ?_, rfl, rfl⟩
      change _ = if _ then _ else _
      rw [if_neg pending]
  | queueEventDelivered | activityCancelRequested | subOrchestrationCancelRequested | orchestrationCancelRequested
  | orchestrationCompleted | orchestrationFailed | orchestrationContinuedAsNew =>
    cases applied
    exact ⟨.observed rfl rfl rfl rfl, rfl, rfl⟩

variable {poll : State → Script State} {polled : Replay State}

/-- A poll that does not panic suspends the program or ends it, and drains what it emitted. -/
theorem pollOrchestrationFuture_spec (ran : replay.pollOrchestrationFuture poll = .ok polled) :
    ∃ result ctx fut output, (poll replay.fut).run replay.ctx = (result, ctx) ∧
      polled = { replay with
        ctx := { ctx with emittedActions := [] }, fut, output
        emittedActions := replay.emittedActions ++ ctx.emittedActions } ∧
      (output = none → result = .pending fut ∧ replay.output = none) := by
  unfold pollOrchestrationFuture at ran
  rcases outcome : (poll replay.fut).run replay.ctx with ⟨state | output | message, ctx⟩ <;> rw [outcome] at ran
  · cases ran
    exact ⟨_, ctx, state, replay.output, rfl, rfl, fun running => ⟨rfl, running⟩⟩
  · cases ran
    exact ⟨_, ctx, replay.fut, some output, rfl, rfl, fun running => nomatch running⟩
  · cases ran

/-- A poll that leaves the program pending has suspended it. -/
theorem suspended_of_poll (ran : replay.pollOrchestrationFuture poll = .ok polled) (pending : polled.output = none) :
    ∃ after, (poll replay.fut).run replay.ctx = (.pending polled.fut, after) ∧
      polled = { replay with
        ctx := { after with emittedActions := [] }
        fut := polled.fut
        emittedActions := replay.emittedActions ++ after.emittedActions } := by
  obtain ⟨result, after, fut, output, outcome, rfl, suspended⟩ := pollOrchestrationFuture_spec ran
  obtain ⟨rfl, running⟩ := suspended pending
  exact ⟨after, outcome, by rw [running, ← pending]⟩

/-- A replay polls if it must, and then need not poll again. -/
theorem pollIfNeeded_spec (ran : replay.pollIfNeeded poll = .ok polled) :
    (replay.mustPoll = false ∧ polled = replay) ∨
      ∃ drained mustPoll, replay.mustPoll ∧ replay.pollOrchestrationFuture poll = .ok drained ∧
        polled = { drained with mustPoll } ∧ (drained.output = none → mustPoll = false) := by
  unfold pollIfNeeded at ran
  split_ifs at ran with asked
  · obtain ⟨drained, taken, last⟩ := ok_of_bind ran
    split_ifs at last with finished
    · cases last
      refine .inr ⟨polled, polled.mustPoll, asked, taken, rfl, fun running => ?_⟩
      rw [running] at finished
      cases finished
    · cases last
      exact .inr ⟨drained, false, asked, taken, rfl, fun _ => rfl⟩
  · cases ran
    exact .inl ⟨Bool.eq_false_of_not_eq_true asked, rfl⟩

/-- A replay that is still running behind some events was running when it read the first one. -/
theorem applyHistory_cons_spec {rest : List Event} {last : Replay State}
    (ran : replay.applyHistory poll (event :: rest) = .ok last) (running : last.output = none) :
    ∃ polled after, replay.pollIfNeeded poll = .ok polled ∧ polled.output = none ∧
      polled.applyHistoryEvent event = .ok after ∧ after.applyHistory poll rest = .ok last := by
  obtain ⟨polled, drained, continued⟩ := ok_of_bind ran
  split_ifs at continued with finished
  · cases continued
    rw [running] at finished
    cases finished
  · obtain ⟨after, read, later⟩ := ok_of_bind continued
    exact ⟨polled, after, drained, Option.not_isSome_iff_eq_none.mp finished, read, later⟩

end Replay

/-! ## Steps -/

/-- Where an evaluation is: the engine, the events not applied yet, the actions that wait for their events, and
the context. -/
structure Evaluation where
  engine : ReplayEngine
  unread : List Event
  waiting : List (Nat × Action)
  ctx : CtxInner

namespace Evaluation

inductive Step : Evaluation → Evaluation → Prop
  | called {engine : ReplayEngine} {unread : List Event} {waiting : List (Nat × Action)} {ctx after : CtxInner}
      (request : CtxCall) (reply : request.Reply) (performed : ctx.perform request = .ok (reply, after)) :
      Step ⟨engine, unread, waiting, ctx⟩ ⟨engine, unread, waiting, after⟩
  | drained {engine : ReplayEngine} {unread : List Event} {waiting : List (Nat × Action)} {ctx : CtxInner} :
      Step ⟨engine, unread, waiting, ctx⟩
        ⟨engine, unread, waiting ++ ctx.emittedActions, { ctx with emittedActions := [] }⟩
  | bound {engine : ReplayEngine} {event : Event} {rest : List Event} {token : Nat} {action : Action}
      {later : List (Nat × Action)} {ctx : CtxInner} (schedules : event.kind.isSchedule)
      (matched : actionMatchesEventKind action event.kind) :
      Step ⟨engine, event :: rest, (token, action) :: later, ctx⟩ ⟨engine, rest, later, ctx.bindSchedule token event⟩
  | consumed {engine : ReplayEngine} {event : Event} {rest : List Event} {token : Nat} {action : Action}
      {later : List (Nat × Action)} {ctx : CtxInner} (forgets : event.kind.isFireAndForget)
      (matched : actionMatchesEventKind action event.kind) :
      Step ⟨engine, event :: rest, (token, action) :: later, ctx⟩ ⟨engine, rest, later, ctx⟩
  | skipped {engine : ReplayEngine} {event : Event} {rest : List Event} {ctx : CtxInner}
      (forgets : event.kind.isFireAndForget) : Step ⟨engine, event :: rest, [], ctx⟩ ⟨engine, rest, [], ctx⟩
  | observed {engine : ReplayEngine} {event : Event} {rest : List Event} {waiting : List (Nat × Action)} {ctx : CtxInner}
      (noSchedule : event.kind.isSchedule = false) (remembered : event.kind.isFireAndForget = false) :
      Step ⟨engine, event :: rest, waiting, ctx⟩ ⟨engine, rest, waiting, ctx.observe event⟩
  | marked {engine : ReplayEngine} {unread : List Event} {waiting : List (Nat × Action)} {ctx : CtxInner} :
      Step ⟨engine, unread, waiting, ctx⟩ ⟨engine, unread, waiting, ReplayEngine.markDroppedQueueWaits ctx⟩
  | converted {engine : ReplayEngine} {unread : List Event} {emitted : Nat × Action} {later : List (Nat × Action)}
      {ctx : CtxInner} : Step ⟨engine, unread, emitted :: later, ctx⟩
        ⟨(engine.convertEmittedAction ctx emitted).1, unread, later, (engine.convertEmittedAction ctx emitted).2⟩

abbrev Steps : Evaluation → Evaluation → Prop := Relation.ReflTransGen Step

/-- What every step keeps, an evaluation keeps. -/
theorem Steps.invariant {property : Evaluation → Prop} (preserved : ∀ source target, property source →
    Step source target → property target) {start last : Evaluation} (steps : Steps start last) (holds : property start) :
    property last := by
  induction steps with
  | refl => exact holds
  | tail _ step ih => exact preserved _ _ ih step

variable {State : Type} {poll : State → Script State} {engine : ReplayEngine} {unread : List Event}
  {waiting : List (Nat × Action)} {ctx : CtxInner}

theorem steps_of_run (script : Script State) (ctx : CtxInner) :
    Steps ⟨engine, unread, waiting, ctx⟩ ⟨engine, unread, waiting, (script.run ctx).2⟩ := by
  induction script generalizing ctx with
  | suspend state => exact .refl
  | finish output => exact .refl
  | panic message => exact .refl
  | call request next ih =>
    unfold Script.run
    rcases performed : ctx.perform request with message | ⟨reply, after⟩
    · exact .refl
    · exact .head (.called request reply performed) (ih reply after)

/-- The context at the end of a poll, before its actions are drained. -/
def polledCtx (poll : State → Script State) (replay : Replay State) : CtxInner := ((poll replay.fut).run replay.ctx).2

/-- The state of an evaluation between two events. -/
def of (engine : ReplayEngine) (unread : List Event) (replay : Replay State) : Evaluation :=
  ⟨engine, unread, replay.emittedActions, replay.ctx⟩

theorem steps_of_poll {replay after : Replay State} (polled : replay.pollOrchestrationFuture poll = .ok after) :
    Steps (.of engine unread replay) (.of engine unread after) := by
  have calls : Steps (.of engine unread replay) ⟨engine, unread, replay.emittedActions, polledCtx poll replay⟩ :=
    steps_of_run _ _
  obtain ⟨result, ctx, fut, output, ran, rfl, _⟩ := Replay.pollOrchestrationFuture_spec polled
  rw [polledCtx, ran] at calls
  exact calls.tail .drained

theorem steps_of_applyHistoryEvent {replay after : Replay State} {event : Event} {rest : List Event}
    (applied : replay.applyHistoryEvent event = .ok after) :
    Steps (.of engine (event :: rest) replay) (.of engine rest after) := by
  obtain ⟨applies, _, _⟩ := Replay.applyHistoryEvent_spec applied
  refine .single ?_
  unfold Evaluation.of
  cases applies with
  | bound token action schedules waiting matched ctx =>
    rw [waiting, ctx]
    exact .bound schedules matched
  | consumed token action forgets waiting matched ctx =>
    rw [waiting, ctx]
    exact .consumed forgets matched
  | skipped forgets nothing same =>
    rw [same, nothing]
    exact .skipped forgets
  | observed noSchedule remembered kept ctx =>
    rw [kept, ctx]
    exact .observed noSchedule remembered

theorem steps_of_pollIfNeeded {replay after : Replay State} (polled : replay.pollIfNeeded poll = .ok after) :
    Steps (.of engine unread replay) (.of engine unread after) := by
  rcases Replay.pollIfNeeded_spec polled with ⟨_, rfl⟩ | ⟨drained, mustPoll, _, taken, rfl, _⟩
  · exact .refl
  · have steps := @steps_of_poll State poll engine unread _ _ taken
    exact steps

/-- A history is applied to its end, unless the program ends first. -/
theorem steps_of_applyHistory {replay after : Replay State} {history : List Event}
    (applied : replay.applyHistory poll history = .ok after) :
    ∃ rest, Steps (.of engine history replay) (.of engine rest after) ∧ (after.output = none → rest = []) := by
  induction history generalizing replay with
  | nil =>
    cases applied
    exact ⟨[], .refl, fun _ => rfl⟩
  | cons event rest ih =>
    obtain ⟨polled, poll', continued⟩ := ok_of_bind applied
    have steps := @steps_of_pollIfNeeded State poll engine (event :: rest) _ _ poll'
    split_ifs at continued with finished
    · cases continued
      refine ⟨event :: rest, steps, fun pending => ?_⟩
      rw [pending] at finished
      cases finished
    · obtain ⟨middle, event', later⟩ := ok_of_bind continued
      obtain ⟨unread, more, whole⟩ := ih later
      exact ⟨unread, (steps.trans (steps_of_applyHistoryEvent event')).trans more, whole⟩

theorem steps_of_convertEmittedActions (engine : ReplayEngine) (ctx : CtxInner) (actions : List (Nat × Action)) :
    Steps ⟨engine, unread, actions, ctx⟩ ⟨(engine.convertEmittedActions ctx actions).1, unread, [],
      (engine.convertEmittedActions ctx actions).2⟩ := by
  unfold ReplayEngine.convertEmittedActions
  induction actions generalizing engine ctx with
  | nil => exact .refl
  | cons emitted rest ih => exact .head .converted (ih _ _)

/-- An evaluation ends somewhere, with the program's state if it succeeds. -/
structure Ends (start : Evaluation) (result : Except TurnResult (Replay State)) (engine : ReplayEngine)
    (last : Evaluation) : Prop where
  steps : Steps start last
  engine_eq : last.engine = engine
  state : ∀ replay, result = .ok replay → last = .of engine last.unread replay

theorem Ends.of_steps {start middle last : Evaluation} {result : Except TurnResult (Replay State)}
    (before : Steps start middle) (ends : Ends middle result engine last) : Ends start result engine last :=
  ⟨before.trans ends.steps, ends.engine_eq, ends.state⟩

theorem ends_runQuiescenceLoop (remaining : Nat) {replay : Replay State} (drained : replay.emittedActions = []) :
    ∃ last, Ends (.of engine unread replay) (engine.runQuiescenceLoop poll remaining replay).1
      (engine.runQuiescenceLoop poll remaining replay).2 last ∧ last.unread = unread := by
  have stops : ∀ (result : TurnResult), ∃ last, Ends (.of engine unread replay)
      (.error result : Except TurnResult (Replay State)) engine last ∧ last.unread = unread :=
    fun result => ⟨.of engine unread replay, ⟨.refl, rfl, fun _ failed => nomatch failed⟩, rfl⟩
  induction remaining generalizing engine replay with
  | zero => exact stops _
  | succ remaining ih =>
    unfold ReplayEngine.runQuiescenceLoop
    split
    · exact ⟨.of engine unread replay, ⟨.refl, rfl, fun _ same => by cases same; rfl⟩, rfl⟩
    split
    · exact stops _
    rename_i polled taken
    have before : Steps (.of engine unread replay) (.of engine unread polled) := by
      have same : ({ replay with emittedActions := [] } : Replay State) = replay := by rw [← drained]
      rw [same] at taken
      exact steps_of_poll taken
    have converts := before.trans (steps_of_convertEmittedActions engine polled.ctx polled.emittedActions)
    dsimp only
    split_ifs
    · exact ⟨_, ⟨converts, rfl, fun _ failed => nomatch failed⟩, rfl⟩
    · exact ⟨_, ⟨converts, rfl, fun _ same => by cases same; rfl⟩, rfl⟩
    · obtain ⟨last, ends, same⟩ := @ih (engine.convertEmittedActions polled.ctx polled.emittedActions).1
        { polled with
          ctx := (engine.convertEmittedActions polled.ctx polled.emittedActions).2, emittedActions := [] } rfl
        fun result => ⟨_, ⟨.refl, rfl, fun _ failed => nomatch failed⟩, rfl⟩
      exact ⟨last, ends.of_steps converts, same⟩

/-- The context of a turn before it evaluates anything. -/
def seeded (engine : ReplayEngine) (orchestrationName orchestrationVersion : String) : CtxInner :=
  { engine.seedContext orchestrationName orchestrationVersion with
    accumulatedCustomStatus := ReplayEngine.initialCustomStatusOf (engine.baselineHistory ++ engine.historyDelta) }

/-- The beginning of an evaluation. -/
def start (engine : ReplayEngine) (orchestrationName orchestrationVersion : String) : Evaluation :=
  ⟨engine, engine.baselineHistory ++ engine.historyDelta, [], seeded engine orchestrationName orchestrationVersion⟩

variable {handler : OrchestrationHandler} {input orchestrationName orchestrationVersion : String}

theorem steps_of_replayHistory {replay : Replay handler.State}
    (replayed : engine.replayHistory handler input orchestrationName orchestrationVersion
      (engine.baselineHistory ++ engine.historyDelta) = .ok replay) :
    ∃ rest, Steps (start engine orchestrationName orchestrationVersion) (.of engine rest replay) ∧
      (replay.output = none → rest = []) := by
  obtain ⟨applied, history, last⟩ := ok_of_bind replayed
  obtain ⟨rest, steps, whole⟩ := @steps_of_applyHistory _ _ engine _ _ _ history
  split_ifs at last with polls
  · refine ⟨rest, steps.trans (steps_of_poll last), fun _ => whole ?_⟩
    simp only [Bool.and_eq_true, Option.isNone_iff_eq_none] at polls
    exact polls.2
  · cases last
    exact ⟨rest, steps, whole⟩

/-- Every evaluation is a run of steps. -/
theorem ends_evaluate (engine : ReplayEngine) (handler : OrchestrationHandler)
    (input orchestrationName orchestrationVersion : String) :
    ∃ last, Ends (start engine orchestrationName orchestrationVersion)
      (engine.evaluate handler input orchestrationName orchestrationVersion).1
      (engine.evaluate handler input orchestrationName orchestrationVersion).2 last := by
  unfold ReplayEngine.evaluate
  split
  · exact ⟨_, .refl, rfl, fun _ failed => nomatch failed⟩
  · rename_i replay replayed
    obtain ⟨rest, steps, _⟩ := steps_of_replayHistory replayed
    unfold ReplayEngine.runLive
    have marked := steps.tail (@Step.marked engine rest replay.emittedActions replay.ctx)
    have converts := marked.trans (steps_of_convertEmittedActions engine _ replay.emittedActions)
    obtain ⟨last, ends, _⟩ := @ends_runQuiescenceLoop _ handler.poll
      (engine.convertEmittedActions (ReplayEngine.markDroppedQueueWaits replay.ctx) replay.emittedActions).1 rest
      ReplayEngine.MAX_QUIESCENCE_ITERATIONS { replay with
        ctx := (engine.convertEmittedActions (ReplayEngine.markDroppedQueueWaits replay.ctx) replay.emittedActions).2
        emittedActions := [] } rfl
    exact ⟨last, ends.of_steps converts⟩

end Evaluation

end Duroxide
