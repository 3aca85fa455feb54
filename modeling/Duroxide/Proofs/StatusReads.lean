import Duroxide.Proofs.ContextCalls
import Duroxide.Proofs.CustomStatus
import Duroxide.Proofs.Evaluation

/-! # Reading the custom status back

A context starts with the status that the start of its execution carries, and from then on the program's own calls
write it. The start event itself is only applied behind the first poll, and writes the carried status once more: what
the first poll has written is lost. A program that reads its status back before everything it does shows it.
-/

namespace Duroxide

open ReplayEngine

/-- What a call makes of the custom status. -/
def CtxCall.statusWrite : CtxCall → Option (Option String)
  | .setCustomStatus status => some (some status)
  | .resetCustomStatus => some none
  | _ => none

namespace Script

variable {State : Type}

/-- Go on if the custom status reads as expected, and panic otherwise. -/
def expecting (message : String) (expected : Option String) (next : Script State) : Script State :=
  .call .getCustomStatus fun (held : Option String) => if held = expected then next else .panic message

/-- A program that reads its custom status back before everything it does. It expects what it wrote last. -/
def checked (message : String) : Option String → Script State → Script (State × Option String)
  | expected, .suspend state => expecting message expected (.suspend (state, expected))
  | expected, .finish output => expecting message expected (.finish output)
  | expected, .panic text => expecting message expected (.panic text)
  | expected, .call request next => expecting message expected
      (.call request fun reply => (next reply).checked message (request.statusWrite.getD expected))

/-- A poll of the checked program, whose state remembers the expected status. -/
def checkedPoll (message : String) (poll : State → Script State) (state : State × Option String) :
    Script (State × Option String) :=
  (poll state.1).checked message state.2

end Script

/-- An orchestration that checks in every poll that its custom status is what it wrote last, or what it started with. -/
def OrchestrationHandler.checked (handler : OrchestrationHandler) (message : String) (carried : Option String) :
    OrchestrationHandler where
  State := handler.State × Option String
  invoke input := (handler.invoke input, carried)
  poll := Script.checkedPoll message handler.poll

namespace CtxInner

variable {ctx after : CtxInner}

/-- A call leaves the status at what it writes, and as it was if it writes none. -/
theorem perform_status {request : CtxCall} {reply : request.Reply} (performed : ctx.perform request = .ok (reply, after)) :
    after.accumulatedCustomStatus = request.statusWrite.getD ctx.accumulatedCustomStatus := by
  cases request with
  | pollFuture token =>
    obtain ⟨futures, queue, rfl, _⟩ := perform_pollFuture performed
    rfl
  | dropFuture token =>
    obtain ⟨futures, tokens, kinds, same, _⟩ := dropFuture_frame ctx token
    cases performed
    rw [same]
    rfl
  | withTag token tag =>
    obtain ⟨retag, rfl, _⟩ := withTag_frame performed
    rfl
  | pruneKvValuesUpdatedBefore updatedBeforeMs =>
    obtain ⟨state, metadata, next, emitted, _, same⟩ := clearKvValues_frame (ctx.staleKvKeys updatedBeforeMs) ctx
    cases performed
    rw [same]
    rfl
  | _ =>
    cases performed
    rfl

/-- A call takes nothing back that has been emitted, and one that writes the status emits something. -/
theorem emits_of_perform {request : CtxCall} {reply : request.Reply} (performed : ctx.perform request = .ok (reply, after))
    (emits : ctx.emittedActions ≠ [] ∨ request.statusWrite ≠ none) : after.emittedActions ≠ [] := by
  cases request with
  | pollFuture token =>
    obtain ⟨futures, queue, rfl, _⟩ := perform_pollFuture performed
    exact emits.resolve_right (fun writes => writes rfl)
  | dropFuture token =>
    obtain ⟨futures, tokens, kinds, same, _⟩ := dropFuture_frame ctx token
    cases performed
    rw [same]
    exact emits.resolve_right (fun writes => writes rfl)
  | withTag token tag =>
    obtain ⟨retag, rfl, _⟩ := withTag_frame performed
    intro nothing
    exact emits.resolve_right (fun writes => writes rfl) (List.map_eq_nil_iff.mp nothing)
  | pruneKvValuesUpdatedBefore updatedBeforeMs =>
    obtain ⟨state, metadata, next, emitted, _, same⟩ := clearKvValues_frame (ctx.staleKvKeys updatedBeforeMs) ctx
    cases performed
    rw [same]
    intro nothing
    exact emits.resolve_right (fun writes => writes rfl) (List.append_eq_nil_iff.mp nothing).1
  | getCustomStatus | getKvValue | getKvLength =>
    cases performed
    exact emits.resolve_right (fun writes => writes rfl)
  | _ =>
    cases performed
    exact List.append_ne_nil_of_right_ne_nil _ (List.cons_ne_nil _ _)

/-- A poll that changes the status emits something. -/
theorem emits_of_run {State : Type} (script : Script State) (ctx : CtxInner)
    (emits : ctx.emittedActions ≠ [] ∨ (script.run ctx).2.accumulatedCustomStatus ≠ ctx.accumulatedCustomStatus) :
    (script.run ctx).2.emittedActions ≠ [] := by
  induction script generalizing ctx with
  | suspend | finish | panic => exact emits.resolve_right fun changed => changed rfl
  | call request next ih =>
    unfold Script.run at emits ⊢
    rcases performed : ctx.perform request with message | ⟨reply, after⟩
    · rw [performed] at emits
      exact emits.resolve_right fun changed => changed rfl
    · rw [performed] at emits
      dsimp only at emits ⊢
      apply ih
      rcases emits with emitted | changed
      · exact .inl (emits_of_perform performed (.inl emitted))
      · by_cases writes : request.statusWrite = none
        · rw [← show after.accumulatedCustomStatus = ctx.accumulatedCustomStatus by
            rw [perform_status performed, writes, Option.getD_none]] at changed
          exact .inr changed
        · exact .inl (emits_of_perform performed (.inr writes))

end CtxInner

/-! ## A check that holds changes nothing -/

/-- How a poll of the checked program ends, from how a poll of the program ends. -/
def PollResult.expecting {State : Type} (expected : Option String) : PollResult State → PollResult (State × Option String)
  | .pending state => .pending (state, expected)
  | .ready output => .ready output
  | .panicked message => .panicked message

namespace Script

variable {State : Type} {message : String} {ctx : CtxInner}

theorem run_expecting (next : Script State) : (expecting message ctx.accumulatedCustomStatus next).run ctx = next.run ctx := by
  change (if ctx.accumulatedCustomStatus = ctx.accumulatedCustomStatus then next else .panic message).run ctx = _
  rw [if_pos rfl]

/-- As long as the status is the expected one, the checked program runs as the program does. -/
theorem run_checked (message : String) (script : Script State) (ctx : CtxInner) :
    (script.checked message ctx.accumulatedCustomStatus).run ctx =
      ((script.run ctx).1.expecting (script.run ctx).2.accumulatedCustomStatus, (script.run ctx).2) := by
  induction script generalizing ctx with
  | suspend | finish | panic => exact run_expecting _
  | call request next ih =>
    refine (run_expecting _).trans ?_
    unfold run
    rcases performed : ctx.perform request with text | ⟨reply, after⟩
    · rfl
    · dsimp only
      rw [← CtxInner.perform_status performed]
      exact ih reply after

/-- A check that fails ends the poll. -/
theorem run_checked_of_ne {expected : Option String} (script : Script State)
    (differs : ctx.accumulatedCustomStatus ≠ expected) :
    (script.checked message expected).run ctx = (.panicked message, ctx) := by
  have stops : ∀ next : Script (State × Option String), (expecting message expected next).run ctx = (.panicked message, ctx) := by
    intro next
    change (if ctx.accumulatedCustomStatus = expected then next else .panic message).run ctx = _
    rw [if_neg differs]
    rfl
  cases script <;> exact stops _

end Script

namespace Replay

variable {State : Type} {poll : State → Script State} {message : String}

/-- The evaluation of the program in one of the checked program. -/
def forget (replay : Replay (State × Option String)) : Replay State := { replay with fut := replay.fut.1 }

/-- The status is the one that the program expects, unless it has finished. -/
def Expects (replay : Replay (State × Option String)) : Prop :=
  replay.output = none → replay.ctx.accumulatedCustomStatus = replay.fut.2

/-- The checked program has come as far as the program. -/
inductive Mirrors : Except TurnResult (Replay (State × Option String)) → Except TurnResult (Replay State) → Prop
  | failed (result : TurnResult) : Mirrors (.error result) (.error result)
  | ran (replay : Replay (State × Option String)) (expects : Expects replay) : Mirrors (.ok replay) (.ok replay.forget)

theorem Mirrors.bind {first : Except TurnResult (Replay (State × Option String))} {plain : Except TurnResult (Replay State)}
    {next : Replay (State × Option String) → Except TurnResult (Replay (State × Option String))}
    {continued : Replay State → Except TurnResult (Replay State)} (mirrors : Mirrors first plain)
    (later : ∀ replay, Expects replay → Mirrors (next replay) (continued replay.forget)) :
    Mirrors (first >>= next) (plain >>= continued) := by
  cases mirrors with
  | failed result => exact .failed result
  | ran replay expects => exact later replay expects

variable {replay : Replay (State × Option String)}

theorem mirrors_poll (expects : replay.ctx.accumulatedCustomStatus = replay.fut.2) :
    Mirrors (replay.pollOrchestrationFuture (Script.checkedPoll message poll)) (replay.forget.pollOrchestrationFuture poll) := by
  have checked := Script.run_checked message (poll replay.fut.1) replay.ctx
  rw [expects] at checked
  change (Script.checkedPoll message poll replay.fut).run replay.ctx = _ at checked
  have plain : (poll replay.forget.fut).run replay.forget.ctx = (poll replay.fut.1).run replay.ctx := rfl
  unfold pollOrchestrationFuture
  rw [checked, plain]
  rcases (poll replay.fut.1).run replay.ctx with ⟨output | state | text, ctx⟩
  · exact .ran _ fun _ => rfl
  · exact .ran _ fun unfinished => nomatch unfinished
  · exact .failed _

theorem mirrors_pollIfNeeded (pending : replay.output = none) (expects : Expects replay) :
    Mirrors (replay.pollIfNeeded (Script.checkedPoll message poll)) (replay.forget.pollIfNeeded poll) := by
  have same : replay.forget.mustPoll = replay.mustPoll := rfl
  unfold pollIfNeeded
  rw [same]
  split_ifs with asked
  · refine (mirrors_poll (expects pending)).bind fun polled expects => ?_
    change Mirrors (pure (if polled.output.isSome then polled else { polled with mustPoll := false }))
      (pure (if polled.output.isSome then polled.forget else { polled.forget with mustPoll := false }))
    split_ifs
    · exact .ran _ expects
    · exact .ran _ expects
  · exact .ran _ expects

/-! ### Events -/

theorem forget_consumeAction (replay : Replay (State × Option String)) (event : Event) (mismatch : String) :
    replay.forget.consumeAction event mismatch = (replay.consumeAction event mismatch).map forget := by
  have same : replay.forget.emittedActions = replay.emittedActions := rfl
  unfold consumeAction
  rw [same]
  rcases replay.emittedActions with _ | ⟨⟨token, action⟩, rest⟩
  · rfl
  · dsimp only
    split_ifs <;> rfl

theorem forget_matchAndBindSchedule (replay : Replay (State × Option String)) (event : Event) (kind : ActionKind) :
    replay.forget.matchAndBindSchedule event kind =
      (replay.matchAndBindSchedule event kind).map fun bound => (bound.1, bound.2.forget) := by
  have same : replay.forget.emittedActions = replay.emittedActions := rfl
  unfold matchAndBindSchedule
  rw [same]
  rcases replay.emittedActions with _ | ⟨⟨token, action⟩, rest⟩
  · rfl
  · dsimp only
    split_ifs <;> rfl

theorem forget_deliverCompletion (replay : Replay (State × Option String)) (event : Event) (activityOnly : Bool)
    (result : CompletionResult) : replay.forget.deliverCompletion event activityOnly result =
      (replay.deliverCompletion event activityOnly result).map forget := by
  have opens : replay.forget.openSchedules = replay.openSchedules := rfl
  have kinds : replay.forget.scheduleKinds = replay.scheduleKinds := rfl
  unfold deliverCompletion
  rw [opens, kinds]
  rcases event.sourceEventId with _ | sourceId
  · rfl
  · dsimp only
    split_ifs <;> rfl

/-- Applying an event does not ask for the state of the program. -/
theorem forget_applyHistoryEvent (replay : Replay (State × Option String)) (event : Event) :
    replay.forget.applyHistoryEvent event = (replay.applyHistoryEvent event).map forget := by
  unfold applyHistoryEvent
  cases kind : event.kind with
  | orchestrationStarted name version input parentInstance parentId carried status => cases status <;> rfl
  | customStatusUpdated | keyValueSet | keyValueCleared | keyValuesCleared => exact forget_consumeAction ..
  | activityCompleted | activityFailed | timerFired | subOrchestrationCompleted | subOrchestrationFailed =>
    exact forget_deliverCompletion ..
  | activityScheduled | timerCreated | externalSubscribed | queueSubscribed | subOrchestrationScheduled =>
    dsimp only
    rw [forget_matchAndBindSchedule]
    rcases replay.matchAndBindSchedule event _ with failed | ⟨token, bound⟩ <;> rfl
  | orchestrationChained name target input =>
    have same : replay.forget.emittedActions = replay.emittedActions := rfl
    dsimp only
    rw [same]
    rcases replay.emittedActions with _ | ⟨⟨token, action⟩, rest⟩
    · rfl
    · dsimp only
      split_ifs <;> rfl
  | externalSubscribedCancelled | queueSubscriptionCancelled => rcases event.sourceEventId with _ | sourceId <;> rfl
  | externalEvent name data =>
    have same : replay.forget.ctx = replay.ctx := rfl
    dsimp only
    rw [same]
    split_ifs <;> rfl
  | _ => rfl

theorem bindSchedule_status (ctx : CtxInner) (token : Nat) (event : Event) :
    (ctx.bindSchedule token event).accumulatedCustomStatus = ctx.accumulatedCustomStatus := by
  obtain ⟨external, queue, children, same⟩ := CtxInner.bindSchedule_frame ctx token event
  rw [same]
  rfl

/-- Only the start of the execution tells the context a status. -/
theorem observe_status (ctx : CtxInner) (event : Event) :
    (ctx.observe event).accumulatedCustomStatus = event.kind.initialStatus.or ctx.accumulatedCustomStatus := by
  have delivered : ∀ result, (ctx.deliverTo event.sourceEventId result).accumulatedCustomStatus =
      ctx.accumulatedCustomStatus := by
    intro result
    obtain ⟨results, same⟩ := CtxInner.deliverTo_frame ctx event.sourceEventId result
    rw [same]
  unfold CtxInner.observe
  cases kind : event.kind with
  | orchestrationStarted name version input parentInstance parentId carried status => cases status <;> rfl
  | activityCompleted | activityFailed | timerFired | subOrchestrationCompleted | subOrchestrationFailed =>
    exact delivered _
  | externalSubscribedCancelled | queueSubscriptionCancelled => rcases event.sourceEventId with _ | sourceId <;> rfl
  | externalEvent name data =>
    dsimp only
    split_ifs <;> rfl
  | _ => rfl

variable {event : Event} {after : Replay State}

theorem status_of_applied {replay : Replay State} (applied : replay.applyHistoryEvent event = .ok after) :
    after.ctx.accumulatedCustomStatus = event.kind.initialStatus.or replay.ctx.accumulatedCustomStatus := by
  have silent : event.kind.isSchedule ∨ event.kind.isFireAndForget → event.kind.initialStatus = none := by
    intro records
    apply initialStatus_of_not_started
    cases kind : event.kind with
    | orchestrationStarted =>
      rw [kind] at records
      rcases records with schedules | forgets
      · cases schedules
      · cases forgets
    | _ => rfl
  obtain ⟨applies, _, _⟩ := applyHistoryEvent_spec applied
  cases applies with
  | bound token action schedules waiting matched ctx =>
    rw [ctx, bindSchedule_status, silent (.inl schedules), Option.none_or]
  | consumed token action forgets waiting matched ctx => rw [ctx, silent (.inr forgets), Option.none_or]
  | skipped forgets nothing same => rw [same, silent (.inr forgets), Option.none_or]
  | observed noSchedule remembered kept ctx => rw [ctx, observe_status]

/-- An event keeps the status expected if it tells none, or the expected one. -/
theorem expects_of_applied {after : Replay (State × Option String)} (applied : replay.applyHistoryEvent event = .ok after)
    (expects : replay.ctx.accumulatedCustomStatus = replay.fut.2)
    (tells : event.kind.initialStatus = none ∨ event.kind.initialStatus = replay.fut.2) :
    after.ctx.accumulatedCustomStatus = after.fut.2 := by
  rw [status_of_applied applied, (applyHistoryEvent_spec applied).2.1, expects]
  rcases tells with nothing | same
  · rw [nothing, Option.none_or]
  · rw [same, Option.or_self]

/-- The checked program replays a history as the program does, if the first event does not surprise it. -/
theorem mirrors_applyHistory (history : List Event) (plain : ∀ event ∈ history.tail, event.kind.isStarted = false)
    (pending : replay.output = none) (expects : Expects replay)
    (tells : ∀ event ∈ history.head?, ∀ polled, replay.pollIfNeeded (Script.checkedPoll message poll) = .ok polled →
      polled.output = none → event.kind.initialStatus = none ∨ event.kind.initialStatus = polled.fut.2) :
    Mirrors (replay.applyHistory (Script.checkedPoll message poll) history) (replay.forget.applyHistory poll history) := by
  induction history generalizing replay with
  | nil => exact .ran _ expects
  | cons event rest ih =>
    have polls : Mirrors (replay.pollIfNeeded (Script.checkedPoll message poll)) (replay.forget.pollIfNeeded poll) :=
      mirrors_pollIfNeeded pending expects
    unfold applyHistory
    generalize replay.forget.pollIfNeeded poll = unchecked at polls ⊢
    rcases ran : replay.pollIfNeeded (Script.checkedPoll message poll) with failed | polled <;> rw [ran] at polls
    · cases polls
      exact .failed _
    cases polls with
    | ran _ expects =>
      change Mirrors (if polled.output.isSome then _ else _) (if polled.output.isSome then _ else _)
      rcases finished : polled.output with _ | output
      · simp only [Option.isSome_none, Bool.false_eq_true, if_false]
        rw [forget_applyHistoryEvent]
        rcases applied : polled.applyHistoryEvent event with failed | after
        · exact .failed _
        · have unfinished : after.output = none := (applyHistoryEvent_spec applied).2.2.trans finished
          have kept := expects_of_applied applied (expects finished) (tells event rfl polled ran finished)
          apply ih (fun event later => plain event (List.mem_of_mem_tail later)) unfinished fun _ => kept
          intro next first _ _ _
          exact .inl (initialStatus_of_not_started (plain next (List.mem_of_mem_head? first)))
      · exact .ran _ expects

end Replay

namespace StatusReads

open Replay Script

variable {engine : ReplayEngine} {handler : OrchestrationHandler} {message : String} {start : Event} {rest : List Event}

/-- The context in which an execution is polled first. -/
def firstContext (engine : ReplayEngine) (orchestrationName orchestrationVersion : String) (start : Event) : CtxInner :=
  { engine.seedContext orchestrationName orchestrationVersion with accumulatedCustomStatus := start.kind.initialStatus }

/-- The execution carries no status, or the first poll, if it suspends, leaves the carried status behind. -/
def KeepsCarried (engine : ReplayEngine) (handler : OrchestrationHandler)
    (input orchestrationName orchestrationVersion : String) (start : Event) : Prop :=
  start.kind.initialStatus = none ∨ ∀ state after,
    (handler.poll (handler.invoke input)).run (firstContext engine orchestrationName orchestrationVersion start) =
      (.pending state, after) → after.accumulatedCustomStatus = start.kind.initialStatus

/-- A turn of the execution that a start event begins, over a context that is seeded in the same way. -/
structure TurnOf (engine : ReplayEngine) (start : Event) (turn : ReplayEngine) : Prop where
  seeds : ∀ orchestrationName orchestrationVersion, turn.seedContext orchestrationName orchestrationVersion =
    engine.seedContext orchestrationName orchestrationVersion
  history : ∃ rest, turn.baselineHistory ++ turn.historyDelta = start :: rest ∧ ∀ event ∈ rest, event.kind.isStarted = false

/-- In every turn of the execution, the checks of its custom status hold: with them it does what it does without. -/
def ReadsItsWrites (engine : ReplayEngine) (handler : OrchestrationHandler)
    (input orchestrationName orchestrationVersion : String) (start : Event) : Prop :=
  ∀ turn, TurnOf engine start turn → ∀ message,
    turn.executeOrchestration (handler.checked message start.kind.initialStatus) input orchestrationName
      orchestrationVersion = turn.executeOrchestration handler input orchestrationName orchestrationVersion

theorem initialCustomStatusOf_cons (start : Event) (rest : List Event) :
    initialCustomStatusOf (start :: rest) = start.kind.initialStatus := by
  obtain ⟨eventId, source, instanceId, executionId, timestamp, version, kind⟩ := start
  cases kind <;> rfl

theorem convertEmittedActions_status (engine : ReplayEngine) (ctx : CtxInner) (actions : List (Nat × Action)) :
    (engine.convertEmittedActions ctx actions).2.accumulatedCustomStatus = ctx.accumulatedCustomStatus := by
  unfold convertEmittedActions
  induction actions generalizing engine ctx with
  | nil => rfl
  | cons emitted rest ih =>
    refine (ih _ _).trans ?_
    dsimp only
    split <;> rfl

theorem markDroppedQueueWaits_status (ctx : CtxInner) :
    (markDroppedQueueWaits ctx).accumulatedCustomStatus = ctx.accumulatedCustomStatus := by
  obtain ⟨queue, marked⟩ := CtxInner.markDroppedQueueWaits_frame ctx
  rw [marked]

/-- Where the checked program has been suspended, the program has been too, and its last write is expected. -/
theorem pending_of_checked {replay polled : Replay (handler.State × Option String)}
    (expects : replay.ctx.accumulatedCustomStatus = replay.fut.2)
    (ran : replay.pollOrchestrationFuture (checkedPoll message handler.poll) = .ok polled) (pending : polled.output = none) :
    ∃ after, (handler.poll replay.fut.1).run replay.ctx = (.pending polled.fut.1, after) ∧
      polled.fut.2 = after.accumulatedCustomStatus := by
  obtain ⟨after, checked, _⟩ := suspended_of_poll ran pending
  have runs := run_checked message (handler.poll replay.fut.1) replay.ctx
  rw [expects] at runs
  rw [checkedPoll, runs] at checked
  obtain ⟨paused, same⟩ := Prod.mk.inj checked
  generalize (handler.poll replay.fut.1).run replay.ctx = result at paused same ⊢
  obtain ⟨state | output | text, last⟩ := result
  · rw [← PollResult.pending.inj paused]
    exact ⟨last, rfl, rfl⟩
  · cases paused
  · cases paused

theorem mirrors_replayHistory (keeps : KeepsCarried engine handler input orchestrationName orchestrationVersion start)
    (plain : ∀ event ∈ rest, event.kind.isStarted = false) :
    Mirrors (engine.replayHistory (handler.checked message start.kind.initialStatus) input orchestrationName
        orchestrationVersion (start :: rest))
      (engine.replayHistory handler input orchestrationName orchestrationVersion (start :: rest)) := by
  unfold replayHistory
  dsimp only
  rw [initialCustomStatusOf_cons]
  refine Mirrors.bind ?_ fun replay expects => ?_
  · apply mirrors_applyHistory
    · exact plain
    · rfl
    · exact fun _ => rfl
    · intro event first polled ran pending
      cases first
      rcases keeps with nothing | keeps
      · exact .inl nothing
      · obtain ⟨once, first, settled⟩ := ok_of_bind ran
        split_ifs at settled with finished
        · cases settled
          rw [pending] at finished
          cases finished
        · cases settled
          obtain ⟨after, suspends, expected⟩ := pending_of_checked rfl first pending
          exact .inr ((keeps _ after suspends).symm.trans expected.symm)
  · have same : (replay.forget.mustPoll && replay.forget.output.isNone) = (replay.mustPoll && replay.output.isNone) := rfl
    rw [same]
    split_ifs with asked
    · simp only [Bool.and_eq_true, Option.isNone_iff_eq_none] at asked
      exact mirrors_poll (expects asked.2)
    · exact .ran _ expects

theorem mirrors_runQuiescenceLoop {State : Type} {poll : State → Script State} (remaining : Nat) (engine : ReplayEngine)
    {replay : Replay (State × Option String)} (expects : Expects replay) :
    Mirrors (engine.runQuiescenceLoop (checkedPoll message poll) remaining replay).1
        (engine.runQuiescenceLoop poll remaining replay.forget).1 ∧
      (engine.runQuiescenceLoop (checkedPoll message poll) remaining replay).2 =
        (engine.runQuiescenceLoop poll remaining replay.forget).2 := by
  induction remaining generalizing engine replay with
  | zero => exact ⟨.failed _, rfl⟩
  | succ remaining ih =>
    rw [runQuiescenceLoop, runQuiescenceLoop]
    have same : (replay.forget.output.isSome || engine.pendingActions.isEmpty) =
      (replay.output.isSome || engine.pendingActions.isEmpty) := rfl
    rcases stops : (replay.output.isSome || engine.pendingActions.isEmpty) with _ | _ <;> rw [same, stops]
    · simp only [Bool.false_eq_true, if_false]
      simp only [Bool.or_eq_false_iff, Option.isSome_eq_false_iff, Option.isNone_iff_eq_none] at stops
      have polls : Mirrors ({ replay with emittedActions := [] }.pollOrchestrationFuture (checkedPoll message poll))
          ({ replay.forget with emittedActions := [] }.pollOrchestrationFuture poll) :=
        @mirrors_poll State poll message { replay with emittedActions := [] } (expects stops.1)
      generalize { replay with emittedActions := [] }.pollOrchestrationFuture (checkedPoll message poll) = checked at polls ⊢
      generalize { replay.forget with emittedActions := [] }.pollOrchestrationFuture poll = unchecked at polls ⊢
      cases polls with
      | failed result => exact ⟨.failed _, rfl⟩
      | ran polled expects =>
        have kept : ∀ emittedActions, Expects { polled with
            ctx := (engine.convertEmittedActions polled.ctx polled.emittedActions).2, emittedActions } := by
          intro emittedActions unfinished
          exact (convertEmittedActions_status ..).trans (expects unfinished)
        dsimp only [Replay.forget]
        split_ifs
        · exact ⟨.failed _, rfl⟩
        · exact ⟨.ran _ (kept []), rfl⟩
        · exact ih _ (kept [])
    · exact ⟨.ran _ expects, rfl⟩

/-- The checked program runs a turn as the program does, if the first poll leaves the carried status behind. -/
theorem executes_of_keeps {turn : ReplayEngine} (history : turn.baselineHistory ++ turn.historyDelta = start :: rest)
    (plain : ∀ event ∈ rest, event.kind.isStarted = false)
    (keeps : KeepsCarried turn handler input orchestrationName orchestrationVersion start) :
    turn.executeOrchestration (handler.checked message start.kind.initialStatus) input orchestrationName
      orchestrationVersion = turn.executeOrchestration handler input orchestrationName orchestrationVersion := by
  have replays : Mirrors (turn.replayHistory (handler.checked message start.kind.initialStatus) input orchestrationName
      orchestrationVersion (start :: rest)) _ := mirrors_replayHistory keeps plain
  have evaluates : Mirrors (turn.evaluate (handler.checked message start.kind.initialStatus) input orchestrationName
        orchestrationVersion).1 (turn.evaluate handler input orchestrationName orchestrationVersion).1 ∧
      (turn.evaluate (handler.checked message start.kind.initialStatus) input orchestrationName
        orchestrationVersion).2 = (turn.evaluate handler input orchestrationName orchestrationVersion).2 := by
    unfold evaluate
    rw [history]
    generalize turn.replayHistory (handler.checked message start.kind.initialStatus) input orchestrationName
      orchestrationVersion (start :: rest) = checked at replays ⊢
    generalize turn.replayHistory handler input orchestrationName orchestrationVersion (start :: rest) = unchecked
      at replays ⊢
    cases replays with
    | failed result => exact ⟨.failed _, rfl⟩
    | ran replay expects =>
      refine mirrors_runQuiescenceLoop _ _ fun unfinished => ?_
      exact (convertEmittedActions_status ..).trans ((markDroppedQueueWaits_status _).trans (expects unfinished))
  unfold executeOrchestration
  dsimp only
  obtain ⟨mirrors, same⟩ := evaluates
  generalize turn.evaluate (handler.checked message start.kind.initialStatus) input orchestrationName
    orchestrationVersion = checked at mirrors same ⊢
  generalize turn.evaluate handler input orchestrationName orchestrationVersion = unchecked at mirrors same ⊢
  obtain ⟨checked, engine⟩ := checked
  obtain ⟨unchecked, other⟩ := unchecked
  cases same
  cases mirrors <;> rfl

/-- The first turn of an execution, before any message has arrived. -/
def firstTurn (engine : ReplayEngine) (start : Event) : ReplayEngine :=
  { engine with baselineHistory := [start], historyDelta := [], abortError := none }

theorem turnOf_firstTurn (engine : ReplayEngine) (start : Event) : TurnOf engine start (firstTurn engine start) :=
  ⟨fun _ _ => rfl, [], rfl, fun _ none => absurd none List.not_mem_nil⟩

/-- The start event puts the carried status back into the context. -/
theorem applyHistoryEvent_started {State : Type} {status : String} (carries : start.kind.initialStatus = some status)
    (replay : Replay State) : replay.applyHistoryEvent start =
      .ok { replay with ctx := { replay.ctx with accumulatedCustomStatus := some status } } := by
  unfold applyHistoryEvent
  cases kind : start.kind with
  | orchestrationStarted name version input parentInstance parentId carried initial =>
    rw [kind] at carries
    cases carries
    rfl
  | _ =>
    rw [kind] at carries
    cases carries

theorem pollIfNeeded_of_pending {State : Type} {poll : State → Script State} {replay : Replay State} {state : State}
    {after : CtxInner} (asked : replay.mustPoll) (unfinished : replay.output = none)
    (suspends : (poll replay.fut).run replay.ctx = (.pending state, after)) :
    replay.pollIfNeeded poll = .ok { replay with
      ctx := { after with emittedActions := [] }
      fut := state
      emittedActions := replay.emittedActions ++ after.emittedActions
      mustPoll := false } := by
  unfold pollIfNeeded pollOrchestrationFuture
  rw [if_pos asked, suspends]
  change (pure (if replay.output.isSome then _ else _) : Except TurnResult (Replay State)) = _
  rw [unfinished]
  rfl

/-- Where the first poll suspends the program, its start event alone is replayed to the carried status. -/
theorem replayHistory_started {state : handler.State} {after : CtxInner} {status : String}
    (carries : start.kind.initialStatus = some status)
    (suspends : (handler.poll (handler.invoke input)).run
      (firstContext engine orchestrationName orchestrationVersion start) = (.pending state, after)) :
    engine.replayHistory handler input orchestrationName orchestrationVersion [start] = .ok {
      ctx := { after with emittedActions := [], accumulatedCustomStatus := some status }
      fut := state
      emittedActions := after.emittedActions
      mustPoll := false } := by
  unfold replayHistory
  dsimp only
  rw [initialCustomStatusOf_cons]
  change (applyHistory handler.poll [start]
    { ctx := firstContext engine orchestrationName orchestrationVersion start, fut := handler.invoke input } >>= _) = _
  unfold applyHistory
  rw [pollIfNeeded_of_pending rfl rfl suspends]
  change ((Replay.applyHistoryEvent _ start >>= _) >>= _) = _
  rw [applyHistoryEvent_started carries]
  rfl

/-- A poll that finds another status than the expected one fails the turn. -/
theorem runQuiescenceLoop_of_ne {State : Type} {poll : State → Script State} (remaining : Nat)
    {replay : Replay (State × Option String)} (running : replay.output = none) (pending : engine.pendingActions ≠ [])
    (differs : replay.ctx.accumulatedCustomStatus ≠ replay.fut.2) :
    (engine.runQuiescenceLoop (checkedPoll message poll) (remaining + 1) replay).1 = .error (Replay.panicked message) := by
  have fails : { replay with emittedActions := [] }.pollOrchestrationFuture (checkedPoll message poll) =
      .error (Replay.panicked message) := by
    unfold pollOrchestrationFuture checkedPoll
    rw [run_checked_of_ne _ differs]
  rw [runQuiescenceLoop, fails, running, List.isEmpty_eq_false_iff.mpr pending]
  rfl

theorem runLive_of_ne {carried : Option String} {replay : Replay (handler.checked message carried).State}
    (running : replay.output = none) (emits : replay.emittedActions ≠ [])
    (differs : replay.ctx.accumulatedCustomStatus ≠ replay.fut.2) :
    (engine.runLive (handler.checked message carried) replay).1 = .error (Replay.panicked message) := by
  refine runQuiescenceLoop_of_ne 99 running (pending_of_emits engine _ emits) fun same => differs ?_
  have kept := convertEmittedActions_status engine (markDroppedQueueWaits replay.ctx) replay.emittedActions
  exact ((kept.trans (markDroppedQueueWaits_status replay.ctx)).symm.trans same)

/-- Behind a first poll that leaves another status than the carried one, the next check fails. -/
theorem fails_of_not_keeps
    (breaks : ¬ KeepsCarried engine handler input orchestrationName orchestrationVersion start) :
    ((firstTurn engine start).executeOrchestration (handler.checked message start.kind.initialStatus) input
      orchestrationName orchestrationVersion).1 = Replay.panicked message := by
  simp only [KeepsCarried, not_or, not_forall] at breaks
  obtain ⟨carries, state, after, suspends, differs⟩ := breaks
  obtain ⟨status, carries⟩ := Option.ne_none_iff_exists'.mp carries
  have emits : after.emittedActions ≠ [] := by
    have emits := CtxInner.emits_of_run (handler.poll (handler.invoke input))
      (firstContext engine orchestrationName orchestrationVersion start)
    rw [suspends] at emits
    exact emits (.inr differs)
  have checks : ((handler.checked message start.kind.initialStatus).poll
      ((handler.checked message start.kind.initialStatus).invoke input)).run
        (firstContext (firstTurn engine start) orchestrationName orchestrationVersion start) =
      (.pending (state, after.accumulatedCustomStatus), after) := by
    have runs := run_checked message (handler.poll (handler.invoke input))
      (firstContext engine orchestrationName orchestrationVersion start)
    rw [suspends] at runs
    exact runs
  have evaluates : ((firstTurn engine start).evaluate (handler.checked message start.kind.initialStatus) input
      orchestrationName orchestrationVersion).1 = .error (Replay.panicked message) := by
    have alone : (firstTurn engine start).baselineHistory ++ (firstTurn engine start).historyDelta = [start] := rfl
    unfold evaluate
    rw [alone, replayHistory_started carries checks]
    exact runLive_of_ne rfl emits fun same => differs (same.symm.trans carries.symm)
  have begins : startsExecution [start] ∧ [start].any (·.isTerminal) = false := by
    obtain ⟨eventId, source, instanceId, executionId, timestamp, version, kind⟩ := start
    cases kind with
    | orchestrationStarted => exact ⟨rfl, rfl⟩
    | _ => cases carries
  generalize ran : (firstTurn engine start).evaluate (handler.checked message start.kind.initialStatus) input
    orchestrationName orchestrationVersion = result at evaluates
  obtain ⟨result, last⟩ := result
  cases evaluates
  unfold executeOrchestration
  change (if [start].any (·.isTerminal) then _ else
    if [start].isEmpty then _ else if !startsExecution [start] then _ else _ : TurnResult × ReplayEngine).1 = _
  rw [begins.1, begins.2, ran]
  rfl

/-- A program reads its custom status back as it wrote it, or as it was carried on to it, in every turn of its execution
exactly if its first poll leaves the carried status behind. -/
theorem readsItsWrites_iff (engine : ReplayEngine) (handler : OrchestrationHandler)
    (input orchestrationName orchestrationVersion : String) (start : Event) :
    ReadsItsWrites engine handler input orchestrationName orchestrationVersion start ↔
      KeepsCarried engine handler input orchestrationName orchestrationVersion start := by
  constructor
  · intro reads
    by_contra breaks
    have same : ∀ message, ((firstTurn engine start).executeOrchestration handler input orchestrationName
        orchestrationVersion).1 = Replay.panicked message := by
      intro message
      rw [← reads _ (turnOf_firstTurn engine start) message]
      exact fails_of_not_keeps breaks
    have twice := (same "a").symm.trans (same "b")
    simp [Replay.panicked] at twice
  · rintro keeps turn ⟨seeds, rest, history, plain⟩ message
    apply executes_of_keeps history plain
    unfold KeepsCarried firstContext at keeps ⊢
    rwa [seeds]

/-! An orchestration is continued with a status, sets another one, waits for a queue and reads its status back. -/

def rereadHandler : OrchestrationHandler where
  State := Bool
  invoke _ := false
  poll
    | false => .call (.setCustomStatus "new") fun _ => .call (.dequeueEvent "q") fun _ => .suspend true
    | true => .call .getCustomStatus fun (held : Option String) => .finish (.ok (held.getD ""))

/-- The start event of an execution that was continued while its status was "old". -/
def continuedStart : Event :=
  .withEventId ⟨0, "0.1.0"⟩ 1 "i" 2 none (.orchestrationStarted "reread" "1.0.0" "" none none none (some "old"))

/-- It reads the status of the execution before, and not what it has set itself. -/
theorem reread_readsStale :
    ((firstTurn (.new ⟨0, "0.1.0"⟩ "i" 2 []) continuedStart).executeOrchestration rereadHandler "" "reread" "1.0.0").1 =
      .completed "old" ∧
    ¬ ReadsItsWrites (.new ⟨0, "0.1.0"⟩ "i" 2 []) rereadHandler "" "reread" "1.0.0" continuedStart := by
  have plain : ((firstTurn (.new ⟨0, "0.1.0"⟩ "i" 2 []) continuedStart).executeOrchestration rereadHandler "" "reread"
      "1.0.0").1 = .completed "old" := by
    decide +kernel
  have checked : ((firstTurn (.new ⟨0, "0.1.0"⟩ "i" 2 []) continuedStart).executeOrchestration
      (rereadHandler.checked "stale" (some "old")) "" "reread" "1.0.0").1 = Replay.panicked "stale" := by
    decide +kernel
  refine ⟨plain, fun reads => ?_⟩
  have same := reads _ (turnOf_firstTurn _ continuedStart) "stale"
  rw [← same] at plain
  cases checked.symm.trans plain

end StatusReads

end Duroxide
