import Duroxide.Proofs.QueueDelivery
import Duroxide.Proofs.StatusReads

/-! # Quiescence

Behind its history a program is polled in rounds, as long as it emits something. The rounds are limited: a program that
comes to rest early enough is never failed, and one that keeps emitting is, however few actions it has left. A program
that waits for the futures that it has polled, and for nothing else, has nothing to do in the round after the last one.
-/

namespace Duroxide

open ReplayEngine

/-! ## Rounds -/

namespace ReplayEngine

variable {State : Type} {poll : State → Script State}

/-- One round beyond history: the program is polled, and what it emits is recorded. -/
def round (poll : State → Script State) (engine : ReplayEngine) (replay : Replay State) :
    Except TurnResult (ReplayEngine × Replay State) := do
  let replay ← { replay with emittedActions := [] }.pollOrchestrationFuture poll
  let (engine, ctx) := engine.convertEmittedActions replay.ctx replay.emittedActions
  return (engine, { replay with ctx, emittedActions := [] })

/-- For some rounds the program goes on: it emits something in each of them, and is still pending. -/
def GoesOn (poll : State → Script State) : Nat → ReplayEngine → Replay State → Prop
  | 0, _, _ => True
  | rounds + 1, engine, replay => ∃ next last, round poll engine replay = .ok (next, last) ∧ last.output = none ∧
      engine.pendingActions.length ≠ next.pendingActions.length ∧ GoesOn poll rounds next last

/-- How a loop of a pending program goes, with some rounds left after the first one. -/
inductive LoopStep (poll : State → Script State) (remaining : Nat) (engine : ReplayEngine) (replay : Replay State) : Prop
  | panicked (message : String) (fails : round poll engine replay = .error (Replay.panicked message))
      (ends : (engine.runQuiescenceLoop poll (remaining + 1) replay).1 = .error (Replay.panicked message))
  | exhausted (next : ReplayEngine) (last : Replay State) (ran : round poll engine replay = .ok (next, last))
      (nothingLeft : remaining = 0) (ends : (engine.runQuiescenceLoop poll (remaining + 1) replay).1 = .error quiescenceError)
  | rested (next : ReplayEngine) (last : Replay State) (ran : round poll engine replay = .ok (next, last))
      (same : engine.pendingActions.length = next.pendingActions.length)
      (ends : (engine.runQuiescenceLoop poll (remaining + 1) replay).1 = .ok last)
  | again (next : ReplayEngine) (last : Replay State) (ran : round poll engine replay = .ok (next, last))
      (someLeft : remaining ≠ 0) (grown : engine.pendingActions.length < next.pendingActions.length)
      (ends : (engine.runQuiescenceLoop poll (remaining + 1) replay).1 = (next.runQuiescenceLoop poll remaining last).1)

theorem panicked_of_poll {replay : Replay State} {result : TurnResult}
    (ran : replay.pollOrchestrationFuture poll = .error result) : ∃ message, result = Replay.panicked message := by
  unfold Replay.pollOrchestrationFuture at ran
  generalize (poll replay.fut).run replay.ctx = ended at ran
  obtain ⟨state | output | message, after⟩ := ended
  · cases ran
  · cases ran
  · exact ⟨message, (Except.error.inj ran).symm⟩

theorem loopStep (remaining : Nat) {engine : ReplayEngine} {replay : Replay State} (running : replay.output = none)
    (pending : engine.pendingActions ≠ []) : LoopStep poll remaining engine replay := by
  have goes : (replay.output.isSome || engine.pendingActions.isEmpty) = false := by
    rw [running, List.isEmpty_eq_false_iff.mpr pending]
    rfl
  have loop := runQuiescenceLoop.eq_2 poll engine replay remaining
  rw [goes] at loop
  rcases polled : { replay with emittedActions := [] }.pollOrchestrationFuture poll with result | after <;>
    rw [polled] at loop
  · obtain ⟨message, rfl⟩ := panicked_of_poll polled
    have fails : round poll engine replay = .error (Replay.panicked message) := by
      rw [round, polled]
      rfl
    exact .panicked message fails (congrArg Prod.fst loop)
  · have ran : round poll engine replay = .ok ((engine.convertEmittedActions after.ctx after.emittedActions).1,
        { after with ctx := (engine.convertEmittedActions after.ctx after.emittedActions).2, emittedActions := [] }) := by
      rw [round, polled]
      rfl
    have grows := length_convertEmittedActions engine after.ctx after.emittedActions
    simp only [Bool.false_eq_true, if_false] at loop
    split_ifs at loop with none same
    · exact .exhausted _ _ ran none (congrArg Prod.fst loop)
    · exact .rested _ _ ran same.symm (congrArg Prod.fst loop)
    · refine .again _ _ ran none ?_ (congrArg Prod.fst loop)
      omega

/-- A loop that runs out of rounds has gone on in all of them but the last. -/
theorem goesOn_of_exhausted {remaining : Nat} {engine : ReplayEngine} {replay : Replay State}
    (running : replay.output = none) (pending : engine.pendingActions ≠ [])
    (fails : (engine.runQuiescenceLoop poll (remaining + 1) replay).1 = .error quiescenceError) :
    GoesOn poll remaining engine replay := by
  induction remaining generalizing engine replay with
  | zero => trivial
  | succ remaining ih =>
    cases @loopStep State poll (remaining + 1) engine replay running pending with
    | panicked message _ ends =>
      rw [ends] at fails
      cases fails
    | exhausted next last _ nothingLeft => cases nothingLeft
    | rested next last _ _ ends =>
      rw [ends] at fails
      cases fails
    | again next last ran _ grown ends =>
      rw [ends] at fails
      have unfinished : last.output = none := by
        rcases output : last.output with _ | result
        · rfl
        · rw [runQuiescenceLoop, output] at fails
          cases fails
      have more : next.pendingActions ≠ [] := List.ne_nil_of_length_pos (Nat.zero_lt_of_lt grown)
      exact ⟨next, last, ran, unfinished, grown.ne, ih unfinished more fails⟩

/-- A program that goes on for all rounds of a loop is failed. -/
theorem exhausted_of_goesOn {rounds : Nat} {engine : ReplayEngine} {replay : Replay State}
    (running : replay.output = none) (pending : engine.pendingActions ≠ []) (goesOn : GoesOn poll rounds engine replay) :
    (engine.runQuiescenceLoop poll rounds replay).1 = .error quiescenceError := by
  induction rounds generalizing engine replay with
  | zero => rfl
  | succ rounds ih =>
    obtain ⟨next, last, ran, unfinished, grows, more⟩ := goesOn
    cases @loopStep State poll rounds engine replay running pending with
    | panicked message fails =>
      rw [ran] at fails
      cases fails
    | exhausted _ _ _ _ ends => exact ends
    | rested _ _ ran' same =>
      rw [ran] at ran'
      cases ran'
      exact absurd same grows
    | again _ _ ran' _ grown ends =>
      rw [ran] at ran'
      cases ran'
      exact ends.trans (ih unfinished (List.ne_nil_of_length_pos (Nat.zero_lt_of_lt grown)) more)

end ReplayEngine

/-! ## Futures that are still pending -/

namespace QueueEvents

variable {queue : QueueEvents} {scheduleId other : Nat}

/-- The message that a subscription gets. -/
theorem getQueueMessage_fst (queue : QueueEvents) (scheduleId : Nat) : (queue.getQueueMessage scheduleId).1 =
    if queue.isResolved scheduleId ∨ scheduleId ∈ queue.cancelledSubscriptions then none
    else (queue.subscriptionName scheduleId).bind fun name => (queue.arrivals name)[queue.arrivalIndex scheduleId name]? := by
  rcases bound : queue.subscriptionName scheduleId with _ | name
  · simp [getQueueMessage, bound]
  · by_cases resolved : queue.isResolved scheduleId
    · simp [getQueueMessage, bound, resolved]
    · by_cases cancelled : scheduleId ∈ queue.cancelledSubscriptions
      · simp [getQueueMessage, bound, resolved, cancelled]
      · rcases found : (queue.arrivals name)[queue.arrivalIndex scheduleId name]? with _ | data <;>
          simp [getQueueMessage, bound, resolved, cancelled, found]

/-- A subscription that gets nothing changes nothing. -/
theorem getQueueMessage_of_none (nothing : (queue.getQueueMessage scheduleId).1 = none) :
    queue.getQueueMessage scheduleId = (none, queue) := by
  rcases QueueDelivery.getQueueMessage_cases queue scheduleId with unchanged | ⟨name, data, _, _, _, _, taken⟩
  · exact unchanged
  · rw [taken] at nothing
    cases nothing

/-- What one subscription takes does not help another one. -/
theorem getQueueMessage_after (nothing : (queue.getQueueMessage scheduleId).1 = none) :
    ((queue.getQueueMessage other).2.getQueueMessage scheduleId).1 = none := by
  rcases QueueDelivery.getQueueMessage_cases queue other with unchanged | ⟨name, data, _, _, _, _, taken⟩
  · rwa [unchanged]
  · rw [taken]
    rw [getQueueMessage_fst] at nothing ⊢
    by_cases stops : queue.isResolved scheduleId ∨ scheduleId ∈ queue.cancelledSubscriptions
    · refine if_pos (stops.imp_left fun resolved => ?_)
      rw [isResolved, List.any_append]
      exact Bool.or_eq_true_iff.mpr (.inl resolved)
    · rw [if_neg stops] at nothing
      split_ifs
      · rfl
      · exact nothing

end QueueEvents

namespace CtxInner

variable {ctx after : CtxInner} {token : Nat}

/-- A future that is polled in vain. -/
def Unready (ctx : CtxInner) (token : Nat) : Prop := (ctx.pollFuture token).1 = none

theorem readyValue_of_none {kind : ScheduleKind} (nothing : (ctx.readyValue token kind).1 = none) :
    ctx.readyValue token kind = (none, ctx) := by
  cases kind with
  | queueDequeue name =>
    unfold readyValue at nothing ⊢
    dsimp only at nothing ⊢
    split
    · rename_i id bound
      rw [bound] at nothing
      have silent := QueueEvents.getQueueMessage_of_none (Option.map_eq_none_iff.mp nothing)
      rw [silent]
      rfl
    · rfl
  | _ => exact Prod.ext nothing rfl

/-- Polling in vain changes nothing. -/
theorem Unready.pollFuture (unready : Unready ctx token) : ctx.pollFuture token = (none, ctx) := by
  unfold Unready at unready
  unfold CtxInner.pollFuture at unready ⊢
  split
  · rename_i future found
    rw [found] at unready
    dsimp only at unready ⊢
    split_ifs at unready ⊢
    · rfl
    · rcases ready : ctx.readyValue token future.kind with ⟨_ | value, polled⟩
      · rw [readyValue_of_none (by rw [ready])] at ready
        cases ready
        rfl
      · rw [ready] at unready
        cases unready
  · rfl

/-- A context in which nothing has come for a future. -/
structure Idles (ctx after : CtxInner) (token : Nat) : Prop where
  future : after.futures token = ctx.futures token ∨ ∀ future ∈ after.futures token, future.dropped
  results : after.completionResults = ctx.completionResults
  bindings : after.tokenBindings = ctx.tokenBindings
  external : after.external = ctx.external
  queue : after.queue = ctx.queue ∨ ∃ id, after.queue = (ctx.queue.getQueueMessage id).2

theorem Idles.readyValue (idles : Idles ctx after token) {kind : ScheduleKind}
    (nothing : (ctx.readyValue token kind).1 = none) : (after.readyValue token kind).1 = none := by
  unfold CtxInner.readyValue at nothing ⊢
  cases kind with
  | queueDequeue name =>
    dsimp only at nothing ⊢
    rw [idles.bindings]
    rcases bound : ctx.tokenBindings token with _ | id
    · rfl
    · rw [bound] at nothing
      have silent : (after.queue.getQueueMessage id).1 = none := by
        rcases idles.queue with same | ⟨other, taken⟩
        · rw [same]
          exact Option.map_eq_none_iff.mp nothing
        · rw [taken]
          exact QueueEvents.getQueueMessage_after (Option.map_eq_none_iff.mp nothing)
      exact Option.map_eq_none_iff.mpr silent
  | externalWait name =>
    dsimp only at nothing ⊢
    rwa [idles.bindings, idles.external]
  | _ =>
    dsimp only at nothing ⊢
    rwa [idles.results]

/-- A future for which nothing has come is still pending. -/
theorem Unready.of_idles (unready : Unready ctx token) (idles : Idles ctx after token) : Unready after token := by
  unfold Unready CtxInner.pollFuture at unready ⊢
  rcases idles.future with same | dropped
  · rw [same]
    rcases found : ctx.futures token with _ | future
    · rfl
    · rw [found] at unready
      dsimp only at unready ⊢
      split_ifs at unready ⊢
      · rfl
      · have nothing : (ctx.readyValue token future.kind).1 = none := by
          rcases ready : ctx.readyValue token future.kind with ⟨_ | value, polled⟩
          · rfl
          · rw [ready] at unready
            cases unready
        rw [readyValue_of_none (idles.readyValue nothing)]
  · rcases found : after.futures token with _ | future
    · rfl
    · dsimp only
      rw [if_pos (dropped future found)]

theorem idles_of_pollFuture {other : Nat} (differs : token ≠ other) : Idles ctx (ctx.pollFuture other).2 token := by
  have future := pollFuture_others ctx differs
  obtain ⟨futures, mailbox, same, taken, _⟩ := pollFuture_frame ctx other
  rw [same] at future ⊢
  exact ⟨.inl future, rfl, rfl, rfl, taken⟩

theorem idles_of_dropFuture (ctx : CtxInner) (token other : Nat) : Idles ctx (ctx.dropFuture other) token := by
  have future := dropFuture_future ctx other token
  obtain ⟨futures, tokens, kinds, same, _⟩ := dropFuture_frame ctx other
  rw [same] at future ⊢
  exact ⟨future, rfl, rfl, rfl, .inl rfl⟩

/-- A call that emits nothing brings nothing for a pending future. -/
theorem unready_of_perform {request : CtxCall} {reply : request.Reply} (performed : ctx.perform request = .ok (reply, after))
    (quiet : after.emittedActions = []) (unready : Unready ctx token) : Unready after token := by
  cases request with
  | getCustomStatus | getKvValue | getKvLength =>
    cases performed
    exact unready
  | pollFuture other =>
    have polled : ctx.pollFuture other = (reply, after) := Except.ok.inj performed
    rcases eq_or_ne token other with rfl | differs
    · rw [unready.pollFuture] at polled
      cases polled
      exact unready
    · have idles := @idles_of_pollFuture ctx token other differs
      rw [polled] at idles
      exact unready.of_idles idles
  | dropFuture other =>
    cases performed
    exact unready.of_idles (idles_of_dropFuture ctx token other)
  | withTag other tag =>
    obtain ⟨retag, rfl, _⟩ := withTag_frame performed
    exact unready.of_idles ⟨.inl rfl, rfl, rfl, rfl, .inl rfl⟩
  | pruneKvValuesUpdatedBefore updatedBeforeMs =>
    obtain ⟨state, times, next, emitted, _, same⟩ := clearKvValues_frame (ctx.staleKvKeys updatedBeforeMs) ctx
    cases performed
    rw [same]
    exact unready.of_idles ⟨.inl rfl, rfl, rfl, rfl, .inl rfl⟩
  | _ =>
    cases performed
    exact absurd quiet (List.append_ne_nil_of_right_ne_nil _ (List.cons_ne_nil _ _))

end CtxInner

/-! ## Programs that wait for futures -/

namespace Script

variable {State : Type} {poll : State → Script State} {state : State} {ctx after : CtxInner}

/-- A poll that asks for some futures in turn, and suspends the program again where none of them is ready. -/
def Reawaits (state : State) : List Nat → Script State → Prop
  | [], script => script = .suspend state
  | token :: rest, script => ∃ next : Option CompletionResult → Script State,
      script = .call (.pollFuture token) next ∧ Reawaits state rest (next none)

/-- A program that suspends only to wait for futures that it has polled in vain in the same poll. -/
def SuspendsOn (poll : State → Script State) : List Nat → Script State → Prop
  | polled, .suspend state => ∃ waits, (∀ token ∈ waits, token ∈ polled) ∧ Reawaits state waits (poll state)
  | _, .finish _ => True
  | _, .panic _ => True
  | polled, .call (.pollFuture token) next =>
      SuspendsOn poll (token :: polled) (next none) ∧ ∀ value, SuspendsOn poll polled (next (some value))
  | polled, .call _ next => ∀ reply, SuspendsOn poll polled (next reply)

theorem run_of_reawaits {waits : List Nat} {script : Script State} (reawaits : Reawaits state waits script)
    (unready : ∀ token ∈ waits, ctx.Unready token) : script.run ctx = (.pending state, ctx) := by
  induction waits generalizing script with
  | nil =>
    rw [show script = .suspend state from reawaits]
    rfl
  | cons token rest ih =>
    obtain ⟨next, rfl, later⟩ := reawaits
    have polled : ctx.perform (.pollFuture token) = .ok (none, ctx) :=
      congrArg Except.ok (unready token List.mem_cons_self).pollFuture
    unfold run
    rw [polled]
    exact ih later fun other member => unready other (List.mem_cons_of_mem _ member)

/-- Where a poll that emits nothing suspends the program, the futures that it waits for are still pending. -/
theorem reawaits_of_run {script : Script State} {polled : List Nat} (suspends : SuspendsOn poll polled script)
    (unready : ∀ token ∈ polled, ctx.Unready token) (ran : script.run ctx = (.pending state, after))
    (quiet : after.emittedActions = []) :
    ∃ waits, Reawaits state waits (poll state) ∧ ∀ token ∈ waits, after.Unready token := by
  induction script generalizing ctx polled with
  | suspend paused =>
    cases ran
    obtain ⟨waits, inPolled, reawaits⟩ := suspends
    exact ⟨waits, reawaits, fun token member => unready token (inPolled token member)⟩
  | finish | panic => cases ran
  | call request next ih =>
    unfold run at ran
    rcases performed : ctx.perform request with message | ⟨reply, middle⟩
    · rw [performed] at ran
      cases ran
    · rw [performed] at ran
      dsimp only at ran
      have silent : middle.emittedActions = [] := by
        by_contra emitted
        have emits := CtxInner.emits_of_run (next reply) middle (.inl emitted)
        rw [ran] at emits
        exact emits quiet
      have kept : ∀ token ∈ polled, middle.Unready token := fun token member =>
        CtxInner.unready_of_perform performed silent (unready token member)
      cases request with
      | pollFuture token =>
        rcases reply with _ | value
        · apply ih none suspends.1 _ ran
          intro other member
          rcases List.mem_cons.mp member with rfl | before
          · have vain : ctx.Unready other := congrArg Prod.fst (Except.ok.inj performed)
            exact CtxInner.unready_of_perform performed silent vain
          · exact kept other before
        · exact ih (some value) (suspends.2 value) kept ran
      | _ => exact ih reply (suspends reply) kept ran

end Script

namespace Quiescence

variable {State : Type} {poll : State → Script State} {engine : ReplayEngine} {replay : Replay State}

/-- A program that waits for futures that it has polled, and for nothing else. -/
def AwaitsFutures (poll : State → Script State) : Prop := ∀ state, (poll state).SuspendsOn poll []

/-- A program that stays where it is emits nothing and makes no progress. -/
theorem poll_of_staying (stays : (poll replay.fut).run replay.ctx = (.pending replay.fut, replay.ctx))
    (drained : replay.ctx.emittedActions = []) : replay.pollOrchestrationFuture poll = .ok replay := by
  unfold Replay.pollOrchestrationFuture
  rw [stays]
  change Except.ok { replay with
    ctx := { replay.ctx with emittedActions := [] }
    emittedActions := replay.emittedActions ++ replay.ctx.emittedActions } = _
  rw [drained, List.append_nil, ← drained]

/-- Behind a poll that emits nothing the program stays where it is. -/
theorem stays_of_silent {polled : Replay State} (awaits : AwaitsFutures poll)
    (ran : { replay with emittedActions := [] }.pollOrchestrationFuture poll = .ok polled)
    (silent : polled.emittedActions = []) (unfinished : polled.output = none) :
    polled.pollOrchestrationFuture poll = .ok polled := by
  obtain ⟨after, suspends, same⟩ := Replay.suspended_of_poll ran unfinished
  have quiet : after.emittedActions = [] := by
    rw [same] at silent
    exact silent
  have ctx : polled.ctx = after := by
    rw [same, ← quiet]
  obtain ⟨waits, reawaits, unready⟩ := Script.reawaits_of_run (awaits _) (fun _ none => absurd none List.not_mem_nil)
    suspends quiet
  rw [← ctx] at unready quiet
  exact poll_of_staying (Script.run_of_reawaits reawaits unready) quiet

/-- A round that emits nothing has been the poll of a program that stays where it is. -/
theorem repoll_of_silent {next : ReplayEngine} {last : Replay State} (awaits : AwaitsFutures poll)
    (ran : round poll engine replay = .ok (next, last)) (same : engine.pendingActions.length = next.pendingActions.length)
    (unfinished : last.output = none) : last.pollOrchestrationFuture poll = .ok last := by
  obtain ⟨polled, first, recorded⟩ := ok_of_bind ran
  have made : (Except.ok ((engine.convertEmittedActions polled.ctx polled.emittedActions).1, { polled with
      ctx := (engine.convertEmittedActions polled.ctx polled.emittedActions).2, emittedActions := [] }) :
        Except TurnResult (ReplayEngine × Replay State)) = .ok (next, last) := recorded
  obtain ⟨rfl, rfl⟩ := Prod.mk.inj (Except.ok.inj made)
  rw [length_convertEmittedActions] at same
  have silent : polled.emittedActions = [] := List.length_eq_zero_iff.mp (by omega)
  have kept : { polled with
      ctx := (engine.convertEmittedActions polled.ctx polled.emittedActions).2, emittedActions := [] } = polled := by
    rw [silent]
    change { polled with emittedActions := [] } = polled
    rw [← silent]
  rw [kept]
  exact stays_of_silent awaits first silent unfinished

theorem last_of_finished {remaining : Nat} {last : Replay State} {result : Except String String}
    (finished : replay.output = some result)
    (ends : (engine.runQuiescenceLoop poll remaining replay).1 = .ok last) : last = replay := by
  cases remaining with
  | zero => cases ends
  | succ remaining =>
    rw [runQuiescenceLoop, finished] at ends
    exact (Except.ok.inj ends).symm

/-- A loop that fails has polled a pending program. -/
theorem running_of_fails {remaining : Nat} {result : TurnResult}
    (fails : (engine.runQuiescenceLoop poll (remaining + 1) replay).1 = .error result) :
    replay.output = none ∧ engine.pendingActions ≠ [] := by
  rw [runQuiescenceLoop] at fails
  rcases stops : (replay.output.isSome || engine.pendingActions.isEmpty) with _ | _
  · rw [Bool.or_eq_false_iff, Option.isSome_eq_false_iff, Option.isNone_iff_eq_none, List.isEmpty_eq_false_iff] at stops
    exact stops
  · rw [stops] at fails
    cases fails

/-- Where a loop leaves the program pending, polling it once more does nothing. -/
theorem repoll_of_loop {remaining : Nat} {last : Replay State} (awaits : AwaitsFutures poll)
    (running : replay.output = none) (pending : engine.pendingActions ≠ [])
    (ends : (engine.runQuiescenceLoop poll remaining replay).1 = .ok last) (unfinished : last.output = none) :
    last.pollOrchestrationFuture poll = .ok last := by
  induction remaining generalizing engine replay with
  | zero => cases ends
  | succ remaining ih =>
    cases @loopStep State poll remaining engine replay running pending with
    | panicked message _ fails =>
      rw [fails] at ends
      cases ends
    | exhausted next later _ _ fails =>
      rw [fails] at ends
      cases ends
    | rested next later ran same rests =>
      rw [rests] at ends
      cases ends
      exact repoll_of_silent awaits ran same unfinished
    | again next later ran _ grown continues =>
      rw [continues] at ends
      have more : next.pendingActions ≠ [] := List.ne_nil_of_length_pos (Nat.zero_lt_of_lt grown)
      rcases output : later.output with _ | result
      · exact ih output more ends
      · rw [last_of_finished output ends, output] at unfinished
        cases unfinished

def takeMessages : Nat → Script (Nat × Option Nat)
  | 0 => .finish (.ok "done")
  | left + 1 => .call (.dequeueEvent "q") fun (token : Nat) => .call (.pollFuture token) fun
    | some _ => takeMessages left
    | none => .suspend (left, some token)

def takePoll : Nat × Option Nat → Script (Nat × Option Nat)
  | (left, none) => takeMessages left
  | (left, some token) => .call (.pollFuture token) fun
    | some _ => takeMessages left
    | none => .suspend (left, some token)

theorem awaitsFutures_takePoll : AwaitsFutures takePoll := by
  have waits : ∀ left token polled, Script.SuspendsOn takePoll (token :: polled) (.suspend (left, some token)) :=
    fun left token polled => ⟨[token], fun _ member => List.mem_singleton.mp member ▸ List.mem_cons_self, _, rfl, rfl⟩
  have takes : ∀ left polled, Script.SuspendsOn takePoll polled (takeMessages left) := by
    intro left
    induction left with
    | zero => exact fun _ => trivial
    | succ left ih => exact fun polled token => ⟨waits left token polled, fun _ => ih polled⟩
  rintro ⟨left, _ | token⟩
  · exact takes left []
  · exact ⟨waits left token [], fun _ => takes left []⟩

/-- A program that resets its status whenever it is polled. -/
def resetPoll (_ : Unit) : Script Unit := .call .resetCustomStatus fun _ => .suspend ()

theorem goesOn_resetPoll (rounds : Nat) (engine : ReplayEngine) (replay : Replay Unit) (running : replay.output = none) :
    GoesOn resetPoll rounds engine replay := by
  induction rounds generalizing engine replay with
  | zero => trivial
  | succ rounds ih =>
    refine ⟨_, _, rfl, running, fun same => ?_, ih _ _ running⟩
    have grown := same.trans (length_convertEmittedActions _ _ _)
    change _ = _ + List.length ([] ++ (replay.ctx.emittedActions ++ [_])) at grown
    simp only [List.nil_append, List.length_append, List.length_cons] at grown
    omega

/-- A turn with a timer pending, and a program in some state. -/
def waitingTurn : ReplayEngine := { ReplayEngine.new ⟨0, "0.1.0"⟩ "i" 1 [] with pendingActions := [.createTimer 2 5] }

def waitingReplay {State : Type} (state : State) : Replay State := { ctx := .new 1 "i" "o" "1.0.0" 0, fut := state }

def takeHandler (count : Nat) : OrchestrationHandler where
  State := Nat × Option Nat
  invoke _ := (count, none)
  poll := takePoll

def turnEvent (eventId : Nat) (source : Option Nat) (kind : EventKind) : Event :=
  .withEventId ⟨0, "0.1.0"⟩ eventId "i" 1 source kind

def startedTurn (events delta : List Event) : ReplayEngine :=
  let started := turnEvent 1 none (.orchestrationStarted "o" "1.0.0" "" none none none none)
  { ReplayEngine.new ⟨0, "0.1.0"⟩ "i" 1 (started :: events) with
    historyDelta := delta, nextEventId := events.length + delta.length + 2 }

/-- A first turn over some messages that were buffered before it. -/
def bufferedTurn (count : Nat) : ReplayEngine :=
  startedTurn [] ((List.range count).map fun index => turnEvent (index + 2) none (.queueEventDelivered "q" "m"))

/-- Where the program is that waits for its second message and drops its first wait when a timer fires. -/
inductive Racing where
  | begins
  | racing
  | dropped
deriving DecidableEq, Repr

def racingHandler : OrchestrationHandler where
  State := Racing
  invoke _ := .begins
  poll
    | .begins => .call (.dequeueEvent "q") fun _ => .call (.dequeueEvent "q") fun _ => .call (.scheduleTimer 10) fun _ =>
        .call (.pollFuture 2) fun _ => .call (.pollFuture 3) fun _ => .suspend .racing
    | .racing => .call (.pollFuture 2) fun
        | some _ => .finish (.ok "second")
        | none => .call (.pollFuture 3) fun
          | some _ => .call (.dropFuture 1) fun _ => .suspend .dropped
          | none => .suspend .racing
    | .dropped => .call (.pollFuture 2) fun
        | some _ => .finish (.ok "second")
        | none => .suspend .dropped

/-- One message has arrived, and the timer has fired. -/
def racingTurn : ReplayEngine :=
  startedTurn [turnEvent 2 none (.queueSubscribed "q"), turnEvent 3 none (.queueSubscribed "q"),
      turnEvent 4 none (.timerCreated 10)]
    [turnEvent 5 none (.queueEventDelivered "q" "m"), turnEvent 6 (some 4) (.timerFired 10)]

def countingHandler : OrchestrationHandler where
  State := Nat
  invoke _ := 0
  poll
    | 0 => .call .resetCustomStatus fun _ => .suspend 1
    | 1 => .suspend 2
    | _ => .finish (.ok "third")

/-- Whether an evaluation leaves a program pending that finishes when it is polled once more. -/
def finishesNext (handler : OrchestrationHandler) (turn : ReplayEngine) : Bool :=
  match (turn.evaluate handler "" "o" "1.0.0").1 with
  | .ok last => last.output.isNone && match last.pollOrchestrationFuture handler.poll with
    | .ok polled => polled.output.isSome
    | .error _ => false
  | .error _ => false

end Quiescence

end Duroxide
