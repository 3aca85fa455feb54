import Duroxide.Proofs.Matching
import Duroxide.Proofs.DroppedFutures
import Duroxide.Proofs.CarryForward

/-! # Nondeterminism detection

A turn whose program is still suspended when the history is used up has matched it: the events of the history
took the program's actions in the order of their emission, and none was passed over while an action waited.
-/

namespace Duroxide

/-- An event that an action leads to, up to what may differ between two runs of a program: the due time of a
timer, the instance of a child, the text of a custom status and the time of a key-value entry. -/
inductive Action.LeadsTo : Action → EventKind → Prop
  | activity (id : Nat) (name input : String) (sessionId tag : Option String) :
      LeadsTo (.callActivity id name input sessionId tag) (.activityScheduled name input sessionId tag)
  | timer (id fireAtMs recorded : Nat) : LeadsTo (.createTimer id fireAtMs) (.timerCreated recorded)
  | external (id : Nat) (name : String) : LeadsTo (.waitExternal id name) (.externalSubscribed name)
  | queue (id : Nat) (name : String) : LeadsTo (.dequeueEvent id name) (.queueSubscribed name)
  | subOrchestration (id : Nat) (name : String) (version : Option String) (child recorded input : String) :
      LeadsTo (.startSubOrchestration id name version child input) (.subOrchestrationScheduled name recorded input)
  | detached (id : Nat) (name : String) (version : Option String) (target input : String) :
      LeadsTo (.startOrchestrationDetached id name version target input) (.orchestrationChained name target input)
  | customStatus (status recorded : Option String) :
      LeadsTo (.updateCustomStatus status) (.customStatusUpdated recorded)
  | keyValueSet (key value : String) (writtenMs recordedMs : Nat) :
      LeadsTo (.setKeyValue key value writtenMs) (.keyValueSet key value recordedMs)
  | keyValueCleared (key : String) : LeadsTo (.clearKeyValue key) (.keyValueCleared key)
  | keyValuesCleared : LeadsTo .clearKeyValues .keyValuesCleared

theorem leadsTo_iff {action : Action} {kind : EventKind} :
    action.LeadsTo kind ↔ actionMatchesEventKind action kind := by
  constructor
  · intro leads
    cases leads <;> simp [actionMatchesEventKind]
  · intro matched
    cases action <;> cases kind <;> first | cases matched; done | skip
    all_goals
      simp only [actionMatchesEventKind, Bool.and_eq_true, beq_iff_eq] at matched
      try obtain ⟨⟨⟨rfl, rfl⟩, rfl⟩, rfl⟩ := matched
      try obtain ⟨⟨rfl, rfl⟩, rfl⟩ := matched
      try obtain ⟨rfl, rfl⟩ := matched
      try subst matched
      constructor

/-! ## The errors of a turn -/

/-- A computation of a turn that ends the turn only with a failure. -/
def OnlyFails {Value : Type} (computation : Except TurnResult Value) : Prop :=
  ∀ result, computation = .error result → ∃ details, result = .failed details

theorem onlyFails_ok {Value : Type} (value : Value) : OnlyFails (.ok value) := fun _ failed => nomatch failed

theorem onlyFails_failed {Value : Type} (details : ErrorDetails) :
    OnlyFails (.error (.failed details) : Except TurnResult Value) := by
  rintro _ ⟨⟩
  exact ⟨details, rfl⟩

theorem OnlyFails.bind {Value Next : Type} {first : Except TurnResult Value} {next : Value → Except TurnResult Next}
    (fails : OnlyFails first) (later : ∀ value, OnlyFails (next value)) : OnlyFails (first >>= next) := by
  cases first with
  | error result =>
    intro other same
    exact fails other (by cases same; rfl)
  | ok value => exact later value

namespace Replay

variable {State : Type} {poll : State → Script State} {replay : Replay State} {event : Event}

theorem onlyFails_poll : OnlyFails (replay.pollOrchestrationFuture poll) := by
  unfold pollOrchestrationFuture
  split
  · exact onlyFails_ok _
  · exact onlyFails_ok _
  · exact onlyFails_failed _

theorem onlyFails_match {kind : ActionKind} : OnlyFails (replay.matchAndBindSchedule event kind) := by
  unfold matchAndBindSchedule
  split
  · exact onlyFails_failed _
  · split
    · exact onlyFails_failed _
    · exact onlyFails_ok _

theorem onlyFails_consume {mismatch : String} : OnlyFails (replay.consumeAction event mismatch) := by
  unfold consumeAction
  split
  · exact onlyFails_ok _
  · split
    · exact onlyFails_failed _
    · exact onlyFails_ok _

theorem onlyFails_deliver {activityOnly : Bool} {result : CompletionResult} :
    OnlyFails (replay.deliverCompletion event activityOnly result) := by
  unfold deliverCompletion
  split
  · exact onlyFails_ok _
  · split
    · exact onlyFails_failed _
    · split
      · exact onlyFails_failed _
      · exact onlyFails_ok _

theorem onlyFails_applyHistoryEvent : OnlyFails (replay.applyHistoryEvent event) := by
  obtain ⟨eventId, source, owner, executionId, timestamp, version, kind⟩ := event
  cases kind with
  | orchestrationStarted name version input parent parentId carried status =>
    cases status <;> exact onlyFails_ok _
  | customStatusUpdated | keyValueSet | keyValueCleared | keyValuesCleared => exact onlyFails_consume
  | activityScheduled | timerCreated | externalSubscribed | queueSubscribed | subOrchestrationScheduled =>
    exact onlyFails_match.bind fun _ => onlyFails_ok _
  | orchestrationChained =>
    unfold applyHistoryEvent
    dsimp only
    split
    · exact onlyFails_failed _
    · split
      · exact onlyFails_failed _
      · exact onlyFails_ok _
  | activityCompleted | activityFailed | timerFired | subOrchestrationCompleted | subOrchestrationFailed =>
    exact onlyFails_deliver
  | externalSubscribedCancelled | queueSubscriptionCancelled => cases source <;> exact onlyFails_ok _
  | externalEvent =>
    unfold applyHistoryEvent
    dsimp only
    split <;> exact onlyFails_ok _
  | orchestrationCompleted | orchestrationFailed | activityCancelRequested | subOrchestrationCancelRequested
  | orchestrationContinuedAsNew | orchestrationCancelRequested | queueEventDelivered => exact onlyFails_ok _

theorem onlyFails_pollIfNeeded : OnlyFails (replay.pollIfNeeded poll) := by
  unfold pollIfNeeded
  split
  · exact onlyFails_poll.bind fun _ => onlyFails_ok _
  · exact onlyFails_ok _

theorem onlyFails_applyHistory {history : List Event} : OnlyFails (replay.applyHistory poll history) := by
  induction history generalizing replay with
  | nil => exact onlyFails_ok replay
  | cons event rest ih =>
    refine onlyFails_pollIfNeeded.bind fun polled => ?_
    split
    · exact onlyFails_ok polled
    · exact onlyFails_applyHistoryEvent.bind fun after => ih

end Replay

namespace ReplayEngine

variable {engine after : ReplayEngine} {handler : OrchestrationHandler}
  {input orchestrationName orchestrationVersion : String} {history : List Event}

theorem onlyFails_replayHistory :
    OnlyFails (engine.replayHistory handler input orchestrationName orchestrationVersion history) := by
  refine Replay.onlyFails_applyHistory.bind fun replay => ?_
  split
  · exact Replay.onlyFails_poll
  · exact onlyFails_ok replay

theorem onlyFails_runQuiescenceLoop {State : Type} {poll : State → Script State} {remaining : Nat}
    {replay : Replay State} : OnlyFails (engine.runQuiescenceLoop poll remaining replay).1 := by
  induction remaining generalizing engine replay with
  | zero => exact onlyFails_failed _
  | succ remaining ih =>
    unfold runQuiescenceLoop
    split
    · exact onlyFails_ok replay
    split
    · rename_i result failed
      intro other same
      cases same
      exact Replay.onlyFails_poll result failed
    dsimp only
    split
    · exact onlyFails_failed _
    split
    · exact onlyFails_ok _
    · exact ih

theorem onlyFails_evaluate :
    OnlyFails (engine.evaluate handler input orchestrationName orchestrationVersion).1 := by
  unfold evaluate
  split
  · rename_i result failed
    intro other same
    cases same
    exact onlyFails_replayHistory result failed
  · exact onlyFails_runQuiescenceLoop

/-! ## A program that is still suspended -/

/-- A loop that ends without an output started without one. -/
theorem unfinished_of_runQuiescenceLoop {State : Type} {poll : State → Script State} {remaining : Nat}
    {replay last : Replay State} (ran : engine.runQuiescenceLoop poll remaining replay = (.ok last, after))
    (suspended : last.output = none) : replay.output = none := by
  cases remaining with
  | zero => cases ran
  | succ remaining =>
    rcases output : replay.output with _ | value
    · rfl
    · unfold runQuiescenceLoop at ran
      rw [output, Option.isSome_some, Bool.true_or, if_pos rfl] at ran
      cases ran
      rw [output] at suspended
      cases suspended

/-- A program that ended in a turn does not let it continue. -/
theorem suspended_of_continue (running : (engine.baselineHistory ++ engine.historyDelta).any (·.isTerminal) = false)
    (continued : (engine.executeOrchestration handler input orchestrationName orchestrationVersion).1 = .continue) :
    ∃ last after, engine.evaluate handler input orchestrationName orchestrationVersion = (.ok last, after) ∧
      last.output = none := by
  have concludes := executeOrchestration_concludes engine handler input orchestrationName orchestrationVersion
  rw [continued] at concludes
  generalize (engine.executeOrchestration handler input orchestrationName orchestrationVersion).2 = result at concludes
  generalize same : TurnResult.continue = ends at concludes
  cases concludes with
  | idle _ unevaluated =>
    unfold executeOrchestration at continued
    dsimp only at continued
    unfold evaluates at unevaluated
    rw [running] at continued unevaluated
    rcases aborted : engine.abortError with _ | error <;> rw [aborted] at continued unevaluated
    · simp only [Bool.false_eq_true, if_false] at continued
      split_ifs at continued with empty unstarted
      rw [Bool.not_eq_true', Bool.not_eq_false] at unstarted
      rw [unstarted] at unevaluated
      cases unevaluated
    · cases continued
  | failed _ _ evaluates evaluated =>
    obtain ⟨details, failed⟩ := onlyFails_evaluate ends (by rw [evaluated])
    rw [failed] at same
    cases same
  | cancelled => cases same
  | continuesAsNew _ replay after evaluates evaluated unrequested emitted =>
    obtain ⟨action, _, found⟩ := List.exists_of_findSome?_eq_some emitted
    rw [← same] at found
    cases action <;> cases found
  | mismatched _ replay after evaluates evaluated unrequested unemitted mismatch =>
    obtain ⟨details, failed⟩ := CarryForward.collectCancelled_error mismatch
    rw [failed] at same
    cases same
  | collected replay after last ctx evaluates evaluated =>
    refine ⟨replay, after, evaluated, ?_⟩
    rcases output : replay.output with _ | _ | _
    · rfl
    · rw [output] at same
      cases same
    · rw [output] at same
      cases same

/-- A program that is suspended behind the history was suspended at its end. -/
theorem applied_of_suspended {last : Replay handler.State}
    (evaluated : engine.evaluate handler input orchestrationName orchestrationVersion = (.ok last, after))
    (suspended : last.output = none) :
    ∃ applied, (engine.firstReplay handler input orchestrationName orchestrationVersion
        (engine.baselineHistory ++ engine.historyDelta)).applyHistory handler.poll
          (engine.baselineHistory ++ engine.historyDelta) = .ok applied ∧ applied.output = none := by
  unfold evaluate at evaluated
  split at evaluated
  · cases evaluated
  rename_i replayed found
  have unfinished := unfinished_of_runQuiescenceLoop evaluated suspended
  change replayed.output = none at unfinished
  obtain ⟨applied, ran, last⟩ := ok_of_bind found
  refine ⟨applied, ran, ?_⟩
  rcases output : applied.output with _ | value
  · rfl
  · rw [output, Option.isNone_some, Bool.and_false, if_neg Bool.false_ne_true] at last
    cases last
    rw [output] at unfinished
    cases unfinished

/-! ## What the history took -/

/-- An action that an event of a read history takes is one that leads to it. -/
theorem leadsTo_of_reading {State : Type} {poll : State → Script State} {replay last : Replay State}
    {event : Event} {token : Nat} {action : Action}
    (applied : replay.applyHistory poll history = .ok last)
    (took : (event, some (token, action)) ∈ replay.readings poll history) : action.LeadsTo event.kind := by
  have unread : ∀ events : List Event,
      (event, some (token, action)) ∉ events.map fun event => (event, (none : Option (Nat × Action))) := by
    intro events member
    obtain ⟨_, _, same⟩ := List.mem_map.mp member
    cases same
  induction history generalizing replay with
  | nil => cases took
  | cons first rest ih =>
    obtain ⟨polled, ran, continued⟩ := ok_of_bind applied
    unfold Replay.readings at took
    rw [ran] at took
    dsimp only at took
    split_ifs at continued took with finished
    · exact absurd took (unread _)
    obtain ⟨after, read, later⟩ := ok_of_bind continued
    rw [read] at took
    rcases List.mem_cons.mp took with here | behind
    · obtain ⟨applies, _, _⟩ := Replay.applyHistoryEvent_spec read
      obtain ⟨rfl, same⟩ := Prod.mk.inj here
      exact leadsTo_iff.mpr (Replay.matches_of_taken applies same.symm)
    · exact ih later behind

/-- An event that takes no action of a program that stays suspended finds none that waits. -/
theorem passed_of_reading {State : Type} {poll : State → Script State} {replay last : Replay State}
    {event : Event} {before later : List (Event × Option (Nat × Action))}
    (fresh : replay.emittedActions = [])
    (applied : replay.applyHistory poll history = .ok last) (unfinished : last.output = none)
    (passed : replay.readings poll history = before ++ (event, none) :: later) :
    event.kind.isSchedule = false ∧ (event.kind.isFireAndForget →
      before.filterMap (·.2) = replay.emissions poll (before.map (·.1) ++ [event])) := by
  have events : history = before.map (·.1) ++ event :: later.map (·.1) := by
    rw [← replay.readings_events poll history, passed, List.map_append, List.map_cons]
  subst events
  obtain ⟨middle, first, second, splits⟩ := Replay.applyHistory_append applied unfinished
  have lengths : (replay.readings poll (before.map (·.1))).length = before.length := by
    rw [← List.length_map (·.1), replay.readings_events, List.length_map]
  obtain ⟨same, rest⟩ := List.append_inj ((splits _).1.symm.trans passed) lengths
  obtain ⟨polled, after, ran, pending, read, _⟩ := Replay.applyHistory_cons_spec second unfinished
  have finished := Option.not_isSome_iff_eq_none.mpr pending
  have waiting := Replay.waiting_of_pollIfNeeded ran
  obtain ⟨applies, _, _⟩ := Replay.applyHistoryEvent_spec read
  simp only [Replay.readings, ran, if_neg finished, List.cons.injEq, Prod.mk.injEq, true_and] at rest
  obtain ⟨schedules, nothing⟩ := Replay.passed_of_taken applies rest.1
  refine ⟨schedules, fun forgets => ?_⟩
  rw [(splits [event]).2]
  simp only [Replay.emissions, ran, if_neg finished, read, List.append_nil]
  -- Nothing waits at the event, so the events before it took everything that was emitted.
  have emitted := Replay.emissions_eq first
  rw [fresh, List.nil_append, same] at emitted
  rw [nothing forgets] at waiting
  obtain ⟨none, silent⟩ := List.append_eq_nil_iff.mp waiting.symm
  rw [emitted, none, silent, List.append_nil, List.append_nil]

/-- A turn that continues a running execution has matched its history: the events of the history take the first
actions that the program emits, in order, and each takes an action that leads to it. A schedule event always
takes one, and another event only passes over actions if none waits. -/
theorem matched_of_continue
    (running : (engine.baselineHistory ++ engine.historyDelta).any (·.isTerminal) = false)
    (continued : (engine.executeOrchestration handler input orchestrationName orchestrationVersion).1 = .continue) :
    let history := engine.baselineHistory ++ engine.historyDelta
    let replay := engine.firstReplay handler input orchestrationName orchestrationVersion history
    let readings := replay.readings handler.poll history
    readings.map (·.1) = history ∧ readings.filterMap (·.2) <+: replay.emissions handler.poll history ∧
      (∀ event token action, (event, some (token, action)) ∈ readings → action.LeadsTo event.kind) ∧
      ∀ before event later, readings = before ++ (event, none) :: later →
        event.kind.isSchedule = false ∧ (event.kind.isFireAndForget →
          before.filterMap (·.2) = replay.emissions handler.poll (before.map (·.1) ++ [event])) := by
  intro history replay readings
  obtain ⟨last, after, evaluated, suspended⟩ := suspended_of_continue running continued
  obtain ⟨applied, ran, unfinished⟩ := applied_of_suspended evaluated suspended
  refine ⟨replay.readings_events handler.poll history, ⟨applied.emittedActions, ?_⟩, ?_, ?_⟩
  · exact (Replay.emissions_eq ran).symm
  · intro event token action took
    exact leadsTo_of_reading ran took
  · intro before event later passed
    exact passed_of_reading rfl ran unfinished passed

/-! A program that awaits an activity, and one that was changed to do nothing. -/

def awaitingHandler : OrchestrationHandler where
  State := Option Nat
  invoke _ := none
  poll
    | none => .call (.scheduleActivity "work" "1" none) fun token => .suspend (some token)
    | some token => .call (.pollFuture token) fun _ => .suspend (some token)

def idleHandler : OrchestrationHandler where
  State := Unit
  invoke _ := ()
  poll _ := .suspend ()

/-- A second turn over a persisted history of a start and one more event. -/
def secondTurn (kind : EventKind) : ReplayEngine :=
  let event := Event.withEventId ⟨0, "0.1.0"⟩
  .new ⟨0, "0.1.0"⟩ "i" 1
    [event 1 "i" 1 none (.orchestrationStarted "o" "1.0.0" "" none none none none), event 2 "i" 1 none kind]

theorem matched_of_continue_awaiting :
    let engine := secondTurn (.activityScheduled "work" "1" none none)
    let history := engine.baselineHistory ++ engine.historyDelta
    let replay := engine.firstReplay awaitingHandler "" "o" "1.0.0" history
    let readings := replay.readings awaitingHandler.poll history
    readings.map (·.1) = history ∧ readings.filterMap (·.2) <+: replay.emissions awaitingHandler.poll history ∧
      (∀ event token action, (event, some (token, action)) ∈ readings → action.LeadsTo event.kind) ∧
      ∀ before event later, readings = before ++ (event, none) :: later →
        event.kind.isSchedule = false ∧ (event.kind.isFireAndForget →
          before.filterMap (·.2) = replay.emissions awaitingHandler.poll (before.map (·.1) ++ [event])) :=
  matched_of_continue (by decide) (by decide +kernel)

/-- A recorded custom status is passed over by a program that sets none: the turn continues, and there is no action
for the event. -/
theorem customStatus_unmatched :
    let engine := secondTurn (.customStatusUpdated (some "ready"))
    let replay := engine.firstReplay idleHandler "" "o" "1.0.0" engine.baselineHistory
    (engine.executeOrchestration idleHandler "" "o" "1.0.0").1 = .continue ∧
      ¬ ∃ first, first <+: replay.emissions idleHandler.poll engine.baselineHistory ∧
        List.Forall₂ (fun event emitted => emitted.2.LeadsTo event.kind)
          (engine.baselineHistory.filter fun event => event.kind.isSchedule || event.kind.isFireAndForget) first := by
  intro engine replay
  have silent : replay.emissions idleHandler.poll engine.baselineHistory = [] := by decide +kernel
  refine ⟨by decide +kernel, ?_⟩
  rintro ⟨first, emitted, led⟩
  rw [silent, List.prefix_nil] at emitted
  subst emitted
  have lengths := led.length_eq
  revert lengths
  decide

end ReplayEngine

end Duroxide
