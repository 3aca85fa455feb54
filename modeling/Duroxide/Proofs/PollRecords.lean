import Duroxide.Model.Polls
import Duroxide.Proofs.DropBreadcrumbs
import Duroxide.Proofs.ExternalSlots

/-! # The record of polls

Recording the polls of an evaluation changes nothing about it. A replay polls where an event has asked for it, which
the events alone decide, and it is replaying exactly there where events that were persisted are still ahead.
-/

namespace Duroxide

/-! ## Events that ask for a poll -/

/-- Whether an event asks for a poll once it is applied: a completion, a queue message, a queue subscription, or a
positional event that meets a pending subscription. -/
def Event.asksPoll (external : ExternalEvents) (event : Event) : Bool :=
  match event.kind with
  | .activityCompleted _ | .activityFailed _ | .timerFired _ | .subOrchestrationCompleted _
  | .subOrchestrationFailed _ => event.sourceEventId.isSome
  | .queueSubscribed _ | .queueEventDelivered .. => true
  | .externalEvent name _ => external.hasPendingSubscriptionSlot name
  | _ => false

/-- Whether the last event of a history asks for a poll. -/
def asksPoll (history : List Event) : Bool :=
  history.getLast?.any (·.asksPoll (externalOf history.dropLast))

@[simp] theorem asksPoll_nil : asksPoll [] = false := rfl

@[simp] theorem asksPoll_append (history : List Event) (event : Event) :
    asksPoll (history ++ [event]) = event.asksPoll (externalOf history) := by
  simp [asksPoll]

section Quiet

variable {history events seen : List Event}

/-- Behind events that ask for nothing, nothing is asked for. -/
theorem asksPoll_of_quiet (quiet : ∀ event ∈ events, ∀ external, event.asksPoll external = false) (some : events ≠ []) :
    asksPoll (history ++ events) = false := by
  obtain none | ⟨before, last, rfl⟩ := events.eq_nil_or_concat
  · exact absurd none some
  · rw [List.concat_eq_append] at quiet ⊢
    rw [← List.append_assoc, asksPoll_append]
    exact quiet last (List.mem_append_right _ List.mem_cons_self) _

theorem prefix_of_quiet (quiet : ∀ event ∈ events, ∀ external, event.asksPoll external = false)
    (inside : seen <+: history ++ events) (asks : seen = [] ∨ asksPoll seen) : seen <+: history := by
  rcases List.prefix_or_prefix_of_prefix inside (List.prefix_append history events) with within | ⟨taken, rfl⟩
  · exact within
  · have inner := (List.prefix_append_right_inj history).mp inside
    rcases eq_or_ne taken [] with rfl | some
    · rw [List.append_nil]
    · have unasked := @asksPoll_of_quiet history taken (fun event member => quiet event (inner.subset member)) some
      rcases asks with nothing | asked
      · exact absurd (List.append_eq_nil_iff.mp nothing).2 some
      · rw [unasked] at asked
        cases asked

end Quiet

namespace Replay

variable {State : Type}

/-! ## The record changes nothing -/

theorem applyHistoryPolled_result (poll : State → Script State) (replayBoundary eventIndex : Nat) (isReplaying : Bool)
    (history : List Event) (replay : Replay State) :
    (replay.applyHistoryPolled poll replayBoundary history eventIndex isReplaying).2 = replay.applyHistory poll history := by
  induction history generalizing replay eventIndex isReplaying with
  | nil => rfl
  | cons event rest ih =>
    rw [applyHistoryPolled, applyHistory]
    cases replay.pollIfNeeded poll with
    | error result => rfl
    | ok polled =>
      change _ = if polled.output.isSome then _ else _
      dsimp only
      rcases finished : polled.output.isSome with _ | _
      · simp only [Bool.false_eq_true, if_false]
        cases polled.applyHistoryEvent event with
        | error result => rfl
        | ok after => exact ih _ _ after
      · simp only [if_true]
        rfl

end Replay

namespace ReplayEngine

variable {engine : ReplayEngine} {handler : OrchestrationHandler}
  {input orchestrationName orchestrationVersion : String}

theorem replayHistoryPolled_result (engine : ReplayEngine) (handler : OrchestrationHandler)
    (input orchestrationName orchestrationVersion : String) (workingHistory : List Event) :
    (engine.replayHistoryPolled handler input orchestrationName orchestrationVersion workingHistory).2 =
      engine.replayHistory handler input orchestrationName orchestrationVersion workingHistory := by
  unfold replayHistoryPolled replayHistory
  dsimp only
  rw [← Replay.applyHistoryPolled_result handler.poll engine.persistedHistoryLen 0
    (if engine.persistedHistoryLen = 0 then false else true)]
  generalize Replay.applyHistoryPolled handler.poll engine.persistedHistoryLen workingHistory 0
    (if engine.persistedHistoryLen = 0 then false else true) _ = traced
  obtain ⟨polls, result | replay⟩ := traced
  · rfl
  · change _ = if replay.mustPoll && replay.output.isNone then _ else _
    dsimp only
    split_ifs <;> rfl

theorem runQuiescenceLoopPolled_result {State : Type} (poll : State → Script State) (read remaining : Nat)
    (engine : ReplayEngine) (replay : Replay State) :
    (engine.runQuiescenceLoopPolled poll read remaining replay).2 = engine.runQuiescenceLoop poll remaining replay := by
  induction remaining generalizing engine replay with
  | zero => rfl
  | succ remaining ih =>
    rw [runQuiescenceLoopPolled, runQuiescenceLoop]
    rcases stops : (replay.output.isSome || engine.pendingActions.isEmpty) with _ | _
    · simp only [Bool.false_eq_true, if_false]
      cases { replay with emittedActions := [] }.pollOrchestrationFuture poll with
      | error result => rfl
      | ok polled =>
        dsimp only
        split_ifs
        · rfl
        · rfl
        · exact ih _ _
    · rfl

/-- An evaluation with a record of its polls is the evaluation. -/
theorem evaluatePolled_result (engine : ReplayEngine) (handler : OrchestrationHandler)
    (input orchestrationName orchestrationVersion : String) :
    (engine.evaluatePolled handler input orchestrationName orchestrationVersion).2 =
      engine.evaluate handler input orchestrationName orchestrationVersion := by
  unfold evaluatePolled evaluate
  dsimp only
  rw [← replayHistoryPolled_result]
  generalize engine.replayHistoryPolled handler input orchestrationName orchestrationVersion
    (engine.baselineHistory ++ engine.historyDelta) = replayed
  obtain ⟨polls, result | replay⟩ := replayed
  · rfl
  · exact runQuiescenceLoopPolled_result _ _ _ _ _

end ReplayEngine

/-! ## Where a replay polls -/

namespace Replay

variable {State : Type} {poll : State → Script State} {replay polled after last : Replay State} {event : Event}
  {history before rest : List Event}

theorem mustPoll_of_match {kind : ActionKind} {matched : Nat × Replay State}
    (ran : replay.matchAndBindSchedule event kind = .ok matched) : matched.2.mustPoll = replay.mustPoll := by
  unfold matchAndBindSchedule at ran
  split at ran
  · cases ran
  · split_ifs at ran
    cases ran
    rfl

theorem mustPoll_of_consume {mismatch : String} (ran : replay.consumeAction event mismatch = .ok after) :
    after.mustPoll = replay.mustPoll := by
  unfold consumeAction at ran
  split at ran
  · cases ran
    rfl
  · split_ifs at ran
    cases ran
    rfl

theorem mustPoll_of_deliver {activityOnly : Bool} {result : CompletionResult}
    (ran : replay.deliverCompletion event activityOnly result = .ok after) :
    after.mustPoll = (replay.mustPoll || event.sourceEventId.isSome) := by
  unfold deliverCompletion at ran
  split at ran
  · rename_i unsourced
    cases ran
    rw [unsourced, Option.isSome_none, Bool.or_false]
  · rename_i sourceId sourced
    split_ifs at ran
    cases ran
    rw [sourced, Option.isSome_some, Bool.or_true]

/-- Applying an event asks for a poll if the event does. -/
theorem mustPoll_of_applyHistoryEvent (applied : replay.applyHistoryEvent event = .ok after) :
    after.mustPoll = (replay.mustPoll || event.asksPoll replay.ctx.external) := by
  obtain ⟨eventId, source, owner, executionId, timestamp, crate, kind⟩ := event
  cases kind with
  | orchestrationStarted name version input parent parentId carried status =>
    cases status <;> cases applied <;> exact (Bool.or_false _).symm
  | customStatusUpdated | keyValueSet | keyValueCleared | keyValuesCleared =>
    exact (mustPoll_of_consume applied).trans (Bool.or_false _).symm
  | activityScheduled | timerCreated | externalSubscribed | subOrchestrationScheduled =>
    obtain ⟨matched, ran, last⟩ := ok_of_bind applied
    cases last
    exact (mustPoll_of_match ran).trans (Bool.or_false _).symm
  | queueSubscribed name =>
    obtain ⟨matched, ran, last⟩ := ok_of_bind applied
    cases last
    exact (Bool.or_true _).symm
  | orchestrationChained =>
    unfold applyHistoryEvent at applied
    dsimp only at applied
    split at applied
    · cases applied
    · split_ifs at applied
      cases applied
      exact (Bool.or_false _).symm
  | activityCompleted | activityFailed | timerFired | subOrchestrationCompleted | subOrchestrationFailed =>
    exact mustPoll_of_deliver applied
  | externalSubscribedCancelled | queueSubscriptionCancelled =>
    cases source <;> cases applied <;> exact (Bool.or_false _).symm
  | externalEvent name data =>
    unfold applyHistoryEvent at applied
    dsimp only at applied
    split_ifs at applied with pending
    · cases applied
      change true = (replay.mustPoll || replay.ctx.external.hasPendingSubscriptionSlot name)
      rw [pending, Bool.or_true]
    · cases applied
      change replay.mustPoll = (replay.mustPoll || replay.ctx.external.hasPendingSubscriptionSlot name)
      rw [Bool.eq_false_of_not_eq_true pending, Bool.or_false]
  | queueEventDelivered =>
    cases applied
    exact (Bool.or_true _).symm
  | orchestrationCompleted | orchestrationFailed | activityCancelRequested | subOrchestrationCancelRequested
  | orchestrationContinuedAsNew | orchestrationCancelRequested =>
    cases applied
    exact (Bool.or_false _).symm

theorem mustPoll_of_pollIfNeeded (ran : replay.pollIfNeeded poll = .ok polled) (running : polled.output = none) :
    polled.mustPoll = false := by
  rcases pollIfNeeded_spec ran with ⟨quiet, rfl⟩ | ⟨drained, mustPoll, _, _, rfl, settles⟩
  · exact quiet
  · exact settles running

/-- A replay that has read some events: they have decided whether it polls next. -/
structure Aligned (history : List Event) (replay : Replay State) : Prop where
  external : replay.ctx.external = externalOf history
  mustPoll : replay.mustPoll = (history.isEmpty || asksPoll history)

namespace Aligned

theorem applied (aligned : Aligned before replay) (ran : replay.pollIfNeeded poll = .ok polled)
    (running : polled.output = none) (applied : polled.applyHistoryEvent event = .ok after) :
    Aligned (before ++ [event]) after := by
  have external := (pollIfNeeded_external ran).trans aligned.external
  constructor
  · rw [applyHistoryEvent_external applied, external, externalOf_append]
  · rw [mustPoll_of_applyHistoryEvent applied, mustPoll_of_pollIfNeeded ran running, external, asksPoll_append]
    cases before <;> rfl

theorem applyHistory (aligned : Aligned before replay) (ran : replay.applyHistory poll history = .ok last)
    (running : last.output = none) : Aligned (before ++ history) last := by
  induction history generalizing before replay with
  | nil =>
    cases ran
    rwa [List.append_nil]
  | cons event rest ih =>
    obtain ⟨polled, after, drained, pending, read, later⟩ := applyHistory_cons_spec ran running
    rw [List.append_cons]
    exact ih (aligned.applied drained pending read) later

end Aligned

/-- A poll that a replay of a history makes: an event has asked for it, or it is the first one, and it is replaying
before the boundary. -/
def Asked (replayBoundary : Nat) (history : List Event) (record : Poll) : Prop :=
  ∃ seen, seen <+: history ∧ record = ⟨seen.length, decide (seen.length < replayBoundary)⟩ ∧
    (seen = [] ∨ asksPoll seen)

theorem Asked.seen_le {replayBoundary : Nat} {record : Poll} (asked : Asked replayBoundary history record) :
    record.seen ≤ history.length := by
  obtain ⟨seen, inside, rfl, _⟩ := asked
  exact inside.length_le

theorem Asked.of_aligned {replayBoundary : Nat} (aligned : Aligned before replay) (asks : replay.mustPoll)
    (rest : List Event) : Asked replayBoundary (before ++ rest) ⟨before.length, decide (before.length < replayBoundary)⟩ := by
  refine ⟨before, List.prefix_append _ _, rfl, ?_⟩
  rw [aligned.mustPoll, Bool.or_eq_true, List.isEmpty_iff] at asks
  exact asks

/-- Every poll of a replay was asked for. -/
theorem asked_of_applyHistoryPolled {replayBoundary : Nat} {isReplaying : Bool} (aligned : Aligned before replay)
    (flag : isReplaying = false → replayBoundary ≤ before.length) {record : Poll}
    (member : record ∈ (replay.applyHistoryPolled poll replayBoundary history before.length isReplaying).1) :
    Asked replayBoundary (before ++ history) record := by
  induction history generalizing before replay isReplaying with
  | nil => exact absurd member List.not_mem_nil
  | cons event rest ih =>
    rw [applyHistoryPolled] at member
    dsimp only at member
    have here : (if replayBoundary ≤ before.length then false else isReplaying) = decide (before.length < replayBoundary) := by
      split_ifs with passed
      · exact (decide_eq_false (Nat.not_lt.mpr passed)).symm
      · rw [decide_eq_true (Nat.not_le.mp passed)]
        exact Bool.eq_true_of_not_eq_false fun cleared => passed (flag cleared)
    rw [here] at member
    have now : record ∈ (if replay.mustPoll then
        [(⟨before.length, decide (before.length < replayBoundary)⟩ : Poll)] else []) →
          Asked replayBoundary (before ++ event :: rest) record := by
      intro member
      split_ifs at member with asks
      · rw [List.mem_singleton.mp member]
        exact .of_aligned aligned asks _
      · exact absurd member List.not_mem_nil
    generalize (if replay.mustPoll then [(⟨before.length, decide (before.length < replayBoundary)⟩ : Poll)] else []) = due
      at member now
    rcases ran : replay.pollIfNeeded poll with result | polled <;> rw [ran] at member <;> dsimp only at member
    · exact now member
    split_ifs at member with finished
    · exact now member
    rcases read : polled.applyHistoryEvent event with result | after <;> rw [read] at member <;> dsimp only at member
    · exact now member
    rcases List.mem_append.mp member with first | later
    · exact now first
    · have next := aligned.applied ran (Option.not_isSome_iff_eq_none.mp finished) read
      rw [List.append_cons]
      apply @ih _ _ (decide (before.length < replayBoundary)) next
      · intro cleared
        have passed := of_decide_eq_false cleared
        rw [List.length_append, List.length_singleton]
        omega
      · rwa [List.length_append]

/-- A replay that is still running has polled wherever it was asked to. -/
theorem polled_of_applyHistory {replayBoundary : Nat} {isReplaying : Bool} (aligned : Aligned before replay)
    (ran : replay.applyHistory poll history = .ok last) (running : last.output = none) {seen : List Event}
    (inside : seen <+: before ++ history) (behind : before <+: seen) (unread : seen ≠ before ++ history)
    (asks : seen = [] ∨ asksPoll seen) :
    ∃ record ∈ (replay.applyHistoryPolled poll replayBoundary history before.length isReplaying).1,
      record.seen = seen.length := by
  induction history generalizing before replay isReplaying with
  | nil =>
    rw [List.append_nil] at inside unread
    exact absurd (inside.eq_of_length_le behind.length_le) unread
  | cons event rest ih =>
    obtain ⟨polled, after, drained, pending, read, later⟩ := applyHistory_cons_spec ran running
    rw [applyHistoryPolled]
    dsimp only
    rw [drained]
    dsimp only
    rw [if_neg (Option.not_isSome_iff_eq_none.mpr pending), read]
    dsimp only
    rcases eq_or_ne seen before with rfl | further
    · have due : replay.mustPoll = true := by
        rw [aligned.mustPoll, Bool.or_eq_true, List.isEmpty_iff]
        exact asks
      rw [if_pos due]
      exact ⟨_, List.mem_append_left _ List.mem_cons_self, rfl⟩
    · have next := aligned.applied drained pending read
      rw [List.append_cons] at inside unread
      have longer : before.length < seen.length := by
        apply lt_of_le_of_ne behind.length_le
        exact fun same => further (behind.eq_of_length same).symm
      have next_behind : before ++ [event] <+: seen := by
        apply List.prefix_of_prefix_length_le (List.prefix_append _ rest) inside
        rwa [List.length_append]
      obtain ⟨record, member, same⟩ := @ih _ _ _ next later inside next_behind unread
      rw [List.length_append] at member
      exact ⟨record, List.mem_append_right _ member, same⟩

end Replay

namespace ReplayEngine

variable {engine middle after : ReplayEngine} {handler : OrchestrationHandler} {State : Type}
  {input orchestrationName orchestrationVersion : String} {record : Poll}

/-! ## What an evaluation records -/

/-- An engine that has recorded actions: each of them is one event, but for a continuation as new. -/
structure Counts (engine after : ReplayEngine) : Prop where
  baseline : after.baselineHistory = engine.baselineHistory
  records : ∃ events actions, after.historyDelta = engine.historyDelta ++ events ∧
    after.pendingActions = engine.pendingActions ++ actions ∧ events.length ≤ actions.length ∧
    (actions.findSome? continueAsNewOf = none → actions.length ≤ events.length)

namespace Counts

theorem refl (engine : ReplayEngine) : Counts engine engine :=
  ⟨rfl, [], [], (List.append_nil _).symm, (List.append_nil _).symm, Nat.le_refl _, fun _ => Nat.le_refl _⟩

theorem trans (first : Counts engine middle) (second : Counts middle after) : Counts engine after := by
  obtain ⟨events, actions, delta, pending, fewer, all⟩ := first.records
  obtain ⟨later, further, delta', pending', fewer', all'⟩ := second.records
  refine ⟨second.baseline.trans first.baseline, events ++ later, actions ++ further, ?_, ?_, ?_, fun none => ?_⟩
  · rw [delta', delta, List.append_assoc]
  · rw [pending', pending, List.append_assoc]
  · rw [List.length_append, List.length_append]
    omega
  · rw [List.findSome?_append, Option.or_eq_none_iff] at none
    have earlier := all none.1
    have last := all' none.2
    rw [List.length_append, List.length_append]
    omega

theorem convertEmittedAction (engine : ReplayEngine) (ctx : CtxInner) (emitted : Nat × Action) :
    Counts engine (engine.convertEmittedAction ctx emitted).1 := by
  obtain ⟨token, action⟩ := emitted
  refine ⟨rfl, _, _, rfl, rfl, ?_, fun none => ?_⟩
  · cases actionToEvent engine.stamp (updateActionEventId action engine.nextEventId) engine.instanceId engine.executionId
      engine.nextEventId <;> simp
  · cases action <;> first | exact Nat.le_refl _ | cases none

theorem convertEmittedActions (engine : ReplayEngine) (ctx : CtxInner) (actions : List (Nat × Action)) :
    Counts engine (engine.convertEmittedActions ctx actions).1 := by
  unfold ReplayEngine.convertEmittedActions
  induction actions generalizing engine ctx with
  | nil => exact .refl engine
  | cons emitted rest ih => exact (convertEmittedAction engine ctx emitted).trans (ih _ _)

/-- What is pending has only grown. -/
theorem pending_le (counts : Counts engine after) : engine.pendingActions.length ≤ after.pendingActions.length := by
  obtain ⟨_, actions, _, pending, _⟩ := counts.records
  rw [pending, List.length_append]
  exact Nat.le_add_right _ _

end Counts

/-! ## Where an evaluation polls -/

/-- How a quiescence loop runs, with its polls, its last replay and its last engine. -/
inductive Quiesces (read : Nat) :
    ReplayEngine → Replay State → List Poll → Except TurnResult (Replay State) × ReplayEngine → Prop
  | stopped {engine replay} (stops : replay.output.isSome || engine.pendingActions.isEmpty) :
      Quiesces read engine replay [] (.ok replay, engine)
  | exhausted {engine replay} (result : TurnResult) : Quiesces read engine replay [] (.error result, engine)
  | failed {engine after replay} (result : TurnResult) (pending : engine.pendingActions ≠ []) (counts : Counts engine after) :
      Quiesces read engine replay [⟨read + engine.pendingActions.length, false⟩] (.error result, after)
  | quiet {engine after replay last} (running : replay.output = none) (pending : engine.pendingActions ≠ [])
      (counts : Counts engine after) (same : after.pendingActions.length = engine.pendingActions.length) :
      Quiesces read engine replay [⟨read + engine.pendingActions.length, false⟩] (.ok last, after)
  | again {engine middle replay next later result} (running : replay.output = none)
      (pending : engine.pendingActions ≠ []) (counts : Counts engine middle) (more : Quiesces read middle next later result) :
      Quiesces read engine replay (⟨read + engine.pendingActions.length, false⟩ :: later) result

theorem quiesces (poll : State → Script State) (read remaining : Nat) (engine : ReplayEngine) (replay : Replay State) :
    Quiesces read engine replay (engine.runQuiescenceLoopPolled poll read remaining replay).1
      (engine.runQuiescenceLoopPolled poll read remaining replay).2 := by
  induction remaining generalizing engine replay with
  | zero => exact .exhausted _
  | succ remaining ih =>
    rw [runQuiescenceLoopPolled]
    rcases stops : (replay.output.isSome || engine.pendingActions.isEmpty) with _ | _
    · have pending := List.isEmpty_eq_false_iff.mp (Bool.or_eq_false_iff.mp stops).2
      have running := Option.isSome_eq_false_iff.mp (Bool.or_eq_false_iff.mp stops).1
      rw [Option.isNone_iff_eq_none] at running
      simp only [Bool.false_eq_true, if_false]
      cases { replay with emittedActions := [] }.pollOrchestrationFuture poll with
      | error result => exact .failed result pending (.refl engine)
      | ok polled =>
        have counts := Counts.convertEmittedActions engine polled.ctx polled.emittedActions
        dsimp only
        split_ifs with last same
        · exact .failed _ pending counts
        · exact .quiet running pending counts same
        · exact .again running pending counts (ih _ _)
    · exact .stopped stops

namespace Quiesces

variable {read : Nat} {replay last : Replay State} {records : List Poll}
  {result : Except TurnResult (Replay State) × ReplayEngine}

theorem counts (loops : Quiesces read engine replay records result) : Counts engine result.2 := by
  induction loops with
  | stopped | exhausted => exact .refl _
  | failed _ _ counts | quiet _ _ counts => exact counts
  | again _ _ counts _ ih => exact counts.trans ih

/-- The polls of a quiescence loop are live, and each of them sees more than the history. -/
theorem live (loops : Quiesces read engine replay records result) (member : record ∈ records) :
    record.isReplaying = false ∧ read < record.seen ∧ record.seen ≤ read + result.2.pendingActions.length := by
  have first : ∀ {engine : ReplayEngine}, engine.pendingActions ≠ [] → Counts engine result.2 →
      record = ⟨read + engine.pendingActions.length, false⟩ →
        record.isReplaying = false ∧ read < record.seen ∧ record.seen ≤ read + result.2.pendingActions.length := by
    rintro engine pending counts rfl
    have grows := counts.pending_le
    have some := List.length_pos_iff.mpr pending
    exact ⟨rfl, Nat.lt_add_of_pos_right some, Nat.add_le_add_left grows _⟩
  induction loops with
  | stopped | exhausted => exact absurd member List.not_mem_nil
  | failed _ pending counts | quiet _ pending counts => exact first pending counts (List.mem_singleton.mp member)
  | again _ pending counts more ih =>
    rcases List.mem_cons.mp member with here | later
    · exact first pending (counts.trans more.counts) here
    · exact ih later first

/-- A quiescence loop that leaves the program running polls once everything is recorded. -/
theorem last_poll (loops : Quiesces read engine replay records (.ok last, after)) (running : last.output = none)
    (pending : after.pendingActions ≠ []) : ∃ record ∈ records, record.seen = read + after.pendingActions.length := by
  generalize ends : (Except.ok last, after) = result at loops
  induction loops with
  | stopped stops =>
    cases ends
    rw [running, Option.isSome_none, Bool.false_or, List.isEmpty_iff] at stops
    exact absurd stops pending
  | exhausted | failed => cases ends
  | quiet _ _ _ same =>
    cases ends
    exact ⟨_, List.mem_cons_self, congrArg (read + ·) same.symm⟩
  | again _ _ _ _ ih =>
    obtain ⟨record, member, seen⟩ := ih ends
    exact ⟨record, List.mem_cons_of_mem _ member, seen⟩

/-- A loop that leaves the program running has found it running. -/
theorem running (loops : Quiesces read engine replay records (.ok last, after)) (running : last.output = none) :
    replay.output = none := by
  cases loops with
  | stopped => exact running
  | quiet running | again running => exact running

end Quiesces

open Replay

variable {replay : Replay handler.State} {history seen : List Event}

/-- Every poll of a replayed history was asked for. -/
theorem asked_of_replayHistory (boundary : engine.persistedHistoryLen ≤ history.length)
    (member : record ∈ (engine.replayHistoryPolled handler input orchestrationName orchestrationVersion history).1) :
    Asked engine.persistedHistoryLen history record := by
  unfold replayHistoryPolled at member
  dsimp only at member
  generalize starts : Replay.mk _ _ _ _ _ _ _ = first at member
  have aligned : Aligned [] first := by
    rw [← starts]
    exact ⟨rfl, rfl⟩
  have asked := @asked_of_applyHistoryPolled _ handler.poll first history [] engine.persistedHistoryLen
    (if engine.persistedHistoryLen = 0 then false else true) aligned (fun cleared => by
      split_ifs at cleared with new
      exact Nat.le_of_eq new)
  have ran := applyHistoryPolled_result handler.poll engine.persistedHistoryLen 0
    (if engine.persistedHistoryLen = 0 then false else true) history first
  rw [List.length_nil] at asked
  generalize first.applyHistoryPolled handler.poll engine.persistedHistoryLen history 0
    (if engine.persistedHistoryLen = 0 then false else true) = traced at member asked ran
  obtain ⟨polls, result | replayed⟩ := traced
  · exact asked member
  · dsimp only at member
    split_ifs at member with asks
    · rcases List.mem_append.mp member with earlier | last
      · exact asked earlier
      · rw [List.mem_singleton.mp last]
        simp only [Bool.and_eq_true, Option.isNone_iff_eq_none] at asks
        have due := @Asked.of_aligned _ _ _ engine.persistedHistoryLen (aligned.applyHistory ran.symm asks.2) asks.1 []
        rwa [List.append_nil, List.nil_append, decide_eq_false (Nat.not_lt.mpr boundary)] at due
    · exact asked member

/-- A history whose replay leaves the program running has been polled wherever an event has asked for it. -/
theorem polled_of_replayHistory
    (ran : engine.replayHistory handler input orchestrationName orchestrationVersion history = .ok replay)
    (running : replay.output = none) (inside : seen <+: history) (asks : seen = [] ∨ asksPoll seen) :
    ∃ record ∈ (engine.replayHistoryPolled handler input orchestrationName orchestrationVersion history).1,
      record.seen = seen.length := by
  rw [← replayHistoryPolled_result] at ran
  unfold replayHistoryPolled at ran ⊢
  dsimp only at ran ⊢
  generalize starts : Replay.mk _ _ _ _ _ _ _ = first at ran ⊢
  have aligned : Aligned [] first := by
    rw [← starts]
    exact ⟨rfl, rfl⟩
  have applied := applyHistoryPolled_result handler.poll engine.persistedHistoryLen 0
    (if engine.persistedHistoryLen = 0 then false else true) history first
  have visited : ∀ {last : Replay handler.State}, first.applyHistory handler.poll history = .ok last → last.output = none →
      seen ≠ history → ∃ record ∈ (first.applyHistoryPolled handler.poll engine.persistedHistoryLen history 0
        (if engine.persistedHistoryLen = 0 then false else true)).1, record.seen = seen.length :=
    fun ran running unread => polled_of_applyHistory aligned ran running inside List.nil_prefix unread asks
  generalize first.applyHistoryPolled handler.poll engine.persistedHistoryLen history 0
    (if engine.persistedHistoryLen = 0 then false else true) = traced at ran applied visited ⊢
  obtain ⟨polls, result | replayed⟩ := traced
  · cases ran
  · dsimp only at ran ⊢
    have idle : replayed.output = none := by
      split_ifs at ran with asked
      · exact Option.isNone_iff_eq_none.mp (Bool.and_eq_true_iff.mp asked).2
      · cases ran
        exact running
    rcases eq_or_ne seen history with rfl | unread
    · have due : replayed.mustPoll = true := by
        rw [(aligned.applyHistory applied.symm idle).mustPoll, Bool.or_eq_true, List.isEmpty_iff]
        exact asks
      rw [due, idle]
      exact ⟨_, List.mem_append_right _ List.mem_cons_self, rfl⟩
    · obtain ⟨record, member, same⟩ := visited applied.symm idle unread
      split_ifs
      · exact ⟨record, List.mem_append_left _ member, same⟩
      · exact ⟨record, member, same⟩

/-- Every poll of an evaluation was asked for by an event of the history, or follows the history. -/
theorem asked_of_evaluate (boundary : engine.persistedHistoryLen ≤ (engine.baselineHistory ++ engine.historyDelta).length)
    (member : record ∈ (engine.evaluatePolled handler input orchestrationName orchestrationVersion).1) :
    Asked engine.persistedHistoryLen (engine.baselineHistory ++ engine.historyDelta) record ∨
      record.isReplaying = false ∧ (engine.baselineHistory ++ engine.historyDelta).length < record.seen := by
  have asked := @asked_of_replayHistory engine handler input orchestrationName orchestrationVersion record _ boundary
  unfold evaluatePolled at member
  dsimp only at member
  generalize engine.replayHistoryPolled handler input orchestrationName orchestrationVersion
    (engine.baselineHistory ++ engine.historyDelta) = replayed at member asked
  obtain ⟨polls, result | replayed⟩ := replayed
  · exact .inl (asked member)
  · rcases List.mem_append.mp member with read | live
    · exact .inl (asked read)
    · obtain ⟨live, behind, _⟩ := (quiesces handler.poll _ MAX_QUIESCENCE_ITERATIONS _ _).live live
      exact .inr ⟨live, behind⟩

/-- An evaluation replays the history and runs until quiescence. -/
theorem evaluated_cases
    (evaluated : engine.evaluate handler input orchestrationName orchestrationVersion = (.ok replay, after)) :
    ∃ replayed middle next later,
      engine.replayHistory handler input orchestrationName orchestrationVersion
        (engine.baselineHistory ++ engine.historyDelta) = .ok replayed ∧
      (replay.output = none → replayed.output = none) ∧ Counts engine middle ∧
      Quiesces (engine.baselineHistory ++ engine.historyDelta).length middle next later (.ok replay, after) ∧
      (engine.evaluatePolled handler input orchestrationName orchestrationVersion).1 =
        (engine.replayHistoryPolled handler input orchestrationName orchestrationVersion
          (engine.baselineHistory ++ engine.historyDelta)).1 ++ later := by
  rw [← evaluatePolled_result] at evaluated
  rw [← replayHistoryPolled_result]
  unfold evaluatePolled at evaluated ⊢
  dsimp only at evaluated ⊢
  generalize engine.replayHistoryPolled handler input orchestrationName orchestrationVersion
    (engine.baselineHistory ++ engine.historyDelta) = replayed at evaluated ⊢
  obtain ⟨polls, result | replayed⟩ := replayed
  · cases evaluated
  · have counts := Counts.convertEmittedActions engine (markDroppedQueueWaits replayed.ctx) replayed.emittedActions
    have loops := quiesces handler.poll (engine.baselineHistory ++ engine.historyDelta).length MAX_QUIESCENCE_ITERATIONS
      (engine.convertEmittedActions (markDroppedQueueWaits replayed.ctx) replayed.emittedActions).1
      { replayed with
        ctx := (engine.convertEmittedActions (markDroppedQueueWaits replayed.ctx) replayed.emittedActions).2
        emittedActions := [] }
    dsimp only at evaluated
    rw [evaluated] at loops
    exact ⟨replayed, _, _, _, rfl, loops.running, counts, loops, rfl⟩

/-- The polls of a turn that goes on see no more than the turn has recorded, and all that has asked for a poll. -/
theorem polls_of_continue {result : TurnResult} {last : ReplayEngine} (fresh : engine.pendingActions = [])
    (boundary : engine.persistedHistoryLen ≤ (engine.baselineHistory ++ engine.historyDelta).length)
    (evaluates : engine.evaluates)
    (executed : engine.executeOrchestration handler input orchestrationName orchestrationVersion = (result, last))
    (goesOn : result = .continue) :
    (∀ record ∈ engine.polls handler input orchestrationName orchestrationVersion,
      record.seen ≤ (last.baselineHistory ++ last.historyDelta).length) ∧
    ∀ seen, seen <+: last.baselineHistory ++ last.historyDelta → (seen = [] ∨ asksPoll seen) →
      ∃ record ∈ engine.polls handler input orchestrationName orchestrationVersion, seen.length ≤ record.seen := by
  obtain ⟨replay, after, evaluated, output, unemitted, _, crumbs, reconciled⟩ :=
    reconciled_of_concluded evaluates executed (.inl goesOn)
  have running : replay.output = none := by
    rw [goesOn] at output
    rcases ready : replay.output with _ | _ | _ <;> rw [ready] at output <;> first | rfl | cases output
  obtain ⟨replayed, middle, next, later, ran, started, counts, loops, split⟩ := evaluated_cases evaluated
  have counts := counts.trans loops.counts
  obtain ⟨events, actions, delta, pending, fewer, all⟩ := counts.records
  rw [fresh, List.nil_append] at pending
  rw [pending] at unemitted
  have count : events.length = actions.length := Nat.le_antisymm fewer (all unemitted)
  have whole : last.baselineHistory ++ last.historyDelta =
      (engine.baselineHistory ++ engine.historyDelta ++ events) ++ crumbs := by
    rw [reconciled.baseline, counts.baseline, reconciled.delta, delta]
    simp only [List.append_assoc]
  have quiet : ∀ event ∈ crumbs, ∀ external, event.asksPoll external = false := by
    intro event member external
    obtain ⟨_, droppable, kind⟩ := reconciled.crumbs event member
    rw [Event.asksPoll, kind]
    cases droppable <;> rfl
  rw [polls, if_pos evaluates, whole, split]
  constructor
  · intro record member
    rw [List.length_append, List.length_append, count]
    rcases List.mem_append.mp member with read | live
    · have seen := (asked_of_replayHistory boundary read).seen_le
      omega
    · have seen := (loops.live live).2.2
      rw [pending] at seen
      omega
  · intro seen inside asks
    have inside := prefix_of_quiet quiet inside asks
    rcases Nat.lt_or_ge (engine.baselineHistory ++ engine.historyDelta).length seen.length with further | within
    · have bound := inside.length_le
      rw [List.length_append, count] at bound
      have emitted : actions ≠ [] := List.length_pos_iff.mp (by omega)
      rw [← pending] at emitted bound
      obtain ⟨record, member, same⟩ := loops.last_poll running emitted
      exact ⟨record, List.mem_append_right _ member, bound.trans_eq same.symm⟩
    · have read := List.prefix_of_prefix_length_le inside (List.prefix_append _ _) within
      obtain ⟨record, member, same⟩ := polled_of_replayHistory ran (started running) read asks
      exact ⟨record, List.mem_append_left _ member, same.ge⟩

end ReplayEngine

end Duroxide
