import Duroxide.Proofs.Evaluation

/-! # How a replay matches actions to events

While a history is applied, an event that records an action takes the oldest action that waits; an event of an
action that nobody waits for is passed over when none does. The readings of a history say which action every
event took, and the emissions say which actions the program emitted meanwhile.
-/

namespace Duroxide.Replay

variable {State : Type} {poll : State → Script State} {replay polled after : Replay State} {event : Event}
  {history : List Event}

/-- The action that an event takes from those that wait for their events. -/
def taken (replay : Replay State) (event : Event) : Option (Nat × Action) :=
  if event.kind.isSchedule || event.kind.isFireAndForget then replay.emittedActions.head? else none

/-- The events of a history, each with the action that it takes; behind the end of the program none does. -/
def readings (poll : State → Script State) : List Event → Replay State → List (Event × Option (Nat × Action))
  | [], _ => []
  | event :: rest, replay =>
      match replay.pollIfNeeded poll with
      | .error _ => (event :: rest).map (·, none)
      | .ok polled =>
          if polled.output.isSome then (event :: rest).map (·, none)
          else (event, polled.taken event) ::
            match polled.applyHistoryEvent event with
            | .error _ => rest.map (·, none)
            | .ok after => readings poll rest after

/-- What the program emits in a poll, if one is due. -/
def polledActions (poll : State → Script State) (replay : Replay State) : List (Nat × Action) :=
  if replay.mustPoll then (Evaluation.polledCtx poll replay).emittedActions else []

/-- The actions that the program emits while a history is applied, in order. -/
def emissions (poll : State → Script State) : List Event → Replay State → List (Nat × Action)
  | [], _ => []
  | event :: rest, replay =>
      replay.polledActions poll ++
        match replay.pollIfNeeded poll with
        | .error _ => []
        | .ok polled =>
            if polled.output.isSome then []
            else match polled.applyHistoryEvent event with
              | .error _ => []
              | .ok after => emissions poll rest after

theorem readings_events (poll : State → Script State) (history : List Event) (replay : Replay State) :
    (readings poll history replay).map (·.1) = history := by
  have unread : ∀ events : List Event,
      (events.map fun event => (event, (none : Option (Nat × Action)))).map (·.1) = events := by
    intro events
    rw [List.map_map]
    exact List.map_id events
  induction history generalizing replay with
  | nil => rfl
  | cons event rest ih =>
    unfold readings
    split
    · exact unread _
    split_ifs
    · exact unread _
    rw [List.map_cons]
    congr 1
    split
    · exact unread rest
    · exact ih _

/-- What waits after an event is applied, and what the event took. -/
theorem taken_of_applies (applies : Applies replay event after) :
    replay.emittedActions = (replay.taken event).toList ++ after.emittedActions := by
  unfold taken
  cases applies with
  | bound token action schedules waiting =>
    rw [schedules, Bool.true_or, if_pos rfl, waiting]
    rfl
  | consumed token action forgets waiting =>
    rw [forgets, Bool.or_true, if_pos rfl, waiting]
    rfl
  | skipped forgets nothing same =>
    rw [forgets, Bool.or_true, if_pos rfl, same, nothing]
    rfl
  | observed noSchedule remembered kept =>
    rw [noSchedule, remembered, kept]
    rfl

/-- An action that an event takes matches it. -/
theorem matches_of_taken (applies : Applies replay event after) {token : Nat} {action : Action}
    (took : replay.taken event = some (token, action)) : actionMatchesEventKind action event.kind := by
  unfold taken at took
  cases applies with
  | bound other first schedules waiting matched | consumed other first forgets waiting matched =>
    split_ifs at took
    rw [waiting] at took
    cases took
    exact matched
  | skipped forgets nothing same =>
    split_ifs at took
    rw [nothing] at took
    cases took
  | observed noSchedule remembered =>
    rw [noSchedule, remembered] at took
    cases took

/-- Only an event of an action that nobody waits for takes none, and only when none waits. -/
theorem passed_of_taken (applies : Applies replay event after) (took : replay.taken event = none) :
    event.kind.isSchedule = false ∧ (event.kind.isFireAndForget → replay.emittedActions = []) := by
  unfold taken at took
  cases applies with
  | bound other first schedules waiting =>
    rw [schedules, Bool.true_or, if_pos rfl, waiting] at took
    cases took
  | consumed other first forgets waiting =>
    rw [forgets, Bool.or_true, if_pos rfl, waiting] at took
    cases took
  | skipped forgets nothing same =>
    refine ⟨?_, fun _ => nothing⟩
    obtain ⟨eventId, source, owner, executionId, timestamp, version, kind⟩ := event
    cases kind <;> first | rfl | cases forgets
  | observed noSchedule remembered => exact ⟨noSchedule, fun forgets => nomatch remembered.symm.trans forgets⟩

/-- A poll puts what it emits behind what waits. -/
theorem waiting_of_pollIfNeeded (ran : replay.pollIfNeeded poll = .ok polled) :
    polled.emittedActions = replay.emittedActions ++ replay.polledActions poll := by
  unfold polledActions Evaluation.polledCtx
  rcases pollIfNeeded_spec ran with ⟨quiet, rfl⟩ | ⟨drained, mustPoll, asked, taken, rfl, _⟩
  · rw [quiet, if_neg Bool.false_ne_true, List.append_nil]
  · obtain ⟨result, ctx, fut, output, outcome, rfl, _⟩ := pollOrchestrationFuture_spec taken
    rw [if_pos asked, outcome]

/-- The actions that are emitted while a history is applied are those that its events take, and those that
wait in the end. -/
theorem emissions_eq {last : Replay State} (applied : replay.applyHistory poll history = .ok last) :
    replay.emittedActions ++ replay.emissions poll history =
      (replay.readings poll history).filterMap (·.2) ++ last.emittedActions := by
  have unread : ∀ events : List Event,
      (events.map fun event => (event, (none : Option (Nat × Action)))).filterMap (·.2) = [] :=
    fun events => List.filterMap_eq_nil_iff.mpr fun _ member => by
      obtain ⟨_, _, rfl⟩ := List.mem_map.mp member
      rfl
  induction history generalizing replay with
  | nil =>
    cases applied
    exact List.append_nil _
  | cons event rest ih =>
    obtain ⟨polled, ran, continued⟩ := ok_of_bind applied
    have waiting := waiting_of_pollIfNeeded ran
    simp only [emissions, readings, ran]
    split_ifs at continued ⊢ with finished
    · cases continued
      rw [unread, List.append_nil, List.nil_append, waiting]
    · obtain ⟨after, read, later⟩ := ok_of_bind continued
      obtain ⟨applies, _, _⟩ := applyHistoryEvent_spec read
      rw [read]
      dsimp only
      rw [← List.append_assoc, ← waiting, taken_of_applies applies, List.append_assoc, ih later, ← List.append_assoc,
        List.filterMap_cons]
      cases polled.taken event <;> rfl

/-- A history that the program did not finish in is applied one part after the other. -/
theorem applyHistory_append {before rest : List Event} {last : Replay State}
    (applied : replay.applyHistory poll (before ++ rest) = .ok last) (unfinished : last.output = none) :
    ∃ middle, replay.applyHistory poll before = .ok middle ∧ middle.applyHistory poll rest = .ok last ∧
      ∀ later, replay.readings poll (before ++ later) = replay.readings poll before ++ middle.readings poll later ∧
        replay.emissions poll (before ++ later) = replay.emissions poll before ++ middle.emissions poll later := by
  induction before generalizing replay with
  | nil => exact ⟨replay, rfl, applied, fun later => ⟨rfl, rfl⟩⟩
  | cons event before ih =>
    obtain ⟨polled, after, ran, pending, read, later⟩ := applyHistory_cons_spec applied unfinished
    have finished := Option.not_isSome_iff_eq_none.mpr pending
    obtain ⟨middle, first, second, splits⟩ := ih later
    refine ⟨middle, ?_, second, fun later => ?_⟩
    · change (replay.pollIfNeeded poll >>= fun polled => _) = _
      rw [ran]
      change (if polled.output.isSome then _ else _) = _
      rw [if_neg finished, read]
      exact first
    · obtain ⟨read', emitted⟩ := splits later
      simp only [List.cons_append, readings, emissions, ran, if_neg finished, read, read', emitted, List.append_assoc,
        and_self]

end Duroxide.Replay

namespace Duroxide.ReplayEngine

/-- Where a turn starts to replay its history. -/
def firstReplay (engine : ReplayEngine) (handler : OrchestrationHandler) (input orchestrationName
    orchestrationVersion : String) (history : List Event) : Replay handler.State :=
  { ctx := { engine.seedContext orchestrationName orchestrationVersion with
      accumulatedCustomStatus := initialCustomStatusOf history }
    fut := handler.invoke input }

end Duroxide.ReplayEngine
