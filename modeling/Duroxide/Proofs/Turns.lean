import Duroxide.Proofs.Recording

/-! # The events of a turn

A dispatcher numbers the events that it wants appended above everything it has read, and the events of
a turn come in a fixed order: the start of the execution, what the engine recorded, the breadcrumbs of
what is outstanding, the terminal event. What the dispatcher adds after the turn comes last, terminal
event or not.
-/

namespace Duroxide

/-- Events in the order of their ids, which are distinct. -/
abbrev Ascending (events : List Event) : Prop := events.Pairwise (·.eventId < ·.eventId)

theorem ascending_append_singleton {events : List Event} {event : Event} (ascending : Ascending events)
    (above : ∀ earlier ∈ events, earlier.eventId < event.eventId) : Ascending (events ++ [event]) := by
  refine List.pairwise_append.mpr ⟨ascending, List.pairwise_singleton _ _, fun earlier member last same => ?_⟩
  rw [List.mem_singleton.mp same]
  exact above earlier member

namespace ReplayEngine

/-! ## The engine's records -/

variable {engine result : ReplayEngine}

/-- The events so far ascend, and the next id is above them. -/
structure Numbered (engine : ReplayEngine) : Prop where
  ascending : Ascending (engine.baselineHistory ++ engine.historyDelta)
  below : ∀ event ∈ engine.baselineHistory ++ engine.historyDelta, event.eventId < engine.nextEventId

/-- An engine that holds inner events only, above its baseline. -/
structure Sound (engine : ReplayEngine) : Prop where
  numbered : Numbered engine
  inner : ∀ event ∈ engine.historyDelta, event.kind.isInner

theorem Sound.push (sound : Sound engine) {result : ReplayEngine} {events : List Event}
    (baseline : result.baselineHistory = engine.baselineHistory) (delta : result.historyDelta = engine.historyDelta ++ events)
    (next : result.nextEventId = engine.nextEventId + 1)
    (pushed : ∀ event ∈ events, event.eventId = engine.nextEventId ∧ event.kind.isInner) (single : events.length ≤ 1) :
    Sound result := by
  have all : result.baselineHistory ++ result.historyDelta =
      (engine.baselineHistory ++ engine.historyDelta) ++ events := by
    rw [baseline, delta, List.append_assoc]
  refine ⟨⟨?_, ?_⟩, ?_⟩
  · rw [all]
    rcases events with _ | ⟨event, _ | ⟨second, others⟩⟩
    · rw [List.append_nil]
      exact sound.numbered.ascending
    · refine ascending_append_singleton sound.numbered.ascending fun earlier member => ?_
      rw [(pushed event List.mem_cons_self).1]
      exact sound.numbered.below earlier member
    · simp only [List.length_cons] at single
      omega
  · intro event member
    rw [all] at member
    rw [next]
    rcases List.mem_append.mp member with old | new
    · exact (sound.numbered.below event old).trans (Nat.lt_succ_self _)
    · rw [(pushed event new).1]
      exact Nat.lt_succ_self _
  · intro event member
    rw [delta] at member
    rcases List.mem_append.mp member with old | new
    · exact sound.inner event old
    · exact (pushed event new).2

theorem Sound.pushEvent (sound : Sound engine) (source : Option Nat) {kind : EventKind} (isInner : kind.isInner) :
    Sound (engine.pushEvent source kind) := by
  refine sound.push rfl rfl rfl ?_ (Nat.le_refl 1)
  intro event member
  rw [List.mem_singleton.mp member]
  exact ⟨rfl, isInner⟩

theorem Sound.records (sound : Sound engine) (records : Records engine result) : Sound result := by
  cases records with
  | action ctx emitted =>
    refine sound.push rfl rfl rfl ?_ Option.length_toList_le
    intro event member
    exact actionToEvent_spec (Option.mem_toList.mp member)
  | breadcrumb id kind isBreadcrumb => exact sound.pushEvent _ (EventKind.isInner_of_isBreadcrumb isBreadcrumb)
  | cancelled activities children => exact ⟨⟨sound.numbered.ascending, sound.numbered.below⟩, sound.inner⟩

theorem Sound.recorded (sound : Sound engine) (recorded : Recorded engine result) : Sound result := by
  induction recorded with
  | refl => exact sound
  | tail _ records ih => exact ih.records records

theorem Recorded.baselineHistory (recorded : Recorded engine result) :
    result.baselineHistory = engine.baselineHistory := by
  induction recorded with
  | refl => rfl
  | tail _ records ih => cases records <;> exact ih

theorem Sound.prepCompletion (sound : Sound engine) (message : WorkItem) : Sound (engine.prepCompletion message) := by
  rcases engine.prepCompletion_cases message with ⟨abortError, unchanged⟩ | ⟨abortError, source, kind, converted, pushed⟩
  · rw [unchanged]
    exact ⟨⟨sound.numbered.ascending, sound.numbered.below⟩, sound.inner⟩
  · rw [pushed]
    have aborted : Sound { engine with abortError } :=
      ⟨⟨sound.numbered.ascending, sound.numbered.below⟩, sound.inner⟩
    exact aborted.pushEvent source (EventKind.isInner_of_isMessage (messageToEventKind_isMessage converted))

theorem Sound.prepCompletions (sound : Sound engine) (messages : List WorkItem) :
    Sound (engine.prepCompletions messages) := by
  unfold ReplayEngine.prepCompletions
  induction messages generalizing engine with
  | nil => exact sound
  | cons message rest ih => exact ih (sound.prepCompletion message)

/-- A fresh engine numbers above an ascending baseline. -/
theorem sound_new {stamp : Stamp} {instanceId : String} {executionId : Nat} {baseline : List Event}
    (ascending : Ascending baseline) : Sound (ReplayEngine.new stamp instanceId executionId baseline) := by
  refine ⟨⟨?_, ?_⟩, fun _ none => absurd none List.not_mem_nil⟩
  · simpa [ReplayEngine.new] using ascending
  · intro event member
    simp only [ReplayEngine.new, List.append_nil] at member ⊢
    obtain ⟨rest, last, rfl⟩ : ∃ rest last, baseline = rest ++ [last] :=
      ⟨_, _, (List.dropLast_append_getLast (List.ne_nil_of_mem member)).symm⟩
    rw [List.getLast?_concat, Option.map_some, Option.getD_some]
    rcases List.mem_append.mp member with earlier | last'
    · exact ((List.pairwise_append.mp ascending).2.2 event earlier last List.mem_cons_self).trans (Nat.lt_succ_self _)
    · rw [List.mem_singleton.mp last']
      exact Nat.lt_succ_self _

end ReplayEngine

namespace HistoryManager

/-! ## Extending a manager's events -/

variable {manager middle after : HistoryManager}

/-- A manager with further events, numbered above those it had. -/
structure Extends (manager after : HistoryManager) (events : List Event) : Prop where
  history : after.history = manager.history
  delta : after.delta = manager.delta ++ events
  ascending : Ascending manager.fullHistory → Ascending after.fullHistory

theorem Extends.refl (manager : HistoryManager) : Extends manager manager [] := ⟨rfl, (List.append_nil _).symm, id⟩

theorem Extends.trans {first second : List Event} (left : Extends manager middle first)
    (right : Extends middle after second) : Extends manager after (first ++ second) where
  history := right.history.trans left.history
  delta := by rw [right.delta, left.delta, List.append_assoc]
  ascending ascending := right.ascending (left.ascending ascending)

theorem Extends.fullHistory {events : List Event} (extended : Extends manager after events) :
    after.fullHistory = manager.fullHistory ++ events := by
  rw [HistoryManager.fullHistory, extended.history, extended.delta, ← List.append_assoc]
  rfl

theorem le_foldl_max (ids : List Nat) (bound : Nat) : bound ≤ ids.foldl max bound ∧ ∀ id ∈ ids, id ≤ ids.foldl max bound := by
  induction ids generalizing bound with
  | nil => exact ⟨Nat.le_refl _, fun _ none => absurd none List.not_mem_nil⟩
  | cons first rest ih =>
    obtain ⟨above, all⟩ := ih (max bound first)
    refine ⟨(Nat.le_max_left _ _).trans above, fun id member => ?_⟩
    rcases List.mem_cons.mp member with rfl | later
    · exact (Nat.le_max_right _ _).trans above
    · exact all id later

theorem eventId_lt_nextEventId {event : Event} (member : event ∈ manager.fullHistory) :
    event.eventId < manager.nextEventId :=
  Nat.lt_succ_of_le ((le_foldl_max _ 0).2 _ (List.mem_map_of_mem member))

/-- An event with the next id extends a manager. -/
theorem extends_append {event : Event} (numbered : event.eventId = manager.nextEventId) :
    Extends manager (manager.append event) [event] where
  history := rfl
  delta := rfl
  ascending ascending := by
    have all : (manager.append event).fullHistory = manager.fullHistory ++ [event] := (List.append_assoc _ _ _).symm
    rw [all]
    refine ascending_append_singleton ascending fun earlier member => ?_
    rw [numbered]
    exact eventId_lt_nextEventId member

/-- The event of an appended failure. -/
def failedEvent (stamp : Stamp) (manager : HistoryManager) (details : ErrorDetails) : Event :=
  Event.withEventId stamp manager.nextEventId "" 0 none (.orchestrationFailed details)

theorem extends_appendFailed (stamp : Stamp) (details : ErrorDetails) :
    Extends manager (manager.appendFailed stamp details) [failedEvent stamp manager details] :=
  extends_append rfl

end HistoryManager

namespace Execution

open HistoryManager

variable {stamp : Stamp} {instanceId orchestrationName : String} {executionId : Nat} {manager : HistoryManager}

theorem emitBreadcrumbs_extends (manager : HistoryManager) (kind : EventKind) (ids : List Nat) :
    ∃ breadcrumbs, Extends manager (emitBreadcrumbs stamp instanceId executionId kind manager ids) breadcrumbs ∧
      ∀ event ∈ breadcrumbs, event.kind = kind := by
  unfold emitBreadcrumbs
  induction ids generalizing manager with
  | nil => exact ⟨[], .refl manager, fun _ none => absurd none List.not_mem_nil⟩
  | cons id rest ih =>
    obtain ⟨breadcrumbs, extended, kinds⟩ := ih (manager.append
      (Event.withEventId stamp manager.nextEventId instanceId executionId (some id) kind))
    refine ⟨_, (extends_append rfl).trans extended, fun event member => ?_⟩
    rcases List.mem_cons.mp member with rfl | later
    · rfl
    · exact kinds event later

theorem emitTerminalCancellationBreadcrumbs_extends (manager : HistoryManager) (outstanding : OutstandingSchedules) :
    ∃ breadcrumbs, Extends manager
        (emitTerminalCancellationBreadcrumbs stamp manager instanceId executionId outstanding) breadcrumbs ∧
      ∀ event ∈ breadcrumbs, event.kind.isBreadcrumb := by
  obtain ⟨first, firstExtends, firstKinds⟩ := @emitBreadcrumbs_extends stamp instanceId executionId manager
    (.externalSubscribedCancelled orchestrationTerminal) outstanding.positionalSubscriptions
  obtain ⟨second, secondExtends, secondKinds⟩ := @emitBreadcrumbs_extends stamp instanceId executionId
    (emitBreadcrumbs stamp instanceId executionId (.externalSubscribedCancelled orchestrationTerminal) manager
      outstanding.positionalSubscriptions)
    (.queueSubscriptionCancelled orchestrationTerminal) outstanding.queueSubscriptions
  refine ⟨first ++ second, firstExtends.trans secondExtends, fun event member => ?_⟩
  rcases List.mem_append.mp member with old | new
  · rw [firstKinds event old]
    rfl
  · rw [secondKinds event new]
    rfl

/-- The terminal event that a result of a turn stands for. -/
def terminalKind : TurnResult → Option EventKind
  | .continue => none
  | .completed output => some (.orchestrationCompleted output)
  | .failed details => some (.orchestrationFailed details)
  | .continueAsNew input _ => some (.orchestrationContinuedAsNew input)
  | .cancelled reason => some (.orchestrationFailed (.application (.cancelled reason) "" false))

theorem isTerminal_of_terminalKind {result : TurnResult} {kind : EventKind} (terminal : terminalKind result = some kind) :
    kind.isTerminal := by
  cases result <;> cases terminal <;> rfl

/-- How the events of a turn end: breadcrumbs and then the terminal event, if there is one. -/
structure Ends (result : TurnResult) (ending : List Event) : Prop where
  goesOn : result = .continue → ending = []
  split : ∃ breadcrumbs tail, ending = breadcrumbs ++ tail ∧ (∀ event ∈ breadcrumbs, event.kind.isBreadcrumb) ∧
    tail.map (·.kind) = (terminalKind result).toList

theorem Ends.notStarted {result : TurnResult} {ending : List Event} (ends : Ends result ending) :
    ∀ event ∈ ending, event.kind.isStarted = false := by
  obtain ⟨breadcrumbs, tail, rfl, kinds, terminal⟩ := ends.split
  intro event member
  rcases List.mem_append.mp member with breadcrumb | last
  · exact EventKind.isStarted_of_isInner (EventKind.isInner_of_isBreadcrumb (kinds event breadcrumb))
  · have listed : event.kind ∈ tail.map (·.kind) := List.mem_map_of_mem last
    rw [terminal, Option.mem_toList] at listed
    exact EventKind.isStarted_of_isTerminal (isTerminal_of_terminalKind listed)

/-- The terminal event of an ending is that of the result. -/
theorem Ends.kind_of_terminal {result : TurnResult} {ending : List Event} (ends : Ends result ending) {event : Event}
    (member : event ∈ ending) (terminal : event.kind.isTerminal) : terminalKind result = some event.kind := by
  obtain ⟨breadcrumbs, tail, rfl, kinds, last⟩ := ends.split
  rcases List.mem_append.mp member with breadcrumb | inTail
  · rw [EventKind.isTerminal_of_isBreadcrumb (kinds event breadcrumb)] at terminal
    cases terminal
  · have listed : event.kind ∈ tail.map (·.kind) := List.mem_map_of_mem inTail
    rwa [last, Option.mem_toList] at listed

/-- A terminal result ends a manager's events with breadcrumbs and one further event. -/
theorem ended_extends (manager : HistoryManager) (outstanding : OutstandingSchedules) {result : TurnResult}
    {kind : EventKind} (terminal : terminalKind result = some kind) (owner : String) (execution : Nat) :
    ∃ ending, Extends manager ((emitTerminalCancellationBreadcrumbs stamp manager instanceId executionId
        outstanding).append (Event.withEventId stamp (emitTerminalCancellationBreadcrumbs stamp manager instanceId
          executionId outstanding).nextEventId owner execution none kind)) ending ∧ Ends result ending := by
  obtain ⟨breadcrumbs, extended, kinds⟩ := @emitTerminalCancellationBreadcrumbs_extends stamp instanceId executionId
    manager outstanding
  refine ⟨_, extended.trans (extends_append rfl), ?_, breadcrumbs, _, rfl, kinds, ?_⟩
  · rintro rfl
    cases terminal
  · rw [terminal]
    rfl

theorem applyTurnResult_extends (executionIds : ExecutionIds) (manager : HistoryManager)
    (parentLink : Option (String × Nat)) (pendingActions : List Action) (result : TurnResult) :
    ∃ ending, Extends manager (applyTurnResult stamp executionIds instanceId orchestrationName executionId manager
      parentLink pendingActions result).historyMgr ending ∧ Ends result ending := by
  cases result with
  | «continue» =>
    exact ⟨[], .refl manager, fun _ => rfl, [], [], rfl, fun _ none => absurd none List.not_mem_nil, rfl⟩
  | completed output => exact ended_extends manager _ rfl _ _
  | failed details => exact ended_extends manager _ rfl _ _
  | continueAsNew input version => exact ended_extends manager _ rfl _ _
  | cancelled reason => exact ended_extends manager _ rfl _ _

/-- The engine of a turn after it ran, with its result. -/
def executedTurn (stamp : Stamp) (instanceId : String) (manager : HistoryManager) (reader : WorkItemReader)
    (executionId : Nat) (handler : OrchestrationHandler) (orchestrationVersion : String)
    (kvSnapshot : AList (fun _ : String => KvEntry)) : TurnResult × ReplayEngine :=
  (prepareTurn stamp instanceId executionId manager reader kvSnapshot).executeOrchestration handler
    manager.extractContext.1 reader.orchestrationName orchestrationVersion

theorem prepareTurn_sound {reader : WorkItemReader} {kvSnapshot : AList (fun _ : String => KvEntry)}
    (ascending : Ascending manager.fullHistory) :
    ReplayEngine.Sound (prepareTurn stamp instanceId executionId manager reader kvSnapshot) := by
  have fresh : ReplayEngine.Sound (ReplayEngine.new stamp instanceId executionId manager.fullHistory) :=
    ReplayEngine.sound_new ascending
  have seeded : ReplayEngine.Sound (((ReplayEngine.new stamp instanceId executionId
      manager.fullHistory).withPersistedHistoryLen manager.originalLen).withKvSnapshot kvSnapshot) :=
    ⟨⟨fresh.numbered.ascending, fresh.numbered.below⟩, fresh.inner⟩
  exact seeded.prepCompletions reader.completionMessages

theorem prepareTurn_baselineHistory (reader : WorkItemReader) (kvSnapshot : AList (fun _ : String => KvEntry)) :
    (prepareTurn stamp instanceId executionId manager reader kvSnapshot).baselineHistory = manager.fullHistory := by
  rw [prepareTurn, ReplayEngine.prepCompletions_baselineHistory]
  rfl

/-- A turn appends what its engine recorded, and then its ending. -/
theorem runSingleExecutionAtomic_extends (executionIds : ExecutionIds) (reader : WorkItemReader)
    (handler : OrchestrationHandler) (orchestrationVersion : String) (kvSnapshot : AList (fun _ : String => KvEntry))
    (ascending : Ascending manager.fullHistory) :
    ∃ body ending, Extends manager (runSingleExecutionAtomic stamp executionIds instanceId manager reader executionId
        handler orchestrationVersion kvSnapshot).historyMgr (body ++ ending) ∧
      body = (executedTurn stamp instanceId manager reader executionId handler orchestrationVersion
        kvSnapshot).2.historyDelta ∧
      (∀ event ∈ body, event.kind.isInner) ∧
      Ends (executedTurn stamp instanceId manager reader executionId handler orchestrationVersion kvSnapshot).1 ending := by
  have recorded : ReplayEngine.Recorded (prepareTurn stamp instanceId executionId manager reader kvSnapshot)
      (executedTurn stamp instanceId manager reader executionId handler orchestrationVersion kvSnapshot).2 :=
    ReplayEngine.executeOrchestration_recorded _ _ _ _
  have sound := (prepareTurn_sound ascending).recorded recorded
  have baseline := recorded.baselineHistory.trans (prepareTurn_baselineHistory reader kvSnapshot)
  obtain ⟨ending, ended, ends⟩ := @applyTurnResult_extends stamp instanceId reader.orchestrationName executionId
    executionIds (manager.extend (executedTurn stamp instanceId manager reader executionId handler orchestrationVersion
      kvSnapshot).2.historyDelta) manager.extractContext.2
    (executedTurn stamp instanceId manager reader executionId handler orchestrationVersion kvSnapshot).2.pendingActions
    (executedTurn stamp instanceId manager reader executionId handler orchestrationVersion kvSnapshot).1
  refine ⟨_, ending, ?_, rfl, sound.inner, ends⟩
  have body : Extends manager (manager.extend (executedTurn stamp instanceId manager reader executionId handler
      orchestrationVersion kvSnapshot).2.historyDelta) (executedTurn stamp instanceId manager reader executionId handler
      orchestrationVersion kvSnapshot).2.historyDelta := by
    refine ⟨rfl, rfl, fun _ => ?_⟩
    have all := sound.numbered.ascending
    rw [baseline, HistoryManager.fullHistory, List.append_assoc] at all
    exact all
  exact body.trans ended

end Execution

namespace Dispatcher

/-! ## What a dispatcher answers -/

open HistoryManager

variable {semver : Semver} {env : RuntimeEnv semver} {item : OrchestrationItem} {attemptCount : Nat}
  {request : AckRequest semver} {fallback : Option (ProviderError → AckRequest semver)} {outcome : ExecutionOutcome}

/-- The version check that comes before everything else. -/
def isSupported (env : RuntimeEnv semver) (item : OrchestrationItem) : Bool :=
  (pinnedVersion semver item.history).all env.supportedRange.contains

theorem handleFetchedItem_eq (env : RuntimeEnv semver) (item : OrchestrationItem) (attemptCount : Nat) :
    handleFetchedItem env item attemptCount =
      if isSupported env item then processOrchestrationItem env item attemptCount
      else .abandon (some SHORT_BACKOFF_MS) false := by
  unfold handleFetchedItem isSupported
  split
  · rename_i pinned found
    rw [found, Option.all_some]
    cases env.supportedRange.contains pinned <;> rfl
  · rename_i found
    rw [found]
    rfl

/-- The outcome that a turn hands to its end; none when its handler is not registered. -/
def turnOutcome (env : RuntimeEnv semver) (item : OrchestrationItem) : Option ExecutionOutcome :=
  if (workitemReader item).hasOrchestrationName then
    resolveAndExecuteOrchestrationHandler env item.instanceId (turnExecution item).2 (workitemReader item)
      (turnExecution item).1 item.kvSnapshot
  else some { historyMgr := (turnExecution item).2 }

/-- What a turn asks for in the end: its limits are enforced, and what is in flight is cancelled. -/
def turnRequest (env : RuntimeEnv semver) (item : OrchestrationItem) (outcome : ExecutionOutcome) : AckRequest semver :=
  let executionId := (turnExecution item).1
  let limited := enforceLimits env item executionId outcome
  let ended := cancelInflight env.stamp item.instanceId executionId limited.1 limited.2.status
  { executionId, historyDelta := ended.1.delta, workerItems := limited.1.workerItems
    orchestratorItems := limited.1.orchestratorItems, metadata := limited.2, cancelledActivities := ended.2.eraseDups }

theorem executeTurn_eq (env : RuntimeEnv semver) (item : OrchestrationItem) (attemptCount : Nat) :
    executeTurn env item attemptCount =
      match turnOutcome env item with
      | some outcome => .ack (turnRequest env item outcome) (some (failureCommit env item (turnExecution item).1))
      | none => .abandon (some (env.unregisteredBackoff.delay attemptCount)) false := by
  unfold executeTurn turnOutcome
  dsimp only
  split_ifs with named
  · cases resolveAndExecuteOrchestrationHandler env item.instanceId (turnExecution item).2 (workitemReader item)
      (turnExecution item).1 item.kvSnapshot with
    | none => rfl
    | some outcome => rfl
  · rfl

/-- The ways in which a dispatcher acknowledges an item. -/
inductive Answered (env : RuntimeEnv semver) (item : OrchestrationItem) (attemptCount : Nat) :
    AckRequest semver → Option (ProviderError → AckRequest semver) → Prop
  | corrupted (exceeded : env.maxAttempts < attemptCount) (message : String) (unreadable : item.historyError = some message) :
      Answered env item attemptCount (failOrchestrationAsPoison env item attemptCount) none
  | poisoned (exceeded : env.maxAttempts < attemptCount) (readable : item.historyError = none) :
      Answered env item attemptCount (failOrchestrationAsPoison env item attemptCount) none
  | ended (inTime : attemptCount ≤ env.maxAttempts) (readable : item.historyError = none)
      (terminal : isTerminalFor (tempHistoryMgr item) (workitemReader item)) :
      Answered env item attemptCount { executionId := item.executionId } none
  | turned (inTime : attemptCount ≤ env.maxAttempts) (readable : item.historyError = none)
      (running : isTerminalFor (tempHistoryMgr item) (workitemReader item) = false) (outcome : ExecutionOutcome)
      (ran : turnOutcome env item = some outcome) :
      Answered env item attemptCount (turnRequest env item outcome)
        (some (failureCommit env item (turnExecution item).1))

theorem answered_of_decided (decided : handleFetchedItem env item attemptCount = .ack request fallback) :
    isSupported env item ∧ Answered env item attemptCount request fallback := by
  rw [handleFetchedItem_eq] at decided
  split_ifs at decided with supported
  refine ⟨supported, ?_⟩
  unfold processOrchestrationItem at decided
  split_ifs at decided with exceeded unreadable terminal
  · cases decided
    rcases error : item.historyError with _ | message
    · exact .poisoned exceeded error
    · exact .corrupted exceeded message error
  · cases decided
    exact .ended (Nat.le_of_not_lt exceeded) (by simpa using unreadable) terminal
  · rw [executeTurn_eq] at decided
    split at decided
    · rename_i outcome ran
      cases decided
      exact .turned (Nat.le_of_not_lt exceeded) (by simpa using unreadable) (Bool.eq_false_of_not_eq_true terminal)
        outcome ran
    · cases decided

/-! ## The events of an answer -/

/-- The events of an execution that an item was read with. -/
def baseHistory (item : OrchestrationItem) (executionId : Nat) : List Event :=
  if executionId = item.executionId then item.history else []

@[simp] theorem baseHistory_self (item : OrchestrationItem) : baseHistory item item.executionId = item.history :=
  if_pos rfl

@[simp] theorem baseHistory_next (item : OrchestrationItem) : baseHistory item (item.executionId + 1) = [] :=
  if_neg (Nat.succ_ne_self _)

theorem turnExecution_eq (item : OrchestrationItem) :
    turnExecution item =
      ((turnExecution item).1, HistoryManager.fromHistory (baseHistory item (turnExecution item).1)) := by
  unfold turnExecution
  split_ifs
  · rw [baseHistory_next]
  · rw [baseHistory_self]
    rfl

theorem turnExecution_fullHistory (item : OrchestrationItem) :
    (turnExecution item).2.fullHistory = baseHistory item (turnExecution item).1 := by
  rw [turnExecution_eq]
  simp [HistoryManager.fullHistory]

theorem turnExecution_delta (item : OrchestrationItem) : (turnExecution item).2.delta = [] := by
  rw [turnExecution_eq]
  exact fromHistory_delta _

theorem ascending_baseHistory (ascending : Ascending item.history) (executionId : Nat) :
    Ascending (baseHistory item executionId) := by
  unfold baseHistory
  split_ifs
  · exact ascending
  · exact .nil

/-- The events that an execution is opened with in a turn. -/
inductive Opening (env : RuntimeEnv semver) (item : OrchestrationItem) : List Event → Prop
  | continues (recorded : baseHistory item (turnExecution item).1 ≠ []) : Opening env item []
  | unnamed (noName : (workitemReader item).hasOrchestrationName = false) : Opening env item []
  | opens (new : baseHistory item (turnExecution item).1 = []) (named : (workitemReader item).hasOrchestrationName)
      (version : semver.Version) :
      Opening env item
        [startedEvent env.stamp item.instanceId (turnExecution item).1 (workitemReader item) (semver.render version)]

/-- A turn that ran its handler, or had nothing to run. -/
inductive Ran (env : RuntimeEnv semver) (item : OrchestrationItem) : ExecutionOutcome → Prop
  | unnamed (noName : (workitemReader item).hasOrchestrationName = false) :
      Ran env item { historyMgr := (turnExecution item).2 }
  | executed (named : (workitemReader item).hasOrchestrationName) (version : semver.Version)
      (handler : OrchestrationHandler)
      (resolved : resolveTurnHandler env.registry (workitemReader item).orchestrationName (workitemReader item).version =
        some (version, handler)) :
      Ran env item (Execution.runSingleExecutionAtomic env.stamp env.executionIds item.instanceId
        (startIfNew env.stamp item.instanceId (turnExecution item).1 (workitemReader item) (semver.render version)
          (turnExecution item).2)
        (workitemReader item) (turnExecution item).1 handler (semver.render version) item.kvSnapshot)

theorem ran_of_turnOutcome (ran : turnOutcome env item = some outcome) : Ran env item outcome := by
  unfold turnOutcome at ran
  split_ifs at ran with named
  · obtain ⟨⟨version, handler⟩, resolved, rfl⟩ := Option.map_eq_some_iff.mp ran
    exact .executed named version handler resolved
  · cases ran
    exact .unnamed (Bool.eq_false_of_not_eq_true named)

/-- Opening an execution adds its start event if it has none yet. -/
theorem startIfNew_extends (env : RuntimeEnv semver) (item : OrchestrationItem)
    (named : (workitemReader item).hasOrchestrationName) (version : semver.Version) :
    ∃ opening, Opening env item opening ∧ Extends (turnExecution item).2
      (startIfNew env.stamp item.instanceId (turnExecution item).1 (workitemReader item) (semver.render version)
        (turnExecution item).2) opening := by
  have full := turnExecution_fullHistory item
  unfold startIfNew
  split_ifs with empty
  · simp only [HistoryManager.isEmpty, Bool.and_eq_true, List.isEmpty_iff] at empty
    rw [HistoryManager.fullHistory, empty.1, empty.2] at full
    refine ⟨_, .opens full.symm named version, rfl, rfl, fun _ => ?_⟩
    simp [HistoryManager.fullHistory, HistoryManager.append, empty.1, empty.2]
  · refine ⟨[], .continues fun new => empty ?_, .refl _⟩
    rw [new, HistoryManager.fullHistory, List.append_eq_nil_iff] at full
    simp [HistoryManager.isEmpty, full.1, full.2]

/-- The events of a turn, in their order. -/
structure TurnEvents (env : RuntimeEnv semver) (item : OrchestrationItem) (outcome : ExecutionOutcome)
    (opening body ending : List Event) : Prop where
  extended : Extends (turnExecution item).2 outcome.historyMgr (opening ++ (body ++ ending))
  opens : Opening env item opening
  inner : ∀ event ∈ body, event.kind.isInner
  ends : ∃ result, Execution.Ends result ending

theorem turnEvents (ran : turnOutcome env item = some outcome) (ascending : Ascending item.history) :
    ∃ opening body ending, TurnEvents env item outcome opening body ending := by
  cases ran_of_turnOutcome ran with
  | unnamed noName =>
    exact ⟨[], [], [], .refl _, .unnamed noName, fun _ none => absurd none List.not_mem_nil,
      .continue, fun _ => rfl, [], [], rfl, fun _ none => absurd none List.not_mem_nil, rfl⟩
  | executed named version handler resolved =>
    obtain ⟨opening, opens, started⟩ := startIfNew_extends env item named version
    have full : Ascending (turnExecution item).2.fullHistory :=
      turnExecution_fullHistory item ▸ ascending_baseHistory ascending _
    obtain ⟨body, ending, extended, _, inner, ends⟩ := Execution.runSingleExecutionAtomic_extends env.executionIds
      (workitemReader item) handler (semver.render version) item.kvSnapshot (started.ascending full)
    exact ⟨opening, body, ending, started.trans extended, opens, inner, _, ends⟩

/-- What the limits add to a turn: nothing, or a failure in place of everything it enqueues. -/
inductive Limited (env : RuntimeEnv semver) (item : OrchestrationItem) (outcome : ExecutionOutcome) :
    ExecutionOutcome × ExecutionMetadata semver → List Event → Prop
  | within (none : limitError outcome.historyMgr.delta item.kvSnapshot = none) :
      Limited env item outcome (outcome, computeExecutionMetadata semver outcome.historyMgr.delta {}) []
  | exceeded (message : String) (some : limitError outcome.historyMgr.delta item.kvSnapshot = some message)
      (event : Event) (failed : event.kind = .orchestrationFailed (.application .orchestrationFailed message false))
      (numbered : event.eventId = outcome.historyMgr.nextEventId) :
      Limited env item outcome
        ({ outcome with historyMgr := outcome.historyMgr.append event, workerItems := [], orchestratorItems := [] },
          { computeExecutionMetadata semver outcome.historyMgr.delta {} with
            status := .some .failed
            output := .some (ErrorDetails.application .orchestrationFailed message false).displayMessage }) [event]

theorem enforceLimits_limited (env : RuntimeEnv semver) (item : OrchestrationItem) (executionId : Nat)
    (outcome : ExecutionOutcome) :
    ∃ limit, Limited env item outcome (enforceLimits env item executionId outcome) limit := by
  unfold enforceLimits
  dsimp only
  split
  · rename_i none
    exact ⟨_, .within none⟩
  · rename_i message some
    exact ⟨_, .exceeded message some _ rfl rfl⟩

theorem Limited.extends {limited : ExecutionOutcome × ExecutionMetadata semver} {limit : List Event}
    (limits : Limited env item outcome limited limit) : Extends outcome.historyMgr limited.1.historyMgr limit := by
  cases limits with
  | within => exact .refl _
  | exceeded message some event failed numbered => exact extends_append numbered

/-- A turn that exceeds a limit fails. -/
theorem Limited.terminal {limited : ExecutionOutcome × ExecutionMetadata semver} {limit : List Event}
    (limits : Limited env item outcome limited limit) : ∀ event ∈ limit, event.kind.isTerminal := by
  intro event member
  cases limits with
  | within => exact absurd member List.not_mem_nil
  | exceeded message some failure failed numbered =>
    rw [List.mem_singleton.mp member, failed]
    rfl

/-- What is cancelled at a terminal status leaves breadcrumbs. -/
theorem cancelInflight_extends (stamp : Stamp) (instanceId : String) (executionId : Nat) (outcome : ExecutionOutcome)
    (status : Option ExecutionStatus) :
    ∃ breadcrumbs, Extends outcome.historyMgr (cancelInflight stamp instanceId executionId outcome status).1 breadcrumbs ∧
      ∀ event ∈ breadcrumbs, event.kind.isBreadcrumb := by
  cases status with
  | none => exact ⟨[], .refl _, fun _ none => absurd none List.not_mem_nil⟩
  | some status =>
    obtain ⟨breadcrumbs, extended, kinds⟩ := @Execution.emitBreadcrumbs_extends stamp instanceId executionId
      outcome.historyMgr (.activityCancelRequested (terminalReason status))
      ((outcome.historyMgr.computeInflightActivities instanceId executionId).map (·.activityId))
    refine ⟨breadcrumbs, extended, fun event member => ?_⟩
    rw [kinds event member]
    rfl

theorem cancelInflight_of_none {stamp : Stamp} {instanceId : String} {executionId : Nat} {status : Option ExecutionStatus}
    (quiet : status.isSome → outcome.historyMgr.computeInflightActivities instanceId executionId = []) :
    (cancelInflight stamp instanceId executionId outcome status).1 = outcome.historyMgr := by
  cases status with
  | none => rfl
  | some status =>
    simp only [cancelInflight, quiet rfl]
    rfl

/-- The events that a turn asks to append. -/
structure RequestEvents (env : RuntimeEnv semver) (item : OrchestrationItem) (outcome : ExecutionOutcome)
    (opening body ending limit trailing : List Event) : Prop where
  turn : TurnEvents env item outcome opening body ending
  limited : Limited env item outcome (enforceLimits env item (turnExecution item).1 outcome) limit
  breadcrumbs : ∀ event ∈ trailing, event.kind.isBreadcrumb
  quiet : (turnRequest env item outcome).metadata.status = none → trailing = []
  idle : (enforceLimits env item (turnExecution item).1 outcome).1.historyMgr.computeInflightActivities item.instanceId
    (turnExecution item).1 = [] → trailing = []
  outcomeDelta : outcome.historyMgr.delta = opening ++ (body ++ ending)
  delta : (turnRequest env item outcome).historyDelta = opening ++ (body ++ ending) ++ limit ++ trailing
  ascending : Ascending (baseHistory item (turnExecution item).1 ++ (turnRequest env item outcome).historyDelta)

/-- A turn within its limits enqueues the items of its outcome. -/
theorem items_of_within (within : limitError outcome.historyMgr.delta item.kvSnapshot = none) :
    (turnRequest env item outcome).orchestratorItems = outcome.orchestratorItems := by
  rw [turnRequest]
  dsimp only
  rw [enforceLimits]
  dsimp only
  rw [within]

theorem workerItems_of_within (within : limitError outcome.historyMgr.delta item.kvSnapshot = none) :
    (turnRequest env item outcome).workerItems = outcome.workerItems := by
  rw [turnRequest]
  dsimp only
  rw [enforceLimits]
  dsimp only
  rw [within]

/-- A turn that exceeds a limit enqueues nothing. -/
theorem items_of_exceeded (exceeds : limitError outcome.historyMgr.delta item.kvSnapshot ≠ none) :
    (turnRequest env item outcome).orchestratorItems = [] := by
  obtain ⟨message, some⟩ := Option.ne_none_iff_exists'.mp exceeds
  rw [turnRequest]
  dsimp only
  rw [enforceLimits]
  dsimp only
  rw [some]

/-- A turn within its limits appends only breadcrumbs behind the events of its outcome. -/
theorem RequestEvents.delta_of_within {opening body ending limit trailing : List Event}
    (events : RequestEvents env item outcome opening body ending limit trailing)
    (within : limitError outcome.historyMgr.delta item.kvSnapshot = none) :
    (turnRequest env item outcome).historyDelta = outcome.historyMgr.delta ++ trailing := by
  have limited := events.limited
  have delta := events.delta
  generalize enforceLimits env item (turnExecution item).1 outcome = enforced at limited
  cases limited with
  | exceeded message some =>
    rw [within] at some
    cases some
  | within => rw [delta, ← events.outcomeDelta, List.append_nil]

/-- Behind its opening a turn starts nothing. -/
theorem RequestEvents.unstarted {opening body ending limit trailing : List Event}
    (events : RequestEvents env item outcome opening body ending limit trailing) :
    ∀ event ∈ body ++ ending ++ limit ++ trailing, event.kind.isStarted = false := by
  intro event member
  simp only [List.mem_append] at member
  rcases member with ((inBody | inEnding) | inLimit) | inTrailing
  · exact EventKind.isStarted_of_isInner (events.turn.inner event inBody)
  · obtain ⟨result, ends⟩ := events.turn.ends
    exact ends.notStarted event inEnding
  · exact EventKind.isStarted_of_isTerminal (events.limited.terminal event inLimit)
  · exact EventKind.isStarted_of_isInner (EventKind.isInner_of_isBreadcrumb (events.breadcrumbs event inTrailing))

/-- A turn's start event is the one that opens its execution. -/
theorem RequestEvents.mem_opening {opening body ending limit trailing : List Event}
    (events : RequestEvents env item outcome opening body ending limit trailing) {event : Event}
    (member : event ∈ (turnRequest env item outcome).historyDelta) (started : event.kind.isStarted) : event ∈ opening := by
  have delta : (turnRequest env item outcome).historyDelta = opening ++ (body ++ ending ++ limit ++ trailing) := by
    rw [events.delta]
    simp only [List.append_assoc]
  rw [delta] at member
  refine (List.mem_append.mp member).resolve_right fun later => ?_
  rw [events.unstarted event later] at started
  cases started

theorem requestEvents (ran : turnOutcome env item = some outcome) (ascending : Ascending item.history) :
    ∃ opening body ending limit trailing, RequestEvents env item outcome opening body ending limit trailing := by
  obtain ⟨opening, body, ending, turn⟩ := turnEvents ran ascending
  obtain ⟨limit, limited⟩ := enforceLimits_limited env item (turnExecution item).1 outcome
  obtain ⟨trailing, cancelled, kinds⟩ := cancelInflight_extends env.stamp item.instanceId (turnExecution item).1
    (enforceLimits env item (turnExecution item).1 outcome).1 (enforceLimits env item (turnExecution item).1 outcome).2.status
  have all := (turn.extended.trans limited.extends).trans cancelled
  have delta : (turnRequest env item outcome).historyDelta = opening ++ (body ++ ending) ++ limit ++ trailing :=
    all.delta.trans (by rw [turnExecution_delta, List.nil_append])
  have stopped : (cancelInflight env.stamp item.instanceId (turnExecution item).1
      (enforceLimits env item (turnExecution item).1 outcome).1
      (enforceLimits env item (turnExecution item).1 outcome).2.status).1 =
        (enforceLimits env item (turnExecution item).1 outcome).1.historyMgr → trailing = [] := by
    intro same
    have deltas := cancelled.delta
    rw [same] at deltas
    exact List.self_eq_append_right.mp deltas
  refine ⟨opening, body, ending, limit, trailing, turn, limited, kinds, ?_, ?_, ?_, delta, ?_⟩
  · intro running
    refine stopped (cancelInflight_of_none fun ended => ?_)
    have none : (enforceLimits env item (turnExecution item).1 outcome).2.status = .none := running
    rw [none] at ended
    cases ended
  · exact fun idle => stopped (cancelInflight_of_none fun _ => idle)
  · rw [turn.extended.delta, turnExecution_delta, List.nil_append]
  · rw [delta, ← turnExecution_fullHistory, ← all.fullHistory]
    exact all.ascending (turnExecution_fullHistory item ▸ ascending_baseHistory ascending _)

/-- The start event of an execution that fails before it ran. -/
structure PoisonStarted (item : OrchestrationItem) (event : Event) : Prop where
  first : event.eventId = INITIAL_EVENT_ID
  kind : event.kind = .orchestrationStarted (poisonStart item).1 item.version (poisonStart item).2.1
    (poisonStart item).2.2.1 (poisonStart item).2.2.2.1 (poisonStart item).2.2.2.2 none

/-- The events of a poison failure: the failure, after the start event if there is none yet. -/
inductive PoisonEvents (item : OrchestrationItem) (details : ErrorDetails) : List Event → Prop
  | recorded (continues : item.history ≠ []) (failed : Event) (kind : failed.kind = .orchestrationFailed details) :
      PoisonEvents item details [failed]
  | new (empty : item.history = []) (started failed : Event) (begins : PoisonStarted item started)
      (kind : failed.kind = .orchestrationFailed details) : PoisonEvents item details [started, failed]

/-- The error of a poison failure. -/
def poisonDetails (env : RuntimeEnv semver) (item : OrchestrationItem) (attemptCount : Nat) : ErrorDetails :=
  .poison attemptCount env.maxAttempts (.orchestration item.instanceId item.executionId)
    (env.serializeMessages item.messages)

theorem poisonManager_extends (env : RuntimeEnv semver) (item : OrchestrationItem) :
    ∃ opening, Extends (HistoryManager.fromHistory item.history) (poisonManager env item).1 opening ∧
      (item.history ≠ [] ∧ opening = [] ∨ item.history = [] ∧ ∃ started, opening = [started] ∧ PoisonStarted item started) := by
  unfold poisonManager
  dsimp only
  split_ifs with empty
  · simp only [HistoryManager.isEmpty, fromHistory_history, fromHistory_delta, List.isEmpty_nil, Bool.and_true,
      List.isEmpty_iff] at empty
    refine ⟨_, ⟨rfl, rfl, fun _ => ?_⟩, .inr ⟨empty, _, rfl, rfl, rfl⟩⟩
    simp [HistoryManager.fullHistory, HistoryManager.append, empty]
  · refine ⟨[], .refl _, .inl ⟨fun new => empty ?_, rfl⟩⟩
    simp [HistoryManager.isEmpty, new]

theorem failOrchestrationAsPoison_events (readable : item.historyError = none) (ascending : Ascending item.history) :
    PoisonEvents item (poisonDetails env item attemptCount)
        (failOrchestrationAsPoison env item attemptCount).historyDelta ∧
      Ascending (item.history ++ (failOrchestrationAsPoison env item attemptCount).historyDelta) := by
  obtain ⟨opening, extended, opens⟩ := poisonManager_extends env item
  have all := extended.trans (extends_appendFailed env.stamp (poisonDetails env item attemptCount))
  have delta : (failOrchestrationAsPoison env item attemptCount).historyDelta =
      opening ++ [failedEvent env.stamp (poisonManager env item).1 (poisonDetails env item attemptCount)] := by
    unfold failOrchestrationAsPoison
    rw [readable]
    exact all.delta.trans (by rw [fromHistory_delta, List.nil_append])
  have full : (HistoryManager.fromHistory item.history).fullHistory = item.history := by
    simp [HistoryManager.fullHistory]
  constructor
  · rw [delta]
    rcases opens with ⟨continues, rfl⟩ | ⟨empty, started, rfl, begins⟩
    · exact .recorded continues _ rfl
    · exact .new empty started _ begins rfl
  · rw [delta]
    have ordered := all.ascending (full.symm ▸ ascending)
    rwa [all.fullHistory, full] at ordered

/-- A failure commit appends one failure to what was read. -/
theorem failureCommit_events (executionId : Nat) (error : ProviderError) (ascending : Ascending item.history) :
    ∃ failed, failed.kind = .orchestrationFailed error.toInfrastructureError ∧
      (failureCommit env item executionId error).historyDelta = [failed] ∧ Ascending (item.history ++ [failed]) := by
  have extended := @extends_appendFailed (HistoryManager.fromHistory item.history) env.stamp error.toInfrastructureError
  have full : (HistoryManager.fromHistory item.history).fullHistory = item.history := by
    simp [HistoryManager.fullHistory]
  refine ⟨_, rfl, extended.delta.trans (by rw [fromHistory_delta, List.nil_append]), ?_⟩
  have ordered := extended.ascending (full.symm ▸ ascending)
  rwa [extended.fullHistory, full] at ordered

/-- Over a history that can be read, an answer numbers its events above the execution's. -/
theorem Answered.ascending (answered : Answered env item attemptCount request fallback)
    (readable : item.historyError = none) (ascending : Ascending item.history) :
    Ascending (baseHistory item request.executionId ++ request.historyDelta) := by
  cases answered with
  | corrupted exceeded message unreadable =>
    rw [readable] at unreadable
    cases unreadable
  | poisoned =>
    have execution : (failOrchestrationAsPoison env item attemptCount).executionId = item.executionId := by
      unfold failOrchestrationAsPoison
      rw [readable]
    rw [execution, baseHistory_self]
    exact (failOrchestrationAsPoison_events readable ascending).2
  | ended =>
    rw [baseHistory_self, List.append_nil]
    exact ascending
  | turned inTime readable running outcome ran =>
    obtain ⟨opening, body, ending, limit, trailing, events⟩ := requestEvents ran ascending
    exact events.ascending

/-- The failure commit of a turn numbers its event above the execution's. -/
theorem failureCommit_ascending (executionId : Nat) (error : ProviderError) (ascending : Ascending item.history) :
    Ascending (baseHistory item executionId ++ (failureCommit env item executionId error).historyDelta) := by
  obtain ⟨failed, _, delta, ordered⟩ := failureCommit_events executionId error ascending
  rw [delta]
  unfold baseHistory
  split_ifs
  · exact ordered
  · exact List.pairwise_singleton _ _

end Dispatcher

end Duroxide
