import Duroxide.Proofs.Completions
import Duroxide.Proofs.DroppedFutures
import Duroxide.Proofs.Succession

/-! # Readings of actions

A reading of events that sees only what a program's actions record. Whoever records such an event has run the
program of an execution that has started and has not ended, so nothing of the kind is recorded behind the end of
an execution or for an instance without a row.
-/

namespace Duroxide

open Provider Dispatcher

variable {semver : Semver} {Reading : Type} {ofEvent : Event → Option Reading}

/-- A reading of events that sees only the records of actions. -/
structure ReadsActions (ofEvent : Event → Option Reading) : Prop extends ReadsInner ofEvent where
  message : ∀ event, event.kind.isMessage → ofEvent event = none

theorem isTerminal_of_isFailed {kind : EventKind} (failed : kind.isFailed) : kind.isTerminal := by
  cases kind <;> first | rfl | cases failed

namespace Dispatcher

variable {env : RuntimeEnv semver} {item : OrchestrationItem} {outcome : ExecutionOutcome} {result : TurnResult}
  {engine : ReplayEngine} {manager : HistoryManager} {ending : List Event}

/-- Preparing a batch records no action. -/
theorem reading_preparedEngine (reads : ReadsActions ofEvent) (env : RuntimeEnv semver) (item : OrchestrationItem)
    (manager : HistoryManager) : (preparedEngine env item manager).historyDelta.filterMap ofEvent = [] :=
  List.filterMap_eq_nil_iff.mpr fun event member =>
    reads.message event (Completions.messages_preparedEngine env item manager event member)

/-- A turn that records an action evaluates its program. -/
theorem evaluates_of_reading (reads : ReadsActions ofEvent)
    (turned : Turned env item result engine outcome manager ending) (records : engine.historyDelta.filterMap ofEvent ≠ []) :
    (preparedEngine env item manager).evaluates := by
  refine Bool.eq_true_of_not_eq_false fun idle => records ?_
  obtain ⟨version, handler, _, run⟩ := turned.ran
  have same := (Prod.mk.inj run).2.trans (ReplayEngine.executeOrchestration_of_idle idle)
  rw [same]
  exact reading_preparedEngine reads env item manager

theorem started_of_startsExecution {events : List Event} (starts : ReplayEngine.startsExecution events) :
    ∃ event ∈ events, event.kind.isStarted := by
  unfold ReplayEngine.startsExecution at starts
  split at starts
  · exact ⟨_, List.mem_cons_self, rfl⟩
  · cases starts

/-- A turn that evaluates its program continues a history that has not ended, and its execution has started. -/
theorem starts_of_evaluates (turned : Turned env item result engine outcome manager ending)
    (evaluates : (preparedEngine env item manager).evaluates) :
    (baseHistory item (turnExecution item).1).any (·.isTerminal) = false ∧
      ∃ event ∈ baseHistory item (turnExecution item).1 ++ (turnRequest env item outcome).historyDelta,
        event.kind.isStarted := by
  simp only [ReplayEngine.evaluates, Bool.and_eq_true, Bool.not_eq_true'] at evaluates
  obtain ⟨⟨_, running⟩, starts⟩ := evaluates
  rw [preparedEngine, Execution.prepareTurn_baselineHistory, HistoryManager.fullHistory, turned.history] at running starts
  rw [List.append_assoc, List.any_append, Bool.or_eq_false_iff] at running
  refine ⟨running.1, ?_⟩
  obtain ⟨event, member, started⟩ := started_of_startsExecution starts
  refine ⟨event, ?_, started⟩
  rcases List.mem_append.mp member with recorded | prepared
  · refine (List.mem_append.mp recorded).elim (List.mem_append_left _) fun opening => List.mem_append_right _ ?_
    obtain ⟨limit, trailing, delta, _⟩ := turnRequest_delta env item outcome
    rw [delta, turned.delta]
    exact List.mem_append_left _ (List.mem_append_left _ (List.mem_append_left _ opening))
  · have message := Completions.messages_preparedEngine env item manager event prepared
    obtain ⟨eventId, source, owner, executionId, timestamp, crate, kind⟩ := event
    cases kind <;> first | (cases started; done) | cases message

theorem ReadsInner.of_poisonEvents (reads : ReadsInner ofEvent) {details : ErrorDetails} {delta : List Event}
    (events : PoisonEvents item details delta) : delta.filterMap ofEvent = [] := by
  refine List.filterMap_eq_nil_iff.mpr fun event member => reads.outer event ?_
  cases events with
  | recorded continues failed kind => rw [List.mem_singleton.mp member, kind]; rfl
  | new empty started failed begins kind =>
    rcases List.mem_cons.mp member with rfl | last
    · rw [begins.kind]; rfl
    · rw [List.mem_singleton.mp last, kind]; rfl

end Dispatcher

/-- A request that records an action continues a history that has not ended, and its execution has started. -/
theorem Asks.Source.starts_of_reading (reads : ReadsActions ofEvent) {conditions : Conditions semver}
    {item : OrchestrationItem} {attemptCount : Nat} {request : AckRequest semver}
    (source : Asks.Source conditions item attemptCount request) (history : Ascending item.history)
    (records : request.historyDelta.filterMap ofEvent ≠ []) :
    (baseHistory item request.executionId).any (·.isTerminal) = false ∧
      ∃ event ∈ baseHistory item request.executionId ++ request.historyDelta, event.kind.isStarted := by
  cases source with
  | failure env allowed supported turned readable outcome ran running error =>
    obtain ⟨failed, kind, delta, _⟩ := failureCommit_events (turnExecution item).1 error history
    refine absurd ?_ records
    rw [delta, List.filterMap_cons, reads.terminal (by rw [kind]; rfl)]
    rfl
  | answer env allowed supported _ fallback answered =>
    cases answered with
    | corrupted exceeded message unreadable =>
      refine absurd ?_ records
      unfold failOrchestrationAsPoison
      rw [unreadable]
      exact List.filterMap_cons_none (reads.terminal rfl)
    | poisoned exceeded readable =>
      exact absurd (reads.of_poisonEvents (failOrchestrationAsPoison_events readable history).1) records
    | ended => exact absurd rfl records
    | turned inTime readable running outcome ran =>
      rcases executed : turnExecuted env item with _ | ⟨result, engine⟩
      · refine absurd ?_ records
        rw [reads.turnRequest env item outcome, outcome_of_unexecuted executed ran, turnExecution_delta]
        rfl
      · obtain ⟨manager, ending, turned⟩ := turned_of_executed executed ran
        rw [reads.turned turned] at records
        exact starts_of_evaluates turned (evaluates_of_reading reads turned records)

/-! ## What is stored -/

/-- Inserting a row that reads as nothing. -/
theorem filterMap_insertRow {read : HistoryRow → Option Reading} {row : HistoryRow}
    {rows result : List HistoryRow} (silent : read row = none)
    (inserted : ExecutionHistory.insertRow row rows = some result) : result.filterMap read = rows.filterMap read := by
  induction rows generalizing result with
  | nil =>
    cases inserted
    rw [List.filterMap_cons, silent]
  | cons first rest ih =>
    rw [ExecutionHistory.insertRow] at inserted
    split_ifs at inserted
    · cases inserted
      rw [List.filterMap_cons, silent]
    · obtain ⟨tail, inner, rfl⟩ := Option.map_eq_some_iff.mp inserted
      rw [List.filterMap_cons, List.filterMap_cons, ih inner]

/-- An event that reads as nothing leaves the readings of a history as they are, wherever it is recorded. -/
theorem filterMap_insertSilent (ofEvent : Event → Option Reading) {history after : ExecutionHistory} {event : Event}
    (silent : ofEvent event = none) (appended : insertEvents history [event] = some after) :
    (after.rows.filterMap (·.event.toOption)).filterMap ofEvent =
      (history.rows.filterMap (·.event.toOption)).filterMap ofEvent := by
  obtain ⟨inserted, insert, last⟩ := Option.bind_eq_some_iff.mp appended
  cases last
  unfold ExecutionHistory.insert at insert
  split at insert
  · rename_i rows found
    cases insert
    rw [List.filterMap_filterMap, List.filterMap_filterMap]
    have unread : (fun row : HistoryRow => row.event.toOption.bind ofEvent) ⟨event.eventId, .ok event⟩ = none := silent
    exact filterMap_insertRow unread found
  · cases insert

namespace ReadsActions

variable {world after : World semver} {label : Step semver} {delivery : Delivery semver} {request : AckRequest semver}
  {instanceId : String} {conditions : Conditions semver}

/-- A commit to an execution that has ended records no action. -/
theorem silent_of_ended (reads : ReadsActions ofEvent) (lifecycle : Lifecycle world) (provenance : Provenance world)
    (coherent : Coherent world) (pending : Pending conditions world)
    (commits : Commits world label delivery request instanceId after)
    (ended : (world.store.recorded instanceId request.executionId).any (·.isTerminal)) :
    request.historyDelta.filterMap ofEvent = [] := by
  have extended := lifecycle.extended provenance coherent pending commits
  obtain ⟨config, now, token, fault, _, holds, committed, _⟩ := commits.holds
  obtain ⟨fallback, failed, phase⟩ := commits.phase
  obtain ⟨rfl, _⟩ := coherent.of_locked committed.locked holds
  have source := (pending token delivery request fallback failed holds phase).source
  have history := (provenance.items token delivery holds).ordered
  cases extended with
  | unchanged readable same empty nothing kept =>
    rw [nothing]
    rfl
  | corrupted info row current message unreadable failure delta numbered kind =>
    rw [delta]
    exact List.filterMap_cons_none (reads.terminal (isTerminal_of_isFailed kind))
  | continued readable same base appended =>
    by_contra records
    have unended := (source.starts_of_reading reads history records).1
    rw [same] at base ended unended
    rw [baseHistory_self, ← base, ended] at unended
    cases unended
  | opened readable continues next info row current named base appended =>
    rw [base] at ended
    cases ended

/-- A commit that leaves its instance without a row records no action. -/
theorem silent_of_noRow (reads : ReadsActions ofEvent) (lifecycle : Lifecycle world) (later : Lifecycle after)
    (provenance : Provenance world) (coherent : Coherent world) (pending : Pending conditions world)
    (commits : Commits world label delivery request instanceId after) (noRow : after.store.instances instanceId = none) :
    world.store.instances instanceId = none ∧ request.historyDelta.filterMap ofEvent = [] := by
  obtain ⟨config, now, token, fault, _, holds, committed, _⟩ := commits.holds
  obtain ⟨fallback, failed, phase⟩ := commits.phase
  obtain ⟨rfl, describes⟩ := coherent.of_locked committed.locked holds
  have source := (pending token delivery request fallback failed holds phase).source
  have history := (provenance.items token delivery holds).ordered
  have before : world.store.instances delivery.item.instanceId = none := by
    have bumped := currentExecutionId_of_acked committed
    rcases row : world.store.instances delivery.item.instanceId with _ | info
    · rfl
    · rw [noRow, row] at bumped
      cases bumped
  refine ⟨before, ?_⟩
  by_contra records
  obtain ⟨event, member, started⟩ := (source.starts_of_reading reads history records).2
  have empty : baseHistory delivery.item request.executionId = [] := by
    rw [baseHistory, (lifecycle.describes_of_noRow describes before).2.2, ite_self]
  rw [empty, List.nil_append] at member
  have unstarted := later.notRecorded noRow _ event ((mem_recorded_iff committed).mpr (.inr member))
  rw [unstarted] at started
  cases started

end ReadsActions

end Duroxide
