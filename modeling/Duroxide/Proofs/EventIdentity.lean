import Duroxide.Proofs.ExecutedTurns
import Duroxide.Proofs.Provenance
import Duroxide.Proofs.Requests
import Duroxide.Proofs.VersionPinning

/-! # Events that name their execution

Every event is built for the instance and execution of its turn, except the failures of `append_failed`: they are built
with an empty instance and execution 0, for a caller that never fills them in. So the events of a history name their
execution as long as no failure goes through that helper.
-/

namespace Duroxide

/-- The event is one of this execution. -/
structure Names (instanceId : String) (executionId : Nat) (event : Event) : Prop where
  instanceId : event.instanceId = instanceId
  executionId : event.executionId = executionId

theorem names_withEventId (stamp : Stamp) (eventId : Nat) (instanceId : String) (executionId : Nat) (source : Option Nat)
    (kind : EventKind) : Names instanceId executionId (Event.withEventId stamp eventId instanceId executionId source kind) :=
  ⟨rfl, rfl⟩

theorem names_of_actionToEvent {stamp : Stamp} {action : Action} {instanceId : String} {executionId eventId : Nat}
    {event : Event} (converted : actionToEvent stamp action instanceId executionId eventId = some event) :
    Names instanceId executionId event := by
  cases action <;> cases converted <;> exact ⟨rfl, rfl⟩

/-- Adding an event of an execution to events of that execution. -/
theorem forall_mem_append_names {instanceId : String} {executionId : Nat} {events : List Event} {added : Event}
    (known : ∀ event ∈ events, Names instanceId executionId event) (new : Names instanceId executionId added) :
    ∀ event ∈ events ++ [added], Names instanceId executionId event :=
  List.forall_mem_append.mpr ⟨known, List.forall_mem_singleton.mpr new⟩

namespace ReplayEngine

variable {engine result : ReplayEngine}

theorem Records.names (records : Records engine result)
    (known : ∀ event ∈ engine.historyDelta, Names engine.instanceId engine.executionId event) :
    ∀ event ∈ result.historyDelta, Names result.instanceId result.executionId event := by
  cases records with
  | action ctx emitted =>
    refine List.forall_mem_append.mpr ⟨known, fun event new => ?_⟩
    exact names_of_actionToEvent (Option.mem_toList.mp new)
  | breadcrumb id kind isBreadcrumb => exact forall_mem_append_names known (names_withEventId ..)
  | cancelled activities children => exact known

theorem Recorded.names (recorded : Recorded engine result)
    (known : ∀ event ∈ engine.historyDelta, Names engine.instanceId engine.executionId event) :
    ∀ event ∈ result.historyDelta, Names engine.instanceId engine.executionId event := by
  have own : ∀ event ∈ result.historyDelta, Names result.instanceId result.executionId event := by
    induction recorded with
    | refl => exact known
    | tail _ records ih => exact records.names ih
  rwa [(Recorded.identity recorded).1, (Recorded.identity recorded).2] at own

/-- Preparing a message keeps the execution of an engine, and its events are events of it. -/
theorem prepCompletions_names (messages : List WorkItem)
    (known : ∀ event ∈ engine.historyDelta, Names engine.instanceId engine.executionId event) :
    ((engine.prepCompletions messages).instanceId = engine.instanceId ∧
        (engine.prepCompletions messages).executionId = engine.executionId) ∧
      ∀ event ∈ (engine.prepCompletions messages).historyDelta, Names engine.instanceId engine.executionId event := by
  unfold prepCompletions
  induction messages generalizing engine with
  | nil => exact ⟨⟨rfl, rfl⟩, known⟩
  | cons message rest ih =>
    rcases engine.prepCompletion_cases message with ⟨abortError, unchanged⟩ | ⟨abortError, source, kind, _, pushed⟩
    · rw [List.foldl_cons, unchanged]
      exact @ih { engine with abortError } known
    · rw [List.foldl_cons, pushed]
      exact @ih ({ engine with abortError }.pushEvent source kind) (forall_mem_append_names known (names_withEventId ..))

end ReplayEngine

/-- The results that `append_failed` records. -/
def TurnResult.fails : TurnResult → Bool
  | .failed _ | .cancelled _ => true
  | _ => false

namespace Execution

variable {stamp : Stamp} {instanceId orchestrationName : String} {executionId : Nat} {manager : HistoryManager}

theorem emitBreadcrumbs_names (kind : EventKind) (ids : List Nat)
    (known : ∀ event ∈ manager.delta, Names instanceId executionId event) :
    ∀ event ∈ (emitBreadcrumbs stamp instanceId executionId kind manager ids).delta, Names instanceId executionId event := by
  unfold emitBreadcrumbs
  induction ids generalizing manager with
  | nil => exact known
  | cons id rest ih => exact ih (forall_mem_append_names known (names_withEventId ..))

theorem emitTerminalCancellationBreadcrumbs_names (outstanding : OutstandingSchedules)
    (known : ∀ event ∈ manager.delta, Names instanceId executionId event) :
    ∀ event ∈ (emitTerminalCancellationBreadcrumbs stamp manager instanceId executionId outstanding).delta,
      Names instanceId executionId event :=
  emitBreadcrumbs_names _ _ (emitBreadcrumbs_names _ _ known)

/-- A result that does not fail is recorded under its execution. -/
theorem applyTurnResult_names (executionIds : ExecutionIds) (parentLink : Option (String × Nat))
    (pendingActions : List Action) {result : TurnResult} (succeeds : result.fails = false)
    (known : ∀ event ∈ manager.delta, Names instanceId executionId event) :
    ∀ event ∈ (applyTurnResult stamp executionIds instanceId orchestrationName executionId manager parentLink
      pendingActions result).historyMgr.delta, Names instanceId executionId event := by
  have ended := @emitTerminalCancellationBreadcrumbs_names stamp instanceId executionId manager
    (getOutstandingScheduleIds manager.fullHistory) known
  cases result with
  | «continue» => exact known
  | completed output => exact forall_mem_append_names ended (names_withEventId ..)
  | continueAsNew input version => exact forall_mem_append_names ended (names_withEventId ..)
  | failed details => cases succeeds
  | cancelled reason => cases succeeds

end Execution

namespace Dispatcher

variable {semver : Semver} {env : RuntimeEnv semver} {item : OrchestrationItem} {attemptCount : Nat}
  {request : AckRequest semver} {fallback : Option (ProviderError → AckRequest semver)} {outcome : ExecutionOutcome}

/-- A failure of this answer goes through `append_failed`: the item is poisoned over a readable history, or its turn
fails. -/
def FailsByHelper (env : RuntimeEnv semver) (item : OrchestrationItem) (attemptCount : Nat) : Prop :=
  item.historyError = none ∧
    (env.maxAttempts < attemptCount ∨ ∃ result engine, turnExecuted env item = some (result, engine) ∧ result.fails)

theorem opening_names {opening : List Event} (opens : Opening env item opening) :
    ∀ event ∈ opening, Names item.instanceId (turnExecution item).1 event := by
  cases opens with
  | continues | unnamed => simp
  | opens new named version => exact List.forall_mem_singleton.mpr (names_withEventId ..)

/-- What the engine of a turn records. -/
theorem Turned.names {result : TurnResult} {engine : ReplayEngine} {manager : HistoryManager} {ending : List Event}
    (turned : Turned env item result engine outcome manager ending) :
    ∀ event ∈ engine.historyDelta, Names item.instanceId (turnExecution item).1 event := by
  obtain ⟨⟨sameInstance, sameExecution⟩, prepared⟩ := @ReplayEngine.prepCompletions_names
    (((ReplayEngine.new env.stamp item.instanceId (turnExecution item).1 manager.fullHistory).withPersistedHistoryLen
      manager.originalLen).withKvSnapshot item.kvSnapshot) (workitemReader item).completionMessages
    (fun _ none => absurd none List.not_mem_nil)
  have own : ∀ event ∈ (preparedEngine env item manager).historyDelta,
      Names (preparedEngine env item manager).instanceId (preparedEngine env item manager).executionId event := by
    unfold preparedEngine Execution.prepareTurn
    rwa [sameInstance, sameExecution]
  have recorded := turned.recorded.names own
  unfold preparedEngine Execution.prepareTurn at recorded
  rwa [sameInstance, sameExecution] at recorded

theorem turnOutcome_names (ran : turnOutcome env item = some outcome)
    (succeeds : ∀ result engine, turnExecuted env item = some (result, engine) → result.fails = false) :
    ∀ event ∈ outcome.historyMgr.delta, Names item.instanceId (turnExecution item).1 event := by
  rcases executed : turnExecuted env item with _ | ⟨result, engine⟩
  · rw [outcome_of_unexecuted executed ran]
    simp [turnExecution_delta]
  · obtain ⟨manager, ending, turned⟩ := turned_of_executed executed ran
    rw [turned.historyMgr]
    apply Execution.applyTurnResult_names _ _ _ (succeeds result engine executed)
    exact List.forall_mem_append.mpr ⟨opening_names turned.opens, turned.names⟩

theorem enforceLimits_names {executionId : Nat}
    (known : ∀ event ∈ outcome.historyMgr.delta, Names item.instanceId executionId event) :
    ∀ event ∈ (enforceLimits env item executionId outcome).1.historyMgr.delta, Names item.instanceId executionId event := by
  unfold enforceLimits
  dsimp only
  split
  · exact known
  · exact forall_mem_append_names known (names_withEventId ..)

theorem cancelInflight_names {stamp : Stamp} {instanceId : String} {executionId : Nat} (status : Option ExecutionStatus)
    (known : ∀ event ∈ outcome.historyMgr.delta, Names instanceId executionId event) :
    ∀ event ∈ (cancelInflight stamp instanceId executionId outcome status).1.delta, Names instanceId executionId event := by
  cases status with
  | some status => exact Execution.emitBreadcrumbs_names _ _ known
  | none => exact known

/-- Unless a failure goes through the helper, an answer appends events of the execution that it appends to. -/
theorem Answered.names (answered : Answered env item attemptCount request fallback)
    (careful : ¬ FailsByHelper env item attemptCount) :
    ∀ event ∈ request.historyDelta, Names item.instanceId request.executionId event := by
  cases answered with
  | corrupted exceeded message unreadable =>
    unfold failOrchestrationAsPoison
    rw [unreadable]
    exact List.forall_mem_singleton.mpr (names_withEventId ..)
  | poisoned exceeded readable => exact absurd ⟨readable, .inl exceeded⟩ careful
  | ended => simp
  | turned inTime readable running outcome ran =>
    apply cancelInflight_names
    apply enforceLimits_names
    apply turnOutcome_names ran
    intro result engine executed
    apply Bool.eq_false_of_not_eq_true
    exact fun fails => careful ⟨readable, .inr ⟨result, engine, executed, fails⟩⟩

end Dispatcher

/-! ## Over a run -/

variable {semver : Semver}

open Dispatcher

/-- No decision fails by `append_failed`, and no turn gives way to the commit of its failure. -/
def avoidsHelper (semver : Semver) : Conditions semver where
  decide env item attemptCount := ¬ FailsByHelper env item attemptCount
  failTurn _ := False

/-- The events of every history name the execution that the history is of. -/
def Identified (store : Store) : Prop :=
  ∀ instanceId executionId, ∀ row ∈ (store.history instanceId executionId).rows,
    ∃ event, row.event = .ok event ∧ Names instanceId executionId event

/-- What is about to be appended names its execution. -/
theorem Asks.names {item : OrchestrationItem} {attemptCount : Nat} {request : AckRequest semver}
    {fallback : Option (ProviderError → AckRequest semver)}
    (asks : Asks (avoidsHelper semver) item attemptCount request fallback) :
    ∀ event ∈ request.historyDelta, Names item.instanceId request.executionId event := by
  cases asks with
  | decided env careful _ _ decision => exact (answered_of_decided decision).2.names careful
  | failed env careful original commit decision turned error => exact turned.elim

theorem Identified.step {world after : World semver} {label : Step semver} (identified : Identified world.store)
    (coherent : Coherent world) (pending : Pending (avoidsHelper semver) world) (effect : Effect world label after) :
    Identified after.store := by
  intro instanceId executionId row member
  rcases effect.records with same | ⟨delivery, request, acked, commits⟩
  · rw [same.history] at member
    exact identified instanceId executionId row member
  · obtain ⟨config, now, token, fault, rfl, holds, committed, _⟩ := commits.holds
    obtain ⟨fallback, failed, phase⟩ := commits.phase
    by_cases written : (instanceId, executionId) = (acked, request.executionId)
    · cases written
      rcases mem_insertEvents committed.appended member with old | ⟨event, appended, rfl⟩
      · exact identified _ _ row old
      · have names := (pending token delivery request fallback failed holds phase).names event appended
        rw [(coherent.of_locked committed.locked holds).1] at names
        exact ⟨event, rfl, names⟩
    · rw [committed.otherHistory instanceId executionId written] at member
      exact identified instanceId executionId row member

/-- In a run that avoids the helper every event names its execution. -/
theorem identified_of_avoidsHelper {world : World semver}
    (reached : (system semver).Reachable (avoidsHelper semver).guard world) : Identified world.store := by
  induction reached with
  | initial start =>
    rw [start]
    exact fun _ _ _ member => absurd member List.not_mem_nil
  | step reached allowed taken ih => exact ih.step (.of_reachable reached) (.of_reachable reached) (World.step_effect taken)

/-! An orchestration that completes or fails in its first turn, as its input says. -/

namespace EventIdentity

/-- A test that implies the conditions. -/
def passes (world : World semver) : Step semver → Bool
  | .decide token env => (world.deliveries token).all fun delivery =>
      delivery.attemptCount ≤ env.maxAttempts && (turnExecuted env delivery.item).all (!·.1.fails)
  | .failTurn token => (world.deliveries token).isNone
  | _ => true

theorem guard_of_passes (world : World semver) (label : Step semver) (tested : passes world label) :
    (avoidsHelper semver).guard world label := by
  cases label with
  | decide token env =>
    intro delivery holds
    simp only [passes, holds, Option.all_some, Bool.and_eq_true, decide_eq_true_eq] at tested
    rintro ⟨_, exceeded | ⟨result, engine, executed, fails⟩⟩
    · exact absurd exceeded (Nat.not_lt.mpr tested.1)
    · rw [executed, Option.all_some, fails] at tested
      cases tested.2
  | failTurn token =>
    intro delivery holds
    simp only [passes, holds, Option.isNone_some, Bool.false_eq_true] at tested
  | ack => exact fun _ _ _ _ _ _ _ => trivial
  | client | fetch | abandon | renew | fetchWork | renewWork | completeWork | dropWork | abandonWork => trivial

def endingHandler : OrchestrationHandler where
  State := String
  invoke input := input
  poll input := .finish (if input = "fail" then .error "no" else .ok "done")

def endingEnv : RuntimeEnv textSemver :=
  VersionPinning.registeredEnv fun name => if name = "orch" then some endingHandler else none

/-- An instance is started and takes its first turn. -/
def endingTurn (input : String) : List (Step textSemver) :=
  [.client 0 (.startOrchestration "i" "orch" input none none none 1), .fetch {} none 0 1000 1 none,
    .decide 1 endingEnv, .ack {} 0 1 none]

theorem identified_of_avoidsHelper_finish : ∃ world, World.runTested passes {} (endingTurn "finish") = some world ∧
    (world.store.history "i" 1).rows.length = 2 ∧ Identified world.store := by
  have ran : (World.runTested passes {} (endingTurn "finish")).any (fun world =>
      (world.store.history "i" 1).rows.length == 2) = true := by
    decide +kernel
  obtain ⟨world, reached, recorded⟩ := (Option.any_eq_true _ _).mp ran
  exact ⟨world, reached, eq_of_beq recorded,
    identified_of_avoidsHelper (World.reachable_of_runTested guard_of_passes (.initial rfl) reached)⟩

/-- The failure of an orchestration is recorded for an empty instance and execution 0. -/
theorem failure_notIdentified : ∃ world, World.run {} (endingTurn "fail") = some world ∧
    (world.store.history "i" 1).rows.any (fun row => row.event.toOption.any fun event =>
      event.instanceId == "" && event.executionId == 0) = true ∧ ¬ Identified world.store := by
  have ran : (World.run {} (endingTurn "fail")).any (fun world =>
      (world.store.history "i" 1).rows.any fun row => row.event.toOption.any fun event =>
        event.instanceId == "" && event.executionId == 0) = true := by
    decide +kernel
  obtain ⟨world, reached, found⟩ := (Option.any_eq_true _ _).mp ran
  refine ⟨world, reached, found, fun identified => ?_⟩
  obtain ⟨row, member, holds⟩ := List.any_eq_true.mp found
  obtain ⟨event, readable, names⟩ := identified "i" 1 row member
  rw [readable] at holds
  simp only [Except.toOption, Option.any_some, Bool.and_eq_true, beq_iff_eq] at holds
  rw [names.instanceId] at holds
  exact absurd holds.1 (by decide)

end EventIdentity

end Duroxide
