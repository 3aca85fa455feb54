import Duroxide.Proofs.ChildNames
import Duroxide.Proofs.Lifecycle
import Duroxide.Proofs.VersionPinning

/-! # Cancelled children

A turn starts the children that it schedules only if it goes on; what it drops is cancelled whatever its
result. So whoever is cancelled was started before or with it, as long as no turn that ends its execution
cancels a child that it scheduled itself.
-/

namespace Duroxide

open Provider Dispatcher ChildNames VersionPinning

variable {semver : Semver}

/-! ## Schedules and starts of a turn -/

namespace ReplayEngine

variable {engine result : ReplayEngine}

/-- Every schedule that the engine recorded has a pending start. -/
def StartsScheduled (engine : ReplayEngine) : Prop :=
  ∀ event ∈ engine.historyDelta, ∀ name child input, event.kind = .subOrchestrationScheduled name child input →
    ∃ id version, .startSubOrchestration id name version child input ∈ engine.pendingActions

theorem StartsScheduled.push (starts : StartsScheduled engine) (source : Option Nat) {kind : EventKind}
    (other : isSubOrchestrationScheduled kind = false) : StartsScheduled (engine.pushEvent source kind) := by
  intro event member name child input scheduled
  rcases List.mem_append.mp member with old | new
  · exact starts event old name child input scheduled
  · rw [List.mem_singleton.mp new] at scheduled
    cases scheduled
    cases other

theorem StartsScheduled.records (starts : StartsScheduled engine) (records : Records engine result) :
    StartsScheduled result := by
  cases records with
  | action ctx emitted =>
    intro event member name child input scheduled
    rcases List.mem_append.mp member with old | new
    · obtain ⟨id, version, pending⟩ := starts event old name child input scheduled
      exact ⟨id, version, List.mem_append_left _ pending⟩
    · have converted := Option.mem_toList.mp new
      rcases action : updateActionEventId emitted.2 engine.nextEventId with
        _ | _ | _ | _ | ⟨id, _, version, _, _⟩ | _ | _ | _ | _ | _ | _ <;> rw [action] at converted <;>
        cases converted <;> cases scheduled
      exact ⟨id, version, List.mem_append_right _ (List.mem_singleton.mpr action.symm)⟩
  | breadcrumb id kind isBreadcrumb =>
    refine starts.push _ ?_
    cases kind <;> first | rfl | cases isBreadcrumb
  | cancelled activities children => exact starts

theorem StartsScheduled.recorded (starts : StartsScheduled engine) (recorded : Recorded engine result) :
    StartsScheduled result := by
  induction recorded with
  | refl => exact starts
  | tail _ records ih => exact ih.records records

/-- Messages schedule nothing, and cancel no child. -/
theorem prepCompletions_startsScheduled (starts : StartsScheduled engine) (messages : List WorkItem) :
    StartsScheduled (engine.prepCompletions messages) ∧
      (engine.prepCompletions messages).cancelledSubOrchestrationIds = engine.cancelledSubOrchestrationIds := by
  unfold prepCompletions
  induction messages generalizing engine with
  | nil => exact ⟨starts, rfl⟩
  | cons message rest ih =>
    rw [List.foldl_cons]
    rcases engine.prepCompletion_cases message with ⟨_, unchanged⟩ | ⟨_, _, kind, converted, pushed⟩
    · rw [unchanged]
      exact ih starts
    · rw [pushed]
      refine ih (StartsScheduled.push starts _ ?_)
      have message := messageToEventKind_isMessage converted
      cases kind <;> first | rfl | cases message

/-- Over an ended history a turn does nothing. -/
theorem executeOrchestration_of_terminal (ended : engine.baselineHistory.any (·.isTerminal)) (handler : OrchestrationHandler)
    (input orchestrationName orchestrationVersion : String) :
    (engine.executeOrchestration handler input orchestrationName orchestrationVersion).2 = engine ∧
      ((engine.executeOrchestration handler input orchestrationName orchestrationVersion).1 = .continue ∨
        ∃ details, (engine.executeOrchestration handler input orchestrationName orchestrationVersion).1 = .failed details) := by
  have stopped : (engine.baselineHistory ++ engine.historyDelta).any (·.isTerminal) = true := by
    rw [List.any_append, ended, Bool.true_or]
  unfold executeOrchestration
  dsimp only
  split
  · exact ⟨rfl, .inr ⟨_, rfl⟩⟩
  · rw [if_pos stopped]
    exact ⟨rfl, .inl rfl⟩

end ReplayEngine

/-- The instance that a start item is for. -/
def startTarget : WorkItem → Option String
  | .startOrchestration instanceId _ _ _ _ _ _ => some instanceId
  | _ => none

/-- The children that a request starts. -/
def AckRequest.starts (request : AckRequest semver) : List String :=
  request.orchestratorItems.filterMap startTarget

namespace Execution

variable {stamp : Stamp} {executionIds : ExecutionIds} {instanceId orchestrationName : String} {executionId : Nat}
  {manager : HistoryManager} {parentLink : Option (String × Nat)} {pendingActions : List Action}

theorem prepareTurn_startsScheduled (reader : WorkItemReader) (kvSnapshot : AList (fun _ : String => KvEntry)) :
    (prepareTurn stamp instanceId executionId manager reader kvSnapshot).StartsScheduled ∧
      (prepareTurn stamp instanceId executionId manager reader kvSnapshot).cancelledSubOrchestrationIds = [] :=
  ReplayEngine.prepCompletions_startsScheduled (fun _ none => absurd none List.not_mem_nil) _

/-- A turn that goes on starts every child that it recorded a schedule of. -/
theorem start_of_continue {target name child input : String} {id : Nat} {version : Option String}
    (pending : .startSubOrchestration id name version child input ∈ pendingActions)
    (named : buildChildInstanceId instanceId child = target) :
    target ∈ (applyTurnResult stamp executionIds instanceId orchestrationName executionId manager parentLink pendingActions
      .continue).orchestratorItems.filterMap startTarget := by
  refine List.mem_filterMap.mpr ⟨_, List.mem_filterMap.mpr ⟨_, pending, rfl⟩, ?_⟩
  rw [startTarget, named]

/-- A turn without a terminal event starts every child that it schedules. -/
theorem start_of_scheduled {reader : WorkItemReader} {handler : OrchestrationHandler} {orchestrationVersion : String}
    {kvSnapshot : AList (fun _ : String => KvEntry)} (ascending : Ascending manager.fullHistory) {event : Event}
    (member : event ∈ (runSingleExecutionAtomic stamp executionIds instanceId manager reader executionId handler
      orchestrationVersion kvSnapshot).historyMgr.delta) (new : event ∉ manager.delta)
    (goesOn : ∀ other ∈ (runSingleExecutionAtomic stamp executionIds instanceId manager reader executionId handler
      orchestrationVersion kvSnapshot).historyMgr.delta, other.kind.isTerminal = false)
    {name child input : String} (scheduled : event.kind = .subOrchestrationScheduled name child input) :
    buildChildInstanceId instanceId child ∈ (runSingleExecutionAtomic stamp executionIds instanceId manager reader
      executionId handler orchestrationVersion kvSnapshot).orchestratorItems.filterMap startTarget := by
  obtain ⟨body, ending, extended, records, _, ends⟩ := @runSingleExecutionAtomic_extends stamp instanceId executionId
    manager executionIds reader handler orchestrationVersion kvSnapshot ascending
  rw [extended.delta] at member goesOn
  have result : (executedTurn stamp instanceId manager reader executionId handler orchestrationVersion kvSnapshot).1 =
      .continue := by
    obtain ⟨breadcrumbs, tail, rfl, _, last⟩ := ends.split
    rcases kind : terminalKind (executedTurn stamp instanceId manager reader executionId handler orchestrationVersion
      kvSnapshot).1 with _ | kind
    · generalize (executedTurn stamp instanceId manager reader executionId handler orchestrationVersion kvSnapshot).1 =
        result at kind
      cases result with
      | «continue» => rfl
      | completed | failed | continueAsNew | cancelled => cases kind
    · have terminal := isTerminal_of_terminalKind kind
      rw [kind] at last
      obtain ⟨closing, single, same⟩ := List.map_eq_singleton_iff.mp last
      have running := goesOn closing (by simp [single])
      rw [same, terminal] at running
      cases running
  rw [ends.goesOn result, List.append_nil, records] at member
  have recorded := (List.mem_append.mp member).resolve_left new
  have prepared := (@prepareTurn_startsScheduled stamp instanceId executionId manager reader kvSnapshot).1
  have starts := prepared.recorded
    (ReplayEngine.executeOrchestration_recorded handler manager.extractContext.1 reader.orchestrationName orchestrationVersion)
  obtain ⟨id, version, pending⟩ := starts event recorded name child input scheduled
  unfold runSingleExecutionAtomic
  rw [List.filterMap_append]
  refine List.mem_append_left _ ?_
  unfold executedTurn at result
  rw [result]
  exact start_of_continue pending rfl

/-- Turns that go on or fail cancel no outstanding child. -/
theorem not_cancels {result : TurnResult} (kind : result = .continue ∨ ∃ details, result = .failed details)
    {target reason : String} :
    .cancelInstance target reason ∉ (applyTurnResult stamp executionIds instanceId orchestrationName executionId manager
      parentLink pendingActions result).orchestratorItems := by
  intro member
  rcases kind with rfl | ⟨details, rfl⟩
  · obtain ⟨action, _, emitted⟩ := List.mem_filterMap.mp member
    cases action <;> cases emitted
  · rcases List.mem_append.mp member with detached | notified
    · obtain ⟨action, _, emitted⟩ := List.mem_filterMap.mp detached
      cases action <;> cases emitted
    · obtain ⟨_, _, _, same⟩ := mem_notifyParent notified
      cases same

/-- A turn that cancels a child runs over a history that has not ended. -/
theorem unended_of_cancels {reader : WorkItemReader} {handler : OrchestrationHandler} {orchestrationVersion : String}
    {kvSnapshot : AList (fun _ : String => KvEntry)} {target reason : String}
    (cancels : .cancelInstance target reason ∈ (runSingleExecutionAtomic stamp executionIds instanceId manager reader
      executionId handler orchestrationVersion kvSnapshot).orchestratorItems) :
    manager.fullHistory.any (·.isTerminal) = false := by
  refine Bool.eq_false_of_not_eq_true fun ended => ?_
  rw [← prepareTurn_baselineHistory reader kvSnapshot] at ended
  obtain ⟨same, kind⟩ := ReplayEngine.executeOrchestration_of_terminal ended handler manager.extractContext.1
    reader.orchestrationName orchestrationVersion
  unfold runSingleExecutionAtomic at cancels
  rcases List.mem_append.mp cancels with items | children
  · exact not_cancels kind items
  · rw [same, (prepareTurn_startsScheduled reader kvSnapshot).2] at children
    exact absurd children List.not_mem_nil

end Execution

namespace Dispatcher

variable {env : RuntimeEnv semver} {item : OrchestrationItem} {attemptCount : Nat} {request : AckRequest semver}
  {fallback : Option (ProviderError → AckRequest semver)} {outcome : ExecutionOutcome} {target reason : String}

/-- Only a turn within its limits cancels children, and only over a history that has not ended. -/
structure Cancels (env : RuntimeEnv semver) (item : OrchestrationItem) (attemptCount : Nat) (request : AckRequest semver)
    (outcome : ExecutionOutcome) : Prop where
  inTime : attemptCount ≤ env.maxAttempts
  readable : item.historyError = none
  running : isTerminalFor (tempHistoryMgr item) (workitemReader item) = false
  ran : turnOutcome env item = some outcome
  within : limitError outcome.historyMgr.delta item.kvSnapshot = none
  asked : request = turnRequest env item outcome
  items : request.orchestratorItems = outcome.orchestratorItems
  unended : (baseHistory item request.executionId).any (·.isTerminal) = false

theorem cancels_of_answered (answered : Answered env item attemptCount request fallback)
    (cancels : .cancelInstance target reason ∈ request.orchestratorItems) :
    ∃ outcome, Cancels env item attemptCount request outcome := by
  cases answered with
  | corrupted exceeded message unreadable =>
    rw [failOrchestrationAsPoison_items_of_unreadable unreadable] at cancels
    exact absurd cancels List.not_mem_nil
  | poisoned exceeded readable =>
    rw [failOrchestrationAsPoison_items readable] at cancels
    obtain ⟨_, _, _, same⟩ := mem_notifyParent cancels
    cases same
  | ended => exact absurd cancels List.not_mem_nil
  | turned inTime readable running outcome ran =>
    have within : limitError outcome.historyMgr.delta item.kvSnapshot = none := by
      by_contra exceeds
      rw [items_of_exceeded exceeds] at cancels
      exact absurd cancels List.not_mem_nil
    have items := @items_of_within _ env _ _ within
    refine ⟨outcome, inTime, readable, running, ran, within, rfl, items, ?_⟩
    rw [items] at cancels
    cases ran_of_turnOutcome ran with
    | unnamed => exact absurd cancels List.not_mem_nil
    | executed named version handler resolved =>
      obtain ⟨opening, opens, started⟩ := startIfNew_extends env item named version
      have unended := Execution.unended_of_cancels cancels
      rw [started.fullHistory, turnExecution_fullHistory, List.any_append, Bool.or_eq_false_iff] at unended
      exact unended.1

/-- A turn that does not end its execution starts the children that it schedules. -/
theorem starts_of_goesOn (ran : turnOutcome env item = some outcome) (history : Ascending item.history)
    (goesOn : outcome.historyMgr.delta.any (·.isTerminal) = false) {event : Event} (member : event ∈ outcome.historyMgr.delta)
    (child : childInstance item.instanceId event = some target) :
    target ∈ outcome.orchestratorItems.filterMap startTarget := by
  obtain ⟨eventId, source, owner, executionId, timestamp, crate, kind⟩ := event
  cases kind with
  | subOrchestrationScheduled name childId input =>
    obtain rfl : buildChildInstanceId item.instanceId childId = target := Option.some.inj child
    cases ran_of_turnOutcome ran with
    | unnamed =>
      rw [turnExecution_delta] at member
      exact absurd member List.not_mem_nil
    | executed named version handler resolved =>
      obtain ⟨opening, opens, started⟩ := startIfNew_extends env item named version
      have full : Ascending (turnExecution item).2.fullHistory :=
        turnExecution_fullHistory item ▸ ascending_baseHistory history _
      refine Execution.start_of_scheduled (started.ascending full) member ?_ ?_ rfl
      · rw [started.delta, turnExecution_delta, List.nil_append]
        intro inOpening
        cases opens with
        | continues | unnamed => exact List.not_mem_nil inOpening
        | opens => cases List.mem_singleton.mp inOpening
      · intro other listed
        exact Bool.eq_false_of_not_eq_true (List.any_eq_false.mp goesOn other listed)
  | _ => cases child

/-- A turn within its limits that schedules a child records the schedule in its outcome. -/
theorem scheduled_of_within (ran : turnOutcome env item = some outcome) (history : Ascending item.history)
    (within : limitError outcome.historyMgr.delta item.kvSnapshot = none) {event : Event}
    (member : event ∈ (turnRequest env item outcome).historyDelta)
    (child : childInstance item.instanceId event = some target) : event ∈ outcome.historyMgr.delta := by
  obtain ⟨opening, body, ending, limit, trailing, events⟩ := requestEvents ran history
  rw [events.delta_of_within within] at member
  refine (List.mem_append.mp member).resolve_right fun behind => ?_
  have breadcrumb := events.breadcrumbs event behind
  obtain ⟨eventId, source, owner, executionId, timestamp, crate, kind⟩ := event
  cases kind with
  | subOrchestrationScheduled => cases breadcrumb
  | _ => cases child

/-- A request that records a schedule starts the child, or ends the execution. -/
theorem starts_of_turn (ran : turnOutcome env item = some outcome) (history : Ascending item.history) {event : Event}
    (member : event ∈ (turnRequest env item outcome).historyDelta)
    (child : childInstance item.instanceId event = some target) :
    target ∈ (turnRequest env item outcome).starts ∨ (turnRequest env item outcome).historyDelta.any (·.isTerminal) := by
  obtain ⟨opening, body, ending, limit, trailing, events⟩ := requestEvents ran history
  have ended : outcome.historyMgr.delta.any (·.isTerminal) → (turnRequest env item outcome).historyDelta.any (·.isTerminal) := by
    intro terminal
    rw [events.delta, ← events.outcomeDelta, List.any_append, List.any_append, terminal, Bool.true_or, Bool.true_or]
  by_cases within : limitError outcome.historyMgr.delta item.kvSnapshot = none
  · rcases goesOn : outcome.historyMgr.delta.any (·.isTerminal) with _ | _
    · refine .inl ?_
      rw [AckRequest.starts, items_of_within within]
      exact starts_of_goesOn ran history goesOn (scheduled_of_within ran history within member child) child
    · exact .inr (ended goesOn)
  · refine .inr ?_
    have limited := events.limited
    have delta := events.delta
    generalize enforceLimits env item (turnExecution item).1 outcome = enforced at limited
    cases limited with
    | within none => exact absurd none within
    | exceeded message some failure failed numbered =>
      refine List.any_eq_true.mpr ⟨failure, by simp [delta], ?_⟩
      rw [Event.isTerminal, failed]
      rfl

end Dispatcher

/-- A pending request that records a schedule starts the child, or ends the execution. -/
theorem Asks.Source.starts {conditions : Conditions semver} {item : OrchestrationItem} {attemptCount : Nat}
    {request : AckRequest semver} (source : Asks.Source conditions item attemptCount request)
    (history : Ascending item.history) {event : Event} {target : String} (member : event ∈ request.historyDelta)
    (child : childInstance item.instanceId event = some target) :
    target ∈ request.starts ∨ request.historyDelta.any (·.isTerminal) := by
  have failing : ∀ {failed : Event} {details : ErrorDetails}, failed.kind = .orchestrationFailed details →
      failed.isTerminal = true := by
    intro failed details kind
    rw [Event.isTerminal, kind]
    rfl
  rcases error : item.historyError with _ | message
  swap
  · obtain ⟨_, failed, delta, _, kind⟩ := source.corrupted error
    refine .inr (List.any_eq_true.mpr ⟨failed, by rw [delta]; exact List.mem_singleton_self _, ?_⟩)
    obtain ⟨eventId, source, owner, executionId, timestamp, crate, kind'⟩ := failed
    cases kind' with
    | orchestrationFailed => rfl
    | _ => cases kind
  cases source with
  | answer env allowed supported _ fallback answered =>
    cases answered with
    | corrupted exceeded message unreadable => exact nomatch error.symm.trans unreadable
    | poisoned =>
      have events := (@failOrchestrationAsPoison_events semver env item attemptCount error history).1
      generalize (failOrchestrationAsPoison env item attemptCount).historyDelta = delta at events
      cases events with
      | recorded _ failed kind => exact .inr (List.any_eq_true.mpr ⟨failed, List.mem_singleton_self _, failing kind⟩)
      | new _ started failed _ kind =>
        exact .inr (List.any_eq_true.mpr ⟨failed, List.mem_cons_of_mem _ (List.mem_singleton_self _), failing kind⟩)
    | ended => exact absurd member List.not_mem_nil
    | turned inTime readable running outcome ran => exact starts_of_turn ran history member child
  | failure env allowed supported turned readable outcome ran running error' =>
    obtain ⟨failed, kind, delta, _⟩ := @failureCommit_events semver env item (turnExecution item).1 error' history
    exact .inr (List.any_eq_true.mpr ⟨failed, by rw [delta]; exact List.mem_singleton_self _, failing kind⟩)

namespace StartedChildren

/-! ## Runs with a journal of starts -/

/-- The system, and the instances that acknowledgements have started. -/
structure Journal (semver : Semver) where
  world : World semver := {}
  started : List String := []

/-- The children that a step starts, if it commits an acknowledgement. -/
def committedStarts (world : World semver) (label : Step semver) (after : World semver) : List String :=
  match label with
  | .ack _ _ token _ => match world.deliveries token, after.deliveries token with
    | some ⟨_, _, .acking request _ _⟩, some ⟨_, _, .done⟩ => request.starts
    | _, _ => []
  | _ => []

def Journal.step (journal : Journal semver) (label : Step semver) : Option (Journal semver) :=
  (journal.world.step label).map fun world => ⟨world, journal.started ++ committedStarts journal.world label world⟩

def journaled (semver : Semver) : Lib.TransitionSystem (Journal semver) (Step semver) where
  initial journal := journal = {}
  step source label target := source.step label = some target

/-- A turn that ends its execution cancels no child that it scheduled itself, unless it was started before. -/
def guard (journal : Journal semver) : Step semver → Prop
  | .decide token env => ∀ delivery outcome, journal.world.deliveries token = some delivery →
      Takes env delivery.item delivery.attemptCount outcome →
      limitError outcome.historyMgr.delta delivery.item.kvSnapshot = none → outcome.historyMgr.delta.any (·.isTerminal) →
      ∀ event ∈ outcome.historyMgr.delta, ∀ target reason, childInstance delivery.item.instanceId event = some target →
        .cancelInstance target reason ∈ outcome.orchestratorItems → target ∈ journal.started
  | _ => True

/-- Whatever child the holder of a lock wants to cancel, by a schedule in its history or among the events that
it records, was started by an acknowledgement or is started by this one. -/
def OnlyStarted (journal : Journal semver) : Prop :=
  ∀ token delivery request fallback failed now, journal.world.deliveries token = some delivery →
    delivery.phase = .acking request fallback failed → journal.world.store.holdsLock now delivery.item.instanceId token →
    ∀ target reason, .cancelInstance target reason ∈ request.orchestratorItems →
      ∀ event ∈ baseHistory delivery.item request.executionId ++ request.historyDelta,
        childInstance delivery.item.instanceId event = some target → target ∈ journal.started ∨ target ∈ request.starts

/-- What the journal says about schedules, in the histories and in pending requests. -/
structure Announced (journal : Journal semver) : Prop where
  stored : ∀ instanceId executionId, ∀ event ∈ journal.world.store.recorded instanceId executionId, ∀ target,
    childInstance instanceId event = some target →
    target ∈ journal.started ∨ (journal.world.store.recorded instanceId executionId).any (·.isTerminal)
  pending : ∀ token delivery request fallback failed, journal.world.deliveries token = some delivery →
    delivery.phase = .acking request fallback failed → ∀ event ∈ request.historyDelta, ∀ target reason,
      childInstance delivery.item.instanceId event = some target →
      .cancelInstance target reason ∈ request.orchestratorItems → target ∈ journal.started ∨ target ∈ request.starts

variable {journal after : Journal semver} {label : Step semver}

theorem world_of_step (taken : journal.step label = some after) :
    journal.world.step label = some after.world ∧
      after.started = journal.started ++ committedStarts journal.world label after.world := by
  obtain ⟨world, moved, rfl⟩ := Option.map_eq_some_iff.mp taken
  exact ⟨moved, rfl⟩

theorem reachable_world {allowed : Journal semver → Step semver → Prop}
    (reached : (journaled semver).Reachable allowed journal) : (system semver).Reachable (fun _ _ => True) journal.world := by
  induction reached with
  | initial start => exact .initial (start ▸ rfl)
  | step _ _ taken ih => exact .step ih trivial (world_of_step taken).1

theorem started_mono (taken : journal.step label = some after) {target : String} (started : target ∈ journal.started) :
    target ∈ after.started := by
  rw [(world_of_step taken).2]
  exact List.mem_append_left _ started

/-- The journal keeps what a commit starts. -/
theorem started_of_commits (taken : journal.step label = some after) {delivery : Delivery semver}
    {request : AckRequest semver} {instanceId : String}
    (commits : Commits journal.world label delivery request instanceId after.world) {target : String}
    (starts : target ∈ request.starts) : target ∈ after.started := by
  obtain ⟨config, now, token, fault, rfl, holds, _, deliveries⟩ := commits.holds
  obtain ⟨fallback, failed, phase⟩ := commits.phase
  obtain ⟨item, attemptCount, _⟩ := delivery
  cases phase
  rw [(world_of_step taken).2]
  refine List.mem_append_right _ ?_
  simp only [committedStarts, holds, deliveries, Function.update_self]
  exact starts

namespace Announced

theorem initial : Announced ({} : Journal semver) where
  stored _ _ _ member := absurd member List.not_mem_nil
  pending _ _ _ _ _ holds := nomatch holds

theorem stored_step (announced : Announced journal) (provenance : Provenance journal.world) (coherent : Coherent journal.world)
    (pending : Pending ({} : Conditions semver) journal.world) (taken : journal.step label = some after)
    (instanceId : String) (executionId : Nat) :
    ∀ event ∈ after.world.store.recorded instanceId executionId, ∀ target, childInstance instanceId event = some target →
      target ∈ after.started ∨ (after.world.store.recorded instanceId executionId).any (·.isTerminal) := by
  intro event member target child
  have effect := World.step_effect (world_of_step taken).1
  have before : event ∈ journal.world.store.recorded instanceId executionId →
      (∀ other ∈ journal.world.store.recorded instanceId executionId,
        other ∈ after.world.store.recorded instanceId executionId) →
      target ∈ after.started ∨ (after.world.store.recorded instanceId executionId).any (·.isTerminal) := by
    intro old kept
    refine (announced.stored instanceId executionId event old target child).imp (started_mono taken) fun ended => ?_
    obtain ⟨terminal, listed, isTerminal⟩ := List.any_eq_true.mp ended
    exact List.any_eq_true.mpr ⟨terminal, kept terminal listed, isTerminal⟩
  rcases effect.records with same | ⟨delivery, request, owner, commits⟩
  · have unchanged : after.world.store.recorded instanceId executionId = journal.world.store.recorded instanceId executionId := by
      rw [Store.recorded, Store.recorded, same.history]
    rw [unchanged] at member
    exact before member fun other old => by rwa [unchanged]
  obtain ⟨config, now, token, fault, _, holds, committed, _⟩ := id commits.holds
  by_cases own : (instanceId, executionId) = (owner, request.executionId)
  swap
  · have unchanged := recorded_other committed own
    rw [unchanged] at member
    exact before member fun other old => by rwa [unchanged]
  cases own
  rcases (mem_recorded_iff committed).mp member with old | new
  · exact before old fun other listed => (mem_recorded_iff committed).mpr (.inl listed)
  obtain ⟨fallback, failed, phase⟩ := commits.phase
  obtain ⟨rfl, _⟩ := coherent.of_locked committed.locked holds
  have source := (pending token delivery request fallback failed holds phase).source
  refine (source.starts (provenance.items token delivery holds).ordered new child).imp
    (started_of_commits taken commits) fun ended => ?_
  obtain ⟨terminal, listed, isTerminal⟩ := List.any_eq_true.mp ended
  exact List.any_eq_true.mpr ⟨terminal, (mem_recorded_iff committed).mpr (.inr listed), isTerminal⟩

theorem pending_step (announced : Announced journal) (provenance : Provenance journal.world)
    (asked : Pending ({} : Conditions semver) journal.world) (allowed : guard journal label)
    (taken : journal.step label = some after) {token : Nat} {delivery : Delivery semver} {request : AckRequest semver}
    {fallback : Option (ProviderError → AckRequest semver)} {failed : Option ProviderError}
    (holds : after.world.deliveries token = some delivery) (acking : delivery.phase = .acking request fallback failed) :
    ∀ event ∈ request.historyDelta, ∀ target reason, childInstance delivery.item.instanceId event = some target →
      .cancelInstance target reason ∈ request.orchestratorItems → target ∈ after.started ∨ target ∈ request.starts := by
  intro event member target reason child cancels
  have effect := World.step_effect (world_of_step taken).1
  cases Pends.of_effect effect holds acking with
  | kept old _ _ failure held phase item attempts =>
    rw [← item] at child
    exact (announced.pending token old request fallback failure held phase event member target reason child
      cancels).imp_left (started_mono taken)
  | decided env decides old held item attempts _ _ decision =>
    subst decides
    obtain ⟨own, attemptCount, _⟩ := delivery
    dsimp only at item attempts decision child
    subst item attempts
    obtain ⟨supported, answered⟩ := answered_of_decided decision
    obtain ⟨outcome, cancelled⟩ := cancels_of_answered answered cancels
    have history := (provenance.items token old held).ordered
    rw [cancelled.asked] at member
    have scheduled := scheduled_of_within cancelled.ran history cancelled.within member child
    rcases goesOn : outcome.historyMgr.delta.any (·.isTerminal) with _ | _
    · refine .inr ?_
      rw [AckRequest.starts, cancelled.items]
      exact starts_of_goesOn cancelled.ran history goesOn scheduled child
    · rw [cancelled.items] at cancels
      have takes : Takes env old.item old.attemptCount outcome :=
        ⟨supported, cancelled.inTime, cancelled.readable, cancelled.running, cancelled.ran⟩
      have started := allowed old outcome held takes cancelled.within goesOn event scheduled target reason child cancels
      exact .inl (started_mono taken started)
  | turned turns old original commit error held phase item attempts =>
    cases asked token old original _ _ held phase with
    | decided env _ _ _ decision =>
      cases (answered_of_decided decision).2 with
      | turned => exact absurd cancels List.not_mem_nil

theorem of_reachable (reached : (journaled semver).Reachable guard journal) : Announced journal := by
  induction reached with
  | initial start => exact start ▸ initial
  | step reached allowed taken ih =>
    have behind := reachable_world reached
    have asked := Pending.of_reachable (reachable_unconditionally behind)
    exact ⟨ih.stored_step (.of_reachable behind) (.of_reachable behind) asked taken,
      fun token delivery request fallback failed => ih.pending_step (.of_reachable behind) asked allowed taken⟩

end Announced

/-- What the holder of a lock read of an execution that has a schedule is what the execution holds. -/
theorem recorded_of_read {world : World semver} (lifecycle : Lifecycle world) {item : OrchestrationItem}
    (describes : Describes world.store item) (readable : item.historyError = none) (occupied : item.history ≠ []) :
    item.history = world.store.recorded item.instanceId item.executionId := by
  have described := describes
  cases describes with
  | known info row current named versioned _ history =>
    rw [current]
    exact Store.recorded_of_readHistory history
  | unreadable info row current named versioned error =>
    rw [readable] at error
    cases error
  | recorded noRow | requested noRow => exact absurd (lifecycle.describes_of_noRow described noRow).2.2 occupied

/-- In every run in which no turn that ends its execution cancels a child that it scheduled itself, only
started children are cancelled. -/
theorem onlyStarted_of_guarded (reached : (journaled semver).Reachable guard journal) : OnlyStarted journal := by
  have announced := Announced.of_reachable reached
  have behind := reachable_world reached
  intro token delivery request fallback failed now holds phase locked target reason cancels event member child
  rcases List.mem_append.mp member with base | new
  swap
  · exact announced.pending token delivery request fallback failed holds phase event new target reason child cancels
  cases Pending.of_reachable (reachable_unconditionally behind) token delivery request fallback failed holds phase with
  | decided env _ _ _ decision =>
    obtain ⟨outcome, cancelled⟩ := cancels_of_answered (answered_of_decided decision).2 cancels
    have unended := cancelled.unended
    by_cases same : request.executionId = delivery.item.executionId
    · rw [same, baseHistory_self] at base unended
      have recorded := recorded_of_read (.of_reachable behind) ((Coherent.of_reachable behind).of_holdsLock holds locked)
        cancelled.readable (List.ne_nil_of_mem base)
      rw [recorded] at base unended
      refine .inl ((announced.stored _ _ event base target child).resolve_right fun ended => ?_)
      rw [unended] at ended
      cases ended
    · rw [baseHistory, if_neg same] at base
      exact absurd base List.not_mem_nil
  | failed env _ original commit decision _ error =>
    cases (answered_of_decided decision).2 with
    | turned => exact absurd cancels List.not_mem_nil

/-- A test that implies the guard: no turn that ends its execution cancels anybody. -/
def passes (journal : Journal semver) : Step semver → Bool
  | .decide token env => (journal.world.deliveries token).all fun delivery =>
      (turnOutcome env delivery.item).all fun outcome =>
        !outcome.historyMgr.delta.any (·.isTerminal) ||
          outcome.orchestratorItems.all fun | .cancelInstance .. => false | _ => true
  | _ => true

theorem guard_of_passes (journal : Journal semver) (label : Step semver) (tested : passes journal label) :
    guard journal label := by
  cases label with
  | decide token env =>
    intro delivery outcome holds takes within ended event member target reason child cancels
    simp only [passes, holds, takes.ran, ended, Option.all_some, Bool.not_true, Bool.false_or, List.all_eq_true] at tested
    cases tested _ cancels
  | client | fetch | ack | failTurn | abandon | renew | fetchWork | renewWork | completeWork | dropWork | abandonWork =>
    trivial

/-! An orchestration that schedules a child and drops it, and then finishes or waits. -/

def droppingHandler : OrchestrationHandler where
  State := Option String
  invoke := some
  poll
    | some input => .call (.scheduleSubOrchestration "child" none none "") fun token => .call (.dropFuture token) fun _ =>
        if input = "finish" then .finish (.ok "done") else .suspend none
    | none => .suspend none

def droppingEnv : RuntimeEnv textSemver :=
  registeredEnv fun name => if name = "parent" then some droppingHandler else none

/-- The parent is started, and its first turn is decided. -/
def parentDecided (input : String) : List (Step textSemver) :=
  [.client 0 (.startOrchestration "p" "parent" input none none none 1), .fetch {} none 0 1000 1 none, .decide 1 droppingEnv]

/-- The facts about a holder that cancels the child of its schedule, and whether it starts the child. -/
def cancelsChild (store : Store) (delivery : Delivery textSemver) (starts : Bool) : Bool :=
  delivery.item.instanceId == "p" && store.holdsLock 0 "p" 1 &&
    match delivery.phase with
    | .acking request _ _ =>
        request.orchestratorItems.any (· == .cancelInstance "p::sub::2" "parent dropped sub-orchestration future") &&
          request.historyDelta.any (childInstance "p" · == some "p::sub::2") &&
          request.starts.contains "p::sub::2" == starts
    | _ => false

theorem onlyStarted_of_guarded_wait : ∃ journal,
    Lib.TransitionSystem.runTested Journal.step passes {} (parentDecided "wait") = some journal ∧
      (journal.world.deliveries 1).any (cancelsChild journal.world.store · true) = true ∧ OnlyStarted journal := by
  have ran : (Lib.TransitionSystem.runTested Journal.step passes {} (parentDecided "wait")).any (fun journal =>
      (journal.world.deliveries 1).any (cancelsChild journal.world.store · true)) = true := by
    decide +kernel
  obtain ⟨journal, passed, cancels⟩ := (Option.any_eq_true _ _).mp ran
  refine ⟨journal, passed, cancels, onlyStarted_of_guarded ?_⟩
  exact .of_runTested (fun _ _ _ taken => taken) guard_of_passes (.initial rfl) passed

/-- A turn that finishes cancels the child that it scheduled and dropped, and nobody starts it. -/
theorem finish_notOnlyStarted : ∃ journal,
    Lib.TransitionSystem.runTested Journal.step (fun _ _ => true) {} (parentDecided "finish") = some journal ∧
      ¬ OnlyStarted journal := by
  have observed : (Lib.TransitionSystem.runTested Journal.step (fun _ _ => true) {} (parentDecided "finish")).any
      (fun journal => (journal.world.deliveries 1).any (cancelsChild journal.world.store · false) &&
        journal.started.isEmpty) = true := by
    decide +kernel
  obtain ⟨journal, ran, facts⟩ := (Option.any_eq_true _ _).mp observed
  obtain ⟨held, nobody⟩ := Bool.and_eq_true_iff.mp facts
  obtain ⟨delivery, holds, cancels⟩ := (Option.any_eq_true _ _).mp held
  refine ⟨journal, ran, fun only => ?_⟩
  simp only [cancelsChild, Bool.and_eq_true, beq_iff_eq] at cancels
  obtain ⟨⟨own, locked⟩, asks⟩ := cancels
  split at asks
  · rename_i request fallback failed phase
    simp only [Bool.and_eq_true, List.any_eq_true, beq_iff_eq] at asks
    obtain ⟨⟨⟨item, cancels, rfl⟩, event, member, child⟩, unstarted⟩ := asks
    rw [← own] at locked child
    rcases only 1 delivery request fallback failed 0 holds phase locked _ _ cancels event
      (List.mem_append_right _ member) child with before | now
    · rw [List.isEmpty_iff.mp nobody] at before
      exact List.not_mem_nil before
    · rw [List.contains_iff_mem.mpr now] at unstarted
      cases unstarted
  · cases asks

end StartedChildren

end Duroxide
