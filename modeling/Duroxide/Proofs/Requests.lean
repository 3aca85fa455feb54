import Duroxide.Proofs.Coherence
import Duroxide.Proofs.Histories

/-! # Pending requests

In a run, whatever the holder of an item asks a provider for comes from one decision about the item:
it is what was decided, or the commit of a failure after an acknowledgement failed. So what holds of
every answer of a dispatcher holds of every pending request.
-/

namespace Duroxide

open Provider Dispatcher

variable {semver : Semver}

/-! ## Runs under conditions -/

/-- Conditions on the steps of a run: on decisions, on turning to a failure commit, and on commits. -/
structure Conditions (semver : Semver) where
  decide : RuntimeEnv semver → OrchestrationItem → Nat → Prop := fun _ _ _ => True
  failTurn : OrchestrationItem → Prop := fun _ => True
  commit : Store → OrchestrationItem → AckRequest semver → Prop := fun _ _ _ => True

/-- The guard on runs whose steps satisfy the conditions. -/
def Conditions.guard (conditions : Conditions semver) (world : World semver) : Step semver → Prop
  | .decide token env => ∀ delivery, world.deliveries token = some delivery →
      conditions.decide env delivery.item delivery.attemptCount
  | .failTurn token => ∀ delivery, world.deliveries token = some delivery → conditions.failTurn delivery.item
  | .ack _ now token _ => ∀ delivery request fallback failed, world.deliveries token = some delivery →
      delivery.phase = .acking request fallback failed →
      world.store.holdsLock now delivery.item.instanceId token → conditions.commit world.store delivery.item request
  | _ => True

/-- What the holder of an item may be asking a provider for: what it decided, or its failure commit. -/
inductive Asks (conditions : Conditions semver) (item : OrchestrationItem) (attemptCount : Nat) :
    AckRequest semver → Option (ProviderError → AckRequest semver) → Prop
  | decided (env : RuntimeEnv semver) (allowed : conditions.decide env item attemptCount)
      (request : AckRequest semver) (fallback : Option (ProviderError → AckRequest semver))
      (decision : handleFetchedItem env item attemptCount = .ack request fallback) :
      Asks conditions item attemptCount request fallback
  | failed (env : RuntimeEnv semver) (allowed : conditions.decide env item attemptCount)
      (original : AckRequest semver) (commit : ProviderError → AckRequest semver)
      (decision : handleFetchedItem env item attemptCount = .ack original (some commit))
      (turned : conditions.failTurn item) (error : ProviderError) :
      Asks conditions item attemptCount (commit error) none

theorem Provider.Acked.holdsLock {store after : Store} {now token : Nat} {instanceId : String}
    {request : AckRequest semver} (committed : Acked store now token instanceId request after) :
    store.holdsLock now instanceId token := by
  obtain ⟨lock, found, own, unexpired⟩ := committed.held
  simp [Store.holdsLock, found, own, unexpired]

/-- A commit of a guarded run is by the holder of its instance's lock, and meets the condition on commits. -/
theorem Commits.allowed {conditions : Conditions semver} {world after : World semver} {label : Step semver}
    {delivery : Delivery semver} {request : AckRequest semver} {instanceId : String} (coherent : Coherent world)
    (commits : Commits world label delivery request instanceId after) (allowed : conditions.guard world label) :
    delivery.item.instanceId = instanceId ∧ conditions.commit world.store delivery.item request := by
  obtain ⟨config, now, token, fault, rfl, holds, committed, _⟩ := commits.holds
  obtain ⟨fallback, failed, phase⟩ := commits.phase
  obtain ⟨rfl, _⟩ := coherent.of_locked committed.locked holds
  exact ⟨rfl, allowed delivery request fallback failed holds phase committed.holdsLock⟩

/-- Run a list of steps that all pass a test. -/
def World.runTested (test : World semver → Step semver → Bool) (world : World semver) :
    List (Step semver) → Option (World semver)
  | [] => some world
  | label :: rest => if test world label then (world.step label).bind (·.runTested test rest) else none

/-- A tested run is a guarded one. -/
theorem World.reachable_of_runTested {guard : World semver → Step semver → Prop}
    {test : World semver → Step semver → Bool} (sound : ∀ world label, test world label → guard world label)
    {world after : World semver} {labels : List (Step semver)} (reached : (system semver).Reachable guard world)
    (ran : world.runTested test labels = some after) : (system semver).Reachable guard after := by
  induction labels generalizing world with
  | nil =>
    cases ran
    exact reached
  | cons label rest ih =>
    rw [World.runTested] at ran
    split_ifs at ran with passes
    obtain ⟨middle, taken, later⟩ := Option.bind_eq_some_iff.mp ran
    exact ih (.step reached (sound world label passes) taken) later

/-- Where a pending request comes from in a step: it was pending, or is decided, or is the failure commit of
one that was pending. -/
inductive Pends (world : World semver) (label : Step semver) (token : Nat) (delivery : Delivery semver) :
    AckRequest semver → Option (ProviderError → AckRequest semver) → Prop
  | kept (old : Delivery semver) (request : AckRequest semver) (fallback : Option (ProviderError → AckRequest semver))
      (failed : Option ProviderError) (holds : world.deliveries token = some old)
      (phase : old.phase = .acking request fallback failed) (item : old.item = delivery.item)
      (attempts : old.attemptCount = delivery.attemptCount) : Pends world label token delivery request fallback
  | decided (env : RuntimeEnv semver) (taken : label = .decide token env) (old : Delivery semver)
      (holds : world.deliveries token = some old) (item : old.item = delivery.item)
      (attempts : old.attemptCount = delivery.attemptCount) (request : AckRequest semver)
      (fallback : Option (ProviderError → AckRequest semver))
      (decision : handleFetchedItem env delivery.item delivery.attemptCount = .ack request fallback) :
      Pends world label token delivery request fallback
  | turned (taken : label = .failTurn token) (old : Delivery semver) (request : AckRequest semver)
      (commit : ProviderError → AckRequest semver) (error : ProviderError) (holds : world.deliveries token = some old)
      (phase : old.phase = .acking request (some commit) (some error)) (item : old.item = delivery.item)
      (attempts : old.attemptCount = delivery.attemptCount) : Pends world label token delivery (commit error) none

namespace Pends

variable {world after : World semver} {label : Step semver} {token : Nat} {delivery : Delivery semver}
  {request : AckRequest semver} {fallback : Option (ProviderError → AckRequest semver)} {failed : Option ProviderError}

/-- Only the holder that the step is about may move on. -/
theorem update {own : Nat} {old : Delivery semver} {phase : TurnPhase semver}
    (deliveries : after.deliveries = Function.update world.deliveries own (some { old with phase }))
    (holds : after.deliveries token = some delivery) (acking : delivery.phase = .acking request fallback failed)
    (moved : token = own → phase = .acking request fallback failed → old.item = delivery.item →
      old.attemptCount = delivery.attemptCount → Pends world label token delivery request fallback) :
    Pends world label token delivery request fallback := by
  rw [deliveries] at holds
  by_cases same : token = own
  · subst same
    rw [Function.update_self] at holds
    cases holds
    exact moved rfl acking rfl rfl
  · rw [Function.update_of_ne same] at holds
    exact .kept delivery _ _ failed holds acking rfl rfl

theorem of_effect (effect : Effect world label after) (holds : after.deliveries token = some delivery)
    (acking : delivery.phase = .acking request fallback failed) :
    Pends world label token delivery request fallback := by
  cases effect with
  | fetched config filter now lockTimeoutMs own fault fresh item attemptCount candidate found =>
    by_cases same : token = own
    · subst same
      rw [World.setDelivery_self] at holds
      cases holds
      cases acking
    · rw [World.setDelivery_of_ne _ _ same] at holds
      exact .kept delivery _ _ failed holds acking rfl rfl
  | decided own env old held phase =>
    refine update rfl holds acking fun same decided item attempts => ?_
    subst same
    rcases decision : handleFetchedItem env old.item old.attemptCount with _ | ⟨answer, commit⟩
    · rw [decision] at decided
      cases decided
    · rw [decision] at decided
      cases decided
      exact .decided env rfl old held item attempts _ _ (by rw [← item, ← attempts, decision])
  | ackFailed config now own fault old original commit failure held phase error =>
    refine update rfl holds acking fun same kept item attempts => ?_
    subst same
    cases kept
    exact .kept old _ _ failure held phase item attempts
  | turnFailed own old original commit error held phase =>
    refine update rfl holds acking fun same turned item attempts => ?_
    subst same
    cases turned
    exact .turned rfl old original commit error held phase item attempts
  | acked | abandonFailed | abandoned => exact update rfl holds acking fun _ done => nomatch done
  | enqueued | fetchedNothing | dropped | renewFailed | renewed | workFetched | workRenewed | workCancelled
  | workAckFailed | workCompleted | workDropFailed | workDropped | workAbandonFailed | workAbandoned =>
    exact .kept delivery _ _ failed holds acking rfl rfl

end Pends

/-- Every pending request comes from a decision. -/
def Pending (conditions : Conditions semver) (world : World semver) : Prop :=
  ∀ token delivery request fallback failed, world.deliveries token = some delivery →
    delivery.phase = .acking request fallback failed →
    Asks conditions delivery.item delivery.attemptCount request fallback

namespace Pending

variable {conditions : Conditions semver} {world after : World semver} {label : Step semver}

theorem step (pending : Pending conditions world) (allowed : conditions.guard world label)
    (effect : Effect world label after) : Pending conditions after := by
  intro token delivery request fallback failed holds acking
  cases Pends.of_effect effect holds acking with
  | kept old _ _ failure held phase item attempts =>
    rw [← item, ← attempts]
    exact pending token old request fallback failure held phase
  | decided env taken old held item attempts _ _ decision =>
    subst taken
    exact .decided env (item ▸ attempts ▸ allowed old held) _ _ decision
  | turned taken old original commit error held phase item attempts =>
    subst taken
    rw [← item, ← attempts]
    cases pending token old original _ _ held phase with
    | decided env decides _ _ decision => exact .failed env decides original commit decision (allowed old held) error

theorem of_reachable (reached : (system semver).Reachable conditions.guard world) : Pending conditions world :=
  reached.invariant (fun _ start => start ▸ fun _ _ _ _ _ holds => nomatch holds)
    fun _ _ _ pending allowed taken => pending.step allowed (World.step_effect taken)

end Pending

/-- A condition that says nothing holds of every run. -/
theorem reachable_unconditionally {guard : World semver → Step semver → Prop} {world : World semver}
    (reached : (system semver).Reachable guard world) :
    (system semver).Reachable (Conditions.guard ({} : Conditions semver)) world := by
  refine reached.mono fun _ label _ => ?_
  cases label with
  | decide => exact fun _ _ => trivial
  | failTurn => exact fun _ _ => trivial
  | ack => exact fun _ _ _ _ _ _ _ => trivial
  | client | fetch | abandon | renew | fetchWork | renewWork | completeWork | dropWork | abandonWork => trivial

/-! ## What an answer records -/

namespace Dispatcher

variable {env : RuntimeEnv semver} {item : OrchestrationItem} {attemptCount : Nat} {request : AckRequest semver}
  {fallback : Option (ProviderError → AckRequest semver)} {outcome : ExecutionOutcome}

/-- A dispatcher takes a turn over an item. -/
structure Takes (env : RuntimeEnv semver) (item : OrchestrationItem) (attemptCount : Nat) (outcome : ExecutionOutcome) :
    Prop where
  supported : isSupported env item
  inTime : attemptCount ≤ env.maxAttempts
  readable : item.historyError = none
  running : isTerminalFor (tempHistoryMgr item) (workitemReader item) = false
  ran : turnOutcome env item = some outcome

/-- A turn belongs to the execution that was read, or opens the next one. -/
theorem turnExecution_cases (item : OrchestrationItem) :
    (turnExecution item).1 = item.executionId ∨
      (turnExecution item).1 = item.executionId + 1 ∧ (workitemReader item).isContinueAsNew := by
  unfold turnExecution
  split_ifs with continues
  · exact .inr ⟨rfl, continues⟩
  · exact .inl rfl

theorem failOrchestrationAsPoison_executionId :
    (failOrchestrationAsPoison env item attemptCount).executionId = item.executionId := by
  unfold failOrchestrationAsPoison
  split <;> rfl

theorem failOrchestrationAsPoison_identity :
    Provider.identityOf (failOrchestrationAsPoison env item attemptCount).metadata =
      some (item.orchestrationName, item.version) := by
  unfold failOrchestrationAsPoison
  split <;> rfl

/-- A poison failure is recorded. -/
theorem failOrchestrationAsPoison_records (ascending : Ascending item.history) :
    (failOrchestrationAsPoison env item attemptCount).historyDelta ≠ [] := by
  rcases error : item.historyError with _ | message
  · have events := (@failOrchestrationAsPoison_events semver env item attemptCount error ascending).1
    generalize (failOrchestrationAsPoison env item attemptCount).historyDelta = delta at events
    cases events with
    | recorded => exact List.cons_ne_nil _ _
    | new => exact List.cons_ne_nil _ _
  · unfold failOrchestrationAsPoison
    rw [error]
    exact List.cons_ne_nil _ _

theorem Answered.execution (answered : Answered env item attemptCount request fallback) :
    request.executionId = item.executionId ∨
      request.executionId = item.executionId + 1 ∧ (workitemReader item).isContinueAsNew := by
  cases answered with
  | corrupted | poisoned => exact .inl failOrchestrationAsPoison_executionId
  | ended => exact .inl rfl
  | turned => exact turnExecution_cases item

/-- A name and a version are not taken back. -/
theorem computeExecutionMetadata_identity (delta : List Event) (metadata : ExecutionMetadata semver)
    (known : (Provider.identityOf metadata).isSome) :
    (Provider.identityOf (computeExecutionMetadata semver delta metadata)).isSome := by
  induction delta generalizing metadata with
  | nil => exact known
  | cons event rest ih =>
    unfold computeExecutionMetadata
    split
    · exact ih _ rfl
    · exact known
    · exact known
    · exact known
    · exact ih _ known

/-- A delta that begins with a start event names the instance. -/
theorem computeExecutionMetadata_started {event : Event} (started : event.kind.isStarted) (rest : List Event) :
    (Provider.identityOf (computeExecutionMetadata semver (event :: rest) {})).isSome := by
  obtain ⟨eventId, source, instanceId, executionId, timestamp, crate, kind⟩ := event
  cases kind with
  | orchestrationStarted => exact computeExecutionMetadata_identity rest _ rfl
  | _ => cases started

/-- The limits leave the name and the version alone. -/
theorem Limited.identity {limited : ExecutionOutcome × ExecutionMetadata semver} {limit : List Event}
    (limits : Limited env item outcome limited limit) :
    Provider.identityOf limited.2 =
      Provider.identityOf (computeExecutionMetadata semver outcome.historyMgr.delta {}) := by
  cases limits <;> rfl

/-- An answer that starts an execution names its instance. -/
theorem Answered.identity (answered : Answered env item attemptCount request fallback)
    (ascending : Ascending item.history) (starts : ∃ event ∈ request.historyDelta, event.kind.isStarted) :
    (Provider.identityOf request.metadata).isSome := by
  cases answered with
  | corrupted | poisoned => exact failOrchestrationAsPoison_identity ▸ rfl
  | ended =>
    obtain ⟨event, none, _⟩ := starts
    exact absurd none List.not_mem_nil
  | turned inTime readable running outcome ran =>
    obtain ⟨opening, body, ending, limit, trailing, events⟩ := requestEvents ran ascending
    obtain ⟨event, member, started⟩ := starts
    have opened := events.mem_opening member started
    have outcomeDelta := events.outcomeDelta
    have identity : Provider.identityOf (turnRequest env item outcome).metadata = _ := events.limited.identity
    rw [identity, outcomeDelta]
    cases events.turn.opens with
    | continues | unnamed => exact absurd opened List.not_mem_nil
    | opens new named version => exact computeExecutionMetadata_started rfl _

/-- An answer that names its instance records something. -/
theorem Answered.records (answered : Answered env item attemptCount request fallback)
    (ascending : Ascending item.history) (named : (Provider.identityOf request.metadata).isSome) :
    request.historyDelta ≠ [] := by
  cases answered with
  | corrupted | poisoned => exact failOrchestrationAsPoison_records ascending
  | ended => cases named
  | turned inTime readable running outcome ran =>
    obtain ⟨opening, body, ending, limit, trailing, events⟩ := requestEvents ran ascending
    have identity : Provider.identityOf (turnRequest env item outcome).metadata = _ := events.limited.identity
    rw [identity] at named
    intro empty
    rw [events.delta, ← events.outcomeDelta, List.append_assoc, List.append_eq_nil_iff] at empty
    rw [empty.1] at named
    cases named

/-- The first event of an execution: its start, or the failure of a nameless batch that exceeds a limit. -/
structure Begins (item : OrchestrationItem) (first : Event) : Prop where
  atStart : first.eventId = INITIAL_EVENT_ID
  started : first.kind.isStarted ∨ first.kind.isTerminal ∧ (workitemReader item).hasOrchestrationName = false ∧
    (limitError [] item.kvSnapshot).isSome

/-- Over an execution without events, an answer records nothing, or begins with the first event id. -/
theorem Answered.begins (answered : Answered env item attemptCount request fallback)
    (ascending : Ascending item.history) (readable : item.historyError = none)
    (new : baseHistory item request.executionId = []) :
    request.historyDelta = [] ∨ ∃ first rest, request.historyDelta = first :: rest ∧ Begins item first := by
  cases answered with
  | corrupted exceeded message unreadable =>
    rw [readable] at unreadable
    cases unreadable
  | poisoned =>
    rw [failOrchestrationAsPoison_executionId, baseHistory_self] at new
    have events := (@failOrchestrationAsPoison_events semver env item attemptCount readable ascending).1
    generalize (failOrchestrationAsPoison env item attemptCount).historyDelta = delta at events
    cases events with
    | recorded continues => exact absurd new continues
    | new _ started failed begins => exact .inr ⟨started, _, rfl, begins.first, .inl (by rw [begins.kind]; rfl)⟩
  | ended => exact .inl rfl
  | turned inTime readable running outcome ran =>
    obtain ⟨opening, body, ending, limit, trailing, events⟩ := requestEvents ran ascending
    have delta := events.delta
    cases events.turn.opens with
    | continues recorded => exact absurd new recorded
    | opens => exact .inr ⟨_, _, delta, rfl, .inl rfl⟩
    | unnamed noName =>
      -- nothing ran, so only a limit can add an event
      have nothing : outcome = { historyMgr := (turnExecution item).2 } := by
        rw [turnOutcome, noName] at ran
        exact (Option.some.inj ran).symm
      have outcomeDelta := events.outcomeDelta
      rw [nothing, turnExecution_delta] at outcomeDelta
      rw [← outcomeDelta, List.nil_append] at delta
      have quiet := events.quiet
      have limited := events.limited
      have status : (turnRequest env item outcome).metadata.status =
        (enforceLimits env item (turnExecution item).1 outcome).2.status := rfl
      rw [status] at quiet
      generalize enforceLimits env item (turnExecution item).1 outcome = enforced at limited quiet
      cases limited with
      | within =>
        rw [nothing, turnExecution_delta] at quiet
        rw [quiet rfl] at delta
        exact .inl delta
      | exceeded message some failure failed numbered =>
        refine .inr ⟨failure, trailing, delta, ?_, .inr ⟨failed ▸ rfl, noName, ?_⟩⟩
        · rw [numbered, nothing, HistoryManager.nextEventId, turnExecution_fullHistory]
          change baseHistory item (turnExecution item).1 = [] at new
          rw [new]
          rfl
        · rw [nothing, turnExecution_delta] at some
          exact some ▸ rfl

/-! ## Continuing as new -/

/-- A batch that continues as new holds the item that says so. -/
theorem continuation_of_continues (continues : (workitemReader item).isContinueAsNew) :
    ∃ target orchestration input version carried status,
      WorkItem.continueAsNew target orchestration input version carried status ∈ item.messages ∧
        (workitemReader item).orchestrationName = orchestration := by
  have parsed : WorkItemReader.Parsed item.messages (tempHistoryMgr item) item.instanceId (workitemReader item) :=
    WorkItemReader.parsed_fromMessages _ _ _
  generalize workitemReader item = reader at parsed continues
  cases parsed with
  | start | neither => cases continues
  | continueAsNew target orchestration input version carried status first =>
    exact ⟨_, _, _, _, _, _, List.mem_of_find?_eq_some first, rfl⟩

/-- An answer over an execution without events records its start if the batch names an orchestration. -/
theorem Answered.opens (answered : Answered env item attemptCount request fallback) (ascending : Ascending item.history)
    (new : baseHistory item request.executionId = []) (named : (workitemReader item).hasOrchestrationName) :
    request.historyDelta ≠ [] := by
  cases answered with
  | corrupted | poisoned => exact failOrchestrationAsPoison_records ascending
  | ended inTime readable terminal =>
    rw [baseHistory_self] at new
    rw [isTerminalFor, tempHistoryMgr, new] at terminal
    cases terminal
  | turned inTime readable running outcome ran =>
    obtain ⟨opening, body, ending, limit, trailing, events⟩ := requestEvents ran ascending
    rw [events.delta]
    cases events.turn.opens with
    | continues recorded => exact absurd new recorded
    | unnamed noName =>
      rw [noName] at named
      cases named
    | opens => exact List.cons_ne_nil _ _

/-- A turn that does not get as far as polling fails or goes on. -/
theorem evaluates_of_continueAsNew {engine : ReplayEngine} {handler : OrchestrationHandler}
    {input orchestrationName orchestrationVersion next : String} {version : Option String}
    (result : (engine.executeOrchestration handler input orchestrationName orchestrationVersion).1 =
      .continueAsNew next version) : engine.evaluates := by
  unfold ReplayEngine.executeOrchestration at result
  dsimp only at result
  split at result
  · cases result
  rename_i noAbort
  split_ifs at result with ended empty started
  simp only [ReplayEngine.evaluates, noAbort, Option.isNone_none, Bool.true_and, Bool.and_eq_true, Bool.not_eq_true']
  exact ⟨by simpa using ended, by simpa using started⟩

theorem mem_notifyParent {executionIds : Execution.ExecutionIds} {parentLink : Option (String × Nat)}
    {item : String → Nat → Nat → WorkItem} {notified : WorkItem}
    (member : notified ∈ Execution.notifyParent executionIds parentLink item) :
    ∃ parentInstance parentId, parentLink = some (parentInstance, parentId) ∧
      notified = item parentInstance (Execution.getExecutionIdForInstance executionIds parentInstance) parentId := by
  unfold Execution.notifyParent at member
  split at member
  · exact ⟨_, _, rfl, List.mem_singleton.mp member⟩
  · exact absurd member List.not_mem_nil

/-- A poison failure over a history that can be read notifies the parent. -/
theorem failOrchestrationAsPoison_items (readable : item.historyError = none) :
    (failOrchestrationAsPoison env item attemptCount).orchestratorItems =
      Execution.notifyParent env.executionIds (poisonManager env item).2
        (.subOrchFailed · · · (poisonDetails env item attemptCount)) := by
  unfold failOrchestrationAsPoison
  rw [readable]
  rfl

/-- A poison failure over a history that cannot be read notifies nobody. -/
theorem failOrchestrationAsPoison_items_of_unreadable {message : String} (unreadable : item.historyError = some message) :
    (failOrchestrationAsPoison env item attemptCount).orchestratorItems = [] := by
  unfold failOrchestrationAsPoison
  rw [unreadable]

/-- The items of a turn continue as new only if the turn does. -/
theorem continueAsNew_of_applyTurnResult {stamp : Stamp} {executionIds : Execution.ExecutionIds}
    {instanceId orchestrationName : String} {executionId : Nat} {manager : HistoryManager}
    {parentLink : Option (String × Nat)} {pendingActions : List Action} {result : TurnResult}
    {target orchestration input : String} {version : Option String} {carried : List (String × String)}
    {status : Option String}
    (member : WorkItem.continueAsNew target orchestration input version carried status ∈
      (Execution.applyTurnResult stamp executionIds instanceId orchestrationName executionId manager parentLink
        pendingActions result).orchestratorItems) :
    target = instanceId ∧ orchestration = orchestrationName ∧ ∃ next version, result = .continueAsNew next version := by
  have notDetached : WorkItem.continueAsNew target orchestration input version carried status ∉
      pendingActions.filterMap Execution.detachedStart := by
    intro listed
    obtain ⟨action, _, detached⟩ := List.mem_filterMap.mp listed
    cases action <;> cases detached
  cases result with
  | «continue» =>
    obtain ⟨action, _, emitted⟩ := List.mem_filterMap.mp member
    cases action <;> cases emitted
  | completed output =>
    rcases List.mem_append.mp member with detached | notified
    · exact absurd detached notDetached
    · obtain ⟨_, _, _, same⟩ := mem_notifyParent notified
      cases same
  | failed details =>
    rcases List.mem_append.mp member with detached | notified
    · exact absurd detached notDetached
    · obtain ⟨_, _, _, same⟩ := mem_notifyParent notified
      cases same
  | continueAsNew next version =>
    cases List.mem_singleton.mp member
    exact ⟨rfl, rfl, _, _, rfl⟩
  | cancelled reason =>
    rcases List.mem_append.mp member with cancelled | notified
    · obtain ⟨child, _, cancel⟩ := List.mem_map.mp cancelled
      cases cancel
    · obtain ⟨_, _, _, same⟩ := mem_notifyParent notified
      cases same

/-- The items that continue an instance as new. -/
def isContinuation : WorkItem → Bool
  | .continueAsNew .. => true
  | _ => false

/-- Where an answer continues an instance as new: its own, once and under a name, with a start event on record,
over an execution that it ends. -/
structure Continues (item : OrchestrationItem) (request : AckRequest semver) (target orchestration : String) : Prop where
  own : target = item.instanceId
  named : orchestration ≠ ""
  started : ∃ event ∈ baseHistory item request.executionId ++ request.historyDelta, event.kind.isStarted
  unended : (baseHistory item request.executionId).any (·.isTerminal) = false
  ends : request.historyDelta.any (·.isTerminal)
  once : request.orchestratorItems.countP isContinuation ≤ 1

/-- A terminal result of a turn is recorded. -/
theorem terminal_of_applyTurnResult {stamp : Stamp} {executionIds : Execution.ExecutionIds}
    {instanceId orchestrationName : String} {executionId : Nat} {manager : HistoryManager}
    {parentLink : Option (String × Nat)} {pendingActions : List Action} {result : TurnResult}
    (ends : result ≠ .continue) :
    (Execution.applyTurnResult stamp executionIds instanceId orchestrationName executionId manager parentLink
      pendingActions result).historyMgr.delta.any (·.isTerminal) := by
  cases result with
  | «continue» => exact absurd rfl ends
  | completed | failed | continueAsNew | cancelled =>
    exact List.any_eq_true.mpr ⟨_, List.mem_append_right _ (List.mem_singleton_self _), rfl⟩

/-- What a turn records as its outcome, its request records too. -/
theorem RequestEvents.mem_of_outcome {opening body ending limit trailing : List Event}
    (events : RequestEvents env item outcome opening body ending limit trailing) {event : Event}
    (member : event ∈ outcome.historyMgr.delta) : event ∈ (turnRequest env item outcome).historyDelta := by
  rw [events.outcomeDelta] at member
  rw [events.delta]
  exact List.mem_append_left _ (List.mem_append_left _ member)

theorem RequestEvents.ends {opening body ending limit trailing : List Event}
    (events : RequestEvents env item outcome opening body ending limit trailing)
    (ended : outcome.historyMgr.delta.any (·.isTerminal)) :
    (turnRequest env item outcome).historyDelta.any (·.isTerminal) := by
  obtain ⟨event, member, terminal⟩ := List.any_eq_true.mp ended
  exact List.any_eq_true.mpr ⟨event, events.mem_of_outcome member, terminal⟩

/-- A turn that continues as new has a start event on record. -/
theorem started_of_continueAsNew {opening body ending limit trailing : List Event}
    (events : RequestEvents env item outcome opening body ending limit trailing)
    (named : (workitemReader item).hasOrchestrationName) {version : String} {handler : OrchestrationHandler}
    {next : String} {nextVersion : Option String}
    (result : (Execution.executedTurn env.stamp item.instanceId
      (startIfNew env.stamp item.instanceId (turnExecution item).1 (workitemReader item) version (turnExecution item).2)
      (workitemReader item) (turnExecution item).1 handler version item.kvSnapshot).1 = .continueAsNew next nextVersion) :
    ∃ event ∈ baseHistory item (turnExecution item).1 ++ (turnRequest env item outcome).historyDelta,
      event.kind.isStarted := by
  cases events.turn.opens with
  | opens _ _ opened =>
    refine ⟨startedEvent env.stamp item.instanceId (turnExecution item).1 (workitemReader item) (semver.render opened),
      List.mem_append_right _ ?_, rfl⟩
    rw [events.delta]
    exact List.mem_cons_self
  | unnamed noName =>
    rw [noName] at named
    cases named
  | continues recorded =>
    have occupied : (turnExecution item).2.isEmpty = false := by
      have full := turnExecution_fullHistory item
      rw [← full] at recorded
      by_contra empty
      simp only [HistoryManager.isEmpty, Bool.not_eq_false, Bool.and_eq_true, List.isEmpty_iff] at empty
      exact recorded (by rw [HistoryManager.fullHistory, empty.1, empty.2]; rfl)
    have evaluates := evaluates_of_continueAsNew result
    simp only [startIfNew, occupied, Bool.false_eq_true, ↓reduceIte, ReplayEngine.evaluates, Bool.and_eq_true,
      Execution.prepareTurn_baselineHistory, turnExecution_fullHistory] at evaluates
    have starts := evaluates.2
    rcases base : baseHistory item (turnExecution item).1 with _ | ⟨first, rest⟩
    · exact absurd base recorded
    · rw [base] at starts
      refine ⟨first, List.mem_append_left _ List.mem_cons_self, ?_⟩
      obtain ⟨eventId, source, instanceId, executionId, timestamp, crate, kind⟩ := first
      cases kind <;> first | rfl | cases starts

/-- Besides its continuation such a turn only cancels the children that it dropped. -/
theorem once_of_continueAsNew {stamp : Stamp} {executionIds : Execution.ExecutionIds} {instanceId : String}
    {executionId : Nat} {manager : HistoryManager} {reader : WorkItemReader} {handler : OrchestrationHandler}
    {orchestrationVersion : String} {kvSnapshot : AList (fun _ : String => KvEntry)} {next : String}
    {nextVersion : Option String}
    (result : (Execution.executedTurn stamp instanceId manager reader executionId handler orchestrationVersion
      kvSnapshot).1 = .continueAsNew next nextVersion) :
    (Execution.runSingleExecutionAtomic stamp executionIds instanceId manager reader executionId handler
      orchestrationVersion kvSnapshot).orchestratorItems.countP isContinuation ≤ 1 := by
  unfold Execution.executedTurn at result
  unfold Execution.runSingleExecutionAtomic
  dsimp only
  rw [result, List.countP_append]
  refine Nat.add_le_add List.countP_le_length (Nat.le_of_eq (List.countP_eq_zero.mpr fun other listed => ?_))
  obtain ⟨child, _, rfl⟩ := List.mem_map.mp listed
  exact Bool.false_ne_true

/-- A turn that continues as new runs over a history that has not ended. -/
theorem unended_of_continueAsNew {opening : List Event} {version : String} {handler : OrchestrationHandler}
    (opens : HistoryManager.Extends (turnExecution item).2 (startIfNew env.stamp item.instanceId (turnExecution item).1
      (workitemReader item) version (turnExecution item).2) opening) {next : String} {nextVersion : Option String}
    (result : (Execution.executedTurn env.stamp item.instanceId
      (startIfNew env.stamp item.instanceId (turnExecution item).1 (workitemReader item) version (turnExecution item).2)
      (workitemReader item) (turnExecution item).1 handler version item.kvSnapshot).1 = .continueAsNew next nextVersion) :
    (baseHistory item (turnExecution item).1).any (·.isTerminal) = false := by
  have evaluates := evaluates_of_continueAsNew result
  simp only [ReplayEngine.evaluates, Bool.and_eq_true, Bool.not_eq_true', Execution.prepareTurn_baselineHistory,
    opens.fullHistory, turnExecution_fullHistory, List.any_append, Bool.or_eq_false_iff] at evaluates
  exact evaluates.1.2.1.1

theorem Answered.continues (answered : Answered env item attemptCount request fallback)
    (ascending : Ascending item.history) {target orchestration input : String} {version : Option String}
    {carried : List (String × String)} {status : Option String}
    (member : WorkItem.continueAsNew target orchestration input version carried status ∈ request.orchestratorItems) :
    Continues item request target orchestration := by
  cases answered with
  | corrupted exceeded message unreadable =>
    rw [failOrchestrationAsPoison_items_of_unreadable unreadable] at member
    exact absurd member List.not_mem_nil
  | poisoned exceeded readable =>
    rw [failOrchestrationAsPoison_items readable] at member
    obtain ⟨_, _, _, same⟩ := mem_notifyParent member
    cases same
  | ended => exact absurd member List.not_mem_nil
  | turned inTime readable running outcome ran =>
    obtain ⟨opening, body, ending, limit, trailing, events⟩ := requestEvents ran ascending
    have items : (turnRequest env item outcome).orchestratorItems =
      (enforceLimits env item (turnExecution item).1 outcome).1.orchestratorItems := rfl
    rw [items] at member
    have limited := events.limited
    generalize enforceLimits env item (turnExecution item).1 outcome = enforced at limited member
    cases limited with
    | exceeded => exact absurd member List.not_mem_nil
    | within within =>
      cases ran_of_turnOutcome ran with
      | unnamed => exact absurd member List.not_mem_nil
      | executed named version handler resolved =>
        rcases List.mem_append.mp member with applied | cancelled
        · obtain ⟨own, name, next, nextVersion, result⟩ := continueAsNew_of_applyTurnResult applied
          have unended := (startIfNew_extends env item named version).elim fun opening opens =>
            unended_of_continueAsNew opens.2 result
          refine ⟨own, ?_, started_of_continueAsNew events named result, unended, ?_, ?_⟩
          · rw [name]
            exact bne_iff_ne.mp named
          · exact events.ends (terminal_of_applyTurnResult fun goesOn => nomatch goesOn.symm.trans result)
          · rw [items_of_within within]
            exact once_of_continueAsNew result
        · obtain ⟨child, _, cancel⟩ := List.mem_map.mp cancelled
          cases cancel

end Dispatcher

/-! ## What a pending request records -/

namespace Asks

open Dispatcher

variable {conditions : Conditions semver} {item : OrchestrationItem} {attemptCount : Nat} {request : AckRequest semver}
  {fallback : Option (ProviderError → AckRequest semver)}

/-- The origin of a pending request: an answer, or the failure commit of a turn, under its conditions. -/
inductive Source (conditions : Conditions semver) (item : OrchestrationItem) (attemptCount : Nat) :
    AckRequest semver → Prop
  | answer (env : RuntimeEnv semver) (allowed : conditions.decide env item attemptCount)
      (supported : isSupported env item) (request : AckRequest semver)
      (fallback : Option (ProviderError → AckRequest semver)) (answered : Answered env item attemptCount request fallback) :
      Source conditions item attemptCount request
  | failure (env : RuntimeEnv semver) (allowed : conditions.decide env item attemptCount)
      (supported : isSupported env item) (turned : conditions.failTurn item) (readable : item.historyError = none)
      (outcome : ExecutionOutcome) (ran : turnOutcome env item = some outcome)
      (running : isTerminalFor (tempHistoryMgr item) (workitemReader item) = false) (error : ProviderError) :
      Source conditions item attemptCount (failureCommit env item (turnExecution item).1 error)

theorem source (asks : Asks conditions item attemptCount request fallback) :
    Source conditions item attemptCount request := by
  cases asks with
  | decided env allowed _ _ decision =>
    obtain ⟨supported, answered⟩ := answered_of_decided decision
    exact .answer env allowed supported _ _ answered
  | failed env allowed original commit decision turned error =>
    obtain ⟨supported, answered⟩ := answered_of_decided decision
    cases answered with
    | turned inTime readable running outcome ran =>
      exact .failure env allowed supported turned readable outcome ran running error

namespace Source

variable (source : Source conditions item attemptCount request)
include source

theorem execution : request.executionId = item.executionId ∨
    request.executionId = item.executionId + 1 ∧ (workitemReader item).isContinueAsNew := by
  cases source with
  | answer env allowed supported _ fallback answered => exact answered.execution
  | failure => exact turnExecution_cases item

/-- Over a history that can be read, events are numbered above those of the execution. -/
theorem ascending (readable : item.historyError = none) (history : Ascending item.history) :
    Ascending (baseHistory item request.executionId ++ request.historyDelta) := by
  cases source with
  | answer env allowed supported _ fallback answered => exact answered.ascending readable history
  | failure env allowed supported turned _ outcome ran running error => exact failureCommit_ascending _ error history

theorem identity (history : Ascending item.history) (starts : ∃ event ∈ request.historyDelta, event.kind.isStarted) :
    (Provider.identityOf request.metadata).isSome := by
  cases source with
  | answer env allowed supported _ fallback answered => exact answered.identity history starts
  | failure env allowed supported turned _ outcome ran running error =>
    obtain ⟨failed, kind, delta, _⟩ := @failureCommit_events semver env item (turnExecution item).1 error history
    obtain ⟨event, member, started⟩ := starts
    rw [delta] at member
    rw [List.mem_singleton.mp member, kind] at started
    cases started

theorem records (history : Ascending item.history) (named : (Provider.identityOf request.metadata).isSome) :
    request.historyDelta ≠ [] := by
  cases source with
  | answer env allowed supported _ fallback answered => exact answered.records history named
  | failure env allowed supported turned _ outcome ran running error =>
    obtain ⟨failed, kind, delta, _⟩ := @failureCommit_events semver env item (turnExecution item).1 error history
    rw [delta]
    exact List.cons_ne_nil _ _

theorem opens (history : Ascending item.history) (new : baseHistory item request.executionId = [])
    (named : (workitemReader item).hasOrchestrationName) : request.historyDelta ≠ [] := by
  cases source with
  | answer env allowed supported _ fallback answered => exact answered.opens history new named
  | failure env allowed supported turned _ outcome ran running error =>
    obtain ⟨failed, kind, delta, _⟩ := @failureCommit_events semver env item (turnExecution item).1 error history
    rw [delta]
    exact List.cons_ne_nil _ _

/-- Over an execution without events, a request records nothing, or begins with the first event id. -/
theorem begins (readable : item.historyError = none) (same : request.executionId = item.executionId)
    (new : item.history = []) : request.historyDelta = [] ∨
      ∃ first rest, request.historyDelta = first :: rest ∧ first.eventId = INITIAL_EVENT_ID := by
  have history : Ascending item.history := new ▸ .nil
  cases source with
  | answer env allowed supported _ fallback answered =>
    refine (answered.begins history readable (by rw [same, baseHistory_self, new])).imp_right ?_
    exact fun ⟨first, rest, delta, begins⟩ => ⟨first, rest, delta, begins.atStart⟩
  | failure env allowed supported turned _ outcome ran running error =>
    refine .inr ⟨HistoryManager.failedEvent env.stamp (.fromHistory item.history) error.toInfrastructureError, [], ?_, ?_⟩
    · exact (HistoryManager.extends_appendFailed env.stamp error.toInfrastructureError).delta.trans
        (by rw [HistoryManager.fromHistory_delta, List.nil_append])
    · simp [HistoryManager.failedEvent, HistoryManager.nextEventId, HistoryManager.fullHistory, new, INITIAL_EVENT_ID]

theorem continues (history : Ascending item.history) {target orchestration input : String} {version : Option String}
    {carried : List (String × String)} {status : Option String}
    (member : WorkItem.continueAsNew target orchestration input version carried status ∈ request.orchestratorItems) :
    Continues item request target orchestration := by
  cases source with
  | answer env allowed supported _ fallback answered => exact answered.continues history member
  | failure => exact absurd member List.not_mem_nil

/-- Over a history that cannot be read, one failure is recorded under the sentinel id. -/
theorem corrupted {message : String} (unreadable : item.historyError = some message) :
    request.executionId = item.executionId ∧
      ∃ failed, request.historyDelta = [failed] ∧ failed.eventId = CORRUPTED_HISTORY_EVENT_ID ∧ failed.kind.isFailed := by
  cases source with
  | answer env allowed supported _ fallback answered =>
    cases answered with
    | corrupted =>
      refine ⟨failOrchestrationAsPoison_executionId, ?_⟩
      unfold failOrchestrationAsPoison
      rw [unreadable]
      exact ⟨_, rfl, rfl, rfl⟩
    | poisoned exceeded readable | ended inTime readable | turned inTime readable =>
      rw [readable] at unreadable
      cases unreadable
  | failure env allowed supported turned readable =>
    rw [readable] at unreadable
    cases unreadable

end Source

end Asks

end Duroxide
