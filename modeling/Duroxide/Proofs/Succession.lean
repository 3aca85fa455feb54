import Duroxide.Proofs.Batches
import Duroxide.Proofs.OutcomeViews

/-! # The succession of executions

An instance has at most one continue-as-new item in the queue, and only after its current execution ended. So
a next execution opens over one that ended, and nothing else happens to an execution that ended than that
messages are recorded behind its end.
-/

namespace Duroxide

open Provider Dispatcher

variable {semver : Semver}

/-- The current execution of an instance; the first one before the instance has a row. -/
def Store.currentExecution (store : Store) (instanceId : String) : Nat :=
  ((store.instances instanceId).map (·.currentExecutionId)).getD INITIAL_EXECUTION_ID

/-- The events of the current execution of an instance. -/
def Store.currentEvents (store : Store) (instanceId : String) : List Event :=
  store.recorded instanceId (store.currentExecution instanceId)

/-- The current execution of an instance has ended. -/
def Ended (store : Store) (instanceId : String) : Prop := (store.currentEvents instanceId).any (·.isTerminal)

theorem currentExecution_of_row {store : Store} {instanceId : String} {info : InstanceRow}
    (row : store.instances instanceId = some info) : store.currentExecution instanceId = info.currentExecutionId := by
  rw [Store.currentExecution, row]
  rfl

theorem currentExecution_of_noRow {store : Store} {instanceId : String}
    (noRow : store.instances instanceId = none) : store.currentExecution instanceId = INITIAL_EXECUTION_ID := by
  rw [Store.currentExecution, noRow]
  rfl

/-- An item is about the current execution of its instance. -/
theorem Provider.Describes.executionId_eq {store : Store} {item : OrchestrationItem} (describes : Describes store item) :
    item.executionId = store.currentExecution item.instanceId := by
  cases describes with
  | known info row current | unreadable info row current => exact current.trans (currentExecution_of_row row).symm
  | recorded noRow first | requested noRow first => exact first.trans (currentExecution_of_noRow noRow).symm

/-- The current events of an instance depend on its row and its histories. -/
theorem currentEvents_congr {before after : Store} {instanceId : String}
    (row : after.instances instanceId = before.instances instanceId)
    (recorded : ∀ executionId, after.recorded instanceId executionId = before.recorded instanceId executionId) :
    after.currentEvents instanceId = before.currentEvents instanceId := by
  rw [Store.currentEvents, Store.currentEvents, Store.currentExecution, Store.currentExecution, row, recorded]

theorem SameRecords.currentEvents {before after : Store} (same : SameRecords before after) (instanceId : String) :
    after.currentEvents instanceId = before.currentEvents instanceId :=
  currentEvents_congr (by rw [same.instances]) fun executionId => by rw [Store.recorded, Store.recorded, same.history]

theorem currentEvents_other {store after : Store} {now token : Nat} {instanceId other : String}
    {request : AckRequest semver} (committed : Acked store now token instanceId request after)
    (differs : other ≠ instanceId) : after.currentEvents other = store.currentEvents other :=
  currentEvents_congr (committed.otherInstances other differs) fun _ =>
    recorded_other committed fun same => differs (Prod.mk.inj same).1

namespace Lifecycle.Placed

variable {store after : Store} {now token : Nat} {instanceId : String} {request : AckRequest semver}

/-- After a commit its execution is the current one. -/
theorem currentExecution (placed : Lifecycle.Placed store instanceId request)
    (committed : Acked store now token instanceId request after) :
    after.currentExecution instanceId = request.executionId := by
  have bumped := currentExecutionId_of_acked committed
  rw [Store.currentExecution, bumped]
  cases placed with
  | current info row same =>
    rw [row, same]
    exact Nat.max_self _
  | next info row next =>
    rw [row, next]
    exact Nat.max_eq_right (Nat.le_succ _)
  | first noRow same =>
    rw [noRow, same]
    dsimp only
    split_ifs <;> rfl

/-- A commit is about the execution that was current, or about the next one. -/
theorem previous (placed : Lifecycle.Placed store instanceId request) :
    request.executionId = store.currentExecution instanceId ∨
      request.executionId = store.currentExecution instanceId + 1 := by
  cases placed with
  | current info row same => exact .inl (same.trans (currentExecution_of_row row).symm)
  | next info row next => exact .inr (by rw [next, currentExecution_of_row row])
  | first noRow same => exact .inl (same.trans (currentExecution_of_noRow noRow).symm)

end Lifecycle.Placed

/-! ## What ends an execution -/

namespace Dispatcher

variable {env : RuntimeEnv semver} {item : OrchestrationItem} {attemptCount : Nat} {request : AckRequest semver}
  {fallback : Option (ProviderError → AckRequest semver)} {outcome : ExecutionOutcome}

/-- Metadata that are computed over a terminal event end the execution. -/
theorem computeExecutionMetadata_ends {delta : List Event} (ends : delta.any (·.isTerminal)) :
    (computeExecutionMetadata semver delta {}).status.any ExecutionStatus.isTerminal := by
  have summary := (Prod.mk.inj (OutcomeViews.computeExecutionMetadata_summary delta ({} : ExecutionMetadata semver))).1
  obtain ⟨event, member, terminal⟩ := List.any_eq_true.mp ends
  rcases endings : OutcomeViews.endings delta with _ | ⟨kind, later⟩
  · have plain : event.isTerminal = false := OutcomeViews.endings_eq_nil.mp endings event member
    rw [plain] at terminal
    cases terminal
  · rw [endings] at summary
    have isTerminal : kind.isTerminal := (OutcomeViews.mem_endings.mp (endings ▸ List.mem_cons_self)).1
    rw [summary]
    cases kind <;> first | rfl | cases isTerminal

theorem turnRequest_endsExecution (ran : turnOutcome env item = some outcome) (history : Ascending item.history)
    (ends : (turnRequest env item outcome).historyDelta.any (·.isTerminal)) :
    endsExecution (turnRequest env item outcome) := by
  obtain ⟨opening, body, ending, limit, trailing, events⟩ := requestEvents ran history
  have silent : trailing.any (·.isTerminal) = false := List.any_eq_false.mpr fun event member => by
    rw [Event.isTerminal, EventKind.isTerminal_of_isBreadcrumb (events.breadcrumbs event member)]
    exact Bool.false_ne_true
  have limited := events.limited
  rw [events.delta, ← events.outcomeDelta, List.any_append, List.any_append, silent, Bool.or_false] at ends
  change (enforceLimits env item (turnExecution item).1 outcome).2.status.any ExecutionStatus.isTerminal
  generalize enforceLimits env item (turnExecution item).1 outcome = enforced at limited
  cases limited with
  | within => exact computeExecutionMetadata_ends (by simpa using ends)
  | exceeded => rfl

end Dispatcher

/-- A request that records a terminal event ends its execution for the provider. -/
theorem Asks.Source.endsExecution {conditions : Conditions semver} {item : OrchestrationItem} {attemptCount : Nat}
    {request : AckRequest semver} (source : Asks.Source conditions item attemptCount request)
    (history : Ascending item.history) (ends : request.historyDelta.any (·.isTerminal)) :
    Provider.endsExecution request := by
  cases source with
  | answer env allowed supported _ fallback answered =>
    cases answered with
    | corrupted exceeded message unreadable =>
      unfold failOrchestrationAsPoison
      rw [unreadable]
      rfl
    | poisoned exceeded readable =>
      unfold failOrchestrationAsPoison
      rw [readable]
      rfl
    | ended => cases ends
    | turned inTime readable running outcome ran => exact turnRequest_endsExecution ran history ends
  | failure env allowed supported turned _ outcome ran running error => exact computeExecutionMetadata_ends ends

/-! ## Continue-as-new items -/

/-- The items that continue an instance as new follow an execution that ended, one for each instance. -/
structure Succession (world : World semver) : Prop where
  ended : ∀ row ∈ world.store.orchestratorQueue, isContinuation row.workItem → Ended world.store row.instanceId
  single : ∀ row ∈ world.store.orchestratorQueue, ∀ other ∈ world.store.orchestratorQueue, isContinuation row.workItem →
    isContinuation other.workItem → row.instanceId = other.instanceId → row.id = other.id

/-- At most one row for at most one continuation. -/
theorem enqueuedRows_single {visible : WorkItem → Int} {id : Nat} {items : List WorkItem}
    (once : items.countP isContinuation ≤ 1) {row other : OrchestratorRow} (member : row ∈ enqueuedRows visible id items)
    (otherMember : other ∈ enqueuedRows visible id items) (continues : isContinuation row.workItem)
    (otherContinues : isContinuation other.workItem) : row.id = other.id := by
  induction items generalizing id with
  | nil => exact absurd member List.not_mem_nil
  | cons item rest ih =>
    rw [List.countP_cons] at once
    have alone : isContinuation item → ∀ later ∈ enqueuedRows visible (id + 1) rest,
        isContinuation later.workItem = false := by
      intro first later listed
      rw [if_pos first] at once
      have none : rest.countP isContinuation = 0 := by omega
      exact Bool.eq_false_of_not_eq_true (List.countP_eq_zero.mp none _ (QueueSound.mem_enqueuedRows listed).2.2.2.2.1)
    rcases List.mem_cons.mp member with rfl | later <;> rcases List.mem_cons.mp otherMember with rfl | otherLater
    · rfl
    · rw [alone continues other otherLater] at otherContinues
      cases otherContinues
    · rw [alone otherContinues row later] at continues
      cases continues
    · exact ih (by omega) later otherLater

/-- Every message that is enqueued is in a row of its target. -/
theorem mem_enqueuedRows_of_mem (visible : WorkItem → Int) {items : List WorkItem} {item : WorkItem} (listed : item ∈ items)
    (id : Nat) : ∃ row ∈ enqueuedRows visible id items, row.instanceId = item.targetInstance ∧ item ∈ row.decoded := by
  induction items generalizing id with
  | nil => exact absurd listed List.not_mem_nil
  | cons first rest ih =>
    rcases List.mem_cons.mp listed with rfl | later
    · exact ⟨_, List.mem_cons_self, rfl, rfl⟩
    · obtain ⟨row, member, found⟩ := ih later (id + 1)
      exact ⟨row, List.mem_cons_of_mem _ member, found⟩

namespace Succession

variable {world after : World semver} {label : Step semver} {delivery : Delivery semver} {request : AckRequest semver}
  {instanceId : String} {conditions : Conditions semver}

theorem initial : Succession ({} : World semver) where
  ended _ member := absurd member List.not_mem_nil
  single _ member := absurd member List.not_mem_nil

/-- A batch that continues its instance as new holds a continuation of the instance. -/
theorem queued_of_continues (coherent : Coherent world) (batches : HoldsBatches world) {lock : InstanceLock}
    (found : world.store.instanceLocks.lookup instanceId = some lock)
    (holds : world.deliveries lock.lockToken = some delivery)
    (continues : (workitemReader delivery.item).isContinueAsNew) :
    ∃ row ∈ world.store.orchestratorQueue, isContinuation row.workItem ∧ row.instanceId = instanceId ∧
      row.lockToken = some lock.lockToken := by
  obtain ⟨target, orchestration, input, version, carried, status, member, _⟩ := continuation_of_continues continues
  rw [← batches _ lock delivery found holds] at member
  obtain ⟨row, inBatch, item⟩ := List.mem_filterMap.mp member
  obtain ⟨queued, marked⟩ := List.mem_filter.mp inBatch
  rw [beq_iff_eq] at marked
  refine ⟨row, queued, ?_, (coherent.queueSound.owned row queued _ lock found marked).symm, marked⟩
  rw [OrchestratorRow.workItem_of_decoded item]
  rfl

/-- A commit that opens the next execution takes its continuation out of the queue. -/
theorem opens_of_next (coherent : Coherent world) (pending : Pending conditions world)
    (batches : HoldsBatches world) (commits : Commits world label delivery request instanceId after)
    (next : request.executionId = world.store.currentExecution instanceId + 1) :
    ∃ row ∈ world.store.orchestratorQueue, isContinuation row.workItem ∧ row.instanceId = instanceId ∧
      row ∉ after.store.orchestratorQueue := by
  obtain ⟨config, now, token, fault, _, holds, committed, _⟩ := commits.holds
  obtain ⟨fallback, failed, phase⟩ := commits.phase
  obtain ⟨rfl, describes⟩ := coherent.of_locked committed.locked holds
  have source := (pending token delivery request fallback failed holds phase).source
  have current := describes.executionId_eq
  obtain ⟨_, continues⟩ := source.execution.resolve_left (by omega)
  obtain ⟨lock, found, rfl, _⟩ := committed.held
  obtain ⟨row, queued, item, own, marked⟩ := queued_of_continues coherent batches found holds continues
  refine ⟨row, queued, item, own, ?_⟩
  rw [committed.queue]
  intro kept
  rcases List.mem_append.mp kept with old | new
  · have unmarked := (List.mem_filter.mp old).2
    rw [marked] at unmarked
    simp at unmarked
  · rw [(QueueSound.mem_enqueuedRows new).2.2.1] at marked
    cases marked

/-- What a commit does to the continuations: those left are about other instances, or about an execution that
goes on as the current one. -/
theorem current_of_kept (succession : Succession world) (lifecycle : Lifecycle world) (provenance : Provenance world)
    (coherent : Coherent world) (pending : Pending conditions world) (batches : HoldsBatches world)
    (commits : Commits world label delivery request instanceId after) {row : OrchestratorRow}
    (before : row ∈ world.store.orchestratorQueue) (kept : row ∈ after.store.orchestratorQueue)
    (continues : isContinuation row.workItem) (own : row.instanceId = instanceId) :
    request.executionId = world.store.currentExecution instanceId := by
  refine (lifecycle.placed provenance coherent pending commits).previous.resolve_right fun next => ?_
  obtain ⟨taken, queued, item, sameInstance, gone⟩ := opens_of_next coherent pending batches commits next
  have same := succession.single row before taken queued continues item (own.trans sameInstance.symm)
  rw [coherent.queueSound.row_eq before queued same] at kept
  exact gone kept

/-- A commit that continues an execution as new is about an execution that had not ended. -/
theorem unended_of_continues (lifecycle : Lifecycle world) (provenance : Provenance world) (coherent : Coherent world)
    (pending : Pending conditions world) (commits : Commits world label delivery request instanceId after)
    {target orchestration : String} (continues : Continues delivery.item request target orchestration) :
    (world.store.recorded instanceId request.executionId).any (·.isTerminal) = false := by
  have extended := lifecycle.extended provenance coherent pending commits
  obtain ⟨config, now, token, fault, _, holds, committed, _⟩ := commits.holds
  obtain ⟨rfl, describes⟩ := coherent.of_locked committed.locked holds
  cases extended with
  | unchanged readable same empty nothing kept =>
    have ends := continues.ends
    rw [nothing] at ends
    cases ends
  | corrupted info row current message unreadable failed delta numbered kind =>
    -- a failure over an unreadable history is no start
    obtain ⟨event, member, started⟩ := continues.started
    have empty : delivery.item.history = [] := by
      cases describes with
      | unreadable info row current named versioned error empty => exact empty
      | known _ _ _ _ _ readable | recorded _ _ readable | requested _ _ readable => exact nomatch readable.symm.trans unreadable
    rw [baseHistory, empty, ite_self, List.nil_append, delta] at member
    rw [List.mem_singleton.mp member] at started
    obtain ⟨eventId, source, owner, executionId, timestamp, crate, failure⟩ := failed
    cases failure <;> first | (cases kind; done) | cases started
  | continued readable same base appended =>
    have unended := continues.unended
    rw [same] at base unended ⊢
    rwa [baseHistory_self, ← base] at unended
  | opened readable starts next info row current named base appended =>
    rw [base]
    rfl

/-- A continuation that a commit enqueues is its instance's own, and ends the execution of the commit. -/
theorem continues_of_enqueued (provenance : Provenance world) (coherent : Coherent world)
    (pending : Pending conditions world) (commits : Commits world label delivery request instanceId after)
    {item : WorkItem} (listed : item ∈ request.orchestratorItems) (continues : isContinuation item) :
    item.targetInstance = instanceId ∧ ∃ orchestration, Continues delivery.item request item.targetInstance orchestration := by
  obtain ⟨config, now, token, fault, _, holds, committed, _⟩ := commits.holds
  obtain ⟨fallback, failed, phase⟩ := commits.phase
  obtain ⟨rfl, _⟩ := coherent.of_locked committed.locked holds
  have source := (pending token delivery request fallback failed holds phase).source
  cases item with
  | continueAsNew target orchestration =>
    have found := source.continues (provenance.items token delivery holds).ordered listed
    exact ⟨found.own, orchestration, found⟩
  | _ => cases continues

/-- A commit that continues its instance leaves no other continuation of it in the queue. -/
theorem none_kept (succession : Succession world) (lifecycle : Lifecycle world) (provenance : Provenance world)
    (coherent : Coherent world) (pending : Pending conditions world) (batches : HoldsBatches world)
    (commits : Commits world label delivery request instanceId after) {target orchestration : String}
    (starts : Continues delivery.item request target orchestration) {row : OrchestratorRow}
    (before : row ∈ world.store.orchestratorQueue) (kept : row ∈ after.store.orchestratorQueue)
    (continues : isContinuation row.workItem) : row.instanceId ≠ instanceId := by
  intro own
  have current := succession.current_of_kept lifecycle provenance coherent pending batches commits before kept continues own
  have ended : (world.store.recorded _ _).any (·.isTerminal) = true := succession.ended row before continues
  rw [own, ← current, unended_of_continues lifecycle provenance coherent pending commits starts] at ended
  cases ended

theorem step_of_commits (succession : Succession world) (lifecycle : Lifecycle world) (provenance : Provenance world)
    (coherent : Coherent world) (pending : Pending conditions world) (batches : HoldsBatches world)
    (commits : Commits world label delivery request instanceId after) : Succession after := by
  have placed := lifecycle.placed provenance coherent pending commits
  obtain ⟨config, now, token, fault, _, holds, committed, _⟩ := commits.holds
  have listed : ∀ row ∈ after.store.orchestratorQueue, row ∈ world.store.orchestratorQueue ∨
      row ∈ enqueuedRows (visibleFrom now) world.store.nextOrchestratorId
        (request.orchestratorItems.filter (!isActivityExecute ·)) := by
    intro row member
    rw [committed.queue] at member
    exact (List.mem_append.mp member).imp_left List.mem_of_mem_filter
  have added : ∀ row, row ∈ enqueuedRows (visibleFrom now) world.store.nextOrchestratorId
      (request.orchestratorItems.filter (!isActivityExecute ·)) → isContinuation row.workItem →
      row.instanceId = instanceId ∧ ∃ orchestration, Continues delivery.item request row.workItem.targetInstance orchestration := by
    intro row new continues
    obtain ⟨_, _, _, _, asked, target, _⟩ := QueueSound.mem_enqueuedRows new
    obtain ⟨own, starts⟩ := continues_of_enqueued provenance coherent pending commits (List.mem_of_mem_filter asked) continues
    exact ⟨target.trans own, starts⟩
  constructor
  · intro row member continues
    change (after.store.recorded _ _).any (·.isTerminal) = true
    rcases listed row member with old | new
    · by_cases own : row.instanceId = instanceId
      · have current := succession.current_of_kept lifecycle provenance coherent pending batches commits old member continues own
        obtain ⟨event, recorded, terminal⟩ := List.any_eq_true.mp (succession.ended row old continues)
        rw [own, placed.currentExecution committed]
        rw [own, Store.currentEvents, ← current] at recorded
        exact List.any_eq_true.mpr ⟨event, (mem_recorded_iff committed).mpr (.inl recorded), terminal⟩
      · have same := currentEvents_other committed own
        unfold Store.currentEvents at same
        rw [same]
        exact succession.ended row old continues
    · obtain ⟨own, orchestration, starts⟩ := added row new continues
      obtain ⟨event, asked, terminal⟩ := List.any_eq_true.mp starts.ends
      rw [own, placed.currentExecution committed]
      exact List.any_eq_true.mpr ⟨event, (mem_recorded_iff committed).mpr (.inr asked), terminal⟩
  · intro row member other otherMember continues otherContinues same
    rcases listed row member with old | new <;> rcases listed other otherMember with otherOld | otherNew
    · exact succession.single row old other otherOld continues otherContinues same
    · obtain ⟨own, _, starts⟩ := added other otherNew otherContinues
      exact absurd (same.trans own)
        (succession.none_kept lifecycle provenance coherent pending batches commits starts old member continues)
    · obtain ⟨own, _, starts⟩ := added row new continues
      exact absurd (same.symm.trans own) (succession.none_kept lifecycle provenance coherent pending batches commits
        starts otherOld otherMember otherContinues)
    · obtain ⟨_, _, starts⟩ := added row new continues
      exact enqueuedRows_single ((List.Sublist.countP_le List.filter_sublist).trans starts.once) new otherNew continues
        otherContinues

theorem step (succession : Succession world) (lifecycle : Lifecycle world) (provenance : Provenance world)
    (coherent : Coherent world) (pending : Pending conditions world) (batches : HoldsBatches world)
    (effect : Effect world label after) : Succession after := by
  by_cases committed : ∃ delivery request instanceId, Commits world label delivery request instanceId after
  · obtain ⟨delivery, request, instanceId, commits⟩ := committed
    exact succession.step_of_commits lifecycle provenance coherent pending batches commits
  have same := effect.records.resolve_right committed
  have original : ∀ row ∈ after.store.orchestratorQueue, isContinuation row.workItem →
      ∃ old ∈ world.store.orchestratorQueue, isContinuation old.workItem ∧ old.instanceId = row.instanceId ∧
        old.id = row.id := by
    intro row member continues
    cases effect.row member with
    | kept old before item sameInstance id => exact ⟨old, before, by rwa [item], sameInstance, id⟩
    | client target item =>
      generalize row.workItem = message at item continues
      cases message <;> first | (cases continues; done) | cases item
    | completion target item =>
      generalize row.workItem = message at item continues
      cases message <;> first | (cases continues; done) | cases item
    | committed target delivery request instanceId commits => exact absurd ⟨delivery, request, instanceId, commits⟩ committed
  constructor
  · intro row member continues
    obtain ⟨old, before, item, sameInstance, _⟩ := original row member continues
    rw [← sameInstance, Ended, same.currentEvents]
    exact succession.ended old before item
  · intro row member other otherMember continues otherContinues sameInstance
    obtain ⟨old, before, item, own, id⟩ := original row member continues
    obtain ⟨second, secondBefore, secondItem, secondOwn, secondId⟩ := original other otherMember otherContinues
    rw [← id, ← secondId]
    exact succession.single old before second secondBefore item secondItem (own.trans (sameInstance.trans secondOwn.symm))

/-- In every run, a next execution opens over one that ended. -/
theorem of_reachable {guard : World semver → Step semver → Prop} (reached : (system semver).Reachable guard world) :
    Succession world := by
  have everywhere := reachable_unconditionally reached
  clear reached
  induction everywhere with
  | initial start => exact start ▸ initial
  | step reached _ taken ih =>
    exact ih.step (.of_reachable reached) (.of_reachable reached) (.of_reachable reached) (.of_reachable reached)
      (.of_reachable reached) (World.step_effect taken)

/-- The execution before one that a commit opens has ended. -/
theorem ended_of_next (succession : Succession world) (coherent : Coherent world) (pending : Pending conditions world)
    (batches : HoldsBatches world) (commits : Commits world label delivery request instanceId after)
    (next : request.executionId = world.store.currentExecution instanceId + 1) : Ended world.store instanceId := by
  obtain ⟨row, queued, continues, rfl, _⟩ := opens_of_next coherent pending batches commits next
  exact succession.ended row queued continues

end Succession

end Duroxide
