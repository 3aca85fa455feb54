import Duroxide.Proofs.Turnovers

/-! # Instances in order

In runs in which fetches see what opens the executions of an instance, and batches name its orchestration and
continue it as new where they can, the holder of the instance's lock holds what continues the instance. So an
execution that ended without being finished is continued, and every commit that leaves an execution unfinished takes
its batch in.
-/

namespace Duroxide

open Provider Dispatcher

variable {semver : Semver} {world after : World semver} {label : Step semver} {instanceId : String}

/-! ## Guarded runs -/

/-- The condition on batches of an instance: they name its orchestration, and those that hold a continue-as-new item
continue the instance. -/
def continuedBatches (semver : Semver) (instanceId : String) : Conditions semver where
  decide _ item _ := item.instanceId = instanceId → (workitemReader item).hasOrchestrationName ∧
    (item.messages.any isContinuation → (workitemReader item).isContinueAsNew)

theorem Asks.Source.continued {item : OrchestrationItem} {attemptCount : Nat} {request : AckRequest semver}
    (source : Asks.Source (continuedBatches semver instanceId) item attemptCount request)
    (own : item.instanceId = instanceId) : (workitemReader item).hasOrchestrationName ∧
      (item.messages.any isContinuation → (workitemReader item).isContinueAsNew) := by
  cases source with
  | answer env allowed => exact allowed own
  | failure env allowed => exact allowed own

/-- The item opens an execution. -/
def WorkItem.isOpening : WorkItem → Bool
  | .startOrchestration .. | .continueAsNew .. => true
  | _ => false

/-- The row opens an execution. -/
def OrchestratorRow.opens (row : OrchestratorRow) : Bool := row.decoded.any WorkItem.isOpening

/-- A fetch sees the rows of an instance that pass a test: no backoff hides them, and no clock is behind. -/
def Sees (test : OrchestratorRow → Bool) (instanceId : String) (world : World semver) : Step semver → Prop
  | .fetch _ _ now _ _ _ => ∀ row ∈ world.store.rowsOf instanceId, test row → row.visibleAt ≤ (now : Int)
  | _ => True

/-- The steps that lose nothing that is raised for an instance. -/
def Delivers (instanceId : String) (world : World semver) (label : Step semver) : Prop :=
  (continuedBatches semver instanceId).guard world label ∧ Sees (·.opens) instanceId world label

theorem OrchestratorRow.opens_of_continues {row : OrchestratorRow} (continues : row.continues) : row.opens := by
  obtain ⟨item, read, holds⟩ := (Option.any_eq_true _ _).mp continues
  refine (Option.any_eq_true _ _).mpr ⟨item, read, ?_⟩
  cases item <;> first | rfl | cases holds

/-- What holds of the queue and the executions of an instance in guarded runs. -/
structure Orderly (instanceId : String) (store : Store) : Prop where
  marked : ∀ lock, store.instanceLocks.lookup instanceId = some lock → ∀ row ∈ store.rowsOf instanceId, row.continues →
    row.lockToken = some lock.lockToken
  unfinished : ∀ row ∈ store.rowsOf instanceId, row.continues → isFinished (store.currentEvents instanceId) = false
  continued : Ended store instanceId → isFinished (store.currentEvents instanceId) = false →
    ∃ row ∈ store.rowsOf instanceId, row.continues
  carried : ∀ executionId, isFinished (store.recorded instanceId executionId) = false →
    carriedArrivals (store.recorded instanceId executionId) <+: arrivals (store.recorded instanceId executionId)

/-- Everything that is known of a guarded run. -/
structure Delivering (instanceId : String) (world : World semver) : Prop
    extends QueuedActivities.Surroundings (continuedBatches semver instanceId) world where
  batches : HoldsBatches world
  orderly : Orderly instanceId world.store

/-- The batch of an instance in the hands of its lock's holder: the rows that the lock's token marks. -/
theorem messages_eq (coherent : Coherent world) (batches : HoldsBatches world) {delivery : Delivery semver}
    {lock : InstanceLock} (found : world.store.instanceLocks.lookup instanceId = some lock)
    (holds : world.deliveries lock.lockToken = some delivery) :
    delivery.item.messages =
      ((world.store.rowsOf instanceId).filter (·.lockToken == some lock.lockToken)).filterMap (·.decoded) := by
  rw [← batches instanceId lock delivery found holds, Store.batch, Store.rowsOf, List.filter_filter]
  refine congrArg _ (List.filter_congr fun row member => ?_)
  cases marked : row.lockToken == some lock.lockToken
  · rfl
  · have own := coherent.queueSound.owned row member instanceId lock found (beq_iff_eq.mp marked)
    rw [own, beq_self_eq_true]
    rfl

/-- What a commit for an instance does whose execution is unfinished after it. -/
structure Advances (instanceId : String) (before after : Store) (delivery : Delivery semver) (request : AckRequest semver) :
    Prop where
  own : delivery.item.instanceId = instanceId
  history : Ascending delivery.item.history
  named : (workitemReader delivery.item).hasOrchestrationName
  proceeds : Proceeds delivery.item request
  resumes : isTerminalFor (tempHistoryMgr delivery.item) (workitemReader delivery.item) = false
  base : baseHistory delivery.item request.executionId = before.recorded instanceId request.executionId
  appended : after.recorded instanceId request.executionId =
    before.recorded instanceId request.executionId ++ request.historyDelta
  baseUnfinished : isFinished (before.recorded instanceId request.executionId) = false
  unfinished : isFinished request.historyDelta = false
  previous : isFinished (before.currentEvents instanceId) = false

/-- The history of an item is that of the current execution, or nothing. -/
theorem Lifecycle.history_of_describes (lifecycle : Lifecycle world) {item : OrchestrationItem}
    (describes : Describes world.store item) :
    item.history = [] ∨ item.history = world.store.currentEvents item.instanceId := by
  have described := describes
  cases describes with
  | known info row current named versioned readable history =>
    right
    rw [Store.currentEvents, currentExecution_of_row row]
    exact Store.recorded_of_readHistory history
  | unreadable info row current named versioned failed empty => exact .inl empty
  | recorded noRow | requested noRow => exact .inl (lifecycle.describes_of_noRow described noRow).2.2

namespace Delivering

variable {delivery : Delivery semver} {request : AckRequest semver}

/-- The holder of a lock continues its instance as new if the queue does. -/
theorem isContinueAsNew (delivering : Delivering instanceId world) {lock : InstanceLock}
    (found : world.store.instanceLocks.lookup instanceId = some lock)
    (holds : world.deliveries lock.lockToken = some delivery)
    (continued : delivery.item.messages.any isContinuation → (workitemReader delivery.item).isContinueAsNew)
    {row : OrchestratorRow} (member : row ∈ world.store.rowsOf instanceId) (continues : row.continues) :
    (workitemReader delivery.item).isContinueAsNew := by
  obtain ⟨item, read, continuation⟩ := (Option.any_eq_true _ _).mp continues
  refine continued (List.any_eq_true.mpr ⟨item, ?_, continuation⟩)
  rw [messages_eq delivering.coherent delivering.batches found holds]
  have marked := delivering.orderly.marked lock found row member continues
  exact List.mem_filterMap.mpr ⟨row, List.mem_filter.mpr ⟨member, beq_iff_eq.mpr marked⟩, read⟩

/-- A batch that continues its instance as new comes from a row that does. -/
theorem exists_continues (delivering : Delivering instanceId world) {lock : InstanceLock}
    (found : world.store.instanceLocks.lookup instanceId = some lock)
    (holds : world.deliveries lock.lockToken = some delivery)
    (continues : (workitemReader delivery.item).isContinueAsNew) :
    ∃ row ∈ world.store.rowsOf instanceId, row.continues := by
  obtain ⟨_, _, _, _, _, _, listed, _⟩ := continuation_of_continues continues
  rw [messages_eq delivering.coherent delivering.batches found holds] at listed
  obtain ⟨row, marked, read⟩ := List.mem_filterMap.mp listed
  exact ⟨row, (List.mem_filter.mp marked).1, (Option.any_eq_true _ _).mpr ⟨_, read, rfl⟩⟩

/-- Over an unfinished execution, the holder of a lock takes its turn. -/
theorem resumes (delivering : Delivering instanceId world) {lock : InstanceLock}
    (found : world.store.instanceLocks.lookup instanceId = some lock)
    (holds : world.deliveries lock.lockToken = some delivery) (own : delivery.item.instanceId = instanceId)
    (describes : Describes world.store delivery.item)
    (continued : delivery.item.messages.any isContinuation → (workitemReader delivery.item).isContinueAsNew)
    (unfinished : isFinished (world.store.currentEvents instanceId) = false) :
    isTerminalFor (tempHistoryMgr delivery.item) (workitemReader delivery.item) = false := by
  refine Bool.eq_false_iff.mpr fun terminal => ?_
  have ended := ended_of_isTerminalFor terminal
  have current : delivery.item.history = world.store.currentEvents instanceId := by
    rw [← own]
    refine (delivering.lifecycle.history_of_describes describes).resolve_left fun empty => ended ?_
    rw [empty]
    rfl
  rcases finished_of_isTerminalFor terminal with finished | stays
  · rw [current, unfinished] at finished
    cases finished
  · rw [current] at ended
    obtain ⟨row, member, continues⟩ := delivering.orderly.continued (Bool.not_eq_false _ |>.mp ended) unfinished
    rw [delivering.isContinueAsNew found holds continued member continues] at stays
    cases stays

theorem placed (delivering : Delivering instanceId world)
    (commits : Commits world label delivery request instanceId after) : Lifecycle.Placed world.store instanceId request :=
  delivering.lifecycle.placed delivering.provenance delivering.coherent delivering.pending commits

/-- A commit is by the holder of its instance's lock, who asks for it with the batch of the instance. -/
theorem holder (delivering : Delivering instanceId world)
    (commits : Commits world label delivery request instanceId after) :
    ∃ now lock, world.store.instanceLocks.lookup instanceId = some lock ∧
      world.deliveries lock.lockToken = some delivery ∧
      Acked world.store now lock.lockToken instanceId request after.store ∧
      delivery.item.instanceId = instanceId ∧ Describes world.store delivery.item ∧ Ascending delivery.item.history ∧
      Asks.Source (continuedBatches semver instanceId) delivery.item delivery.attemptCount request := by
  obtain ⟨config, now, token, fault, _, holds, committed, _⟩ := commits.holds
  obtain ⟨fallback, failed, phase⟩ := commits.phase
  obtain ⟨own, describes⟩ := delivering.coherent.of_locked committed.locked holds
  have source := (delivering.pending token delivery request fallback failed holds phase).source
  have history := (delivering.provenance.items token delivery holds).ordered
  obtain ⟨lock, found, rfl, _⟩ := committed.held
  exact ⟨now, lock, found, holds, committed, own, describes, history, source⟩

/-- Before a commit after which its execution is unfinished, the current execution was so too. -/
theorem previous_unfinished (delivering : Delivering instanceId world)
    (commits : Commits world label delivery request instanceId after)
    (unfinished : isFinished (after.store.currentEvents instanceId) = false) :
    isFinished (world.store.currentEvents instanceId) = false := by
  have placed := delivering.placed commits
  obtain ⟨now, lock, found, holds, committed, rfl, describes, history, source⟩ := delivering.holder commits
  rcases placed.previous with same | next
  · refine Bool.eq_false_iff.mpr fun finished => ?_
    rw [Store.currentEvents, ← same] at finished
    rw [Store.currentEvents, placed.currentExecution committed] at unfinished
    rw [isFinished_mono (fun event member => (mem_recorded_iff committed).mpr (.inl member)) finished] at unfinished
    cases unfinished
  · rw [← describes.executionId_eq] at next
    have continues := (source.execution.resolve_left (by omega)).2
    obtain ⟨row, member, continues⟩ := delivering.exists_continues found holds continues
    exact delivering.orderly.unfinished row member continues

/-- A commit that leaves its execution unfinished extends the events that its turn was based on. -/
theorem advances (delivering : Delivering instanceId world)
    (commits : Commits world label delivery request instanceId after)
    (unfinished : isFinished (after.store.currentEvents instanceId) = false) :
    Advances instanceId world.store after.store delivery request := by
  have previous := delivering.previous_unfinished commits unfinished
  have extended := delivering.lifecycle.extended delivering.provenance delivering.coherent delivering.pending commits
  obtain ⟨now, lock, found, holds, committed, own, describes, history, source⟩ := delivering.holder commits
  obtain ⟨named, continued⟩ := source.continued own
  rw [Store.currentEvents, (delivering.placed commits).currentExecution committed] at unfinished
  have kept : ∀ {events : List Event}, events ⊆ after.store.recorded instanceId request.executionId →
      isFinished events = false :=
    fun contains => Bool.eq_false_iff.mpr fun finished => by
      rw [isFinished_mono contains finished] at unfinished
      cases unfinished
  have delta := kept fun event member => (mem_recorded_iff committed).mpr (.inr member)
  have resumes := delivering.resumes found holds own describes continued previous
  have extension : baseHistory delivery.item request.executionId = world.store.recorded instanceId request.executionId ∧
      after.store.recorded instanceId request.executionId =
        world.store.recorded instanceId request.executionId ++ request.historyDelta := by
    rw [← own]
    cases extended with
    | unchanged readable same empty nothing kept =>
      refine absurd nothing (source.opens history ?_ named)
      rw [same, baseHistory_self, empty]
    | corrupted info row current message unreadable event recorded numbered fails =>
      rw [recorded] at delta
      rw [isFinished_of_mem (List.mem_singleton_self _) (by rw [fails]; exact Bool.or_true _)] at delta
      cases delta
    | continued readable same base appended =>
      rw [appended, base, same, baseHistory_self]
      exact ⟨rfl, rfl⟩
    | opened readable continues next info row current named base appended =>
      rw [appended, base, next, baseHistory_next]
      exact ⟨rfl, rfl⟩
  exact ⟨own, history, named, source.proceeds history, resumes, extension.1, extension.2,
    kept fun event member => (mem_recorded_iff committed).mpr (.inl member), delta, previous⟩

end Delivering

theorem SameExecutions.currentEvents {before after : Store} (same : SameExecutions before after instanceId) :
    after.currentEvents instanceId = before.currentEvents instanceId := currentEvents_congr same.row same.recorded

/-- A fetch marks what it sees. -/
theorem markedRow_of_visible {store : Store} {now token : Nat} {row : OrchestratorRow}
    (member : row ∈ store.rowsOf instanceId) (visible : row.visibleAt ≤ (now : Int)) :
    (markedRow now instanceId token row).lockToken = some token := by
  rw [markedRow, if_pos (by simp [(mem_rowsOf.mp member).2, visible])]

/-- The rows of an instance after a commit: those that the lock's token does not mark, and the new ones. -/
theorem mem_rowsOf_of_committed {before result : Store} {now token : Nat} {request : AckRequest semver}
    (committed : Acked before now token instanceId request result) {row : OrchestratorRow} :
    row ∈ result.rowsOf instanceId ↔ row ∈ before.rowsOf instanceId ∧ row.lockToken ≠ some token ∨
      row.instanceId = instanceId ∧ row ∈ enqueuedRows (visibleFrom now) before.nextOrchestratorId
        (request.orchestratorItems.filter (!isActivityExecute ·)) := by
  simp only [mem_rowsOf, committed.queue, List.mem_append, List.mem_filter, Bool.not_eq_true', beq_eq_false_iff_ne]
  tauto

namespace Orderly

variable {delivery : Delivery semver} {request : AckRequest semver}

theorem initial : Orderly instanceId {} where
  marked _ found := by simp at found
  unfinished _ member := absurd member List.not_mem_nil
  continued ended := nomatch ended
  carried _ _ := List.prefix_rfl

/-- An instance whose executions are left alone stays in order with its queue. -/
theorem of_same {before after : Store} (orderly : Orderly instanceId before)
    (same : SameExecutions before after instanceId)
    (marked : ∀ lock, after.instanceLocks.lookup instanceId = some lock → ∀ row ∈ after.rowsOf instanceId, row.continues →
      row.lockToken = some lock.lockToken)
    (original : ∀ row ∈ after.rowsOf instanceId, row.continues → ∃ old ∈ before.rowsOf instanceId, old.continues)
    (kept : ∀ row ∈ before.rowsOf instanceId, row.continues → ∃ later ∈ after.rowsOf instanceId, later.continues) :
    Orderly instanceId after where
  marked := marked
  unfinished row member continues := by
    obtain ⟨old, listed, continued⟩ := original row member continues
    rw [same.currentEvents]
    exact orderly.unfinished old listed continued
  continued ended unfinished := by
    rw [Ended, same.currentEvents] at ended
    rw [same.currentEvents] at unfinished
    obtain ⟨row, member, continues⟩ := orderly.continued ended unfinished
    exact kept row member continues
  carried executionId := by
    rw [same.recorded]
    exact orderly.carried executionId

/-- Rows that are changed and added leave an instance in order. -/
theorem of_changed {before after : Store} (orderly : Orderly instanceId before)
    (same : SameExecutions before after instanceId)
    {change : OrchestratorRow → OrchestratorRow} {added : List OrchestratorRow}
    (rows : after.rowsOf instanceId = (before.rowsOf instanceId).map change ++ added)
    (decoded : ∀ row, (change row).decoded = row.decoded) (tokens : ∀ row, (change row).lockToken = row.lockToken)
    (locks : ∀ lock, after.instanceLocks.lookup instanceId = some lock →
      ∃ original, before.instanceLocks.lookup instanceId = some original ∧ original.lockToken = lock.lockToken)
    (plain : ∀ row ∈ added, row.continues = false) : Orderly instanceId after := by
  have continues : ∀ row, (change row).continues = row.continues :=
    fun row => congrArg (·.any isContinuation) (decoded row)
  have original : ∀ row ∈ after.rowsOf instanceId, row.continues →
      ∃ old ∈ before.rowsOf instanceId, old.continues ∧ old.lockToken = row.lockToken := by
    intro row member continuing
    rw [rows] at member
    rcases List.mem_append.mp member with kept | new
    · obtain ⟨old, listed, rfl⟩ := List.mem_map.mp kept
      exact ⟨old, listed, by rwa [← continues], (tokens old).symm⟩
    · rw [plain row new] at continuing
      cases continuing
  refine orderly.of_same same ?_ ?_ ?_
  · intro lock found row member continuing
    obtain ⟨held, was, token⟩ := locks lock found
    obtain ⟨old, listed, oldContinues, sameToken⟩ := original row member continuing
    rw [← sameToken, ← token]
    exact orderly.marked held was old listed oldContinues
  · intro row member continuing
    obtain ⟨old, listed, oldContinues, _⟩ := original row member continuing
    exact ⟨old, listed, oldContinues⟩
  · intro row member continuing
    rw [rows]
    exact ⟨change row, List.mem_append_left _ (List.mem_map_of_mem member), by rwa [continues]⟩

/-- A fetch that sees what continues the instance marks it. -/
theorem of_fetched {before after : Store} (orderly : Orderly instanceId before)
    (same : SameExecutions before after instanceId)
    {now token : Nat}
    (rows : after.rowsOf instanceId = (before.rowsOf instanceId).map (markedRow now instanceId token))
    (locked : ∀ lock, after.instanceLocks.lookup instanceId = some lock → lock.lockToken = token)
    (sees : ∀ row ∈ before.rowsOf instanceId, row.opens → row.visibleAt ≤ (now : Int)) :
    Orderly instanceId after := by
  have continues : ∀ row, (markedRow now instanceId token row).continues = row.continues :=
    fun row => congrArg (·.any isContinuation) (markedRow_decoded ..)
  have original : ∀ row ∈ after.rowsOf instanceId, row.continues →
      ∃ old ∈ before.rowsOf instanceId, old.continues ∧ markedRow now instanceId token old = row := by
    intro row member continuing
    rw [rows] at member
    obtain ⟨old, listed, rfl⟩ := List.mem_map.mp member
    exact ⟨old, listed, by rwa [← continues], rfl⟩
  refine orderly.of_same same ?_ ?_ ?_
  · intro lock found row member continuing
    obtain rfl := locked lock found
    obtain ⟨old, listed, oldContinues, rfl⟩ := original row member continuing
    exact markedRow_of_visible listed (sees old listed (OrchestratorRow.opens_of_continues oldContinues))
  · intro row member continuing
    obtain ⟨old, listed, oldContinues, _⟩ := original row member continuing
    exact ⟨old, listed, oldContinues⟩
  · intro row member continuing
    rw [rows]
    exact ⟨_, List.mem_map_of_mem member, by rwa [continues]⟩

/-- Orphans are dropped only where nothing continues the instance. -/
theorem of_dropped {before after : Store} (orderly : Orderly instanceId before)
    (same : SameExecutions before after instanceId)
    {now : Nat}
    (rows : after.rowsOf instanceId = (before.rowsOf instanceId).filter fun row => !(row.visibleAt ≤ (now : Int)))
    (orphans : ∀ row ∈ before.rowsOf instanceId, row.visibleAt ≤ (now : Int) → ∀ item ∈ row.decoded, isQueueMessage item)
    (released : after.instanceLocks.lookup instanceId = none)
    (sees : ∀ row ∈ before.rowsOf instanceId, row.opens → row.visibleAt ≤ (now : Int)) :
    Orderly instanceId after := by
  refine orderly.of_same same ?_ ?_ ?_
  · intro lock found
    rw [released] at found
    cases found
  · intro row member continuing
    rw [rows] at member
    exact ⟨row, List.mem_of_mem_filter member, continuing⟩
  · intro row member continuing
    obtain ⟨item, read, continuation⟩ := (Option.any_eq_true _ _).mp continuing
    have orphan := orphans row member (sees row member (OrchestratorRow.opens_of_continues continuing)) item read
    cases item <;> first | (cases orphan; done) | cases continuation

end Orderly

namespace Advances

variable {delivery : Delivery semver} {request : AckRequest semver}

/-- A commit takes in the batch of its instance. -/
theorem takesIn {before after : Store} (advances : Advances instanceId before after delivery request)
    (orderly : Orderly instanceId before) :
    TakesIn (before.recorded instanceId request.executionId) request.historyDelta delivery.item.messages := by
  have carried := orderly.carried request.executionId advances.baseUnfinished
  rw [← advances.base] at carried ⊢
  exact advances.proceeds.takesIn advances.named advances.resumes advances.unfinished carried

/-- The execution that a commit is about goes on before it. -/
theorem goesOn (delivering : Delivering instanceId world) (commits : Commits world label delivery request instanceId after)
    (advances : Advances instanceId world.store after.store delivery request) :
    GoesOn (world.store.recorded instanceId request.executionId) := by
  obtain ⟨now, lock, found, holds, committed, own, describes, history, source⟩ := delivering.holder commits
  obtain ⟨_, continued⟩ := source.continued own
  have current := describes.executionId_eq
  rw [own] at current
  rcases (delivering.placed commits).previous with same | next
  · refine Bool.eq_false_iff.mpr fun ends => ?_
    rw [same] at ends
    obtain ⟨row, member, continues⟩ := delivering.orderly.continued ends advances.previous
    have opens := advances.proceeds.executionId_of_continues advances.named advances.resumes advances.unfinished
      (delivering.isContinueAsNew found holds continued member continues)
    omega
  · rw [← advances.base, next, ← current, baseHistory_next]
    rfl

end Advances

namespace Delivering

variable {delivery : Delivery semver} {request : AckRequest semver}

/-- A commit that continues its instance as new leaves the execution unfinished. -/
theorem unfinished_of_committed (delivering : Delivering instanceId world)
    (commits : Commits world label delivery request instanceId after) {row : OrchestratorRow}
    (member : row ∈ after.store.rowsOf instanceId) (continues : row.continues) :
    isFinished (after.store.currentEvents instanceId) = false := by
  obtain ⟨now, lock, found, holds, committed, own, describes, history, source⟩ := delivering.holder commits
  rw [Store.currentEvents, (delivering.placed commits).currentExecution committed]
  rcases (mem_rowsOf_of_committed committed).mp member with ⟨old, other⟩ | ⟨_, new⟩
  · exact absurd (delivering.orderly.marked lock found row old continues) other
  · obtain ⟨_, _, _, _, asked, _⟩ := QueueSound.mem_enqueuedRows new
    have listed := (List.mem_filter.mp asked).1
    have continuation := OrchestratorRow.isContinuation_of_continues continues
    obtain ⟨_, orchestration, starts⟩ := Succession.continues_of_enqueued delivering.provenance delivering.coherent
      delivering.pending commits listed continuation
    have unended := Succession.unended_of_continues delivering.lifecycle delivering.provenance delivering.coherent
      delivering.pending commits starts
    refine List.any_eq_false.mpr fun event recorded finishes => ?_
    rcases (mem_recorded_iff committed).mp recorded with base | delta
    · refine List.any_eq_false.mp unended event base ?_
      rw [Event.isTerminal]
      cases kind : event.kind <;> rw [kind] at finishes <;> first | rfl | cases finishes
    · have goesOn := (source.proceeds history).unfinished_of_continues history listed continuation
      exact List.any_eq_false.mp goesOn event delta finishes

/-- A commit that ends an execution without finishing it leaves a row that continues the instance. -/
theorem continued_of_committed (delivering : Delivering instanceId world)
    (commits : Commits world label delivery request instanceId after) (ended : Ended after.store instanceId)
    (unfinished : isFinished (after.store.currentEvents instanceId) = false) :
    ∃ row ∈ after.store.rowsOf instanceId, row.continues := by
  have advances := delivering.advances commits unfinished
  have goesOn := advances.goesOn delivering commits
  obtain ⟨now, _, _, _, committed, _⟩ := delivering.holder commits
  obtain ⟨event, recorded, terminal⟩ := List.any_eq_true.mp ended
  rw [Store.currentEvents, (delivering.placed commits).currentExecution committed] at recorded
  have delta : event ∈ request.historyDelta := by
    refine ((mem_recorded_iff committed).mp recorded).resolve_left fun base => ?_
    exact List.any_eq_false.mp goesOn event base terminal
  obtain ⟨item, listed, continuation⟩ := advances.proceeds.continues_of_ended advances.history advances.named
    advances.resumes advances.unfinished (List.any_eq_true.mpr ⟨event, delta, terminal⟩)
  have enqueued : item ∈ request.orchestratorItems.filter (!isActivityExecute ·) := by
    refine List.mem_filter.mpr ⟨listed, ?_⟩
    cases item <;> first | rfl | cases continuation
  obtain ⟨row, new, target, read⟩ := mem_enqueuedRows_of_mem (visibleFrom now) enqueued world.store.nextOrchestratorId
  obtain ⟨own, _⟩ := Succession.continues_of_enqueued delivering.provenance delivering.coherent delivering.pending commits
    listed continuation
  exact ⟨row, (mem_rowsOf_of_committed committed).mpr (.inr ⟨target.trans own, new⟩),
    (Option.any_eq_true _ _).mpr ⟨item, read, continuation⟩⟩

/-- A commit for an instance leaves it in order. -/
theorem orderly_of_committed (delivering : Delivering instanceId world)
    (commits : Commits world label delivery request instanceId after) : Orderly instanceId after.store := by
  obtain ⟨now, _, _, _, committed, _⟩ := delivering.holder commits
  constructor
  · intro lock found
    rw [committed.released] at found
    cases found
  · exact fun row member continues => delivering.unfinished_of_committed commits member continues
  · exact delivering.continued_of_committed commits
  · intro executionId goesOn
    by_cases same : executionId = request.executionId
    · subst same
      have advances := delivering.advances commits
        (by rwa [Store.currentEvents, (delivering.placed commits).currentExecution committed])
      rw [advances.appended]
      exact (advances.takesIn delivering.orderly).carried
    · have other := @recorded_other _ _ _ _ _ _ _ committed instanceId executionId fun both => same (Prod.mk.inj both).2
      rw [other] at goesOn ⊢
      exact delivering.orderly.carried executionId goesOn

theorem orderly_step (delivering : Delivering instanceId world) (effect : Effect world label after)
    (sees : Sees (·.opens) instanceId world label) : Orderly instanceId after.store := by
  have orderly := delivering.orderly
  cases @Effect.turnover _ _ _ _ instanceId _ effect delivering.toSurroundings with
  | changed change added rows decoded tokens locks unmarked plain raised same =>
    exact orderly.of_changed same rows decoded tokens locks plain
  | fetched config filter now lockTimeoutMs token fault taken rows locked same =>
    rw [taken] at sees
    exact orderly.of_fetched same rows locked sees
  | dropped config filter now lockTimeoutMs token fault taken noRow orphans rows released same =>
    rw [taken] at sees
    exact orderly.of_dropped same rows orphans released sees
  | committed delivery request commits => exact delivering.orderly_of_committed commits

theorem of_reachable (reached : (system semver).Reachable (Delivers instanceId) world) : Delivering instanceId world := by
  induction reached with
  | initial start =>
    have reached : (system semver).Reachable (continuedBatches semver instanceId).guard _ := .initial start
    subst start
    exact ⟨.of_reachable reached, HoldsBatches.initial, .initial⟩
  | step reached allowed taken ih =>
    have guarded := (Lib.TransitionSystem.Reachable.step reached allowed taken).mono fun _ _ => And.left
    exact ⟨.of_reachable guarded, .of_reachable guarded, ih.orderly_step (World.step_effect taken) allowed.2⟩

end Delivering

end Duroxide
