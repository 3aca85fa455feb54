import Duroxide.Proofs.HandedOver
import Duroxide.Proofs.Succession

/-! # What an execution waits for is under way

An activity of an execution that goes on is in the worker queue, in a message to its instance, or closed by the
history; a timer is in a message, or has fired. Commits hand both from one of these places to the next, as long as a
batch for an execution names its orchestration. The worker that takes a failed renewal for a cancellation does not:
nobody had cancelled the activity whose row it deletes, and it is lost for good.
-/

namespace Duroxide

open Provider Dispatcher ReplayEngine

variable {semver : Semver} {world after : World semver} {label : Step semver}

/-! ## Executions that go on -/

/-- An execution that goes on is the current one of its instance, and one that schedules something has started. -/
structure Executions (store : Store) : Prop where
  current : ∀ instanceId executionId, store.recorded instanceId executionId ≠ [] →
    GoesOn (store.recorded instanceId executionId) → executionId = store.currentExecution instanceId
  started : ∀ instanceId executionId, ∀ event ∈ store.recorded instanceId executionId, event.kind.isSchedule →
    ∃ first ∈ store.recorded instanceId executionId, first.kind.isStarted

/-- The condition on batches: one for an execution that has begun names its orchestration. -/
def namedBatches (semver : Semver) : Conditions semver where
  decide _ item _ := item.history ≠ [] → (workitemReader item).hasOrchestrationName

theorem Asks.Source.named {item : OrchestrationItem} {attemptCount : Nat} {request : AckRequest semver}
    (source : Asks.Source (namedBatches semver) item attemptCount request) :
    item.history ≠ [] → (workitemReader item).hasOrchestrationName := by
  cases source with
  | answer env allowed => exact allowed
  | failure env allowed => exact allowed

/-- A message in the queue of an instance reports a schedule of an execution. -/
def Arrives (store : Store) (instanceId : String) (executionId : Nat) (kind : String) (id : Nat) : Prop :=
  ∃ row ∈ store.orchestratorQueue, row.instanceId = instanceId ∧
    ∃ message ∈ row.decoded, message.completion = some (executionId, kind, id)

/-- What is known of every world of a run whose batches name their orchestrations. -/
structure Grounds (world : World semver) : Prop extends QueuedActivities.Surroundings (namedBatches semver) world where
  batches : HoldsBatches world
  succession : Succession world
  executions : Executions world.store

namespace Grounds

open QueuedActivities

variable {delivery : Delivery semver} {request : AckRequest semver} {instanceId : String} {executionId : Nat}

/-- What was recorded stays. -/
theorem recorded_subset (effect : Effect world label after) (instanceId : String) (executionId : Nat) :
    world.store.recorded instanceId executionId ⊆ after.store.recorded instanceId executionId := by
  rcases effect.records with same | ⟨delivery, request, acked, commits⟩
  · rw [Store.recorded, Store.recorded, same.history]
    exact List.Subset.refl _
  · obtain ⟨_, _, _, _, _, _, committed, _⟩ := commits.holds
    by_cases own : (instanceId, executionId) = (acked, request.executionId)
    · obtain ⟨rfl, rfl⟩ := Prod.mk.inj own
      exact fun event member => (mem_recorded_iff committed).mpr (.inl member)
    · rw [recorded_other committed own]
      exact List.Subset.refl _

/-- A commit to an execution that schedules something, and goes on, appends to what its holder had read. -/
theorem appended (grounds : Grounds world) (effect : Effect world label after)
    (commits : Commits world label delivery request instanceId after)
    (goesOn : GoesOn (after.store.recorded instanceId request.executionId)) {event : Event}
    (member : event ∈ after.store.recorded instanceId request.executionId) (schedules : event.kind.isSchedule) :
    world.store.recorded instanceId request.executionId = baseHistory delivery.item request.executionId ∧
      after.store.recorded instanceId request.executionId =
        baseHistory delivery.item request.executionId ++ request.historyDelta := by
  obtain ⟨now, token, ⟨holds, committed, rfl, accounts, extended, ordered⟩, _⟩ :=
    committing grounds.toSurroundings effect commits
  obtain ⟨_, describes⟩ := grounds.coherent.of_locked committed.locked holds
  cases extended with
  | unchanged readable same empty nothing kept =>
    rw [kept] at member ⊢
    have unrecorded : ∀ executionId, world.store.instances delivery.item.instanceId = none →
        event ∉ world.store.recorded delivery.item.instanceId executionId := by
      intro executionId noRow recorded
      obtain ⟨first, begun, started⟩ := grounds.executions.started _ _ event recorded schedules
      rw [grounds.lifecycle.notRecorded noRow _ first begun] at started
      cases started
    cases describes with
    | known info row current named versioned readable history =>
      rw [same, current, ← Store.recorded_of_readHistory history, empty] at member
      exact absurd member List.not_mem_nil
    | unreadable info row current named versioned failed => exact nomatch readable ▸ failed
    | recorded noRow | requested noRow => exact absurd member (unrecorded _ noRow)
  | corrupted info row current message unreadable failed delta numbered isFailed =>
    have recorded := (mem_recorded_iff committed).mpr (.inr (delta ▸ List.mem_singleton_self failed))
    have unended := goesOn.of_mem recorded
    cases kind : failed.kind <;> rw [kind] at unended isFailed <;> first | cases isFailed; done | cases unended
  | continued readable same base appended =>
    rw [appended, base, same, baseHistory_self]
    exact ⟨rfl, rfl⟩
  | opened readable continues next info row current named base appended =>
    rw [appended, base, next, baseHistory_next]
    exact ⟨rfl, rfl⟩

/-- A commit finds and leaves at most one execution of its instance that goes on. -/
theorem current_of_commits (grounds : Grounds world) (commits : Commits world label delivery request instanceId after)
    (recorded : after.store.recorded instanceId executionId ≠ [])
    (goesOn : GoesOn (after.store.recorded instanceId executionId)) : executionId = request.executionId := by
  have placed := grounds.lifecycle.placed grounds.provenance grounds.coherent grounds.pending commits
  obtain ⟨_, _, _, _, _, _, committed, _⟩ := commits.holds
  by_contra other
  rw [recorded_other committed fun same => other (Prod.mk.inj same).2] at recorded goesOn
  have current := grounds.executions.current instanceId executionId recorded goesOn
  rcases placed.previous with same | next
  · exact other (current.trans same.symm)
  · have ended := grounds.succession.ended_of_next grounds.coherent grounds.pending grounds.batches commits next
    rw [Ended, Store.currentEvents, ← current] at ended
    exact absurd (show _ = false from goesOn) (ne_false_of_eq_true ended)

/-- A commit to an execution that goes on hands over what it waits for. -/
theorem handsOver (grounds : Grounds world) (commits : Commits world label delivery request instanceId after)
    (goesOn : GoesOn (baseHistory delivery.item request.executionId ++ request.historyDelta)) :
    delivery.item.instanceId = instanceId ∧ HandsOver delivery.item request := by
  obtain ⟨_, _, token, _, _, holds, committed, _⟩ := commits.holds
  obtain ⟨fallback, failed, phase⟩ := commits.phase
  have source := (grounds.pending token delivery request fallback failed holds phase).source
  exact ⟨(grounds.coherent.of_locked committed.locked holds).1,
    source.handsOver (grounds.provenance.items token delivery holds).ordered source.named goesOn⟩

/-- What a commit schedules stands behind the start of its execution. -/
theorem started_of_commits (grounds : Grounds world) (effect : Effect world label after)
    (commits : Commits world label delivery request instanceId after) {event : Event}
    (member : event ∈ request.historyDelta) (schedules : event.kind.isSchedule) :
    ∃ first ∈ after.store.recorded instanceId request.executionId, first.kind.isStarted := by
  obtain ⟨now, token, ⟨holds, committed, rfl, accounts, extended, ordered⟩, fallback, failed, phase⟩ :=
    committing grounds.toSurroundings effect commits
  have source := (grounds.pending token delivery request fallback failed holds phase).source
  obtain ⟨first, begun, started⟩ :=
    source.schedulesStarted (grounds.provenance.items token delivery holds).ordered member schedules
  refine ⟨first, ?_, started⟩
  rcases List.mem_append.mp begun with base | new
  swap
  · exact (mem_recorded_iff committed).mpr (.inr new)
  cases extended with
  | unchanged readable same empty nothing =>
    rw [nothing] at member
    exact absurd member List.not_mem_nil
  | corrupted info row current message unreadable failed delta numbered isFailed =>
    rw [delta] at member
    rw [List.mem_singleton.mp member] at schedules
    cases kind : failed.kind <;> rw [kind] at schedules isFailed <;> first | cases isFailed; done | cases schedules
  | continued readable same history appended =>
    rw [same, baseHistory_self] at base
    rw [appended]
    exact List.mem_append_left _ base
  | opened readable continues next info row current named none appended =>
    rw [next, baseHistory_next] at base
    exact absurd base List.not_mem_nil

theorem executions_step (grounds : Grounds world) (effect : Effect world label after) : Executions after.store := by
  rcases effect.records with same | ⟨delivery, request, acked, commits⟩
  · have kept : ∀ instanceId executionId, after.store.recorded instanceId executionId =
        world.store.recorded instanceId executionId := by
      intro instanceId executionId
      rw [Store.recorded, Store.recorded, same.history]
    constructor
    · intro instanceId executionId
      rw [kept, Store.currentExecution, same.instances]
      exact grounds.executions.current instanceId executionId
    · intro instanceId executionId
      rw [kept]
      exact grounds.executions.started instanceId executionId
  · have placed := grounds.lifecycle.placed grounds.provenance grounds.coherent grounds.pending commits
    obtain ⟨_, _, _, _, _, _, committed, _⟩ := commits.holds
    constructor
    · intro instanceId executionId recorded goesOn
      by_cases own : instanceId = acked
      · subst own
        rw [placed.currentExecution committed]
        exact grounds.current_of_commits commits recorded goesOn
      · rw [recorded_other committed fun same => own (Prod.mk.inj same).1] at recorded goesOn
        rw [Store.currentExecution, committed.otherInstances instanceId own]
        exact grounds.executions.current instanceId executionId recorded goesOn
    · intro instanceId executionId event member schedules
      by_cases own : (instanceId, executionId) = (acked, request.executionId)
      · obtain ⟨rfl, rfl⟩ := Prod.mk.inj own
        rcases (mem_recorded_iff committed).mp member with old | new
        · obtain ⟨first, begun, started⟩ := grounds.executions.started _ _ event old schedules
          exact ⟨first, (mem_recorded_iff committed).mpr (.inl begun), started⟩
        · exact grounds.started_of_commits effect commits new schedules
      · rw [recorded_other committed own] at member ⊢
        exact grounds.executions.started instanceId executionId event member schedules

theorem of_reachable (reached : (system semver).Reachable (namedBatches semver).guard world) : Grounds world := by
  induction reached with
  | initial start =>
    subst start
    refine ⟨.of_reachable (.initial rfl), .initial, .initial, fun _ _ recorded => absurd rfl recorded, ?_⟩
    exact fun _ _ _ none => absurd none List.not_mem_nil
  | step reached allowed taken ih =>
    have further := Lib.TransitionSystem.Reachable.step reached allowed taken
    exact ⟨.of_reachable further, .of_reachable further, .of_reachable further,
      ih.executions_step (World.step_effect taken)⟩

/-! ## Messages -/

/-- A message of the queue is still there after a step, or in the batch of a commit. -/
theorem arrives_of_effect (grounds : Grounds world) (effect : Effect world label after) {kind : String} {id : Nat}
    (arrives : Arrives world.store instanceId executionId kind id) :
    Arrives after.store instanceId executionId kind id ∨ ∃ delivery request,
      Commits world label delivery request instanceId after ∧
        ∃ message ∈ delivery.item.messages, message.completion = some (executionId, kind, id) := by
  obtain ⟨row, queued, rfl, message, read, completion⟩ := arrives
  cases effect.fate grounds.coherent grounds.batches queued with
  | kept later member same sameInstance decoded =>
    exact .inl ⟨later, member, sameInstance, message, decoded ▸ read, completion⟩
  | committed delivery request commits listed =>
    exact .inr ⟨delivery, request, commits, message, listed message read, completion⟩
  | orphaned noRow orphan =>
    have isMessage := orphan message read
    cases message <;> first | cases completion; done | cases isMessage

/-- An execution takes the report of a schedule into its history, as long as it goes on. -/
theorem arrives_step (grounds : Grounds world) (effect : Effect world label after) {kind : String} {id : Nat}
    (goesOn : GoesOn (after.store.recorded instanceId executionId))
    (scheduled : scheduleKindOf (world.store.recorded instanceId executionId) id = some kind)
    (arrives : Arrives world.store instanceId executionId kind id) :
    Arrives after.store instanceId executionId kind id ∨
      (kind, id) ∈ completions (after.store.recorded instanceId executionId) := by
  rcases grounds.arrives_of_effect effect arrives with kept | ⟨delivery, request, commits, message, listed, completion⟩
  · exact .inl kept
  right
  obtain ⟨event, member, schedules⟩ := exists_of_scheduleKindOf scheduled
  have later := recorded_subset effect instanceId executionId member
  obtain rfl := grounds.current_of_commits commits (List.ne_nil_of_mem later) goesOn
  obtain ⟨base, appended⟩ := grounds.appended effect commits goesOn later schedules
  rw [base] at scheduled
  rw [appended] at goesOn ⊢
  exact (grounds.handsOver commits goesOn).2.settled message listed kind id completion scheduled

/-- What an execution records is new with a commit to it. -/
theorem commits_of_new (effect : Effect world label after)
    (differs : after.store.recorded instanceId executionId ≠ world.store.recorded instanceId executionId) :
    ∃ delivery request, Commits world label delivery request instanceId after ∧ request.executionId = executionId := by
  rcases effect.records with same | ⟨delivery, request, acked, commits⟩
  · rw [Store.recorded, Store.recorded, same.history] at differs
    exact absurd rfl differs
  · obtain ⟨_, _, _, _, _, _, committed, _⟩ := commits.holds
    by_cases own : (instanceId, executionId) = (acked, request.executionId)
    · obtain ⟨rfl, rfl⟩ := Prod.mk.inj own
      exact ⟨delivery, request, commits, rfl⟩
    · exact absurd (recorded_other committed own) differs

end Grounds

/-! ## Activities that leave the worker queue -/

theorem mem_completions_of_subset {history longer : List Event} (contains : history ⊆ longer) {schedule : String × Nat}
    (completed : schedule ∈ completions history) : schedule ∈ completions longer := by
  obtain ⟨event, member, completion⟩ := List.mem_filterMap.mp completed
  exact List.mem_filterMap.mpr ⟨event, contains member, completion⟩

theorem Closed.mono {store result : Store} {identity : ScheduledActivityIdentifier}
    (contains : store.recorded identity.instanceId identity.executionId ⊆
      result.recorded identity.instanceId identity.executionId) (closed : Closed store identity) :
    Closed result identity := by
  rcases closed with completes | ⟨event, member, requests, source⟩
  · exact .inl (mem_completions_of_subset contains completes)
  · exact .inr ⟨event, contains member, requests, source⟩

/-- An activity stays in the worker queue, or leaves it with its report, with a commit that cancels it, or with a worker
that drops it. -/
inductive QueuedFate (world : World semver) (label : Step semver) (after : World semver)
    (identity : ScheduledActivityIdentifier) : Prop
  | kept (queued : Queued after.store identity)
  | reported (arrives : Arrives after.store identity.instanceId identity.executionId "activity" identity.activityId)
  | cancelled (delivery : Delivery semver) (request : AckRequest semver) (instanceId : String)
      (commits : Commits world label delivery request instanceId after) (listed : identity ∈ request.cancelledActivities)
  | dropped (now token : Nat) (taken : label = .dropWork now token) (row : WorkerRow)
      (member : row ∈ world.store.workerQueue) (holds : holdsWork now token row) (own : row.identity = some identity)

/-- A worker reports the activity that it was given. -/
theorem reportedActivity_of_activityCompletion {maxAttempts : Nat} {serialize : WorkItem → String} {held : WorkDelivery}
    {outcome : Except String String} {report : WorkItem}
    (reports : activityCompletion maxAttempts serialize held outcome = some report) :
    report.reportedActivity = (Store.workerColumns held.workItem).1 := by
  unfold activityCompletion at reports
  split at reports
  · rename_i execute
    rw [execute]
    split_ifs at reports
    · cases reports
      rfl
    · split at reports <;> cases reports <;> rfl
  · cases reports

/-- The row that an acknowledgement ends is that of the item that the worker was given. -/
theorem WorkerRows.identity_of_holdsWork (rows : WorkerRows world) {now token : Nat} {row : WorkerRow}
    (member : row ∈ world.store.workerQueue) (locked : holdsWork now token row) {held : WorkDelivery}
    (holds : world.work token = some held) : row.identity = (Store.workerColumns held.workItem).1 := by
  simp only [holdsWork, Bool.and_eq_true, beq_iff_eq] at locked
  obtain ⟨given, givenTo, item⟩ := rows.locked row member token locked.1
  cases holds.symm.trans givenTo
  rw [rows.identity row member, item]

theorem completion_of_reportedActivity {message : WorkItem} {identity : ScheduledActivityIdentifier}
    (reports : message.reportedActivity = some identity) : message.targetInstance = identity.instanceId ∧
      message.completion = some (identity.executionId, "activity", identity.activityId) := by
  cases message <;> cases reports <;> exact ⟨rfl, rfl⟩

/-- What happens to an activity of the worker queue in a step. -/
theorem Effect.queuedFate (effect : Effect world label after) (rows : WorkerRows world)
    {identity : ScheduledActivityIdentifier} (queued : Queued world.store identity) :
    QueuedFate world label after identity := by
  obtain ⟨row, member, own⟩ := List.mem_map.mp queued
  have mapped : ∀ {change : WorkerRow → WorkerRow}, (∀ row, (change row).identity = row.identity) →
      some identity ∈ (world.store.workerQueue.map change).map (·.identity) := fun same =>
    List.mem_map.mpr ⟨_, List.mem_map_of_mem member, (same row).trans own⟩
  have stays : ∀ {gone : WorkerRow → Bool}, gone row = false →
      some identity ∈ (world.store.workerQueue.filter (!gone ·)).map (·.identity) := fun kept =>
    List.mem_map.mpr ⟨row, List.mem_filter.mpr ⟨member, by rw [kept]; rfl⟩, own⟩
  cases effect with
  | fetchedNothing | decided | ackFailed | turnFailed | abandonFailed | renewFailed | workAckFailed | workDropFailed
  | workAbandonFailed | enqueued | workCancelled => exact .kept queued
  | fetched config filter now lockTimeoutMs token fault fresh item attemptCount candidate =>
    refine .kept ?_
    rw [Queued, ← (@lockedStore_workers world.store now lockTimeoutMs token _ candidate.unlocked).1] at queued
    exact queued
  | dropped config filter now lockTimeoutMs token fault fresh instanceId candidate =>
    refine .kept ?_
    rw [Queued, ← (@lockedStore_workers world.store now lockTimeoutMs token _ candidate.unlocked).1] at queued
    exact queued
  | acked config now token fault delivery request fallback failed holds phase instanceId store committed =>
    by_cases cancelled : identity ∈ request.cancelledActivities
    · exact .cancelled delivery request instanceId ⟨⟨config, now, token, fault, rfl, holds, committed, rfl⟩, fallback,
        failed, phase⟩ cancelled
    · refine .kept (List.mem_map.mpr ⟨row, ?_, own⟩)
      change row ∈ store.workerQueue
      rw [committed.workers]
      exact List.mem_filter.mpr ⟨List.mem_append_left _ member, by rw [own]; simpa using cancelled⟩
  | abandoned now token delivery delayMs ignoreAttempt holds phase store released =>
    obtain ⟨instanceId, _, rfl⟩ := abandonOrchestrationItem_spec released
    exact .kept queued
  | renewed now token extendMs store extended =>
    obtain rfl := QueueSound.renewOrchestrationItemLock_spec extended
    exact .kept queued
  | workFetched now lockTimeoutMs token session filter fresh workItem attemptCount store found =>
    obtain ⟨fetched, sessions, _, _, rfl⟩ := fetchWorkItem_spec found
    exact .kept (mapped fun row => by split_ifs <;> rfl)
  | workRenewed now token extendMs held holds store extended =>
    obtain ⟨sessions, rfl⟩ := renewWorkItemLock_spec extended
    exact .kept (mapped fun row => by split_ifs <;> rfl)
  | workCompleted now token maxAttempts outcome held holds completion reported store acked =>
    obtain ⟨locked, sessions, found, rfl⟩ := ackWorkItem_spec acked
    rcases gone : holdsWork now token row with _ | _
    · exact .kept (stays gone)
    · obtain ⟨target, completes⟩ := completion_of_reportedActivity
        ((reportedActivity_of_activityCompletion reported).trans
          ((rows.identity_of_holdsWork member gone holds).symm.trans own))
      exact .reported ⟨_, List.mem_append_right _ (List.mem_singleton_self _), target, completion, rfl, completes⟩
  | workDropped now token held holds cancelled store acked =>
    obtain ⟨locked, sessions, found, rfl⟩ := ackWorkItem_spec acked
    rcases gone : holdsWork now token row with _ | _
    · exact .kept (stays gone)
    · exact .dropped now token rfl row member gone own
  | workAbandoned now token delayMs ignoreAttempt store released =>
    obtain rfl := abandonWorkItem_spec released
    exact .kept (mapped fun row => by split_ifs <;> rfl)

namespace Awaited

/-! ## Timers -/

/-- Every timer of an execution that goes on has fired, or its message is in the queue. -/
def TimersKept (store : Store) : Prop :=
  ∀ instanceId executionId id, GoesOn (store.recorded instanceId executionId) →
    scheduleKindOf (store.recorded instanceId executionId) id = some "timer" →
    Arrives store instanceId executionId "timer" id ∨ ("timer", id) ∈ completions (store.recorded instanceId executionId)

/-- A schedule that is not in a history is in what follows it. -/
theorem scheduleKindOf_of_new {history delta : List Event} {id : Nat} {kind : String}
    (old : scheduleKindOf history id ≠ some kind) (scheduled : scheduleKindOf (history ++ delta) id = some kind) :
    scheduleKindOf delta id = some kind := by
  rw [scheduleKindOf, List.findSome?_append] at scheduled
  exact (Option.or_eq_some_iff.mp scheduled).resolve_left old |>.2

theorem TimersKept.step (kept : TimersKept world.store) (grounds : Grounds world) (effect : Effect world label after) :
    TimersKept after.store := by
  intro instanceId executionId id goesOn scheduled
  have contains := Grounds.recorded_subset effect instanceId executionId
  by_cases old : scheduleKindOf (world.store.recorded instanceId executionId) id = some "timer"
  · rcases kept instanceId executionId id (goesOn.mono contains) old with arrives | fired
    · exact grounds.arrives_step effect goesOn old arrives
    · exact .inr (mem_completions_of_subset contains fired)
  · have differs : after.store.recorded instanceId executionId ≠ world.store.recorded instanceId executionId := by
      intro same
      rw [same] at scheduled
      exact old scheduled
    obtain ⟨delivery, request, commits, rfl⟩ := Grounds.commits_of_new effect differs
    obtain ⟨event, member, schedules⟩ := exists_of_scheduleKindOf scheduled
    obtain ⟨base, appended⟩ := grounds.appended effect commits goesOn member schedules
    rw [appended] at goesOn scheduled
    rw [base] at old
    obtain ⟨own, handsOver⟩ := grounds.handsOver commits goesOn
    obtain ⟨message, asked, target, completion⟩ := handsOver.timed id (scheduleKindOf_of_new old scheduled)
    obtain ⟨_, now, _, _, _, _, committed, _⟩ := commits.holds
    have enqueued : message ∈ request.orchestratorItems.filter (!isActivityExecute ·) := by
      refine List.mem_filter.mpr ⟨asked, ?_⟩
      cases message <;> first | rfl | cases completion
    obtain ⟨row, member, sameInstance, read⟩ := mem_enqueuedRows_of_mem (visibleFrom now) enqueued
      world.store.nextOrchestratorId
    refine .inl ⟨row, ?_, sameInstance.trans (target.trans own), message, read, completion⟩
    rw [committed.queue]
    exact List.mem_append_right _ member

/-- As long as batches name their orchestrations, no timer of an execution that goes on is lost. -/
theorem timersKept_of_guarded (reached : (system semver).Reachable (namedBatches semver).guard world) :
    TimersKept world.store := by
  induction reached with
  | initial start =>
    subst start
    intro _ _ _ _ scheduled
    cases scheduled
  | step reached _ taken ih => exact ih.step (.of_reachable reached) (World.step_effect taken)

/-- A test that implies the conditions. -/
def keepsWaits (world : World semver) : Step semver → Bool
  | .decide token _ => (world.deliveries token).all fun delivery =>
      delivery.item.history.isEmpty || (workitemReader delivery.item).hasOrchestrationName
  | .dropWork now token => !world.store.workerQueue.any (holdsWork now token)
  | _ => true

theorem namedBatches_of_keepsWaits (world : World semver) (label : Step semver) (tested : keepsWaits world label) :
    (namedBatches semver).guard world label := by
  cases label with
  | decide token env =>
    intro delivery holds occupied
    simp only [keepsWaits, holds, Option.all_some, Bool.or_eq_true, List.isEmpty_iff] at tested
    exact tested.resolve_left occupied
  | failTurn => exact fun _ _ => trivial
  | ack => exact fun _ _ _ _ _ _ _ => trivial
  | client | fetch | abandon | renew | fetchWork | renewWork | completeWork | dropWork | abandonWork => trivial

/-! An orchestration that waits for an activity and a timer. -/

def waitingHandler : OrchestrationHandler where
  State := Bool
  invoke _ := true
  poll
    | true => .call (.scheduleActivity "work" "" none) fun _ => .call (.scheduleTimer 1000) fun _ => .suspend false
    | false => .suspend false

def waitingEnv : RuntimeEnv textSemver :=
  { VersionPinning.registeredEnv fun name => if name = "orch" then some waitingHandler else none with maxAttempts := 10 }

def waiting : List (Step textSemver) :=
  [.client 0 (.startOrchestration "i" "orch" "" none none none 1), .fetch {} none 0 1000 1 none, .decide 1 waitingEnv,
    .ack {} 0 1 none, .fetchWork 0 1000 2 none .any]

/-- Its timer fires. -/
def firing : List (Step textSemver) := [.fetch {} none 1000 1000 3 none, .decide 3 waitingEnv, .ack {} 1000 3 none]

theorem timersKept_of_guarded_firing : ∃ world, World.runTested keepsWaits {} (waiting ++ firing) = some world ∧
    scheduleKindOf (world.store.recorded "i" 1) 3 = some "timer" ∧ TimersKept world.store := by
  have ran : (World.runTested keepsWaits {} (waiting ++ firing)).any (fun world =>
      scheduleKindOf (world.store.recorded "i" 1) 3 == some "timer") = true := by
    decide +kernel
  obtain ⟨world, reached, scheduled⟩ := (Option.any_eq_true _ _).mp ran
  exact ⟨world, reached, beq_iff_eq.mp scheduled,
    timersKept_of_guarded (World.reachable_of_runTested namedBatches_of_keepsWaits (.initial rfl) reached)⟩

/-! ## Activities -/

/-- Every activity of an execution that goes on is in the worker queue, its report is in the queue of its instance, or
its history completes it or requests its cancellation. -/
def ActivitiesKept (store : Store) : Prop :=
  ∀ identity, GoesOn (store.recorded identity.instanceId identity.executionId) → Scheduled store identity →
    Queued store identity ∨ Arrives store identity.instanceId identity.executionId "activity" identity.activityId ∨
      Closed store identity

/-- A worker drops no activity of an execution that goes on. -/
def SparesLive (world : World semver) : Step semver → Prop
  | .dropWork now token => ∀ row ∈ world.store.workerQueue, holdsWork now token row → ∀ identity,
      row.identity = some identity → ¬ GoesOn (world.store.recorded identity.instanceId identity.executionId)
  | _ => True

namespace ActivitiesKept

section Commit

variable {delivery : Delivery semver} {request : AckRequest semver} {instanceId : String}
  {identity : ScheduledActivityIdentifier}

theorem isSchedule_of_isActivityScheduled {kind : EventKind} (scheduled : isActivityScheduled kind) : kind.isSchedule := by
  cases kind <;> first | rfl | cases scheduled

/-- A commit that cancels an activity of an execution that goes on says so in its history. -/
theorem closed_of_cancelled (grounds : Grounds world) (effect : Effect world label after)
    (commits : Commits world label delivery request instanceId after) (cancelled : identity ∈ request.cancelledActivities)
    (goesOn : GoesOn (after.store.recorded identity.instanceId identity.executionId))
    (scheduled : Scheduled after.store identity) : Closed after.store identity := by
  obtain ⟨now, token, committing, fallback, failed, phase⟩ :=
    QueuedActivities.committing grounds.toSurroundings effect commits
  have source := (grounds.pending token delivery request fallback failed committing.holds phase).source
  obtain ⟨own, execution⟩ := source.cancelsOwn cancelled
  obtain ⟨event, member, _, kind⟩ := scheduled
  rw [own.trans committing.own, execution] at goesOn member
  obtain ⟨base, appended⟩ := grounds.appended effect commits goesOn member (isSchedule_of_isActivityScheduled kind)
  rw [appended] at goesOn
  obtain ⟨crumb, recorded, requests, sourced⟩ := (grounds.handsOver commits goesOn).2.requested identity cancelled
  refine .inr ⟨crumb, ?_, requests, sourced⟩
  rw [own.trans committing.own, execution, appended]
  exact List.mem_append_right _ recorded

/-- A commit enqueues the activities that it schedules, unless it cancels them. -/
theorem queued_of_new (grounds : Grounds world) (effect : Effect world label after)
    (commits : Commits world label delivery request identity.instanceId after)
    (execution : request.executionId = identity.executionId) (new : ¬ Scheduled world.store identity)
    (goesOn : GoesOn (after.store.recorded identity.instanceId identity.executionId))
    (scheduled : Scheduled after.store identity) (uncancelled : identity ∉ request.cancelledActivities) :
    Queued after.store identity := by
  obtain ⟨event, member, same, kind⟩ := scheduled
  rw [← execution] at goesOn member
  obtain ⟨base, appended⟩ := grounds.appended effect commits goesOn member (isSchedule_of_isActivityScheduled kind)
  rw [appended] at goesOn member
  have recorded : event ∈ request.historyDelta := by
    refine (List.mem_append.mp member).resolve_left fun old => new ⟨event, ?_, same, kind⟩
    rwa [← execution, base]
  obtain ⟨own, handsOver⟩ := grounds.handsOver commits goesOn
  obtain ⟨workItem, asked, columns⟩ := handsOver.enqueued identity.activityId ⟨event, recorded, same, kind⟩
  rw [own, execution] at columns
  obtain ⟨_, now, _, _, _, _, committed, _⟩ := commits.holds
  have added : some identity ∈ (workerRows now world.store.nextWorkerId request.workerItems).map (·.identity) := by
    rw [workerRows_identity]
    exact List.mem_map.mpr ⟨workItem, asked, columns⟩
  obtain ⟨row, listed, identified⟩ := List.mem_map.mp added
  refine List.mem_map.mpr ⟨row, ?_, identified⟩
  rw [committed.workers]
  exact List.mem_filter.mpr ⟨List.mem_append_right _ listed, by rw [identified]; simpa using uncancelled⟩

end Commit

theorem step (kept : ActivitiesKept world.store) (grounds : Grounds world) (spares : SparesLive world label)
    (effect : Effect world label after) : ActivitiesKept after.store := by
  intro identity goesOn scheduled
  have contains := Grounds.recorded_subset effect identity.instanceId identity.executionId
  by_cases old : Scheduled world.store identity
  · rcases kept identity (goesOn.mono contains) old with queued | arrives | closed
    · cases effect.queuedFate grounds.rows queued with
      | kept queued => exact .inl queued
      | reported arrives => exact .inr (.inl arrives)
      | cancelled delivery request instanceId commits listed =>
        exact .inr (.inr (closed_of_cancelled grounds effect commits listed goesOn scheduled))
      | dropped now token taken row member holds own =>
        subst taken
        exact absurd (goesOn.mono contains) (spares row member holds identity own)
    · have known := scheduleKindOf_of_schedules (grounds.provenance.ascending _ _) old
      exact .inr ((grounds.arrives_step effect goesOn known arrives).imp_right .inl)
    · exact .inr (.inr (closed.mono contains))
  · have differs : after.store.recorded identity.instanceId identity.executionId ≠
        world.store.recorded identity.instanceId identity.executionId := by
      intro same
      rw [Scheduled, same] at scheduled
      exact old scheduled
    obtain ⟨delivery, request, commits, execution⟩ := Grounds.commits_of_new effect differs
    by_cases cancelled : identity ∈ request.cancelledActivities
    · exact .inr (.inr (closed_of_cancelled grounds effect commits cancelled goesOn scheduled))
    · exact .inl (queued_of_new grounds effect commits execution old goesOn scheduled cancelled)

end ActivitiesKept

/-- As long as batches name their orchestrations, and workers drop no activity of an execution that goes on, no such
activity is lost. -/
theorem activitiesKept_of_guarded
    (reached : (system semver).Reachable (fun world label => (namedBatches semver).guard world label ∧
      SparesLive world label) world) : ActivitiesKept world.store := by
  induction reached with
  | initial start =>
    subst start
    rintro _ _ ⟨_, none, _⟩
    exact absurd none List.not_mem_nil
  | step reached allowed taken ih =>
    exact ih.step (.of_reachable (reached.mono fun _ _ => And.left)) allowed.2 (World.step_effect taken)

theorem sparesLive_of_keepsWaits (world : World semver) (label : Step semver) (tested : keepsWaits world label) :
    SparesLive world label := by
  cases label with
  | dropWork now token =>
    intro row member locked
    simp only [keepsWaits, Bool.not_eq_true', List.any_eq_false] at tested
    exact absurd locked (tested row member)
  | client | fetch | decide | ack | failTurn | abandon | renew | fetchWork | renewWork | completeWork | abandonWork =>
    trivial

theorem activitiesKept_of_guarded_firing : ∃ world, World.runTested keepsWaits {} (waiting ++ firing) = some world ∧
    SchedulesActivity (world.store.recorded "i" 1) 2 ∧ ActivitiesKept world.store := by
  have ran : (World.runTested keepsWaits {} (waiting ++ firing)).any (fun world =>
      (world.store.recorded "i" 1).any fun event => event.eventId == 2 && isActivityScheduled event.kind) = true := by
    decide +kernel
  obtain ⟨world, reached, scheduled⟩ := (Option.any_eq_true _ _).mp ran
  obtain ⟨event, member, facts⟩ := List.any_eq_true.mp scheduled
  obtain ⟨same, kind⟩ := Bool.and_eq_true_iff.mp facts
  have guarded : ∀ (world : World textSemver) label, keepsWaits world label →
      (namedBatches textSemver).guard world label ∧ SparesLive world label := fun world label tested =>
    ⟨namedBatches_of_keepsWaits world label tested, sparesLive_of_keepsWaits world label tested⟩
  exact ⟨world, reached, ⟨event, member, beq_iff_eq.mp same, kind⟩,
    activitiesKept_of_guarded (World.reachable_of_runTested guarded (.initial rfl) reached)⟩

/-- A test that an execution that goes on has scheduled an activity that is nowhere. -/
def losesActivity (store : Store) (identity : ScheduledActivityIdentifier) : Bool :=
  let events := store.recorded identity.instanceId identity.executionId
  !events.any (·.isTerminal) &&
    events.any (fun event => event.eventId == identity.activityId && isActivityScheduled event.kind) &&
    !events.any (·.sourceEventId == some identity.activityId) &&
    !store.workerQueue.any (·.identity == some identity) &&
    !store.orchestratorQueue.any (fun row => row.decoded.any fun message =>
      message.completion == some (identity.executionId, "activity", identity.activityId))

theorem not_activitiesKept_of_losesActivity {store : Store} {identity : ScheduledActivityIdentifier}
    (loses : losesActivity store identity) : ¬ ActivitiesKept store := by
  simp only [losesActivity, Bool.and_eq_true, Bool.not_eq_true'] at loses
  obtain ⟨⟨⟨⟨goesOn, scheduled⟩, unsourced⟩, unqueued⟩, unreported⟩ := loses
  obtain ⟨event, member, facts⟩ := List.any_eq_true.mp scheduled
  obtain ⟨same, kind⟩ := Bool.and_eq_true_iff.mp facts
  intro kept
  rcases kept identity goesOn ⟨event, member, beq_iff_eq.mp same, kind⟩ with queued | arrives | completes | cancels
  · obtain ⟨row, listed, own⟩ := List.mem_map.mp queued
    exact List.any_eq_false.mp unqueued row listed (beq_iff_eq.mpr own)
  · obtain ⟨row, listed, _, message, read, completion⟩ := arrives
    exact List.any_eq_false.mp unreported row listed
      ((Option.any_eq_true _ _).mpr ⟨message, read, beq_iff_eq.mpr completion⟩)
  · obtain ⟨other, listed, completion⟩ := completesActivity_iff.mp completes
    obtain ⟨_, _, sourced⟩ := Option.bind_eq_some_iff.mp completion
    obtain ⟨_, source, same⟩ := Option.map_eq_some_iff.mp sourced
    cases same
    exact List.any_eq_false.mp unsourced other listed (beq_iff_eq.mpr source)
  · obtain ⟨crumb, listed, _, source⟩ := cancels
    exact List.any_eq_false.mp unsourced crumb listed (beq_iff_eq.mpr source)

/-- The report of the activity comes in one batch with a start that names no orchestration. -/
def unnamed : List (Step textSemver) :=
  waiting ++ [.completeWork 0 2 10 (.ok "done"), .client 0 (.startOrchestration "i" "" "" none none none 1),
    .fetch {} none 500 1000 3 none, .decide 3 waitingEnv, .ack {} 500 3 none]

/-- The worker takes a failed renewal for a cancellation. -/
def dropped : List (Step textSemver) :=
  waiting ++ [.renewWork 0 2 1000 (some (.makeRetryable "renew_work_item_lock" "database is locked")), .dropWork 0 2]

/-- Without either condition an activity is lost. -/
theorem unnamed_dropped_loseActivity :
    (∃ world, World.run {} unnamed = some world ∧ ¬ ActivitiesKept world.store) ∧
      ∃ world, World.run {} dropped = some world ∧ ¬ ActivitiesKept world.store := by
  have loses : ∀ {labels : List (Step textSemver)},
      (World.run {} labels).any (fun world => losesActivity world.store ⟨"i", 1, 2⟩) = true →
      ∃ world, World.run {} labels = some world ∧ ¬ ActivitiesKept world.store := by
    intro labels ran
    obtain ⟨world, reached, lost⟩ := (Option.any_eq_true _ _).mp ran
    exact ⟨world, reached, not_activitiesKept_of_losesActivity lost⟩
  exact ⟨loses (by decide +kernel), loses (by decide +kernel)⟩

/-! ## Lost activities -/

/-- An activity that nothing will complete: it is neither queued, nor does a message report it. -/
structure Lost (world : World semver) (identity : ScheduledActivityIdentifier) : Prop where
  scheduled : Scheduled world.store identity
  unqueued : ¬ Queued world.store identity
  unreported : ∀ row ∈ world.store.orchestratorQueue, row.workItem.reportedActivity ≠ some identity
  unheld : ∀ token delivery, world.deliveries token = some delivery → ∀ message ∈ delivery.item.messages,
    message.reportedActivity ≠ some identity
  uncompleted : ¬ CompletesActivity (world.store.recorded identity.instanceId identity.executionId) identity.activityId

namespace Lost

open QueuedActivities

variable {identity : ScheduledActivityIdentifier} {conditions : Conditions semver}

/-- What a worker drops is lost. -/
theorem of_dropped (queued : QueuedActivities world) {now token : Nat} {row : WorkerRow}
    (member : row ∈ world.store.workerQueue) (locked : holdsWork now token row) (own : row.identity = some identity)
    {sessions : AList fun _ : String => SessionRow}
    (same : after = { world with store := { world.store.deleteWorkerRows (holdsWork now token) with sessions } }) :
    Lost after identity := by
  subst same
  have present : Queued world.store identity := List.mem_map.mpr ⟨row, member, own⟩
  constructor
  · exact queued.scheduled identity present
  · intro still
    obtain ⟨other, kept, sameIdentity⟩ := List.mem_map.mp still
    obtain ⟨was, unheld⟩ := List.mem_filter.mp kept
    obtain rfl := List.inj_on_of_nodup_map queued.distinct was member (sameIdentity.trans own.symm)
    rw [locked] at unheld
    cases unheld
  · exact fun message listed reports => (queued.reported message listed identity reports).unqueued present
  · exact fun token delivery holds message listed reports =>
      (queued.held token delivery holds message listed identity reports).unqueued present
  · exact fun completes => queued.opened identity present (.inl completes)

/-- The rows of the orchestrator queue report what was reported or queued. -/
theorem unreported_of_effect (lost : Lost world identity) (around : Surroundings conditions world)
    (effect : Effect world label after) {row : OrchestratorRow} (member : row ∈ after.store.orchestratorQueue) :
    row.workItem.reportedActivity ≠ some identity := by
  intro reports
  cases effect.row member with
  | kept original old item => exact lost.unreported original old (item ▸ reports)
  | client target item =>
    obtain ⟨id, instanceId, workItem, visibleAt⟩ := row
    cases workItem <;> first | cases reports; done | cases item
  | completion target item taken =>
    obtain ⟨now, token, maxAttempts, outcome, rfl⟩ := taken
    cases effect with
    | workAckFailed => exact lost.unreported row member reports
    | workCompleted _ _ _ _ held holds completion reported store acked =>
      obtain ⟨locked, sessions, found, rfl⟩ := ackWorkItem_spec acked
      rcases List.mem_append.mp member with old | new
      · exact lost.unreported row old reports
      · rw [List.mem_singleton.mp new] at reports
        refine lost.unqueued (List.mem_map.mpr ⟨locked, List.mem_of_find?_eq_some found, ?_⟩)
        rw [around.rows.identity_of_holdsWork (List.mem_of_find?_eq_some found) (List.find?_some found) holds]
        exact (reportedActivity_of_activityCompletion reported).symm.trans reports
  | committed target delivery request instanceId commits listed =>
    obtain ⟨_, _, committing, _⟩ := committing around effect commits
    rw [committing.accounts.reports _ listed] at reports
    cases reports

theorem unheld_of_effect (lost : Lost world identity) (around : Surroundings conditions world)
    (effect : Effect world label after) {token : Nat} {delivery : Delivery semver}
    (holds : after.deliveries token = some delivery) {message : WorkItem} (member : message ∈ delivery.item.messages) :
    message.reportedActivity ≠ some identity := by
  cases effect.deliveryStep holds with
  | same held => exact lost.unheld token delivery held message member
  | moved before held step kept =>
    rw [kept] at member
    exact lost.unheld token before held message member
  | fetched config filter now lockTimeoutMs unused phase candidate found =>
    have fresh : Unused world.store token := by
      obtain ⟨desk, presents, sound⟩ := around.coherent
      rw [← presents.store]
      refine sound.unused ?_
      have items := presents.items token
      rw [unused, Option.map_none] at items
      exact Option.map_eq_none_iff.mp items.symm
    rw [found.messages] at member
    obtain ⟨row, old, _, _, item⟩ := (mem_batch fresh candidate.unlocked message).mp member
    rw [← OrchestratorRow.workItem_of_decoded item]
    exact lost.unreported row old

/-- A commit completes what its batch reports. -/
theorem uncompleted_of_effect (lost : Lost world identity) (queued : QueuedActivities world)
    (around : Surroundings conditions world) (effect : Effect world label after) :
    ¬ CompletesActivity (after.store.recorded identity.instanceId identity.executionId) identity.activityId := by
  intro completes
  obtain ⟨event, recorded, completion⟩ := completesActivity_iff.mp completes
  rcases effect.records with same | ⟨delivery, request, instanceId, commits⟩
  · rw [Store.recorded, same.history] at recorded
    exact lost.uncompleted (completesActivity_iff.mpr ⟨event, recorded, completion⟩)
  obtain ⟨now, token, committing, _⟩ := committing around effect commits
  by_cases own : (identity.instanceId, identity.executionId) = (instanceId, request.executionId)
  swap
  · rw [recorded_other committing.committed own] at recorded
    exact lost.uncompleted (completesActivity_iff.mpr ⟨event, recorded, completion⟩)
  obtain ⟨target, execution, id⟩ := identity
  obtain ⟨rfl, rfl⟩ := Prod.mk.inj own
  rcases (mem_recorded_iff committing.committed).mp recorded with old | new
  · exact lost.uncompleted (completesActivity_iff.mpr ⟨event, old, completion⟩)
  obtain ⟨message, listed, reported⟩ :=
    committing.accounts.completes id (completesActivity_iff.mpr ⟨event, new, completion⟩)
  obtain ⟨other, reports⟩ : ∃ other, message.reportedActivity = some ⟨other, request.executionId, id⟩ := by
    cases message <;> first
      | simp [WorkItem.completion] at reported; done
      | cases reported; exact ⟨_, rfl⟩
  have own : other = delivery.item.instanceId := (queued.held token delivery committing.holds message listed _ reports).own
  rw [own, committing.own] at reports
  exact lost.unheld token delivery committing.holds message listed reports

theorem step (lost : Lost world identity) (queued : QueuedActivities world) (around : Surroundings conditions world)
    (effect : Effect world label after) : Lost after identity where
  scheduled := (carries_of_effect around effect).scheduled identity lost.scheduled
  unqueued present := ((carries_of_effect around effect).queued identity present).elim lost.unqueued
    fun unscheduled => unscheduled lost.scheduled
  unreported _ member := lost.unreported_of_effect around effect member
  unheld _ _ holds _ member := lost.unheld_of_effect around effect holds member
  uncompleted := lost.uncompleted_of_effect queued around effect

/-- What is lost stays lost. -/
theorem run (lost : Lost world identity) (reached : (system semver).Reachable (fun _ _ => True) world)
    {labels : List (Step semver)} (ran : world.run labels = some after) : Lost after identity := by
  induction labels generalizing world with
  | nil =>
    cases ran
    exact lost
  | cons label rest ih =>
    obtain ⟨middle, taken, later⟩ := Option.bind_eq_some_iff.mp ran
    have around := Surroundings.of_reachable (reachable_unconditionally reached)
    exact ih (lost.step (.of_reachable reached) around (World.step_effect taken)) (.step reached trivial taken) later

end Lost

/-- An activity that a worker drops while its row is there is lost: in every later state it is neither queued nor
reported, and its history does not complete it. -/
theorem lost_of_dropped {guard : World semver → Step semver → Prop} (reached : (system semver).Reachable guard world)
    {now token : Nat} {row : WorkerRow} (member : row ∈ world.store.workerQueue) (locked : holdsWork now token row)
    {identity : ScheduledActivityIdentifier} (own : row.identity = some identity) {middle : World semver}
    (dropped : world.step (.dropWork now token) = some middle) {labels : List (Step semver)}
    (ran : middle.run labels = some after) : Lost after identity := by
  have everywhere : (system semver).Reachable (fun _ _ => True) world := reached.mono fun _ _ _ => trivial
  obtain ⟨held, holds, taken⟩ := Option.bind_eq_some_iff.mp dropped
  split_ifs at taken with cancelled
  rcases acked : ackWorkItem world.store now token none with error | store
  · -- the row is there, so the acknowledgement is accepted
    unfold ackWorkItem at acked
    split at acked
    · rename_i none
      exact absurd locked (List.find?_eq_none.mp none row member)
    · cases acked
  · rw [acked] at taken
    obtain ⟨_, sessions, _, rfl⟩ := ackWorkItem_spec acked
    obtain rfl := Option.some.inj taken
    exact (Lost.of_dropped (.of_reachable everywhere) member locked own rfl).run (.step everywhere trivial dropped) ran

/-- The activity of the waiting orchestration is lost, and its timer fires. -/
theorem lost_of_dropped_firing : ∃ world middle after, World.run {} dropped.dropLast = some world ∧
    world.step (.dropWork 0 2) = some middle ∧ middle.run firing = some after ∧
    completions (after.store.recorded "i" 1) = [("timer", 3)] ∧ Lost after ⟨"i", 1, 2⟩ := by
  have ran : (World.run {} dropped.dropLast).any (fun world =>
      world.store.workerQueue.any (fun row => holdsWork 0 2 row && row.identity == some ⟨"i", 1, 2⟩) &&
        (world.step (.dropWork 0 2)).any fun middle => (middle.run firing).any fun after =>
          completions (after.store.recorded "i" 1) == [("timer", 3)]) = true := by
    decide +kernel
  obtain ⟨world, reached, facts⟩ := (Option.any_eq_true _ _).mp ran
  obtain ⟨held, later⟩ := Bool.and_eq_true_iff.mp facts
  obtain ⟨row, member, locked⟩ := List.any_eq_true.mp held
  obtain ⟨holds, own⟩ := Bool.and_eq_true_iff.mp locked
  obtain ⟨middle, drops, last⟩ := (Option.any_eq_true _ _).mp later
  obtain ⟨after, fires, completed⟩ := (Option.any_eq_true _ _).mp last
  exact ⟨world, middle, after, reached, drops, fires, beq_iff_eq.mp completed,
    lost_of_dropped (World.reachable_of_run (.initial rfl) reached) member holds (beq_iff_eq.mp own) drops fires⟩

end Awaited

end Duroxide
