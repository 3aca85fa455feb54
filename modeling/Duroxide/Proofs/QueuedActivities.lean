import Duroxide.Proofs.Batches
import Duroxide.Proofs.TurnActivities

/-! # Activities in the worker queue

Every row of the worker queue is an activity that is scheduled and open: nothing in the history of its execution
completes or cancels it, and no message reports it. Such a row ends with its report, by its worker, or with a
commit that cancels it. A turn that ends its execution cancels all of them; the commits of failures cancel none,
so they leave rows behind when activities are still queued.
-/

namespace Duroxide

open Provider Dispatcher ReplayEngine

variable {semver : Semver} {world after : World semver} {label : Step semver}

/-! ## The rows of the worker queue -/

/-- Every row has its own id and the identity of its activity, and is locked for those who were given its item. -/
structure WorkerRows (world : World semver) : Prop where
  below : ∀ row ∈ world.store.workerQueue, row.id < world.store.nextWorkerId
  ids : (world.store.workerQueue.map (·.id)).Nodup
  identity : ∀ row ∈ world.store.workerQueue, row.identity = (Store.workerColumns row.workItem).1
  locked : ∀ row ∈ world.store.workerQueue, ∀ token, row.lockToken = some token →
    ∃ held, world.work token = some held ∧ held.workItem = row.workItem

/-- Who was given an item keeps it. -/
def KeepsWork (world after : World semver) : Prop :=
  ∀ token held, world.work token = some held → ∃ later, after.work token = some later ∧ later.workItem = held.workItem

theorem KeepsWork.of_eq (same : after.work = world.work) : KeepsWork world after :=
  fun _ held holds => ⟨held, same ▸ holds, rfl⟩

theorem KeepsWork.setWork {store : Store} {token : Nat} {held : WorkDelivery}
    (kept : ∀ before, world.work token = some before → held.workItem = before.workItem) :
    KeepsWork world ({ world with store }.setWork token held) := by
  intro other before holds
  by_cases same : other = token
  · subst same
    exact ⟨held, Function.update_self .., kept before holds⟩
  · exact ⟨before, (Function.update_of_ne same ..).trans holds, rfl⟩

/-- Locking an instance leaves the worker queue alone. -/
theorem lockedStore_workers {store : Store} {now lockTimeoutMs token : Nat} {instanceId : String}
    (unlocked : store.isUnlocked now instanceId) :
    (lockedStore store now lockTimeoutMs token instanceId).workerQueue = store.workerQueue ∧
      (lockedStore store now lockTimeoutMs token instanceId).nextWorkerId = store.nextWorkerId := by
  rw [lockedStore_of_unlocked unlocked]
  exact ⟨rfl, rfl⟩

namespace WorkerRows

/-- Rows may go. -/
theorem sub (rows : WorkerRows world) (fewer : after.store.workerQueue.Sublist world.store.workerQueue)
    (next : after.store.nextWorkerId = world.store.nextWorkerId) (work : KeepsWork world after) : WorkerRows after where
  below row member := next ▸ rows.below row (fewer.subset member)
  ids := rows.ids.sublist (fewer.map _)
  identity row member := rows.identity row (fewer.subset member)
  locked row member token own := by
    obtain ⟨held, holds, item⟩ := rows.locked row (fewer.subset member) token own
    obtain ⟨later, given, same⟩ := work token held holds
    exact ⟨later, given, same.trans item⟩

/-- The locks of rows may change. -/
theorem mapped (rows : WorkerRows world) {change : WorkerRow → WorkerRow}
    (queue : after.store.workerQueue = world.store.workerQueue.map change)
    (next : after.store.nextWorkerId = world.store.nextWorkerId) (work : KeepsWork world after)
    (same : ∀ row, (change row).id = row.id ∧ (change row).workItem = row.workItem ∧ (change row).identity = row.identity)
    (locks : ∀ row ∈ world.store.workerQueue, ∀ token, (change row).lockToken = some token →
      row.lockToken = some token ∨ ∃ held, after.work token = some held ∧ held.workItem = row.workItem) :
    WorkerRows after where
  below row member := by
    rw [queue] at member
    obtain ⟨original, old, rfl⟩ := List.mem_map.mp member
    rw [(same original).1, next]
    exact rows.below original old
  ids := by
    rw [queue, List.map_map]
    exact (List.map_congr_left fun row _ => (same row).1) ▸ rows.ids
  identity row member := by
    rw [queue] at member
    obtain ⟨original, old, rfl⟩ := List.mem_map.mp member
    rw [(same original).2.1, (same original).2.2]
    exact rows.identity original old
  locked row member token own := by
    rw [queue] at member
    obtain ⟨original, old, rfl⟩ := List.mem_map.mp member
    rw [(same original).2.1]
    rcases locks original old token own with before | given
    · obtain ⟨held, holds, item⟩ := rows.locked original old token before
      obtain ⟨later, given, kept⟩ := work token held holds
      exact ⟨later, given, kept.trans item⟩
    · exact given

/-- A commit adds rows under new ids. -/
theorem acked (rows : WorkerRows world) {now token : Nat} {instanceId : String} {request : AckRequest semver}
    (committed : Acked world.store now token instanceId request after.store) (work : after.work = world.work) :
    WorkerRows after := by
  have listed : ∀ row ∈ after.store.workerQueue,
      row ∈ world.store.workerQueue ∨ row ∈ workerRows now world.store.nextWorkerId request.workerItems := by
    intro row member
    rw [committed.workers] at member
    exact List.mem_append.mp (List.mem_of_mem_filter member)
  constructor
  · intro row member
    rw [committed.nextWorkerId]
    rcases listed row member with old | new
    · exact Nat.lt_add_right _ (rows.below row old)
    · exact (mem_workerRows new).2.1
  · rw [committed.workers]
    refine List.Nodup.sublist (List.filter_sublist.map _) ?_
    rw [List.map_append]
    refine List.nodup_append.mpr ⟨rows.ids, workerRows_distinct .., fun id old other new same => ?_⟩
    obtain ⟨row, was, rfl⟩ := List.mem_map.mp old
    obtain ⟨added, fresh, rfl⟩ := List.mem_map.mp new
    have below := rows.below row was
    have above := (mem_workerRows fresh).1
    omega
  · intro row member
    exact (listed row member).elim (rows.identity row) fun new => (workItem_of_mem_workerRows new).2
  · intro row member other own
    rcases listed row member with old | new
    · rw [work]
      exact rows.locked row old other own
    · rw [(mem_workerRows new).2.2.1] at own
      cases own

theorem step (rows : WorkerRows world) (effect : Effect world label after) : WorkerRows after := by
  cases effect with
  | fetchedNothing | decided | ackFailed | turnFailed | abandonFailed | renewFailed | workAckFailed | workDropFailed
  | workAbandonFailed | enqueued =>
    exact rows.sub (List.Sublist.refl _) rfl (.of_eq rfl)
  | fetched config filter now lockTimeoutMs token fault fresh item attemptCount candidate =>
    obtain ⟨queue, next⟩ := @lockedStore_workers world.store now lockTimeoutMs token _ candidate.unlocked
    exact rows.sub (queue ▸ List.Sublist.refl _) next (.of_eq rfl)
  | dropped config filter now lockTimeoutMs token fault fresh instanceId candidate =>
    obtain ⟨queue, next⟩ := @lockedStore_workers world.store now lockTimeoutMs token _ candidate.unlocked
    exact rows.sub (queue ▸ List.Sublist.refl _) next (.of_eq rfl)
  | acked config now token fault delivery request fallback failed holds phase instanceId store committed =>
    exact rows.acked committed rfl
  | abandoned now token delivery delayMs ignoreAttempt holds phase store released =>
    obtain ⟨instanceId, _, rfl⟩ := abandonOrchestrationItem_spec released
    exact rows.sub (List.Sublist.refl _) rfl (.of_eq rfl)
  | renewed now token extendMs store extended =>
    obtain rfl := QueueSound.renewOrchestrationItemLock_spec extended
    exact rows.sub (List.Sublist.refl _) rfl (.of_eq rfl)
  | workFetched now lockTimeoutMs token session filter fresh workItem attemptCount store found =>
    obtain ⟨fetched, sessions, available, rfl, rfl⟩ := fetchWorkItem_spec found
    simp only [World.isFresh, Bool.and_eq_true, Option.isNone_iff_eq_none] at fresh
    have unused : ∀ before, world.work token ≠ some before := fun before holds => by
      rw [fresh.2] at holds
      cases holds
    refine rows.mapped rfl rfl (.setWork fun before holds => absurd holds (unused before)) ?_ ?_
    · intro row
      split_ifs <;> exact ⟨rfl, rfl, rfl⟩
    · intro row member other own
      split_ifs at own with same
      · obtain rfl : other = token := (Option.some.inj own).symm
        have listed := List.mem_of_find?_eq_some available
        obtain rfl := List.inj_on_of_nodup_map rows.ids member listed (beq_iff_eq.mp same)
        exact .inr ⟨_, Function.update_self .., rfl⟩
      · exact .inl own
  | workRenewed now token extendMs held holds store extended =>
    obtain ⟨sessions, rfl⟩ := renewWorkItemLock_spec extended
    refine rows.mapped rfl rfl (.of_eq rfl) ?_ ?_
    · intro row
      split_ifs <;> exact ⟨rfl, rfl, rfl⟩
    · intro row member other own
      split_ifs at own <;> exact .inl own
  | workCancelled now token extendMs error held holds =>
    refine rows.sub (List.Sublist.refl _) rfl (KeepsWork.setWork fun before given => ?_)
    cases holds.symm.trans given
    rfl
  | workCompleted now token maxAttempts outcome held holds completion reported store acked =>
    obtain ⟨row, sessions, _, rfl⟩ := ackWorkItem_spec acked
    exact rows.sub List.filter_sublist rfl (.of_eq rfl)
  | workDropped now token held holds cancelled store acked =>
    obtain ⟨row, sessions, _, rfl⟩ := ackWorkItem_spec acked
    exact rows.sub List.filter_sublist rfl (.of_eq rfl)
  | workAbandoned now token delayMs ignoreAttempt store released =>
    obtain rfl := abandonWorkItem_spec released
    refine rows.mapped rfl rfl (.of_eq rfl) ?_ ?_
    · intro row
      split_ifs <;> exact ⟨rfl, rfl, rfl⟩
    · intro row member other own
      split_ifs at own
      · cases own
      · exact .inl own

theorem of_reachable {guard : World semver → Step semver → Prop} (reached : (system semver).Reachable guard world) :
    WorkerRows world :=
  reached.invariant
    (fun _ start => start ▸ ⟨fun _ none => absurd none List.not_mem_nil, List.nodup_nil,
      fun _ none => absurd none List.not_mem_nil, fun _ none => absurd none List.not_mem_nil⟩)
    fun _ _ _ rows _ taken => rows.step (World.step_effect taken)

end WorkerRows

/-! ## Scheduled and open activities -/

/-- A row of the worker queue holds an activity. -/
def Queued (store : Store) (identity : ScheduledActivityIdentifier) : Prop :=
  some identity ∈ store.workerQueue.map (·.identity)

/-- The recorded events of an execution schedule an activity. -/
def Scheduled (store : Store) (identity : ScheduledActivityIdentifier) : Prop :=
  SchedulesActivity (store.recorded identity.instanceId identity.executionId) identity.activityId

/-- The recorded events of an execution complete an activity, or request its cancellation. -/
def Closed (store : Store) (identity : ScheduledActivityIdentifier) : Prop :=
  CompletesActivity (store.recorded identity.instanceId identity.executionId) identity.activityId ∨
    CancelsActivity (store.recorded identity.instanceId identity.executionId) identity.activityId

/-- A message to an instance reports an activity of it that is not in the queue. -/
structure Reported (store : Store) (instanceId : String) (identity : ScheduledActivityIdentifier) : Prop where
  own : identity.instanceId = instanceId
  scheduled : Scheduled store identity
  unqueued : ¬ Queued store identity

/-- What a step may do to activities: schedule more, and enqueue those. -/
structure Carries (store after : Store) : Prop where
  scheduled : ∀ identity, Scheduled store identity → Scheduled after identity
  queued : ∀ identity, Queued after identity → Queued store identity ∨ ¬ Scheduled store identity

theorem Reported.mono {store result : Store} {instanceId : String} {identity : ScheduledActivityIdentifier}
    (reported : Reported store instanceId identity) (carries : Carries store result) :
    Reported result instanceId identity where
  own := reported.own
  scheduled := carries.scheduled identity reported.scheduled
  unqueued queued := (carries.queued identity queued).elim reported.unqueued fun unscheduled =>
    unscheduled reported.scheduled

/-- Queued activities are scheduled and open, each in one row, and none is reported. -/
structure QueuedActivities (world : World semver) : Prop where
  distinct : (world.store.workerQueue.map (·.identity)).Nodup
  scheduled : ∀ identity, Queued world.store identity → Scheduled world.store identity
  opened : ∀ identity, Queued world.store identity → ¬ Closed world.store identity
  completes : ∀ identity : ScheduledActivityIdentifier,
    CompletesActivity (world.store.recorded identity.instanceId identity.executionId) identity.activityId →
      Scheduled world.store identity
  refers : ∀ instanceId executionId, ∀ event ∈ world.store.recorded instanceId executionId,
    (activityCancelReason event.kind).isSome → ∀ id, event.sourceEventId = some id → id < event.eventId
  reported : ∀ row ∈ world.store.orchestratorQueue, ∀ identity, row.workItem.reportedActivity = some identity →
    Reported world.store row.instanceId identity
  held : ∀ token delivery, world.deliveries token = some delivery → ∀ message ∈ delivery.item.messages,
    ∀ identity, message.reportedActivity = some identity → Reported world.store delivery.item.instanceId identity

namespace QueuedActivities

/-! ### Steps that commit nothing -/

/-- A step commits an acknowledgement, or adds no activity. -/
theorem identities_of_effect (effect : Effect world label after) :
    (after.store.workerQueue.map (·.identity)).Sublist (world.store.workerQueue.map (·.identity)) ∨
      ∃ delivery request instanceId, Commits world label delivery request instanceId after := by
  have mapped : ∀ {change : WorkerRow → WorkerRow}, (∀ row, (change row).identity = row.identity) →
      ((world.store.workerQueue.map change).map (·.identity)).Sublist (world.store.workerQueue.map (·.identity)) := by
    intro change same
    rw [List.map_map]
    exact (List.map_congr_left fun row _ => same row) ▸ List.Sublist.refl _
  cases effect with
  | fetchedNothing | decided | ackFailed | turnFailed | abandonFailed | renewFailed | workAckFailed | workDropFailed
  | workAbandonFailed | enqueued | workCancelled =>
    exact .inl (List.Sublist.refl _)
  | fetched config filter now lockTimeoutMs token fault fresh item attemptCount candidate =>
    left
    rw [← (@lockedStore_workers world.store now lockTimeoutMs token _ candidate.unlocked).1]
    exact List.Sublist.refl _
  | dropped config filter now lockTimeoutMs token fault fresh instanceId candidate =>
    left
    rw [← (@lockedStore_workers world.store now lockTimeoutMs token _ candidate.unlocked).1]
    exact List.Sublist.refl _
  | acked config now token fault delivery request fallback failed holds phase instanceId store committed =>
    exact .inr ⟨delivery, request, instanceId, ⟨config, now, token, fault, rfl, holds, committed, rfl⟩, fallback, failed,
      phase⟩
  | abandoned now token delivery delayMs ignoreAttempt holds phase store released =>
    obtain ⟨instanceId, _, rfl⟩ := abandonOrchestrationItem_spec released
    exact .inl (List.Sublist.refl _)
  | renewed now token extendMs store extended =>
    obtain rfl := QueueSound.renewOrchestrationItemLock_spec extended
    exact .inl (List.Sublist.refl _)
  | workFetched now lockTimeoutMs token session filter fresh workItem attemptCount store found =>
    obtain ⟨fetched, sessions, _, _, rfl⟩ := fetchWorkItem_spec found
    exact .inl (mapped fun row => by split_ifs <;> rfl)
  | workRenewed now token extendMs held holds store extended =>
    obtain ⟨sessions, rfl⟩ := renewWorkItemLock_spec extended
    exact .inl (mapped fun row => by split_ifs <;> rfl)
  | workCompleted now token maxAttempts outcome held holds completion reported store acked =>
    obtain ⟨row, sessions, _, rfl⟩ := ackWorkItem_spec acked
    exact .inl (List.filter_sublist.map _)
  | workDropped now token held holds cancelled store acked =>
    obtain ⟨row, sessions, _, rfl⟩ := ackWorkItem_spec acked
    exact .inl (List.filter_sublist.map _)
  | workAbandoned now token delayMs ignoreAttempt store released =>
    obtain rfl := abandonWorkItem_spec released
    exact .inl (mapped fun row => by split_ifs <;> rfl)

theorem quiet_or_commits (effect : Effect world label after) :
    (SameRecords world.store after.store ∧
      (after.store.workerQueue.map (·.identity)).Sublist (world.store.workerQueue.map (·.identity))) ∨
        ∃ delivery request instanceId, Commits world label delivery request instanceId after := by
  rcases effect.records with same | commits
  · exact (identities_of_effect effect).imp_left fun fewer => ⟨same, fewer⟩
  · exact .inr commits

/-- A message that a worker reports is about the activity whose row it ends. -/
theorem reported_of_completed (queued : QueuedActivities world) (rows : WorkerRows world)
    {now token maxAttempts : Nat} {outcome : Except String String}
    (effect : Effect world (.completeWork now token maxAttempts outcome : Step semver) after) {row : OrchestratorRow}
    (member : row ∈ after.store.orchestratorQueue) :
    row ∈ world.store.orchestratorQueue ∨ ∀ identity, row.workItem.reportedActivity = some identity →
      Reported after.store row.instanceId identity := by
  cases effect with
  | workAckFailed => exact .inl member
  | workCompleted _ _ _ _ held holds completion reports store acked =>
    obtain ⟨locked, sessions, found, rfl⟩ := ackWorkItem_spec acked
    rcases List.mem_append.mp member with old | new
    · exact .inl old
    right
    intro identity reported
    rw [List.mem_singleton.mp new] at reported ⊢
    have listed := List.mem_of_find?_eq_some found
    have holdsWork := List.find?_some found
    simp only [Provider.holdsWork, Bool.and_eq_true, beq_iff_eq] at holdsWork
    obtain ⟨given, givenTo, item⟩ := rows.locked locked listed token holdsWork.1
    cases holds.symm.trans givenTo
    have same : locked.identity = some identity := by
      rw [rows.identity locked listed, ← item]
      unfold activityCompletion at reports
      split at reports
      · rename_i execute
        rw [execute]
        split_ifs at reports
        · cases reports
          exact reported
        · split at reports <;> cases reports <;> exact reported
      · cases reports
    have own : completion.targetInstance = identity.instanceId := by
      cases completion <;> cases reported <;> rfl
    refine ⟨own.symm, ?_, fun queuedAfter => ?_⟩
    · exact queued.scheduled identity (List.mem_map.mpr ⟨locked, listed, same⟩)
    · obtain ⟨other, kept, sameIdentity⟩ := List.mem_map.mp queuedAfter
      obtain ⟨was, unheld⟩ := List.mem_filter.mp kept
      obtain rfl := List.inj_on_of_nodup_map queued.distinct was listed (sameIdentity.trans same.symm)
      rw [List.find?_some found] at unheld
      cases unheld

/-! ### Commits -/

section Commit

variable {conditions : Conditions semver} {delivery : Delivery semver} {request : AckRequest semver}
  {now token : Nat} {instanceId : String}

/-- What is known where a commit changes the activities of its execution. -/
structure Committing (world after : World semver) (delivery : Delivery semver) (request : AckRequest semver)
    (now token : Nat) (instanceId : String) : Prop where
  holds : world.deliveries token = some delivery
  committed : Acked world.store now token instanceId request after.store
  own : delivery.item.instanceId = instanceId
  accounts : Accounts delivery.item request
  extended : Extended world.store after.store delivery.item request
  ordered : Ascending (after.store.recorded instanceId request.executionId)

/-- A commit that schedules an activity appends to what its holder had read. -/
theorem Committing.appends (commits : Committing world after delivery request now token instanceId) {id : Nat}
    (scheduled : SchedulesActivity request.historyDelta id) :
    world.store.recorded instanceId request.executionId = baseHistory delivery.item request.executionId ∧
      after.store.recorded instanceId request.executionId =
        baseHistory delivery.item request.executionId ++ request.historyDelta := by
  obtain ⟨holds, committed, rfl, accounts, extended, ordered⟩ := commits
  obtain ⟨event, member, rfl, kind⟩ := scheduled
  cases extended with
  | unchanged readable same empty nothing =>
    rw [nothing] at member
    exact absurd member List.not_mem_nil
  | corrupted info row current message unreadable failed delta numbered isFailed =>
    rw [delta] at member
    rw [List.mem_singleton.mp member] at kind
    obtain ⟨eventId, source, instanceId, executionId, timestamp, crate, eventKind⟩ := failed
    cases eventKind <;> first | cases isFailed; done | cases kind
  | continued readable same base appended =>
    rw [appended, base, same, baseHistory_self]
    exact ⟨rfl, rfl⟩
  | opened readable continues next info row current named base appended =>
    rw [appended, base, next, baseHistory_next]
    exact ⟨rfl, rfl⟩

/-- What is recorded behind what a commit found was not recorded before. -/
theorem Committing.new (commits : Committing world after delivery request now token instanceId) {id : Nat}
    (scheduled : SchedulesActivity request.historyDelta id) :
    ∀ event ∈ world.store.recorded instanceId request.executionId, event.eventId < id := by
  obtain ⟨base, appended⟩ := commits.appends scheduled
  have ordered := commits.ordered
  obtain ⟨event, member, rfl, _⟩ := scheduled
  intro earlier recorded
  rw [appended] at ordered
  rw [base] at recorded
  exact (List.pairwise_append.mp ordered).2.2 earlier recorded event member

/-- The rows after a commit: those before it and those of its items, but for the cancelled ones. -/
theorem Committing.queued (commits : Committing world after delivery request now token instanceId)
    {identity : ScheduledActivityIdentifier} (queued : Queued after.store identity) :
    identity ∉ request.cancelledActivities ∧ (Queued world.store identity ∨
      request.workerItems ≠ [] ∧ identity.instanceId = instanceId ∧ identity.executionId = request.executionId ∧
        SchedulesActivity request.historyDelta identity.activityId ∧
        ∀ event ∈ world.store.recorded instanceId request.executionId, event.eventId < identity.activityId) := by
  obtain ⟨row, member, same⟩ := List.mem_map.mp queued
  rw [commits.committed.workers] at member
  obtain ⟨listed, uncancelled⟩ := List.mem_filter.mp member
  refine ⟨fun cancelled => ?_, ?_⟩
  · rw [same] at uncancelled
    simp [cancelled] at uncancelled
  rcases List.mem_append.mp listed with old | new
  · exact .inl (List.mem_map.mpr ⟨row, old, same⟩)
  right
  obtain ⟨runs, columns⟩ := workItem_of_mem_workerRows new
  obtain ⟨id, name, input, sessionId, tag, item, scheduled⟩ := commits.accounts.runs row.workItem runs
  rw [columns, item] at same
  cases same
  exact ⟨List.ne_nil_of_mem runs, commits.own, rfl, scheduled, commits.new scheduled⟩

theorem Committing.carries (commits : Committing world after delivery request now token instanceId) :
    Carries world.store after.store where
  scheduled identity scheduled := by
    by_cases own : (identity.instanceId, identity.executionId) = (instanceId, request.executionId)
    · refine scheduled.mono fun event recorded => ?_
      rw [(Prod.mk.inj own).1, (Prod.mk.inj own).2] at recorded ⊢
      exact (mem_recorded_iff commits.committed).mpr (.inl recorded)
    · rw [Scheduled, recorded_other commits.committed own]
      exact scheduled
  queued identity queued := by
    rcases (commits.queued queued).2 with before | ⟨_, own, execution, _, new⟩
    · exact .inl before
    · right
      rintro ⟨event, recorded, same, _⟩
      rw [own, execution] at recorded
      exact absurd (new event recorded) (by omega)

/-- What a commit completes was reported to its holder. -/
theorem Committing.reported (commits : Committing world after delivery request now token instanceId)
    (queued : QueuedActivities world) {id : Nat} (completes : CompletesActivity request.historyDelta id) :
    Reported world.store instanceId ⟨instanceId, request.executionId, id⟩ := by
  obtain ⟨message, member, completion⟩ := commits.accounts.completes id completes
  have identified : ∃ target, message.reportedActivity = some ⟨target, request.executionId, id⟩ := by
    cases message <;> first
      | simp [WorkItem.completion] at completion; done
      | cases completion; exact ⟨_, rfl⟩
  obtain ⟨target, reports⟩ := identified
  have reported := queued.held token delivery commits.holds message member _ reports
  rw [commits.own] at reported
  have own : target = instanceId := reported.own
  rwa [own] at reported

/-- What is queued after a commit is open. -/
theorem Committing.opened (commits : Committing world after delivery request now token instanceId)
    (queued : QueuedActivities world) {identity : ScheduledActivityIdentifier} (present : Queued after.store identity) :
    ¬ Closed after.store identity := by
  obtain ⟨uncancelled, origin⟩ := commits.queued present
  by_cases own : (identity.instanceId, identity.executionId) = (instanceId, request.executionId)
  swap
  · have before : Queued world.store identity := by
      refine origin.resolve_right fun ⟨_, sameInstance, sameExecution, _⟩ => own ?_
      rw [sameInstance, sameExecution]
    rw [Closed, recorded_other commits.committed own]
    exact queued.opened identity before
  obtain ⟨target, execution, id⟩ := identity
  obtain ⟨rfl, rfl⟩ := Prod.mk.inj own
  have unrecorded : Queued world.store ⟨target, request.executionId, id⟩ ∨
      ¬ Scheduled world.store ⟨target, request.executionId, id⟩ := commits.carries.queued _ present
  rintro (completes | cancels)
  · obtain ⟨event, recorded, completion⟩ := completesActivity_iff.mp completes
    rcases (mem_recorded_iff commits.committed).mp recorded with old | new
    · have before := completesActivity_iff.mpr ⟨event, old, completion⟩
      rcases unrecorded with kept | unscheduled
      · exact queued.opened _ kept (.inl before)
      · exact unscheduled (queued.completes _ before)
    · have reported := commits.reported queued (completesActivity_iff.mpr ⟨event, new, completion⟩)
      exact unrecorded.elim reported.unqueued fun unscheduled => unscheduled reported.scheduled
  · obtain ⟨event, recorded, requests, source⟩ := cancels
    rcases (mem_recorded_iff commits.committed).mp recorded with old | new
    · rcases origin with kept | ⟨_, _, _, _, behind⟩
      · exact queued.opened _ kept (.inr ⟨event, old, requests, source⟩)
      · have below := queued.refers target request.executionId event old requests id source
        have above := behind event old
        dsimp only at above
        omega
    · have cancelled := commits.accounts.cancels id ⟨event, new, requests, source⟩
      rw [commits.own] at cancelled
      exact uncancelled cancelled

theorem Committing.distinct (commits : Committing world after delivery request now token instanceId)
    (queued : QueuedActivities world) : (after.store.workerQueue.map (·.identity)).Nodup := by
  rw [commits.committed.workers]
  refine List.Nodup.sublist (List.filter_sublist.map _) ?_
  rw [List.map_append, workerRows_identity]
  refine List.nodup_append.mpr ⟨queued.distinct, commits.accounts.distinct, ?_⟩
  intro identity old other new same
  subst same
  obtain ⟨workItem, listed, rfl⟩ := List.mem_map.mp new
  obtain ⟨id, name, input, sessionId, tag, rfl, scheduled⟩ := commits.accounts.runs workItem listed
  obtain ⟨event, recorded, same, _⟩ := queued.scheduled _ old
  have behind := commits.new scheduled
  dsimp only at recorded same
  rw [commits.own] at recorded
  exact absurd (behind event recorded) (by omega)

end Commit

/-! ### Runs -/

/-- What is known of every world, besides its activities. -/
structure Surroundings (conditions : Conditions semver) (world : World semver) : Prop where
  coherent : Coherent world
  provenance : Provenance world
  pending : Pending conditions world
  lifecycle : Lifecycle world
  rows : WorkerRows world

theorem Surroundings.of_reachable {conditions : Conditions semver}
    (reached : (system semver).Reachable conditions.guard world) : Surroundings conditions world :=
  ⟨.of_reachable reached, .of_reachable reached, .of_reachable reached, .of_reachable reached, .of_reachable reached⟩

variable {conditions : Conditions semver}

/-- What a commit is based on. -/
theorem committing (around : Surroundings conditions world) (effect : Effect world label after)
    {delivery : Delivery semver} {request : AckRequest semver} {instanceId : String}
    (commits : Commits world label delivery request instanceId after) :
    ∃ now token, Committing world after delivery request now token instanceId ∧
      ∃ fallback failed, delivery.phase = .acking request fallback failed := by
  have extended := around.lifecycle.extended around.provenance around.coherent around.pending commits
  obtain ⟨config, now, token, fault, _, holds, committed, _⟩ := commits.holds
  obtain ⟨fallback, failed, phase⟩ := commits.phase
  obtain ⟨own, _⟩ := around.coherent.of_locked committed.locked holds
  have origin := around.provenance.items token delivery holds
  have source := (around.pending token delivery request fallback failed holds phase).source
  exact ⟨now, token, ⟨holds, committed, own, source.accounts origin.ordered, extended,
    (around.provenance.step effect).ascending instanceId request.executionId⟩, fallback, failed, phase⟩

theorem carries_of_effect (around : Surroundings conditions world) (effect : Effect world label after) :
    Carries world.store after.store := by
  rcases quiet_or_commits effect with ⟨same, fewer⟩ | ⟨delivery, request, instanceId, commits⟩
  · refine ⟨fun identity scheduled => ?_, fun identity queued => .inl (fewer.subset queued)⟩
    rwa [Scheduled, Store.recorded, same.history]
  · obtain ⟨_, _, committing, _⟩ := committing around effect commits
    exact committing.carries

/-- The rows of the orchestrator queue report what is not queued. -/
theorem reported_of_effect (queued : QueuedActivities world) (around : Surroundings conditions world)
    (effect : Effect world label after) {row : OrchestratorRow} (member : row ∈ after.store.orchestratorQueue)
    {identity : ScheduledActivityIdentifier} (reports : row.workItem.reportedActivity = some identity) :
    Reported after.store row.instanceId identity := by
  cases effect.row member with
  | kept original old item sameInstance =>
    rw [← item] at reports
    rw [← sameInstance]
    exact (queued.reported original old identity reports).mono (carries_of_effect around effect)
  | client target item =>
    obtain ⟨id, instanceId, workItem, visibleAt⟩ := row
    cases workItem <;> first | cases reports; done | cases item
  | completion target item taken =>
    obtain ⟨now, token, maxAttempts, outcome, rfl⟩ := taken
    rcases queued.reported_of_completed around.rows effect member with old | reported
    · exact (queued.reported row old identity reports).mono (carries_of_effect around effect)
    · exact reported identity reports
  | committed target delivery request instanceId commits listed =>
    obtain ⟨_, _, committing, _⟩ := committing around effect commits
    rw [committing.accounts.reports _ listed] at reports
    cases reports

theorem held_of_effect (queued : QueuedActivities world) (around : Surroundings conditions world)
    (effect : Effect world label after) {token : Nat} {delivery : Delivery semver}
    (holds : after.deliveries token = some delivery) {message : WorkItem} (member : message ∈ delivery.item.messages)
    {identity : ScheduledActivityIdentifier} (reports : message.reportedActivity = some identity) :
    Reported after.store delivery.item.instanceId identity := by
  have carries := carries_of_effect around effect
  cases effect.deliveryStep holds with
  | same held => exact (queued.held token delivery held message member identity reports).mono carries
  | moved before held step kept =>
    rw [kept] at member ⊢
    exact (queued.held token before held message member identity reports).mono carries
  | fetched config filter now lockTimeoutMs unused phase candidate found =>
    have fresh : Unused world.store token := by
      obtain ⟨desk, presents, sound⟩ := around.coherent
      rw [← presents.store]
      refine sound.unused ?_
      have items := presents.items token
      rw [unused, Option.map_none] at items
      exact Option.map_eq_none_iff.mp items.symm
    rw [found.messages] at member
    obtain ⟨row, old, sameInstance, _, item⟩ := (mem_batch fresh candidate.unlocked message).mp member
    rw [← OrchestratorRow.workItem_of_decoded item] at reports
    rw [← sameInstance]
    exact (queued.reported row old identity reports).mono carries

theorem step (queued : QueuedActivities world) (around : Surroundings conditions world)
    (effect : Effect world label after) : QueuedActivities after := by
  have reported : ∀ row ∈ after.store.orchestratorQueue, ∀ identity, row.workItem.reportedActivity = some identity →
      Reported after.store row.instanceId identity :=
    fun _ member _ => queued.reported_of_effect around effect member
  have held : ∀ token delivery, after.deliveries token = some delivery → ∀ message ∈ delivery.item.messages,
      ∀ identity, message.reportedActivity = some identity →
        Reported after.store delivery.item.instanceId identity :=
    fun _ _ holds _ member _ => queued.held_of_effect around effect holds member
  rcases quiet_or_commits effect with ⟨same, fewer⟩ | ⟨delivery, request, instanceId, commits⟩
  · have kept : ∀ instanceId executionId, after.store.recorded instanceId executionId =
        world.store.recorded instanceId executionId := by
      intro instanceId executionId
      rw [Store.recorded, Store.recorded, same.history]
    refine ⟨queued.distinct.sublist fewer, ?_, ?_, ?_, ?_, reported, held⟩
    · intro identity present
      rw [Scheduled, kept]
      exact queued.scheduled identity (fewer.subset present)
    · intro identity present
      rw [Closed, kept]
      exact queued.opened identity (fewer.subset present)
    · intro identity completes
      rw [kept] at completes
      rw [Scheduled, kept]
      exact queued.completes identity completes
    · intro target execution
      rw [kept]
      exact queued.refers target execution
  · obtain ⟨now, token, committing, _⟩ := committing around effect commits
    refine ⟨committing.distinct queued, ?_, fun identity => committing.opened queued, ?_, ?_, reported, held⟩
    · intro identity present
      rcases (committing.queued present).2 with before | ⟨_, own, execution, scheduled, _⟩
      · exact committing.carries.scheduled identity (queued.scheduled identity before)
      · refine scheduled.mono fun event recorded => ?_
        rw [own, execution]
        exact (mem_recorded_iff committing.committed).mpr (.inr recorded)
    · intro identity completes
      by_cases own : (identity.instanceId, identity.executionId) = (instanceId, request.executionId)
      · obtain ⟨target, execution, id⟩ := identity
        obtain ⟨rfl, rfl⟩ := Prod.mk.inj own
        obtain ⟨event, recorded, completion⟩ := completesActivity_iff.mp completes
        refine committing.carries.scheduled _ ?_
        rcases (mem_recorded_iff committing.committed).mp recorded with old | new
        · exact queued.completes _ (completesActivity_iff.mpr ⟨event, old, completion⟩)
        · exact (committing.reported queued (completesActivity_iff.mpr ⟨event, new, completion⟩)).scheduled
      · rw [recorded_other committing.committed own] at completes
        exact committing.carries.scheduled identity (queued.completes identity completes)
    · intro target execution event recorded requests id source
      by_cases own : (target, execution) = (instanceId, request.executionId)
      · obtain ⟨rfl, rfl⟩ := Prod.mk.inj own
        rcases (mem_recorded_iff committing.committed).mp recorded with old | new
        · exact queued.refers _ _ event old requests id source
        · exact committing.accounts.refers event new requests id source
      · rw [recorded_other committing.committed own] at recorded
        exact queued.refers _ _ event recorded requests id source

theorem initial : QueuedActivities ({} : World semver) where
  distinct := List.nodup_nil
  scheduled _ none := absurd none List.not_mem_nil
  opened _ none := absurd none List.not_mem_nil
  completes _ none := absurd none List.not_mem_nil
  refers _ _ _ none := absurd none List.not_mem_nil
  reported _ none := absurd none List.not_mem_nil
  held _ _ none := nomatch none

/-- In every run, queued activities are scheduled and open. -/
theorem of_reachable {guard : World semver → Step semver → Prop} (reached : (system semver).Reachable guard world) :
    QueuedActivities world := by
  have everywhere := reachable_unconditionally reached
  clear reached
  induction everywhere with
  | initial start => exact start ▸ initial
  | step reached _ taken ih => exact ih.step (.of_reachable reached) (World.step_effect taken)

end QueuedActivities

/-! ## Finished executions -/

namespace FinishedExecutions

open VersionPinning QueuedActivities

/-- The worker queue holds no activity of an execution. -/
def NoneQueued (store : Store) (instanceId : String) (executionId : Nat) : Prop :=
  ∀ row ∈ store.workerQueue, ∀ id name input sessionId tag,
    row.workItem ≠ .activityExecute instanceId executionId id name input sessionId tag

/-- The worker queue holds no activity of an execution that completed, failed or continued as new. -/
def LeavesNoneQueued (store : Store) : Prop :=
  ∀ instanceId executionId row, (store.executions instanceId).lookup executionId = some row →
    ExecutionStatus.isTerminal row.status → NoneQueued store instanceId executionId

/-- No failure is committed without a turn while activities of the execution are queued. -/
def conditions (semver : Semver) : Conditions semver where
  commit store item request := FailsOutright item request → NoneQueued store item.instanceId request.executionId

theorem noneQueued_iff (rows : WorkerRows world) {instanceId : String} {executionId : Nat} :
    NoneQueued world.store instanceId executionId ↔ ∀ id, ¬ Queued world.store ⟨instanceId, executionId, id⟩ := by
  constructor
  · intro none id queued
    obtain ⟨row, member, same⟩ := List.mem_map.mp queued
    rw [rows.identity row member] at same
    cases item : row.workItem <;> rw [item] at same <;> cases same
    exact none row member _ _ _ _ _ item
  · intro none row member id name input sessionId tag item
    refine none id (List.mem_map.mpr ⟨row, member, ?_⟩)
    rw [rows.identity row member, item]
    rfl

/-- An execution with a terminal status has a terminal event on record, and nothing in the queue. -/
structure Finished (store : Store) (instanceId : String) (executionId : Nat) : Prop where
  ended : ∃ event ∈ store.recorded instanceId executionId, event.kind.isTerminal
  none : ∀ id, ¬ Queued store ⟨instanceId, executionId, id⟩

variable {delivery : Delivery semver} {request : AckRequest semver} {now token : Nat} {instanceId : String}

/-- A turn that ends its execution leaves none of its activities in the queue. -/
theorem none_of_settles (commits : Committing world after delivery request now token instanceId)
    (queued : QueuedActivities world) (readable : delivery.item.historyError = none)
    (settles : Settles delivery.item request) (status : request.metadata.status.isSome) (id : Nat) :
    ¬ Queued after.store ⟨instanceId, request.executionId, id⟩ := by
  intro present
  have opened := commits.opened queued present
  obtain ⟨uncancelled, origin⟩ := commits.queued present
  have before : Scheduled world.store ⟨instanceId, request.executionId, id⟩ :=
    queued.scheduled _ (origin.resolve_right fun ⟨runs, _⟩ => runs (commits.accounts.running status))
  obtain ⟨holds, committed, rfl, accounts, extended, ordered⟩ := commits
  cases extended with
  | unchanged _ same empty nothing =>
    obtain ⟨event, recorded, _⟩ := accounts.ended status
    rw [nothing] at recorded
    exact absurd recorded List.not_mem_nil
  | corrupted info row current message unreadable =>
    rw [readable] at unreadable
    cases unreadable
  | opened _ continues next info row current named base =>
    obtain ⟨event, recorded, _⟩ := before
    dsimp only at recorded
    rw [base] at recorded
    exact absurd recorded List.not_mem_nil
  | continued _ same base appended =>
    have all : after.store.recorded delivery.item.instanceId request.executionId =
        baseHistory delivery.item request.executionId ++ request.historyDelta := by
      rw [appended, same, baseHistory_self]
    have scheduled : SchedulesActivity (baseHistory delivery.item request.executionId ++ request.historyDelta) id := by
      refine before.mono fun event recorded => List.mem_append_left _ ?_
      rwa [same, baseHistory_self, ← base]
    rcases settles status id scheduled with completes | cancels | cancelled
    · exact opened (.inl (all ▸ completes))
    · exact opened (.inr (all ▸ cancels))
    · exact uncancelled cancelled

/-- A commit that takes no turn keeps the rows of its execution as they are, or finds none. -/
theorem none_of_failsOutright (commits : Committing world after delivery request now token instanceId)
    (rows : WorkerRows world) (none : NoneQueued world.store instanceId request.executionId)
    (status : request.metadata.status.isSome) (id : Nat) : ¬ Queued after.store ⟨instanceId, request.executionId, id⟩ := by
  intro present
  refine (noneQueued_iff rows).mp none id ((commits.queued present).2.resolve_right fun ⟨runs, _⟩ => ?_)
  exact runs (commits.accounts.running status)

/-- The status of an execution's row after a commit: the request's, or the one before. -/
theorem status_of_acked {store result : Store} (committed : Acked store now token instanceId request result)
    {row : ExecutionRow} (found : (result.executions instanceId).lookup request.executionId = some row)
    (ended : ExecutionStatus.isTerminal row.status) : request.metadata.status.isSome ∨
      ∃ before, (store.executions instanceId).lookup request.executionId = some before ∧
        ExecutionStatus.isTerminal before.status := by
  rw [committed.executionRow] at found
  cases found
  rcases same : request.metadata.status with _ | status
  swap
  · exact .inl rfl
  right
  simp only [statusExecution, same] at ended
  have kept : (pinnedExecution request ((store.executions instanceId).lookup request.executionId)).status =
      (((store.executions instanceId).lookup request.executionId).getD {}).status := by
    unfold pinnedExecution
    split <;> rfl
  rw [kept] at ended
  rcases before : (store.executions instanceId).lookup request.executionId with _ | row
  · rw [before] at ended
    cases ended
  · rw [before] at ended
    exact ⟨row, rfl, ended⟩

/-- Every execution with a terminal status is finished. -/
def AllFinished (store : Store) : Prop :=
  ∀ instanceId executionId row, (store.executions instanceId).lookup executionId = some row →
    ExecutionStatus.isTerminal row.status → Finished store instanceId executionId

theorem finished_of_commits (finished : AllFinished world.store)
    (around : Surroundings (conditions semver) world) (queued : QueuedActivities world)
    (allowed : (conditions semver).guard world label) (effect : Effect world label after)
    (commits : Commits world label delivery request instanceId after) : AllFinished after.store := by
  obtain ⟨now, token, committing, fallback, failed, phase⟩ := committing around effect commits
  have permitted := (commits.allowed around.coherent allowed).2
  have origin := around.provenance.items token delivery committing.holds
  have source := (around.pending token delivery request fallback failed committing.holds phase).source
  intro target executionId row found ended
  by_cases own : (target, executionId) = (instanceId, request.executionId)
  · obtain ⟨rfl, rfl⟩ := Prod.mk.inj own
    rcases status_of_acked committing.committed found ended with status | ⟨before, was, terminal⟩
    · constructor
      · obtain ⟨event, recorded, terminal⟩ := committing.accounts.ended status
        exact ⟨event, (mem_recorded_iff committing.committed).mpr (.inr recorded), terminal⟩
      · rcases source.settles origin.ordered with outright | ⟨readable, settles⟩
        · have none := permitted outright
          rw [committing.own] at none
          exact none_of_failsOutright committing around.rows none status
        · exact none_of_settles committing queued readable settles status
    · obtain ⟨⟨event, recorded, isTerminal⟩, none⟩ := finished _ _ before was terminal
      refine ⟨⟨event, (mem_recorded_iff committing.committed).mpr (.inl recorded), isTerminal⟩, fun id present => ?_⟩
      refine none id ((committing.queued present).2.resolve_right fun ⟨runs, _, _, scheduled, _⟩ => ?_)
      -- what ended schedules nothing more
      have unended := committing.accounts.unended runs
      rw [(committing.appends scheduled).1] at recorded
      rw [List.any_eq_false] at unended
      exact unended event recorded isTerminal
  · have kept : (world.store.executions target).lookup executionId = some row := by
      by_cases same : target = instanceId
      · subst same
        rw [← committing.committed.otherExecutions executionId fun again => own (again ▸ rfl)]
        exact found
      · rw [← committing.committed.foreignExecutions target same]
        exact found
    obtain ⟨recorded, none⟩ := finished target executionId row kept ended
    refine ⟨?_, fun id present => none id ((committing.queued present).2.resolve_right ?_)⟩
    · rw [recorded_other committing.committed own]
      exact recorded
    · rintro ⟨_, sameInstance, sameExecution, _⟩
      exact own (by rw [← sameInstance, ← sameExecution])

/-- As long as failures without a turn find nothing in the queue, finished executions leave nothing there. -/
theorem leavesNoneQueued_of_guarded (reached : (system semver).Reachable (conditions semver).guard world) :
    LeavesNoneQueued world.store := by
  have finished : AllFinished world.store := by
    induction reached with
    | initial start =>
      subst start
      intro instanceId executionId row found
      simp at found
    | step reached allowed taken ih =>
      have around := Surroundings.of_reachable reached
      have effect := World.step_effect taken
      rcases quiet_or_commits effect with ⟨same, fewer⟩ | ⟨delivery, request, instanceId, commits⟩
      · intro instanceId executionId row found ended
        rw [same.executions] at found
        obtain ⟨recorded, none⟩ := ih instanceId executionId row found ended
        refine ⟨?_, fun id present => none id (fewer.subset present)⟩
        rwa [Store.recorded, same.history]
      · exact finished_of_commits ih around (.of_reachable reached) allowed effect commits
  intro instanceId executionId row found ended
  exact (noneQueued_iff (.of_reachable reached)).mpr (finished instanceId executionId row found ended).none

theorem cancelledActivities_of_failsOutright {item : OrchestrationItem} (outright : FailsOutright item request) :
    request.cancelledActivities = [] := by
  rcases outright with ⟨env, attemptCount, rfl⟩ | ⟨env, executionId, error, rfl⟩
  · unfold failOrchestrationAsPoison
    split <;> rfl
  · rfl

/-- A test that implies the condition. -/
def passes (world : World semver) : Step semver → Bool
  | .ack _ _ token _ => (world.deliveries token).all fun delivery =>
      match delivery.phase with
      | .acking request _ _ => !request.cancelledActivities.isEmpty || world.store.workerQueue.isEmpty
      | _ => true
  | _ => true

theorem guard_of_passes (world : World semver) (label : Step semver) (tested : passes world label) :
    (conditions semver).guard world label := by
  cases label with
  | ack config now token fault =>
    intro delivery request fallback failed holds phase locked outright row member
    simp [passes, holds, phase, cancelledActivities_of_failsOutright outright] at tested
    rw [tested] at member
    exact absurd member List.not_mem_nil
  | decide | failTurn => exact fun _ _ => trivial
  | client | fetch | abandon | renew | fetchWork | renewWork | completeWork | dropWork | abandonWork => trivial

/-! An orchestration that waits for its activity until it is cancelled, becomes poison or fails to be committed. -/

def workingHandler : OrchestrationHandler where
  State := Bool
  invoke _ := true
  poll
    | true => .call (.scheduleActivity "work" "" none) fun _ => .suspend false
    | false => .suspend false

def workingEnv (maxAttempts : Nat) : RuntimeEnv textSemver :=
  { registeredEnv fun name => if name = "orch" then some workingHandler else none with maxAttempts }

def working : List (Step textSemver) :=
  [.client 0 (.startOrchestration "i" "orch" "" none none none 1), .fetch {} none 0 1000 1 none,
    .decide 1 (workingEnv 10), .ack {} 0 1 none, .client 0 (.cancelInstance "i" "stop")]

/-- The cancellation is committed by a turn. -/
def stopped : List (Step textSemver) :=
  working ++ [.fetch {} none 0 1000 2 none, .decide 2 (workingEnv 10), .ack {} 0 2 none]

theorem leavesNoneQueued_of_guarded_stopped : ∃ world, World.runTested passes {} stopped = some world ∧
    ((world.store.executions "i").lookup 1).any (·.status == .failed) = true ∧ LeavesNoneQueued world.store := by
  have ran : (World.runTested passes {} stopped).any (fun world =>
      ((world.store.executions "i").lookup 1).any (·.status == .failed)) = true := by
    decide +kernel
  obtain ⟨world, reached, failed⟩ := (Option.any_eq_true _ _).mp ran
  exact ⟨world, reached, failed,
    leavesNoneQueued_of_guarded (World.reachable_of_runTested guard_of_passes (.initial rfl) reached)⟩

/-- The cancellation is fetched more often than it may be. -/
def poisoned : List (Step textSemver) :=
  working ++ [.fetch {} none 0 1000 2 none, .fetch {} none 1000 1000 3 none, .decide 3 (workingEnv 1), .ack {} 1000 3 none]

def diskFull : SqlxError := { message := "database or disk is full" }

/-- The commit of a turn fails for good. -/
def uncommitted : List (Step textSemver) :=
  working ++ [.fetch {} none 0 1000 2 none, .decide 2 (workingEnv 10), .ack {} 0 2 (some (0, diskFull)), .failTurn 2,
    .ack {} 0 2 none]

/-- Failures without a turn leave the activity in the queue. -/
theorem poisoned_uncommitted_leaveQueued :
    (∃ world, World.run {} poisoned = some world ∧ ¬ LeavesNoneQueued world.store) ∧
      ∃ world, World.run {} uncommitted = some world ∧ ¬ LeavesNoneQueued world.store := by
  have left : ∀ {labels : List (Step textSemver)},
      (World.run {} labels).any (fun world => ((world.store.executions "i").lookup 1).any (·.status == .failed) &&
        world.store.workerQueue.any (·.workItem == .activityExecute "i" 1 2 "work" "" none none)) = true →
      ∃ world, World.run {} labels = some world ∧ ¬ LeavesNoneQueued world.store := by
    intro labels ran
    obtain ⟨world, reached, facts⟩ := (Option.any_eq_true _ _).mp ran
    obtain ⟨failed, queued⟩ := Bool.and_eq_true_iff.mp facts
    obtain ⟨row, found, status⟩ := (Option.any_eq_true _ _).mp failed
    obtain ⟨worker, member, item⟩ := List.any_eq_true.mp queued
    refine ⟨world, reached, fun none => ?_⟩
    exact none "i" 1 row found (by rw [beq_iff_eq.mp status]; rfl) worker member _ _ _ _ _ (beq_iff_eq.mp item)
  exact ⟨left (by decide +kernel), left (by decide +kernel)⟩

end FinishedExecutions

end Duroxide
