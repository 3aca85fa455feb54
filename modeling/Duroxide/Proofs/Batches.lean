import Duroxide.Proofs.Lifecycle

/-! # The batch of a lock's holder

As long as a holder has the lock of its instance, the rows that its token marks are the messages that it
was given, in order. So a row leaves the orchestrator queue with the commit of somebody who was given its
message, or as an orphan.
-/

namespace Duroxide

open Provider

variable {semver : Semver} {world after : World semver} {label : Step semver}

/-- The rows marked with the token of a lock are the messages of its holder's item. -/
def HoldsBatches (world : World semver) : Prop :=
  ∀ instanceId lock delivery, world.store.instanceLocks.lookup instanceId = some lock →
    world.deliveries lock.lockToken = some delivery →
    (world.store.batch lock.lockToken).filterMap (·.decoded) = delivery.item.messages

theorem Coherent.queueSound (coherent : Coherent world) : QueueSound world.store := by
  obtain ⟨desk, presents, sound⟩ := coherent
  rw [← presents.store]
  exact sound.queue

/-- A token that nobody was given marks no row and no lock. -/
theorem Coherent.unused (coherent : Coherent world) {token : Nat} (fresh : world.isFresh token) :
    Unused world.store token := by
  obtain ⟨desk, presents, sound⟩ := coherent
  rw [← presents.store]
  exact sound.unused (presents.unissued fresh)

namespace HoldsBatches

/-! ## What a step leaves of a batch -/

variable {store result : Store} {now token other : Nat} {instanceId locked : String}

/-- Fetching another instance does not touch a batch. -/
theorem batch_lockedStore_of_other {lockTimeoutMs : Nat} (sound : QueueSound store)
    (unlocked : store.isUnlocked now instanceId) {lock : InstanceLock}
    (found : store.instanceLocks.lookup locked = some lock) (differs : locked ≠ instanceId)
    (unused : Unused store token) :
    (lockedStore store now lockTimeoutMs token instanceId).batch lock.lockToken = store.batch lock.lockToken := by
  rw [lockedStore_of_unlocked unlocked]
  simp only [Store.batch]
  have fresh : lock.lockToken ≠ token := unused.locks locked lock found
  have marked : ∀ row ∈ store.orchestratorQueue, row.lockToken = some lock.lockToken →
      markedRow now instanceId token row = row := by
    intro row member own
    have owner := sound.owned row member locked lock found own
    rw [markedRow, if_neg]
    simp only [Bool.and_eq_true, beq_iff_eq, not_and]
    exact fun same => absurd (owner.trans same) differs
  have unmarked : ∀ row ∈ store.orchestratorQueue,
      (markedRow now instanceId token row).lockToken = some lock.lockToken ↔ row.lockToken = some lock.lockToken := by
    intro row member
    refine ⟨fun own => ?_, fun own => by rw [marked row member own]; exact own⟩
    unfold markedRow at own
    split_ifs at own
    · exact absurd (Option.some.inj own).symm fresh
    · exact own
  rw [List.filter_map]
  have kept : store.orchestratorQueue.filter ((·.lockToken == some lock.lockToken) ∘ markedRow now instanceId token) =
      store.orchestratorQueue.filter (·.lockToken == some lock.lockToken) := by
    refine List.filter_congr fun row member => ?_
    rw [Bool.eq_iff_iff, Function.comp_apply, beq_iff_eq, beq_iff_eq]
    exact unmarked row member
  rw [kept]
  refine (List.map_congr_left fun row member => ?_).trans (List.map_id _)
  obtain ⟨queued, own⟩ := List.mem_filter.mp member
  exact marked row queued (beq_iff_eq.mp own)

theorem batch_append_unmarked {rows : List OrchestratorRow} (queue : result.orchestratorQueue = store.orchestratorQueue ++ rows)
    (free : ∀ row ∈ rows, row.lockToken = none) : result.batch token = store.batch token := by
  have none : rows.filter (·.lockToken == some token) = [] := by
    refine List.filter_eq_nil_iff.mpr fun row member => ?_
    rw [free row member]
    exact Bool.false_ne_true
  rw [Store.batch, Store.batch, queue, List.filter_append, none, List.append_nil]

/-- Changing rows, but neither their tokens nor their messages. -/
theorem batch_map {change : OrchestratorRow → OrchestratorRow}
    (queue : result.orchestratorQueue = store.orchestratorQueue.map change)
    (tokens : ∀ row, (change row).lockToken = row.lockToken) (items : ∀ row, (change row).decoded = row.decoded) :
    (result.batch token).filterMap (·.decoded) = (store.batch token).filterMap (·.decoded) := by
  rw [Store.batch, Store.batch, queue, List.filter_map, List.filterMap_map]
  have same : ((·.lockToken == some token) ∘ change : OrchestratorRow → Bool) = (·.lockToken == some token) := by
    funext row
    rw [Function.comp_apply, tokens]
  rw [same]
  exact List.filterMap_congr fun row _ => items row

theorem batch_deleteBatch (differs : other ≠ token) : (store.deleteBatch token).batch other = store.batch other := by
  rw [Store.batch, Store.batch, Store.deleteBatch, Store.deleteOrchestratorRows, List.filter_filter]
  refine List.filter_congr fun row _ => ?_
  by_cases own : row.lockToken = some other
  · simp [own, differs]
  · simp [own]

theorem batch_acked {request : AckRequest semver} (committed : Acked store now token instanceId request result)
    (differs : other ≠ token) : result.batch other = store.batch other := by
  have queue : result.orchestratorQueue = (store.deleteBatch token).orchestratorQueue ++ _ := committed.queue
  rw [batch_append_unmarked queue fun row member => (QueueSound.mem_enqueuedRows member).2.2.1]
  exact batch_deleteBatch differs

/-- Acknowledging leaves the other locks with their batches. -/
theorem lock_of_acked {request : AckRequest semver} (sound : QueueSound store)
    (committed : Acked store now token instanceId request result) {lock : InstanceLock}
    (found : result.instanceLocks.lookup locked = some lock) :
    ∃ original, store.instanceLocks.lookup locked = some original ∧ original.lockToken = lock.lockToken ∧
      result.batch lock.lockToken = store.batch lock.lockToken := by
  obtain ⟨original, was, same⟩ := QueueSound.locksKept_acked sound committed locked lock found
  refine ⟨original, was, same, batch_acked committed fun own => ?_⟩
  obtain ⟨held, current, token', _⟩ := committed.held
  obtain rfl := sound.tokens _ _ _ _ was current (same.trans (own.trans token'.symm))
  rw [committed.released] at found
  cases found

/-- Dropping the orphans of an instance leaves the other locks with their batches. -/
theorem lock_of_dropped {lockTimeoutMs : Nat} (sound : QueueSound store) (unlocked : store.isUnlocked now instanceId)
    (unused : Unused store token) {lock : InstanceLock}
    (found : (((lockedStore store now lockTimeoutMs token instanceId).deleteBatch token).deleteLocks
      fun _ lock => lock.lockToken == token).instanceLocks.lookup locked = some lock) :
    store.instanceLocks.lookup locked = some lock ∧
      (((lockedStore store now lockTimeoutMs token instanceId).deleteBatch token).deleteLocks
        fun _ lock => lock.lockToken == token).batch lock.lockToken = store.batch lock.lockToken := by
  simp only [Store.deleteLocks, Lib.KeyedTable.lookup_deleteWhere, Option.filter_eq_some_iff, Bool.not_eq_true',
    beq_eq_false_iff_ne] at found
  obtain ⟨was, other⟩ := found
  change (lockedStore store now lockTimeoutMs token instanceId).instanceLocks.lookup locked = some lock at was
  rw [lockedStore_of_unlocked unlocked] at was
  by_cases own : locked = instanceId
  · rw [own, AList.lookup_insert] at was
    cases was
    exact absurd rfl other
  · rw [AList.lookup_insert_ne own] at was
    refine ⟨was, ?_⟩
    rw [← @batch_lockedStore_of_other _ _ _ _ _ lockTimeoutMs sound unlocked _ was own unused]
    exact batch_deleteBatch other

/-- Every lock after a step has been there before with the batch that it has, or is new with its holder. -/
theorem batch_of_effect (effect : Effect world label after) (coherent : Coherent world) {lock : InstanceLock}
    (found : after.store.instanceLocks.lookup locked = some lock) :
    (∃ original, world.store.instanceLocks.lookup locked = some original ∧ original.lockToken = lock.lockToken ∧
      (after.store.batch lock.lockToken).filterMap (·.decoded) = (world.store.batch lock.lockToken).filterMap (·.decoded)) ∨
    world.deliveries lock.lockToken = none ∧ ∃ delivery, after.deliveries lock.lockToken = some delivery ∧
      (after.store.batch lock.lockToken).filterMap (·.decoded) = delivery.item.messages := by
  have sound := coherent.queueSound
  cases effect with
  | fetchedNothing | decided | ackFailed | turnFailed | abandonFailed | renewFailed | workCancelled | workAckFailed
  | workDropFailed | workAbandonFailed => exact .inl ⟨lock, found, rfl, rfl⟩
  | enqueued now item isClientItem =>
    exact .inl ⟨lock, found, rfl, by rw [batch_append_unmarked rfl fun row member => by rw [List.mem_singleton.mp member]]⟩
  | fetched config filter now lockTimeoutMs token fault fresh item attemptCount candidate read =>
    by_cases own : locked = item.instanceId
    · change (lockedStore world.store now lockTimeoutMs token item.instanceId).instanceLocks.lookup locked = some lock at found
      rw [lockedStore_of_unlocked candidate.unlocked, own, AList.lookup_insert] at found
      cases found
      simp only [World.isFresh, Bool.and_eq_true, Option.isNone_iff_eq_none] at fresh
      exact .inr ⟨fresh.1, { item, attemptCount }, World.setDelivery_self .., read.messages.symm⟩
    · have was : world.store.instanceLocks.lookup locked = some lock := by
        change (lockedStore world.store now lockTimeoutMs token item.instanceId).instanceLocks.lookup locked = some lock at found
        rwa [lockedStore_of_unlocked candidate.unlocked, AList.lookup_insert_ne own] at found
      refine .inl ⟨lock, was, rfl, ?_⟩
      exact congrArg _ (batch_lockedStore_of_other sound candidate.unlocked was own (coherent.unused fresh))
  | dropped config filter now lockTimeoutMs token fault fresh instanceId candidate noRow orphans =>
    obtain ⟨was, same⟩ := lock_of_dropped sound candidate.unlocked (coherent.unused fresh) found
    exact .inl ⟨lock, was, rfl, congrArg _ same⟩
  | acked config now token fault delivery request fallback failed holds phase instanceId store committed =>
    obtain ⟨original, was, sameToken, same⟩ := lock_of_acked sound committed found
    exact .inl ⟨original, was, sameToken, congrArg _ same⟩
  | abandoned now token delivery delayMs ignoreAttempt holds phase store released =>
    obtain ⟨instanceId, _, rfl⟩ := abandonOrchestrationItem_spec released
    obtain ⟨original, was, same⟩ := QueueSound.locksKept_deleteLocks world.store _ locked lock found
    exact .inl ⟨original, was, same, batch_map rfl (fun row => (abandonedRow_identity ..).2.2)
      fun row => abandonedRow_decoded ..⟩
  | renewed now token extendMs store extended =>
    obtain rfl := QueueSound.renewOrchestrationItemLock_spec extended
    obtain ⟨original, was, same⟩ := QueueSound.locksKept_updateLocks world.store _ _ locked lock found
    exact .inl ⟨original, was, same, rfl⟩
  | workFetched now lockTimeoutMs token session filter fresh workItem attemptCount store read =>
    obtain ⟨row, sessions, _, _, rfl⟩ := fetchWorkItem_spec read
    exact .inl ⟨lock, found, rfl, rfl⟩
  | workRenewed now token extendMs held holds store extended =>
    obtain ⟨sessions, rfl⟩ := renewWorkItemLock_spec extended
    exact .inl ⟨lock, found, rfl, rfl⟩
  | workCompleted now token maxAttempts outcome held holds completion reported store acked =>
    obtain ⟨row, sessions, _, rfl⟩ := ackWorkItem_spec acked
    refine .inl ⟨lock, found, rfl, congrArg _ ?_⟩
    exact batch_append_unmarked rfl fun row member => by rw [List.mem_singleton.mp member]
  | workDropped now token held holds cancelled store acked =>
    obtain ⟨row, sessions, _, rfl⟩ := ackWorkItem_spec acked
    exact .inl ⟨lock, found, rfl, rfl⟩
  | workAbandoned now token delayMs ignoreAttempt store released =>
    rw [abandonWorkItem_spec released] at found ⊢
    exact .inl ⟨lock, found, rfl, rfl⟩

theorem initial : HoldsBatches ({} : World semver) := fun _ _ _ found => by simp at found

/-- A lock carries a token that was given out. -/
theorem issued (coherent : Coherent world) {lock : InstanceLock}
    (found : world.store.instanceLocks.lookup locked = some lock) : world.deliveries lock.lockToken ≠ none := by
  obtain ⟨desk, presents, sound⟩ := coherent
  rw [← presents.store] at found
  obtain ⟨ticket, held⟩ := sound.holders locked lock found
  intro none
  have items := presents.items lock.lockToken
  rw [none, held.issued] at items
  cases items

theorem step (batches : HoldsBatches world) (coherent : Coherent world) (effect : Effect world label after) :
    HoldsBatches after := by
  intro locked lock delivery found holds
  rcases batch_of_effect effect coherent found with ⟨original, was, same, items⟩ | ⟨_, holder, held, items⟩
  · rw [items, ← same]
    rw [← same] at holds
    cases effect.deliveryStep holds with
    | same held => exact batches locked original delivery was held
    | moved before held _ kept =>
      rw [kept]
      exact batches locked original before was held
    | fetched config filter now lockTimeoutMs unused => exact absurd unused (issued coherent was)
  · rw [holds] at held
    cases held
    exact items

theorem of_reachable {guard : World semver → Step semver → Prop} (reached : (system semver).Reachable guard world) :
    HoldsBatches world := by
  induction reached with
  | initial start => exact start ▸ initial
  | step reached _ taken ih => exact ih.step (.of_reachable reached) (World.step_effect taken)

end HoldsBatches

/-! ## How a row leaves the queue -/

/-- A row stays in the queue, leaves it with the commit of somebody who was given its message, or is dropped as
an orphan. -/
inductive RowFate (world : World semver) (label : Step semver) (after : World semver) (row : OrchestratorRow) : Prop
  | kept (later : OrchestratorRow) (member : later ∈ after.store.orchestratorQueue) (same : later.id = row.id)
      (sameInstance : later.instanceId = row.instanceId) (message : later.decoded = row.decoded)
  | committed (delivery : Delivery semver) (request : AckRequest semver)
      (commits : Commits world label delivery request row.instanceId after)
      (listed : ∀ item ∈ row.decoded, item ∈ delivery.item.messages)
  | orphaned (noRow : world.store.instances row.instanceId = none) (orphan : ∀ item ∈ row.decoded, isQueueMessage item)

theorem mem_lockedStore {store : Store} {now lockTimeoutMs token : Nat} {instanceId : String} {row : OrchestratorRow}
    (unlocked : store.isUnlocked now instanceId) (member : row ∈ store.orchestratorQueue) :
    markedRow now instanceId token row ∈ (lockedStore store now lockTimeoutMs token instanceId).orchestratorQueue := by
  rw [lockedStore_of_unlocked unlocked]
  exact List.mem_map_of_mem member

/-- An unused token marks the visible rows of its instance. -/
theorem markedRow_lockToken {now token : Nat} {instanceId : String} {row : OrchestratorRow}
    (unused : row.lockToken ≠ some token) (marked : (markedRow now instanceId token row).lockToken = some token) :
    row.instanceId = instanceId ∧ row.visibleAt ≤ (now : Int) := by
  unfold markedRow at marked
  split_ifs at marked with visible
  · simpa using visible
  · exact absurd marked unused

/-- What happens to a row of the queue in a step. -/
theorem Effect.fate (effect : Effect world label after) (coherent : Coherent world) (batches : HoldsBatches world)
    {row : OrchestratorRow} (member : row ∈ world.store.orchestratorQueue) : RowFate world label after row := by
  cases effect with
  | fetchedNothing | decided | ackFailed | turnFailed | abandonFailed | renewFailed | workCancelled | workAckFailed
  | workDropFailed | workAbandonFailed => exact .kept row member rfl rfl rfl
  | enqueued now item isClientItem => exact .kept row (List.mem_append_left _ member) rfl rfl rfl
  | fetched config filter now lockTimeoutMs token fault fresh item attemptCount candidate read =>
    exact .kept _ (mem_lockedStore candidate.unlocked member) (markedRow_id ..) (markedRow_instanceId ..)
      (markedRow_decoded ..)
  | dropped config filter now lockTimeoutMs token fault fresh instanceId candidate noRow orphans =>
    have marked := @mem_lockedStore _ _ lockTimeoutMs token _ _ candidate.unlocked member
    by_cases own : (markedRow now instanceId token row).lockToken = some token
    · obtain ⟨rfl, _⟩ := markedRow_lockToken ((coherent.unused fresh).rows row member) own
      have orphan := orphans _ (List.mem_filter.mpr ⟨marked, beq_iff_eq.mpr own⟩)
      rw [markedRow_decoded] at orphan
      exact .orphaned noRow orphan
    · exact .kept _ (List.mem_filter.mpr ⟨marked, by simpa using own⟩) (markedRow_id ..) (markedRow_instanceId ..)
        (markedRow_decoded ..)
  | acked config now token fault delivery request fallback failed holds phase instanceId store committed =>
    by_cases own : row.lockToken = some token
    · obtain ⟨lock, current, rfl, _⟩ := committed.held
      obtain rfl := coherent.queueSound.owned row member instanceId lock current own
      refine .committed delivery request ⟨⟨config, now, _, fault, rfl, holds, committed, rfl⟩, fallback, failed, phase⟩ ?_
      rw [← batches row.instanceId lock delivery current holds]
      exact fun item read => List.mem_filterMap.mpr ⟨row, List.mem_filter.mpr ⟨member, beq_iff_eq.mpr own⟩, read⟩
    · refine .kept row ?_ rfl rfl rfl
      change row ∈ store.orchestratorQueue
      rw [committed.queue]
      exact List.mem_append_left _ (List.mem_filter.mpr ⟨member, by simpa using own⟩)
  | abandoned now token delivery delayMs ignoreAttempt holds phase store released =>
    obtain ⟨instanceId, _, rfl⟩ := abandonOrchestrationItem_spec released
    exact .kept _ (List.mem_map_of_mem member) (abandonedRow_identity ..).1 (abandonedRow_identity ..).2.1
      (abandonedRow_decoded ..)
  | renewed now token extendMs store extended =>
    obtain rfl := QueueSound.renewOrchestrationItemLock_spec extended
    exact .kept row member rfl rfl rfl
  | workFetched now lockTimeoutMs token session filter fresh workItem attemptCount store read =>
    obtain ⟨fetched, sessions, _, _, rfl⟩ := fetchWorkItem_spec read
    exact .kept row member rfl rfl rfl
  | workRenewed now token extendMs held holds store extended =>
    obtain ⟨sessions, rfl⟩ := renewWorkItemLock_spec extended
    exact .kept row member rfl rfl rfl
  | workCompleted now token maxAttempts outcome held holds completion reported store acked =>
    obtain ⟨locked, sessions, _, rfl⟩ := ackWorkItem_spec acked
    exact .kept row (List.mem_append_left _ member) rfl rfl rfl
  | workDropped now token held holds cancelled store acked =>
    obtain ⟨locked, sessions, _, rfl⟩ := ackWorkItem_spec acked
    exact .kept row member rfl rfl rfl
  | workAbandoned now token delayMs ignoreAttempt store released =>
    rw [abandonWorkItem_spec released]
    exact .kept row member rfl rfl rfl

end Duroxide
