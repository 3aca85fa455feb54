import Duroxide.Proofs.ProviderCalls

/-! # The orchestrator queue and its locks

Queue rows are in id order and ids are never reused. A token locks at most one instance, and marks rows
of that instance only. Every call of a provider keeps this, as long as fetches generate unused tokens.
-/

namespace Duroxide

open Provider

/-! ## The batch of a fetch -/

/-- A row as a fetch of its instance leaves it. -/
def markedRow (now : Int) (instanceId : String) (token : Nat) (row : OrchestratorRow) : OrchestratorRow :=
  if row.instanceId == instanceId && row.visibleAt ≤ now then
    { row with lockToken := some token, attemptCount := row.attemptCount + 1 }
  else row

@[simp] theorem markedRow_id (now : Int) (instanceId : String) (token : Nat) (row : OrchestratorRow) :
    (markedRow now instanceId token row).id = row.id := by
  unfold markedRow
  split_ifs <;> rfl

@[simp] theorem markedRow_instanceId (now : Int) (instanceId : String) (token : Nat) (row : OrchestratorRow) :
    (markedRow now instanceId token row).instanceId = row.instanceId := by
  unfold markedRow
  split_ifs <;> rfl

@[simp] theorem markedRow_workItem (now : Int) (instanceId : String) (token : Nat) (row : OrchestratorRow) :
    (markedRow now instanceId token row).workItem = row.workItem := by
  unfold markedRow
  split_ifs <;> rfl

@[simp] theorem markedRow_decoded (now : Int) (instanceId : String) (token : Nat) (row : OrchestratorRow) :
    (markedRow now instanceId token row).decoded = row.decoded := by
  unfold markedRow
  split_ifs <;> rfl

@[simp] theorem markedRow_visibleAt (now : Int) (instanceId : String) (token : Nat) (row : OrchestratorRow) :
    (markedRow now instanceId token row).visibleAt = row.visibleAt := by
  unfold markedRow
  split_ifs <;> rfl

/-- A fetch of a free instance inserts its lock and marks its visible rows. -/
theorem lockedStore_of_unlocked {store : Store} {now lockTimeoutMs token : Nat} {instanceId : String}
    (unlocked : store.isUnlocked now instanceId) :
    lockedStore store now lockTimeoutMs token instanceId =
      { store with
        instanceLocks := store.instanceLocks.insert instanceId ⟨token, now + lockTimeoutMs⟩
        orchestratorQueue := store.orchestratorQueue.map (markedRow now instanceId token) } := by
  simp only [lockedStore, Store.acquireLock, unlocked, ↓reduceIte]
  rfl

/-- No row and no lock carries a token. -/
structure Unused (store : Store) (token : Nat) : Prop where
  rows : ∀ row ∈ store.orchestratorQueue, row.lockToken ≠ some token
  locks : ∀ instanceId lock, store.instanceLocks.lookup instanceId = some lock → lock.lockToken ≠ token

/-- Under an unused token the batch of a fetch is the visible part of the instance's queue. -/
theorem batch_lockedStore {store : Store} {now lockTimeoutMs token : Nat} {instanceId : String}
    (unlocked : store.isUnlocked now instanceId) (unused : Unused store token) :
    (lockedStore store now lockTimeoutMs token instanceId).batch token =
      (store.orchestratorQueue.filter fun row => row.instanceId == instanceId && row.visibleAt ≤ (now : Int)).map
        (markedRow now instanceId token) := by
  rw [lockedStore_of_unlocked unlocked]
  unfold Store.batch
  rw [List.filter_map]
  congr 1
  refine List.filter_congr fun row member => ?_
  have other := unused.rows row member
  simp only [Function.comp_apply, markedRow]
  split_ifs with visible
  · simp [visible]
  · simp [visible, other]

/-- The rows that a fetch of an instance marks and reads. -/
theorem mem_batch {store : Store} {now lockTimeoutMs token : Nat} {instanceId : String} (unused : Unused store token)
    (unlocked : store.isUnlocked now instanceId) (item : WorkItem) :
    item ∈ ((lockedStore store now lockTimeoutMs token instanceId).batch token).filterMap (·.decoded) ↔
      ∃ row ∈ store.orchestratorQueue, row.instanceId = instanceId ∧ row.visibleAt ≤ (now : Int) ∧ item ∈ row.decoded := by
  rw [batch_lockedStore unlocked unused]
  simp only [List.filterMap_map, List.mem_filterMap, List.mem_filter, Bool.and_eq_true, beq_iff_eq, decide_eq_true_eq,
    Function.comp_apply, markedRow_decoded, and_assoc, Option.mem_def]

/-! ## Giving an item back -/

/-- A row as an abandon of its instance leaves it. -/
def abandonedRow (now : Nat) (instanceId : String) (delayMs : Option Nat) (ignoreAttempt : Bool)
    (row : OrchestratorRow) : OrchestratorRow :=
  if row.instanceId == instanceId then
    { row with
      attemptCount := if ignoreAttempt then row.attemptCount - 1 else row.attemptCount
      visibleAt := match delayMs with
        | some delayMs => if row.visibleAt ≤ now then delayed now delayMs else row.visibleAt
        | none => row.visibleAt }
  else row

theorem abandonedRow_identity (now : Nat) (instanceId : String) (delayMs : Option Nat) (ignoreAttempt : Bool)
    (row : OrchestratorRow) : (abandonedRow now instanceId delayMs ignoreAttempt row).id = row.id ∧
      (abandonedRow now instanceId delayMs ignoreAttempt row).instanceId = row.instanceId ∧
      (abandonedRow now instanceId delayMs ignoreAttempt row).lockToken = row.lockToken := by
  unfold abandonedRow
  split_ifs <;> exact ⟨rfl, rfl, rfl⟩

theorem abandonedRow_decoded (now : Nat) (instanceId : String) (delayMs : Option Nat) (ignoreAttempt : Bool)
    (row : OrchestratorRow) : (abandonedRow now instanceId delayMs ignoreAttempt row).decoded = row.decoded := by
  unfold abandonedRow
  split_ifs <;> rfl

theorem abandonedRow_workItem (now : Nat) (instanceId : String) (delayMs : Option Nat) (ignoreAttempt : Bool)
    (row : OrchestratorRow) : (abandonedRow now instanceId delayMs ignoreAttempt row).workItem = row.workItem := by
  unfold abandonedRow
  split_ifs <;> rfl

/-- An abandon removes the lock of its token and changes the rows of the locked instance. -/
theorem abandonOrchestrationItem_spec {store after : Store} {now token : Nat} {delayMs : Option Nat}
    {ignoreAttempt : Bool} (released : abandonOrchestrationItem store now token delayMs ignoreAttempt = .ok after) :
    ∃ instanceId, store.lockedInstance token = some instanceId ∧
      after = { store.deleteLocks (fun _ lock => lock.lockToken == token) with
        orchestratorQueue := store.orchestratorQueue.map (abandonedRow now instanceId delayMs ignoreAttempt) } := by
  unfold abandonOrchestrationItem at released
  split at released
  · cases released
  rename_i instanceId locked
  refine ⟨instanceId, locked, ?_⟩
  have rows : after.orchestratorQueue =
      store.orchestratorQueue.map (abandonedRow now instanceId delayMs ignoreAttempt) := by
    cases ignoreAttempt <;> cases delayMs <;> cases released <;>
      simp only [Store.deleteLocks, Store.updateOrchestratorRows, List.map_map, Bool.false_eq_true, ↓reduceIte]
    · refine (List.map_id'' (fun row => ?_) _).symm
      simp [abandonedRow]
    all_goals
      refine List.map_congr_left fun row _ => ?_
      by_cases mine : row.instanceId = instanceId
      · subst mine
        simp only [abandonedRow, Function.comp_apply, beq_self_eq_true, Bool.true_and, decide_eq_true_eq, ↓reduceIte,
          Bool.false_eq_true]
        try split_ifs <;> rfl
      · simp [abandonedRow, mine]
  rw [← rows]
  cases ignoreAttempt <;> cases delayMs <;> cases released <;> rfl

theorem lock_of_lockedInstance {store : Store} {token : Nat} {instanceId : String}
    (locked : store.lockedInstance token = some instanceId) :
    ∃ lock, store.instanceLocks.lookup instanceId = some lock ∧ lock.lockToken = token := by
  obtain ⟨⟨key, lock⟩, found, rfl⟩ := Option.map_eq_some_iff.mp locked
  exact ⟨lock, Lib.KeyedTable.mem_entries_iff.mp (List.mem_of_find?_eq_some found), by simpa using List.find?_some found⟩

theorem lock_of_holdsLock {store : Store} {now : Int} {instanceId : String} {token : Nat}
    (held : store.holdsLock now instanceId token) :
    ∃ lock, store.instanceLocks.lookup instanceId = some lock ∧ lock.lockToken = token := by
  unfold Store.holdsLock at held
  rcases found : store.instanceLocks.lookup instanceId with _ | lock <;> rw [found] at held
  · cases held
  · simp only [Bool.and_eq_true, beq_iff_eq] at held
    exact ⟨lock, rfl, held.1⟩

/-! ## Soundness of the tables -/

structure QueueSound (store : Store) : Prop where
  ordered : store.orchestratorQueue.Pairwise (·.id < ·.id)
  below : ∀ row ∈ store.orchestratorQueue, row.id < store.nextOrchestratorId
  tokens : ∀ first second firstLock secondLock, store.instanceLocks.lookup first = some firstLock →
    store.instanceLocks.lookup second = some secondLock → firstLock.lockToken = secondLock.lockToken → first = second
  owned : ∀ row ∈ store.orchestratorQueue, ∀ instanceId lock, store.instanceLocks.lookup instanceId = some lock →
    row.lockToken = some lock.lockToken → instanceId = row.instanceId

namespace QueueSound

variable {store after : Store} {now token : Nat} {instanceId : String}

theorem initial : QueueSound {} where
  ordered := .nil
  below _ member := absurd member List.not_mem_nil
  tokens _ _ _ _ found := by simp at found
  owned _ member := absurd member List.not_mem_nil

/-- Ids are a primary key. -/
theorem row_eq (sound : QueueSound store) {row other : OrchestratorRow} (member : row ∈ store.orchestratorQueue)
    (otherMember : other ∈ store.orchestratorQueue) (same : row.id = other.id) : row = other := by
  have distinct : (store.orchestratorQueue.map (·.id)).Nodup :=
    List.pairwise_map.mpr (sound.ordered.imp fun below => Nat.ne_of_lt below)
  exact List.inj_on_of_nodup_map distinct member otherMember same

/-- Deleting rows and locks, and changing neither the tokens nor the identity of rows and locks. -/
theorem shrink (sound : QueueSound store) (kept : OrchestratorRow → Bool) (change : OrchestratorRow → OrchestratorRow)
    (identity : ∀ row, (change row).id = row.id ∧ (change row).instanceId = row.instanceId ∧
      (change row).lockToken = row.lockToken)
    (queue : after.orchestratorQueue = (store.orchestratorQueue.filter kept).map change)
    (next : after.nextOrchestratorId = store.nextOrchestratorId)
    (locks : ∀ instanceId lock, after.instanceLocks.lookup instanceId = some lock →
      ∃ original, store.instanceLocks.lookup instanceId = some original ∧ original.lockToken = lock.lockToken) :
    QueueSound after where
  ordered := by
    rw [queue, List.pairwise_map]
    exact (sound.ordered.filter kept).imp fun {first second} below => by
      rw [(identity first).1, (identity second).1]
      exact below
  below row member := by
    rw [queue] at member
    obtain ⟨original, kept, rfl⟩ := List.mem_map.mp member
    rw [(identity original).1, next]
    exact sound.below original (List.mem_of_mem_filter kept)
  tokens first second firstLock secondLock found other same := by
    obtain ⟨firstOriginal, firstFound, firstSame⟩ := locks first firstLock found
    obtain ⟨secondOriginal, secondFound, secondSame⟩ := locks second secondLock other
    exact sound.tokens _ _ _ _ firstFound secondFound (by rw [firstSame, secondSame, same])
  owned row member locked lock found marked := by
    rw [queue] at member
    obtain ⟨original, kept, rfl⟩ := List.mem_map.mp member
    obtain ⟨originalLock, originalFound, same⟩ := locks locked lock found
    rw [(identity original).2.1]
    refine sound.owned original (List.mem_of_mem_filter kept) locked originalLock originalFound ?_
    rw [same, ← marked, (identity original).2.2]

theorem mem_enqueuedRows {visible : WorkItem → Int} {id : Nat} {items : List WorkItem} {row : OrchestratorRow}
    (member : row ∈ enqueuedRows visible id items) :
    id ≤ row.id ∧ row.id < id + items.length ∧ row.lockToken = none ∧ row.attemptCount = 0 ∧
      row.workItem ∈ items ∧ row.instanceId = row.workItem.targetInstance ∧ row.visibleAt = visible row.workItem := by
  induction items generalizing id with
  | nil => exact absurd member List.not_mem_nil
  | cons item rest ih =>
    rcases List.mem_cons.mp member with rfl | later
    · exact ⟨Nat.le_refl _, by simp, rfl, rfl, List.mem_cons_self, rfl, rfl⟩
    · obtain ⟨above, upTo, free, fresh, listed, target, visibleAt⟩ := ih later
      refine ⟨by omega, ?_, free, fresh, List.mem_cons_of_mem item listed, target, visibleAt⟩
      rw [List.length_cons]
      omega

theorem enqueuedRows_ordered (visible : WorkItem → Int) (id : Nat) (items : List WorkItem) :
    (enqueuedRows visible id items).Pairwise (·.id < ·.id) := by
  induction items generalizing id with
  | nil => exact .nil
  | cons item rest ih =>
    refine List.pairwise_cons.mpr ⟨fun row member => ?_, ih (id + 1)⟩
    exact (mem_enqueuedRows member).1

/-- A new row that no fetch has marked. -/
structure NewRow (store after : Store) (row : OrchestratorRow) : Prop where
  above : store.nextOrchestratorId ≤ row.id
  below : row.id < after.nextOrchestratorId
  unmarked : row.lockToken = none

/-- Appending new rows. -/
theorem append (sound : QueueSound store) {rows : List OrchestratorRow}
    (queue : after.orchestratorQueue = store.orchestratorQueue ++ rows) (new : ∀ row ∈ rows, NewRow store after row)
    (ordered : rows.Pairwise (·.id < ·.id)) (next : store.nextOrchestratorId ≤ after.nextOrchestratorId)
    (locks : after.instanceLocks = store.instanceLocks) : QueueSound after where
  ordered := by
    rw [queue]
    refine List.pairwise_append.mpr ⟨sound.ordered, ordered, fun row member other otherMember => ?_⟩
    exact Nat.lt_of_lt_of_le (sound.below row member) (new other otherMember).above
  below row member := by
    rw [queue] at member
    rcases List.mem_append.mp member with old | added
    · exact Nat.lt_of_lt_of_le (sound.below row old) next
    · exact (new row added).below
  tokens := locks ▸ sound.tokens
  owned row member locked lock found marked := by
    rw [queue] at member
    rw [locks] at found
    rcases List.mem_append.mp member with old | added
    · exact sound.owned row old locked lock found marked
    · rw [(new row added).unmarked] at marked
      cases marked

theorem newRow_of_mem_enqueuedRows {visible : WorkItem → Int} {items : List WorkItem}
    (next : after.nextOrchestratorId = store.nextOrchestratorId + items.length) {row : OrchestratorRow}
    (member : row ∈ enqueuedRows visible store.nextOrchestratorId items) : NewRow store after row := by
  obtain ⟨above, below, unmarked, _⟩ := mem_enqueuedRows member
  exact ⟨above, next ▸ below, unmarked⟩

theorem enqueue (sound : QueueSound store) (visible : WorkItem → Int) (items : List WorkItem)
    (queue : after.orchestratorQueue = store.orchestratorQueue ++ enqueuedRows visible store.nextOrchestratorId items)
    (next : after.nextOrchestratorId = store.nextOrchestratorId + items.length)
    (locks : after.instanceLocks = store.instanceLocks) : QueueSound after :=
  sound.append queue (fun _ member => newRow_of_mem_enqueuedRows next member) (enqueuedRows_ordered _ _ _)
    (next ▸ Nat.le_add_right _ _) locks

theorem insertOrchestratorRow (sound : QueueSound store) (item : WorkItem) (visibleAt : Int) :
    QueueSound (store.insertOrchestratorRow item visibleAt) :=
  sound.enqueue (fun _ => visibleAt) [item] rfl rfl rfl

/-- A fetch under an unused token. -/
theorem lockedStore (sound : QueueSound store) (unlocked : store.isUnlocked now instanceId)
    (unused : Unused store token) (lockTimeoutMs : Nat) :
    QueueSound (Provider.lockedStore store now lockTimeoutMs token instanceId) := by
  rw [lockedStore_of_unlocked unlocked]
  refine ⟨?_, ?_, ?_, ?_⟩
  · dsimp only
    rw [List.pairwise_map]
    exact sound.ordered.imp fun below => by simpa using below
  · intro row member
    obtain ⟨original, old, rfl⟩ := List.mem_map.mp member
    rw [markedRow_id]
    exact sound.below original old
  · intro first second firstLock secondLock found other same
    dsimp only at found other
    by_cases atFirst : first = instanceId
    · by_cases atSecond : second = instanceId
      · rw [atFirst, atSecond]
      · rw [AList.lookup_insert_ne atSecond] at other
        subst atFirst
        rw [AList.lookup_insert] at found
        cases found
        exact absurd same.symm (unused.locks _ _ other)
    · rw [AList.lookup_insert_ne atFirst] at found
      by_cases atSecond : second = instanceId
      · subst atSecond
        rw [AList.lookup_insert] at other
        cases other
        exact absurd same (unused.locks _ _ found)
      · rw [AList.lookup_insert_ne atSecond] at other
        exact sound.tokens _ _ _ _ found other same
  · intro row member locked lock found marked
    obtain ⟨original, old, rfl⟩ := List.mem_map.mp member
    dsimp only at found
    rw [markedRow_instanceId]
    by_cases atInstance : locked = instanceId
    · subst atInstance
      rw [AList.lookup_insert] at found
      cases found
      unfold markedRow at marked
      split_ifs at marked with visible
      · simp only [Bool.and_eq_true, beq_iff_eq] at visible
        exact visible.1.symm
      · exact absurd marked (unused.rows original old)
    · rw [AList.lookup_insert_ne atInstance] at found
      unfold markedRow at marked
      split_ifs at marked with visible
      · exact absurd (Option.some.inj marked).symm (unused.locks _ _ found)
      · exact sound.owned original old locked lock found marked

/-- The locks that a call leaves are locks that it found. -/
def LocksKept (store after : Store) : Prop :=
  ∀ instanceId lock, after.instanceLocks.lookup instanceId = some lock →
    ∃ original, store.instanceLocks.lookup instanceId = some original ∧ original.lockToken = lock.lockToken

theorem locksKept_deleteLocks (store : Store) (matching : String → InstanceLock → Bool) :
    LocksKept store (store.deleteLocks matching) := by
  intro instanceId lock found
  simp only [Store.deleteLocks, Lib.KeyedTable.lookup_deleteWhere, Option.filter_eq_some_iff] at found
  exact ⟨lock, found.1, rfl⟩

theorem locksKept_updateLocks (store : Store) (matching : InstanceLock → Bool) (lockedUntil : Int) :
    LocksKept store (store.updateLocks matching fun lock => { lock with lockedUntil }) := by
  intro instanceId lock found
  simp only [Store.updateLocks, Lib.KeyedTable.lookup_updateWhere, Option.map_eq_some_iff] at found
  obtain ⟨original, was, changed⟩ := found
  refine ⟨original, was, ?_⟩
  rw [← changed]
  split_ifs <;> rfl

/-- Dropping the batch and the lock of a token. -/
theorem dropBatch (sound : QueueSound store) :
    QueueSound ((store.deleteBatch token).deleteLocks fun _ lock => lock.lockToken == token) :=
  sound.shrink _ id (fun _ => ⟨rfl, rfl, rfl⟩) (List.map_id _).symm rfl
    (locksKept_deleteLocks (store.deleteBatch token) _)

theorem abandon (sound : QueueSound store) {delayMs : Option Nat} {ignoreAttempt : Bool}
    (released : abandonOrchestrationItem store now token delayMs ignoreAttempt = .ok after) : QueueSound after := by
  obtain ⟨instanceId, locked, rfl⟩ := abandonOrchestrationItem_spec released
  exact sound.shrink (fun _ => true) _ (abandonedRow_identity now instanceId delayMs ignoreAttempt)
    (by rw [List.filter_true]) rfl (locksKept_deleteLocks store _)

theorem renewOrchestrationItemLock_spec {extendMs : Nat}
    (extended : renewOrchestrationItemLock store now token extendMs = .ok after) :
    after = store.updateLocks (fun lock => lock.lockToken == token && (now : Int) < lock.lockedUntil) fun lock =>
      { lock with lockedUntil := now + extendMs } := by
  unfold renewOrchestrationItemLock at extended
  dsimp only at extended
  split_ifs at extended
  exact (Except.ok.inj extended).symm

theorem renew (sound : QueueSound store) {extendMs : Nat}
    (extended : renewOrchestrationItemLock store now token extendMs = .ok after) : QueueSound after := by
  rw [renewOrchestrationItemLock_spec extended]
  exact sound.shrink (fun _ => true) id (fun _ => ⟨rfl, rfl, rfl⟩) (by rw [List.filter_true, List.map_id]; rfl) rfl
    (locksKept_updateLocks store _ _)

variable {semver : Semver} {request : AckRequest semver}

theorem locksKept_acked (sound : QueueSound store) (acked : Acked store now token instanceId request after) :
    LocksKept store after := by
  intro locked lock found
  by_cases same : locked = instanceId
  · subst same
    rw [acked.released] at found
    cases found
  · obtain ⟨held, current, tokens, _⟩ := acked.held
    rw [acked.otherLocks locked same] at found
    · exact ⟨lock, found, rfl⟩
    · intro other was marked
      exact same (sound.tokens _ _ _ _ was current (marked.trans tokens.symm))

theorem acked (sound : QueueSound store) (acked : Acked store now token instanceId request after) :
    QueueSound after := by
  have kept : QueueSound { store.deleteBatch token with instanceLocks := after.instanceLocks } :=
    sound.shrink _ id (fun _ => ⟨rfl, rfl, rfl⟩) (List.map_id _).symm rfl
      fun _ _ found => locksKept_acked sound acked _ _ found
  exact kept.enqueue _ _ acked.queue acked.nextOrchestratorId rfl

end QueueSound

end Duroxide
