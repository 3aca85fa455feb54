import Duroxide.Proofs.Batches
import Duroxide.Proofs.WorkerLocks

/-! # Conservation of orchestrator messages

Any number of dispatchers and workers use one queue, into which other versions of the software may have put
messages that do not decode here. A ledger keeps a receipt of every row, until the row is acknowledged by
somebody who was given its message, its instance is deleted, or it is dropped as a queue message for an
instance that does not exist.
-/

namespace Duroxide.Conservation

open Provider Lib.Database PeekLock WorkerLocks HoldsBatches

variable {semver : Semver}

/-- What a row says, apart from its delivery. -/
structure Receipt where
  id : Nat
  instanceId : String
  content : Except String WorkItem

def receipt (row : OrchestratorRow) : Receipt where
  id := row.id
  instanceId := row.instanceId
  content := match row.undecodable with
    | some text => .error text
    | none => .ok row.workItem

/-- What can happen to the store: a call, a message of another version, a deletion, or anything that leaves
the queue and the locks alone. -/
inductive Operation (semver : Semver) where
  | call (call : WorkerCall semver)
  | insertUndecodable (instanceId text : String) (visibleAt : Int)
  | deleteInstances (instanceIds : List String)
  | elsewhere (store : Store)

/-- A row whose text does not decode; its work item is never read. -/
def undecodableRow (id : Nat) (instanceId text : String) (visibleAt : Int) : OrchestratorRow :=
  { id, instanceId, workItem := .cancelInstance instanceId "", visibleAt, undecodable := some text }

def insertUndecodable (store : Store) (instanceId text : String) (visibleAt : Int) : Store :=
  { store with
    orchestratorQueue := store.orchestratorQueue ++
      [undecodableRow store.nextOrchestratorId instanceId text visibleAt]
    nextOrchestratorId := store.nextOrchestratorId + 1 }

/-- The desk after an operation. -/
def perform (desk : Desk) : Operation semver → Desk
  | .call (.items call) => (desk.call call).2
  | .call call => desk.withStore (({ store := desk.store } : Bench).call call).2.store
  | .insertUndecodable instanceId text visibleAt =>
      desk.withStore (insertUndecodable desk.store instanceId text visibleAt)
  | .deleteInstances instanceIds => desk.withStore (desk.store.deleteInstances instanceIds)
  | .elsewhere store => desk.withStore store

/-- Two stores with the same orchestrator queue and locks. -/
structure SameQueue (before after : Store) : Prop where
  queue : after.orchestratorQueue = before.orchestratorQueue
  next : after.nextOrchestratorId = before.nextOrchestratorId
  locks : after.instanceLocks = before.instanceLocks

/-- Fetches generate new tokens. -/
def isPossible (desk : Desk) : Operation semver → Prop
  | .call (.items call) => desk.isFreshFor call
  | .elsewhere store => SameQueue desk.store store
  | _ => True

/-- How a row may leave the queue: with a successful acknowledgement of a fetch that marked it and returned its
message, as a queue message for an instance that does not exist, or with its instance. -/
def permits (desk : Desk) : Operation semver → OrchestratorRow → Bool
  | .call (.items (.ack config now token request fault)), row =>
      (desk.call (.ack config now token request fault)).1.isOk && row.lockToken == some token &&
        (desk.tickets token).any fun ticket => row.decoded.any (· ∈ ticket.item.messages)
  | .call (.items (.fetch ..)), row =>
      (desk.store.instances row.instanceId).isNone && row.decoded.any isQueueMessage
  | .deleteInstances instanceIds, row => row.instanceId ∈ instanceIds
  | _, _ => false

/-- The tables, what fetches returned, and the receipts of the rows that have to be there. -/
structure Ledger where
  desk : Desk := {}
  owed : List Receipt := []

/-- The rows that a change of the store removed, and was permitted to. -/
def released (desk : Desk) (operation : Operation semver) : List OrchestratorRow :=
  desk.store.orchestratorQueue.filter fun row =>
    permits desk operation row && !(perform desk operation).store.orchestratorQueue.any (·.id == row.id)

/-- The receipts of the rows that an operation inserts. -/
def inserted (desk : Desk) (operation : Operation semver) : List Receipt :=
  ((perform desk operation).store.orchestratorQueue.filter (desk.store.nextOrchestratorId ≤ ·.id)).map receipt

def Ledger.after (ledger : Ledger) (operation : Operation semver) : Ledger where
  desk := perform ledger.desk operation
  owed := ledger.owed.filter (fun entry => !(released ledger.desk operation).any (·.id == entry.id)) ++
    inserted ledger.desk operation

def conservation (semver : Semver) : Lib.TransitionSystem Ledger (Operation semver) where
  initial ledger := ledger = {}
  step source operation target := isPossible source.desk operation ∧ target = source.after operation

/-! ## What is claimed of a ledger -/

/-- The queue holds the rows that it has to, with their content, and no others. -/
structure Conserved (ledger : Ledger) : Prop where
  present : ∀ entry ∈ ledger.owed, ∃ row ∈ ledger.desk.store.orchestratorQueue, receipt row = entry
  noted : ∀ row ∈ ledger.desk.store.orchestratorQueue, receipt row ∈ ledger.owed

/-- The messages of an instance that a fetch sees. -/
def visibleRows (store : Store) (now : Nat) (instanceId : String) : List OrchestratorRow :=
  store.orchestratorQueue.filter fun row => row.instanceId == instanceId && row.visibleAt ≤ (now : Int)

/-- Every message decodes in a batch that is acknowledged, and in one that is dropped because it holds nothing
but queue messages and its instance has no row. -/
def Decodes (desk : Desk) : Operation semver → Prop
  | .call (.items (.ack _ _ token _ _)) =>
      desk.store.lockedInstance token ≠ none → ∀ row ∈ desk.store.batch token, row.decoded ≠ none
  | .call (.items (.fetch _ filter now _ _ _)) =>
      ∀ instanceId, desk.store.selectCandidate now (rangeOf filter) = some instanceId →
        desk.store.instances instanceId = none →
        (∀ row ∈ visibleRows desk.store now instanceId, ∀ item ∈ row.decoded, isQueueMessage item) →
        ∀ row ∈ visibleRows desk.store now instanceId, row.decoded ≠ none
  | _ => True

/-! ## What an operation does -/

theorem receipt_markedRow (now : Int) (instanceId : String) (token : Nat) (row : OrchestratorRow) :
    receipt (markedRow now instanceId token row) = receipt row := by
  unfold markedRow
  split_ifs <;> rfl

theorem receipt_abandonedRow (now : Nat) (instanceId : String) (delayMs : Option Nat) (ignoreAttempt : Bool)
    (row : OrchestratorRow) : receipt (abandonedRow now instanceId delayMs ignoreAttempt row) = receipt row := by
  unfold abandonedRow
  split_ifs <;> rfl

theorem decoded_of_receipt {row other : OrchestratorRow} (same : receipt row = receipt other) :
    row.decoded = other.decoded := by
  have content := congrArg Receipt.content same
  obtain ⟨_, _, item, _, _, _, undecodable⟩ := row
  obtain ⟨_, _, otherItem, _, _, _, otherUndecodable⟩ := other
  cases undecodable <;> cases otherUndecodable <;> cases content <;> rfl

/-- New rows, in order. -/
structure Grows (before after : Store) (rows : List OrchestratorRow) : Prop where
  queue : after.orchestratorQueue = before.orchestratorQueue ++ rows
  new : ∀ row ∈ rows, QueueSound.NewRow before after row
  ordered : rows.Pairwise (·.id < ·.id)
  next : before.nextOrchestratorId ≤ after.nextOrchestratorId
  locks : after.instanceLocks = before.instanceLocks

namespace Grows

variable {before after : Store}

theorem of_same (same : SameQueue before after) : Grows before after [] where
  queue := by rw [List.append_nil, same.queue]
  new _ none := absurd none List.not_mem_nil
  ordered := .nil
  next := same.next.ge
  locks := same.locks

theorem of_one {row : OrchestratorRow} (queue : after.orchestratorQueue = before.orchestratorQueue ++ [row])
    (own : row.id = before.nextOrchestratorId) (unmarked : row.lockToken = none)
    (next : after.nextOrchestratorId = before.nextOrchestratorId + 1)
    (locks : after.instanceLocks = before.instanceLocks) : Grows before after [row] where
  queue
  new other member := by
    obtain rfl := List.mem_singleton.mp member
    exact ⟨own.ge, by omega, unmarked⟩
  ordered := List.pairwise_singleton _ _
  next := by omega
  locks

theorem of_elsewhere (changed : Elsewhere before after) : ∃ rows, Grows before after rows := by
  obtain ⟨visible, items, queue, next⟩ := changed.queue
  exact ⟨_, queue, fun _ member => QueueSound.newRow_of_mem_enqueuedRows next member,
    QueueSound.enqueuedRows_ordered _ _ _, next ▸ Nat.le_add_right _ _, changed.locks⟩

end Grows

/-- What an operation can have done, when the rows that it removes were permitted to leave. -/
inductive Move (desk : Desk) (operation : Operation semver) : Desk → Prop
  | grown (rows : List OrchestratorRow) (store : Store) (grows : Grows desk.store store rows) :
      Move desk operation (desk.withStore store)
  | issued (now lockTimeoutMs token attemptCount : Nat) (item : OrchestrationItem)
      (fresh : desk.tickets token = none) (unlocked : desk.store.isUnlocked now item.instanceId)
      (found : Fetched (lockedStore desk.store now lockTimeoutMs token item.instanceId) token item attemptCount) :
      Move desk operation (desk.issue token item (lockedStore desk.store now lockTimeoutMs token item.instanceId))
  | dropped (now lockTimeoutMs token : Nat) (instanceId : String) (fresh : desk.tickets token = none)
      (unlocked : desk.store.isUnlocked now instanceId)
      (permitted : ∀ row ∈ visibleRows desk.store now instanceId, permits desk operation row) :
      Move desk operation (desk.withStore
        (((lockedStore desk.store now lockTimeoutMs token instanceId).deleteBatch token).deleteLocks
          fun _ lock => lock.lockToken == token))
  | altered (change : OrchestratorRow → OrchestratorRow) (store : Store)
      (queue : store.orchestratorQueue = desk.store.orchestratorQueue.map change)
      (same : ∀ row, receipt (change row) = receipt row ∧ (change row).lockToken = row.lockToken)
      (next : store.nextOrchestratorId = desk.store.nextOrchestratorId)
      (locks : QueueSound.LocksKept desk.store store) : Move desk operation (desk.withStore store)
  | committed (now token : Nat) (instanceId : String) (request : AckRequest semver) (store : Store)
      (acked : Acked desk.store now token instanceId request store)
      (permitted : ∀ row ∈ desk.store.batch token, permits desk operation row) :
      Move desk operation (desk.record token store)
  | deleted (instanceIds : List String) (permitted : ∀ row, row.instanceId ∈ instanceIds → permits desk operation row) :
      Move desk operation (desk.withStore (desk.store.deleteInstances instanceIds))

/-- The holder of a lock was given the messages that its token marks, and only given tokens are in the tables. -/
structure Steady (desk : Desk) : Prop where
  sound : QueueSound desk.store
  marked : ∀ row ∈ desk.store.orchestratorQueue, ∀ token, row.lockToken = some token → desk.tickets token ≠ none
  held : ∀ instanceId lock, desk.store.instanceLocks.lookup instanceId = some lock →
    ∃ ticket, desk.tickets lock.lockToken = some ticket ∧
      (desk.store.batch lock.lockToken).filterMap (·.decoded) = ticket.item.messages

namespace Steady

variable {desk : Desk} {operation : Operation semver}

theorem unused (steady : Steady desk) {token : Nat} (fresh : desk.tickets token = none) : Unused desk.store token where
  rows row member marked := steady.marked row member token marked fresh
  locks instanceId lock found marked := by
    obtain ⟨ticket, issued, _⟩ := steady.held instanceId lock found
    rw [marked, fresh] at issued
    cases issued

/-- The calls of workers leave the queue alone, apart from the completions that they report. -/
theorem worker_grows (store : Store) (call : WorkerCall semver) (worker : ∀ itemCall, call ≠ .items itemCall) :
    ∃ rows, Grows store (({ store } : Bench).call call).2.store rows := by
  have kept : ∃ rows, Grows store store rows := ⟨[], .of_same ⟨rfl, rfl, rfl⟩⟩
  cases call with
  | fetch now lockTimeoutMs token session filter =>
    rcases found : fetchWorkItem store now lockTimeoutMs token session filter with _ | ⟨⟨item, attempts⟩, after⟩
    · simp only [Bench.call, Bench.fetch, found]
      exact kept
    · simp only [Bench.call, Bench.fetch, found]
      obtain ⟨row, sessions, _, _, rfl⟩ := fetchWorkItem_spec found
      exact ⟨[], .of_same ⟨rfl, rfl, rfl⟩⟩
  | ack now token completion =>
    rcases acked : ackWorkItem store now token completion with error | after
    · simp only [Bench.call, Bench.ack, acked]
      exact kept
    · simp only [Bench.call, Bench.ack, acked]
      obtain ⟨row, sessions, _, rfl⟩ := ackWorkItem_spec acked
      cases completion with
      | none => exact ⟨[], .of_same ⟨rfl, rfl, rfl⟩⟩
      | some completion => exact ⟨_, .of_one rfl rfl rfl rfl rfl⟩
  | renew now token extendMs =>
    rcases extended : renewWorkItemLock store now token extendMs with error | after
    · simp only [Bench.call, Bench.answer, extended]
      exact kept
    · simp only [Bench.call, Bench.answer, extended]
      obtain ⟨sessions, rfl⟩ := renewWorkItemLock_spec extended
      exact ⟨[], .of_same ⟨rfl, rfl, rfl⟩⟩
  | abandon now token delayMs ignoreAttempt =>
    rcases released : abandonWorkItem store now token delayMs ignoreAttempt with error | after
    · simp only [Bench.call, Bench.answer, released]
      exact kept
    · simp only [Bench.call, Bench.answer, released]
      rw [abandonWorkItem_spec released]
      exact ⟨[], .of_same ⟨rfl, rfl, rfl⟩⟩
  | renewSessions now ownerIds extendMs idleTimeoutMs =>
    refine ⟨[], .of_same ?_⟩
    simp only [Bench.call, renewSessionLock]
    split_ifs <;> exact ⟨rfl, rfl, rfl⟩
  | cleanupSessions now => exact ⟨[], .of_same ⟨rfl, rfl, rfl⟩⟩
  | items call => exact absurd rfl (worker call)

/-- A batch that a fetch drops holds the visible messages of its instance. -/
theorem mem_batch_of_visible (steady : Steady desk) {now lockTimeoutMs token : Nat} {instanceId : String}
    (fresh : desk.tickets token = none) (unlocked : desk.store.isUnlocked now instanceId) {row : OrchestratorRow}
    (visible : row ∈ visibleRows desk.store now instanceId) :
    markedRow now instanceId token row ∈ (lockedStore desk.store now lockTimeoutMs token instanceId).batch token := by
  rw [batch_lockedStore unlocked (steady.unused fresh)]
  exact List.mem_map_of_mem visible

theorem fetch_move (steady : Steady desk) {config : ProviderConfig} {filter : Option (List (SemverRange semver))}
    {now lockTimeoutMs token : Nat} {fault : Option (Nat × SqlxError)} (fresh : desk.tickets token = none)
    (decodes : Decodes desk (.call (.items (.fetch config filter now lockTimeoutMs token fault)))) :
    Move desk (.call (.items (.fetch config filter now lockTimeoutMs token fault)))
      (desk.fetch config filter now lockTimeoutMs token fault).2 := by
  have outcome := fetchOrchestrationItem_outcome config filter desk.store now lockTimeoutMs token fault
  unfold Desk.fetch
  generalize fetchOrchestrationItem config filter now lockTimeoutMs token (Conn.open desk.store fault) = ran at outcome ⊢
  obtain ⟨result, conn⟩ := ran
  dsimp only at outcome ⊢
  generalize conn.committed = committed at outcome ⊢
  cases outcome with
  | failed error => exact .grown [] desk.store (.of_same ⟨rfl, rfl, rfl⟩)
  | nothing => exact .grown [] desk.store (.of_same ⟨rfl, rfl, rfl⟩)
  | locked item attemptCount candidate found =>
    exact .issued now lockTimeoutMs token attemptCount item fresh candidate.unlocked found
  | dropped instanceId candidate noRow orphans selected =>
    have queueMessages : ∀ row ∈ visibleRows desk.store now instanceId, ∀ item ∈ row.decoded, isQueueMessage item := by
      intro row visible item read
      refine orphans _ (steady.mem_batch_of_visible fresh candidate.unlocked visible) item ?_
      rw [markedRow_decoded]
      exact read
    refine .dropped now lockTimeoutMs token instanceId fresh candidate.unlocked fun row visible => ?_
    obtain ⟨item, read⟩ := Option.ne_none_iff_exists'.mp (decodes instanceId selected noRow queueMessages row visible)
    obtain ⟨_, here⟩ := List.mem_filter.mp visible
    simp only [Bool.and_eq_true, beq_iff_eq, decide_eq_true_eq] at here
    simp only [permits, here.1, noRow, read, Option.isNone_none, Bool.true_and, Option.any_some]
    exact queueMessages row visible item read

theorem ack_move (steady : Steady desk) {config : ProviderConfig} {now token : Nat} {request : AckRequest semver}
    {fault : Option (Nat × SqlxError)} (decodes : Decodes desk (.call (.items (.ack config now token request fault)))) :
    Move desk (.call (.items (.ack config now token request fault))) (desk.ack config now token request fault).2 := by
  rcases desk.ack_cases config now token request fault with ⟨error, refused⟩ | ⟨instanceId, store, acked, committed⟩
  · rw [refused]
    exact .grown [] desk.store (.of_same ⟨rfl, rfl, rfl⟩)
  · rw [committed]
    refine .committed now token instanceId request store acked fun row member => ?_
    obtain ⟨lock, current, rfl, _⟩ := acked.held
    obtain ⟨ticket, issued, messages⟩ := steady.held instanceId lock current
    have decodable := decodes (by rw [acked.locked]; exact Option.some_ne_none _) row member
    obtain ⟨item, read⟩ := Option.ne_none_iff_exists'.mp decodable
    have listed : item ∈ ticket.item.messages := messages ▸ List.mem_filterMap.mpr ⟨row, member, read⟩
    have marked := (List.mem_filter.mp member).2
    simp only [permits, Desk.call, committed, issued, read, Option.any_some, Except.isOk, Except.toBool, Bool.true_and,
      Bool.and_eq_true, decide_eq_true_eq]
    exact ⟨marked, listed⟩

/-- Every operation on decodable messages is one of the moves. -/
theorem move (steady : Steady desk) (possible : isPossible desk operation) (decodes : Decodes desk operation) :
    Move desk operation (perform desk operation) := by
  cases operation with
  | call call =>
    by_cases worker : ∀ itemCall, call ≠ .items itemCall
    · obtain ⟨rows, grows⟩ := worker_grows desk.store call worker
      have performed : perform desk (.call call) = desk.withStore (({ store := desk.store } : Bench).call call).2.store := by
        cases call <;> first | rfl | exact absurd rfl (worker _)
      rw [performed]
      exact .grown rows _ grows
    · push Not at worker
      obtain ⟨itemCall, rfl⟩ := worker
      cases itemCall with
      | enqueue now item delayMs =>
        rcases queued : enqueueForOrchestrator desk.store now item delayMs with error | store
        · simp only [perform, Desk.call, Desk.answer, queued]
          exact .grown [] desk.store (.of_same ⟨rfl, rfl, rfl⟩)
        · simp only [perform, Desk.call, Desk.answer, queued]
          obtain ⟨rows, grows⟩ := Grows.of_elsewhere (Desk.enqueue_elsewhere queued)
          exact .grown rows store grows
      | fetch config filter now lockTimeoutMs token fault =>
        exact steady.fetch_move (Option.isNone_iff_eq_none.mp possible) decodes
      | abandon now token delayMs ignoreAttempt =>
        rcases given : abandonOrchestrationItem desk.store now token delayMs ignoreAttempt with error | store
        · simp only [perform, Desk.call, Desk.answer, given]
          exact .grown [] desk.store (.of_same ⟨rfl, rfl, rfl⟩)
        · simp only [perform, Desk.call, Desk.answer, given]
          obtain ⟨instanceId, _, rfl⟩ := abandonOrchestrationItem_spec given
          exact .altered _ _ rfl (fun row => ⟨receipt_abandonedRow .., (abandonedRow_identity ..).2.2⟩) rfl
            (QueueSound.locksKept_deleteLocks desk.store _)
      | renew now token extendMs =>
        rcases renewed : renewOrchestrationItemLock desk.store now token extendMs with error | store
        · simp only [perform, Desk.call, Desk.answer, renewed]
          exact .grown [] desk.store (.of_same ⟨rfl, rfl, rfl⟩)
        · simp only [perform, Desk.call, Desk.answer, renewed]
          obtain rfl := QueueSound.renewOrchestrationItemLock_spec renewed
          exact .altered id _ (List.map_id _).symm (fun row => ⟨rfl, rfl⟩) rfl
            (QueueSound.locksKept_updateLocks desk.store _ _)
      | ack config now token request fault => exact steady.ack_move decodes
  | insertUndecodable instanceId text visibleAt => exact .grown _ _ (.of_one rfl rfl rfl rfl rfl)
  | deleteInstances instanceIds => exact .deleted instanceIds fun row listed => by simpa [permits] using listed
  | elsewhere store => exact .grown [] store (.of_same possible)

/-! ## The holders of locks -/

theorem initial : Steady {} where
  sound := .initial
  marked _ none := absurd none List.not_mem_nil
  held _ _ found := by simp at found

/-- A change that marks no row, and adds no lock and nothing to a batch. -/
theorem withStore (steady : Steady desk) {store : Store} (sound : QueueSound store)
    (rows : ∀ row ∈ store.orchestratorQueue, ∀ token, row.lockToken = some token →
      ∃ original ∈ desk.store.orchestratorQueue, original.lockToken = some token)
    (locks : ∀ instanceId lock, store.instanceLocks.lookup instanceId = some lock →
      ∃ original, desk.store.instanceLocks.lookup instanceId = some original ∧ original.lockToken = lock.lockToken ∧
        (store.batch lock.lockToken).filterMap (·.decoded) = (desk.store.batch lock.lockToken).filterMap (·.decoded)) :
    Steady (desk.withStore store) where
  sound
  marked row member token marked := by
    obtain ⟨original, old, was⟩ := rows row member token marked
    exact steady.marked original old token was
  held instanceId lock found := by
    obtain ⟨original, was, same, batch⟩ := locks instanceId lock found
    obtain ⟨ticket, issued, messages⟩ := steady.held instanceId original was
    rw [same] at issued messages
    exact ⟨ticket, issued, batch.trans messages⟩

theorem grown (steady : Steady desk) {store : Store} {rows : List OrchestratorRow} (grows : Grows desk.store store rows) :
    Steady (desk.withStore store) := by
  have unmarked : ∀ row ∈ rows, row.lockToken = none := fun row member => (grows.new row member).unmarked
  refine steady.withStore (steady.sound.append grows.queue grows.new grows.ordered grows.next grows.locks) ?_ ?_
  · intro row member token marked
    rw [grows.queue] at member
    rcases List.mem_append.mp member with old | new
    · exact ⟨row, old, marked⟩
    · rw [unmarked row new] at marked
      cases marked
  · intro instanceId lock found
    rw [grows.locks] at found
    exact ⟨lock, found, rfl, congrArg _ (batch_append_unmarked grows.queue unmarked)⟩

theorem marked_lockedStore {now lockTimeoutMs token other : Nat} {instanceId : String}
    (unlocked : desk.store.isUnlocked now instanceId) {row : OrchestratorRow}
    (member : row ∈ (lockedStore desk.store now lockTimeoutMs token instanceId).orchestratorQueue)
    (marked : row.lockToken = some other) (differs : other ≠ token) :
    ∃ original ∈ desk.store.orchestratorQueue, original.lockToken = some other := by
  rw [lockedStore_of_unlocked unlocked] at member
  obtain ⟨original, old, rfl⟩ := List.mem_map.mp member
  unfold markedRow at marked
  split_ifs at marked
  · exact absurd (Option.some.inj marked).symm differs
  · exact ⟨original, old, marked⟩

theorem issued (steady : Steady desk) {now lockTimeoutMs token attemptCount : Nat} {item : OrchestrationItem}
    (fresh : desk.tickets token = none) (unlocked : desk.store.isUnlocked now item.instanceId)
    (found : Fetched (lockedStore desk.store now lockTimeoutMs token item.instanceId) token item attemptCount) :
    Steady (desk.issue token item (lockedStore desk.store now lockTimeoutMs token item.instanceId)) where
  sound := steady.sound.lockedStore unlocked (steady.unused fresh) lockTimeoutMs
  marked row member other marked := by
    by_cases own : other = token
    · rw [own, Desk.issue_self]
      exact Option.some_ne_none _
    · rw [Desk.issue_of_ne _ _ _ own]
      obtain ⟨original, old, was⟩ := marked_lockedStore unlocked member marked own
      exact steady.marked original old other was
  held instanceId lock locked := by
    change (lockedStore desk.store now lockTimeoutMs token item.instanceId).instanceLocks.lookup instanceId = some lock at locked
    by_cases own : instanceId = item.instanceId
    · rw [lockedStore_of_unlocked unlocked, own, AList.lookup_insert] at locked
      cases locked
      exact ⟨_, Desk.issue_self .., found.messages.symm⟩
    · have was : desk.store.instanceLocks.lookup instanceId = some lock := by
        rwa [lockedStore_of_unlocked unlocked, AList.lookup_insert_ne own] at locked
      obtain ⟨ticket, issued, messages⟩ := steady.held instanceId lock was
      have other : lock.lockToken ≠ token := (steady.unused fresh).locks instanceId lock was
      refine ⟨ticket, by rw [Desk.issue_of_ne _ _ _ other]; exact issued, ?_⟩
      rw [← messages]
      exact congrArg _ (batch_lockedStore_of_other steady.sound unlocked was own (steady.unused fresh))

theorem dropped (steady : Steady desk) {now lockTimeoutMs token : Nat} {instanceId : String}
    (fresh : desk.tickets token = none) (unlocked : desk.store.isUnlocked now instanceId) :
    Steady (desk.withStore (((lockedStore desk.store now lockTimeoutMs token instanceId).deleteBatch token).deleteLocks
      fun _ lock => lock.lockToken == token)) := by
  have unused := steady.unused fresh
  refine steady.withStore (steady.sound.lockedStore unlocked unused lockTimeoutMs).dropBatch ?_ ?_
  · intro row member other marked
    obtain ⟨queued, kept⟩ := List.mem_filter.mp member
    refine marked_lockedStore unlocked queued marked ?_
    rintro rfl
    simp [marked] at kept
  · intro locked lock found
    obtain ⟨was, same⟩ := lock_of_dropped steady.sound unlocked unused found
    exact ⟨lock, was, rfl, congrArg _ same⟩

theorem altered (steady : Steady desk) {change : OrchestratorRow → OrchestratorRow} {store : Store}
    (queue : store.orchestratorQueue = desk.store.orchestratorQueue.map change)
    (same : ∀ row, receipt (change row) = receipt row ∧ (change row).lockToken = row.lockToken)
    (next : store.nextOrchestratorId = desk.store.nextOrchestratorId) (locks : QueueSound.LocksKept desk.store store) :
    Steady (desk.withStore store) := by
  have sound : QueueSound store := steady.sound.shrink (fun _ => true) change
    (fun row => ⟨congrArg Receipt.id (same row).1, congrArg Receipt.instanceId (same row).1, (same row).2⟩)
    (by rw [List.filter_true, queue]) next locks
  refine steady.withStore sound ?_ ?_
  · intro row member token marked
    rw [queue] at member
    obtain ⟨original, old, rfl⟩ := List.mem_map.mp member
    exact ⟨original, old, (same original).2 ▸ marked⟩
  · intro instanceId lock found
    obtain ⟨original, was, sameToken⟩ := locks instanceId lock found
    exact ⟨original, was, sameToken, batch_map queue (fun row => (same row).2) fun row => decoded_of_receipt (same row).1⟩

theorem committed (steady : Steady desk) {now token : Nat} {instanceId : String} {request : AckRequest semver}
    {store : Store} (acked : Acked desk.store now token instanceId request store) : Steady (desk.record token store) := by
  have kept : Steady (desk.withStore store) := by
    refine steady.withStore (steady.sound.acked acked) ?_ ?_
    · intro row member other marked
      rw [acked.queue] at member
      rcases List.mem_append.mp member with old | new
      · exact ⟨row, List.mem_of_mem_filter old, marked⟩
      · rw [(QueueSound.mem_enqueuedRows new).2.2.1] at marked
        cases marked
    · intro locked lock found
      obtain ⟨original, was, sameToken, same⟩ := lock_of_acked steady.sound acked found
      exact ⟨original, was, sameToken, congrArg _ same⟩
  exact ⟨kept.sound, kept.marked, kept.held⟩

/-- Deleting instances leaves the batches of the others. -/
theorem deleted (steady : Steady desk) (instanceIds : List String) :
    Steady (desk.withStore (desk.store.deleteInstances instanceIds)) := by
  have locks : ∀ instanceId lock, (desk.store.deleteInstances instanceIds).instanceLocks.lookup instanceId = some lock →
      desk.store.instanceLocks.lookup instanceId = some lock ∧ instanceId ∉ instanceIds := by
    intro instanceId lock found
    simp only [Store.deleteInstances, Store.deleteLocks, Lib.KeyedTable.lookup_deleteWhere, Option.filter_eq_some_iff,
      Bool.not_eq_true', decide_eq_false_iff_not] at found
    exact found
  refine steady.withStore ?_ ?_ ?_
  · exact steady.sound.shrink _ id (fun _ => ⟨rfl, rfl, rfl⟩) (List.map_id _).symm rfl
      fun instanceId lock found => ⟨lock, (locks instanceId lock found).1, rfl⟩
  · intro row member token marked
    exact ⟨row, List.mem_of_mem_filter member, marked⟩
  · intro instanceId lock found
    obtain ⟨was, remains⟩ := locks instanceId lock found
    refine ⟨lock, was, rfl, congrArg _ ?_⟩
    change (desk.store.orchestratorQueue.filter fun row => !decide (row.instanceId ∈ instanceIds)).filter _ = _
    rw [List.filter_filter]
    refine List.filter_congr fun row member => ?_
    by_cases own : row.lockToken = some lock.lockToken
    · have target := steady.sound.owned row member instanceId lock was own
      simp [own, ← target, remains]
    · simp [own]

theorem of_move (steady : Steady desk) {next : Desk} (move : Move desk operation next) : Steady next := by
  cases move with
  | grown rows store grows => exact steady.grown grows
  | issued now lockTimeoutMs token attemptCount item fresh unlocked found => exact steady.issued fresh unlocked found
  | dropped now lockTimeoutMs token instanceId fresh unlocked permitted => exact steady.dropped fresh unlocked
  | altered change store queue same next locks => exact steady.altered queue same next locks
  | committed now token instanceId request store acked permitted => exact steady.committed acked
  | deleted instanceIds permitted => exact steady.deleted instanceIds

end Steady

/-! ## The rows of the queue -/

namespace Move

variable {desk next : Desk} {operation : Operation semver} {row : OrchestratorRow}

/-- A row that was not permitted to leave is still there. -/
theorem stays (move : Move desk operation next) (steady : Steady desk) (member : row ∈ desk.store.orchestratorQueue) :
    permits desk operation row ∨ ∃ later ∈ next.store.orchestratorQueue, receipt later = receipt row := by
  cases move with
  | grown rows store grows =>
    refine .inr ⟨row, ?_, rfl⟩
    change row ∈ store.orchestratorQueue
    rw [grows.queue]
    exact List.mem_append_left _ member
  | issued now lockTimeoutMs token attemptCount item fresh unlocked found =>
    exact .inr ⟨_, mem_lockedStore unlocked member, receipt_markedRow ..⟩
  | dropped now lockTimeoutMs token instanceId fresh unlocked permitted =>
    by_cases own : (markedRow now instanceId token row).lockToken = some token
    · obtain ⟨target, visible⟩ := markedRow_lockToken ((steady.unused fresh).rows row member) own
      exact .inl (permitted row (List.mem_filter.mpr ⟨member, by simp [target, visible]⟩))
    · refine .inr ⟨_, List.mem_filter.mpr ⟨mem_lockedStore unlocked member, ?_⟩, receipt_markedRow ..⟩
      simpa using own
  | altered change store queue same next locks =>
    refine .inr ⟨change row, ?_, (same row).1⟩
    change change row ∈ store.orchestratorQueue
    rw [queue]
    exact List.mem_map_of_mem member
  | committed now token instanceId request store acked permitted =>
    by_cases own : row.lockToken = some token
    · exact .inl (permitted row (List.mem_filter.mpr ⟨member, beq_iff_eq.mpr own⟩))
    · refine .inr ⟨row, ?_, rfl⟩
      change row ∈ store.orchestratorQueue
      rw [acked.queue]
      exact List.mem_append_left _ (List.mem_filter.mpr ⟨member, by simpa using own⟩)
  | deleted instanceIds permitted =>
    by_cases listed : row.instanceId ∈ instanceIds
    · exact .inl (permitted row listed)
    · exact .inr ⟨row, List.mem_filter.mpr ⟨member, by simpa using listed⟩, rfl⟩

/-- A row that is there has been there before, or is new. -/
theorem comes (move : Move desk operation next) (member : row ∈ next.store.orchestratorQueue) :
    (∃ earlier ∈ desk.store.orchestratorQueue, receipt earlier = receipt row) ∨
      desk.store.nextOrchestratorId ≤ row.id := by
  have marked : ∀ {now lockTimeoutMs token : Nat} {instanceId : String}, desk.store.isUnlocked now instanceId →
      row ∈ (lockedStore desk.store now lockTimeoutMs token instanceId).orchestratorQueue →
      ∃ earlier ∈ desk.store.orchestratorQueue, receipt earlier = receipt row := by
    intro now lockTimeoutMs token instanceId unlocked queued
    rw [lockedStore_of_unlocked unlocked] at queued
    obtain ⟨original, old, rfl⟩ := List.mem_map.mp queued
    exact ⟨original, old, (receipt_markedRow ..).symm⟩
  cases move with
  | grown rows store grows =>
    change row ∈ store.orchestratorQueue at member
    rw [grows.queue] at member
    rcases List.mem_append.mp member with old | new
    · exact .inl ⟨row, old, rfl⟩
    · exact .inr (grows.new row new).above
  | issued now lockTimeoutMs token attemptCount item fresh unlocked found => exact .inl (marked unlocked member)
  | dropped now lockTimeoutMs token instanceId fresh unlocked permitted =>
    exact .inl (marked unlocked (List.mem_of_mem_filter member))
  | altered change store queue same next locks =>
    change row ∈ store.orchestratorQueue at member
    rw [queue] at member
    obtain ⟨original, old, rfl⟩ := List.mem_map.mp member
    exact .inl ⟨original, old, (same original).1.symm⟩
  | committed now token instanceId request store acked permitted =>
    change row ∈ store.orchestratorQueue at member
    rw [acked.queue] at member
    rcases List.mem_append.mp member with old | new
    · exact .inl ⟨row, List.mem_of_mem_filter old, rfl⟩
    · exact .inr (QueueSound.mem_enqueuedRows new).1
  | deleted instanceIds permitted => exact .inl ⟨row, List.mem_of_mem_filter member, rfl⟩

/-- Rows keep what they say for as long as they are there. -/
theorem receipt_eq (move : Move desk operation next) (steady : Steady desk)
    (member : row ∈ desk.store.orchestratorQueue) {later : OrchestratorRow}
    (present : later ∈ next.store.orchestratorQueue) (same : later.id = row.id) : receipt later = receipt row := by
  rcases move.comes present with ⟨earlier, old, kept⟩ | new
  · have own : earlier.id = row.id := (congrArg Receipt.id kept).trans same
    rw [← kept, steady.sound.row_eq old member own]
  · have below := steady.sound.below row member
    omega

end Move

namespace Conserved

variable {ledger : Ledger} {operation : Operation semver}

theorem initial : Conserved {} where
  present _ none := absurd none List.not_mem_nil
  noted _ none := absurd none List.not_mem_nil

theorem step (conserved : Conserved ledger) (steady : Steady ledger.desk)
    (move : Move ledger.desk operation (perform ledger.desk operation)) : Conserved (ledger.after operation) where
  present entry member := by
    rcases List.mem_append.mp member with old | new
    · obtain ⟨owed, unreleased⟩ := List.mem_filter.mp old
      obtain ⟨row, queued, rfl⟩ := conserved.present entry owed
      rcases move.stays steady queued with permitted | stays
      · -- A row that may leave, and whose receipt is still there, has not left.
        by_contra missing
        have absent : ∀ later ∈ (perform ledger.desk operation).store.orchestratorQueue, later.id ≠ row.id :=
          fun later present same => missing ⟨later, present, move.receipt_eq steady queued present same⟩
        have leaves : row ∈ released ledger.desk operation := by
          refine List.mem_filter.mpr ⟨queued, ?_⟩
          simpa [permitted] using absent
        rw [Bool.not_eq_true', List.any_eq_false] at unreleased
        exact unreleased row leaves (beq_self_eq_true row.id)
      · exact stays
    · obtain ⟨row, added, rfl⟩ := List.mem_map.mp new
      exact ⟨row, List.mem_of_mem_filter added, rfl⟩
  noted row member := by
    rcases move.comes member with ⟨earlier, queued, same⟩ | new
    · refine List.mem_append_left _ (List.mem_filter.mpr ⟨same ▸ conserved.noted earlier queued, ?_⟩)
      rw [Bool.not_eq_true', List.any_eq_false]
      intro gone leaves
      obtain ⟨_, left⟩ := List.mem_filter.mp leaves
      simp only [Bool.and_eq_true, Bool.not_eq_true', List.any_eq_false, beq_iff_eq] at left
      rw [beq_iff_eq]
      exact fun own => left.2 row member own.symm
    · exact List.mem_append_right _ (List.mem_map_of_mem (List.mem_filter.mpr ⟨member, decide_eq_true new⟩))

end Conserved

/-- In every run in which acknowledged and dropped batches decode, a row leaves the queue with a successful
acknowledgement of a fetch that returned its message, with its instance, or as an orphaned queue message; every
other row is there with its content. -/
theorem conserved_of_decodes {ledger : Ledger}
    (reached : (conservation semver).Reachable (fun ledger operation => Decodes ledger.desk operation) ledger) :
    Conserved ledger := by
  have both : Steady ledger.desk ∧ Conserved ledger := by
    induction reached with
    | initial start =>
      rw [start]
      exact ⟨.initial, .initial⟩
    | step reached decodes taken ih =>
      obtain ⟨steady, conserved⟩ := ih
      obtain ⟨possible, rfl⟩ := taken
      have move := steady.move possible decodes
      exact ⟨steady.of_move move, conserved.step steady move⟩
  exact both.2

/-- Where every message decodes, every operation meets the condition. -/
theorem decodes_of_forall {desk : Desk} (all : ∀ row ∈ desk.store.orchestratorQueue, row.decoded ≠ none)
    (operation : Operation semver) : Decodes desk operation := by
  unfold Decodes
  split
  · exact fun _ row member => all row (List.mem_of_mem_filter member)
  · exact fun _ _ _ _ row member => all row (List.mem_of_mem_filter member)
  · trivial

/-! A start request is fetched and acknowledged, alone or behind a message that does not decode. -/

def enqueueStart : Operation textSemver :=
  .call (.items (.enqueue 0 (.startOrchestration "i" "orch" "" none none none 1) none))

def fetchUnder (token : Nat) : Operation textSemver := .call (.items (.fetch {} none 0 1000 token none))

def ackUnder (token : Nat) : Operation textSemver := .call (.items (.ack {} 10 token { executionId := 1 } none))

theorem reachable_after {guard : Ledger → Operation semver → Prop} {ledger : Ledger}
    (reached : (conservation semver).Reachable guard ledger) (operation : Operation semver)
    (allowed : guard ledger operation) (possible : isPossible ledger.desk operation) :
    (conservation semver).Reachable guard (ledger.after operation) :=
  .step reached allowed ⟨possible, rfl⟩

def acknowledged : Ledger := ((({} : Ledger).after enqueueStart).after (fetchUnder 1)).after (ackUnder 1)

theorem conserved_of_decodes_acknowledged : Conserved acknowledged := by
  have queued : ∀ row ∈ (({} : Ledger).after enqueueStart).desk.store.orchestratorQueue, row.decoded ≠ none := by
    decide +kernel
  have fetched : ∀ row ∈ ((({} : Ledger).after enqueueStart).after (fetchUnder 1)).desk.store.orchestratorQueue,
      row.decoded ≠ none := by
    decide +kernel
  refine conserved_of_decodes (reachable_after (reachable_after (reachable_after (.initial rfl) enqueueStart ?_ rfl)
    (fetchUnder 1) ?_ rfl) (ackUnder 1) ?_ rfl)
  · exact decodes_of_forall (fun _ none => absurd none List.not_mem_nil) _
  · exact decodes_of_forall queued _
  · exact decodes_of_forall fetched _

def laterVersion : Operation textSemver := .insertUndecodable "i" "\x7b\"LaterItem\":\x7b\x7d\x7d" 0

def behindUndecodable : Ledger :=
  (((({} : Ledger).after laterVersion).after enqueueStart).after (fetchUnder 1)).after (ackUnder 1)

/-- The acknowledgement deletes both rows, though its fetch returned one message. -/
theorem undecodable_lost : ¬ ∀ ledger : Ledger,
    (conservation textSemver).Reachable (fun _ _ => True) ledger → Conserved ledger := by
  intro always
  have reached : (conservation textSemver).Reachable (fun _ _ => True) behindUndecodable :=
    reachable_after (reachable_after (reachable_after (reachable_after (.initial rfl) laterVersion trivial trivial)
      enqueueStart trivial rfl) (fetchUnder 1) trivial rfl) (ackUnder 1) trivial rfl
  have owed : (behindUndecodable.owed.any (·.id == 1) && behindUndecodable.desk.store.orchestratorQueue.all (·.id != 1)) =
      true := by
    decide +kernel
  rw [Bool.and_eq_true, List.any_eq_true, List.all_eq_true] at owed
  obtain ⟨⟨entry, listed, own⟩, absent⟩ := owed
  obtain ⟨row, queued, rfl⟩ := (always behindUndecodable reached).present entry listed
  exact bne_iff_ne.mp (absent row queued) (beq_iff_eq.mp own)

end Duroxide.Conservation
