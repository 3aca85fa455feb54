import Duroxide.Proofs.Provenance
import Duroxide.Proofs.Redelivery

/-! # Peek-lock safety

Any number of dispatchers fetch, extend, give back and acknowledge orchestration items, in any order
and with any clocks. A desk keeps a ticket for every token that a fetch returned, with the tables as
they were, and a list of the acknowledgements that succeeded. Whoever holds the lock of an instance
knows its current records, and nobody else can commit to it.
-/

namespace Duroxide.PeekLock

open Provider Lib.Database Redelivery

variable {semver : Semver}

/-- What a fetch returned under a token, with the tables at that time and the number of
acknowledgements that its instance had seen. -/
structure Ticket where
  item : OrchestrationItem
  base : Store
  seen : Nat

/-- A successful acknowledgement: its token and instance, and how many its fetch had seen. -/
structure Commit where
  token : Nat
  instanceId : String
  seen : Nat
deriving DecidableEq, Repr

structure Desk where
  store : Store := {}
  tickets : Nat → Option Ticket := fun _ => none
  commits : List Commit := []

/-- The number of acknowledgements of an instance. -/
def commitsOn (commits : List Commit) (instanceId : String) : Nat := commits.countP (·.instanceId == instanceId)

namespace Desk

def withStore (desk : Desk) (store : Store) : Desk := { desk with store }

/-- The desk after a fetch returned an item. -/
def issue (desk : Desk) (token : Nat) (item : OrchestrationItem) (store : Store) : Desk :=
  { desk with
    store
    tickets := Function.update desk.tickets token (some ⟨item, desk.store, commitsOn desk.commits item.instanceId⟩) }

theorem issue_self (desk : Desk) (token : Nat) (item : OrchestrationItem) (store : Store) :
    (desk.issue token item store).tickets token = some ⟨item, desk.store, commitsOn desk.commits item.instanceId⟩ :=
  Function.update_self ..

theorem issue_of_ne (desk : Desk) {token other : Nat} (item : OrchestrationItem) (store : Store)
    (differs : other ≠ token) : (desk.issue token item store).tickets other = desk.tickets other :=
  Function.update_of_ne differs ..

/-- The desk after an acknowledgement succeeded. -/
def record (desk : Desk) (token : Nat) (store : Store) : Desk :=
  { desk with
    store
    commits := desk.commits ++
      ((desk.tickets token).map fun ticket => ⟨token, ticket.item.instanceId, ticket.seen⟩).toList }

/-- A call answers with the change it made or with an error. -/
def answer (desk : Desk) : Except ProviderError Store → Except ProviderError Unit × Desk
  | .ok store => (.ok (), desk.withStore store)
  | .error error => (.error error, desk)

def fetch (desk : Desk) (config : ProviderConfig) (filter : Option (List (SemverRange semver)))
    (now lockTimeoutMs token : Nat) (fault : Option (Nat × SqlxError)) : Except ProviderError Unit × Desk :=
  let (result, conn) := fetchOrchestrationItem config filter now lockTimeoutMs token (Conn.open desk.store fault)
  match result with
  | .ok (some (item, _, _)) => (.ok (), desk.issue token item conn.committed)
  | .ok none => (.ok (), desk.withStore conn.committed)
  | .error error => (.error error, desk.withStore conn.committed)

def ack (desk : Desk) (config : ProviderConfig) (now token : Nat) (request : AckRequest semver)
    (fault : Option (Nat × SqlxError)) : Except ProviderError Unit × Desk :=
  let (result, conn) := ackOrchestrationItem config now token request (Conn.open desk.store fault)
  match result with
  | .ok () => (.ok (), desk.record token conn.committed)
  | .error error => (.error error, desk.withStore conn.committed)

/-- What a call answers, and the desk after it. -/
def call (desk : Desk) : Call semver → Except ProviderError Unit × Desk
  | .enqueue now item delayMs => desk.answer (enqueueForOrchestrator desk.store now item delayMs)
  | .fetch config filter now lockTimeoutMs token fault => desk.fetch config filter now lockTimeoutMs token fault
  | .abandon now token delayMs ignoreAttempt =>
      desk.answer (abandonOrchestrationItem desk.store now token delayMs ignoreAttempt)
  | .renew now token extendMs => desk.answer (renewOrchestrationItemLock desk.store now token extendMs)
  | .ack config now token request fault => desk.ack config now token request fault

end Desk

/-- A fetch generates a token that was never given out. -/
def Desk.isFreshFor (desk : Desk) : Call semver → Bool
  | .fetch _ _ _ _ token _ => (desk.tickets token).isNone
  | _ => true

/-- Interleaved calls on one database. -/
def protocol (semver : Semver) : Lib.TransitionSystem Desk (Call semver) where
  initial desk := desk = {}
  step source call target := source.isFreshFor call ∧ target = (source.call call).2

/-- Make a list of calls. -/
def Desk.run (desk : Desk) : List (Call semver) → Option Desk
  | [] => some desk
  | call :: rest => if desk.isFreshFor call then (desk.call call).2.run rest else none

theorem Desk.reachable_of_run {desk after : Desk} {calls : List (Call semver)}
    (reached : (protocol semver).Reachable (fun _ _ => True) desk) (ran : desk.run calls = some after) :
    (protocol semver).Reachable (fun _ _ => True) after := by
  induction calls generalizing desk with
  | nil =>
    cases ran
    exact reached
  | cons call rest ih =>
    unfold Desk.run at ran
    split_ifs at ran with fresh
    exact ih (.step reached trivial ⟨fresh, rfl⟩) ran

/-! ## What is claimed of a desk -/

/-- The lock that a token was given has been released or given to somebody else. -/
def Superseded (desk : Desk) (token : Nat) : Prop :=
  ∃ ticket, desk.tickets token = some ticket ∧
    ∀ lock, desk.store.instanceLocks.lookup ticket.item.instanceId = some lock → lock.lockToken ≠ token

/-- The lock that a token was given has run out. -/
def Expired (desk : Desk) (now token : Nat) : Prop :=
  ∃ ticket lock, desk.tickets token = some ticket ∧
    desk.store.instanceLocks.lookup ticket.item.instanceId = some lock ∧ lock.lockedUntil ≤ (now : Int)

/-- A call answers with an error and leaves every table unchanged. -/
def Refused (desk : Desk) (call : Call semver) : Prop :=
  (∃ error, (desk.call call).1 = .error error) ∧ (desk.call call).2.store = desk.store

/-- Two stores with the same records of an instance. -/
structure SameInstance (before after : Store) (instanceId : String) : Prop where
  row : after.instances instanceId = before.instances instanceId
  executions : after.executions instanceId = before.executions instanceId
  history : after.history instanceId = before.history instanceId

/-- A successful acknowledgement commits to the records that its fetch had read, and keeps the messages
that were enqueued after the fetch. -/
structure Clean (desk next : Desk) (ticket : Ticket) : Prop where
  unchanged : SameInstance ticket.base desk.store ticket.item.instanceId
  survives : ∀ row ∈ desk.store.orchestratorQueue, ticket.base.nextOrchestratorId ≤ row.id →
    row ∈ next.store.orchestratorQueue

structure Safe (semver : Semver) (desk : Desk) : Prop where
  once : (desk.commits.map (·.token)).Nodup
  apart : desk.commits.Pairwise fun earlier later =>
    earlier.instanceId = later.instanceId → earlier.seen < later.seen
  staleAck : ∀ config now token (request : AckRequest semver) fault,
    Superseded desk token ∨ Expired desk now token → Refused desk (.ack config now token request fault)
  staleRenew : ∀ now token extendMs, Superseded desk token ∨ Expired desk now token →
    Refused desk (.renew now token extendMs : Call semver)
  lostAbandon : ∀ now token delayMs ignoreAttempt, Superseded desk token →
    Refused desk (.abandon now token delayMs ignoreAttempt : Call semver)
  acked : ∀ config now token (request : AckRequest semver) fault,
    (desk.call (.ack config now token request fault)).1 = .ok () →
    ∃ ticket, desk.tickets token = some ticket ∧ Clean desk (desk.call (.ack config now token request fault)).2 ticket

/-! ## What happens at a desk -/

/-- Everything else that happens to the database: rows are enqueued, and the worker tables change. -/
structure Elsewhere (before after : Store) : Prop where
  records : SameRecords before after
  locks : after.instanceLocks = before.instanceLocks
  queue : ∃ visible items, after.orchestratorQueue =
    before.orchestratorQueue ++ enqueuedRows visible before.nextOrchestratorId items ∧
    after.nextOrchestratorId = before.nextOrchestratorId + items.length

inductive Moves (semver : Semver) (desk : Desk) : Desk → Prop
  | same : Moves semver desk desk
  | elsewhere (store : Store) (changed : Elsewhere desk.store store) : Moves semver desk (desk.withStore store)
  | issued (now lockTimeoutMs token attemptCount : Nat) (item : OrchestrationItem)
      (fresh : desk.tickets token = none) (unlocked : desk.store.isUnlocked now item.instanceId)
      (found : Fetched (lockedStore desk.store now lockTimeoutMs token item.instanceId) token item attemptCount) :
      Moves semver desk (desk.issue token item (lockedStore desk.store now lockTimeoutMs token item.instanceId))
  | dropped (now lockTimeoutMs token : Nat) (instanceId : String) (fresh : desk.tickets token = none)
      (unlocked : desk.store.isUnlocked now instanceId) :
      Moves semver desk (desk.withStore
        (((lockedStore desk.store now lockTimeoutMs token instanceId).deleteBatch token).deleteLocks
          fun _ lock => lock.lockToken == token))
  | released (now token : Nat) (delayMs : Option Nat) (ignoreAttempt : Bool) (store : Store)
      (given : abandonOrchestrationItem desk.store now token delayMs ignoreAttempt = .ok store) :
      Moves semver desk (desk.withStore store)
  | extended (now token extendMs : Nat) (store : Store)
      (renewed : renewOrchestrationItemLock desk.store now token extendMs = .ok store) :
      Moves semver desk (desk.withStore store)
  | committed (now token : Nat) (instanceId : String) (request : AckRequest semver) (store : Store)
      (acked : Acked desk.store now token instanceId request store) : Moves semver desk (desk.record token store)

namespace Desk

variable {desk next : Desk}

theorem fetch_moves {config : ProviderConfig} {filter : Option (List (SemverRange semver))}
    {now lockTimeoutMs token : Nat} {fault : Option (Nat × SqlxError)} (fresh : desk.tickets token = none) :
    Moves semver desk (desk.fetch config filter now lockTimeoutMs token fault).2 := by
  have outcome := fetchOrchestrationItem_outcome config filter desk.store now lockTimeoutMs token fault
  unfold fetch
  generalize fetchOrchestrationItem config filter now lockTimeoutMs token (Conn.open desk.store fault) = ran at outcome ⊢
  obtain ⟨result, conn⟩ := ran
  dsimp only at outcome ⊢
  generalize conn.committed = committed at outcome ⊢
  cases outcome with
  | failed error => exact .same
  | nothing => exact .same
  | locked item attemptCount candidate found =>
    exact .issued now lockTimeoutMs token attemptCount item fresh candidate.unlocked found
  | dropped instanceId candidate noRow orphans =>
    exact .dropped now lockTimeoutMs token instanceId fresh candidate.unlocked

/-- An acknowledgement is refused, or commits. -/
theorem ack_cases (desk : Desk) (config : ProviderConfig) (now token : Nat) (request : AckRequest semver)
    (fault : Option (Nat × SqlxError)) :
    (∃ error, desk.ack config now token request fault = (.error error, desk)) ∨
      ∃ instanceId store, Acked desk.store now token instanceId request store ∧
        desk.ack config now token request fault = (.ok (), desk.record token store) := by
  have outcome := ackOrchestrationItem_outcome config desk.store now token request fault
  unfold ack
  generalize ackOrchestrationItem config now token request (Conn.open desk.store fault) = ran at outcome ⊢
  obtain ⟨result, conn⟩ := ran
  rcases outcome with ⟨error, rfl, unchanged⟩ | ⟨rfl, instanceId, acked⟩
  · dsimp only at unchanged ⊢
    exact .inl ⟨error, by rw [unchanged]; rfl⟩
  · exact .inr ⟨instanceId, conn.committed, acked, rfl⟩

theorem enqueue_elsewhere {store after : Store} {now : Nat} {item : WorkItem} {delayMs : Option Nat}
    (queued : enqueueForOrchestrator store now item delayMs = .ok after) : Elsewhere store after := by
  unfold enqueueForOrchestrator at queued
  split_ifs at queued
  cases queued
  exact ⟨⟨rfl, rfl, rfl, rfl, rfl⟩, rfl, fun _ => (delayMs.map (delayed now)).getD now, [item], rfl, rfl⟩

theorem answer_moves {result : Except ProviderError Store}
    (changes : ∀ store, result = .ok store → Moves semver desk (desk.withStore store)) :
    Moves semver desk (desk.answer result).2 := by
  cases result with
  | ok store => exact changes store rfl
  | error error => exact .same

/-- Every call is one of the moves. -/
theorem call_moves {call : Call semver} (fresh : desk.isFreshFor call) : Moves semver desk (desk.call call).2 := by
  cases call with
  | enqueue now item delayMs => exact answer_moves fun store queued => .elsewhere store (enqueue_elsewhere queued)
  | fetch config filter now lockTimeoutMs token fault => exact fetch_moves (Option.isNone_iff_eq_none.mp fresh)
  | abandon now token delayMs ignoreAttempt =>
    exact answer_moves fun store given => .released now token delayMs ignoreAttempt store given
  | renew now token extendMs => exact answer_moves fun store renewed => .extended now token extendMs store renewed
  | ack config now token request fault =>
    rcases desk.ack_cases config now token request fault with ⟨error, refused⟩ | ⟨instanceId, store, acked, committed⟩
    · rw [Desk.call, refused]
      exact .same
    · rw [Desk.call, committed]
      exact .committed now token instanceId request store acked

end Desk

/-! ## The invariant -/

namespace SameInstance

variable {before middle after : Store} {instanceId : String}

theorem trans (first : SameInstance before middle instanceId) (second : SameInstance middle after instanceId) :
    SameInstance before after instanceId :=
  ⟨second.row.trans first.row, second.executions.trans first.executions, second.history.trans first.history⟩

theorem of_records (same : SameRecords before after) (instanceId : String) : SameInstance before after instanceId :=
  ⟨by rw [same.instances], by rw [same.executions], by rw [same.history]⟩

/-- An acknowledgement leaves the records of other instances alone. -/
theorem of_acked {now token : Nat} {acked : String} {request : AckRequest semver}
    (committed : Acked before now token acked request after) (differs : instanceId ≠ acked) :
    SameInstance before after instanceId where
  row := committed.otherInstances instanceId differs
  executions := committed.foreignExecutions instanceId differs
  history := funext fun id => committed.otherHistory instanceId id fun same => differs (congrArg Prod.fst same)

/-- An item describes its instance as long as the records of the instance stay. -/
theorem describes {item : OrchestrationItem} (same : SameInstance before after item.instanceId)
    (describes : Describes before item) : Describes after item := by
  have latest : after.latestExecutionId item.instanceId = before.latestExecutionId item.instanceId := by
    rw [Store.latestExecutionId, Store.latestExecutionId, same.executions]
  have read : ∀ id, after.readHistory item.instanceId id = before.readHistory item.instanceId id := by
    intro id
    rw [Store.readHistory, Store.readHistory, same.history]
  cases describes with
  | known info row current named versioned readable history =>
    exact .known info (same.row.trans row) current named versioned readable ((read _).trans history)
  | unreadable info row current named versioned failed empty =>
    exact .unreadable info (same.row.trans row) current named versioned failed empty
  | recorded noRow first readable history started =>
    exact .recorded (same.row.trans noRow) first readable (by rw [read, latest]; exact history) started
  | requested noRow first readable empty version start versioned =>
    exact .requested (same.row.trans noRow) first readable empty version start versioned

end SameInstance

/-- The holder of a lock has a ticket for the instance as it is now. -/
structure Holds (desk : Desk) (instanceId : String) (token : Nat) (ticket : Ticket) : Prop where
  issued : desk.tickets token = some ticket
  target : ticket.item.instanceId = instanceId
  unchanged : SameInstance ticket.base desk.store instanceId
  describes : Describes desk.store ticket.item
  seen : ticket.seen = commitsOn desk.commits instanceId
  uncommitted : ∀ commit ∈ desk.commits, commit.token ≠ token

structure Sound (desk : Desk) : Prop where
  queue : QueueSound desk.store
  holders : ∀ instanceId lock, desk.store.instanceLocks.lookup instanceId = some lock →
    ∃ ticket, Holds desk instanceId lock.lockToken ticket
  marked : ∀ row ∈ desk.store.orchestratorQueue, ∀ token, row.lockToken = some token →
    ∃ ticket, desk.tickets token = some ticket ∧ row.id < ticket.base.nextOrchestratorId
  issued : ∀ token ticket, desk.tickets token = some ticket →
    ticket.base.nextOrchestratorId ≤ desk.store.nextOrchestratorId
  ticketed : ∀ commit ∈ desk.commits, (desk.tickets commit.token).isSome
  counted : ∀ commit ∈ desk.commits, commit.seen < commitsOn desk.commits commit.instanceId
  once : (desk.commits.map (·.token)).Nodup
  apart : desk.commits.Pairwise fun earlier later =>
    earlier.instanceId = later.instanceId → earlier.seen < later.seen

namespace Sound

variable {desk next : Desk}

theorem initial : Sound {} where
  queue := .initial
  holders _ _ found := by simp at found
  marked _ member := absurd member List.not_mem_nil
  issued _ _ found := nomatch found
  ticketed _ member := absurd member List.not_mem_nil
  counted _ member := absurd member List.not_mem_nil
  once := List.nodup_nil
  apart := .nil

/-- A token without a ticket is unused in the tables. -/
theorem unused (sound : Sound desk) {token : Nat} (fresh : desk.tickets token = none) : Unused desk.store token where
  rows row member marked := by
    obtain ⟨ticket, found, _⟩ := sound.marked row member token marked
    rw [fresh] at found
    cases found
  locks instanceId lock found marked := by
    obtain ⟨ticket, holds⟩ := sound.holders instanceId lock found
    have issued := holds.issued
    rw [marked, fresh] at issued
    cases issued

/-- A change that keeps the records, and neither marks rows nor adds locks. -/
theorem withStore (sound : Sound desk) {store : Store} (queue : QueueSound store)
    (records : SameRecords desk.store store) (locks : QueueSound.LocksKept desk.store store)
    (rows : ∀ row ∈ store.orchestratorQueue, ∀ token, row.lockToken = some token →
      ∃ original ∈ desk.store.orchestratorQueue, original.lockToken = some token ∧ original.id = row.id)
    (next : desk.store.nextOrchestratorId ≤ store.nextOrchestratorId) : Sound (desk.withStore store) where
  queue
  holders instanceId lock found := by
    obtain ⟨original, was, same⟩ := locks instanceId lock found
    obtain ⟨ticket, holds⟩ := sound.holders instanceId original was
    rw [same] at holds
    have kept := SameInstance.of_records records instanceId
    exact ⟨ticket, holds.issued, holds.target, holds.unchanged.trans kept,
      SameInstance.describes (by rw [holds.target]; exact kept) holds.describes, holds.seen, holds.uncommitted⟩
  marked row member token marked := by
    obtain ⟨original, old, was, same⟩ := rows row member token marked
    rw [← same]
    exact sound.marked original old token was
  issued token ticket found := (sound.issued token ticket found).trans next
  ticketed := sound.ticketed
  counted := sound.counted
  once := sound.once
  apart := sound.apart

theorem elsewhere (sound : Sound desk) {store : Store} (changed : Elsewhere desk.store store) :
    Sound (desk.withStore store) := by
  obtain ⟨visible, items, rows, next⟩ := changed.queue
  refine sound.withStore (sound.queue.enqueue visible items rows next changed.locks) changed.records ?_ ?_ ?_
  · intro instanceId lock found
    rw [changed.locks] at found
    exact ⟨lock, found, rfl⟩
  · intro row member token marked
    rw [rows] at member
    rcases List.mem_append.mp member with old | new
    · exact ⟨row, old, marked, rfl⟩
    · rw [(QueueSound.mem_enqueuedRows new).2.2.1] at marked
      cases marked
  · rw [next]
    exact Nat.le_add_right _ _

theorem released (sound : Sound desk) {now token : Nat} {delayMs : Option Nat} {ignoreAttempt : Bool} {store : Store}
    (given : abandonOrchestrationItem desk.store now token delayMs ignoreAttempt = .ok store) :
    Sound (desk.withStore store) := by
  have queue := sound.queue.abandon given
  have records := SameRecords.abandonOrchestrationItem given
  obtain ⟨instanceId, locked, rfl⟩ := abandonOrchestrationItem_spec given
  refine sound.withStore queue records (QueueSound.locksKept_deleteLocks desk.store _) ?_ (Nat.le_refl _)
  intro row member other marked
  obtain ⟨original, old, rfl⟩ := List.mem_map.mp member
  obtain ⟨sameId, _, sameToken⟩ := abandonedRow_identity now instanceId delayMs ignoreAttempt original
  exact ⟨original, old, sameToken ▸ marked, sameId.symm⟩

theorem extended (sound : Sound desk) {now token extendMs : Nat} {store : Store}
    (renewed : renewOrchestrationItemLock desk.store now token extendMs = .ok store) :
    Sound (desk.withStore store) := by
  have queue := sound.queue.renew renewed
  have records := SameRecords.renewOrchestrationItemLock renewed
  obtain rfl := QueueSound.renewOrchestrationItemLock_spec renewed
  refine sound.withStore queue records (QueueSound.locksKept_updateLocks desk.store _ _) ?_ (Nat.le_refl _)
  intro row member other marked
  exact ⟨row, member, marked, rfl⟩

/-- A row that a fetch did not mark is as before. -/
theorem row_of_lockedStore {store : Store} {now lockTimeoutMs token : Nat} {instanceId : String}
    (unlocked : store.isUnlocked now instanceId) {row : OrchestratorRow}
    (member : row ∈ (lockedStore store now lockTimeoutMs token instanceId).orchestratorQueue) :
    ∃ original ∈ store.orchestratorQueue, original.id = row.id ∧
      (row.lockToken = some token ∨ row.lockToken = original.lockToken) := by
  rw [lockedStore_of_unlocked unlocked] at member
  obtain ⟨original, old, rfl⟩ := List.mem_map.mp member
  refine ⟨original, old, (markedRow_id ..).symm, ?_⟩
  unfold markedRow
  split_ifs
  · exact .inl rfl
  · exact .inr rfl

/-- A lock in the store of a fetch is the new one or an old one. -/
theorem lock_of_lockedStore {store : Store} {now lockTimeoutMs token : Nat} {instanceId : String}
    (unlocked : store.isUnlocked now instanceId) {locked : String} {lock : InstanceLock}
    (found : (lockedStore store now lockTimeoutMs token instanceId).instanceLocks.lookup locked = some lock) :
    locked = instanceId ∧ lock.lockToken = token ∨
      locked ≠ instanceId ∧ store.instanceLocks.lookup locked = some lock := by
  rw [lockedStore_of_unlocked unlocked] at found
  by_cases same : locked = instanceId
  · subst same
    rw [AList.lookup_insert] at found
    cases found
    exact .inl ⟨rfl, rfl⟩
  · rw [AList.lookup_insert_ne same] at found
    exact .inr ⟨same, found⟩

theorem lockedStore_nextOrchestratorId {store : Store} {now lockTimeoutMs token : Nat} {instanceId : String} :
    (lockedStore store now lockTimeoutMs token instanceId).nextOrchestratorId = store.nextOrchestratorId := by
  obtain ⟨locks, queue, same⟩ := lockedStore_eq store now lockTimeoutMs token instanceId
  rw [same]

theorem dropped (sound : Sound desk) {now token : Nat} {instanceId : String} (fresh : desk.tickets token = none)
    (unlocked : desk.store.isUnlocked now instanceId) (lockTimeoutMs : Nat) :
    Sound (desk.withStore (((lockedStore desk.store now lockTimeoutMs token instanceId).deleteBatch token).deleteLocks
      fun _ lock => lock.lockToken == token)) := by
  have unused := sound.unused fresh
  refine sound.withStore (sound.queue.lockedStore unlocked unused lockTimeoutMs).dropBatch
    ((SameRecords.lockedStore desk.store now lockTimeoutMs token instanceId).trans ⟨rfl, rfl, rfl, rfl, rfl⟩) ?_ ?_ ?_
  · intro locked lock found
    simp only [Store.deleteLocks, Lib.KeyedTable.lookup_deleteWhere, Option.filter_eq_some_iff] at found
    rcases lock_of_lockedStore unlocked found.1 with ⟨_, own⟩ | ⟨_, was⟩
    · simp [own] at found
    · exact ⟨lock, was, rfl⟩
  · intro row member other marked
    obtain ⟨kept, notOwn⟩ := List.mem_filter.mp member
    obtain ⟨original, old, sameId, own | sameToken⟩ := row_of_lockedStore unlocked kept
    · simp [own] at notOwn
    · exact ⟨original, old, sameToken ▸ marked, sameId⟩
  · exact Nat.le_of_eq lockedStore_nextOrchestratorId.symm

theorem issue (sound : Sound desk) {now lockTimeoutMs token attemptCount : Nat} {item : OrchestrationItem}
    (fresh : desk.tickets token = none) (unlocked : desk.store.isUnlocked now item.instanceId)
    (found : Fetched (lockedStore desk.store now lockTimeoutMs token item.instanceId) token item attemptCount) :
    Sound (desk.issue token item (lockedStore desk.store now lockTimeoutMs token item.instanceId)) := by
  have unused := sound.unused fresh
  have records := SameRecords.lockedStore desk.store now lockTimeoutMs token item.instanceId
  have other := @Desk.issue_of_ne desk token
  have own := desk.issue_self token item
  refine ⟨sound.queue.lockedStore unlocked unused lockTimeoutMs, ?_, ?_, ?_, ?_, sound.counted, sound.once, sound.apart⟩
  · intro locked lock lookup
    rcases lock_of_lockedStore unlocked lookup with ⟨rfl, tokens⟩ | ⟨_, was⟩
    · rw [tokens]
      refine ⟨_, own _, rfl, .of_records records _, found.describes, rfl, fun commit member same => ?_⟩
      have ticketed := sound.ticketed commit member
      rw [same, fresh] at ticketed
      cases ticketed
    · obtain ⟨ticket, holds⟩ := sound.holders locked lock was
      have kept := SameInstance.of_records records locked
      refine ⟨ticket, ?_, holds.target, holds.unchanged.trans kept,
        SameInstance.describes (by rw [holds.target]; exact kept) holds.describes, holds.seen, holds.uncommitted⟩
      rw [other _ _ (unused.locks locked lock was)]
      exact holds.issued
  · intro row member marker marked
    obtain ⟨original, old, sameId, ownToken | sameToken⟩ := row_of_lockedStore unlocked member
    · rw [ownToken] at marked
      cases marked
      refine ⟨_, own _, ?_⟩
      rw [← sameId]
      exact sound.queue.below original old
    · rw [sameToken] at marked
      obtain ⟨ticket, issued, below⟩ := sound.marked original old marker marked
      refine ⟨ticket, ?_, by rwa [← sameId]⟩
      rw [other _ _ fun same => unused.rows original old (same ▸ marked)]
      exact issued
  · intro taken ticket issued
    have next : desk.store.nextOrchestratorId =
      (desk.issue token item (lockedStore desk.store now lockTimeoutMs token item.instanceId)).store.nextOrchestratorId :=
      lockedStore_nextOrchestratorId.symm
    rw [← next]
    by_cases same : taken = token
    · subst same
      rw [own] at issued
      cases issued
      exact Nat.le_refl _
    · rw [other _ _ same] at issued
      exact sound.issued taken ticket issued
  · intro commit member
    have ticketed := sound.ticketed commit member
    rw [other]
    · exact ticketed
    · intro same
      rw [same, fresh] at ticketed
      cases ticketed

theorem commitsOn_append (commits : List Commit) (commit : Commit) (instanceId : String) :
    commitsOn (commits ++ [commit]) instanceId =
      commitsOn commits instanceId + if commit.instanceId = instanceId then 1 else 0 := by
  simp only [commitsOn, List.countP_append, List.countP_singleton, beq_iff_eq]

/-- The ticket of an acknowledgement that succeeds. -/
theorem holder_of_acked (sound : Sound desk) {now token : Nat} {instanceId : String} {request : AckRequest semver}
    {store : Store} (acked : Acked desk.store now token instanceId request store) :
    ∃ ticket, Holds desk instanceId token ticket := by
  obtain ⟨lock, found, tokens⟩ := lock_of_lockedInstance acked.locked
  obtain ⟨ticket, holds⟩ := sound.holders instanceId lock found
  rw [tokens] at holds
  exact ⟨ticket, holds⟩

theorem record_of_holds {token : Nat} {instanceId : String} {ticket : Ticket} (holds : Holds desk instanceId token ticket)
    (store : Store) : desk.record token store =
      { desk with store, commits := desk.commits ++ [⟨token, instanceId, ticket.seen⟩] } := by
  simp only [Desk.record, holds.issued, holds.target, Option.map_some, Option.toList_some]

theorem committed (sound : Sound desk) {now token : Nat} {instanceId : String} {request : AckRequest semver}
    {store : Store} (acked : Acked desk.store now token instanceId request store) : Sound (desk.record token store) := by
  obtain ⟨ticket, holds⟩ := sound.holder_of_acked acked
  obtain ⟨held, current, tokens, _⟩ := acked.held
  rw [record_of_holds holds]
  refine ⟨sound.queue.acked acked, ?_, ?_, ?_, ?_, ?_, ?_, ?_⟩
  · intro locked lock found
    have differs : locked ≠ instanceId := by
      rintro rfl
      have released := acked.released
      rw [found] at released
      cases released
    have foreign : ∀ other, desk.store.instanceLocks.lookup locked = some other → other.lockToken ≠ token :=
      fun other was same => differs (sound.queue.tokens _ _ _ _ was current (same.trans tokens.symm))
    have was : desk.store.instanceLocks.lookup locked = some lock := (acked.otherLocks locked differs foreign).symm.trans found
    obtain ⟨ticket', holds'⟩ := sound.holders locked lock was
    have kept := SameInstance.of_acked acked differs
    refine ⟨ticket', holds'.issued, holds'.target, holds'.unchanged.trans kept,
      SameInstance.describes (by rw [holds'.target]; exact kept) holds'.describes, ?_, ?_⟩
    · rw [commitsOn_append, if_neg (Ne.symm differs)]
      exact holds'.seen
    · intro commit member
      rcases List.mem_append.mp member with old | new
      · exact holds'.uncommitted commit old
      · rw [List.mem_singleton.mp new]
        exact (foreign lock was).symm
  · intro row member marker marked
    rw [acked.queue] at member
    rcases List.mem_append.mp member with old | new
    · exact sound.marked row (List.mem_of_mem_filter old) marker marked
    · rw [(QueueSound.mem_enqueuedRows new).2.2.1] at marked
      cases marked
  · intro taken other issued
    refine (sound.issued taken other issued).trans ?_
    rw [acked.nextOrchestratorId]
    exact Nat.le_add_right _ _
  · intro commit member
    rcases List.mem_append.mp member with old | new
    · exact sound.ticketed commit old
    · rw [List.mem_singleton.mp new, holds.issued]
      rfl
  · intro commit member
    rw [commitsOn_append]
    rcases List.mem_append.mp member with old | new
    · exact Nat.lt_of_lt_of_le (sound.counted commit old) (Nat.le_add_right _ _)
    · rw [List.mem_singleton.mp new, if_pos rfl, holds.seen]
      exact Nat.lt_succ_self _
  · rw [List.map_append, List.nodup_append]
    refine ⟨sound.once, List.nodup_singleton _, ?_⟩
    rintro taken old _ new
    obtain ⟨commit, member, rfl⟩ := List.mem_map.mp old
    rw [List.mem_singleton.mp new]
    exact holds.uncommitted commit member
  · refine List.pairwise_append.mpr ⟨sound.apart, List.pairwise_singleton _ _, ?_⟩
    intro earlier old later new same
    obtain rfl := List.mem_singleton.mp new
    have counted := sound.counted earlier old
    rw [same, ← holds.seen] at counted
    exact counted

theorem moves (sound : Sound desk) (moves : Moves semver desk next) : Sound next := by
  cases moves with
  | same => exact sound
  | elsewhere store changed => exact sound.elsewhere changed
  | issued now lockTimeoutMs token attemptCount item fresh unlocked found => exact sound.issue fresh unlocked found
  | dropped now lockTimeoutMs token instanceId fresh unlocked => exact sound.dropped fresh unlocked lockTimeoutMs
  | released now token delayMs ignoreAttempt store given => exact sound.released given
  | extended now token extendMs store renewed => exact sound.extended renewed
  | committed now token instanceId request store acked => exact sound.committed acked

theorem of_reachable {guard : Desk → Call semver → Prop} (reached : (protocol semver).Reachable guard desk) :
    Sound desk := by
  refine reached.invariant (fun _ start => start ▸ initial) ?_
  rintro source call _ sound _ ⟨fresh, rfl⟩
  exact sound.moves (Desk.call_moves fresh)

/-! ## What the invariant gives -/

/-- A superseded token locks nothing. -/
theorem unlocked_of_superseded (sound : Sound desk) {token : Nat} (lost : Superseded desk token) :
    ∀ instanceId lock, desk.store.instanceLocks.lookup instanceId = some lock → lock.lockToken ≠ token := by
  intro instanceId lock found same
  obtain ⟨ticket, issued, other⟩ := lost
  obtain ⟨holder, holds⟩ := sound.holders instanceId lock found
  have own := holds.issued
  rw [same, issued] at own
  cases own
  refine other lock ?_ same
  rw [holds.target]
  exact found

/-- A superseded or expired token holds no lock. -/
theorem lapsed_of_stale (sound : Sound desk) {now token : Nat} (stale : Superseded desk token ∨ Expired desk now token) :
    ∀ instanceId lock, desk.store.instanceLocks.lookup instanceId = some lock → lock.lockToken = token →
      lock.lockedUntil ≤ (now : Int) := by
  intro instanceId lock found same
  rcases stale with lost | ⟨ticket, expired, issued, current, lapsed⟩
  · exact absurd same (sound.unlocked_of_superseded lost instanceId lock found)
  · obtain ⟨holder, holds⟩ := sound.holders instanceId lock found
    have own := holds.issued
    rw [same, issued] at own
    cases own
    rw [holds.target, found] at current
    cases current
    exact lapsed

theorem staleAck (sound : Sound desk) (config : ProviderConfig) {now token : Nat} (request : AckRequest semver)
    (fault : Option (Nat × SqlxError)) (stale : Superseded desk token ∨ Expired desk now token) :
    Refused desk (.ack config now token request fault) := by
  rcases desk.ack_cases config now token request fault with ⟨error, refused⟩ | ⟨instanceId, store, acked, _⟩
  · exact ⟨⟨error, by rw [Desk.call, refused]⟩, by rw [Desk.call, refused]⟩
  · obtain ⟨lock, found, same, valid⟩ := acked.held
    have lapsed := sound.lapsed_of_stale stale instanceId lock found same
    omega

theorem refused_of_error {result : Except ProviderError Store} {call : Call semver}
    (same : desk.call call = desk.answer result) (failed : ∃ error, result = .error error) : Refused desk call := by
  obtain ⟨error, rfl⟩ := failed
  exact ⟨⟨error, by rw [same]; rfl⟩, by rw [same]; rfl⟩

theorem staleRenew (sound : Sound desk) {now token : Nat} (extendMs : Nat)
    (stale : Superseded desk token ∨ Expired desk now token) :
    Refused desk (.renew now token extendMs : Call semver) := by
  refine refused_of_error rfl ?_
  unfold renewOrchestrationItemLock
  refine ⟨_, if_neg fun held => ?_⟩
  obtain ⟨⟨instanceId, lock⟩, member, valid⟩ := List.any_eq_true.mp held
  simp only [Bool.and_eq_true, beq_iff_eq, decide_eq_true_eq] at valid
  have lapsed := sound.lapsed_of_stale stale instanceId lock (Lib.KeyedTable.mem_entries_iff.mp member) valid.1
  omega

theorem lostAbandon (sound : Sound desk) {token : Nat} (now : Nat) (delayMs : Option Nat) (ignoreAttempt : Bool)
    (lost : Superseded desk token) : Refused desk (.abandon now token delayMs ignoreAttempt : Call semver) := by
  refine refused_of_error rfl ?_
  have gone : desk.store.lockedInstance token = none := by
    rcases locked : desk.store.lockedInstance token with _ | instanceId
    · rfl
    · obtain ⟨lock, found, same⟩ := lock_of_lockedInstance locked
      exact absurd same (sound.unlocked_of_superseded lost instanceId lock found)
  unfold abandonOrchestrationItem
  rw [gone]
  exact ⟨_, rfl⟩

/-- A row enqueued after a fetch is not in its batch. -/
theorem survives (sound : Sound desk) {now token : Nat} {instanceId : String} {request : AckRequest semver}
    {store : Store} (acked : Acked desk.store now token instanceId request store) {ticket : Ticket}
    (issued : desk.tickets token = some ticket) {row : OrchestratorRow} (member : row ∈ desk.store.orchestratorQueue)
    (later : ticket.base.nextOrchestratorId ≤ row.id) : row ∈ store.orchestratorQueue := by
  rw [acked.queue]
  refine List.mem_append_left _ (List.mem_filter.mpr ⟨member, ?_⟩)
  simp only [Bool.not_eq_true', beq_eq_false_iff_ne, ne_eq]
  intro marked
  obtain ⟨other, own, below⟩ := sound.marked row member token marked
  rw [issued] at own
  cases own
  omega

end Sound

/-- Peek-lock safety, for every interleaving of calls. -/
theorem safe_of_reachable {desk : Desk} (reached : (protocol semver).Reachable (fun _ _ => True) desk) :
    Safe semver desk := by
  have sound := Sound.of_reachable reached
  refine ⟨sound.once, sound.apart, ?_, ?_, ?_, ?_⟩
  · intro config now token request fault stale
    exact sound.staleAck config request fault stale
  · intro now token extendMs stale
    exact sound.staleRenew extendMs stale
  · intro now token delayMs ignoreAttempt lost
    exact sound.lostAbandon now delayMs ignoreAttempt lost
  · intro config now token request fault succeeded
    rcases desk.ack_cases config now token request fault with ⟨error, refused⟩ | ⟨instanceId, store, acked, committed⟩
    · rw [Desk.call, refused] at succeeded
      cases succeeded
    · obtain ⟨ticket, holds⟩ := sound.holder_of_acked acked
      rw [Desk.call, committed]
      refine ⟨ticket, holds.issued, ?_, fun row member later => sound.survives acked holds.issued member later⟩
      rw [holds.target]
      exact holds.unchanged

/-! Two dispatchers fetch the same item, the second after the lock of the first has run out. -/

def contested : List (Call textSemver) :=
  [.enqueue 0 (.startOrchestration "i" "orch" "" none none none 1) none, .fetch {} none 0 10 1 none,
    .fetch {} none 20 10 2 none]

theorem safe_of_reachable_contested : ∃ desk, Desk.run {} contested = some desk ∧ Superseded desk 1 ∧
    Safe textSemver desk := by
  have taken : (Desk.run {} contested).any (fun desk => (desk.tickets 1).any fun ticket =>
      (desk.store.instanceLocks.lookup ticket.item.instanceId).all (·.lockToken != 1)) = true := by
    decide +kernel
  obtain ⟨desk, ran, lost⟩ := (Option.any_eq_true _ _).mp taken
  obtain ⟨ticket, issued, other⟩ := (Option.any_eq_true _ _).mp lost
  refine ⟨desk, ran, ⟨ticket, issued, ?_⟩, safe_of_reachable (Desk.reachable_of_run (.initial rfl) ran)⟩
  simpa [Option.all_eq_true] using other

end Duroxide.PeekLock
