import Duroxide.Proofs.PeekLock
import Duroxide.Proofs.WorkerCalls

/-! # Locks of worker items

Any number of workers fetch, extend, give back and acknowledge activities, while orchestration items are
committed that enqueue activities and cancel them. A bench notes which row a token was handed out for, and how
each row ended. A row ends once, so it completes at most once and never after it was cancelled.
-/

namespace Duroxide.WorkerLocks

open Provider Lib.Database

variable {semver : Semver}

/-- How a row left the worker queue. -/
inductive Ending where
  | completed (completion : WorkItem)
  | dropped
  | cancelled
deriving DecidableEq, Repr

/-- What an acknowledgement makes of a row. -/
def endingOf : Option WorkItem → Ending
  | some completion => .completed completion
  | none => .dropped

/-- The calls of workers, and those of dispatchers. -/
inductive WorkerCall (semver : Semver) where
  | fetch (now lockTimeoutMs token : Nat) (session : Option SessionFetchConfig) (filter : TagFilter)
  | ack (now token : Nat) (completion : Option WorkItem)
  | renew (now token extendMs : Nat)
  | abandon (now token : Nat) (delayMs : Option Nat) (ignoreAttempt : Bool)
  | renewSessions (now : Nat) (ownerIds : List String) (extendMs idleTimeoutMs : Nat)
  | cleanupSessions (now : Nat)
  | items (call : Redelivery.Call semver)

structure Bench where
  store : Store := {}
  tickets : Nat → Option Nat := fun _ => none
  endings : List (Nat × Ending) := []

namespace Bench

/-- A call answers with the change it made or with an error. -/
def answer (bench : Bench) : Except ProviderError Store → Except ProviderError Unit × Bench
  | .ok store => (.ok (), { bench with store })
  | .error error => (.error error, bench)

def fetch (bench : Bench) (now lockTimeoutMs token : Nat) (session : Option SessionFetchConfig) (filter : TagFilter) :
    Bench :=
  match fetchWorkItem bench.store now lockTimeoutMs token session filter with
  | some (_, store) =>
      { bench with
        store
        tickets := Function.update bench.tickets token
          ((bench.store.workerQueue.find? (isAvailable bench.store now session filter)).map (·.id)) }
  | none => bench

def ack (bench : Bench) (now token : Nat) (completion : Option WorkItem) : Except ProviderError Unit × Bench :=
  match ackWorkItem bench.store now token completion with
  | .ok store =>
      (.ok (), { bench with
        store
        endings := bench.endings ++
          ((bench.store.workerQueue.find? (holdsWork now token)).map fun row => (row.id, endingOf completion)).toList })
  | .error error => (.error error, bench)

/-- The rows that a change of the store removed. -/
def removed (bench : Bench) (store : Store) : List (Nat × Ending) :=
  (bench.store.workerQueue.filter fun row => !store.workerQueue.any (·.id == row.id)).map fun row => (row.id, .cancelled)

/-- A call of a dispatcher. -/
def items (bench : Bench) (call : Redelivery.Call semver) : Except ProviderError Unit × Bench :=
  let (result, desk) := ({ store := bench.store } : PeekLock.Desk).call call
  (result, { bench with store := desk.store, endings := bench.endings ++ bench.removed desk.store })

/-- What a call answers, and the bench after it. -/
def call (bench : Bench) : WorkerCall semver → Except ProviderError Unit × Bench
  | .fetch now lockTimeoutMs token session filter => (.ok (), bench.fetch now lockTimeoutMs token session filter)
  | .ack now token completion => bench.ack now token completion
  | .renew now token extendMs => bench.answer (renewWorkItemLock bench.store now token extendMs)
  | .abandon now token delayMs ignoreAttempt =>
      bench.answer (abandonWorkItem bench.store now token delayMs ignoreAttempt)
  | .renewSessions now ownerIds extendMs idleTimeoutMs =>
      (.ok (), { bench with store := (renewSessionLock bench.store now ownerIds extendMs idleTimeoutMs).2 })
  | .cleanupSessions now => (.ok (), { bench with store := (cleanupOrphanedSessions bench.store now).2 })
  | .items call => bench.items call

/-- A fetch generates a token that was never given out. -/
def isFreshFor (bench : Bench) : WorkerCall semver → Bool
  | .fetch _ _ token _ _ => (bench.tickets token).isNone
  | _ => true

end Bench

/-- Interleaved calls on one database. -/
def workers (semver : Semver) : Lib.TransitionSystem Bench (WorkerCall semver) where
  initial bench := bench = {}
  step source call target := source.isFreshFor call ∧ target = (source.call call).2

/-! ## What is claimed of a bench -/

variable {bench : Bench} {token : Nat}

/-- The row that a token was handed out for is unlocked, or locked under another token. -/
def Superseded (bench : Bench) (token : Nat) : Prop :=
  ∃ row ∈ bench.store.workerQueue, bench.tickets token = some row.id ∧ row.lockToken ≠ some token

/-- The row that a token was handed out for was acknowledged or cancelled. -/
def Ended (bench : Bench) (token : Nat) : Prop :=
  ∃ ended ∈ bench.endings, bench.tickets token = some ended.1

/-- The lock of the row that a token was handed out for has run out. -/
def Expired (bench : Bench) (now token : Nat) : Prop :=
  ∃ row ∈ bench.store.workerQueue, bench.tickets token = some row.id ∧ row.lockedUntil.all (· ≤ (now : Int))

/-- A call answers with an error and leaves every table unchanged. -/
def Refused (bench : Bench) (call : WorkerCall semver) : Prop :=
  (∃ error, (bench.call call).1 = .error error) ∧ (bench.call call).2.store = bench.store

structure Safe (semver : Semver) (bench : Bench) : Prop where
  once : (bench.endings.map (·.1)).Nodup
  completes : ∀ now token completion, (bench.call (.ack now token completion : WorkerCall semver)).1 = .ok () →
    ∃ id, bench.tickets token = some id ∧
      (bench.call (.ack now token completion : WorkerCall semver)).2.endings =
        bench.endings ++ [(id, endingOf completion)] ∧
      (bench.call (.ack now token completion : WorkerCall semver)).2.store.orchestratorQueue.map (·.workItem) =
        bench.store.orchestratorQueue.map (·.workItem) ++ completion.toList
  noted : ∀ call : WorkerCall semver, ∀ row ∈ bench.store.workerQueue,
    (∀ kept ∈ (bench.call call).2.store.workerQueue, kept.id ≠ row.id) → ∃ ended ∈ (bench.call call).2.endings, ended.1 = row.id
  silent : ∀ call : WorkerCall semver, (∀ now token completion, call ≠ .ack now token completion) →
    (∀ itemCall, call ≠ .items itemCall) → (bench.call call).2.store.orchestratorQueue = bench.store.orchestratorQueue
  staleAck : ∀ now token completion, Expired bench now token ∨ Superseded bench token ∨ Ended bench token →
    Refused bench (.ack now token completion : WorkerCall semver)
  staleRenew : ∀ now token extendMs, Expired bench now token ∨ Superseded bench token ∨ Ended bench token →
    Refused bench (.renew now token extendMs : WorkerCall semver)
  lostAbandon : ∀ now token delayMs ignoreAttempt, Superseded bench token ∨ Ended bench token →
    Refused bench (.abandon now token delayMs ignoreAttempt : WorkerCall semver)

/-! ## The invariant -/

structure Sound (bench : Bench) : Prop where
  distinct : (bench.store.workerQueue.map (·.id)).Nodup
  below : ∀ row ∈ bench.store.workerQueue, row.id < bench.store.nextWorkerId
  issued : ∀ row ∈ bench.store.workerQueue, ∀ token, row.lockToken = some token → bench.tickets token = some row.id
  gone : ∀ ended ∈ bench.endings, ended.1 < bench.store.nextWorkerId ∧ ∀ row ∈ bench.store.workerQueue, row.id ≠ ended.1
  once : (bench.endings.map (·.1)).Nodup
  columns : ∀ row ∈ bench.store.workerQueue, row.sessionId = (Store.workerColumns row.workItem).2.1

/-- Two rows with the same columns, locks apart. -/
structure SameColumns (before after : WorkerRow) : Prop where
  id : after.id = before.id
  workItem : after.workItem = before.workItem
  sessionId : after.sessionId = before.sessionId

namespace Sound

theorem initial : Sound {} where
  distinct := List.nodup_nil
  below _ none := absurd none List.not_mem_nil
  issued _ none := absurd none List.not_mem_nil
  gone _ none := absurd none List.not_mem_nil
  once := List.nodup_nil
  columns _ none := absurd none List.not_mem_nil

/-- Rows change in place; those that are locked are locked under a token handed out for them. -/
theorem updated (sound : Sound bench) {store : Store} {tickets : Nat → Option Nat} (change : WorkerRow → WorkerRow)
    (same : ∀ row, SameColumns row (change row)) (rows : store.workerQueue = bench.store.workerQueue.map change)
    (next : store.nextWorkerId = bench.store.nextWorkerId)
    (issued : ∀ row ∈ bench.store.workerQueue, ∀ token, (change row).lockToken = some token → tickets token = some row.id) :
    Sound { bench with store, tickets } where
  distinct := by
    have kept : ((·.id) ∘ change : WorkerRow → Nat) = (·.id) := funext fun row => (same row).id
    rw [rows, List.map_map, kept]
    exact sound.distinct
  below row member := by
    obtain ⟨original, was, rfl⟩ := List.mem_map.mp (rows ▸ member)
    rw [(same original).id, next]
    exact sound.below original was
  issued row member token locked := by
    obtain ⟨original, was, rfl⟩ := List.mem_map.mp (rows ▸ member)
    rw [(same original).id]
    exact issued original was token locked
  gone ended member := by
    obtain ⟨lower, absent⟩ := sound.gone ended member
    refine ⟨next ▸ lower, fun row present => ?_⟩
    obtain ⟨original, was, rfl⟩ := List.mem_map.mp (rows ▸ present)
    rw [(same original).id]
    exact absent original was
  once := sound.once
  columns row member := by
    obtain ⟨original, was, rfl⟩ := List.mem_map.mp (rows ▸ member)
    rw [(same original).sessionId, (same original).workItem]
    exact sound.columns original was

/-- Rows are removed, noted as ended or not, and new rows are enqueued. -/
theorem replaced (sound : Sound bench) {store : Store} {ended : List (Nat × Ending)}
    (distinct : (store.workerQueue.map (·.id)).Nodup) (next : bench.store.nextWorkerId ≤ store.nextWorkerId)
    (rows : ∀ row ∈ store.workerQueue, row ∈ bench.store.workerQueue ∨
      bench.store.nextWorkerId ≤ row.id ∧ row.id < store.nextWorkerId ∧ row.lockToken = none ∧
        row.sessionId = (Store.workerColumns row.workItem).2.1)
    (gone : ∀ entry ∈ ended, (∃ row ∈ bench.store.workerQueue, row.id = entry.1) ∧
      ∀ row ∈ store.workerQueue, row.id ≠ entry.1)
    (once : (ended.map (·.1)).Nodup) : Sound { bench with store, endings := bench.endings ++ ended } where
  distinct := distinct
  below row member := by
    rcases rows row member with old | ⟨_, below, _, _⟩
    · exact lt_of_lt_of_le (sound.below row old) next
    · exact below
  issued row member token locked := by
    rcases rows row member with old | ⟨_, _, unlocked, _⟩
    · exact sound.issued row old token locked
    · rw [unlocked] at locked
      cases locked
  gone entry member := by
    rcases List.mem_append.mp member with before | now
    · obtain ⟨lower, absent⟩ := sound.gone entry before
      refine ⟨lt_of_lt_of_le lower next, fun row present => ?_⟩
      rcases rows row present with old | ⟨above, _, _, _⟩
      · exact absent row old
      · exact (Nat.ne_of_lt (lt_of_lt_of_le lower above)).symm
    · obtain ⟨⟨row, was, same⟩, absent⟩ := gone entry now
      exact ⟨same ▸ lt_of_lt_of_le (sound.below row was) next, absent⟩
  once := by
    rw [List.map_append]
    refine List.nodup_append.mpr ⟨sound.once, once, fun id before other now same => ?_⟩
    obtain ⟨earlier, noted, rfl⟩ := List.mem_map.mp before
    obtain ⟨entry, added, rfl⟩ := List.mem_map.mp now
    obtain ⟨⟨row, was, own⟩, _⟩ := gone entry added
    exact (sound.gone earlier noted).2 row was (own.trans same.symm)
  columns row member := by
    rcases rows row member with old | ⟨_, _, _, columns⟩
    · exact sound.columns row old
    · exact columns

theorem unchanged (sound : Sound bench) {store : Store} (rows : store.workerQueue = bench.store.workerQueue)
    (next : store.nextWorkerId = bench.store.nextWorkerId) : Sound { bench with store } :=
  sound.updated id (fun _ => ⟨rfl, rfl, rfl⟩) (rows.trans (List.map_id _).symm) next sound.issued

theorem row_eq (sound : Sound bench) {row other : WorkerRow} (member : row ∈ bench.store.workerQueue)
    (otherMember : other ∈ bench.store.workerQueue) (same : row.id = other.id) : row = other :=
  List.inj_on_of_nodup_map sound.distinct member otherMember same

/-- A fetch locks an available row under its new token. -/
theorem fetched (sound : Sound bench) {now lockTimeoutMs token : Nat} {session : Option SessionFetchConfig}
    {filter : TagFilter} (fresh : bench.tickets token = none) :
    Sound (bench.fetch now lockTimeoutMs token session filter) := by
  unfold Bench.fetch
  rcases found : fetchWorkItem bench.store now lockTimeoutMs token session filter with _ | ⟨⟨workItem, attempts⟩, store⟩
  · exact sound
  obtain ⟨taken, sessions, available, _, rfl⟩ := fetchWorkItem_spec found
  rw [available]
  refine sound.updated (fun row => if row.id == taken.id then lockedWorkerRow now lockTimeoutMs token row else row)
    (fun row => by split_ifs <;> exact ⟨rfl, rfl, rfl⟩) rfl rfl ?_
  intro row member other locked
  split_ifs at locked with same
  · cases locked
    rw [Function.update_self, Option.map_some, ← beq_iff_eq.mp same]
  · have issued := sound.issued row member other locked
    have differs : other ≠ token := by
      rintro rfl
      rw [fresh] at issued
      cases issued
    rw [Function.update_of_ne differs]
    exact issued

/-- The rows of a token are the one it was handed out for. -/
theorem holder (sound : Sound bench) {now token : Nat} {row : WorkerRow}
    (found : bench.store.workerQueue.find? (holdsWork now token) = some row) :
    row ∈ bench.store.workerQueue ∧ bench.tickets token = some row.id := by
  have member := List.mem_of_find?_eq_some found
  have holds := List.find?_some found
  simp only [holdsWork, Bool.and_eq_true, beq_iff_eq] at holds
  exact ⟨member, sound.issued row member token holds.1⟩

theorem acked (sound : Sound bench) (now token : Nat) (completion : Option WorkItem) :
    Sound (bench.ack now token completion).2 := by
  unfold Bench.ack
  rcases answer : ackWorkItem bench.store now token completion with error | store
  · exact sound
  obtain ⟨row, sessions, found, rfl⟩ := ackWorkItem_spec answer
  obtain ⟨member, issued⟩ := sound.holder found
  have rows : (withCompletion { bench.store.deleteWorkerRows (holdsWork now token) with sessions } now
      completion).workerQueue = bench.store.workerQueue.filter fun row => !holdsWork now token row := by
    cases completion <;> rfl
  have next : (withCompletion { bench.store.deleteWorkerRows (holdsWork now token) with sessions } now
      completion).nextWorkerId = bench.store.nextWorkerId := by
    cases completion <;> rfl
  rw [found]
  refine sound.replaced ?_ (Nat.le_of_eq next.symm) ?_ ?_ (List.nodup_singleton _)
  · rw [rows]
    exact sound.distinct.sublist (List.filter_sublist.map _)
  · intro other kept
    rw [rows] at kept
    exact .inl (List.mem_of_mem_filter kept)
  · intro entry noted
    obtain rfl := List.mem_singleton.mp noted
    refine ⟨⟨row, member, rfl⟩, fun other kept same => ?_⟩
    rw [rows] at kept
    obtain ⟨was, without⟩ := List.mem_filter.mp kept
    rw [sound.row_eq was member same, List.find?_some found] at without
    cases without

theorem renewed (sound : Sound bench) {now token extendMs : Nat} {store : Store}
    (extended : renewWorkItemLock bench.store now token extendMs = .ok store) : Sound { bench with store } := by
  obtain ⟨sessions, rfl⟩ := renewWorkItemLock_spec extended
  refine sound.updated (fun row => if holdsWork now token row then
    { row with lockedUntil := some (now + extendMs) } else row) (fun row => by split_ifs <;> exact ⟨rfl, rfl, rfl⟩) rfl rfl ?_
  intro row member other locked
  refine sound.issued row member other ?_
  split_ifs at locked <;> exact locked

theorem abandoned (sound : Sound bench) {now token : Nat} {delayMs : Option Nat} {ignoreAttempt : Bool} {store : Store}
    (released : abandonWorkItem bench.store now token delayMs ignoreAttempt = .ok store) :
    Sound { bench with store } := by
  obtain rfl := abandonWorkItem_spec released
  refine sound.updated (fun row => if row.lockToken == some token then
    releasedWorkerRow now delayMs ignoreAttempt row else row) (fun row => by split_ifs <;> exact ⟨rfl, rfl, rfl⟩) rfl rfl ?_
  intro row member other locked
  split_ifs at locked
  · cases locked
  · exact sound.issued row member other locked

end Sound

/-! ## Calls of dispatchers -/

/-- Two stores with the same worker rows and sessions. -/
structure SameWorkers (before after : Store) : Prop where
  rows : after.workerQueue = before.workerQueue
  next : after.nextWorkerId = before.nextWorkerId
  sessions : after.sessions = before.sessions

theorem SameWorkers.refl (store : Store) : SameWorkers store store := ⟨rfl, rfl, rfl⟩

theorem sameWorkers_lockedStore (store : Store) (now lockTimeoutMs token : Nat) (instanceId : String) :
    SameWorkers store (lockedStore store now lockTimeoutMs token instanceId) := by
  obtain ⟨locks, queue, same⟩ := lockedStore_eq store now lockTimeoutMs token instanceId
  rw [same]
  exact ⟨rfl, rfl, rfl⟩

theorem sameWorkers_answer {desk : PeekLock.Desk} {result : Except ProviderError Store}
    (same : ∀ store, result = .ok store → SameWorkers desk.store store) :
    SameWorkers desk.store (desk.answer result).2.store := by
  cases result with
  | ok store => exact same store rfl
  | error error => exact .refl _

/-- Only an acknowledgement of a dispatcher changes worker rows. -/
theorem items_cases (desk : PeekLock.Desk) (call : Redelivery.Call semver) :
    SameWorkers desk.store (desk.call call).2.store ∨
      ∃ now token instanceId, ∃ request : AckRequest semver,
        Acked desk.store now token instanceId request (desk.call call).2.store := by
  cases call with
  | enqueue now item delayMs =>
    refine .inl (sameWorkers_answer fun store queued => ?_)
    unfold enqueueForOrchestrator at queued
    split_ifs at queued
    cases queued
    exact ⟨rfl, rfl, rfl⟩
  | fetch config filter now lockTimeoutMs token fault =>
    left
    have outcome := fetchOrchestrationItem_outcome config filter desk.store now lockTimeoutMs token fault
    change SameWorkers desk.store (desk.fetch config filter now lockTimeoutMs token fault).2.store
    unfold PeekLock.Desk.fetch
    generalize fetchOrchestrationItem config filter now lockTimeoutMs token (Conn.open desk.store fault) = ran at outcome ⊢
    obtain ⟨result, conn⟩ := ran
    dsimp only at outcome ⊢
    generalize conn.committed = committed at outcome ⊢
    cases outcome with
    | failed error => exact .refl _
    | nothing => exact .refl _
    | locked item attemptCount candidate found => exact sameWorkers_lockedStore ..
    | dropped instanceId candidate noRow orphans =>
      obtain ⟨rows, next, sessions⟩ := sameWorkers_lockedStore desk.store now lockTimeoutMs token instanceId
      exact ⟨rows, next, sessions⟩
  | abandon now token delayMs ignoreAttempt =>
    refine .inl (sameWorkers_answer fun store released => ?_)
    obtain ⟨instanceId, _, rfl⟩ := abandonOrchestrationItem_spec released
    exact ⟨rfl, rfl, rfl⟩
  | renew now token extendMs =>
    refine .inl (sameWorkers_answer fun store renewed => ?_)
    rw [QueueSound.renewOrchestrationItemLock_spec renewed]
    exact ⟨rfl, rfl, rfl⟩
  | ack config now token request fault =>
    rcases desk.ack_cases config now token request fault with ⟨error, refused⟩ | ⟨instanceId, store, acked, committed⟩
    · rw [PeekLock.Desk.call, refused]
      exact .inl (.refl _)
    · rw [PeekLock.Desk.call, committed]
      exact .inr ⟨now, token, instanceId, request, acked⟩

namespace Sound

/-- The rows that a dispatcher removed are noted; the rows that it added are new. -/
theorem items (sound : Sound bench) (call : Redelivery.Call semver) : Sound (bench.items call).2 := by
  have outcome := items_cases { store := bench.store } call
  unfold Bench.items
  generalize ({ store := bench.store } : PeekLock.Desk).call call = answered at outcome ⊢
  obtain ⟨result, desk⟩ := answered
  dsimp only at outcome ⊢
  have gone : ∀ entry ∈ bench.removed desk.store, (∃ row ∈ bench.store.workerQueue, row.id = entry.1) ∧
      ∀ row ∈ desk.store.workerQueue, row.id ≠ entry.1 := by
    intro entry noted
    obtain ⟨row, removed, rfl⟩ := List.mem_map.mp noted
    obtain ⟨was, absent⟩ := List.mem_filter.mp removed
    refine ⟨⟨row, was, rfl⟩, fun other kept same => ?_⟩
    have present : desk.store.workerQueue.any (·.id == row.id) := List.any_eq_true.mpr ⟨other, kept, by simpa using same⟩
    rw [present] at absent
    cases absent
  have once : ((bench.removed desk.store).map (·.1)).Nodup := by
    unfold Bench.removed
    rw [List.map_map]
    exact sound.distinct.sublist (List.filter_sublist.map _)
  rcases outcome with ⟨rows, next, _⟩ | ⟨now, token, instanceId, request, acked⟩
  · refine sound.replaced ?_ (Nat.le_of_eq next.symm) ?_ gone once
    · rw [rows]
      exact sound.distinct
    · intro row member
      exact .inl (rows ▸ member)
  · refine sound.replaced ?_ ?_ ?_ gone once
    · rw [acked.workers]
      refine List.Nodup.sublist (List.filter_sublist.map _) ?_
      rw [List.map_append]
      refine List.nodup_append.mpr ⟨sound.distinct, workerRows_distinct .., fun id old other new same => ?_⟩
      obtain ⟨row, was, rfl⟩ := List.mem_map.mp old
      obtain ⟨added, fresh, rfl⟩ := List.mem_map.mp new
      have below := sound.below row was
      have above := (mem_workerRows fresh).1
      omega
    · rw [acked.nextWorkerId]
      exact Nat.le_add_right _ _
    · intro row member
      rw [acked.workers] at member
      rcases List.mem_append.mp (List.mem_of_mem_filter member) with old | new
      · exact .inl old
      · rw [acked.nextWorkerId]
        exact .inr (mem_workerRows new)

theorem answered (sound : Sound bench) {result : Except ProviderError Store}
    (changes : ∀ store, result = .ok store → Sound { bench with store }) : Sound (bench.answer result).2 := by
  cases result with
  | ok store => exact changes store rfl
  | error error => exact sound

theorem called (sound : Sound bench) {call : WorkerCall semver} (fresh : bench.isFreshFor call) :
    Sound (bench.call call).2 := by
  cases call with
  | fetch now lockTimeoutMs token session filter => exact sound.fetched (Option.isNone_iff_eq_none.mp fresh)
  | ack now token completion => exact sound.acked now token completion
  | renew now token extendMs => exact sound.answered fun _ extended => sound.renewed extended
  | abandon now token delayMs ignoreAttempt => exact sound.answered fun _ released => sound.abandoned released
  | renewSessions now ownerIds extendMs idleTimeoutMs =>
    refine sound.unchanged ?_ ?_
    · unfold renewSessionLock
      split_ifs <;> rfl
    · unfold renewSessionLock
      split_ifs <;> rfl
  | cleanupSessions now => exact sound.unchanged rfl rfl
  | items call => exact sound.items call

theorem of_reachable {guard : Bench → WorkerCall semver → Prop} (reached : (workers semver).Reachable guard bench) :
    Sound bench := by
  refine reached.invariant (fun _ start => start ▸ initial) ?_
  rintro source call _ sound _ ⟨fresh, rfl⟩
  exact sound.called fresh

/-! ## What the invariant gives -/

/-- The row that a superseded token was handed out for is locked by another token or by none. -/
theorem unlocked_of_lost (sound : Sound bench) (lost : Superseded bench token ∨ Ended bench token) :
    ∀ row ∈ bench.store.workerQueue, row.lockToken ≠ some token := by
  intro row member locked
  have issued := sound.issued row member token locked
  rcases lost with ⟨other, otherMember, handed, differs⟩ | ⟨ended, noted, handed⟩
  · rw [issued] at handed
    rw [← sound.row_eq member otherMember (Option.some.inj handed)] at differs
    exact differs locked
  · rw [issued] at handed
    exact (sound.gone ended noted).2 row member (Option.some.inj handed)

/-- No row is held under a token that is stale. -/
theorem unheld_of_stale (sound : Sound bench) {now : Nat}
    (stale : Expired bench now token ∨ Superseded bench token ∨ Ended bench token) :
    bench.store.workerQueue.find? (holdsWork now token) = none := by
  refine List.find?_eq_none.mpr fun row member held => ?_
  simp only [holdsWork, Bool.and_eq_true, beq_iff_eq] at held
  rcases stale with ⟨other, otherMember, handed, lapsed⟩ | lost
  · have issued := sound.issued row member token held.1
    rw [issued] at handed
    rw [← sound.row_eq member otherMember (Option.some.inj handed)] at lapsed
    obtain ⟨lockedUntil, found, valid⟩ := (Option.any_eq_true _ _).mp held.2
    simp only [found, Option.all_some, decide_eq_true_eq] at lapsed valid
    omega
  · exact sound.unlocked_of_lost lost row member held.1

theorem refused_of_same {error : ProviderError} {call : WorkerCall semver}
    (same : bench.call call = (.error error, bench)) : Refused bench call :=
  ⟨⟨error, congrArg (·.1) same⟩, congrArg (·.2.store) same⟩

theorem staleAck (sound : Sound bench) {now : Nat} (completion : Option WorkItem)
    (stale : Expired bench now token ∨ Superseded bench token ∨ Ended bench token) :
    Refused bench (.ack now token completion : WorkerCall semver) := by
  have unheld := sound.unheld_of_stale stale
  have answered : bench.ack now token completion = (.error (.makePermanent "ack_work_item"
      "Activity was cancelled or lock expired (worker queue row not found or lock invalid)"), bench) := by
    unfold Bench.ack ackWorkItem
    rw [unheld]
  exact refused_of_same answered

theorem refused_of_error {result : Except ProviderError Store} {call : WorkerCall semver}
    (same : bench.call call = bench.answer result) (failed : ∃ error, result = .error error) : Refused bench call := by
  obtain ⟨error, rfl⟩ := failed
  exact refused_of_same same

theorem staleRenew (sound : Sound bench) {now : Nat} (extendMs : Nat)
    (stale : Expired bench now token ∨ Superseded bench token ∨ Ended bench token) :
    Refused bench (.renew now token extendMs : WorkerCall semver) := by
  refine refused_of_error rfl ?_
  unfold renewWorkItemLock
  rw [sound.unheld_of_stale stale]
  exact ⟨_, rfl⟩

theorem lostAbandon (sound : Sound bench) (now : Nat) (delayMs : Option Nat) (ignoreAttempt : Bool)
    (lost : Superseded bench token ∨ Ended bench token) :
    Refused bench (.abandon now token delayMs ignoreAttempt : WorkerCall semver) := by
  refine refused_of_error rfl ?_
  unfold abandonWorkItem
  refine ⟨_, if_neg fun held => ?_⟩
  obtain ⟨row, member, locked⟩ := List.any_eq_true.mp held
  exact sound.unlocked_of_lost lost row member (beq_iff_eq.mp locked)

/-- An acknowledgement that succeeds ends the row of its token and enqueues its completion, if there is one. -/
theorem completes (sound : Sound bench) {now : Nat} {completion : Option WorkItem}
    (succeeded : (bench.call (.ack now token completion : WorkerCall semver)).1 = .ok ()) :
    ∃ id, bench.tickets token = some id ∧
      (bench.call (.ack now token completion : WorkerCall semver)).2.endings =
        bench.endings ++ [(id, endingOf completion)] ∧
      (bench.call (.ack now token completion : WorkerCall semver)).2.store.orchestratorQueue.map (·.workItem) =
        bench.store.orchestratorQueue.map (·.workItem) ++ completion.toList := by
  change (bench.ack now token completion).1 = _ at succeeded
  change ∃ id, _ ∧ (bench.ack now token completion).2.endings = _ ∧
    (bench.ack now token completion).2.store.orchestratorQueue.map _ = _
  unfold Bench.ack at succeeded ⊢
  rcases answer : ackWorkItem bench.store now token completion with error | store
  · rw [answer] at succeeded
    cases succeeded
  obtain ⟨row, sessions, found, rfl⟩ := ackWorkItem_spec answer
  refine ⟨row.id, (sound.holder found).2, ?_, ?_⟩
  · rw [found]
    rfl
  · cases completion with
    | none => exact (List.append_nil _).symm
    | some completion => exact List.map_append

end Sound

/-- Two stores with the same worker rows, locks apart, and the same messages. -/
structure SameRows (before after : Store) : Prop where
  ids : after.workerQueue.map (·.id) = before.workerQueue.map (·.id)
  messages : after.orchestratorQueue = before.orchestratorQueue

namespace SameRows

variable {before after : Store}

theorem refl (store : Store) : SameRows store store := ⟨rfl, rfl⟩

theorem updateWorkerRows (store : Store) (matching : WorkerRow → Bool) {change : WorkerRow → WorkerRow}
    (same : ∀ row, (change row).id = row.id) : SameRows store (store.updateWorkerRows matching change) := by
  refine ⟨?_, rfl⟩
  rw [Store.updateWorkerRows, List.map_map]
  refine List.map_congr_left fun row _ => ?_
  rw [Function.comp_apply]
  split_ifs
  · exact same row
  · rfl

theorem withSessions (same : SameRows before after) (sessions : Lib.KeyedTable.Table String SessionRow) :
    SameRows before { after with sessions } := ⟨same.ids, same.messages⟩

theorem fetch (bench : Bench) (now lockTimeoutMs token : Nat) (session : Option SessionFetchConfig)
    (filter : TagFilter) : SameRows bench.store (bench.fetch now lockTimeoutMs token session filter).store := by
  unfold Bench.fetch
  rcases found : fetchWorkItem bench.store now lockTimeoutMs token session filter with _ | ⟨⟨workItem, attempts⟩, store⟩
  · exact refl _
  obtain ⟨taken, sessions, _, _, rfl⟩ := fetchWorkItem_spec found
  refine withSessions (updateWorkerRows bench.store _ ?_) sessions
  exact fun _ => rfl

theorem answer {bench : Bench} {result : Except ProviderError Store}
    (same : ∀ store, result = .ok store → SameRows bench.store store) :
    SameRows bench.store (bench.answer result).2.store := by
  cases result with
  | ok store => exact same store rfl
  | error error => exact refl _

/-- Only acknowledgements and dispatchers add or remove rows. -/
theorem call (bench : Bench) {call : WorkerCall semver} (noAck : ∀ now token completion, call ≠ .ack now token completion)
    (noItems : ∀ itemCall, call ≠ .items itemCall) : SameRows bench.store (bench.call call).2.store := by
  cases call with
  | fetch now lockTimeoutMs token session filter => exact fetch bench now lockTimeoutMs token session filter
  | ack now token completion => exact absurd rfl (noAck now token completion)
  | renew now token extendMs =>
    refine answer fun store extended => ?_
    obtain ⟨sessions, rfl⟩ := renewWorkItemLock_spec extended
    refine withSessions (updateWorkerRows bench.store _ ?_) sessions
    exact fun _ => rfl
  | abandon now token delayMs ignoreAttempt =>
    refine answer fun store released => ?_
    rw [abandonWorkItem_spec released]
    exact updateWorkerRows bench.store _ fun _ => rfl
  | renewSessions now ownerIds extendMs idleTimeoutMs =>
    change SameRows bench.store (renewSessionLock bench.store now ownerIds extendMs idleTimeoutMs).2
    unfold renewSessionLock
    split_ifs
    · exact refl _
    · exact (refl bench.store).withSessions _
  | cleanupSessions now => exact (refl bench.store).withSessions _
  | items itemCall => exact absurd rfl (noItems itemCall)

end SameRows

namespace Sound

/-- A row that a call removes is noted. -/
theorem noted (sound : Sound bench) (call : WorkerCall semver) {row : WorkerRow} (member : row ∈ bench.store.workerQueue)
    (gone : ∀ kept ∈ (bench.call call).2.store.workerQueue, kept.id ≠ row.id) :
    ∃ ended ∈ (bench.call call).2.endings, ended.1 = row.id := by
  have stays : ∀ {store : Store}, SameRows bench.store store → ∃ kept ∈ store.workerQueue, kept.id = row.id := by
    intro store same
    have kept : row.id ∈ store.workerQueue.map (·.id) := same.ids ▸ List.mem_map_of_mem member
    exact List.mem_map.mp kept
  by_cases acks : ∃ now token completion, call = .ack now token completion
  · obtain ⟨now, token, completion, rfl⟩ := acks
    change ∀ kept ∈ (bench.ack now token completion).2.store.workerQueue, kept.id ≠ row.id at gone
    change ∃ ended ∈ (bench.ack now token completion).2.endings, ended.1 = row.id
    unfold Bench.ack at gone ⊢
    rcases answer : ackWorkItem bench.store now token completion with error | store
    · rw [answer] at gone
      exact absurd rfl (gone row member)
    · rw [answer] at gone
      obtain ⟨held, sessions, found, rfl⟩ := ackWorkItem_spec answer
      obtain ⟨heldMember, issued⟩ := sound.holder found
      rw [found]
      refine ⟨_, List.mem_append_right _ (List.mem_singleton.mpr rfl), ?_⟩
      -- The row was deleted, so it was held under the token, as was the row that was found.
      by_contra differs
      have kept : holdsWork now token row = false := by
        rcases holds : holdsWork now token row with _ | _
        · rfl
        · simp only [holdsWork, Bool.and_eq_true, beq_iff_eq] at holds
          rw [sound.issued row member token holds.1] at issued
          exact absurd (Option.some.inj issued).symm differs
      refine gone row ?_ rfl
      have rows : row ∈ (bench.store.deleteWorkerRows (holdsWork now token)).workerQueue :=
        List.mem_filter.mpr ⟨member, by rw [kept]; rfl⟩
      cases completion <;> exact rows
  · by_cases handled : ∃ itemCall, call = .items itemCall
    · obtain ⟨itemCall, rfl⟩ := handled
      refine ⟨(row.id, .cancelled), List.mem_append_right _ (List.mem_map.mpr ⟨row, ?_, rfl⟩), rfl⟩
      refine List.mem_filter.mpr ⟨member, ?_⟩
      rw [Bool.not_eq_true', List.any_eq_false]
      intro kept present
      simpa using gone kept present
    · obtain ⟨kept, present, same⟩ := stays (@SameRows.call semver bench call
        (fun now token completion same => acks ⟨now, token, completion, same⟩) fun itemCall same => handled ⟨itemCall, same⟩)
      exact absurd same (gone kept present)

end Sound

/-- Locks of worker items, for every interleaving of calls. -/
theorem workerSafe_of_reachable (reached : (workers semver).Reachable (fun _ _ => True) bench) : Safe semver bench where
  once := (Sound.of_reachable reached).once
  completes _ _ _ succeeded := (Sound.of_reachable reached).completes succeeded
  noted call _ member gone := (Sound.of_reachable reached).noted call member gone
  silent _ noAck noItems := (SameRows.call bench noAck noItems).messages
  staleAck _ _ completion stale := (Sound.of_reachable reached).staleAck completion stale
  staleRenew _ _ extendMs stale := (Sound.of_reachable reached).staleRenew extendMs stale
  lostAbandon now _ delayMs ignoreAttempt lost := (Sound.of_reachable reached).lostAbandon now delayMs ignoreAttempt lost

/-! Two workers fetch the same activity, the second after the lock of the first has run out. -/

def Bench.step (bench : Bench) (call : WorkerCall semver) : Option Bench :=
  if bench.isFreshFor call then some (bench.call call).2 else none

def Bench.run (bench : Bench) (calls : List (WorkerCall semver)) : Option Bench :=
  Lib.TransitionSystem.runTested Bench.step (fun _ _ => true) bench calls

theorem Bench.reachable_of_run {after : Bench} {calls : List (WorkerCall semver)} (ran : Bench.run {} calls = some after) :
    (workers semver).Reachable (fun _ _ => True) after := by
  refine .of_runTested (fun source call target taken => ?_) (fun _ _ _ => trivial) (.initial rfl) ran
  unfold Bench.step at taken
  split_ifs at taken with fresh
  exact ⟨fresh, (Option.some.inj taken).symm⟩

/-- A turn that schedules an activity with a session. -/
def scheduling : List (WorkerCall textSemver) :=
  [.items (.enqueue 0 (.startOrchestration "i" "orch" "" none none none 1) none), .items (.fetch {} none 0 10 1 none),
    .items (.ack {} 0 1
      { executionId := 1, workerItems := [.activityExecute "i" 1 2 "act" "" (some "s") none]
        metadata := { orchestrationName := some "orch", orchestrationVersion := some "1.0.0" } } none)]

def fetchAs (owner : String) (now token : Nat) : WorkerCall textSemver :=
  .fetch now 10 token (some ⟨owner, 10⟩) .any

theorem workerSafe_of_reachable_contested : ∃ bench,
    Bench.run {} (scheduling ++ [fetchAs "a" 0 2, fetchAs "b" 20 3]) = some bench ∧ Superseded bench 2 ∧ Safe textSemver bench := by
  have observed : (Bench.run {} (scheduling ++ [fetchAs "a" 0 2, fetchAs "b" 20 3])).any (fun bench =>
      bench.store.workerQueue.any fun row => bench.tickets 2 == some row.id && row.lockToken == some 3) = true := by
    decide +kernel
  obtain ⟨bench, ran, lost⟩ := (Option.any_eq_true _ _).mp observed
  obtain ⟨row, member, facts⟩ := List.any_eq_true.mp lost
  simp only [Bool.and_eq_true, beq_iff_eq] at facts
  refine ⟨bench, ran, ⟨row, member, facts.1, ?_⟩, workerSafe_of_reachable (Bench.reachable_of_run ran)⟩
  rw [facts.2]
  decide

end Duroxide.WorkerLocks
