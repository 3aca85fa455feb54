import Duroxide.Proofs.PeekLock

/-! # Items that are given back

An abandon should undo its fetch for the messages that the fetch returned, and leave the others of the instance
alone. What it does is by instance: it counts every message of the instance down, delays whatever is visible, and asks
for the token of a lock only, not for its time. The two agree exactly for a lock in time whose instance has no other
message that was fetched before, or is visible by now.
-/

namespace Duroxide.PeekLock

open Provider Redelivery

variable {semver : Semver}

/-- A message as its fetch left it: marked, counted, and otherwise as before. -/
def fetchedRow (token : Nat) (row : OrchestratorRow) : OrchestratorRow :=
  { row with lockToken := some token, attemptCount := row.attemptCount + 1 }

/-- A message as the contract of an abandon leaves it: only the batch of the token changes. -/
def returnedRow (now token : Nat) (delayMs : Option Nat) (ignoreAttempt : Bool) (row : OrchestratorRow) : OrchestratorRow :=
  if row.lockToken = some token then
    { row with
      attemptCount := if ignoreAttempt then row.attemptCount - 1 else row.attemptCount
      visibleAt := (delayMs.map (delayed now)).getD row.visibleAt }
  else row

/-- The contract of an abandon: under a current token the lock goes and the batch of the fetch is given back, under
any other token nothing happens. -/
structure GivesBack (desk : Desk) (now token : Nat) (delayMs : Option Nat) (ignoreAttempt : Bool) : Prop where
  current : ∀ instanceId, desk.store.holdsLock now instanceId token →
    abandonOrchestrationItem desk.store now token delayMs ignoreAttempt =
      .ok { desk.store.deleteLocks (fun _ lock => lock.lockToken == token) with
        orchestratorQueue := desk.store.orchestratorQueue.map (returnedRow now token delayMs ignoreAttempt) } ∧
    ∃ ticket, desk.tickets token = some ticket ∧ ticket.item.instanceId = instanceId ∧
      ∀ row ∈ desk.store.batch token, ∃ original ∈ ticket.base.orchestratorQueue, row = fetchedRow token original
  stale : (∀ instanceId, desk.store.holdsLock now instanceId token = false) →
    ∃ error, abandonOrchestrationItem desk.store now token delayMs ignoreAttempt = .error error

/-- Nothing else of the instance is concerned: the lock is in time, the messages outside of the batch have no attempt
to give back and are not due, and those of the batch still are. -/
structure Undisturbed (store : Store) (now token : Nat) (delayMs : Option Nat) (ignoreAttempt : Bool)
    (instanceId : String) : Prop where
  inTime : store.holdsLock now instanceId token
  uncounted : ignoreAttempt → ∀ row ∈ store.orchestratorQueue, row.instanceId = instanceId → row.lockToken ≠ some token →
    row.attemptCount = 0
  undue : ∀ delay ∈ delayMs, ∀ row ∈ store.orchestratorQueue, row.instanceId = instanceId → row.lockToken ≠ some token →
    row.visibleAt ≤ now → row.visibleAt = delayed now delay
  due : ∀ delay ∈ delayMs, ∀ row ∈ store.batch token, now < row.visibleAt → row.visibleAt = delayed now delay

/-! ## What a batch holds -/

/-- The batch of a lock is what its fetch marked. -/
def AsFetched (desk : Desk) : Prop :=
  ∀ instanceId lock, desk.store.instanceLocks.lookup instanceId = some lock →
    ∀ ticket, desk.tickets lock.lockToken = some ticket → ∀ row ∈ desk.store.orchestratorQueue,
      row.lockToken = some lock.lockToken → ∃ original ∈ ticket.base.orchestratorQueue, row = fetchedRow lock.lockToken original

namespace AsFetched

variable {desk next : Desk}

theorem initial : AsFetched {} := by
  intro instanceId lock found
  simp at found

/-- A change of the store that keeps the marked rows of the locks that it keeps. -/
theorem withStore (fetched : AsFetched desk) {store : Store} (locks : QueueSound.LocksKept desk.store store)
    (rows : ∀ instanceId lock, store.instanceLocks.lookup instanceId = some lock → ∀ row ∈ store.orchestratorQueue,
      row.lockToken = some lock.lockToken → row ∈ desk.store.orchestratorQueue) : AsFetched (desk.withStore store) := by
  intro instanceId lock found ticket issued row member marked
  obtain ⟨original, was, same⟩ := locks instanceId lock found
  have kept := fetched instanceId original was
  rw [same] at kept
  exact kept ticket issued row (rows instanceId lock found row member marked) marked

/-- A row that carries the token of an old lock was not marked by a fetch. -/
theorem row_of_marked {store : Store} {now lockTimeoutMs token other : Nat} {instanceId : String}
    (unlocked : store.isUnlocked now instanceId) {row : OrchestratorRow}
    (member : row ∈ (lockedStore store now lockTimeoutMs token instanceId).orchestratorQueue)
    (marked : row.lockToken = some other) (differs : other ≠ token) : row ∈ store.orchestratorQueue := by
  rw [lockedStore_of_unlocked unlocked] at member
  obtain ⟨original, old, rfl⟩ := List.mem_map.mp member
  unfold markedRow at marked ⊢
  split_ifs at marked ⊢
  · exact absurd (Option.some.inj marked).symm differs
  · exact old

theorem issue (fetched : AsFetched desk) (sound : Sound desk) {now lockTimeoutMs token : Nat} {item : OrchestrationItem}
    (fresh : desk.tickets token = none) (unlocked : desk.store.isUnlocked now item.instanceId) :
    AsFetched (desk.issue token item (lockedStore desk.store now lockTimeoutMs token item.instanceId)) := by
  have unused := sound.unused fresh
  intro instanceId lock found ticket issued row member marked
  rcases Sound.lock_of_lockedStore unlocked found with ⟨rfl, own⟩ | ⟨_, was⟩
  · rw [own] at issued marked ⊢
    rw [Desk.issue_self] at issued
    obtain rfl := Option.some.inj issued
    change row ∈ (lockedStore desk.store now lockTimeoutMs token item.instanceId).orchestratorQueue at member
    rw [lockedStore_of_unlocked unlocked] at member
    obtain ⟨original, old, rfl⟩ := List.mem_map.mp member
    refine ⟨original, old, ?_⟩
    unfold markedRow at marked ⊢
    split_ifs at marked ⊢
    · rfl
    · exact absurd marked (unused.rows original old)
  · have differs := unused.locks instanceId lock was
    rw [Desk.issue_of_ne _ _ _ differs] at issued
    exact fetched instanceId lock was ticket issued row (row_of_marked unlocked member marked differs) marked

theorem dropped (fetched : AsFetched desk) (sound : Sound desk) {now lockTimeoutMs token : Nat} {instanceId : String}
    (fresh : desk.tickets token = none) (unlocked : desk.store.isUnlocked now instanceId) :
    AsFetched (desk.withStore (((lockedStore desk.store now lockTimeoutMs token instanceId).deleteBatch token).deleteLocks
      fun _ lock => lock.lockToken == token)) := by
  have unused := sound.unused fresh
  have old : ∀ locked lock, (((lockedStore desk.store now lockTimeoutMs token instanceId).deleteBatch token).deleteLocks
      fun _ lock => lock.lockToken == token).instanceLocks.lookup locked = some lock →
        desk.store.instanceLocks.lookup locked = some lock := by
    intro locked lock found
    simp only [Store.deleteLocks, Lib.KeyedTable.lookup_deleteWhere, Option.filter_eq_some_iff] at found
    rcases Sound.lock_of_lockedStore unlocked found.1 with ⟨_, own⟩ | ⟨_, was⟩
    · simp [own] at found
    · exact was
  apply fetched.withStore
  · exact fun locked lock found => ⟨lock, old locked lock found, rfl⟩
  · intro locked lock found row member marked
    obtain ⟨kept, _⟩ := List.mem_filter.mp member
    exact row_of_marked unlocked kept marked (unused.locks locked lock (old locked lock found))

theorem released (fetched : AsFetched desk) (sound : Sound desk) {now token : Nat} {delayMs : Option Nat}
    {ignoreAttempt : Bool} {store : Store}
    (given : abandonOrchestrationItem desk.store now token delayMs ignoreAttempt = .ok store) :
    AsFetched (desk.withStore store) := by
  obtain ⟨instanceId, locked, rfl⟩ := abandonOrchestrationItem_spec given
  obtain ⟨held, current, tokens⟩ := lock_of_lockedInstance locked
  refine fetched.withStore (QueueSound.locksKept_deleteLocks desk.store _) ?_
  intro other lock found row member marked
  simp only [Store.deleteLocks, Lib.KeyedTable.lookup_deleteWhere, Option.filter_eq_some_iff] at found
  obtain ⟨original, old, rfl⟩ := List.mem_map.mp member
  rw [(abandonedRow_identity now instanceId delayMs ignoreAttempt original).2.2] at marked
  have target := sound.queue.owned original old other lock found.1 marked
  have foreign : original.instanceId ≠ instanceId := by
    rintro rfl
    rw [target, current] at found
    obtain rfl := Option.some.inj found.1
    simp [tokens] at found
  have kept : abandonedRow now instanceId delayMs ignoreAttempt original = original := by
    unfold abandonedRow
    rw [if_neg (by simpa using foreign)]
  rw [kept]
  exact old

theorem committed (fetched : AsFetched desk) (sound : Sound desk) {now token : Nat} {instanceId : String}
    {request : AckRequest semver} {store : Store} (acked : Acked desk.store now token instanceId request store) :
    AsFetched (desk.record token store) := by
  obtain ⟨held, current, tokens, _⟩ := acked.held
  change AsFetched (desk.withStore store)
  have old : ∀ locked lock, store.instanceLocks.lookup locked = some lock →
      desk.store.instanceLocks.lookup locked = some lock := by
    intro locked lock found
    have differs : locked ≠ instanceId := by
      rintro rfl
      rw [acked.released] at found
      cases found
    have foreign : ∀ other, desk.store.instanceLocks.lookup locked = some other → other.lockToken ≠ token :=
      fun other was same => differs (sound.queue.tokens _ _ _ _ was current (same.trans tokens.symm))
    exact (acked.otherLocks locked differs foreign).symm.trans found
  apply fetched.withStore
  · exact fun locked lock found => ⟨lock, old locked lock found, rfl⟩
  · intro locked lock found row member marked
    rw [acked.queue] at member
    rcases List.mem_append.mp member with kept | new
    · exact List.mem_of_mem_filter kept
    · rw [(QueueSound.mem_enqueuedRows new).2.2.1] at marked
      cases marked

theorem moves (fetched : AsFetched desk) (sound : Sound desk) (moves : Moves semver desk next) : AsFetched next := by
  cases moves with
  | same => exact fetched
  | elsewhere store changed =>
    obtain ⟨visible, items, rows, _⟩ := changed.queue
    apply fetched.withStore
    · intro instanceId lock found
      rw [changed.locks] at found
      exact ⟨lock, found, rfl⟩
    · intro instanceId lock _ row member marked
      rw [rows] at member
      rcases List.mem_append.mp member with old | new
      · exact old
      · rw [(QueueSound.mem_enqueuedRows new).2.2.1] at marked
        cases marked
  | issued now lockTimeoutMs token attemptCount item fresh unlocked _ => exact fetched.issue sound fresh unlocked
  | dropped now lockTimeoutMs token instanceId fresh unlocked => exact fetched.dropped sound fresh unlocked
  | released now token delayMs ignoreAttempt store given => exact fetched.released sound given
  | extended now token extendMs store renewed =>
    obtain rfl := QueueSound.renewOrchestrationItemLock_spec renewed
    refine fetched.withStore (QueueSound.locksKept_updateLocks desk.store _ _) ?_
    exact fun _ _ _ _ member _ => member
  | committed now token instanceId request store acked => exact fetched.committed sound acked

theorem of_reachable (reached : (protocol semver).Reachable (fun _ _ => True) desk) : AsFetched desk := by
  induction reached with
  | initial start =>
    rw [start]
    exact .initial
  | step reached _ taken ih =>
    obtain ⟨fresh, rfl⟩ := taken
    exact ih.moves (Sound.of_reachable reached) (Desk.call_moves fresh)

end AsFetched

/-! ## When the contract is met -/

/-- An abandon that finds a lock gives back by instance. -/
theorem abandon_of_lockedInstance {store : Store} {token : Nat} {instanceId : String}
    (locked : store.lockedInstance token = some instanceId) (now : Nat) (delayMs : Option Nat) (ignoreAttempt : Bool) :
    abandonOrchestrationItem store now token delayMs ignoreAttempt =
      .ok { store.deleteLocks (fun _ lock => lock.lockToken == token) with
        orchestratorQueue := store.orchestratorQueue.map (abandonedRow now instanceId delayMs ignoreAttempt) } := by
  obtain ⟨after, given⟩ : ∃ after, abandonOrchestrationItem store now token delayMs ignoreAttempt = .ok after := by
    unfold abandonOrchestrationItem
    rw [locked]
    cases delayMs <;> exact ⟨_, rfl⟩
  obtain ⟨other, same, rfl⟩ := abandonOrchestrationItem_spec given
  rw [locked] at same
  obtain rfl := Option.some.inj same
  exact given

section Rows

variable {now token : Nat} {instanceId : String} {delayMs : Option Nat} {ignoreAttempt : Bool} {row : OrchestratorRow}

/-- A message of the batch is given back as it should be, if it is delayed whenever a delay is asked for. -/
theorem abandonedRow_of_marked (mine : row.instanceId = instanceId) (marked : row.lockToken = some token) :
    abandonedRow now instanceId delayMs ignoreAttempt row = returnedRow now token delayMs ignoreAttempt row ↔
      ∀ delay ∈ delayMs, now < row.visibleAt → row.visibleAt = delayed now delay := by
  unfold abandonedRow returnedRow
  rw [if_pos (beq_iff_eq.mpr mine), if_pos marked]
  simp only [OrchestratorRow.mk.injEq, true_and, and_true]
  cases delayMs with
  | none => simp
  | some delay =>
    simp only [Option.map_some, Option.getD_some, Option.mem_def, Option.some.injEq, forall_eq']
    split_ifs with visible
    · exact iff_of_true rfl fun later => absurd visible (not_le.mpr later)
    · exact ⟨fun same _ => same, fun same => same (not_le.mp visible)⟩

/-- Another message of the instance stays as it is, if it has no attempt to give back and is not due. -/
theorem abandonedRow_of_unmarked (mine : row.instanceId = instanceId) (unmarked : row.lockToken ≠ some token) :
    abandonedRow now instanceId delayMs ignoreAttempt row = returnedRow now token delayMs ignoreAttempt row ↔
      (ignoreAttempt → row.attemptCount = 0) ∧
        ∀ delay ∈ delayMs, row.visibleAt ≤ now → row.visibleAt = delayed now delay := by
  unfold abandonedRow returnedRow
  rw [if_pos (beq_iff_eq.mpr mine), if_neg unmarked]
  obtain ⟨id, owner, workItem, visibleAt, lockToken, attemptCount, undecodable⟩ := row
  simp only [OrchestratorRow.mk.injEq, true_and, and_true]
  rw [and_comm]
  apply and_congr
  · cases ignoreAttempt with
    | false => simp
    | true =>
      simp only [if_true, true_imp_iff]
      omega
  · cases delayMs with
    | none => simp
    | some delay =>
      simp only [Option.mem_def, Option.some.injEq, forall_eq']
      split_ifs with visible
      · exact ⟨fun same _ => same.symm, fun same => (same visible).symm⟩
      · exact iff_of_true rfl fun due => absurd due visible

theorem abandonedRow_of_foreign (foreign : row.instanceId ≠ instanceId) (unmarked : row.lockToken ≠ some token) :
    abandonedRow now instanceId delayMs ignoreAttempt row = returnedRow now token delayMs ignoreAttempt row := by
  unfold abandonedRow returnedRow
  rw [if_neg (by simpa using foreign), if_neg unmarked]

end Rows

theorem lockedInstance_of_holdsLock {store : Store} (sound : QueueSound store) {now : Int} {instanceId : String} {token : Nat}
    (held : store.holdsLock now instanceId token) : store.lockedInstance token = some instanceId := by
  obtain ⟨lock, found, own⟩ := lock_of_holdsLock held
  rcases locked : store.lockedInstance token with _ | other
  · have missing := List.find?_eq_none.mp (Option.map_eq_none_iff.mp locked) ⟨instanceId, lock⟩
      (Lib.KeyedTable.mem_entries_iff.mpr found)
    simp [own] at missing
  · obtain ⟨otherLock, otherFound, otherOwn⟩ := lock_of_lockedInstance locked
    rw [sound.tokens _ _ _ _ otherFound found (otherOwn.trans own.symm)]

/-- Giving back by instance is giving back the batch exactly if nothing else of the instance is concerned. -/
theorem undisturbed_iff {store : Store} (sound : QueueSound store) {now token : Nat} {instanceId : String}
    {delayMs : Option Nat} {ignoreAttempt : Bool} (locked : store.holdsLock now instanceId token) :
    store.orchestratorQueue.map (abandonedRow now instanceId delayMs ignoreAttempt) =
        store.orchestratorQueue.map (returnedRow now token delayMs ignoreAttempt) ↔
      Undisturbed store now token delayMs ignoreAttempt instanceId := by
  have owned : ∀ row ∈ store.orchestratorQueue, row.lockToken = some token → row.instanceId = instanceId := by
    intro row member marked
    obtain ⟨lock, found, own⟩ := lock_of_holdsLock locked
    rw [← own] at marked
    exact (sound.owned row member instanceId lock found marked).symm
  rw [List.map_inj_left]
  constructor
  · intro same
    refine ⟨locked, ?_, ?_, ?_⟩
    · intro ignores row member mine unmarked
      exact ((abandonedRow_of_unmarked mine unmarked).mp (same row member)).1 ignores
    · intro delay given row member mine unmarked
      exact ((abandonedRow_of_unmarked mine unmarked).mp (same row member)).2 delay given
    · intro delay given row member
      obtain ⟨queued, marked⟩ := List.mem_filter.mp member
      have marked := eq_of_beq marked
      exact (abandonedRow_of_marked (owned row queued marked) marked).mp (same row queued) delay given
  · intro undisturbed row member
    by_cases marked : row.lockToken = some token
    · apply (abandonedRow_of_marked (owned row member marked) marked).mpr
      intro delay given
      exact undisturbed.due delay given row (List.mem_filter.mpr ⟨member, beq_iff_eq.mpr marked⟩)
    · by_cases mine : row.instanceId = instanceId
      · apply (abandonedRow_of_unmarked mine marked).mpr
        exact ⟨fun ignores => undisturbed.uncounted ignores row member mine marked,
          fun delay given => undisturbed.undue delay given row member mine marked⟩
      · exact abandonedRow_of_foreign mine marked

/-- An abandon meets its contract exactly if its token is unknown, or nothing else of the instance is concerned. -/
theorem givesBack_iff {desk : Desk} (reached : (protocol semver).Reachable (fun _ _ => True) desk) (now token : Nat)
    (delayMs : Option Nat) (ignoreAttempt : Bool) :
    GivesBack desk now token delayMs ignoreAttempt ↔ ∀ instanceId, desk.store.lockedInstance token = some instanceId →
      Undisturbed desk.store now token delayMs ignoreAttempt instanceId := by
  have sound := Sound.of_reachable reached
  constructor
  · intro contract instanceId locked
    have given := abandon_of_lockedInstance locked now delayMs ignoreAttempt
    have inTime : desk.store.holdsLock now instanceId token := by
      by_contra lapsed
      obtain ⟨error, refused⟩ := contract.stale fun other => by
        apply Bool.eq_false_of_not_eq_true
        intro held
        have same := lockedInstance_of_holdsLock sound.queue held
        rw [locked] at same
        obtain rfl := Option.some.inj same
        exact lapsed held
      rw [given] at refused
      cases refused
    obtain ⟨returned, _⟩ := contract.current instanceId inTime
    rw [given] at returned
    have same := congrArg Store.orchestratorQueue (Except.ok.inj returned)
    exact (undisturbed_iff sound.queue inTime).mp same
  · intro undisturbed
    constructor
    · intro instanceId held
      have locked := lockedInstance_of_holdsLock sound.queue held
      rw [abandon_of_lockedInstance locked, (undisturbed_iff sound.queue held).mpr (undisturbed instanceId locked)]
      obtain ⟨lock, found, rfl⟩ := lock_of_holdsLock held
      obtain ⟨ticket, holds⟩ := sound.holders instanceId lock found
      refine ⟨rfl, ticket, holds.issued, holds.target, fun row member => ?_⟩
      obtain ⟨queued, marked⟩ := List.mem_filter.mp member
      exact AsFetched.of_reachable reached instanceId lock found ticket holds.issued row queued (eq_of_beq marked)
    · intro unheld
      have unknown : desk.store.lockedInstance token = none := by
        rcases locked : desk.store.lockedInstance token with _ | instanceId
        · rfl
        · have held := (undisturbed instanceId locked).inTime
          rw [unheld instanceId] at held
          cases held
      unfold abandonOrchestrationItem
      rw [unknown]
      exact ⟨_, rfl⟩

/-! A batch is given back with a delay: alone, and after another message has arrived. -/

def fetchedAlone : List (Call textSemver) :=
  [.enqueue 0 (.startOrchestration "i" "orch" "" none none none 1) none, .fetch {} none 0 1000 1 none]

def fetchedThenMessage : List (Call textSemver) := fetchedAlone ++ [.enqueue 5 (.externalRaised "i" "go" "") none]

/-- Alone the batch is given back as the contract asks. -/
theorem givesBack_iff_alone : ∃ desk, Desk.run {} fetchedAlone = some desk ∧ desk.store.holdsLock 10 "i" 1 ∧
    GivesBack desk 10 1 (some 50) true := by
  have observed : (Desk.run {} fetchedAlone).any (fun desk => desk.store.lockedInstance 1 == some "i" &&
      desk.store.holdsLock 10 "i" 1 && desk.store.orchestratorQueue.all fun row =>
        row.lockToken == some 1 && row.visibleAt ≤ 10) = true := by
    decide +kernel
  obtain ⟨desk, ran, facts⟩ := (Option.any_eq_true _ _).mp observed
  simp only [Bool.and_eq_true, beq_iff_eq, List.all_eq_true, decide_eq_true_eq] at facts
  obtain ⟨⟨locked, held⟩, batch⟩ := facts
  refine ⟨desk, ran, held, (givesBack_iff (Desk.reachable_of_run (.initial rfl) ran) 10 1 (some 50) true).mpr ?_⟩
  intro instanceId found
  rw [locked] at found
  obtain rfl := Option.some.inj found
  refine ⟨held, ?_, ?_, ?_⟩
  · exact fun _ row member _ unmarked => absurd (batch row member).1 unmarked
  · exact fun _ _ row member _ unmarked => absurd (batch row member).1 unmarked
  · intro _ _ row member later
    exact absurd (batch row (List.mem_of_mem_filter member)).2 (not_le.mpr later)

/-- A message that arrived after the fetch is delayed with the batch. -/
theorem laterMessage_notGivesBack : ∃ desk, Desk.run {} fetchedThenMessage = some desk ∧
    ¬ GivesBack desk 10 1 (some 50) false := by
  have observed : (Desk.run {} fetchedThenMessage).any (fun desk => desk.store.holdsLock 10 "i" 1 &&
      (abandonOrchestrationItem desk.store 10 1 (some 50) false).toOption.map (·.orchestratorQueue) !=
        some (desk.store.orchestratorQueue.map (returnedRow 10 1 (some 50) false))) = true := by
    decide +kernel
  obtain ⟨desk, ran, facts⟩ := (Option.any_eq_true _ _).mp observed
  simp only [Bool.and_eq_true, bne_iff_ne] at facts
  obtain ⟨held, differs⟩ := facts
  refine ⟨desk, ran, fun contract => differs ?_⟩
  rw [(contract.current "i" held).1]
  rfl

end Duroxide.PeekLock
