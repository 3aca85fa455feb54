import Duroxide.Lib.Run
import Duroxide.Proofs.QueueTables
import Mathlib.Data.List.Induction

/-! # Redelivery and poison messages

A ledger counts how often each message was really fetched: every fetch of a batch adds one for its
messages, and an abandon that ignores the attempt takes one back. Whatever calls are made by whatever
dispatchers, in whatever order, a stored attempt count never exceeds the real one.
-/

namespace Duroxide.Redelivery

open Provider Lib.Database Dispatcher

variable {semver : Semver}

/-! ## Counting fetches -/

/-- The tables, and how often each message was fetched without being undone. -/
structure Ledger where
  store : Store := {}
  fetches : Nat → Nat := fun _ => 0

/-- The provider calls on the orchestrator queue. -/
inductive Call (semver : Semver) where
  | enqueue (now : Nat) (item : WorkItem) (delayMs : Option Nat)
  | fetch (config : ProviderConfig) (filter : Option (List (SemverRange semver)))
      (now lockTimeoutMs token : Nat) (fault : Option (Nat × SqlxError))
  | abandon (now token : Nat) (delayMs : Option Nat) (ignoreAttempt : Bool)
  | renew (now token extendMs : Nat)
  | ack (config : ProviderConfig) (now token : Nat) (request : AckRequest semver) (fault : Option (Nat × SqlxError))

/-- Whether the batch of a token holds a message. -/
def inBatch (store : Store) (token id : Nat) : Bool := (store.batch token).any (·.id == id)

/-- A token that a fetch may generate. -/
def isUnused (store : Store) (token : Nat) : Bool :=
  store.orchestratorQueue.all (·.lockToken != some token) &&
    store.instanceLocks.entries.all fun entry => entry.2.lockToken != token

/-- A fetch, with the item and the attempt count that it reports. -/
def Ledger.fetch (ledger : Ledger) (config : ProviderConfig) (filter : Option (List (SemverRange semver)))
    (now lockTimeoutMs token : Nat) (fault : Option (Nat × SqlxError)) :
    Option (Ledger × Option (OrchestrationItem × Nat)) :=
  if isUnused ledger.store token then
    let (result, conn) := fetchOrchestrationItem config filter now lockTimeoutMs token (Conn.open ledger.store fault)
    let store := conn.committed
    match result with
    | .ok (some (item, _, attemptCount)) =>
        some ({ store, fetches := fun id => ledger.fetches id + (inBatch store token id).toNat },
          some (item, attemptCount))
    | _ => some ({ ledger with store }, none)
  else none

def Ledger.call (ledger : Ledger) : Call semver → Option Ledger
  | .enqueue now item delayMs =>
      some { ledger with store := (enqueueForOrchestrator ledger.store now item delayMs).toOption.getD ledger.store }
  | .fetch config filter now lockTimeoutMs token fault =>
      (ledger.fetch config filter now lockTimeoutMs token fault).map (·.1)
  | .abandon now token delayMs ignoreAttempt =>
      match abandonOrchestrationItem ledger.store now token delayMs ignoreAttempt with
      | .ok store => some
          { store
            fetches := fun id => ledger.fetches id - (ignoreAttempt && inBatch ledger.store token id).toNat }
      | .error _ => some ledger
  | .renew now token extendMs =>
      some { ledger with store := (renewOrchestrationItemLock ledger.store now token extendMs).toOption.getD ledger.store }
  | .ack config now token request fault =>
      some { ledger with
        store := (ackOrchestrationItem config now token request (Conn.open ledger.store fault)).2.committed }

/-- Any interleaving of provider calls on an empty database. -/
def redelivery (semver : Semver) : Lib.TransitionSystem Ledger (Call semver) where
  initial ledger := ledger = {}
  step source label target := source.call label = some target

/-- The stored attempt counts are bounded by the real ones. -/
structure Counted (ledger : Ledger) : Prop where
  sound : QueueSound ledger.store
  counted : ∀ row ∈ ledger.store.orchestratorQueue, row.attemptCount ≤ ledger.fetches row.id

theorem unused_of_isUnused {store : Store} {token : Nat} (isUnused : isUnused store token) : Unused store token := by
  simp only [Redelivery.isUnused, Bool.and_eq_true, List.all_eq_true, bne_iff_ne] at isUnused
  exact ⟨isUnused.1, fun instanceId lock found => isUnused.2 _ (Lib.KeyedTable.mem_entries_iff.mpr found)⟩

theorem inBatch_iff {store : Store} {token id : Nat} :
    inBatch store token id = true ↔ ∃ row ∈ store.orchestratorQueue, row.lockToken = some token ∧ row.id = id := by
  simp only [inBatch, Store.batch, List.any_eq_true, List.mem_filter, beq_iff_eq, and_assoc]

namespace Counted

variable {ledger : Ledger}

theorem initial : Counted {} := ⟨.initial, fun _ member => absurd member List.not_mem_nil⟩

/-- A fetch counts every message that it marks. -/
theorem lockedStore (counted : Counted ledger) {now lockTimeoutMs token : Nat} {instanceId : String}
    (unlocked : ledger.store.isUnlocked now instanceId) (unused : Unused ledger.store token) {fetches : Nat → Nat}
    (counts : ∀ id, fetches id = ledger.fetches id +
      (inBatch (Provider.lockedStore ledger.store now lockTimeoutMs token instanceId) token id).toNat) :
    Counted { store := Provider.lockedStore ledger.store now lockTimeoutMs token instanceId, fetches } where
  sound := counted.sound.lockedStore unlocked unused lockTimeoutMs
  counted row member := by
    dsimp only at member ⊢
    have queued := member
    rw [lockedStore_of_unlocked unlocked] at member
    obtain ⟨original, old, rfl⟩ := List.mem_map.mp member
    have before := counted.counted original old
    rw [counts, markedRow_id]
    by_cases visible : (original.instanceId == instanceId && original.visibleAt ≤ (now : Int)) = true
    · have marked : inBatch (Provider.lockedStore ledger.store now lockTimeoutMs token instanceId) token original.id := by
        refine inBatch_iff.mpr ⟨_, queued, ?_, markedRow_id _ _ _ _⟩
        simp only [markedRow, visible, ↓reduceIte]
      rw [marked]
      simp only [markedRow, visible, ↓reduceIte, Bool.toNat_true]
      omega
    · simp only [markedRow, visible, Bool.false_eq_true, ↓reduceIte]
      omega

/-- A batch of orphans is deleted before it was delivered to anyone. -/
theorem dropped (counted : Counted ledger) {now lockTimeoutMs token : Nat} {instanceId : String}
    (unlocked : ledger.store.isUnlocked now instanceId) (unused : Unused ledger.store token) :
    Counted { ledger with
      store := ((Provider.lockedStore ledger.store now lockTimeoutMs token instanceId).deleteBatch token).deleteLocks
        fun _ lock => lock.lockToken == token } where
  sound := (counted.sound.lockedStore unlocked unused lockTimeoutMs).dropBatch
  counted row member := by
    obtain ⟨queued, kept⟩ := List.mem_filter.mp member
    rw [lockedStore_of_unlocked unlocked] at queued
    obtain ⟨original, old, rfl⟩ := List.mem_map.mp queued
    unfold markedRow at kept ⊢
    split_ifs at kept ⊢
    · simp at kept
    · exact counted.counted original old

theorem fetch (counted : Counted ledger) {config : ProviderConfig} {filter : Option (List (SemverRange semver))}
    {now lockTimeoutMs token : Nat} {fault : Option (Nat × SqlxError)} {after : Ledger}
    {delivered : Option (OrchestrationItem × Nat)}
    (fetched : ledger.fetch config filter now lockTimeoutMs token fault = some (after, delivered)) : Counted after := by
  unfold Ledger.fetch at fetched
  split_ifs at fetched with fresh
  have unused := unused_of_isUnused fresh
  have outcome := fetchOrchestrationItem_outcome config filter ledger.store now lockTimeoutMs token fault
  generalize fetchOrchestrationItem config filter now lockTimeoutMs token (Conn.open ledger.store fault) =
    ran at outcome fetched
  obtain ⟨result, conn⟩ := ran
  dsimp only at outcome fetched
  generalize conn.committed = committed at outcome fetched
  cases outcome with
  | failed error =>
    cases fetched
    exact counted
  | nothing =>
    cases fetched
    exact counted
  | locked item attemptCount candidate found =>
    cases fetched
    exact counted.lockedStore candidate.unlocked unused fun _ => rfl
  | dropped instanceId candidate noRow orphans =>
    cases fetched
    exact counted.dropped candidate.unlocked unused

/-- Only rows of the locked instance carry the token of an abandon. -/
theorem abandon (counted : Counted ledger) {now token : Nat} {delayMs : Option Nat} {ignoreAttempt : Bool}
    {store : Store} (released : abandonOrchestrationItem ledger.store now token delayMs ignoreAttempt = .ok store) :
    Counted
      { store, fetches := fun id => ledger.fetches id - (ignoreAttempt && inBatch ledger.store token id).toNat } where
  sound := counted.sound.abandon released
  counted row member := by
    obtain ⟨instanceId, locked, rfl⟩ := abandonOrchestrationItem_spec released
    obtain ⟨original, old, rfl⟩ := List.mem_map.mp member
    have before := counted.counted original old
    dsimp only
    rw [(abandonedRow_identity now instanceId delayMs ignoreAttempt original).1]
    cases ignoreAttempt with
    | false =>
      have kept : (abandonedRow now instanceId delayMs false original).attemptCount = original.attemptCount := by
        simp only [abandonedRow, Bool.false_eq_true, ↓reduceIte]
        split_ifs <;> rfl
      rw [kept]
      simpa using before
    | true =>
      by_cases mine : original.instanceId = instanceId
      · have undone : (abandonedRow now instanceId delayMs true original).attemptCount = original.attemptCount - 1 := by
          simp [abandonedRow, mine]
        rw [undone]
        rcases Bool.eq_false_or_eq_true (inBatch ledger.store token original.id) with batch | batch
        · simp only [batch, Bool.and_self, Bool.toNat_true]
          omega
        · simp only [batch, Bool.and_false, Bool.toNat_false]
          omega
      · have kept : (abandonedRow now instanceId delayMs true original).attemptCount = original.attemptCount := by
          simp [abandonedRow, mine]
        have foreign : inBatch ledger.store token original.id = false := by
          by_contra batch
          obtain ⟨row, queued, marked, same⟩ := inBatch_iff.mp (by simpa using batch)
          obtain rfl := counted.sound.row_eq queued old same
          obtain ⟨lock, found, tokens⟩ := lock_of_lockedInstance locked
          exact mine (counted.sound.owned row old instanceId lock found (by rw [marked, tokens])).symm
        rw [kept, foreign]
        simpa using before

theorem call (counted : Counted ledger) {label : Call semver} {after : Ledger}
    (called : ledger.call label = some after) : Counted after := by
  cases label with
  | enqueue now item delayMs =>
    cases called
    unfold enqueueForOrchestrator
    split_ifs
    · exact counted
    · refine ⟨counted.sound.insertOrchestratorRow _ _, fun row member => ?_⟩
      rcases List.mem_append.mp member with old | new
      · exact counted.counted row old
      · rw [List.mem_singleton.mp new]
        exact Nat.zero_le _
  | fetch config filter now lockTimeoutMs token fault =>
    obtain ⟨⟨after, delivered⟩, fetched, rfl⟩ := Option.map_eq_some_iff.mp called
    exact counted.fetch fetched
  | abandon now token delayMs ignoreAttempt =>
    simp only [Ledger.call] at called
    split at called
    · rename_i store released
      cases called
      exact counted.abandon released
    · cases called
      exact counted
  | renew now token extendMs =>
    cases called
    rcases extended : renewOrchestrationItemLock ledger.store now token extendMs with error | store
    · exact counted
    · refine ⟨counted.sound.renew extended, fun row member => counted.counted row ?_⟩
      rwa [QueueSound.renewOrchestrationItemLock_spec extended] at member
  | ack config now token request fault =>
    cases called
    rcases ackOrchestrationItem_outcome config ledger.store now token request fault with
      ⟨error, _, unchanged⟩ | ⟨_, instanceId, acked⟩
    · rw [unchanged]
      exact counted
    · refine ⟨counted.sound.acked acked, fun row member => ?_⟩
      dsimp only at member
      rw [acked.queue] at member
      rcases List.mem_append.mp member with old | new
      · exact counted.counted row (List.mem_of_mem_filter old)
      · rw [(QueueSound.mem_enqueuedRows new).2.2.2.1]
        exact Nat.zero_le _

theorem of_reachable {guard : Ledger → Call semver → Prop} (reached : (redelivery semver).Reachable guard ledger) :
    Counted ledger :=
  reached.invariant (fun _ start => start ▸ initial) fun _ _ _ counted _ called => counted.call called

end Counted

/-! ## Poison messages -/

/-- The version that an item's execution is pinned to is in the runtime's supported range, or there is none. -/
def Supported (env : RuntimeEnv semver) (item : OrchestrationItem) : Prop :=
  ∀ pinned, pinnedVersion semver item.history = some pinned → env.supportedRange.contains pinned

/-- A fetched item is answered by a commit of its failure as poison. -/
structure FailsAsPoison (env : RuntimeEnv semver) (item : OrchestrationItem) (attemptCount : Nat) : Prop where
  committed : handleFetchedItem env item attemptCount = .ack (failOrchestrationAsPoison env item attemptCount) none
  poison : ∃ event ∈ (failOrchestrationAsPoison env item attemptCount).historyDelta, ∃ messageType message,
    event.kind = .orchestrationFailed (.poison attemptCount env.maxAttempts messageType message)

variable {env : RuntimeEnv semver} {item : OrchestrationItem} {attemptCount : Nat}

theorem failOrchestrationAsPoison_poison :
    ∃ event ∈ (failOrchestrationAsPoison env item attemptCount).historyDelta, ∃ messageType message,
      event.kind = .orchestrationFailed (.poison attemptCount env.maxAttempts messageType message) := by
  unfold failOrchestrationAsPoison
  split
  · exact ⟨_, List.mem_cons_self, _, _, rfl⟩
  · exact ⟨_, List.mem_append_right _ List.mem_cons_self, _, _, rfl⟩

theorem failsAsPoison_of_supported (exceeded : env.maxAttempts < attemptCount) (supported : Supported env item) :
    FailsAsPoison env item attemptCount := by
  refine ⟨?_, failOrchestrationAsPoison_poison⟩
  have processed : processOrchestrationItem env item attemptCount =
      .ack (failOrchestrationAsPoison env item attemptCount) none := if_pos exceeded
  unfold handleFetchedItem
  split
  · rename_i pinned found
    rw [supported pinned found, processed]
    rfl
  · exact processed

/-- The version check comes before the attempts are looked at. -/
theorem abandon_of_not_supported (outside : ¬ Supported env item) :
    handleFetchedItem env item attemptCount = .abandon (some SHORT_BACKOFF_MS) false := by
  unfold Supported at outside
  push Not at outside
  obtain ⟨pinned, found, excluded⟩ := outside
  simp only [handleFetchedItem, found, Bool.eq_false_of_not_eq_true excluded, Bool.not_false, ↓reduceIte]

/-- Every other acknowledgement of a turn has a fallback or appends nothing. -/
theorem exceeded_of_failsAsPoison (fails : FailsAsPoison env item attemptCount) : env.maxAttempts < attemptCount := by
  by_contra within
  have processed : processOrchestrationItem env item attemptCount ≠
      .ack (failOrchestrationAsPoison env item attemptCount) none := by
    intro decided
    simp only [processOrchestrationItem, gt_iff_lt, within, ↓reduceIte] at decided
    split_ifs at decided
    · obtain ⟨event, member, _⟩ := fails.poison
      rw [← (Decision.ack.inj decided).1] at member
      exact absurd member List.not_mem_nil
    · unfold executeTurn at decided
      dsimp only at decided
      split_ifs at decided
      · split at decided
        · exact nomatch (Decision.ack.inj decided).2
        · cases decided
      · exact nomatch (Decision.ack.inj decided).2
  have committed := fails.committed
  unfold handleFetchedItem at committed
  split at committed
  · split_ifs at committed
    exact processed committed
  · exact processed committed

theorem maxAttemptCount_attained (rows : List OrchestratorRow) :
    maxAttemptCount rows = 0 ∨ ∃ row ∈ rows, maxAttemptCount rows = asU32 row.attemptCount := by
  unfold maxAttemptCount
  induction rows using List.reverseRecOn with
  | nil => exact .inl rfl
  | append_singleton rest row ih =>
    rw [List.foldl_append, List.foldl_cons, List.foldl_nil]
    rcases Nat.le_total (asU32 row.attemptCount)
      (rest.foldl (fun largest row => max largest (asU32 row.attemptCount)) 0) with below | above
    · rw [Nat.max_eq_left below]
      refine ih.imp_right fun ⟨other, member, same⟩ => ?_
      exact ⟨other, List.mem_append_left _ member, same⟩
    · rw [Nat.max_eq_right above]
      exact .inr ⟨row, List.mem_append_right _ List.mem_cons_self, rfl⟩

/-- A fetch reports no more attempts than some message of its batch really had. -/
theorem attemptCount_le_fetches {ledger after : Ledger} (counted : Counted ledger) {config : ProviderConfig}
    {filter : Option (List (SemverRange semver))} {now lockTimeoutMs token : Nat} {fault : Option (Nat × SqlxError)}
    (fetched : ledger.fetch config filter now lockTimeoutMs token fault = some (after, some (item, attemptCount)))
    (positive : 0 < attemptCount) : ∃ row ∈ after.store.batch token, attemptCount ≤ after.fetches row.id := by
  have afterCounted := counted.fetch fetched
  unfold Ledger.fetch at fetched
  split_ifs at fetched
  have outcome := fetchOrchestrationItem_outcome config filter ledger.store now lockTimeoutMs token fault
  generalize fetchOrchestrationItem config filter now lockTimeoutMs token (Conn.open ledger.store fault) =
    ran at outcome fetched
  obtain ⟨result, conn⟩ := ran
  dsimp only at outcome fetched
  generalize conn.committed = committed at outcome fetched
  cases outcome with
  | failed | nothing | dropped => cases fetched
  | locked item attemptCount candidate found =>
    cases fetched
    rcases maxAttemptCount_attained
      ((Provider.lockedStore ledger.store now lockTimeoutMs token item.instanceId).batch token) with none | ⟨row, member, same⟩
    · rw [found.attempts, none] at positive
      cases positive
    · refine ⟨row, member, ?_⟩
      rw [found.attempts, same]
      exact (Nat.mod_le _ _).trans (afterCounted.counted row (List.mem_of_mem_filter member))

/-- The two halves of the law for a fetched item: too many reported attempts are answered by poison, and
poison is answered only to a message that was really fetched too often. -/
structure PoisonExact (env : RuntimeEnv semver) (item : OrchestrationItem) (attemptCount : Nat) (after : Ledger)
    (token : Nat) : Prop where
  answered : env.maxAttempts < attemptCount → FailsAsPoison env item attemptCount
  justified : FailsAsPoison env item attemptCount →
    ∃ row ∈ after.store.batch token, env.maxAttempts < after.fetches row.id

/-- After any provider calls, a fetched item obeys the law exactly if too many reported attempts never meet
a pinned version outside the supported range. -/
theorem poisonExact_iff {guard : Ledger → Call semver → Prop} {ledger after : Ledger}
    (reached : (redelivery semver).Reachable guard ledger) {config : ProviderConfig}
    {filter : Option (List (SemverRange semver))} {now lockTimeoutMs token : Nat} {fault : Option (Nat × SqlxError)}
    (fetched : ledger.fetch config filter now lockTimeoutMs token fault = some (after, some (item, attemptCount)))
    (env : RuntimeEnv semver) :
    PoisonExact env item attemptCount after token ↔ (env.maxAttempts < attemptCount → Supported env item) := by
  have counted := Counted.of_reachable reached
  constructor
  · intro exact exceeded
    by_contra outside
    have committed := (exact.answered exceeded).committed
    rw [abandon_of_not_supported outside] at committed
    cases committed
  · intro supported
    refine ⟨fun exceeded => failsAsPoison_of_supported exceeded (supported exceeded), fun fails => ?_⟩
    have exceeded := exceeded_of_failsAsPoison fails
    obtain ⟨row, member, fetches⟩ := attemptCount_le_fetches counted fetched (Nat.zero_lt_of_lt exceeded)
    exact ⟨row, member, Nat.lt_of_lt_of_le exceeded fetches⟩

/-! A release created an execution; a pre-release of the same version keeps fetching it. -/

/-- Make a list of calls. -/
def Ledger.run (ledger : Ledger) : List (Call semver) → Option Ledger
  | [] => some ledger
  | label :: rest => (ledger.call label).bind (·.run rest)

theorem reachable_of_run {ledger after : Ledger} {labels : List (Call semver)}
    (reached : (redelivery semver).Reachable (fun _ _ => True) ledger) (ran : ledger.run labels = some after) :
    (redelivery semver).Reachable (fun _ _ => True) after := by
  induction labels generalizing ledger with
  | nil =>
    cases ran
    exact reached
  | cons label rest ih =>
    obtain ⟨middle, called, later⟩ := Option.bind_eq_some_iff.mp ran
    exact ih (.step reached trivial called) later

def released : textSemver.Version := "1.0.0"

def preReleased : textSemver.Version := "1.0.0-alpha"

/-- A runtime of the pre-release, which supports everything up to itself. -/
def preReleaseEnv : RuntimeEnv textSemver where
  stamp := ⟨0, "1.0.0-alpha"⟩
  registry := { inner := fun _ => [], distinct := fun _ => List.nodup_nil, policy := fun _ => none }
  executionIds _ := none
  supportedRange := ⟨"0.0.0", preReleased⟩
  serializeMessages _ := ""

/-- The first turn of an execution that the release started. -/
def firstCommit : AckRequest textSemver where
  executionId := 1
  historyDelta := [Event.withEventId ⟨0, "1.0.0"⟩ 1 "i" 1 none
    (.orchestrationStarted "orch" "1.0.0" "" none none none none)]
  metadata :=
    { orchestrationName := some "orch", orchestrationVersion := some "1.0.0", pinnedDuroxideVersion := some released }

def fetchAt (now token : Nat) : Call textSemver :=
  .fetch {} (some [preReleaseEnv.supportedRange]) now 1000 token none

def startAndMessage : List (Call textSemver) :=
  [.enqueue 0 (.startOrchestration "i" "orch" "" none none none 1) none, fetchAt 0 1, .ack {} 0 1 firstCommit none,
    .enqueue 0 (.queueMessage "i" "q" "m") none]

/-- Rounds of fetching and giving back with the short backoff. -/
def rounds : Nat → List (Call textSemver)
  | 0 => []
  | count + 1 =>
      rounds count ++ [fetchAt (2000 * count) (2 + count), .abandon (2000 * count) (2 + count) (some SHORT_BACKOFF_MS) false]

/-- A fetch of the runs below, with its item and attempt count. -/
def fetchAfter (count : Nat) (ledger : Ledger) : Option (Ledger × Option (OrchestrationItem × Nat)) :=
  ledger.fetch {} (some [preReleaseEnv.supportedRange]) (2000 * count) 1000 (2 + count) none

theorem poisonExact_iff_firstFetch : ∃ ledger after item attemptCount,
    Ledger.run {} startAndMessage = some ledger ∧ fetchAfter 0 ledger = some (after, some (item, attemptCount)) ∧
      (PoisonExact preReleaseEnv item attemptCount after 2 ↔
        (preReleaseEnv.maxAttempts < attemptCount → Supported preReleaseEnv item)) := by
  have observed : (Ledger.run {} startAndMessage).any (fun ledger =>
      (fetchAfter 0 ledger).any fun fetched => fetched.2.isSome) = true := by
    decide +kernel
  obtain ⟨ledger, ran, delivered⟩ := (Option.any_eq_true _ _).mp observed
  obtain ⟨⟨after, found⟩, fetched, some⟩ := (Option.any_eq_true _ _).mp delivered
  obtain ⟨⟨item, attemptCount⟩, rfl⟩ := Option.isSome_iff_exists.mp some
  exact ⟨ledger, after, item, attemptCount, ran, fetched,
    poisonExact_iff (reachable_of_run (.initial rfl) ran) fetched preReleaseEnv⟩

/-- The eleventh fetch of a message, of at most ten, is answered by one more abandon. -/
theorem preRelease_notPoisoned : ∃ ledger after item, Ledger.run {} (startAndMessage ++ rounds 10) = some ledger ∧
    fetchAfter 10 ledger = some (after, some (item, 11)) ∧ preReleaseEnv.maxAttempts = 10 ∧
    handleFetchedItem preReleaseEnv item 11 = .abandon (some SHORT_BACKOFF_MS) false ∧
    ¬ PoisonExact preReleaseEnv item 11 after 12 := by
  have observed : (Ledger.run {} (startAndMessage ++ rounds 10)).any (fun ledger =>
      (fetchAfter 10 ledger).any fun fetched => fetched.2.any fun (item, attemptCount) =>
        attemptCount == 11 && pinnedVersion textSemver item.history == some released) = true := by
    decide +kernel
  obtain ⟨ledger, ran, delivered⟩ := (Option.any_eq_true _ _).mp observed
  obtain ⟨⟨after, found⟩, fetched, some⟩ := (Option.any_eq_true _ _).mp delivered
  obtain ⟨⟨item, attemptCount⟩, rfl, facts⟩ := (Option.any_eq_true _ _).mp some
  simp only [Bool.and_eq_true, beq_iff_eq] at facts
  obtain ⟨rfl, pinned⟩ := facts
  have outside : ¬ Supported preReleaseEnv item := fun supported => absurd (supported released pinned) (by decide +kernel)
  refine ⟨ledger, after, item, ran, fetched, rfl, abandon_of_not_supported outside, fun exact => ?_⟩
  have committed := (exact.answered (by decide)).committed
  rw [abandon_of_not_supported outside] at committed
  cases committed

end Duroxide.Redelivery
