import Duroxide.Proofs.WorkerLocks

/-! # Session affinity

The workers of a bench claim sessions by fetching their items. Whoever holds a session keeps it until its lock
runs out: only a fetch gives it to somebody else, and only a cleanup removes it.
-/

namespace Duroxide.SessionAffinity

open Provider WorkerLocks

variable {semver : Semver}

/-- The session row of an id. -/
def sessionOf (bench : Bench) (sessionId : String) : Option SessionRow := bench.store.sessions.lookup sessionId

/-- A call is a fetch by a worker. -/
def FetchedBy (call : WorkerCall semver) (now : Nat) (config : SessionFetchConfig) : Prop :=
  ∃ lockTimeoutMs token filter, call = .fetch now lockTimeoutMs token (some config) filter

/-- Sessions change hands only when they may, and their items go to who holds them. -/
structure Affine (semver : Semver) (bench : Bench) : Prop where
  takenOver : ∀ (call : WorkerCall semver) (sessionId : String) (before after : SessionRow),
    sessionOf bench sessionId = some before → sessionOf (bench.call call).2 sessionId = some after →
    after.workerId ≠ before.workerId →
    ∃ now config, FetchedBy call now config ∧ before.lockedUntil ≤ now ∧ after.workerId = config.ownerId
  opened : ∀ (call : WorkerCall semver) (sessionId : String) (after : SessionRow), sessionOf bench sessionId = none →
    sessionOf (bench.call call).2 sessionId = some after →
    ∃ now config, FetchedBy call now config ∧ after.workerId = config.ownerId
  removed : ∀ (call : WorkerCall semver) (sessionId : String) (before : SessionRow),
    sessionOf bench sessionId = some before → sessionOf (bench.call call).2 sessionId = none →
    ∃ now, call = .cleanupSessions now ∧ before.lockedUntil < now ∧
      ∀ row ∈ bench.store.workerQueue, (Store.workerColumns row.workItem).2.1 ≠ some sessionId
  handed : ∀ (now lockTimeoutMs token : Nat) (session : Option SessionFetchConfig) (filter : TagFilter)
    (workItem : WorkItem) (attemptCount : Nat) (store : Store) (sessionId : String),
    fetchWorkItem bench.store now lockTimeoutMs token session filter = some ((workItem, attemptCount), store) →
    (Store.workerColumns workItem).2.1 = some sessionId →
    ∃ config row, session = some config ∧ store.sessions.lookup sessionId = some row ∧ row.workerId = config.ownerId

/-! ## What a call does to a session -/

/-- What a call makes of the row of one session. -/
inductive SessionStep (bench : Bench) (call : WorkerCall semver) (sessionId : String) :
    Option SessionRow → Option SessionRow → Prop
  | absent : SessionStep bench call sessionId none none
  | held (before after : SessionRow) (same : after.workerId = before.workerId) :
      SessionStep bench call sessionId (some before) (some after)
  | claimed (before : Option SessionRow) (after : SessionRow) (now : Nat) (config : SessionFetchConfig)
      (fetched : FetchedBy call now config)
      (allowed : ∀ row, before = some row → row.lockedUntil ≤ now ∨ row.workerId = config.ownerId)
      (owner : after.workerId = config.ownerId) : SessionStep bench call sessionId before (some after)
  | cleaned (before : SessionRow) (now : Nat) (cleanup : call = .cleanupSessions now)
      (lapsed : before.lockedUntil < now) (unused : ∀ row ∈ bench.store.workerQueue, row.sessionId ≠ some sessionId) :
      SessionStep bench call sessionId (some before) none

namespace SessionStep

variable {bench : Bench} {call : WorkerCall semver} {sessionId : String}

theorem refl (row : Option SessionRow) : SessionStep bench call sessionId row row := by
  cases row with
  | none => exact .absent
  | some row => exact .held row row rfl

/-- Sessions that are updated in place keep their owners. -/
theorem updated (table : Lib.KeyedTable.Table String SessionRow) (matching : String → SessionRow → Bool)
    {change : SessionRow → SessionRow} (same : ∀ row, (change row).workerId = row.workerId) :
    SessionStep bench call sessionId (table.lookup sessionId)
      ((Lib.KeyedTable.updateWhere table matching change).lookup sessionId) := by
  rw [Lib.KeyedTable.lookup_updateWhere]
  cases table.lookup sessionId with
  | none => exact .absent
  | some row =>
    refine .held row _ ?_
    dsimp only
    split_ifs
    · exact same row
    · rfl

theorem touched (store : Store) (now : Nat) (used : Option String) :
    SessionStep bench call sessionId (store.sessions.lookup sessionId)
      ((touchSession store now used).sessions.lookup sessionId) := by
  cases used with
  | none => exact refl _
  | some usedId => exact updated _ _ fun _ => rfl

end SessionStep

/-- A claimed session is held by the worker that claims it, which may claim it. -/
theorem claimSession_spec {store after : Store} {now : Nat} {config : SessionFetchConfig} {sessionId : String}
    (claimed : claimSession store now config sessionId = some after) :
    after.sessions = store.sessions.insert sessionId ⟨config.ownerId, now + config.lockTimeoutMs, now⟩ ∧
      ∀ row, store.sessions.lookup sessionId = some row → row.lockedUntil ≤ now ∨ row.workerId = config.ownerId := by
  unfold claimSession at claimed
  dsimp only at claimed
  split at claimed
  · rename_i row found
    split_ifs at claimed with allowed
    cases claimed
    refine ⟨rfl, fun other again => ?_⟩
    rw [found] at again
    cases again
    exact allowed
  · rename_i missing
    cases claimed
    refine ⟨rfl, fun row found => ?_⟩
    rw [missing] at found
    cases found

/-- A fetch claims the session of the row that it locks. -/
theorem claim_of_fetchWorkItem {store after : Store} {now lockTimeoutMs token attemptCount : Nat}
    {session : Option SessionFetchConfig} {filter : TagFilter} {workItem : WorkItem}
    (found : fetchWorkItem store now lockTimeoutMs token session filter = some ((workItem, attemptCount), after)) :
    ∃ row ∈ store.workerQueue, workItem = row.workItem ∧ sessionAllows store now session row.sessionId ∧
      claimItemSession (store.updateWorkerRows (·.id == row.id) (lockedWorkerRow now lockTimeoutMs token)) now session
        row.sessionId = some after := by
  obtain ⟨row, available, locked⟩ := Option.bind_eq_some_iff.mp found
  obtain ⟨claimed, claims, same⟩ := Option.bind_eq_some_iff.mp locked
  cases same
  have tested := List.find?_some available
  simp only [isAvailable, Bool.and_eq_true] at tested
  exact ⟨row, List.mem_of_find?_eq_some available, rfl, tested.1.2, claims⟩

/-- An item with a session is handed to a worker that claims the session. -/
theorem claim_of_session {store after : Store} {now lockTimeoutMs token attemptCount : Nat}
    {session : Option SessionFetchConfig} {filter : TagFilter} {workItem : WorkItem}
    (found : fetchWorkItem store now lockTimeoutMs token session filter = some ((workItem, attemptCount), after)) :
    ∃ row ∈ store.workerQueue, workItem = row.workItem ∧
      (row.sessionId = none ∧ after.sessions = store.sessions ∨ ∃ sessionId config,
        row.sessionId = some sessionId ∧ session = some config ∧
        after.sessions = store.sessions.insert sessionId ⟨config.ownerId, now + config.lockTimeoutMs, now⟩ ∧
        ∀ row, store.sessions.lookup sessionId = some row → row.lockedUntil ≤ now ∨ row.workerId = config.ownerId) := by
  obtain ⟨row, member, same, allowed, claims⟩ := claim_of_fetchWorkItem found
  refine ⟨row, member, same, ?_⟩
  rcases column : row.sessionId with _ | sessionId
  · rw [column] at claims
    cases claims
    exact .inl ⟨rfl, rfl⟩
  · rw [column] at allowed claims
    cases session with
    | none => cases allowed
    | some config =>
      obtain ⟨sessions, mayClaim⟩ := claimSession_spec claims
      exact .inr ⟨sessionId, config, rfl, rfl, sessions, mayClaim⟩

section Steps

variable (bench : Bench) (sessionId : String)

theorem sessionStep_fetch (now lockTimeoutMs token : Nat) (session : Option SessionFetchConfig) (filter : TagFilter) :
    SessionStep bench (.fetch now lockTimeoutMs token session filter : WorkerCall semver) sessionId
      (sessionOf bench sessionId) (sessionOf (bench.fetch now lockTimeoutMs token session filter) sessionId) := by
  unfold Bench.fetch
  rcases found : fetchWorkItem bench.store now lockTimeoutMs token session filter with _ | ⟨⟨workItem, attempts⟩, store⟩
  · exact .refl _
  obtain ⟨row, _, _, ⟨_, same⟩ | ⟨claimedId, config, _, rfl, sessions, mayClaim⟩⟩ := claim_of_session found
  · change SessionStep _ _ _ _ (store.sessions.lookup sessionId)
    rw [same]
    exact .refl _
  · change SessionStep _ _ _ _ (store.sessions.lookup sessionId)
    rw [sessions]
    by_cases own : sessionId = claimedId
    · subst own
      rw [AList.lookup_insert]
      exact .claimed _ _ now config ⟨lockTimeoutMs, token, filter, rfl⟩ mayClaim rfl
    · rw [AList.lookup_insert_ne own]
      exact .refl _

theorem sessionStep_ack (now token : Nat) (completion : Option WorkItem) :
    SessionStep bench (.ack now token completion : WorkerCall semver) sessionId (sessionOf bench sessionId)
      (sessionOf (bench.ack now token completion).2 sessionId) := by
  unfold Bench.ack
  rcases answer : ackWorkItem bench.store now token completion with error | store
  · exact .refl _
  change SessionStep _ _ _ _ (store.sessions.lookup sessionId)
  unfold ackWorkItem at answer
  split at answer
  · cases answer
  · rename_i row found
    dsimp only at answer
    split at answer
    · cases answer
      exact .touched (bench.store.deleteWorkerRows (holdsWork now token)) now row.sessionId
    · split_ifs at answer
      cases answer
      exact .touched (bench.store.deleteWorkerRows (holdsWork now token)) now row.sessionId

theorem sessionStep_renew (now token extendMs : Nat) :
    SessionStep bench (.renew now token extendMs : WorkerCall semver) sessionId (sessionOf bench sessionId)
      (sessionOf (bench.answer (renewWorkItemLock bench.store now token extendMs)).2 sessionId) := by
  unfold renewWorkItemLock
  split
  · exact .refl _
  · exact .touched (bench.store.updateWorkerRows (holdsWork now token) _) now _

/-- Every call leaves the owner of a session, claims the session, or removes it. -/
theorem sessionStep_call (call : WorkerCall semver) :
    SessionStep bench call sessionId (sessionOf bench sessionId) (sessionOf (bench.call call).2 sessionId) := by
  cases call with
  | fetch now lockTimeoutMs token session filter => exact sessionStep_fetch bench sessionId now lockTimeoutMs token session filter
  | ack now token completion => exact sessionStep_ack bench sessionId now token completion
  | renew now token extendMs => exact sessionStep_renew bench sessionId now token extendMs
  | abandon now token delayMs ignoreAttempt =>
    change SessionStep _ _ _ _
      (sessionOf (bench.answer (abandonWorkItem bench.store now token delayMs ignoreAttempt)).2 sessionId)
    unfold abandonWorkItem
    split_ifs <;> exact .refl _
  | renewSessions now ownerIds extendMs idleTimeoutMs =>
    change SessionStep _ _ _ _
      ((renewSessionLock bench.store now ownerIds extendMs idleTimeoutMs).2.sessions.lookup sessionId)
    unfold renewSessionLock
    split_ifs
    · exact .refl _
    · exact .updated _ _ fun _ => rfl
  | cleanupSessions now =>
    have after : sessionOf (bench.call (.cleanupSessions now : WorkerCall semver)).2 sessionId = _ :=
      Lib.KeyedTable.lookup_deleteWhere bench.store.sessions _ sessionId
    rw [after]
    change SessionStep _ _ _ (bench.store.sessions.lookup sessionId) _
    rcases bench.store.sessions.lookup sessionId with _ | row
    · exact .absent
    · rw [Option.filter_some]
      split_ifs with kept
      · exact .held row row rfl
      · simp only [Bool.not_eq_true', Bool.not_eq_false, Bool.and_eq_true, decide_eq_true_eq, List.any_eq_false] at kept
        refine .cleaned row now rfl kept.1 fun other member same => ?_
        exact kept.2 other member (beq_iff_eq.mpr same)
  | items call =>
    have same : (bench.items call).2.store.sessions = bench.store.sessions := by
      rcases items_cases { store := bench.store } call with ⟨_, _, same⟩ | ⟨_, _, _, _, acked⟩
      · exact same
      · exact acked.sessions
    change SessionStep _ _ _ _ ((bench.items call).2.store.sessions.lookup sessionId)
    rw [same]
    exact .refl _

end Steps

/-- Session affinity, for every interleaving of calls. -/
theorem affine_of_reachable {bench : Bench} (reached : (workers semver).Reachable (fun _ _ => True) bench) :
    Affine semver bench where
  takenOver call sessionId before after found later differs := by
    have step := sessionStep_call bench sessionId call
    rw [found, later] at step
    cases step with
    | held _ _ same => exact absurd same differs
    | claimed _ _ now config fetched allowed owner =>
      refine ⟨now, config, fetched, ?_, owner⟩
      exact (allowed before rfl).resolve_right fun own => differs (owner.trans own.symm)
  opened call sessionId after missing later := by
    have step := sessionStep_call bench sessionId call
    rw [missing, later] at step
    cases step with
    | claimed _ _ now config fetched _ owner => exact ⟨now, config, fetched, owner⟩
  removed call sessionId before found later := by
    have step := sessionStep_call bench sessionId call
    rw [found, later] at step
    cases step with
    | cleaned _ now cleanup lapsed unused =>
      refine ⟨now, cleanup, lapsed, fun row member => ?_⟩
      rw [← (Sound.of_reachable reached).columns row member]
      exact unused row member
  handed now lockTimeoutMs token session filter workItem attemptCount store sessionId found needs := by
    obtain ⟨row, member, rfl, claims⟩ := claim_of_session found
    rw [← (Sound.of_reachable reached).columns row member] at needs
    obtain ⟨none, _⟩ | ⟨claimedId, config, column, rfl, sessions, _⟩ := claims
    · rw [none] at needs
      cases needs
    · rw [column] at needs
      cases needs
      exact ⟨config, _, rfl, by rw [sessions, AList.lookup_insert], rfl⟩

/-! A worker loses its session to another after its lock has run out. -/

theorem affine_of_reachable_takenOver : ∃ bench before after,
    Bench.run {} (scheduling ++ [fetchAs "a" 0 2]) = some bench ∧
    sessionOf bench "s" = some before ∧ sessionOf (bench.call (fetchAs "b" 20 3)).2 "s" = some after ∧
    after.workerId ≠ before.workerId ∧ Affine textSemver bench := by
  have observed : (Bench.run {} (scheduling ++ [fetchAs "a" 0 2])).any (fun bench =>
      (sessionOf bench "s").any fun before => (sessionOf (bench.call (fetchAs "b" 20 3)).2 "s").any fun after =>
        after.workerId != before.workerId) = true := by
    decide +kernel
  obtain ⟨bench, ran, held⟩ := (Option.any_eq_true _ _).mp observed
  obtain ⟨before, found, taken⟩ := (Option.any_eq_true _ _).mp held
  obtain ⟨after, later, differs⟩ := (Option.any_eq_true _ _).mp taken
  exact ⟨bench, before, after, ran, found, later, bne_iff_ne.mp differs,
    affine_of_reachable (Bench.reachable_of_run ran)⟩

end Duroxide.SessionAffinity
