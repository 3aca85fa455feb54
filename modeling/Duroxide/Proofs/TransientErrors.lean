import Duroxide.Model.Provider

/-! # Transient database errors of a fetch and of an acknowledgement

Every statement of the two calls maps a driver error through `sqlxToProviderError`, except those whose
failure is swallowed or mapped by hand. For each call the lossy statements are listed, and a transient
error is answered with a retryable error and no change exactly at the statements that are not lossy.
-/

namespace Duroxide.TransientErrors

open Lib.Database Lib.Database.Db Provider

variable {semver : Semver} {Value : Type}

/-- A driver error that is classified as retryable. -/
def IsTransient (config : ProviderConfig) (error : SqlxError) : Prop :=
  (sqlxToProviderError config "" error).isRetryable = true

instance (config : ProviderConfig) : DecidablePred (IsTransient config) := fun error =>
  inferInstanceAs (Decidable ((sqlxToProviderError config "" error).isRetryable = true))

def Retryable (error : ProviderError) : Prop := error.isRetryable = true

/-- The classification does not depend on the operation. -/
theorem retryable_sqlxToProviderError {config : ProviderConfig} {error : SqlxError}
    (transient : IsTransient config error) (operation : String) :
    Retryable (sqlxToProviderError config operation error) := by
  unfold IsTransient at transient
  unfold Retryable
  unfold sqlxToProviderError at transient ⊢
  dsimp only at transient ⊢
  split_ifs at transient ⊢ <;> first | rfl | cases transient

theorem not_retryable_makePermanent (operation message : String) :
    ¬ Retryable (.makePermanent operation message) := by
  simp [Retryable, ProviderError.makePermanent, ProviderError.isRetryable]

/-- Statements of a fetch whose failure is swallowed or reported as an unreadable history. -/
def fetchLossy (label : Statement) : Prop :=
  label ∈ [Statement.readHistory, .readLatestExecution, .readLatestHistory, .releaseEmptyBatch, .rollback]

/-- Statements of an acknowledgement whose failure is swallowed or made permanent. -/
def ackLossy (label : Statement) : Prop := label ∈ [Statement.insertHistory, .rollback]

instance : DecidablePred fetchLossy := fun label => inferInstanceAs (Decidable (label ∈ _))

instance : DecidablePred ackLossy := fun label => inferInstanceAs (Decidable (label ∈ _))

abbrev FetchCareful (config : ProviderConfig) (step : Op Value) : Prop :=
  Careful (IsTransient config) Retryable fetchLossy step

abbrev FetchAnswers (config : ProviderConfig) (step : Op Value) : Prop :=
  Answers (IsTransient config) Retryable fetchLossy step

abbrev AckCareful (config : ProviderConfig) (step : Op Value) : Prop :=
  Careful (IsTransient config) Retryable ackLossy step

abbrev AckAnswers (config : ProviderConfig) (step : Op Value) : Prop :=
  Answers (IsTransient config) Retryable ackLossy step

/-! ## Fetching -/

section Fetch

variable (config : ProviderConfig)

theorem finishFetch_answers (token attemptCount : Nat) (item : OrchestrationItem) :
    FetchAnswers config (finishFetch config token attemptCount item) := by
  refine answers_bind (careful_statement ?_ (by decide) _) fun kvSnapshot => ?_
  · exact fun error transient => retryable_sqlxToProviderError transient _
  · exact answers_commit (fun error transient => retryable_sqlxToProviderError transient _) (by decide) _

theorem finishFetch_benign (token attemptCount : Nat) (item : OrchestrationItem) :
    Benign Retryable (finishFetch config token attemptCount item) :=
  benign_bind (once_execute (silent_applied _)) (benign_query _) fun _ => benign_commit _

theorem once_readHistory (effect : Store → Except SqlxError (List Event × Store)) (label : Statement) :
    Once (statement id label effect : Db Store Statement SqlxError SqlxError (List Event)) :=
  once_execute (silent_applied effect)

/-- The history read hides its error in the item it returns. -/
theorem fetchKnownInstance_answers (token attemptCount : Nat) (instanceId : String) (messages : List WorkItem)
    (info : InstanceRow) :
    FetchAnswers config (fetchKnownInstance config token attemptCount instanceId messages info) := by
  refine answers_bind_benign (once_attempt (once_readHistory _ _)) (keeps_attempt (keeps_statement _))
    (classifies_attempt (reportsOnly_execute (silent_applied _) (by decide))) (fun history => ?_) fun history => ?_
  · rcases history with error | history
    · exact answers_commit (fun error transient => retryable_sqlxToProviderError transient _) (by decide) _
    · exact finishFetch_answers config _ _ _
  · rcases history with error | history
    · exact benign_commit _
    · exact finishFetch_benign config _ _ _

theorem readLatestHistory_once (instanceId : String) : Once (readLatestHistory instanceId) :=
  once_bind (once_execute (silent_applied _)) fun _ => once_readHistory _ _

theorem readLatestHistory_keeps (instanceId : String) : Keeps (readLatestHistory instanceId) :=
  keeps_bind (keeps_statement _) fun _ => keeps_statement _

theorem readLatestHistory_reportsOnly (instanceId : String) : ReportsOnly fetchLossy (readLatestHistory instanceId) :=
  reportsOnly_bind (once_execute (silent_applied _)) (fun _ => once_readHistory _ _)
    (reportsOnly_execute (silent_applied _) (by decide)) fun _ => reportsOnly_execute (silent_applied _) (by decide)

theorem fetchUnknownInstance_answers (token attemptCount : Nat) (instanceId : String) (messages : List WorkItem) :
    FetchAnswers config (fetchUnknownInstance config token attemptCount instanceId messages) := by
  have kept : ∀ error, IsTransient config error → Retryable (fetchError config error) :=
    fun error transient => retryable_sqlxToProviderError transient _
  refine answers_bind_benign (once_attempt (readLatestHistory_once instanceId))
    (keeps_attempt (readLatestHistory_keeps instanceId))
    (classifies_attempt (readLatestHistory_reportsOnly instanceId)) (fun latest => ?_) fun latest => ?_
  · dsimp only
    split
    · exact finishFetch_answers config _ _ _
    · exact finishFetch_answers config _ _ _
    · split_ifs
      · refine answers_bind (careful_statement kept (by decide) _) fun _ => ?_
        exact answers_bind (careful_statement kept (by decide) _) fun _ => answers_commit kept (by decide) _
      · exact answers_abandon (by decide) _ (careful_pure none).answers (benign_pure none)
  · dsimp only
    split
    · exact finishFetch_benign config _ _ _
    · exact finishFetch_benign config _ _ _
    · split_ifs
      · refine benign_bind (once_execute (silent_applied _)) (benign_update _) fun _ => ?_
        exact benign_bind (once_execute (silent_applied _)) (benign_update _) fun _ => benign_commit _
      · exact benign_abandon _ (benign_pure none)

theorem fetchLocked_answers (now token : Nat) (instanceId : String) :
    FetchAnswers config (fetchLocked config now token instanceId) := by
  have kept : ∀ error, IsTransient config error → Retryable (fetchError config error) :=
    fun error transient => retryable_sqlxToProviderError transient _
  refine answers_bind (careful_statement kept (by decide) _) fun _ => ?_
  refine answers_bind (careful_statement kept (by decide) _) fun rows => ?_
  split_ifs
  · refine answers_bind_benign (once_ignore (once_execute (silent_applied _))) (keeps_ignore (keeps_statement _))
      (classifies_ignore (reportsOnly_execute (silent_applied _) (by decide))) (fun _ => ?_) fun _ => ?_
    · exact answers_abandon (by decide) _ (careful_pure none).answers (benign_pure none)
    · exact benign_abandon _ (benign_pure none)
  · refine answers_bind (careful_statement kept (by decide) _) fun info => ?_
    cases info with
    | some info => exact fetchKnownInstance_answers config _ _ _ _ _
    | none => exact fetchUnknownInstance_answers config _ _ _ _

/-- Taking the lock fails only by a reported error, after which the transaction is given up. -/
theorem acquireLock_careful (now lockTimeoutMs token : Nat) (instanceId : String) :
    FetchCareful config (onError (statement (fetchError config) Statement.acquireLock fun store : Store =>
        .ok (store.acquireLock now instanceId ⟨token, now + lockTimeoutMs⟩))
      (rollback (fetchError config) .rollback)) := by
  have careful : FetchCareful config (statement (fetchError config) Statement.acquireLock fun store : Store =>
      .ok (store.acquireLock now instanceId ⟨token, now + lockTimeoutMs⟩)) :=
    careful_statement (fun error transient => retryable_sqlxToProviderError transient _) (by decide) _
  have cleanup : Once (rollback (fetchError config) .rollback : Op Unit) := once_execute silent_restarted
  refine ⟨once_onError careful.once cleanup, keeps_onError careful.keeps keeps_restarted,
    strict_onError careful.strict, classifies_onError careful.once cleanup keeps_restarted careful.classifies ?_⟩
  intro conn error fresh failed
  rcases execute_cases (fetchError config) Statement.acquireLock (silent_applied _) conn with
    ⟨reported, ran⟩ | ⟨fault, ran, _, _⟩
  · rw [statement, ran]
    simp
  · rw [statement, ran] at failed
    cases failed

theorem fetchCandidate_answers (now lockTimeoutMs token : Nat) (instanceId : String) :
    FetchAnswers config (fetchCandidate config now lockTimeoutMs token instanceId) := by
  refine answers_bind (acquireLock_careful config now lockTimeoutMs token instanceId) fun acquired => ?_
  split_ifs
  · exact fetchLocked_answers config now token instanceId
  · exact answers_abandon (by decide) _ (careful_pure none).answers (benign_pure none)

theorem fetchOrchestrationItem_answers (filter : Option (List (SemverRange semver)))
    (now lockTimeoutMs token : Nat) :
    FetchAnswers config (fetchOrchestrationItem config filter now lockTimeoutMs token) := by
  have kept : ∀ error, IsTransient config error → Retryable (fetchError config error) :=
    fun error transient => retryable_sqlxToProviderError transient _
  refine answers_bind (careful_begin kept (by decide)) fun _ => ?_
  split_ifs
  · exact answers_commit kept (by decide) none
  · refine answers_bind (careful_statement kept (by decide) _) fun candidate => ?_
    cases candidate with
    | some instanceId => exact fetchCandidate_answers config now lockTimeoutMs token instanceId
    | none =>
      refine answers_bind (careful_statement kept (by decide) _) fun _ => ?_
      exact answers_abandon (by decide) _ (careful_pure none).answers (benign_pure none)

end Fetch

/-! ## Acknowledging -/

section Ack

variable (config : ProviderConfig)

theorem ackError_retryable (error : SqlxError) (transient : IsTransient config error) :
    Retryable (ackError config error) := retryable_sqlxToProviderError transient _

theorem ackUpdate_careful {label : Statement} (recoverable : ¬ ackLossy label) (change : Store → Store) :
    AckCareful config (update (ackError config) label change) :=
  careful_statement (ackError_retryable config) recoverable _

/-- Giving up a transaction and failing lets the failure through. -/
theorem giveUp_careful (message : String) :
    AckCareful config (ignore (rollback (ackError config) .rollback) >>= fun _ =>
      (fail (.makePermanent "ack_orchestration_item" message) : Op Value)) := by
  have answers : AckAnswers config (ignore (rollback (ackError config) .rollback) >>= fun _ =>
      (fail (.makePermanent "ack_orchestration_item" message) : Op Value)) :=
    answers_abandon (by decide) _ (careful_fail _).answers (benign_fail (not_retryable_makePermanent _ _))
  refine ⟨answers.once, ?_, strict_bind_fails fun _ _ => ⟨_, rfl⟩, answers.classifies⟩
  exact keeps_bind (keeps_ignore keeps_restarted) fun _ => keeps_fail _

theorem extendAckLock_careful (now token : Nat) : AckCareful config (extendAckLock config now token) := by
  unfold extendAckLock
  split
  · exact careful_pure ()
  · refine careful_bind (careful_statement (ackError_retryable config) (by decide) _) fun extended => ?_
    split_ifs
    · exact careful_pure ()
    · exact giveUp_careful config _

theorem recordMetadata_careful (instanceId : String) (request : AckRequest semver) :
    AckCareful config (recordMetadata config instanceId request) := by
  refine careful_bind (careful_ifSome (fun identity => ?_) _) fun _ => ?_
  · refine careful_bind (careful_statement (ackError_retryable config) (by decide) _) fun _ => ?_
    exact ackUpdate_careful config (by decide) _
  refine careful_bind (ackUpdate_careful config (by decide) _) fun _ => ?_
  refine careful_bind (careful_ifSome (fun pinned => ackUpdate_careful config (by decide) _) _) fun _ => ?_
  exact ackUpdate_careful config (by decide) _

/-- A failed insert of an event becomes a permanent error, whatever the driver reported. -/
theorem appendHistory_careful (instanceId : String) (executionId : Nat) (events : List Event) :
    AckCareful config (appendHistory instanceId executionId events) := by
  unfold appendHistory
  split_ifs
  · exact careful_fail _
  · refine careful_forEach (fun event => ?_) events
    exact careful_lossy_statement (fun error => not_retryable_makePermanent _ _) (by decide) _

theorem recordStatus_careful (instanceId : String) (request : AckRequest semver) :
    AckCareful config (recordStatus config instanceId request) := by
  refine careful_bind (careful_ifSome (fun status => ackUpdate_careful config (by decide) _) _) fun _ => ?_
  exact careful_ifSome (fun customStatus => ackUpdate_careful config (by decide) _) _

theorem recordKvEvent_careful (now : Nat) (instanceId : String) (event : Event) :
    AckCareful config (recordKvEvent config now instanceId event) := by
  unfold recordKvEvent
  split
  · exact ackUpdate_careful config (by decide) _
  · exact ackUpdate_careful config (by decide) _
  · exact careful_bind (ackUpdate_careful config (by decide) _) fun _ => ackUpdate_careful config (by decide) _
  · exact careful_pure ()

theorem recordKv_careful (now : Nat) (instanceId : String) (request : AckRequest semver) :
    AckCareful config (recordKv config now instanceId request) := by
  refine careful_bind (careful_forEach (recordKvEvent_careful config now instanceId) _) fun _ => ?_
  split_ifs
  · refine careful_bind (ackUpdate_careful config (by decide) _) fun _ => ?_
    exact careful_bind (ackUpdate_careful config (by decide) _) fun _ => ackUpdate_careful config (by decide) _
  · exact careful_pure ()

theorem deleteCancelled_careful (cancelledActivities : List ScheduledActivityIdentifier) :
    AckCareful config (deleteCancelled config cancelledActivities) := by
  unfold deleteCancelled
  split_ifs
  · exact careful_pure ()
  · exact ackUpdate_careful config (by decide) _

theorem enqueueItems_careful (now : Nat) (request : AckRequest semver) :
    AckCareful config (enqueueItems config now request) := by
  refine careful_bind (careful_forEach (fun item => ackUpdate_careful config (by decide) _) _) fun _ => ?_
  refine careful_bind (deleteCancelled_careful config _) fun _ => ?_
  exact careful_forEach (fun item => ackUpdate_careful config (by decide) _) _

theorem releaseAndCommit_answers (now token : Nat) (instanceId : String) :
    AckAnswers config (releaseAndCommit config now token instanceId) := by
  refine answers_bind (careful_statement (ackError_retryable config) (by decide) _) fun valid => ?_
  split_ifs
  · refine answers_bind (ackUpdate_careful config (by decide) _) fun _ => ?_
    exact ⟨once_execute silent_published, classifies_execute silent_published (ackError_retryable config) (by decide)⟩
  · exact (giveUp_careful config _).answers

theorem ackOrchestrationItem_answers (now token : Nat) (request : AckRequest semver) :
    AckAnswers config (ackOrchestrationItem config now token request) := by
  refine answers_bind (careful_begin (ackError_retryable config) (by decide)) fun _ => ?_
  refine answers_bind (careful_statement (ackError_retryable config) (by decide) _) fun locked => ?_
  cases locked with
  | none => exact (careful_fail _).answers
  | some instanceId =>
    refine answers_bind (extendAckLock_careful config now token) fun _ => ?_
    refine answers_bind (ackUpdate_careful config (by decide) _) fun _ => ?_
    refine answers_bind (recordMetadata_careful config instanceId request) fun _ => ?_
    refine answers_bind (appendHistory_careful config instanceId _ _) fun _ => ?_
    refine answers_bind (recordStatus_careful config instanceId request) fun _ => ?_
    refine answers_bind (recordKv_careful config now instanceId request) fun _ => ?_
    refine answers_bind (enqueueItems_careful config now request) fun _ => ?_
    exact releaseAndCommit_answers config now token instanceId

end Ack

/-! ## Whole calls -/

/-- What a call runs against: the database at each of its attempts, and the error reported there. -/
structure Surroundings where
  store : Nat → Store
  fault : Nat → Option (Nat × SqlxError)

def attemptOf (op : Nat → Op Value) (around : Surroundings) (retryCount : Nat) :
    Except ProviderError Value × Conn Store Statement SqlxError :=
  op retryCount (Conn.open (around.store retryCount) (around.fault retryCount))

/-- The result of a call and the number of retries it took. -/
def callOf (config : ProviderConfig) (op : Nat → Op Value) (around : Surroundings) :
    Except ProviderError Value × Nat :=
  runProviderOperation config (fun retryCount => (attemptOf op around retryCount).1) 0

/-- An attempt ends as a transient error requires: the call goes on to another attempt or returns a
retryable error, and the attempt changes no table. -/
def Handled (config : ProviderConfig) (op : Nat → Op Value) (around : Surroundings) (retryCount : Nat) : Prop :=
  (retryCount < (callOf config op around).2 ∨ ∃ error, (callOf config op around).1 = .error error ∧ Retryable error) ∧
    (attemptOf op around retryCount).2.committed = around.store retryCount

/-- A call repeats retryable failures and returns the result of its last attempt. -/
theorem runProviderOperation_spec (config : ProviderConfig) (attempt : Nat → Except ProviderError Value)
    (start : Nat) :
    (runProviderOperation config attempt start).1 = attempt (runProviderOperation config attempt start).2 ∧
      ∀ retryCount, start ≤ retryCount → retryCount < (runProviderOperation config attempt start).2 →
        ∃ error, attempt retryCount = .error error ∧ Retryable error := by
  fun_induction runProviderOperation config attempt start with
  | case1 start value succeeded => exact ⟨succeeded.symm, fun retryCount low high => absurd low (by omega)⟩
  | case2 start error failed retried ih =>
    refine ⟨ih.1, fun retryCount low high => ?_⟩
    rcases Nat.eq_or_lt_of_le low with rfl | later
    · refine ⟨error, failed, ?_⟩
      simp only [shouldRetryTransactionOperation, Bool.and_eq_true] at retried
      exact retried.1.2
    · exact ih.2 retryCount later high
  | case3 start error failed stopped => exact ⟨failed.symm, fun retryCount low high => absurd low (by omega)⟩

theorem handled_iff {config : ProviderConfig} {lossy : Statement → Prop} {op : Nat → Op Value}
    (answers : ∀ retryCount, Answers (IsTransient config) Retryable lossy (op retryCount)) {around : Surroundings}
    {retryCount : Nat} (reached : retryCount ≤ (callOf config op around).2) {label : Statement} {error : SqlxError}
    (reports : (attemptOf op around retryCount).2.reported = some (label, error))
    (transient : IsTransient config error) : Handled config op around retryCount ↔ ¬ lossy label := by
  rw [← (answers retryCount).classifies _ label error rfl reports transient]
  obtain ⟨result, repeated⟩ := runProviderOperation_spec config
    (fun retryCount => (attemptOf op around retryCount).1) 0
  rcases Nat.eq_or_lt_of_le reached with last | earlier
  · have noMore : ¬ retryCount < (callOf config op around).2 := by omega
    simp only [Handled, noMore, false_or, Answered]
    rw [show (callOf config op around).1 = (attemptOf op around retryCount).1 by rw [last]; exact result]
    rfl
  · obtain ⟨failure, failed, isRetryable⟩ := repeated retryCount (Nat.zero_le _) earlier
    simp only [Handled, earlier, true_or, true_and]
    exact ⟨fun unchanged => ⟨⟨failure, failed, isRetryable⟩, unchanged⟩, fun answered => answered.2⟩

/-- At every statement of a fetch or an acknowledgement that is not lossy, and at no other, a transient
error makes the call try again or return a retryable error, with no table changed. -/
theorem transientErrors_handled_iff (config : ProviderConfig) (around : Surroundings) (retryCount : Nat)
    (label : Statement) (error : SqlxError) (transient : IsTransient config error) (clock token : Nat → Nat) :
    (∀ (filter : Option (List (SemverRange semver))) (lockTimeoutMs : Nat),
      let op := fun attempt => fetchOrchestrationItem config filter (clock attempt) lockTimeoutMs (token attempt)
      retryCount ≤ (callOf config op around).2 →
      (attemptOf op around retryCount).2.reported = some (label, error) →
      (Handled config op around retryCount ↔ ¬ fetchLossy label)) ∧
    ∀ request : AckRequest semver,
      let op := fun attempt => ackOrchestrationItem config (clock attempt) (token attempt) request
      retryCount ≤ (callOf config op around).2 →
      (attemptOf op around retryCount).2.reported = some (label, error) →
      (Handled config op around retryCount ↔ ¬ ackLossy label) := by
  constructor
  · intro filter lockTimeoutMs op reached reports
    exact handled_iff (fun attempt => fetchOrchestrationItem_answers config filter _ _ _) reached reports transient
  · intro request op reached reports
    exact handled_iff (fun attempt => ackOrchestrationItem_answers config _ _ request) reached reports transient

/-! A locked instance with one event, and a database that is locked at one statement. -/

def busy : SqlxError := { message := "database is locked" }

def startedOnce : Event :=
  Event.withEventId ⟨5, "0.1.0"⟩ 1 "i" 1 none (.orchestrationStarted "orch" "1.0.0" "" none none none none)

def oneMessage (lockToken : Option Nat) (locks : AList fun _ : String => InstanceLock) : Store where
  instances := Function.update (fun _ => none) "i" (some
    { orchestrationName := "orch", orchestrationVersion := some "1.0.0", currentExecutionId := 1
      parentInstanceId := none })
  executions := Function.update (fun _ => ∅) "i" (AList.singleton 1 {})
  history := Function.update (fun _ _ => .empty) "i" (Function.update (fun _ => .empty) 1
    ⟨[⟨1, .ok startedOnce⟩], List.pairwise_singleton _ _⟩)
  orchestratorQueue := [{ id := 1, instanceId := "i", workItem := .cancelInstance "i" "stop", visibleAt := 5, lockToken }]
  nextOrchestratorId := 2
  instanceLocks := locks

def busyAt (statement : Nat) (store : Store) : Surroundings :=
  { store := fun _ => store, fault := fun _ => some (statement, busy) }

/-- No capability filter. -/
def anyVersion : Option (List (SemverRange textSemver)) := none

def fetchFree (attempt : Nat) : Op (Option FetchedItem) :=
  fetchOrchestrationItem {} anyVersion (10 + attempt) 1000 7

def cancelDelta : AckRequest textSemver :=
  { executionId := 1
    historyDelta := [Event.withEventId ⟨5, "0.1.0"⟩ 2 "i" 1 none (.orchestrationCancelRequested "stop")] }

def ackLocked (attempt : Nat) : Op Unit := ackOrchestrationItem {} (10 + attempt) 7 cancelDelta

theorem transientErrors_handled_iff_markBatch :
    IsTransient {} busy ∧
      (Handled {} fetchFree (busyAt 3 (oneMessage none ∅)) 0 ↔ ¬ fetchLossy .markBatch) ∧
      (Handled {} ackLocked (busyAt 2 (oneMessage (some 7) (AList.singleton "i" ⟨7, 1010⟩))) 0 ↔ ¬ ackLossy .deleteBatch) :=
  ⟨by decide,
    (transientErrors_handled_iff {} _ 0 .markBatch busy (by decide) (10 + ·) fun _ => 7).1 anyVersion 1000
      (Nat.zero_le _) (by decide),
    (transientErrors_handled_iff {} _ 0 .deleteBatch busy (by decide) (10 + ·) fun _ => 7).2 cancelDelta
      (Nat.zero_le _) (by decide)⟩

/-- A locked database while history is read looks like a corrupted history, and while history is
appended like a permanent failure. -/
theorem busyHistory_notHandled :
    IsTransient {} busy ∧
      ((attemptOf fetchFree (busyAt 6 (oneMessage none ∅)) 0).1.toOption.bind id).map (·.1.historyError) =
        some (some "Failed to deserialize history: database is locked") ∧
      ¬ Handled {} fetchFree (busyAt 6 (oneMessage none ∅)) 0 ∧
      (attemptOf ackLocked (busyAt 5 (oneMessage (some 7) (AList.singleton "i" ⟨7, 1010⟩))) 0).1 =
        .error (.makePermanent "ack_orchestration_item" "Failed to append history: database is locked") ∧
      ¬ Handled {} ackLocked (busyAt 5 (oneMessage (some 7) (AList.singleton "i" ⟨7, 1010⟩))) 0 := by
  refine ⟨by decide, by decide +kernel, ?_, by decide +kernel, ?_⟩
  · have lost : Handled {} fetchFree (busyAt 6 (oneMessage none ∅)) 0 ↔ ¬ fetchLossy .readHistory :=
      handled_iff (fun attempt => fetchOrchestrationItem_answers {} anyVersion (10 + attempt) 1000 7)
        (Nat.zero_le _) (by decide) (show IsTransient {} busy by decide)
    exact fun handled => lost.mp handled (by decide)
  · have lost : Handled {} ackLocked (busyAt 5 (oneMessage (some 7) (AList.singleton "i" ⟨7, 1010⟩))) 0 ↔
        ¬ ackLossy .insertHistory :=
      handled_iff (fun attempt => ackOrchestrationItem_answers {} (10 + attempt) 7 cancelDelta)
        (Nat.zero_le _) (by decide) (show IsTransient {} busy by decide)
    exact fun handled => lost.mp handled (by decide)

end Duroxide.TransientErrors
