import Duroxide.Model.LockCalls
import Duroxide.Proofs.VersionPinning

/-! # Locks that are settled

An item is settled when an acknowledgement of it went through or it was abandoned. The branches that abandon an item on
purpose await the call; those that give up after an error drop it. So an item that a dispatcher tries to acknowledge is
settled exactly if one of its acknowledgements goes through.
-/

namespace Duroxide.Dispatcher

variable {semver : Semver}

/-- Some call settled the lock, and no acknowledgement follows an abandon. -/
structure SettlesLock (calls : List (LockCall semver)) : Prop where
  settled : (∃ request, .ack request (.ok ()) ∈ calls) ∨ ∃ call ∈ calls, call.isAbandon
  nothingAfter : calls.Pairwise fun earlier later => earlier.isAbandon → later.isAbandon

/-- The item is abandoned on purpose: its history cannot be read, or no handler of its orchestration is registered. -/
def IsAbandoned (env : RuntimeEnv semver) (item : OrchestrationItem) (attemptCount : Nat) : Prop :=
  attemptCount ≤ env.maxAttempts ∧
    (item.historyError.isSome ∨ isTerminalFor (tempHistoryMgr item) (workitemReader item) = false ∧
      (workitemReader item).hasOrchestrationName ∧
      resolveTurnHandler env.registry (workitemReader item).orchestrationName (workitemReader item).version = none)

/-- The item takes a turn, whose failure is committed if the turn cannot be. -/
def IsTurn (env : RuntimeEnv semver) (item : OrchestrationItem) (attemptCount : Nat) : Prop :=
  attemptCount ≤ env.maxAttempts ∧ item.historyError = none ∧
    isTerminalFor (tempHistoryMgr item) (workitemReader item) = false

/-- From an answer on, retryable errors that leave a retry come before a success. -/
def GetsThrough (respond : Nat → Except ProviderError Unit) (retries issued : Nat) : Prop :=
  ∃ failed ≤ retries, respond (issued + failed) = .ok () ∧
    ∀ earlier < failed, ∃ error, respond (issued + earlier) = .error error ∧ error.isRetryable

/-- The number of answers that a round of acknowledgements takes: up to the first that is no retryable error, and at
most all of its attempts. -/
def answersOfRound (respond : Nat → Except ProviderError Unit) : (retries issued : Nat) → Nat
  | 0, _ => 1
  | retries + 1, issued =>
      match respond issued with
      | .ok () => 1
      | .error error => if error.isRetryable then answersOfRound respond retries (issued + 1) + 1 else 1

/-! ## One round -/

section Round

variable {respond : Nat → Except ProviderError Unit} {request : AckRequest semver} {retries issued : Nat}
  {error : ProviderError}

theorem ackOrchestrationWithChanges_ok (answer : respond issued = .ok ()) :
    ackOrchestrationWithChanges respond request retries issued = (.ok (), [.ack request (.ok ())]) := by
  unfold ackOrchestrationWithChanges
  rw [answer]

theorem ackOrchestrationWithChanges_permanent (answer : respond issued = .error error) (permanent : error.isRetryable = false) :
    ackOrchestrationWithChanges respond request retries issued = (.error error, [.ack request (.error error)]) := by
  unfold ackOrchestrationWithChanges
  simp [answer, permanent]

theorem ackOrchestrationWithChanges_last (answer : respond issued = .error error) :
    ackOrchestrationWithChanges respond request 0 issued = (.error error, [.ack request (.error error)]) := by
  unfold ackOrchestrationWithChanges
  simp [answer]

theorem ackOrchestrationWithChanges_retry (answer : respond issued = .error error) (retryable : error.isRetryable) :
    ackOrchestrationWithChanges respond request (retries + 1) issued =
      ((ackOrchestrationWithChanges respond request retries (issued + 1)).1,
        .ack request (.error error) :: (ackOrchestrationWithChanges respond request retries (issued + 1)).2) := by
  rw [ackOrchestrationWithChanges]
  simp [answer, retryable]

/-- A retryable error leaves it to the later answers. -/
theorem getsThrough_retry (answer : respond issued = .error error) (retryable : error.isRetryable) :
    GetsThrough respond (retries + 1) issued ↔ GetsThrough respond retries (issued + 1) := by
  constructor
  · rintro ⟨failed, within, success, before⟩
    cases failed with
    | zero => cases answer.symm.trans success
    | succ failed =>
      refine ⟨failed, Nat.le_of_succ_le_succ within, ?_, fun earlier lower => ?_⟩
      · rw [Nat.add_assoc, Nat.add_comm 1]
        exact success
      · rw [Nat.add_assoc, Nat.add_comm 1]
        exact before (earlier + 1) (Nat.succ_lt_succ lower)
  · rintro ⟨failed, within, success, before⟩
    refine ⟨failed + 1, Nat.succ_le_succ within, ?_, fun earlier lower => ?_⟩
    · rw [Nat.add_comm failed, ← Nat.add_assoc]
      exact success
    · cases earlier with
      | zero => exact ⟨error, answer, retryable⟩
      | succ earlier =>
        rw [Nat.add_comm earlier, ← Nat.add_assoc]
        exact before earlier (Nat.lt_of_succ_lt_succ lower)

/-- An error that is not retried ends the round. -/
theorem not_getsThrough_of_final (answer : respond issued = .error error) (final : error.isRetryable = false ∨ retries = 0) :
    ¬ GetsThrough respond retries issued := by
  rintro ⟨failed, within, success, before⟩
  cases failed with
  | zero => cases answer.symm.trans success
  | succ failed =>
    obtain ⟨first, given, retryable⟩ := before 0 (Nat.succ_pos failed)
    obtain rfl := Except.error.inj (answer.symm.trans given)
    obtain permanent | rfl := final
    · rw [permanent] at retryable
      cases retryable
    · exact absurd within (Nat.not_succ_le_zero failed)

/-- What a round of acknowledgements leaves behind. -/
structure RoundSpec (respond : Nat → Except ProviderError Unit) (retries issued : Nat)
    (round : Except ProviderError Unit × List (LockCall semver)) : Prop where
  result : round.1 = .ok () ↔ GetsThrough respond retries issued
  settled : (∃ request, .ack request (.ok ()) ∈ round.2) ↔ round.1 = .ok ()
  acks : ∀ call ∈ round.2, call.isAbandon = false
  answers : round.2.length = answersOfRound respond retries issued

theorem roundSpec_final (answer : respond issued = .error error) (final : error.isRetryable = false ∨ retries = 0) :
    RoundSpec respond retries issued (.error error, [LockCall.ack request (.error error)]) where
  result := iff_of_false nofun (not_getsThrough_of_final answer final)
  settled := by simp
  acks := by simp [LockCall.isAbandon]
  answers := by
    cases retries with
    | zero => rfl
    | succ retries =>
      obtain permanent | none := final
      · simp [answersOfRound, answer, permanent]
      · cases none

theorem roundSpec (respond : Nat → Except ProviderError Unit) (request : AckRequest semver) (retries issued : Nat) :
    RoundSpec respond retries issued (ackOrchestrationWithChanges respond request retries issued) := by
  induction retries generalizing issued with
  | zero =>
    cases answer : respond issued with
    | ok success =>
      rw [ackOrchestrationWithChanges_ok answer]
      exact ⟨iff_of_true rfl ⟨0, Nat.zero_le _, answer, nofun⟩, by simp, by simp [LockCall.isAbandon], rfl⟩
    | error error =>
      rw [ackOrchestrationWithChanges_last answer]
      exact roundSpec_final answer (.inr rfl)
  | succ retries ih =>
    cases answer : respond issued with
    | ok success =>
      rw [ackOrchestrationWithChanges_ok answer]
      refine ⟨iff_of_true rfl ⟨0, Nat.zero_le _, answer, nofun⟩, by simp, by simp [LockCall.isAbandon], ?_⟩
      simp [answersOfRound, answer]
    | error error =>
      cases retryable : error.isRetryable with
      | false =>
        rw [ackOrchestrationWithChanges_permanent answer retryable]
        exact roundSpec_final answer (.inl retryable)
      | true =>
        have later := ih (issued + 1)
        rw [ackOrchestrationWithChanges_retry answer retryable]
        refine ⟨later.result.trans (getsThrough_retry answer retryable).symm, ?_, ?_, ?_⟩
        · simpa using later.settled
        · exact List.forall_mem_cons.mpr ⟨rfl, later.acks⟩
        · simp [answersOfRound, answer, retryable, later.answers]

end Round

/-! ## The whole item -/

/-- Calls that are all acknowledgements settle the lock exactly if one of them succeeds. -/
theorem settlesLock_of_acks {calls : List (LockCall semver)} (acks : ∀ call ∈ calls, call.isAbandon = false) :
    SettlesLock calls ↔ ∃ request, .ack request (.ok ()) ∈ calls := by
  constructor
  · rintro ⟨success | ⟨call, member, abandons⟩, _⟩
    · exact success
    · rw [acks call member] at abandons
      cases abandons
  · intro success
    refine ⟨.inl success, List.Pairwise.imp_of_mem (R := fun _ _ => True) ?_ (List.pairwise_of_forall fun _ _ => trivial)⟩
    intro earlier later member _ _ abandons
    rw [acks earlier member] at abandons
    cases abandons

variable {respond : Nat → Except ProviderError Unit} {env : RuntimeEnv semver} {item : OrchestrationItem} {attemptCount : Nat}

theorem settlesLock_abandon (delayMs : Option Nat) (ignoreAttempt : Bool) :
    SettlesLock (decisionCalls respond (.abandon delayMs ignoreAttempt : Decision semver)) :=
  ⟨.inr ⟨_, List.mem_singleton_self _, rfl⟩, List.pairwise_singleton ..⟩

/-- Without a fallback one round decides. -/
theorem settlesLock_ack_iff (request : AckRequest semver) :
    SettlesLock (decisionCalls respond (.ack request none)) ↔ GetsThrough respond MAX_ACK_RETRIES 0 := by
  have round := roundSpec respond request MAX_ACK_RETRIES 0
  have calls : decisionCalls respond (.ack request none) =
      (ackOrchestrationWithChanges respond request MAX_ACK_RETRIES 0).2 := by
    simp only [decisionCalls]
    cases (ackOrchestrationWithChanges respond request MAX_ACK_RETRIES 0).1 <;> rfl
  rw [calls, settlesLock_of_acks round.acks, round.settled, round.result]

/-- With a fallback a second round decides, if the first does not get through. -/
theorem settlesLock_fallback_iff (request : AckRequest semver) (failure : ProviderError → AckRequest semver) :
    SettlesLock (decisionCalls respond (.ack request (some failure))) ↔
      GetsThrough respond MAX_ACK_RETRIES 0 ∨
        GetsThrough respond MAX_ACK_RETRIES (answersOfRound respond MAX_ACK_RETRIES 0) := by
  have round := roundSpec respond request MAX_ACK_RETRIES 0
  simp only [decisionCalls]
  generalize ackOrchestrationWithChanges respond request MAX_ACK_RETRIES 0 = first at round ⊢
  obtain ⟨result, calls⟩ := first
  cases result with
  | ok success =>
    exact iff_of_true ((settlesLock_of_acks round.acks).mpr (round.settled.mpr rfl)) (.inl (round.result.mp rfl))
  | error error =>
    have second := roundSpec respond (failure error) MAX_ACK_RETRIES calls.length
    have refused : ¬ ∃ request, .ack request (.ok ()) ∈ calls := fun success => nomatch round.settled.mp success
    have failed : ¬ GetsThrough respond MAX_ACK_RETRIES 0 := fun through => nomatch round.result.mpr through
    have acks : ∀ call ∈ calls ++ (ackOrchestrationWithChanges respond (failure error) MAX_ACK_RETRIES calls.length).2,
        call.isAbandon = false := List.forall_mem_append.mpr ⟨round.acks, second.acks⟩
    rw [← round.answers, or_iff_right failed, ← second.result, ← second.settled]
    refine (settlesLock_of_acks acks).trans ?_
    simp only [List.mem_append, exists_or]
    exact or_iff_right refused

/-- An item that is abandoned on purpose. -/
theorem decision_of_isAbandoned (abandoned : IsAbandoned env item attemptCount) :
    ∃ delayMs, processOrchestrationItem env item attemptCount = .abandon (some delayMs) false := by
  obtain ⟨attempts, reason⟩ := abandoned
  unfold processOrchestrationItem
  rw [if_neg (Nat.not_lt.mpr attempts)]
  by_cases unreadable : item.historyError.isSome
  · rw [if_pos unreadable]
    exact ⟨_, rfl⟩
  · obtain ⟨running, named, unregistered⟩ := reason.resolve_left unreadable
    rw [if_neg unreadable, running]
    simp only [Bool.false_eq_true, if_false, executeTurn, named, if_true, resolveAndExecuteOrchestrationHandler,
      unregistered, Option.map_none]
    exact ⟨_, rfl⟩

/-- An item that takes a turn and is not abandoned is acknowledged, with its failure to fall back on. -/
theorem decision_of_isTurn (turn : IsTurn env item attemptCount) (kept : ¬ IsAbandoned env item attemptCount) :
    ∃ request failure, processOrchestrationItem env item attemptCount = .ack request (some failure) := by
  obtain ⟨attempts, readable, running⟩ := turn
  have entered : processOrchestrationItem env item attemptCount = executeTurn env item attemptCount := by
    unfold processOrchestrationItem
    rw [if_neg (Nat.not_lt.mpr attempts), readable, running]
    rfl
  rw [entered]
  simp only [executeTurn]
  split_ifs with named
  · split
    · exact ⟨_, _, rfl⟩
    · rename_i unresolved
      have unregistered := Option.map_eq_none_iff.mp unresolved
      exact absurd ⟨attempts, .inr ⟨running, named, unregistered⟩⟩ kept
  · exact ⟨_, _, rfl⟩

/-- The other items are acknowledged once and for all. -/
theorem decision_of_not_isTurn (noTurn : ¬ IsTurn env item attemptCount) (kept : ¬ IsAbandoned env item attemptCount) :
    ∃ request, processOrchestrationItem env item attemptCount = .ack request none := by
  unfold processOrchestrationItem
  split_ifs with exceeded unreadable terminal
  · exact ⟨_, rfl⟩
  · exact absurd ⟨Nat.not_lt.mp exceeded, .inl unreadable⟩ kept
  · exact ⟨_, rfl⟩
  · exact absurd ⟨Nat.not_lt.mp exceeded, Option.not_isSome_iff_eq_none.mp unreadable,
      Bool.eq_false_of_not_eq_true terminal⟩ noTurn

/-- A dispatcher settles the lock of an item exactly if it abandons the item on purpose, or an acknowledgement gets
through, for a turn also that of its failure. -/
theorem settlesLock_iff (env : RuntimeEnv semver) (item : OrchestrationItem) (attemptCount : Nat)
    (respond : Nat → Except ProviderError Unit) :
    SettlesLock (lockCalls env item attemptCount respond) ↔
      IsAbandoned env item attemptCount ∨ GetsThrough respond MAX_ACK_RETRIES 0 ∨
        IsTurn env item attemptCount ∧ GetsThrough respond MAX_ACK_RETRIES (answersOfRound respond MAX_ACK_RETRIES 0) := by
  unfold lockCalls
  by_cases abandoned : IsAbandoned env item attemptCount
  · obtain ⟨delayMs, decided⟩ := decision_of_isAbandoned abandoned
    rw [decided]
    exact iff_of_true (settlesLock_abandon _ _) (.inl abandoned)
  · rw [or_iff_right abandoned]
    by_cases turn : IsTurn env item attemptCount
    · obtain ⟨request, failure, decided⟩ := decision_of_isTurn turn abandoned
      rw [decided, settlesLock_fallback_iff, and_iff_right turn]
    · obtain ⟨request, decided⟩ := decision_of_not_isTurn turn abandoned
      rw [decided, settlesLock_ack_iff, or_iff_left fun both => turn both.1]

/-! A first turn that is to be acknowledged. -/

def firstItem : OrchestrationItem where
  instanceId := "i"
  orchestrationName := "orch"
  executionId := 1
  version := "unknown"
  history := []
  messages := [.startOrchestration "i" "orch" "" none none none 1]
  historyError := none
  kvSnapshot := ∅

/-- An acknowledgement that failed. -/
def LockCall.isRefused : LockCall semver → Bool
  | .ack _ (.error _) => true
  | _ => false

/-- The answer of a database that stays busy. -/
def busy (_issued : Nat) : Except ProviderError Unit := .error (.makeRetryable "ack_orchestration_item" "busy")

/-- Twelve acknowledgements fail, and the lock of the turn is left as it is. -/
theorem busy_notSettlesLock : (lockCalls VersionPinning.oldEnv firstItem 1 busy).length = 12 ∧
    ¬ SettlesLock (lockCalls VersionPinning.oldEnv firstItem 1 busy) := by
  have observed : (lockCalls VersionPinning.oldEnv firstItem 1 busy).length = 12 ∧
      (lockCalls VersionPinning.oldEnv firstItem 1 busy).all (·.isRefused) = true := by
    decide +kernel
  refine ⟨observed.1, fun settles => ?_⟩
  obtain ⟨request, member⟩ | ⟨call, member, abandons⟩ := settles.settled
  · exact absurd (List.all_eq_true.mp observed.2 _ member) Bool.false_ne_true
  · have executed := List.all_eq_true.mp observed.2 call member
    cases call with
    | ack request answer => cases abandons
    | abandon delayMs ignoreAttempt => cases executed

end Duroxide.Dispatcher
