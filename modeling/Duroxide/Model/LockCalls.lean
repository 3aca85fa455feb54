import Duroxide.Model.Dispatcher

/-! # The provider calls of a dispatcher

A dispatcher acknowledges an item or abandons it, under the lock of its fetch. The provider answers every
acknowledgement; an error is retried if it is retryable, and the turn's failure is committed in place of a turn that
could not be. Where this fails too the source calls `abandon_orchestration_item` inside `drop(..)`, which drops the
future before anything of it has run.
-/

namespace Duroxide.Dispatcher

variable {semver : Semver}

/-- A call that was executed under the lock; an acknowledgement with its answer. -/
inductive LockCall (semver : Semver) where
  | ack (request : AckRequest semver) (answer : Except ProviderError Unit)
  | abandon (delayMs : Option Nat) (ignoreAttempt : Bool)

def LockCall.isAbandon : LockCall semver → Bool
  | .ack .. => false
  | .abandon .. => true

def MAX_ACK_RETRIES : Nat := 5

/-- Acknowledge until the answer is no retryable error, or the retries are used up. The answers are numbered over the
whole item; `issued` of them have been given. -/
def ackOrchestrationWithChanges (respond : Nat → Except ProviderError Unit) (request : AckRequest semver) :
    (retries issued : Nat) → Except ProviderError Unit × List (LockCall semver)
  | retries, issued =>
      match respond issued with
      | .ok () => (.ok (), [.ack request (.ok ())])
      | .error error =>
          if !error.isRetryable then (.error error, [.ack request (.error error)])
          else
            match retries with
            -- The abandon is dropped here, not awaited.
            | 0 => (.error error, [.ack request (.error error)])
            | retries + 1 =>
                let (result, calls) := ackOrchestrationWithChanges respond request retries (issued + 1)
                (result, .ack request (.error error) :: calls)

/-- The calls that carry out a decision. -/
def decisionCalls (respond : Nat → Except ProviderError Unit) : Decision semver → List (LockCall semver)
  | .abandon delayMs ignoreAttempt => [.abandon delayMs ignoreAttempt]
  | .ack request fallback =>
      let (result, calls) := ackOrchestrationWithChanges respond request MAX_ACK_RETRIES 0
      match result, fallback with
      | .error error, some failure =>
          -- An abandon after a failed commit of the failure is dropped as well.
          calls ++ (ackOrchestrationWithChanges respond (failure error) MAX_ACK_RETRIES calls.length).2
      | _, _ => calls

/-- The calls of `process_orchestration_item`. -/
def lockCalls (env : RuntimeEnv semver) (item : OrchestrationItem) (attemptCount : Nat)
    (respond : Nat → Except ProviderError Unit) : List (LockCall semver) :=
  decisionCalls respond (processOrchestrationItem env item attemptCount)

end Duroxide.Dispatcher
