import Duroxide.Model.Dispatcher

/-! # The polling loops of the dispatchers

Both dispatchers poll their queue in a loop. A retryable error is counted and waited out for a time that grows with the
count; everything else resets the count. Arithmetic that overflows panics in a debug build, which ends the loop, and
wraps around in a release build.
-/

namespace Duroxide.DispatchLoop

/-- What a loop learns from one call of its provider. -/
inductive FetchResult where
  | worked
  | idle
  | retryableError
  | permanentError
deriving DecidableEq, Repr

inductive OverflowMode where
  | panics
  | wraps
deriving DecidableEq, Repr

/-- The result of an unsigned operation of some bits; none is a panic. -/
def unsigned (mode : OverflowMode) (bits exact : Nat) : Option Nat :=
  if exact < 2 ^ bits then some exact
  else match mode with
    | .panics => none
    | .wraps => some (exact % 2 ^ bits)

/-- `(100 * 2_u64.pow(consecutive_retryable_errors)).min(3000)`. -/
def backoffMs (mode : OverflowMode) (consecutiveRetryableErrors : Nat) : Option Nat := do
  let power ← unsigned mode 64 (2 ^ consecutiveRetryableErrors)
  let product ← unsigned mode 64 (100 * power)
  return min product 3000

/-- A backoff of the loop: the count that it was computed from, and its time unless computing it panicked. -/
structure Backoff where
  consecutiveRetryableErrors : Nat
  delayMs : Option Nat
deriving DecidableEq, Repr

/-- The backoffs of a loop over the results of its calls. -/
def dispatchLoop (mode : OverflowMode) : Nat → List FetchResult → List Backoff
  | _, [] => []
  | errors, .retryableError :: rest =>
      match unsigned mode 32 (errors + 1) with
      | none => [⟨errors + 1, none⟩]
      | some errors =>
          match backoffMs mode errors with
          | none => [⟨errors, none⟩]
          | some delayMs => ⟨errors, some delayMs⟩ :: dispatchLoop mode errors rest
  | _, _ :: rest => dispatchLoop mode 0 rest

end Duroxide.DispatchLoop
