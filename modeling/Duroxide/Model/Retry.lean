import Duroxide.Model.Orchestration

/-! # Activities with a retry policy

`schedule_activity_with_retry` and its variant for a session are one loop over the attempts, which differ
in the session id that they pass on. The loop is part of an orchestration's code, so it is written as polls
of that code: what follows the call, and how the call is embedded in the state of the code, are parameters.
Traces are left out, and so is the drop of a future that has completed, which does nothing.
-/

namespace Duroxide

namespace Duration

theorem zero_fits : 0 < 2 ^ 64 := by decide

theorem zero_subsecond : 0 < 1000000000 := by decide

def ZERO : Duration := ⟨0, 0, zero_fits, zero_subsecond⟩

theorem max_fits : 2 ^ 64 - 1 < 2 ^ 64 := by decide

theorem max_subsecond : 999999999 < 1000000000 := by decide

def MAX : Duration := ⟨2 ^ 64 - 1, 999999999, max_fits, max_subsecond⟩

def isZero (duration : Duration) : Bool := duration.secs == 0 && duration.nanos == 0

def fromNanos (nanos : Nat) (fits : nanos / 1000000000 < 2 ^ 64) : Duration :=
  ⟨nanos / 1000000000, nanos % 1000000000, fits, Nat.mod_lt _ (by decide)⟩

/-- `Duration::saturating_mul`. -/
def saturatingMul (duration : Duration) (factor : Nat) : Duration :=
  if fits : duration.asNanos * factor / 1000000000 < 2 ^ 64 then fromNanos _ fits else MAX

/-- `std::cmp::min`: seconds first, then the rest. -/
def min (left right : Duration) : Duration := if right.asNanos < left.asNanos then right else left

end Duration

/-- An exponential backoff keeps what `(base.as_nanos() as f64 * multiplier.powi(attempt - 1)) as u128` gives for an
attempt: it is computed in floating point. -/
inductive BackoffStrategy where
  | none
  | fixed (delay : Duration)
  | linear (base max : Duration)
  | exponential (delayNanos : Nat → Nat) (max : Duration)

/-- Attempts count from 1. -/
def BackoffStrategy.delayForAttempt (attempt : Nat) : BackoffStrategy → Duration
  | .none => .ZERO
  | .fixed delay => delay
  | .linear base max => (base.saturatingMul attempt).min max
  | .exponential delayNanos max =>
      let nanos := Nat.min (delayNanos attempt) (2 ^ 64 - 1)
      (Duration.fromNanos nanos (by
        have small : nanos ≤ 2 ^ 64 - 1 := Nat.min_le_right ..
        omega)).min max

structure RetryPolicy where
  maxAttempts : Nat
  backoff : BackoffStrategy
  timeout : Option Duration := none

def RetryPolicy.delayForAttempt (policy : RetryPolicy) (attempt : Nat) : Duration := policy.backoff.delayForAttempt attempt

/-- The arguments of a call; without a session it is `schedule_activity_with_retry`. -/
structure RetryCall where
  name : String
  input : String
  sessionId : Option String := none
  policy : RetryPolicy

def scheduleActivityWithRetry (name input : String) (policy : RetryPolicy) : RetryCall := { name, input, policy }

def scheduleActivityWithRetryOnSession (name input : String) (policy : RetryPolicy) (sessionId : String) : RetryCall :=
  { name, input, sessionId := some sessionId, policy }

/-- What a call waits for; `remaining` counts the attempts after the current one. -/
inductive RetryState where
  | awaiting (remaining activity : Nat)
  /-- `select2` of the activity and the deadline. -/
  | racing (remaining activity deadline : Nat)
  | backingOff (remaining : Nat) (lastError : String) (timer : Nat)
deriving DecidableEq, Repr

/-- The output of an activity's future. -/
def activityResult : Option CompletionResult → Option (Except String String)
  | some (.activityOk result) => some (.ok result)
  | some (.activityErr message) => some (.error message)
  | _ => none

def timedOut : String := "timeout: activity timed out"

namespace RetryCall

variable {State : Type}

def scheduleTimer (delay : Duration) (next : Nat → Script State) : Script State :=
  .call (.scheduleTimer (delay.asMillis % 2 ^ 64)) next

section

variable (call : RetryCall) (embed : RetryState → State) (continuation : Except String String → Script State)

def pollBackoff (remaining : Nat) (lastError : String) (timer : Nat) (again : String → Script State) : Script State :=
  .call (.pollFuture timer) fun reply =>
    if reply.isSome then again lastError else .suspend (embed (.backingOff remaining lastError timer))

/-- An attempt has a result; `again` is the rest of the loop. -/
def settle (remaining : Nat) (again : String → Script State) : Except String String → Script State
  | .ok result => continuation (.ok result)
  | .error message =>
      if 0 < remaining then
        let delay := call.policy.delayForAttempt (call.policy.maxAttempts - remaining)
        if delay.isZero then again message
        else scheduleTimer delay fun timer => pollBackoff embed remaining message timer again
      else continuation (.error message)

/-- The deadline's turn in the race: when it wins, the activity is dropped. -/
def pollDeadline (remaining activity deadline : Nat) : Script State :=
  .call (.pollFuture deadline) fun reply =>
    if reply.isSome then .call (.dropFuture activity) fun _ => continuation (.error timedOut)
    else .suspend (embed (.racing remaining activity deadline))

/-- The loop with some attempts left. -/
def attemptFrom : Nat → String → Script State
  | 0, lastError => continuation (.error lastError)
  | remaining + 1, _ =>
      .call (.scheduleActivity call.name call.input call.sessionId) fun activity =>
      .call (.pollFuture activity) fun reply =>
        match activityResult reply, call.policy.timeout with
        | some result, _ => settle call embed continuation remaining (attemptFrom remaining) result
        | none, none => .suspend (embed (.awaiting remaining activity))
        -- The deadline starts when it is polled.
        | none, some timeout => scheduleTimer timeout fun deadline =>
            pollDeadline embed continuation remaining activity deadline

/-- The first poll of the call. -/
def start : Script State := attemptFrom call embed continuation call.policy.maxAttempts ""

/-- A later poll of the call. -/
def resume : RetryState → Script State
  | .awaiting remaining activity =>
      .call (.pollFuture activity) fun reply =>
        match activityResult reply with
        | some result => settle call embed continuation remaining (attemptFrom call embed continuation remaining) result
        | none => .suspend (embed (.awaiting remaining activity))
  | .racing remaining activity deadline =>
      .call (.pollFuture activity) fun reply =>
        match activityResult reply with
        | some result => .call (.dropFuture deadline) fun _ =>
            settle call embed continuation remaining (attemptFrom call embed continuation remaining) result
        | none => pollDeadline embed continuation remaining activity deadline
  | .backingOff remaining lastError timer =>
      pollBackoff embed remaining lastError timer (attemptFrom call embed continuation remaining)

end

/-- An orchestration that returns what the call returns. -/
def handler (call : RetryCall) : OrchestrationHandler where
  State := Option RetryState
  invoke _ := none
  poll
    | none => call.start some .finish
    | some state => call.resume some .finish state

end RetryCall

end Duroxide
