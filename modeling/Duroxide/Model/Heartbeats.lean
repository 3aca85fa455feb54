import Duroxide.Lib.Run
import Duroxide.Model.Orchestration
import Duroxide.Model.Store
import Mathlib.Data.Rat.Floor

/-! # Heartbeats

How often the runtime renews its locks, what `start_with_options` checks of the options, and what a running
activity and its session look like while the heartbeats come on time. The clock and the intervals count
nanoseconds; the provider stores whole milliseconds and narrows a timeout to 64 bits before it adds it.
-/

namespace Duroxide

/-- The timeouts among the options. -/
structure RuntimeOptions where
  orchestratorLockTimeout : Duration
  orchestratorLockRenewalBuffer : Duration
  workerLockTimeout : Duration
  workerLockRenewalBuffer : Duration
  sessionLockTimeout : Duration
  sessionLockRenewalBuffer : Duration
  sessionIdleTimeout : Duration

def SECOND : Nat := 1000000000

def MILLISECOND : Nat := 1000000

/-- `Duration::checked_sub`, in nanoseconds. -/
def checkedSub (nanos other : Nat) : Option Nat := if other ≤ nanos then some (nanos - other) else none

/-- `Duration::as_secs_f64`, without rounding. -/
def Duration.asSecs (duration : Duration) : ℚ := duration.asNanos / SECOND

/-- The interval between two renewals; both dispatchers have this function. -/
def calculateRenewalInterval (lockTimeout buffer : Duration) : Nat :=
  if 15 * SECOND ≤ lockTimeout.asNanos then
    let buffer := min buffer.asNanos lockTimeout.asNanos
    max ((checkedSub lockTimeout.asNanos buffer).getD SECOND) SECOND
  else
    let half := max ⌈lockTimeout.asSecs * (1 / 2)⌉ 1
    half.toNat * SECOND

namespace RuntimeOptions

/-- `start_with_options` panics when a session would be idle after this interval already. -/
def accepted (options : RuntimeOptions) : Bool :=
  let workerRenewalInterval :=
    (checkedSub options.workerLockTimeout.asNanos options.workerLockRenewalBuffer.asNanos).getD SECOND
  !(options.sessionIdleTimeout.asNanos ≤ workerRenewalInterval)

def orchestratorRenewalInterval (options : RuntimeOptions) : Nat :=
  calculateRenewalInterval options.orchestratorLockTimeout options.orchestratorLockRenewalBuffer

def workerRenewalInterval (options : RuntimeOptions) : Nat :=
  calculateRenewalInterval options.workerLockTimeout options.workerLockRenewalBuffer

def sessionRenewalInterval (options : RuntimeOptions) : Nat :=
  calculateRenewalInterval options.sessionLockTimeout options.sessionLockRenewalBuffer

end RuntimeOptions

/-! ## The lease of a running activity -/

def nowMillis (clock : Nat) : Int := (clock / MILLISECOND : Nat)

def timestampAfter (clock : Nat) (duration : Duration) : Int := nowMillis clock + asI64 duration.asMillis

/-- The columns that keep a work item and its session with a worker. -/
structure Lease where
  lockedUntil : Int
  sessionLockedUntil : Int
  lastActivityAt : Int
deriving DecidableEq, Repr

namespace Lease

variable (options : RuntimeOptions)

/-- Fetching the item locks it and claims its session. -/
def fetch (clock : Nat) : Lease where
  lockedUntil := timestampAfter clock options.workerLockTimeout
  sessionLockedUntil := timestampAfter clock options.sessionLockTimeout
  lastActivityAt := nowMillis clock

/-- The work item is locked. -/
def held (clock : Nat) (lease : Lease) : Bool := nowMillis clock < lease.lockedUntil

/-- Extend the lock that is held, and note that the session is in use while it is held. -/
def renewWorkItemLock (clock : Nat) (lease : Lease) : Option Lease :=
  if lease.held clock then
    some
      { lease with
        lockedUntil := timestampAfter clock options.workerLockTimeout
        lastActivityAt := if nowMillis clock < lease.sessionLockedUntil then nowMillis clock else lease.lastActivityAt }
  else none

/-- The condition under which `renew_session_lock` renews a session of its owner. -/
def sessionInUse (clock : Nat) (lease : Lease) : Bool :=
  nowMillis clock < lease.sessionLockedUntil &&
    nowMillis clock - asI64 options.sessionIdleTimeout.asMillis < lease.lastActivityAt

def renewSessionLock (clock : Nat) (lease : Lease) : Lease :=
  if lease.sessionInUse options clock then
    { lease with sessionLockedUntil := timestampAfter clock options.sessionLockTimeout }
  else lease

end Lease

/-! ## Heartbeats on time -/

/-- A running activity: its lease, the clock, and when each heartbeat last came. The activity manager starts with
the activity, the session manager ticks from before. -/
structure Heartbeats where
  lease : Lease
  clock : Nat
  workRenewedAt : Nat
  sessionRenewedAt : Nat

inductive Heartbeat where
  | wait (later : Nat)
  | renewWorkItemLock
  | renewSessionLock

namespace Heartbeats

variable (options : RuntimeOptions) (workInterval sessionInterval : Nat)

def workDue (state : Heartbeats) : Nat := state.workRenewedAt + workInterval

def sessionDue (state : Heartbeats) : Nat := state.sessionRenewedAt + sessionInterval

/-- Time does not pass beyond a heartbeat that is due, each heartbeat comes when it is due, and an activity whose lock
is not renewed is cancelled. -/
def step (state : Heartbeats) : Heartbeat → Option Heartbeats
  | .wait later =>
      if state.clock ≤ later ∧ later ≤ state.workDue workInterval ∧ later ≤ state.sessionDue sessionInterval then
        some { state with clock := later }
      else none
  | .renewWorkItemLock =>
      if state.clock = state.workDue workInterval then
        (state.lease.renewWorkItemLock options state.clock).map fun lease =>
          { state with lease, workRenewedAt := state.clock }
      else none
  | .renewSessionLock =>
      if state.clock = state.sessionDue sessionInterval then
        some { state with lease := state.lease.renewSessionLock options state.clock, sessionRenewedAt := state.clock }
      else none

/-- An activity that was fetched between two ticks of the session manager. -/
def fetched (fetchedAt tickedAt : Nat) : Heartbeats where
  lease := .fetch options fetchedAt
  clock := fetchedAt
  workRenewedAt := fetchedAt
  sessionRenewedAt := tickedAt

def system : Lib.TransitionSystem Heartbeats Heartbeat where
  initial state := ∃ fetchedAt tickedAt, tickedAt ≤ fetchedAt ∧ fetchedAt ≤ tickedAt + sessionInterval ∧
    state = fetched options fetchedAt tickedAt
  step state label next := step options workInterval sessionInterval state label = some next

/-- In every run the activity holds its lock and each tick of the session manager renews its session. -/
structure KeepLeases : Prop where
  held : ∀ state, (system options workInterval sessionInterval).Reachable (fun _ _ => True) state →
    state.lease.held state.clock
  inUse : ∀ state, (system options workInterval sessionInterval).Reachable (fun _ _ => True) state →
    state.clock = state.sessionDue sessionInterval → state.lease.sessionInUse options state.clock

end Heartbeats

/-- Renewal intervals are shorter than what they renew, and heartbeats that come on time keep the leases. -/
structure RuntimeOptions.HeartbeatsKeepLeases (options : RuntimeOptions) : Prop where
  orchestrator : options.orchestratorRenewalInterval < options.orchestratorLockTimeout.asNanos
  worker : options.workerRenewalInterval < options.workerLockTimeout.asNanos
  session : options.sessionRenewalInterval < options.sessionLockTimeout.asNanos
  idle : options.workerRenewalInterval < options.sessionIdleTimeout.asNanos
  keeps : Heartbeats.KeepLeases options options.workerRenewalInterval options.sessionRenewalInterval

end Duroxide
