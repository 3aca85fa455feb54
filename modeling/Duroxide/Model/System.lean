import Duroxide.Lib.Run
import Duroxide.Model.WorkerQueue

/-! # The whole system

One database, any number of dispatchers and workers, and clients. A dispatcher or a worker is known by
the lock token of what it holds: it fetches an item under a fresh token, decides, and answers with
provider calls, each of which may fail without an effect. Crashes are runs in which a holder takes no
further step. Every call reads its own clock, so nothing is assumed about clocks; the database error
of a call is an argument of its step.
-/

namespace Duroxide

open Lib.Database

/-- How far the holder of an orchestration item got. -/
inductive TurnPhase (semver : Semver) where
  | fetched
  | acking (request : AckRequest semver) (fallback : Option (ProviderError → AckRequest semver))
      (failed : Option ProviderError)
  | abandoning (delayMs : Option Nat) (ignoreAttempt : Bool)
  | done

/-- What a dispatcher does next about its decision. -/
def Decision.phase {semver : Semver} : Decision semver → TurnPhase semver
  | .abandon delayMs ignoreAttempt => .abandoning delayMs ignoreAttempt
  | .ack request fallback => .acking request fallback none

/-- An orchestration item in the hands of a dispatcher. -/
structure Delivery (semver : Semver) where
  item : OrchestrationItem
  attemptCount : Nat
  phase : TurnPhase semver := .fetched

/-- A work item in the hands of a worker; a failed lock renewal cancels it. -/
structure WorkDelivery where
  workItem : WorkItem
  attemptCount : Nat
  cancelled : Bool := false
deriving DecidableEq, Repr

structure World (semver : Semver) where
  store : Store := {}
  deliveries : Nat → Option (Delivery semver) := fun _ => none
  work : Nat → Option WorkDelivery := fun _ => none

/-- The messages that clients enqueue. -/
def WorkItem.isClientItem : WorkItem → Bool
  | .startOrchestration _ _ _ _ none none executionId => executionId == INITIAL_EXECUTION_ID
  | .externalRaised .. | .queueMessage .. | .cancelInstance .. => true
  | _ => false

/-- The database errors of a call: a fault at one of its statements, or none. -/
abbrev Fault := Option (Nat × SqlxError)

inductive Step (semver : Semver) where
  | client (now : Nat) (item : WorkItem)
  | fetch (config : ProviderConfig) (filter : Option (List (SemverRange semver)))
      (now lockTimeoutMs token : Nat) (fault : Fault)
  | decide (token : Nat) (env : RuntimeEnv semver)
  | ack (config : ProviderConfig) (now token : Nat) (fault : Fault)
  | failTurn (token : Nat)
  | abandon (now token : Nat)
  | renew (now token extendMs : Nat)
  | fetchWork (now lockTimeoutMs token : Nat) (session : Option Provider.SessionFetchConfig)
      (filter : Provider.TagFilter)
  | renewWork (now token extendMs : Nat) (error : Option ProviderError)
  | completeWork (now token : Nat) (maxAttempts : Nat) (outcome : Except String String)
  | dropWork (now token : Nat)
  | abandonWork (now token : Nat) (delayMs : Option Nat) (ignoreAttempt : Bool)

/-- What a worker reports of an activity: its outcome, or that it was fetched too often. -/
def activityCompletion (maxAttempts : Nat) (serialize : WorkItem → String) (held : WorkDelivery)
    (outcome : Except String String) : Option WorkItem :=
  match held.workItem with
  | .activityExecute instanceId executionId id name _ _ _ =>
      if held.attemptCount > maxAttempts then
        some (.activityFailed instanceId executionId id (.poison held.attemptCount maxAttempts
          (.activity instanceId executionId name id) (serialize held.workItem)))
      else match outcome with
        | .ok result => some (.activityCompleted instanceId executionId id result)
        | .error message =>
            some (.activityFailed instanceId executionId id (.application .activityFailed message false))
  | _ => none

namespace World

variable {semver : Semver}

def setDelivery (world : World semver) (token : Nat) (delivery : Delivery semver) : World semver :=
  { world with deliveries := Function.update world.deliveries token (some delivery) }

def setPhase (world : World semver) (token : Nat) (delivery : Delivery semver) (phase : TurnPhase semver) :
    World semver :=
  world.setDelivery token { delivery with phase }

def setWork (world : World semver) (token : Nat) (held : WorkDelivery) : World semver :=
  { world with work := Function.update world.work token (some held) }

@[simp] theorem setDelivery_self (world : World semver) (token : Nat) (delivery : Delivery semver) :
    (world.setDelivery token delivery).deliveries token = some delivery := Function.update_self ..

theorem setDelivery_of_ne (world : World semver) {token other : Nat} (delivery : Delivery semver)
    (differs : other ≠ token) : (world.setDelivery token delivery).deliveries other = world.deliveries other :=
  Function.update_of_ne differs ..

/-- A token that nobody was given yet. -/
def isFresh (world : World semver) (token : Nat) : Bool :=
  (world.deliveries token).isNone && (world.work token).isNone

/-- A fetch under a fresh token. -/
def fetch (world : World semver) (config : ProviderConfig) (filter : Option (List (SemverRange semver)))
    (now lockTimeoutMs token : Nat) (fault : Fault) : Option (World semver) :=
  if world.isFresh token then
    let (result, conn) :=
      Provider.fetchOrchestrationItem config filter now lockTimeoutMs token (Conn.open world.store fault)
    let world := { world with store := conn.committed }
    match result with
    | .ok (some (item, _, attemptCount)) => some (world.setDelivery token { item, attemptCount })
    | _ => some world
  else none

/-- The dispatcher decides what to do with an item it fetched. -/
def decide (world : World semver) (token : Nat) (env : RuntimeEnv semver) : Option (World semver) := do
  let delivery ← world.deliveries token
  match delivery.phase with
  | .fetched =>
      some (world.setPhase token delivery
        (Dispatcher.handleFetchedItem env delivery.item delivery.attemptCount).phase)
  | _ => none

/-- One attempt to acknowledge; a failed attempt may be repeated. -/
def ack (world : World semver) (config : ProviderConfig) (now token : Nat) (fault : Fault) :
    Option (World semver) := do
  let delivery ← world.deliveries token
  match delivery.phase with
  | .acking request fallback _ =>
      let (result, conn) := Provider.ackOrchestrationItem config now token request (Conn.open world.store fault)
      let world := { world with store := conn.committed }
      match result with
      | .ok () => some (world.setPhase token delivery .done)
      | .error error => some (world.setPhase token delivery (.acking request fallback (some error)))
  | _ => none

/-- After a failed acknowledgement the dispatcher turns to committing the failure of the orchestration. -/
def failTurn (world : World semver) (token : Nat) : Option (World semver) := do
  let delivery ← world.deliveries token
  match delivery.phase with
  | .acking _ (some fallback) (some error) => some (world.setPhase token delivery (.acking (fallback error) none none))
  | _ => none

def abandon (world : World semver) (now token : Nat) : Option (World semver) := do
  let delivery ← world.deliveries token
  match delivery.phase with
  | .abandoning delayMs ignoreAttempt =>
      match Provider.abandonOrchestrationItem world.store now token delayMs ignoreAttempt with
      | .ok store => some ({ world with store }.setPhase token delivery .done)
      | .error _ => some (world.setPhase token delivery .done)
  | _ => none

/-- The lock of an item is extended in the background. -/
def renew (world : World semver) (now token extendMs : Nat) : Option (World semver) :=
  if (world.deliveries token).isSome then
    match Provider.renewOrchestrationItemLock world.store now token extendMs with
    | .ok store => some { world with store }
    | .error _ => some world
  else none

def fetchWork (world : World semver) (now lockTimeoutMs token : Nat) (session : Option Provider.SessionFetchConfig)
    (filter : Provider.TagFilter) : Option (World semver) :=
  if world.isFresh token then do
    let ((workItem, attemptCount), store) ← Provider.fetchWorkItem world.store now lockTimeoutMs token session filter
    return { world with store }.setWork token { workItem, attemptCount }
  else none

/-- The activity manager renews the lock; any error of the call signals cancellation. -/
def renewWork (world : World semver) (now token extendMs : Nat) (error : Option ProviderError) :
    Option (World semver) := do
  let held ← world.work token
  match error, Provider.renewWorkItemLock world.store now token extendMs with
  | none, .ok store => some { world with store }
  | _, _ => some (world.setWork token { held with cancelled := true })

/-- The activity ended, or was fetched too often: acknowledge with its completion. -/
def completeWork (world : World semver) (now token maxAttempts : Nat) (outcome : Except String String) :
    Option (World semver) := do
  let held ← world.work token
  let completion ← activityCompletion maxAttempts (fun _ => "") held outcome
  match Provider.ackWorkItem world.store now token (some completion) with
  | .ok store => some { world with store }
  | .error _ => some world

/-- A cancelled activity is acknowledged without a completion. -/
def dropWork (world : World semver) (now token : Nat) : Option (World semver) := do
  let held ← world.work token
  if held.cancelled then
    match Provider.ackWorkItem world.store now token none with
    | .ok store => some { world with store }
    | .error _ => some world
  else none

def abandonWork (world : World semver) (now token : Nat) (delayMs : Option Nat) (ignoreAttempt : Bool) :
    Option (World semver) := do
  let _ ← world.work token
  match Provider.abandonWorkItem world.store now token delayMs ignoreAttempt with
  | .ok store => some { world with store }
  | .error _ => some world

def client (world : World semver) (now : Nat) (item : WorkItem) : Option (World semver) :=
  if item.isClientItem then
    match Provider.enqueueForOrchestrator world.store now item none with
    | .ok store => some { world with store }
    | .error _ => some world
  else none

/-- One step of the system; none when the step is not possible. -/
def step (world : World semver) : Step semver → Option (World semver)
  | .client now item => world.client now item
  | .fetch config filter now lockTimeoutMs token fault => world.fetch config filter now lockTimeoutMs token fault
  | .decide token env => world.decide token env
  | .ack config now token fault => world.ack config now token fault
  | .failTurn token => world.failTurn token
  | .abandon now token => world.abandon now token
  | .renew now token extendMs => world.renew now token extendMs
  | .fetchWork now lockTimeoutMs token session filter => world.fetchWork now lockTimeoutMs token session filter
  | .renewWork now token extendMs error => world.renewWork now token extendMs error
  | .completeWork now token maxAttempts outcome => world.completeWork now token maxAttempts outcome
  | .dropWork now token => world.dropWork now token
  | .abandonWork now token delayMs ignoreAttempt => world.abandonWork now token delayMs ignoreAttempt

end World

/-- The system starts on an empty database. -/
def system (semver : Semver) : Lib.TransitionSystem (World semver) (Step semver) where
  initial world := world = {}
  step source label target := source.step label = some target

/-- Run a list of steps. -/
def World.run {semver : Semver} (world : World semver) : List (Step semver) → Option (World semver)
  | [] => some world
  | label :: rest => (world.step label).bind (·.run rest)

/-- A run of steps reaches its last state. -/
theorem World.reachable_of_run {semver : Semver} {world after : World semver} {labels : List (Step semver)}
    (reached : (system semver).Reachable (fun _ _ => True) world) (ran : world.run labels = some after) :
    (system semver).Reachable (fun _ _ => True) after := by
  induction labels generalizing world with
  | nil =>
    cases ran
    exact reached
  | cons label rest ih =>
    obtain ⟨middle, taken, later⟩ := Option.bind_eq_some_iff.mp ran
    exact ih (.step reached trivial taken) later

end Duroxide
