import Duroxide.Model.WorkItem
import Mathlib.Data.Finset.Insert
import Mathlib.Data.List.AList

/-! # The orchestration context of one turn

A fresh context is built for every turn. Orchestration code emits actions and polls durable futures
through it; the replay engine binds tokens to schedule ids and delivers completions. Tables that the
source only looks up are functions, tables that it also iterates over are association lists. Wakers
are omitted: whenever one fires the engine has already decided to poll again. The replaying flag
only silences log output and is omitted with it.
-/

namespace Duroxide

/-- Positional external events: a subscription owns one index of its name's arrivals. -/
structure ExternalEvents where
  subscriptions : AList (fun _ : Nat => String × Nat) := ∅
  arrivals : String → List String := fun _ => []
  nextIndex : String → Nat := fun _ => 0
  cancelledSubscriptions : Finset Nat := ∅

/-- A persistent subscription that consumed an arrival, with the arrival it consumed. -/
structure Resolution where
  scheduleId : Nat
  name : String
  index : Nat
  data : String
deriving DecidableEq, Repr

/-- Persistent events (mailbox semantics), matched first in, first out. The source keeps the schedule ids
of the resolved subscriptions; the model also remembers what each of them consumed. -/
structure QueueEvents where
  subscriptions : List (Nat × String) := []
  arrivals : String → List String := fun _ => []
  cancelledSubscriptions : Finset Nat := ∅
  resolvedSubscriptions : List Resolution := []

/-- What a future handed to orchestration code remembers: its kind, the value it was first ready with
and whether it was dropped. -/
structure DurableFuture where
  kind : ScheduleKind
  value : Option CompletionResult := none
  dropped : Bool := false
deriving DecidableEq, Repr

def DurableFuture.completed (future : DurableFuture) : Bool := future.value.isSome

structure CtxInner where
  nextToken : Nat := 0
  emittedActions : List (Nat × Action) := []
  completionResults : Nat → Option CompletionResult := fun _ => none
  tokenBindings : Nat → Option Nat := fun _ => none
  scheduleBindings : Nat → Option Nat := fun _ => none
  external : ExternalEvents := {}
  queue : QueueEvents := {}
  subOrchestrationInstances : Nat → Option String := fun _ => none
  cancelledTokens : List Nat := []
  cancelledTokenKinds : Nat → Option ScheduleKind := fun _ => none
  futures : Nat → Option DurableFuture := fun _ => none
  executionId : Nat
  instanceId : String
  orchestrationName : String
  orchestrationVersion : String
  accumulatedCustomStatus : Option String := none
  kvState : AList (fun _ : String => String) := ∅
  kvMetadata : AList (fun _ : String => Nat) := ∅
  nowMs : Nat

namespace ExternalEvents

/-- Bind an external subscription to the next index of its name. -/
def bindExternalSubscription (external : ExternalEvents) (scheduleId : Nat) (name : String) : ExternalEvents :=
  { external with
    nextIndex := Function.update external.nextIndex name (external.nextIndex name + 1)
    subscriptions := external.subscriptions.insert scheduleId (name, external.nextIndex name) }

/-- Whether an active subscription of this name has no arrival yet. -/
def hasPendingSubscriptionSlot (external : ExternalEvents) (name : String) : Bool :=
  let activeSubs := external.subscriptions.entries.countP fun sub =>
    sub.2.1 == name && sub.1 ∉ external.cancelledSubscriptions
  activeSubs > (external.arrivals name).length

def deliverExternalEvent (external : ExternalEvents) (name data : String) : ExternalEvents :=
  { external with arrivals := Function.update external.arrivals name (external.arrivals name ++ [data]) }

/-- The arrival at a subscription's index, compressed by the cancelled subscriptions below it. -/
def getExternalEvent (external : ExternalEvents) (scheduleId : Nat) : Option String := do
  let (name, subscriptionIndex) ← external.subscriptions.lookup scheduleId
  if scheduleId ∈ external.cancelledSubscriptions then none else
  let cancelledBelow := external.subscriptions.entries.countP fun sub =>
    sub.2.1 == name && sub.2.2 < subscriptionIndex &&
      external.subscriptions.entries.any fun other =>
        other.2.1 == name && other.2.2 == sub.2.2 && other.1 ∈ external.cancelledSubscriptions
  (external.arrivals name)[subscriptionIndex - cancelledBelow]?

def markExternalSubscriptionCancelled (external : ExternalEvents) (scheduleId : Nat) : ExternalEvents :=
  { external with cancelledSubscriptions := insert scheduleId external.cancelledSubscriptions }

end ExternalEvents

namespace QueueEvents

def bindQueueSubscription (queue : QueueEvents) (scheduleId : Nat) (name : String) : QueueEvents :=
  { queue with subscriptions := queue.subscriptions ++ [(scheduleId, name)] }

def deliverQueueMessage (queue : QueueEvents) (name data : String) : QueueEvents :=
  { queue with arrivals := Function.update queue.arrivals name (queue.arrivals name ++ [data]) }

def markQueueSubscriptionCancelled (queue : QueueEvents) (scheduleId : Nat) : QueueEvents :=
  { queue with cancelledSubscriptions := insert scheduleId queue.cancelledSubscriptions }

/-- The name a subscription was bound under. -/
def subscriptionName (queue : QueueEvents) (scheduleId : Nat) : Option String :=
  (queue.subscriptions.find? fun sub => sub.1 == scheduleId).map (·.2)

/-- The number of active (non-cancelled) subscriptions for a name created before a subscription. -/
def arrivalIndex (queue : QueueEvents) (scheduleId : Nat) (name : String) : Nat :=
  (queue.subscriptions.takeWhile fun sub => sub.1 != scheduleId).countP fun sub =>
    sub.2 == name && sub.1 ∉ queue.cancelledSubscriptions

def isResolved (queue : QueueEvents) (scheduleId : Nat) : Bool :=
  queue.resolvedSubscriptions.any (·.scheduleId == scheduleId)

/-- Take the message of a subscription, marking the subscription resolved. -/
def getQueueMessage (queue : QueueEvents) (scheduleId : Nat) : Option String × QueueEvents :=
  match queue.subscriptionName scheduleId with
  | none => (none, queue)
  | some name =>
      if queue.isResolved scheduleId then (none, queue)
      else if scheduleId ∈ queue.cancelledSubscriptions then (none, queue)
      else
        let index := queue.arrivalIndex scheduleId name
        match (queue.arrivals name)[index]? with
        | some data => (some data, { queue with
            resolvedSubscriptions := queue.resolvedSubscriptions ++ [⟨scheduleId, name, index, data⟩] })
        | none => (none, queue)

end QueueEvents

namespace CtxInner

/-- A context at the start of a turn. -/
def new (executionId : Nat) (instanceId orchestrationName orchestrationVersion : String) (nowMs : Nat) : CtxInner :=
  { executionId, instanceId, orchestrationName, orchestrationVersion, nowMs }

/-- Emit an action and return a token for correlation. -/
def emitAction (ctx : CtxInner) (action : Action) : Nat × CtxInner :=
  let token := ctx.nextToken + 1
  (token, { ctx with nextToken := token, emittedActions := ctx.emittedActions ++ [(token, action)] })

def drainEmittedActions (ctx : CtxInner) : List (Nat × Action) × CtxInner :=
  (ctx.emittedActions, { ctx with emittedActions := [] })

/-- Bind a token to a schedule id, releasing the schedule it was bound to before. -/
def bindToken (ctx : CtxInner) (token scheduleId : Nat) : CtxInner :=
  let released := match ctx.tokenBindings token with
    | some oldScheduleId => Function.update ctx.scheduleBindings oldScheduleId none
    | none => ctx.scheduleBindings
  { ctx with
    tokenBindings := Function.update ctx.tokenBindings token (some scheduleId)
    scheduleBindings := Function.update released scheduleId (some token) }

/-- Deliver a completion to the token bound to a schedule; without a binding it is dropped. -/
def deliverResult (ctx : CtxInner) (scheduleId : Nat) (result : CompletionResult) : CtxInner :=
  match ctx.scheduleBindings scheduleId with
  | some token => { ctx with completionResults := Function.update ctx.completionResults token (some result) }
  | none => ctx

def bindSubOrchestrationInstance (ctx : CtxInner) (token : Nat) (instanceId : String) : CtxInner :=
  { ctx with subOrchestrationInstances := Function.update ctx.subOrchestrationInstances token (some instanceId) }

/-- Record a future dropped before completion. -/
def markTokenCancelled (ctx : CtxInner) (token : Nat) (kind : ScheduleKind) : CtxInner :=
  { ctx with
    cancelledTokens := ctx.cancelledTokens.insert token
    cancelledTokenKinds := Function.update ctx.cancelledTokenKinds token (some kind) }

/-- Schedule ids of the dropped and bound tokens whose kind satisfies a test. -/
def cancelledIds (ctx : CtxInner) (kindMatches : ScheduleKind → Bool) : List Nat :=
  ctx.cancelledTokens.filterMap fun token =>
    if (ctx.cancelledTokenKinds token).any kindMatches then ctx.tokenBindings token else none

def getCancelledActivityIds (ctx : CtxInner) : List Nat :=
  ctx.cancelledIds fun | .activity _ => true | _ => false

def getCancelledExternalWaitIds (ctx : CtxInner) : List Nat :=
  ctx.cancelledIds fun | .externalWait _ => true | _ => false

def getCancelledQueueIds (ctx : CtxInner) : List Nat :=
  ctx.cancelledIds fun | .queueDequeue _ => true | _ => false

/-- Schedule ids and child instances of the dropped sub-orchestrations whose action was bound. -/
def getCancelledSubOrchestrationCancellations (ctx : CtxInner) : List (Nat × String) :=
  ctx.cancelledTokens.filterMap fun token =>
    match ctx.cancelledTokenKinds token with
    | some (.subOrchestration subToken) => do
        let scheduleId ← ctx.tokenBindings token
        let instanceId ← ctx.subOrchestrationInstances subToken
        return (scheduleId, instanceId)
    | _ => none

def clearCancelledTokens (ctx : CtxInner) : CtxInner :=
  { ctx with cancelledTokens := [], cancelledTokenKinds := fun _ => none }

/-- Apply a change to the persistent event state. -/
def mapQueue (ctx : CtxInner) (change : QueueEvents → QueueEvents) : CtxInner :=
  { ctx with queue := change ctx.queue }

/-- Apply a change to the positional event state. -/
def mapExternal (ctx : CtxInner) (change : ExternalEvents → ExternalEvents) : CtxInner :=
  { ctx with external := change ctx.external }

end CtxInner

end Duroxide
