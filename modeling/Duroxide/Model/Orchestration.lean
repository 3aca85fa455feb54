import Duroxide.Model.Context
import Mathlib.Algebra.Group.Nat.Defs

/-! # Orchestration code as a deterministic program

Orchestration code is an async function over the context. Between two suspension points it makes
finitely many context calls, so one poll is a `Script`: a well-founded tree whose branches are the
possible replies. Everything a program can observe comes from those replies, which makes it
deterministic by construction; joins, selects and timeouts are compositions of polls and drops.
-/

namespace Duroxide

inductive CtxCall where
  | scheduleActivity (name input : String) (sessionId : Option String)
  | scheduleTimer (delayMs : Nat)
  | scheduleWait (name : String)
  | dequeueEvent (queue : String)
  | scheduleSubOrchestration (name : String) (version instanceId : Option String) (input : String)
  | scheduleOrchestration (name : String) (version : Option String) (instanceId input : String)
  | continueAsNew (input : String) (version : Option String)
  | withTag (token : Nat) (tag : String)
  | pollFuture (token : Nat)
  | dropFuture (token : Nat)
  | setCustomStatus (status : String)
  | resetCustomStatus
  | getCustomStatus
  | setKvValue (key value : String)
  | getKvValue (key : String)
  | getKvLength
  | clearKvValue (key : String)
  | clearAllKvValues
  | pruneKvValuesUpdatedBefore (updatedBeforeMs : Nat)
deriving DecidableEq, Repr

/-- What orchestration code learns from a call. -/
def CtxCall.Reply : CtxCall → Type
  | .scheduleActivity .. | .scheduleTimer _ | .scheduleWait _ | .dequeueEvent _
  | .scheduleSubOrchestration .. => Nat
  | .pollFuture _ => Option CompletionResult
  | .getCustomStatus | .getKvValue _ => Option String
  | .getKvLength | .pruneKvValuesUpdatedBefore _ => Nat
  | _ => Unit

inductive Script (State : Type) where
  | suspend (state : State)
  | finish (output : Except String String)
  | panic (message : String)
  | call (request : CtxCall) (next : request.Reply → Script State)

/-- A registered orchestration: how it starts on an input and what one poll of it does. -/
structure OrchestrationHandler where
  State : Type
  invoke : String → State
  poll : State → Script State

namespace CtxInner

/-- `u64::saturating_add`. -/
def saturatingAdd (left right : Nat) : Nat := min (left + right) (2 ^ 64 - 1)

/-- Emit the action of a durable operation and hand out its future. -/
def schedule (ctx : CtxInner) (action : Action) (kind : Nat → ScheduleKind) : Nat × CtxInner :=
  let (token, ctx) := ctx.emitAction action
  (token, { ctx with futures := Function.update ctx.futures token (some { kind := kind token }) })

/-- The readiness test of a future, by kind; a dequeue consumes the message it returns. -/
def readyValue (ctx : CtxInner) (token : Nat) : ScheduleKind → Option CompletionResult × CtxInner
  | .activity _ =>
      (match ctx.completionResults token with
        | some (.activityOk result) => some (.activityOk result)
        | some (.activityErr message) => some (.activityErr message)
        | _ => none, ctx)
  | .timer =>
      (match ctx.completionResults token with
        | some .timerFired => some .timerFired
        | _ => none, ctx)
  | .subOrchestration _ =>
      (match ctx.completionResults token with
        | some (.subOrchOk result) => some (.subOrchOk result)
        | some (.subOrchErr message) => some (.subOrchErr message)
        | _ => none, ctx)
  | .externalWait _ =>
      ((ctx.tokenBindings token).bind fun boundId =>
        (ctx.external.getExternalEvent boundId).map .externalData, ctx)
  | .queueDequeue _ =>
      match ctx.tokenBindings token with
      | some boundId =>
          let (data, queue) := ctx.queue.getQueueMessage boundId
          (data.map .externalData, { ctx with queue })
      | none => (none, ctx)

/-- Poll a durable future that orchestration code still owns. -/
def pollFuture (ctx : CtxInner) (token : Nat) : Option CompletionResult × CtxInner :=
  match ctx.futures token with
  | some future =>
      if future.dropped then (none, ctx) else
      match ctx.readyValue token future.kind with
      | (some value, ctx) =>
          (some value, { ctx with
            futures := Function.update ctx.futures token (some { future with value := future.value <|> some value }) })
      | (none, ctx) => (none, ctx)
  | none => (none, ctx)

/-- Drop a durable future; a future that has not completed is recorded for cancellation. -/
def dropFuture (ctx : CtxInner) (token : Nat) : CtxInner :=
  match ctx.futures token with
  | some future =>
      if future.dropped then ctx else
      let ctx := { ctx with futures := Function.update ctx.futures token (some { future with dropped := true }) }
      if future.completed then ctx else ctx.markTokenCancelled token future.kind
  | none => ctx

/-- Set the routing tag of an activity that was emitted and not yet drained. -/
def withTag (ctx : CtxInner) (token : Nat) (tag : String) : Except String CtxInner :=
  match (ctx.futures token).map DurableFuture.kind with
  | some (ScheduleKind.activity _) =>
      if ctx.emittedActions.any (·.1 == token) then
        .ok { ctx with
          emittedActions := ctx.emittedActions.map fun emitted =>
            if emitted.1 == token then
              match emitted.2 with
              | .callActivity id name input sessionId _ => (token, .callActivity id name input sessionId (some tag))
              | action => (token, action)
            else emitted }
      else .error ("with_tag(): token " ++ toString token ++
        " not found in emitted_actions — actions were drained before with_tag() was called")
  | _ => .error "with_tag() can only be called on activity futures"

def setCustomStatus (ctx : CtxInner) (status : Option String) : CtxInner :=
  ({ ctx with accumulatedCustomStatus := status }.emitAction (.updateCustomStatus status)).2

def setKvValue (ctx : CtxInner) (key value : String) : CtxInner :=
  ({ ctx with kvState := ctx.kvState.insert key value, kvMetadata := ctx.kvMetadata.insert key ctx.nowMs }.emitAction
    (.setKeyValue key value ctx.nowMs)).2

def clearKvValue (ctx : CtxInner) (key : String) : CtxInner :=
  ({ ctx with kvState := ctx.kvState.erase key, kvMetadata := ctx.kvMetadata.erase key }.emitAction
    (.clearKeyValue key)).2

def clearAllKvValues (ctx : CtxInner) : CtxInner :=
  ({ ctx with kvState := ∅, kvMetadata := ∅ }.emitAction .clearKeyValues).2

/-- Keys whose recorded write time is older than a bound. -/
def staleKvKeys (ctx : CtxInner) (updatedBeforeMs : Nat) : List String :=
  (ctx.kvMetadata.entries.filter fun entry =>
    entry.2 < updatedBeforeMs && (ctx.kvState.lookup entry.1).isSome).map (·.1)

/-- One context call of orchestration code; `with_tag` is the only one that can panic. -/
def perform (ctx : CtxInner) : (request : CtxCall) → Except String (request.Reply × CtxInner)
  | .scheduleActivity name input sessionId =>
      .ok (ctx.schedule (.callActivity 0 name input sessionId none) fun _ => .activity name)
  | .scheduleTimer delayMs =>
      .ok (ctx.schedule (.createTimer 0 (saturatingAdd ctx.nowMs delayMs)) fun _ => .timer)
  | .scheduleWait name => .ok (ctx.schedule (.waitExternal 0 name) fun _ => .externalWait name)
  | .dequeueEvent name => .ok (ctx.schedule (.dequeueEvent 0 name) fun _ => .queueDequeue name)
  | .scheduleSubOrchestration name version instanceId input =>
      let actionInstance := instanceId.getD (SUB_ORCH_PENDING_PREFIX ++ toString (ctx.nextToken + 1))
      .ok (ctx.schedule (.startSubOrchestration 0 name version actionInstance input) .subOrchestration)
  | .scheduleOrchestration name version instanceId input =>
      .ok ((), (ctx.emitAction (.startOrchestrationDetached 0 name version instanceId input)).2)
  | .continueAsNew input version => .ok ((), (ctx.emitAction (.continueAsNew input version)).2)
  | .withTag token tag => (ctx.withTag token tag).map fun ctx => ((), ctx)
  | .pollFuture token => .ok (ctx.pollFuture token)
  | .dropFuture token => .ok ((), ctx.dropFuture token)
  | .setCustomStatus status => .ok ((), ctx.setCustomStatus (some status))
  | .resetCustomStatus => .ok ((), ctx.setCustomStatus none)
  | .getCustomStatus => .ok (ctx.accumulatedCustomStatus, ctx)
  | .setKvValue key value => .ok ((), ctx.setKvValue key value)
  | .getKvValue key => .ok (ctx.kvState.lookup key, ctx)
  | .getKvLength => .ok (ctx.kvState.keys.length, ctx)
  | .clearKvValue key => .ok ((), ctx.clearKvValue key)
  | .clearAllKvValues => .ok ((), ctx.clearAllKvValues)
  | .pruneKvValuesUpdatedBefore updatedBeforeMs =>
      let stale := ctx.staleKvKeys updatedBeforeMs
      .ok (stale.length, stale.foldl clearKvValue ctx)

end CtxInner

/-- `std::time::Duration`. -/
structure Duration where
  secs : Nat
  nanos : Nat
  secsFit : secs < 2 ^ 64
  subsecond : nanos < 1000000000

/-- Whole milliseconds, a 128-bit number. -/
def Duration.asMillis (duration : Duration) : Nat := duration.secs * 1000 + duration.nanos / 1000000

def Duration.asNanos (duration : Duration) : Nat := duration.secs * 1000000000 + duration.nanos

/-- `schedule_timer` narrows its delay to 64 bits. -/
def CtxInner.scheduleTimer (ctx : CtxInner) (delay : Duration) : Except String (Nat × CtxInner) :=
  ctx.perform (.scheduleTimer (delay.asMillis % 2 ^ 64))

/-- How one poll of orchestration code ended. -/
inductive PollResult (State : Type) where
  | pending (state : State)
  | ready (output : Except String String)
  | panicked (message : String)

/-- Run one poll of orchestration code against the context. -/
def Script.run {State : Type} : Script State → CtxInner → PollResult State × CtxInner
  | .suspend state, ctx => (.pending state, ctx)
  | .finish output, ctx => (.ready output, ctx)
  | .panic message, ctx => (.panicked message, ctx)
  | .call request next, ctx =>
      match ctx.perform request with
      | .ok (reply, ctx) => (next reply).run ctx
      | .error message => (.panicked message, ctx)

end Duroxide
