import Duroxide.Model.ReplayEngine

/-! # Polls and the replay flag

The context tells the program whether it is replaying. The flag starts set, is cleared at the first event behind the
persisted ones, and for good behind the last event; a poll that an event has asked for takes place with the flag of
the next event. Here an evaluation is run again with a record of its polls.
-/

namespace Duroxide

/-- One run of the program from a suspension point to the next: how many events it has seen, read or recorded, and
the flag of its context. `trace_internal` logs its trace calls exactly if the flag is clear. -/
structure Poll where
  seen : Nat
  isReplaying : Bool
deriving DecidableEq, Repr

namespace Replay

variable {State : Type}

/-- Apply history in order and record the polls in between; the flag is cleared from the replay boundary on. -/
def applyHistoryPolled (poll : State → Script State) (replayBoundary : Nat) :
    List Event → Nat → Bool → Replay State → List Poll × Except TurnResult (Replay State)
  | [], _, _, replay => ([], .ok replay)
  | event :: rest, eventIndex, isReplaying, replay =>
      let isReplaying := if replayBoundary ≤ eventIndex then false else isReplaying
      let polls := if replay.mustPoll then [⟨eventIndex, isReplaying⟩] else []
      match replay.pollIfNeeded poll with
      | .error result => (polls, .error result)
      | .ok replay =>
          if replay.output.isSome then (polls, .ok replay)
          else match replay.applyHistoryEvent event with
            | .error result => (polls, .error result)
            | .ok replay =>
                let (later, last) := replay.applyHistoryPolled poll replayBoundary rest (eventIndex + 1) isReplaying
                (polls ++ later, last)

end Replay

namespace ReplayEngine

variable {State : Type}

/-- The part of a turn that replays history; without persisted events the flag is cleared before it. -/
def replayHistoryPolled (engine : ReplayEngine) (handler : OrchestrationHandler) (input orchestrationName
    orchestrationVersion : String) (workingHistory : List Event) :
    List Poll × Except TurnResult (Replay handler.State) :=
  let ctx := engine.seedContext orchestrationName orchestrationVersion
  let ctx := { ctx with accumulatedCustomStatus := initialCustomStatusOf workingHistory }
  let replay : Replay handler.State := { ctx, fut := handler.invoke input }
  let isReplaying := if engine.persistedHistoryLen = 0 then false else true
  match replay.applyHistoryPolled handler.poll engine.persistedHistoryLen workingHistory 0 isReplaying with
  | (polls, .error result) => (polls, .error result)
  | (polls, .ok replay) =>
      if replay.mustPoll && replay.output.isNone then
        (polls ++ [⟨workingHistory.length, false⟩], replay.pollOrchestrationFuture handler.poll)
      else (polls, .ok replay)

/-- Poll until the program emits nothing new; what it emits is seen as it is recorded. -/
def runQuiescenceLoopPolled (poll : State → Script State) (read : Nat) : Nat → ReplayEngine → Replay State →
    List Poll × Except TurnResult (Replay State) × ReplayEngine
  | 0, engine, _ => ([], .error quiescenceError, engine)
  | remaining + 1, engine, replay =>
      if replay.output.isSome || engine.pendingActions.isEmpty then ([], .ok replay, engine)
      else
        let polls := [⟨read + engine.pendingActions.length, false⟩]
        match { replay with emittedActions := [] }.pollOrchestrationFuture poll with
        | .error result => (polls, .error result, engine)
        | .ok replay =>
            let (converted, ctx) := engine.convertEmittedActions replay.ctx replay.emittedActions
            let replay := { replay with ctx, emittedActions := [] }
            if remaining = 0 then (polls, .error quiescenceError, converted)
            else if converted.pendingActions.length = engine.pendingActions.length then (polls, .ok replay, converted)
            else
              let (later, last) := runQuiescenceLoopPolled poll read remaining converted replay
              (polls ++ later, last)

/-- Run the program over history and then beyond it, with a record of its polls. -/
def evaluatePolled (engine : ReplayEngine) (handler : OrchestrationHandler) (input orchestrationName
    orchestrationVersion : String) : List Poll × Except TurnResult (Replay handler.State) × ReplayEngine :=
  let workingHistory := engine.baselineHistory ++ engine.historyDelta
  match engine.replayHistoryPolled handler input orchestrationName orchestrationVersion workingHistory with
  | (polls, .error result) => (polls, .error result, engine)
  | (polls, .ok replay) =>
      let (engine, ctx) := engine.convertEmittedActions (markDroppedQueueWaits replay.ctx) replay.emittedActions
      let (later, last) := engine.runQuiescenceLoopPolled handler.poll workingHistory.length MAX_QUIESCENCE_ITERATIONS
        { replay with ctx, emittedActions := [] }
      (polls ++ later, last)

/-- The polls of a turn. -/
def polls (engine : ReplayEngine) (handler : OrchestrationHandler) (input orchestrationName orchestrationVersion : String) :
    List Poll :=
  if engine.evaluates then (engine.evaluatePolled handler input orchestrationName orchestrationVersion).1 else []

end ReplayEngine

end Duroxide
