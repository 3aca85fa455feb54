import Duroxide.Lib.Rank
import Duroxide.Model.Execution

/-! # Queue messages across continue-as-new

What continue-as-new carries forward is computed from history alone: every recorded subscription
without a recorded cancellation counts as the consumer of one arrival of its name. Whether that agrees
with what the orchestration was given depends on the mailbox at the end of the last turn. When every
recorded subscription consumed exactly the arrival at its place, no message is lost or repeated.
-/

namespace Duroxide.CarryForward

open Duroxide.Lib Duroxide.Execution

/-- The texts under one queue name, in order. -/
def textsOf (name : String) (messages : List (String × String)) : List String :=
  (messages.filter fun message => message.1 == name).map (·.2)

/-- The queue messages an execution received, in history order. -/
def arrivals (history : List Event) : List (String × String) := history.filterMap isQueueEventDelivered

def subscriptions (history : List Event) : List (Nat × String) := history.filterMap isQueueSubscribed

/-- Whether history records a subscription of this name without a cancellation. -/
def isActive (history : List Event) (name : String) (sub : Nat × String) : Bool :=
  sub.2 == name && sub.1 ∉ history.filterMap isQueueCancelled

/-- The arrival at a recorded subscription's place in the queue of its name. -/
def dueMessage (history : List Event) (sub : Nat × String) : Option String :=
  if isActive history sub.2 sub then
    (textsOf sub.2 (arrivals history))[rank (·.1) (isActive history sub.2) sub.1 (subscriptions history)]?
  else none

/-- The message that the orchestration received through a subscription. -/
def returnedMessage (queue : QueueEvents) (scheduleId : Nat) : Option String :=
  (queue.resolvedSubscriptions.find? (·.scheduleId == scheduleId)).map (·.data)

/-- What the orchestration received from a queue, by subscription order. -/
def returnedMessages (history : List Event) (queue : QueueEvents) (name : String) : List String :=
  ((subscriptions history).filter (·.2 == name)).filterMap fun sub => returnedMessage queue sub.1

/-- The newest messages that fit the carry-forward limit. -/
def newest (messages : List (String × String)) : List (String × String) :=
  messages.drop (messages.length - MAX_CARRY_FORWARD_EVENTS)

/-- What was returned and what is left make up all arrivals of every name in arrival order, and what is
left is carried forward, down to the newest messages that fit the limit. -/
def Conserved (history : List Event) (queue : QueueEvents) (carried : List (String × String)) : Prop :=
  ∃ unmatched, carried = newest unmatched ∧
    ∀ name, returnedMessages history queue name ++ textsOf name unmatched = textsOf name (arrivals history)

/-- Every recorded subscription was given exactly the message due to it, and what is left fits the limit. -/
structure ConsumedInPlace (history : List Event) (queue : QueueEvents) : Prop where
  numbered : ((subscriptions history).map (·.1)).Nodup
  inPlace : ∀ sub ∈ subscriptions history, returnedMessage queue sub.1 = dueMessage history sub
  fits : (collectUnmatchedQueueMessages history).length ≤ MAX_CARRY_FORWARD_EVENTS

theorem textsOf_cons_same (name data : String) (rest : List (String × String)) :
    textsOf name ((name, data) :: rest) = data :: textsOf name rest := by simp [textsOf]

theorem textsOf_cons_other {name other : String} (apart : other ≠ name) (data : String)
    (rest : List (String × String)) : textsOf name ((other, data) :: rest) = textsOf name rest := by
  simp [textsOf, apart]

/-- The walk over arrivals drops the consumed prefix of each name. -/
theorem textsOf_unmatchedFrom (active consumed : String → Nat) (messages : List (String × String)) (name : String) :
    textsOf name (unmatchedFrom active consumed messages) =
      (textsOf name messages).drop (active name - consumed name) := by
  induction messages generalizing consumed with
  | nil => simp [unmatchedFrom, textsOf]
  | cons message rest ih =>
    rcases message with ⟨other, data⟩
    by_cases same : other = name
    · subst same
      by_cases owed : consumed other < active other
      · rw [unmatchedFrom, if_pos owed, ih, Function.update_self, textsOf_cons_same,
          show active other - consumed other = active other - (consumed other + 1) + 1 by omega, List.drop_succ_cons]
      · rw [unmatchedFrom, if_neg owed, textsOf_cons_same, textsOf_cons_same, ih,
          show active other - consumed other = 0 by omega, List.drop_zero, List.drop_zero]
    · rw [textsOf_cons_other same]
      by_cases owed : consumed other < active other
      · rw [unmatchedFrom, if_pos owed, ih, Function.update_of_ne (Ne.symm same)]
      · rw [unmatchedFrom, if_neg owed, textsOf_cons_other same, ih]

theorem activeSubsByName_eq (history : List Event) (name : String) :
    activeSubsByName history name = (subscriptions history).countP (isActive history name) := by
  rw [activeSubsByName, activeQueueSubs, List.countP_filter]
  rfl

/-- What the runtime leaves unmatched of a name are the arrivals behind the active subscriptions. -/
theorem textsOf_collectUnmatched (history : List Event) (name : String) :
    textsOf name (collectUnmatchedQueueMessages history) =
      (textsOf name (arrivals history)).drop ((subscriptions history).countP (isActive history name)) := by
  rw [collectUnmatchedQueueMessages, textsOf_unmatchedFrom, activeSubsByName_eq, Nat.sub_zero, arrivals]

/-- In place, the returned messages of a name are its first arrivals, one for each active subscription. -/
theorem returnedMessages_eq_take {history : List Event} {queue : QueueEvents}
    (consumed : ConsumedInPlace history queue) (name : String) :
    returnedMessages history queue name =
      (textsOf name (arrivals history)).take ((subscriptions history).countP (isActive history name)) := by
  rw [← filterMap_rank (·.1) (isActive history name) _ _ consumed.numbered, returnedMessages,
    List.filterMap_filter]
  refine List.filterMap_congr fun sub member => ?_
  by_cases named : sub.2 = name
  · subst named
    simp only [beq_self_eq_true, if_true]
    rw [consumed.inPlace sub member, dueMessage]
  · have inactive : isActive history name sub = false := by simp [isActive, beq_false_of_ne named]
    rw [inactive]
    simp [named]

theorem newest_eq_self {messages : List (String × String)} (fits : messages.length ≤ MAX_CARRY_FORWARD_EVENTS) :
    newest messages = messages := by
  rw [newest, Nat.sub_eq_zero_of_le fits, List.drop_zero]

theorem conserved_of_consumedInPlace {history : List Event} {queue : QueueEvents}
    (consumed : ConsumedInPlace history queue) :
    Conserved history queue ((collectUnmatchedQueueMessages history).take MAX_CARRY_FORWARD_EVENTS) := by
  refine ⟨collectUnmatchedQueueMessages history, ?_, fun name => ?_⟩
  · rw [newest_eq_self consumed.fits, List.take_of_length_le consumed.fits]
  · rw [returnedMessages_eq_take consumed, textsOf_collectUnmatched, List.take_append_drop]

/-! ## The continue-as-new item of a turn -/

/-- Reconciling dropped futures finds a turn nondeterministic, or changes nothing about its result. -/
theorem collectCancelled_error {engine : ReplayEngine} {ctx : CtxInner} {result : TurnResult}
    (failed : engine.collectCancelledFromContext ctx = .error result) :
    ∃ message, result = .failed (nondeterminismError message) := by
  simp only [ReplayEngine.collectCancelledFromContext] at failed
  split_ifs at failed <;> cases failed <;> exact ⟨_, rfl⟩

/-- A turn that continues as new keeps what it recorded: no cancellation is added at its end. -/
theorem finalizeTurn_continueAsNew {engine : ReplayEngine} {ctx : CtxInner} {output : Option (Except String String)}
    {input : String} {version : Option String}
    (continued : (engine.finalizeTurn ctx output).1 = .continueAsNew input version) :
    (engine.finalizeTurn ctx output).2 = engine := by
  unfold ReplayEngine.finalizeTurn at continued ⊢
  split at continued
  · cases continued
  · split at continued
    · rfl
    · split at continued
      · next failed =>
        obtain ⟨details, rfl⟩ := collectCancelled_error failed
        cases continued
      · split at continued <;> cases continued

section Turn

variable (stamp : Stamp) (executionIds : ExecutionIds) (instanceId : String) (manager : HistoryManager)
  (reader : WorkItemReader) (executionId : Nat) (handler : OrchestrationHandler) (version : String)
  (kvSnapshot : AList (fun _ : String => KvEntry))

/-- The evaluation of a turn: the program's final state, if it got there, and the engine. -/
def evaluateTurn : Except TurnResult (Replay handler.State) × ReplayEngine :=
  (prepareTurn stamp instanceId executionId manager reader kvSnapshot).evaluate handler manager.extractContext.1
    reader.orchestrationName version

def executeTurn : TurnResult × ReplayEngine :=
  (prepareTurn stamp instanceId executionId manager reader kvSnapshot).executeOrchestration handler
    manager.extractContext.1 reader.orchestrationName version

variable {stamp executionIds instanceId manager reader executionId handler version kvSnapshot}

/-- A turn that continues as new ends with the engine of its evaluation. -/
theorem executeTurn_continueAsNew {replay : Replay handler.State} {engine : ReplayEngine} {input : String}
    {next : Option String}
    (evaluated : evaluateTurn stamp instanceId manager reader executionId handler version kvSnapshot =
      (.ok replay, engine))
    (continued : (executeTurn stamp instanceId manager reader executionId handler version kvSnapshot).1 =
      .continueAsNew input next) :
    executeTurn stamp instanceId manager reader executionId handler version kvSnapshot =
      (.continueAsNew input next, engine) := by
  unfold executeTurn ReplayEngine.executeOrchestration at continued ⊢
  unfold evaluateTurn at evaluated
  simp only [evaluated] at continued ⊢
  split at continued
  · cases continued
  · split_ifs at continued ⊢
    exact Prod.ext continued (finalizeTurn_continueAsNew continued)

/-- Beyond the limit it is the oldest unmatched messages that are carried forward. -/
theorem carryForward_oldest {replay : Replay handler.State} {engine : ReplayEngine} {input : String}
    {next : Option String}
    (evaluated : evaluateTurn stamp instanceId manager reader executionId handler version kvSnapshot =
      (.ok replay, engine))
    (continued : (executeTurn stamp instanceId manager reader executionId handler version kvSnapshot).1 =
      .continueAsNew input next) :
    ∃ status, WorkItem.continueAsNew instanceId reader.orchestrationName input next
        ((collectUnmatchedQueueMessages (manager.fullHistory ++ engine.historyDelta)).take MAX_CARRY_FORWARD_EVENTS)
        status ∈
      (runSingleExecutionAtomic stamp executionIds instanceId manager reader executionId handler version
        kvSnapshot).orchestratorItems := by
  have turn := executeTurn_continueAsNew evaluated continued
  unfold executeTurn at turn
  have recorded : (manager.extend engine.historyDelta).fullHistory = manager.fullHistory ++ engine.historyDelta := by
    simp [HistoryManager.extend, HistoryManager.fullHistory]
  simp only [runSingleExecutionAtomic, turn, applyTurnResult, recorded]
  exact ⟨_, List.mem_append_left _ (List.mem_singleton_self _)⟩

end Turn

/-! ## Two programs that continue as new -/

inductive Phase where
  | start
  | waiting (token : Nat)
  | done

/-- Await one message, then continue as new. -/
def receiveAndContinue : OrchestrationHandler where
  State := Phase
  invoke _ := .start
  poll
    | .start => .call (.dequeueEvent "q") fun token => .suspend (.waiting token)
    | .waiting token => .call (.pollFuture token) fun
        | some _ => .call (.continueAsNew "next" none) fun _ => .suspend .done
        | none => .suspend (.waiting token)
    | .done => .suspend .done

/-- Drop a dequeue without waiting for it and continue as new. -/
def dropAndContinue : OrchestrationHandler where
  State := Phase
  invoke _ := .start
  poll
    | .start => .call (.dequeueEvent "q") fun token => .call (.dropFuture token) fun _ =>
        .call (.continueAsNew "next" none) fun _ => .suspend .done
    | state => .suspend state

def newExecution : HistoryManager :=
  (HistoryManager.fromHistory []).append (Event.withEventId ⟨0, "0.1.0"⟩ 1 "p" 1 none
    (.orchestrationStarted "loop" "1.0.0" "" none none none none))

/-- The first batch of an execution, with two messages. -/
def firstBatch : WorkItemReader :=
  .fromMessages [.startOrchestration "p" "loop" "" none none none 1, .queueMessage "p" "q" "m1",
    .queueMessage "p" "q" "m2"] (HistoryManager.fromHistory []) "p"

def evaluateFirst (handler : OrchestrationHandler) : Except TurnResult (Replay handler.State) × ReplayEngine :=
  evaluateTurn ⟨0, "0.1.0"⟩ "p" newExecution firstBatch 1 handler "1.0.0" ∅

def finalReplay (handler : OrchestrationHandler) : Replay handler.State :=
  match (evaluateFirst handler).1 with
  | .ok replay => replay
  | .error _ => { ctx := CtxInner.new 1 "p" "loop" "1.0.0" 0, fut := handler.invoke "" }

def finalHistory (handler : OrchestrationHandler) : List Event :=
  newExecution.fullHistory ++ (evaluateFirst handler).2.historyDelta

end Duroxide.CarryForward
