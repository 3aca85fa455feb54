import Duroxide.Model.WorkItem
import Mathlib.Data.List.Induction

/-! # Reading history and message batches

`HistoryManager` is the dispatcher's view of an execution: what it read, and the events of this turn.
`WorkItemReader` splits a fetched batch into the item that opens an execution and the completion
messages, and falls back to history for the execution's parameters.
-/

namespace Duroxide

structure HistoryManager where
  orchestrationName : Option String := none
  orchestrationVersion : Option String := none
  orchestrationInput : Option String := none
  parentInstance : Option String := none
  parentId : Option Nat := none
  isCompleted : Bool := false
  isFailed : Bool := false
  isContinuedAsNew : Bool := false
  history : List Event
  delta : List Event := []

/-- The version that stands for an unregistered orchestration. -/
def PLACEHOLDER_VERSION : String := "0.0.0"

namespace HistoryManager

/-- Take the parameters of a start event; later events of this kind override earlier ones. -/
def readStarted (metadata : HistoryManager) (event : Event) : HistoryManager :=
  match event.kind with
  | .orchestrationStarted name version input parentInstance parentId _ _ =>
      { metadata with
        orchestrationName := some name
        orchestrationVersion := some version
        orchestrationInput := some input
        parentInstance, parentId }
  | _ => metadata

/-- The events after the most recent `OrchestrationStarted`, if there is one. -/
def afterLastStarted (history : List Event) : Option (List Event) :=
  history.foldl (fun after event =>
    match event.kind with
    | .orchestrationStarted .. => some []
    | _ => after.map (· ++ [event])) none

/-- The first terminal event after the start decides the state of the execution. -/
def readTerminal (metadata : HistoryManager) (events : List Event) : HistoryManager :=
  match events.find? (·.isTerminal) with
  | some event => match event.kind with
    | .orchestrationCompleted _ => { metadata with isCompleted := true }
    | .orchestrationFailed _ => { metadata with isFailed := true }
    | .orchestrationContinuedAsNew _ => { metadata with isContinuedAsNew := true }
    | _ => metadata
  | none => metadata

def fromHistory (history : List Event) : HistoryManager :=
  let metadata := history.foldl readStarted { history }
  match afterLastStarted history with
  | some events => metadata.readTerminal events
  | none => metadata

/-- Reading events changes neither the history nor the delta. -/
theorem foldl_readStarted_events (events : List Event) (metadata : HistoryManager) :
    (events.foldl readStarted metadata).history = metadata.history ∧
      (events.foldl readStarted metadata).delta = metadata.delta := by
  induction events generalizing metadata with
  | nil => exact ⟨rfl, rfl⟩
  | cons event rest ih =>
    refine ⟨(ih _).1.trans ?_, (ih _).2.trans ?_⟩
    · unfold readStarted
      split <;> rfl
    · unfold readStarted
      split <;> rfl

theorem readTerminal_events (metadata : HistoryManager) (events : List Event) :
    (metadata.readTerminal events).history = metadata.history ∧ (metadata.readTerminal events).delta = metadata.delta := by
  unfold readTerminal
  split
  · split <;> exact ⟨rfl, rfl⟩
  · exact ⟨rfl, rfl⟩

@[simp] theorem fromHistory_history (history : List Event) : (fromHistory history).history = history := by
  unfold fromHistory
  dsimp only
  split
  · rw [(readTerminal_events _ _).1, (foldl_readStarted_events _ _).1]
  · rw [(foldl_readStarted_events _ _).1]

@[simp] theorem fromHistory_delta (history : List Event) : (fromHistory history).delta = [] := by
  unfold fromHistory
  dsimp only
  split
  · rw [(readTerminal_events _ _).2, (foldl_readStarted_events _ _).2]
  · rw [(foldl_readStarted_events _ _).2]

/-- Without a start event among them, events leave the metadata alone. -/
theorem foldl_readStarted_of_none {events : List Event} (noStart : ∀ event ∈ events, event.kind.isStarted = false)
    (metadata : HistoryManager) : events.foldl readStarted metadata = metadata := by
  induction events generalizing metadata with
  | nil => rfl
  | cons event rest ih =>
    have same : metadata.readStarted event = metadata := by
      have notStart := noStart event List.mem_cons_self
      unfold readStarted
      split
      · rename_i started
        rw [started] at notStart
        cases notStart
      · rfl
    rw [List.foldl_cons, same]
    exact ih (fun later member => noStart later (List.mem_cons_of_mem event member)) metadata

theorem readTerminal_identity (metadata : HistoryManager) (events : List Event) :
    (metadata.readTerminal events).orchestrationName = metadata.orchestrationName ∧
      (metadata.readTerminal events).orchestrationVersion = metadata.orchestrationVersion := by
  unfold readTerminal
  split
  · split <;> exact ⟨rfl, rfl⟩
  · exact ⟨rfl, rfl⟩

/-- A history that starts once is read with the name and version of its start event. -/
theorem fromHistory_identity {event : Event} {rest : List Event} {name version input : String}
    {parentInstance : Option String} {parentId : Option Nat} {carried : Option (List (String × String))}
    {status : Option String}
    (started : event.kind = .orchestrationStarted name version input parentInstance parentId carried status)
    (once : ∀ later ∈ rest, later.kind.isStarted = false) :
    (fromHistory (event :: rest)).orchestrationName = some name ∧
      (fromHistory (event :: rest)).orchestrationVersion = some version := by
  have read : (event :: rest).foldl readStarted { history := event :: rest } =
      readStarted { history := event :: rest } event := foldl_readStarted_of_none once _
  unfold fromHistory
  simp only [read]
  split
  · rw [(readTerminal_identity _ _).1, (readTerminal_identity _ _).2]
    simp only [readStarted, started, and_self]
  · simp only [readStarted, started, and_self]

/-- The terminal event that decides the state of an execution. -/
def decidingEvent (history : List Event) : Option Event := (afterLastStarted history).bind (·.find? (·.isTerminal))

theorem foldl_readStarted_state (events : List Event) (metadata : HistoryManager) :
    (events.foldl readStarted metadata).isCompleted = metadata.isCompleted ∧
      (events.foldl readStarted metadata).isFailed = metadata.isFailed ∧
      (events.foldl readStarted metadata).isContinuedAsNew = metadata.isContinuedAsNew := by
  induction events generalizing metadata with
  | nil => exact ⟨rfl, rfl, rfl⟩
  | cons event rest ih =>
    obtain ⟨completed, failed, continued⟩ := ih (metadata.readStarted event)
    rw [List.foldl_cons, completed, failed, continued]
    unfold readStarted
    split <;> exact ⟨rfl, rfl, rfl⟩

/-- The state of a history is the kind of its deciding event. -/
theorem fromHistory_state (history : List Event) :
    (fromHistory history).isCompleted = (decidingEvent history).any (·.kind.isCompleted) ∧
      (fromHistory history).isFailed = (decidingEvent history).any (·.kind.isFailed) ∧
      (fromHistory history).isContinuedAsNew = (decidingEvent history).any (·.kind.isContinuedAsNew) := by
  obtain ⟨completed, failed, continued⟩ := foldl_readStarted_state history { history }
  unfold fromHistory decidingEvent
  dsimp only
  split
  · rename_i events after
    rw [after, Option.bind_some]
    unfold readTerminal
    split
    · rename_i event found
      rw [found]
      have terminal := List.find?_some found
      simp only [Option.any_some]
      split
      all_goals rename_i kind
      all_goals simp only [kind, EventKind.isCompleted, EventKind.isFailed, EventKind.isContinuedAsNew, completed,
        failed, continued, and_self]
    · rename_i found
      rw [found]
      exact ⟨completed, failed, continued⟩
  · rename_i after
    rw [after]
    exact ⟨completed, failed, continued⟩

/-- The events after the last start are events of the history. -/
theorem mem_of_afterLastStarted {history events : List Event} (after : afterLastStarted history = some events)
    {event : Event} (member : event ∈ events) : event ∈ history := by
  induction history using List.reverseRecOn generalizing events with
  | nil => cases after
  | append_singleton rest last ih =>
    unfold afterLastStarted at after ih
    rw [List.foldl_append, List.foldl_cons, List.foldl_nil] at after
    split at after
    · cases after
      exact absurd member List.not_mem_nil
    · obtain ⟨earlier, was, rfl⟩ := Option.map_eq_some_iff.mp after
      rcases List.mem_append.mp member with old | new
      · exact List.mem_append_left _ (ih was old)
      · exact List.mem_append_right _ new

theorem decidingEvent_of_running {history : List Event} (running : history.any (·.isTerminal) = false) :
    decidingEvent history = none := by
  unfold decidingEvent
  rcases after : afterLastStarted history with _ | events
  · rfl
  · rw [Option.bind_some, List.find?_eq_none]
    intro event member
    simp only [List.any_eq_false] at running
    exact running event (mem_of_afterLastStarted after member)

/-- In a history that starts once, the first terminal event decides. -/
theorem decidingEvent_cons {first : Event} {rest : List Event} (started : first.kind.isStarted)
    (once : ∀ later ∈ rest, later.kind.isStarted = false) :
    decidingEvent (first :: rest) = rest.find? (·.isTerminal) := by
  have after : ∀ (events taken : List Event), (∀ later ∈ events, later.kind.isStarted = false) →
      events.foldl (fun after event =>
        match event.kind with
        | .orchestrationStarted .. => some []
        | _ => after.map (· ++ [event])) (some taken) = some (taken ++ events) := by
    intro events
    induction events with
    | nil => exact fun taken _ => by rw [List.foldl_nil, List.append_nil]
    | cons event later ih =>
      intro taken none
      have plain := none event List.mem_cons_self
      rw [List.foldl_cons]
      split
      · rename_i kind
        rw [kind] at plain
        cases plain
      · rw [Option.map_some, ih _ fun other member => none other (List.mem_cons_of_mem event member), List.append_assoc]
        rfl
  have begins : afterLastStarted (first :: rest) = some rest := by
    obtain ⟨eventId, source, instanceId, executionId, timestamp, crate, kind⟩ := first
    cases kind with
    | orchestrationStarted => exact after rest [] once
    | _ => cases started
  rw [decidingEvent, begins, Option.bind_some]

def isEmpty (manager : HistoryManager) : Bool := manager.history.isEmpty && manager.delta.isEmpty

def originalLen (manager : HistoryManager) : Nat := manager.history.length

def fullHistory (manager : HistoryManager) : List Event := manager.history ++ manager.delta

/-- One above the largest event id. -/
def nextEventId (manager : HistoryManager) : Nat :=
  (manager.fullHistory.map (·.eventId)).foldl max 0 + 1

def append (manager : HistoryManager) (event : Event) : HistoryManager :=
  { manager with delta := manager.delta ++ [event] }

/-- Append a failure; the source leaves instance and execution id to a caller that never sets them. -/
def appendFailed (manager : HistoryManager) (stamp : Stamp) (details : ErrorDetails) : HistoryManager :=
  manager.append (Event.withEventId stamp manager.nextEventId "" 0 none (.orchestrationFailed details))

def extend (manager : HistoryManager) (events : List Event) : HistoryManager :=
  { manager with delta := manager.delta ++ events }

/-- The start events of the delta, most recent first. -/
def startedInDelta (manager : HistoryManager) : Option EventKind :=
  (manager.delta.reverse.map (·.kind)).find? fun | .orchestrationStarted .. => true | _ => false

/-- The recorded version, unless it is the placeholder. -/
def version (manager : HistoryManager) : Option String :=
  let recorded := match manager.orchestrationVersion with
    | some version => some version
    | none => match manager.startedInDelta with
      | some (.orchestrationStarted _ version _ _ _ _ _) => some version
      | _ => none
  if recorded = some PLACEHOLDER_VERSION then none else recorded

def parentLink (parentInstance : Option String) (parentId : Option Nat) : Option (String × Nat) :=
  match parentInstance, parentId with
  | some parentInstance, some parentId => some (parentInstance, parentId)
  | _, _ => none

/-- The input and the parent of the execution, from the scan or from the delta. -/
def extractContext (manager : HistoryManager) : String × Option (String × Nat) :=
  match manager.orchestrationInput with
  | some input => (input, parentLink manager.parentInstance manager.parentId)
  | none => match manager.startedInDelta with
    | some (.orchestrationStarted _ _ input parentInstance parentId _ _) => (input, parentLink parentInstance parentId)
    | _ => ("", none)

def sourcesOf (events : List Event) (kindMatches : EventKind → Bool) : List Nat :=
  events.filterMap fun event => if kindMatches event.kind then event.sourceEventId else none

/-- Activities scheduled, not completed and without a cancellation request. -/
def computeInflightActivities (manager : HistoryManager) (instanceId : String) (executionId : Nat) :
    List ScheduledActivityIdentifier :=
  let events := manager.fullHistory
  let scheduled := ((events.filter fun event =>
    match event.kind with | .activityScheduled .. => true | _ => false).map (·.eventId)).dedup
  let completed := sourcesOf events fun | .activityCompleted _ | .activityFailed _ => true | _ => false
  let cancelRequested := sourcesOf events fun | .activityCancelRequested _ => true | _ => false
  (scheduled.filter fun id => id ∉ completed && id ∉ cancelRequested).map fun id => ⟨instanceId, executionId, id⟩

end HistoryManager

structure WorkItemReader where
  startItem : Option WorkItem
  completionMessages : List WorkItem
  orchestrationName : String
  input : String
  version : Option String
  parentInstance : Option String
  parentId : Option Nat
  isContinueAsNew : Bool

namespace WorkItemReader

def isCompletionMessage : WorkItem → Bool
  | .startOrchestration .. | .continueAsNew .. | .activityExecute .. => false
  | _ => true

/-- Parse a batch: the first start item opens the execution, further ones are ignored. -/
def fromMessages (messages : List WorkItem) (manager : HistoryManager) (instanceId : String) : WorkItemReader :=
  let startItem := messages.find? (·.isStart)
  let completionMessages := messages.filter isCompletionMessage
  match startItem with
  | some (.startOrchestration _ orchestration input version parentInstance parentId _) =>
      { startItem, completionMessages, orchestrationName := orchestration, input, version, parentInstance, parentId
        isContinueAsNew := false }
  | some (.continueAsNew _ orchestration input version carryForwardEvents _) =>
      -- Carried messages go first: they arrived before anything in this batch.
      let carried := carryForwardEvents.map fun (name, data) => WorkItem.queueMessage instanceId name data
      { startItem, completionMessages := carried ++ completionMessages, orchestrationName := orchestration, input
        version, parentInstance := none, parentId := none, isContinueAsNew := true }
  | _ =>
      { startItem := none, completionMessages, orchestrationName := manager.orchestrationName.getD ""
        input := manager.orchestrationInput.getD "", version := manager.version
        parentInstance := manager.parentInstance, parentId := manager.parentId, isContinueAsNew := false }

/-- The three shapes of a batch: with a start, with a continue-as-new, or with neither. -/
inductive Parsed (messages : List WorkItem) (manager : HistoryManager) (instanceId : String) : WorkItemReader → Prop
  | start (target orchestration input : String) (version parentInstance : Option String) (parentId : Option Nat)
      (executionId : Nat) (first : messages.find? (·.isStart) =
        some (.startOrchestration target orchestration input version parentInstance parentId executionId)) :
      Parsed messages manager instanceId
        { startItem := messages.find? (·.isStart), completionMessages := messages.filter isCompletionMessage
          orchestrationName := orchestration, input, version, parentInstance, parentId, isContinueAsNew := false }
  | continueAsNew (target orchestration input : String) (version : Option String) (carried : List (String × String))
      (status : Option String)
      (first : messages.find? (·.isStart) = some (.continueAsNew target orchestration input version carried status)) :
      Parsed messages manager instanceId
        { startItem := messages.find? (·.isStart)
          completionMessages := (carried.map fun (name, data) => WorkItem.queueMessage instanceId name data) ++
            messages.filter isCompletionMessage
          orchestrationName := orchestration, input, version, parentInstance := none, parentId := none
          isContinueAsNew := true }
  | neither (first : messages.find? (·.isStart) = none) :
      Parsed messages manager instanceId
        { startItem := none, completionMessages := messages.filter isCompletionMessage
          orchestrationName := manager.orchestrationName.getD "", input := manager.orchestrationInput.getD ""
          version := manager.version, parentInstance := manager.parentInstance, parentId := manager.parentId
          isContinueAsNew := false }

theorem parsed_fromMessages (messages : List WorkItem) (manager : HistoryManager) (instanceId : String) :
    Parsed messages manager instanceId (fromMessages messages manager instanceId) := by
  unfold fromMessages
  dsimp only
  split
  · rename_i found
    exact .start _ _ _ _ _ _ _ found
  · rename_i found
    exact .continueAsNew _ _ _ _ _ _ found
  · rename_i noStart noContinue
    refine .neither ?_
    rcases found : messages.find? (·.isStart) with _ | item
    · exact found
    · have isStart := List.find?_some found
      cases item with
      | startOrchestration => exact absurd found (noStart _ _ _ _ _ _ _)
      | continueAsNew => exact absurd found (noContinue _ _ _ _ _ _)
      | _ => cases isStart

def hasStartItem (reader : WorkItemReader) : Bool := reader.startItem.isSome

def hasOrchestrationName (reader : WorkItemReader) : Bool := reader.orchestrationName != ""

end WorkItemReader

end Duroxide
