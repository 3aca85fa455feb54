import Mathlib.Data.List.Basic

/-! # History events and error details

A history is a list of events. Every event carries common metadata and a kind; schedule events are
named by their own event id, completion events by the schedule they complete. Event constructors
read the wall clock and the version of the running crate, which the model receives as a `Stamp`.
The stored form is a module of its own; the variants behind the `replay-version-test` feature are not represented.
-/

namespace Duroxide

/-- The first execution of an instance. -/
def INITIAL_EXECUTION_ID : Nat := 1

/-- The event id of an execution's `OrchestrationStarted`. -/
def INITIAL_EVENT_ID : Nat := 1

/-- Prefix for auto-generated sub-orchestration instance ids. -/
def SUB_ORCH_AUTO_PREFIX : String := "sub::"

/-- Prefix for placeholder instance ids before event id assignment. -/
def SUB_ORCH_PENDING_PREFIX : String := "sub::pending_"

/-- `str::starts_with`, by characters. -/
def startsWith (text pattern : String) : Bool := pattern.toList.isPrefixOf text.toList

def isAutoGeneratedSubOrchId (instanceId : String) : Bool := startsWith instanceId SUB_ORCH_AUTO_PREFIX

/-- Auto-generated child ids get the parent instance as prefix; explicit ids are used as provided. -/
def buildChildInstanceId (parentInstance childInstance : String) : String :=
  if isAutoGeneratedSubOrchId childInstance then parentInstance ++ "::" ++ childInstance else childInstance

inductive ConfigErrorKind where
  | nondeterminism
deriving DecidableEq, Repr

inductive AppErrorKind where
  | activityFailed
  | orchestrationFailed
  | panicked
  | cancelled (reason : String)
deriving DecidableEq, Repr

inductive PoisonMessageType where
  | orchestration (instanceId : String) (executionId : Nat)
  | activity (instanceId : String) (executionId : Nat) (activityName : String) (activityId : Nat)
  | failedDeserialization (instanceId : String) (executionId : Nat) (error : String)
deriving DecidableEq, Repr

inductive ErrorDetails where
  | infrastructure (operation message : String) (retryable : Bool)
  | configuration (kind : ConfigErrorKind) (resource : String) (message : Option String)
  | application (kind : AppErrorKind) (message : String) (retryable : Bool)
  | poison (attemptCount maxAttempts : Nat) (messageType : PoisonMessageType) (message : String)
deriving DecidableEq, Repr

/-- The text that user code sees when an activity or a child fails. -/
def ErrorDetails.displayMessage : ErrorDetails → String
  | .infrastructure operation message _ => "infrastructure:" ++ operation ++ ": " ++ message
  | .configuration .nondeterminism _ (some message) => "nondeterministic: " ++ message
  | .configuration .nondeterminism resource none => "nondeterministic in " ++ resource
  | .application (.cancelled reason) _ _ => "canceled: " ++ reason
  | .application .panicked message _ => "orchestration panicked: " ++ message
  | .application .activityFailed message _ => message
  | .application .orchestrationFailed message _ => message
  | .poison attemptCount maxAttempts (.orchestration instanceId _) _ =>
      "poison: orchestration " ++ instanceId ++ " exceeded " ++ toString attemptCount ++ " attempts (max " ++
        toString maxAttempts ++ ")"
  | .poison attemptCount maxAttempts (.activity _ _ activityName activityId) _ =>
      "poison: activity " ++ activityName ++ "#" ++ toString activityId ++ " exceeded " ++
        toString attemptCount ++ " attempts (max " ++ toString maxAttempts ++ ")"
  | .poison attemptCount maxAttempts (.failedDeserialization instanceId _ error) _ =>
      "poison: orchestration " ++ instanceId ++ " history deserialization failed after " ++
        toString attemptCount ++ " attempts (max " ++ toString maxAttempts ++ "): " ++ error

/-- Errors of the runtime rather than of user code abort the turn that receives them. -/
def ErrorDetails.isSystem : ErrorDetails → Bool
  | .application .. => false
  | _ => true

inductive EventKind where
  | orchestrationStarted (name version input : String) (parentInstance : Option String)
      (parentId : Option Nat) (carryForwardEvents : Option (List (String × String)))
      (initialCustomStatus : Option String)
  | orchestrationCompleted (output : String)
  | orchestrationFailed (details : ErrorDetails)
  | activityScheduled (name input : String) (sessionId tag : Option String)
  | activityCompleted (result : String)
  | activityFailed (details : ErrorDetails)
  | activityCancelRequested (reason : String)
  | timerCreated (fireAtMs : Nat)
  | timerFired (fireAtMs : Nat)
  | externalSubscribed (name : String)
  | externalEvent (name data : String)
  | orchestrationChained (name instanceId input : String)
  | subOrchestrationScheduled (name instanceId input : String)
  | subOrchestrationCompleted (result : String)
  | subOrchestrationFailed (details : ErrorDetails)
  | subOrchestrationCancelRequested (reason : String)
  | orchestrationContinuedAsNew (input : String)
  | orchestrationCancelRequested (reason : String)
  | externalSubscribedCancelled (reason : String)
  | queueSubscribed (name : String)
  | queueEventDelivered (name data : String)
  | queueSubscriptionCancelled (reason : String)
  | customStatusUpdated (status : Option String)
  | keyValueSet (key value : String) (lastUpdatedAtMs : Nat)
  | keyValueCleared (key : String)
  | keyValuesCleared
deriving DecidableEq, Repr

/-- What an event constructor reads from its surroundings. -/
structure Stamp where
  timestampMs : Nat
  duroxideVersion : String
deriving DecidableEq, Repr

structure Event where
  eventId : Nat
  sourceEventId : Option Nat
  instanceId : String
  executionId : Nat
  timestampMs : Nat
  duroxideVersion : String
  kind : EventKind
deriving DecidableEq, Repr

def Event.withEventId (stamp : Stamp) (eventId : Nat) (instanceId : String) (executionId : Nat)
    (sourceEventId : Option Nat) (kind : EventKind) : Event :=
  ⟨eventId, sourceEventId, instanceId, executionId, stamp.timestampMs, stamp.duroxideVersion, kind⟩

/-- An event whose id is assigned later, by the component that appends it. -/
def Event.new (stamp : Stamp) (instanceId : String) (executionId : Nat) (sourceEventId : Option Nat)
    (kind : EventKind) : Event :=
  Event.withEventId stamp 0 instanceId executionId sourceEventId kind

def Event.setEventId (event : Event) (eventId : Nat) : Event := { event with eventId }

@[simp] theorem Event.withEventId_kind (stamp : Stamp) (eventId : Nat) (instanceId : String)
    (executionId : Nat) (source : Option Nat) (kind : EventKind) :
    (Event.withEventId stamp eventId instanceId executionId source kind).kind = kind := rfl

@[simp] theorem Event.withEventId_eventId (stamp : Stamp) (eventId : Nat) (instanceId : String)
    (executionId : Nat) (source : Option Nat) (kind : EventKind) :
    (Event.withEventId stamp eventId instanceId executionId source kind).eventId = eventId := rfl

@[simp] theorem Event.withEventId_sourceEventId (stamp : Stamp) (eventId : Nat) (instanceId : String)
    (executionId : Nat) (source : Option Nat) (kind : EventKind) :
    (Event.withEventId stamp eventId instanceId executionId source kind).sourceEventId = source := rfl

/-- The kind that begins an execution. -/
def EventKind.isStarted : EventKind → Bool
  | .orchestrationStarted .. => true
  | _ => false

/-- The kinds that end an orchestration or one of its executions. -/
def EventKind.isTerminal : EventKind → Bool
  | .orchestrationCompleted _ | .orchestrationFailed _ | .orchestrationContinuedAsNew _ => true
  | _ => false

def Event.isTerminal (event : Event) : Bool := event.kind.isTerminal

def EventKind.isCompleted : EventKind → Bool
  | .orchestrationCompleted _ => true
  | _ => false

def EventKind.isFailed : EventKind → Bool
  | .orchestrationFailed _ => true
  | _ => false

def EventKind.isContinuedAsNew : EventKind → Bool
  | .orchestrationContinuedAsNew _ => true
  | _ => false

/-- A start event is not a terminal event. -/
theorem EventKind.isTerminal_of_isStarted {kind : EventKind} (started : kind.isStarted) : kind.isTerminal = false := by
  cases kind <;> first | rfl | cases started

end Duroxide
