import Duroxide.Lib.Json
import Duroxide.Model.Store

/-! # Events and work items as JSON

What `serde` derives for the stored types: field names, tags, defaults and the fields that are not written
are those of the attributes in the source. Forms that `serde` reads but never writes (structs as arrays,
variants by position, variants without fields as objects) and the texts of its errors are left out.
-/

namespace Duroxide

open Lib.Json

namespace Serde

def text (name : String) : Fields String := (Codec.text.required name).alone

def u64 (name : String) : Fields Nat := ((Codec.below (2 ^ 64)).required name).alone

def u32 (name : String) : Fields Nat := ((Codec.below (2 ^ 32)).required name).alone

def flag (name : String) : Fields Bool := (Codec.boolean.required name).alone

/-- `Option`, without attributes. -/
def optionalText (name : String) : Fields (Option String) := (Codec.text.optional (fun _ => rfl) name).alone

def optionalU64 (name : String) : Fields (Option Nat) := ((Codec.below (2 ^ 64)).optional (fun _ => rfl) name).alone

/-- `skip_serializing_if = "Option::is_none"`, `default`. -/
def skippedText (name : String) : Fields (Option String) := (Codec.text.skipped (fun _ => rfl) name).alone

/-- Names and data of carried events. -/
def carried : Codec (List (String × String)) := (Codec.text.pair Codec.text).list

end Serde

open Serde

namespace ConfigErrorKind

def codec : Codec ConfigErrorKind where
  encode
    | .nondeterminism => .string "Nondeterminism"
  decode
    | .string "Nondeterminism" => some .nondeterminism
    | _ => none
  Fits _ := True
  decode_encode {kind} _ := by
    cases kind
    rfl
  fits_of_decode _ := trivial

end ConfigErrorKind

namespace AppErrorKind

def codec : Codec AppErrorKind where
  encode
    | .activityFailed => .string "ActivityFailed"
    | .orchestrationFailed => .string "OrchestrationFailed"
    | .panicked => .string "Panicked"
    | .cancelled reason => .object [("Cancelled", .object ((text "reason").write reason))]
  decode
    | .string "ActivityFailed" => some .activityFailed
    | .string "OrchestrationFailed" => some .orchestrationFailed
    | .string "Panicked" => some .panicked
    | .object [("Cancelled", .object members)] => ((text "reason").decode members).map .cancelled
    | _ => none
  Fits _ := True
  decode_encode {kind} _ := by
    cases kind with
    | cancelled reason => exact congrArg (Option.map cancelled) ((text "reason").decode_write trivial)
    | _ => rfl
  fits_of_decode _ := trivial

end AppErrorKind

namespace PoisonMessageType

def tag : PoisonMessageType → String
  | .orchestration .. => "Orchestration"
  | .activity .. => "Activity"
  | .failedDeserialization .. => "FailedDeserialization"

def orchestrationFields := (text "instance").and (u64 "execution_id")

def activityFields := (text "instance").and ((u64 "execution_id").and ((text "activity_name").and (u64 "activity_id")))

def failedDeserializationFields := (text "instance").and ((u64 "execution_id").and (text "error"))

def struct : PoisonMessageType → Struct
  | .orchestration instanceId executionId => ⟨_, orchestrationFields, (instanceId, executionId)⟩
  | .activity instanceId executionId activityName activityId =>
      ⟨_, activityFields, (instanceId, executionId, activityName, activityId)⟩
  | .failedDeserialization instanceId executionId error =>
      ⟨_, failedDeserializationFields, (instanceId, executionId, error)⟩

def decode : String → Members → Option PoisonMessageType
  | "Orchestration", members => (orchestrationFields.decode members).map fun (instanceId, executionId) =>
      .orchestration instanceId executionId
  | "Activity", members => (activityFields.decode members).map fun (instanceId, executionId, activityName, activityId) =>
      .activity instanceId executionId activityName activityId
  | "FailedDeserialization", members => (failedDeserializationFields.decode members).map fun (instanceId, executionId, error) =>
      .failedDeserialization instanceId executionId error
  | _, _ => none

def variants : Variants PoisonMessageType where
  tag
  struct
  decode
  decode_of_struct {value members} decoded := by
    cases value <;> exact congrArg (Option.map _) decoded
  fits_of_decode {tag members value} decoded := by
    unfold decode at decoded
    split at decoded <;> try cases decoded
    all_goals
      obtain ⟨payload, inside, rfl⟩ := Option.map_eq_some_iff.mp decoded
      exact Fields.fits_of_decode _ inside

end PoisonMessageType

namespace ErrorDetails

def tag : ErrorDetails → String
  | .infrastructure .. => "Infrastructure"
  | .configuration .. => "Configuration"
  | .application .. => "Application"
  | .poison .. => "Poison"

def infrastructureFields := (text "operation").and ((text "message").and (flag "retryable"))

def configurationFields :=
  (ConfigErrorKind.codec.required "kind").alone.and ((text "resource").and (optionalText "message"))

def applicationFields := (AppErrorKind.codec.required "kind").alone.and ((text "message").and (flag "retryable"))

def poisonFields :=
  (u32 "attempt_count").and ((u32 "max_attempts").and
    ((PoisonMessageType.variants.external.required "message_type").alone.and (text "message")))

def struct : ErrorDetails → Struct
  | .infrastructure operation message retryable => ⟨_, infrastructureFields, (operation, message, retryable)⟩
  | .configuration kind resource message => ⟨_, configurationFields, (kind, resource, message)⟩
  | .application kind message retryable => ⟨_, applicationFields, (kind, message, retryable)⟩
  | .poison attemptCount maxAttempts messageType message =>
      ⟨_, poisonFields, (attemptCount, maxAttempts, messageType, message)⟩

def decode : String → Members → Option ErrorDetails
  | "Infrastructure", members => (infrastructureFields.decode members).map fun (operation, message, retryable) =>
      .infrastructure operation message retryable
  | "Configuration", members => (configurationFields.decode members).map fun (kind, resource, message) =>
      .configuration kind resource message
  | "Application", members => (applicationFields.decode members).map fun (kind, message, retryable) =>
      .application kind message retryable
  | "Poison", members => (poisonFields.decode members).map fun (attemptCount, maxAttempts, messageType, message) =>
      .poison attemptCount maxAttempts messageType message
  | _, _ => none

def variants : Variants ErrorDetails where
  tag
  struct
  decode
  decode_of_struct {value members} decoded := by
    cases value <;> exact congrArg (Option.map _) decoded
  fits_of_decode {tag members value} decoded := by
    unfold decode at decoded
    split at decoded <;> try cases decoded
    all_goals
      obtain ⟨payload, inside, rfl⟩ := Option.map_eq_some_iff.mp decoded
      exact Fields.fits_of_decode _ inside

end ErrorDetails

namespace Serde

def details : Fields ErrorDetails := (ErrorDetails.variants.external.required "details").alone

end Serde

/-! ## Events -/

namespace EventKind

/-- `serde(rename)`. -/
def tag : EventKind → String
  | .orchestrationStarted .. => "OrchestrationStarted"
  | .orchestrationCompleted .. => "OrchestrationCompleted"
  | .orchestrationFailed .. => "OrchestrationFailed"
  | .activityScheduled .. => "ActivityScheduled"
  | .activityCompleted .. => "ActivityCompleted"
  | .activityFailed .. => "ActivityFailed"
  | .activityCancelRequested .. => "ActivityCancelRequested"
  | .timerCreated .. => "TimerCreated"
  | .timerFired .. => "TimerFired"
  | .externalSubscribed .. => "ExternalSubscribed"
  | .externalEvent .. => "ExternalEvent"
  | .orchestrationChained .. => "OrchestrationChained"
  | .subOrchestrationScheduled .. => "SubOrchestrationScheduled"
  | .subOrchestrationCompleted .. => "SubOrchestrationCompleted"
  | .subOrchestrationFailed .. => "SubOrchestrationFailed"
  | .subOrchestrationCancelRequested .. => "SubOrchestrationCancelRequested"
  | .orchestrationContinuedAsNew .. => "OrchestrationContinuedAsNew"
  | .orchestrationCancelRequested .. => "OrchestrationCancelRequested"
  | .externalSubscribedCancelled .. => "ExternalSubscribedCancelled"
  | .queueSubscribed .. => "ExternalSubscribedPersistent"
  | .queueEventDelivered .. => "ExternalEventPersistent"
  | .queueSubscriptionCancelled .. => "ExternalSubscribedPersistentCancelled"
  | .customStatusUpdated .. => "CustomStatusUpdated"
  | .keyValueSet .. => "KeyValueSet"
  | .keyValueCleared .. => "KeyValueCleared"
  | .keyValuesCleared => "KeyValuesCleared"

def startedFields :=
  (text "name").and ((text "version").and ((text "input").and ((optionalText "parent_instance").and
    ((optionalU64 "parent_id").and ((carried.skipped (fun _ => rfl) "carry_forward_events").alone.and
      (skippedText "initial_custom_status"))))))

def activityScheduledFields :=
  (text "name").and ((text "input").and ((skippedText "session_id").and (skippedText "tag")))

def raisedFields := (text "name").and (text "data")

def childFields := (text "name").and ((text "instance").and (text "input"))

/-- `last_updated_at_ms` defaults to 0. -/
def keyValueSetFields :=
  (text "key").and ((text "value").and
    ((Codec.below (2 ^ 64)).withDefault "last_updated_at_ms" 0 (Nat.two_pow_pos 64)).alone)

def struct : EventKind → Struct
  | .orchestrationStarted name version input parentInstance parentId carryForwardEvents initialCustomStatus =>
      ⟨_, startedFields, (name, version, input, parentInstance, parentId, carryForwardEvents, initialCustomStatus)⟩
  | .orchestrationCompleted output => ⟨_, text "output", output⟩
  | .orchestrationFailed error => ⟨_, details, error⟩
  | .activityScheduled name input sessionId tag => ⟨_, activityScheduledFields, (name, input, sessionId, tag)⟩
  | .activityCompleted result => ⟨_, text "result", result⟩
  | .activityFailed error => ⟨_, details, error⟩
  | .activityCancelRequested reason => ⟨_, text "reason", reason⟩
  | .timerCreated fireAtMs => ⟨_, u64 "fire_at_ms", fireAtMs⟩
  | .timerFired fireAtMs => ⟨_, u64 "fire_at_ms", fireAtMs⟩
  | .externalSubscribed name => ⟨_, text "name", name⟩
  | .externalEvent name data => ⟨_, raisedFields, (name, data)⟩
  | .orchestrationChained name instanceId input => ⟨_, childFields, (name, instanceId, input)⟩
  | .subOrchestrationScheduled name instanceId input => ⟨_, childFields, (name, instanceId, input)⟩
  | .subOrchestrationCompleted result => ⟨_, text "result", result⟩
  | .subOrchestrationFailed error => ⟨_, details, error⟩
  | .subOrchestrationCancelRequested reason => ⟨_, text "reason", reason⟩
  | .orchestrationContinuedAsNew input => ⟨_, text "input", input⟩
  | .orchestrationCancelRequested reason => ⟨_, text "reason", reason⟩
  | .externalSubscribedCancelled reason => ⟨_, text "reason", reason⟩
  | .queueSubscribed name => ⟨_, text "name", name⟩
  | .queueEventDelivered name data => ⟨_, raisedFields, (name, data)⟩
  | .queueSubscriptionCancelled reason => ⟨_, text "reason", reason⟩
  | .customStatusUpdated status => ⟨_, optionalText "status", status⟩
  | .keyValueSet key value lastUpdatedAtMs => ⟨_, keyValueSetFields, (key, value, lastUpdatedAtMs)⟩
  | .keyValueCleared key => ⟨_, text "key", key⟩
  | .keyValuesCleared => ⟨_, Fields.none, ()⟩

def decode : String → Members → Option EventKind
  | "OrchestrationStarted", members => (startedFields.decode members).map
      fun (name, version, input, parentInstance, parentId, carryForwardEvents, initialCustomStatus) =>
        .orchestrationStarted name version input parentInstance parentId carryForwardEvents initialCustomStatus
  | "OrchestrationCompleted", members => ((text "output").decode members).map .orchestrationCompleted
  | "OrchestrationFailed", members => (details.decode members).map .orchestrationFailed
  | "ActivityScheduled", members => (activityScheduledFields.decode members).map fun (name, input, sessionId, tag) =>
      .activityScheduled name input sessionId tag
  | "ActivityCompleted", members => ((text "result").decode members).map .activityCompleted
  | "ActivityFailed", members => (details.decode members).map .activityFailed
  | "ActivityCancelRequested", members => ((text "reason").decode members).map .activityCancelRequested
  | "TimerCreated", members => ((u64 "fire_at_ms").decode members).map .timerCreated
  | "TimerFired", members => ((u64 "fire_at_ms").decode members).map .timerFired
  | "ExternalSubscribed", members => ((text "name").decode members).map .externalSubscribed
  | "ExternalEvent", members => (raisedFields.decode members).map fun (name, data) => .externalEvent name data
  | "OrchestrationChained", members => (childFields.decode members).map fun (name, instanceId, input) =>
      .orchestrationChained name instanceId input
  | "SubOrchestrationScheduled", members => (childFields.decode members).map fun (name, instanceId, input) =>
      .subOrchestrationScheduled name instanceId input
  | "SubOrchestrationCompleted", members => ((text "result").decode members).map .subOrchestrationCompleted
  | "SubOrchestrationFailed", members => (details.decode members).map .subOrchestrationFailed
  | "SubOrchestrationCancelRequested", members => ((text "reason").decode members).map .subOrchestrationCancelRequested
  | "OrchestrationContinuedAsNew", members => ((text "input").decode members).map .orchestrationContinuedAsNew
  | "OrchestrationCancelRequested", members => ((text "reason").decode members).map .orchestrationCancelRequested
  | "ExternalSubscribedCancelled", members => ((text "reason").decode members).map .externalSubscribedCancelled
  | "ExternalSubscribedPersistent", members => ((text "name").decode members).map .queueSubscribed
  | "ExternalEventPersistent", members => (raisedFields.decode members).map fun (name, data) => .queueEventDelivered name data
  | "ExternalSubscribedPersistentCancelled", members => ((text "reason").decode members).map .queueSubscriptionCancelled
  | "CustomStatusUpdated", members => ((optionalText "status").decode members).map .customStatusUpdated
  | "KeyValueSet", members => (keyValueSetFields.decode members).map fun (key, value, lastUpdatedAtMs) =>
      .keyValueSet key value lastUpdatedAtMs
  | "KeyValueCleared", members => ((text "key").decode members).map .keyValueCleared
  | "KeyValuesCleared", _ => some .keyValuesCleared
  | _, _ => none

def variants : Variants EventKind where
  tag
  struct
  decode
  decode_of_struct {value members} decoded := by
    cases value with
    | keyValuesCleared => rfl
    | _ => exact congrArg (Option.map _) decoded
  fits_of_decode {tag members value} decoded := by
    unfold decode at decoded
    split at decoded <;> first
      | cases decoded <;> trivial
      | obtain ⟨payload, inside, rfl⟩ := Option.map_eq_some_iff.mp decoded
        exact Fields.fits_of_decode _ inside

end EventKind

namespace Event

/-- The fields of an event besides its kind. -/
def ownFields :=
  (u64 "event_id").and ((optionalU64 "source_event_id").and ((text "instance_id").and ((u64 "execution_id").and
    ((u64 "timestamp_ms").and (text "duroxide_version")))))

def own (event : Event) : Nat × Option Nat × String × Nat × Nat × String :=
  (event.eventId, event.sourceEventId, event.instanceId, event.executionId, event.timestampMs, event.duroxideVersion)

/-- `serde(flatten)`: one object has the members of an event and those of its kind. -/
def members (event : Event) : Members := ownFields.write event.own ++ EventKind.variants.writeInternal "type" event.kind

def encode (event : Event) : Value := .object event.members

/-- What is not a field of the event is read as its kind. -/
def decode : Value → Option Event
  | .object members => do
      let (eventId, sourceEventId, instanceId, executionId, timestampMs, duroxideVersion) ← ownFields.decode members
      let kind ← EventKind.variants.readInternal "type" (members.filter fun member => member.1 ∉ ownFields.names)
      some { eventId, sourceEventId, instanceId, executionId, timestampMs, duroxideVersion, kind }
  | _ => none

/-- Every number fits its type. -/
def Fits (event : Event) : Prop := ownFields.Fits event.own ∧ event.kind.struct.Fits

end Event

/-! ## Work items -/

namespace WorkItem

def tag : WorkItem → String
  | .startOrchestration .. => "StartOrchestration"
  | .activityExecute .. => "ActivityExecute"
  | .activityCompleted .. => "ActivityCompleted"
  | .activityFailed .. => "ActivityFailed"
  | .timerFired .. => "TimerFired"
  | .externalRaised .. => "ExternalRaised"
  | .subOrchCompleted .. => "SubOrchCompleted"
  | .subOrchFailed .. => "SubOrchFailed"
  | .cancelInstance .. => "CancelInstance"
  | .continueAsNew .. => "ContinueAsNew"
  | .queueMessage .. => "QueueMessage"

def startOrchestrationFields :=
  (text "instance").and ((text "orchestration").and ((text "input").and ((optionalText "version").and
    ((optionalText "parent_instance").and ((optionalU64 "parent_id").and (u64 "execution_id"))))))

def activityExecuteFields :=
  (text "instance").and ((u64 "execution_id").and ((u64 "id").and ((text "name").and ((text "input").and
    ((skippedText "session_id").and (skippedText "tag"))))))

def activityCompletedFields := (text "instance").and ((u64 "execution_id").and ((u64 "id").and (text "result")))

def activityFailedFields := (text "instance").and ((u64 "execution_id").and ((u64 "id").and details))

def timerFiredFields := (text "instance").and ((u64 "execution_id").and ((u64 "id").and (u64 "fire_at_ms")))

def raisedFields := (text "instance").and ((text "name").and (text "data"))

def subOrchCompletedFields :=
  (text "parent_instance").and ((u64 "parent_execution_id").and ((u64 "parent_id").and (text "result")))

def subOrchFailedFields :=
  (text "parent_instance").and ((u64 "parent_execution_id").and ((u64 "parent_id").and details))

def cancelInstanceFields := (text "instance").and (text "reason")

/-- `carry_forward_events` defaults to an empty list. -/
def continueAsNewFields :=
  (text "instance").and ((text "orchestration").and ((text "input").and ((optionalText "version").and
    ((carried.withDefault "carry_forward_events" [] (List.forall_mem_nil _)).alone.and
      (skippedText "initial_custom_status")))))

def struct : WorkItem → Struct
  | .startOrchestration instanceId orchestration input version parentInstance parentId executionId =>
      ⟨_, startOrchestrationFields, (instanceId, orchestration, input, version, parentInstance, parentId, executionId)⟩
  | .activityExecute instanceId executionId id name input sessionId tag =>
      ⟨_, activityExecuteFields, (instanceId, executionId, id, name, input, sessionId, tag)⟩
  | .activityCompleted instanceId executionId id result =>
      ⟨_, activityCompletedFields, (instanceId, executionId, id, result)⟩
  | .activityFailed instanceId executionId id error => ⟨_, activityFailedFields, (instanceId, executionId, id, error)⟩
  | .timerFired instanceId executionId id fireAtMs => ⟨_, timerFiredFields, (instanceId, executionId, id, fireAtMs)⟩
  | .externalRaised instanceId name data => ⟨_, raisedFields, (instanceId, name, data)⟩
  | .subOrchCompleted parentInstance parentExecutionId parentId result =>
      ⟨_, subOrchCompletedFields, (parentInstance, parentExecutionId, parentId, result)⟩
  | .subOrchFailed parentInstance parentExecutionId parentId error =>
      ⟨_, subOrchFailedFields, (parentInstance, parentExecutionId, parentId, error)⟩
  | .cancelInstance instanceId reason => ⟨_, cancelInstanceFields, (instanceId, reason)⟩
  | .continueAsNew instanceId orchestration input version carryForwardEvents initialCustomStatus =>
      ⟨_, continueAsNewFields, (instanceId, orchestration, input, version, carryForwardEvents, initialCustomStatus)⟩
  | .queueMessage instanceId name data => ⟨_, raisedFields, (instanceId, name, data)⟩

def decodeVariant : String → Members → Option WorkItem
  | "StartOrchestration", members => (startOrchestrationFields.decode members).map
      fun (instanceId, orchestration, input, version, parentInstance, parentId, executionId) =>
        .startOrchestration instanceId orchestration input version parentInstance parentId executionId
  | "ActivityExecute", members => (activityExecuteFields.decode members).map
      fun (instanceId, executionId, id, name, input, sessionId, tag) =>
        .activityExecute instanceId executionId id name input sessionId tag
  | "ActivityCompleted", members => (activityCompletedFields.decode members).map fun (instanceId, executionId, id, result) =>
      .activityCompleted instanceId executionId id result
  | "ActivityFailed", members => (activityFailedFields.decode members).map fun (instanceId, executionId, id, error) =>
      .activityFailed instanceId executionId id error
  | "TimerFired", members => (timerFiredFields.decode members).map fun (instanceId, executionId, id, fireAtMs) =>
      .timerFired instanceId executionId id fireAtMs
  | "ExternalRaised", members => (raisedFields.decode members).map fun (instanceId, name, data) =>
      .externalRaised instanceId name data
  | "SubOrchCompleted", members => (subOrchCompletedFields.decode members).map
      fun (parentInstance, parentExecutionId, parentId, result) =>
        .subOrchCompleted parentInstance parentExecutionId parentId result
  | "SubOrchFailed", members => (subOrchFailedFields.decode members).map
      fun (parentInstance, parentExecutionId, parentId, error) => .subOrchFailed parentInstance parentExecutionId parentId error
  | "CancelInstance", members => (cancelInstanceFields.decode members).map fun (instanceId, reason) =>
      .cancelInstance instanceId reason
  | "ContinueAsNew", members => (continueAsNewFields.decode members).map
      fun (instanceId, orchestration, input, version, carryForwardEvents, initialCustomStatus) =>
        .continueAsNew instanceId orchestration input version carryForwardEvents initialCustomStatus
  | "QueueMessage", members => (raisedFields.decode members).map fun (instanceId, name, data) =>
      .queueMessage instanceId name data
  | _, _ => none

def variants : Variants WorkItem where
  tag
  struct
  decode := decodeVariant
  decode_of_struct {value members} decoded := by
    cases value <;> exact congrArg (Option.map _) decoded
  fits_of_decode {tag members value} decoded := by
    unfold decodeVariant at decoded
    split at decoded <;> try cases decoded
    all_goals
      obtain ⟨payload, inside, rfl⟩ := Option.map_eq_some_iff.mp decoded
      exact Fields.fits_of_decode _ inside

def encode (item : WorkItem) : Value := variants.external.encode item

def decode (document : Value) : Option WorkItem := variants.external.decode document

/-- Every number fits its type. -/
def Fits (item : WorkItem) : Prop := item.struct.Fits

end WorkItem

/-! ## Stored rows -/

/-- The `event_type` column. -/
def EventKind.eventType : EventKind → String
  | .orchestrationStarted .. => "OrchestrationStarted"
  | .orchestrationCompleted .. => "OrchestrationCompleted"
  | .orchestrationFailed .. => "OrchestrationFailed"
  | .orchestrationContinuedAsNew .. => "OrchestrationContinuedAsNew"
  | .activityScheduled .. => "ActivityScheduled"
  | .activityCompleted .. => "ActivityCompleted"
  | .activityFailed .. => "ActivityFailed"
  | .activityCancelRequested .. => "ActivityCancelRequested"
  | .timerCreated .. => "TimerCreated"
  | .timerFired .. => "TimerFired"
  | .externalSubscribed .. => "ExternalSubscribed"
  | .externalEvent .. => "ExternalEvent"
  | .subOrchestrationScheduled .. => "SubOrchestrationScheduled"
  | .subOrchestrationCompleted .. => "SubOrchestrationCompleted"
  | .subOrchestrationFailed .. => "SubOrchestrationFailed"
  | .subOrchestrationCancelRequested .. => "SubOrchestrationCancelRequested"
  | .orchestrationCancelRequested .. => "OrchestrationCancelRequested"
  | .externalSubscribedCancelled .. => "ExternalSubscribedCancelled"
  | .queueSubscribed .. => "ExternalSubscribedPersistent"
  | .queueEventDelivered .. => "ExternalEventPersistent"
  | .queueSubscriptionCancelled .. => "ExternalSubscribedPersistentCancelled"
  | .orchestrationChained .. => "OrchestrationChained"
  | .customStatusUpdated .. => "CustomStatusUpdated"
  | .keyValueSet .. => "KeyValueSet"
  | .keyValueCleared .. => "KeyValueCleared"
  | .keyValuesCleared => "KeyValuesCleared"

/-- A row of the history table as it is stored. -/
structure HistoryRecord where
  eventId : Nat
  eventType : String
  eventData : Value

namespace HistoryRecord

def ofEvent (event : Event) : HistoryRecord := ⟨event.eventId, event.kind.eventType, event.encode⟩

/-- What reading a stored row gives, with the error of one that does not decode. -/
def row (error : Value → String) (record : HistoryRecord) : HistoryRow :=
  ⟨record.eventId, match Event.decode record.eventData with
    | some event => .ok event
    | none => .error (error record.eventData)⟩

/-- `INSERT INTO history`, into the rows of one execution in event id order. -/
def insert (record : HistoryRecord) : List HistoryRecord → Option (List HistoryRecord)
  | [] => some [record]
  | first :: rest =>
      if record.eventId < first.eventId then some (record :: first :: rest)
      else if record.eventId = first.eventId then none
      else (insert record rest).map (first :: ·)

/-- `append_history_in_tx`: nothing is inserted when an event has no id, or an id is taken. -/
def append (records : List HistoryRecord) (events : List Event) : Option (List HistoryRecord) :=
  if events.any (·.eventId == 0) then none
  else events.foldlM (fun records event => insert (ofEvent event) records) records

/-- Decode the rows in order; the first unreadable one ends the read. -/
def read : List HistoryRecord → Option (List Event)
  | [] => some []
  | record :: rest => do
      let event ← Event.decode record.eventData
      let events ← read rest
      some (event :: events)

end HistoryRecord

end Duroxide
