import Duroxide.Proofs.Provenance

/-! # The names of auto-named children

A sub-orchestration without an explicit instance id is named after its parent and the event id of its
schedule. Event ids start over in every execution, so two executions of a parent name the same child
exactly if they schedule an auto-named child at the same event id.
-/

namespace Duroxide.ChildNames

variable {semver : Semver}

/-- A schedule event of a child whose placeholder id the engine replaced. -/
def AutoNamed (event : Event) : Prop :=
  ∃ (stamp : Stamp) (instanceId : String) (executionId eventId scheduling : Nat) (name : String)
    (version : Option String) (placeholder input : String), startsWith placeholder SUB_ORCH_PENDING_PREFIX = true ∧
      actionToEvent stamp (updateActionEventId (.startSubOrchestration scheduling name version placeholder input) eventId)
        instanceId executionId eventId = some event

/-- The instance that a schedule event of a parent starts. -/
def childInstance (parent : String) (event : Event) : Option String :=
  match event.kind with
  | .subOrchestrationScheduled _ child _ => some (buildChildInstanceId parent child)
  | _ => none

/-- A parent recorded a schedule event in one of its executions. -/
structure Scheduled (store : Store) (parent : String) (executionId : Nat) (event : Event) : Prop where
  row : ∃ row ∈ (store.history parent executionId).rows, row.event = .ok event
  autoNamed : AutoNamed event

/-- Different auto-named schedule events of a parent name different children. -/
def ChildrenDistinct (store : Store) (parent : String) : Prop :=
  ∀ execution event otherExecution other, Scheduled store parent execution event →
    Scheduled store parent otherExecution other → (execution, event) ≠ (otherExecution, other) →
    childInstance parent event ≠ childInstance parent other

/-- No two executions of a parent schedule an auto-named child at the same event id. -/
def SchedulesApart (store : Store) (parent : String) : Prop :=
  ∀ execution event otherExecution other, Scheduled store parent execution event →
    Scheduled store parent otherExecution other → event.eventId = other.eventId → execution = otherExecution

theorem startsWith_append (pattern rest : String) : startsWith (pattern ++ rest) pattern = true := by
  simp [startsWith]

/-- An auto-named child is called `sub::{event_id}` below its parent. -/
theorem AutoNamed.childInstance {event : Event} (autoNamed : AutoNamed event) (parent : String) :
    childInstance parent event = some (parent ++ "::" ++ (SUB_ORCH_AUTO_PREFIX ++ toString event.eventId)) := by
  obtain ⟨stamp, instanceId, executionId, eventId, scheduling, name, version, placeholder, input, pending, recorded⟩ :=
    autoNamed
  simp only [updateActionEventId, pending, ↓reduceIte, actionToEvent] at recorded
  cases recorded
  simp only [ChildNames.childInstance, Event.withEventId_kind, Event.withEventId_eventId, buildChildInstanceId,
    isAutoGeneratedSubOrchId, startsWith_append, ↓reduceIte]

theorem toString_injective {first second : Nat} (same : toString first = toString second) : first = second := by
  have digits : (Nat.repr first).toList = (Nat.repr second).toList := congrArg String.toList same
  rw [Nat.toList_repr, Nat.toList_repr] at digits
  rw [← Nat.ofDigitChars_ten_toDigits (n := first), digits, Nat.ofDigitChars_ten_toDigits]

/-- Children of one parent have the same name exactly if their schedules have the same event id. -/
theorem childInstance_eq_iff {event other : Event} (autoNamed : AutoNamed event) (otherNamed : AutoNamed other)
    (parent : String) :
    childInstance parent event = childInstance parent other ↔ event.eventId = other.eventId := by
  rw [autoNamed.childInstance, otherNamed.childInstance]
  constructor
  · intro same
    have names := congrArg String.toList (Option.some.inj same)
    simp only [String.toList_append, List.append_cancel_left_eq] at names
    exact toString_injective (String.toList_inj.mp names)
  · intro same
    rw [same]

/-- In one execution an event id belongs to one event. -/
theorem event_eq_of_eventId {world : World semver} (provenance : Provenance world) {parent : String}
    {executionId : Nat} {event other : Event} (scheduled : Scheduled world.store parent executionId event)
    (otherScheduled : Scheduled world.store parent executionId other) (same : event.eventId = other.eventId) :
    event = other := by
  obtain ⟨row, member, holds⟩ := scheduled.row
  obtain ⟨otherRow, otherMember, otherHolds⟩ := otherScheduled.row
  have own : ∀ {row : HistoryRow} {event : Event}, RowOrigin row → row.event = .ok event → row.eventId = event.eventId := by
    intro row event origin holds
    cases origin
    cases holds
    rfl
  have ids : row.eventId = otherRow.eventId := by
    rw [own (provenance.rows _ _ row member) holds, own (provenance.rows _ _ otherRow otherMember) otherHolds, same]
  obtain rfl := (world.store.history parent executionId).row_eq_of_eventId member otherMember ids
  exact Except.ok.inj (holds.symm.trans otherHolds)

def awaitChild (token : Nat) : Script (Option Nat) :=
  .call (.pollFuture token) fun
    | some _ => .call (.continueAsNew "" none) fun _ => .finish (.ok "")
    | none => .suspend (some token)

def parentHandler : OrchestrationHandler where
  State := Option Nat
  invoke _ := none
  poll
    | none => .call (.scheduleSubOrchestration "child" none none "") awaitChild
    | some token => awaitChild token

def childHandler : OrchestrationHandler where
  State := Unit
  invoke _ := ()
  poll _ := .finish (.ok "done")

def release : textSemver.Version := "1.0.0"

def familyEnv : RuntimeEnv textSemver where
  stamp := ⟨0, "1.0.0"⟩
  registry :=
    { inner := fun name =>
        if name = "parent" then [(release, parentHandler)] else if name = "child" then [(release, childHandler)] else []
      distinct := fun name => by split_ifs <;> simp
      policy := fun _ => none }
  executionIds _ := none
  supportedRange := ⟨release, release⟩
  serializeMessages _ := ""

/-- The turn of a dispatcher, without faults. -/
def familyTurn (token : Nat) : List (Step textSemver) :=
  [.fetch {} none 0 1000 token none, .decide token familyEnv, .ack {} 0 token none]

def startParent : Step textSemver := .client 0 (.startOrchestration "p" "parent" "" none none none 1)

def twoGenerations : List (Step textSemver) :=
  startParent :: (familyTurn 1 ++ familyTurn 2 ++ familyTurn 3 ++ familyTurn 4)

/-- The schedule of the child that both executions start. -/
def childScheduled (executionId : Nat) : Event :=
  Event.withEventId ⟨0, "1.0.0"⟩ 2 "p" executionId none (.subOrchestrationScheduled "child" "sub::2" "")

end Duroxide.ChildNames
