import Duroxide.Proofs.ExecutedTurns
import Duroxide.Proofs.VersionPinning

/-! # Scheduled and enqueued work

The engine records an event for each action that the program emits beyond history, and the turn turns the
same actions into work items. So the new schedule events of a turn that goes on are its work items, in
order; at the end of an execution only detached starts are left of them.
-/

namespace Duroxide

/-- What a schedule event and the work item that it stands for have in common. -/
inductive Work where
  | activity (instanceId : String) (executionId id : Nat) (name input : String) (sessionId tag : Option String)
  | timer (instanceId : String) (executionId id fireAtMs : Nat)
  | child (parentInstance : String) (parentId : Nat) (instanceId name input : String)
  | detached (instanceId name input : String)
deriving DecidableEq, Repr

namespace Work

def isActivity : Work → Bool
  | .activity .. => true
  | _ => false

def isDetached : Work → Bool
  | .detached .. => true
  | _ => false

/-- The work that an event schedules. -/
def ofEvent (event : Event) : Option Work :=
  match event.kind with
  | .activityScheduled name input sessionId tag =>
      some (.activity event.instanceId event.executionId event.eventId name input sessionId tag)
  | .timerCreated fireAtMs => some (.timer event.instanceId event.executionId event.eventId fireAtMs)
  | .subOrchestrationScheduled name subInstance input =>
      some (.child event.instanceId event.eventId (buildChildInstanceId event.instanceId subInstance) name input)
  | .orchestrationChained name target input => some (.detached target name input)
  | _ => none

/-- The work that an item asks for. -/
def ofItem : WorkItem → Option Work
  | .activityExecute instanceId executionId id name input sessionId tag =>
      some (.activity instanceId executionId id name input sessionId tag)
  | .timerFired instanceId executionId id fireAtMs => some (.timer instanceId executionId id fireAtMs)
  | .startOrchestration target name input _ (some parentInstance) (some parentId) _ =>
      some (.child parentInstance parentId target name input)
  | .startOrchestration target name input _ none none _ => some (.detached target name input)
  | _ => none

/-- The work that an action of an execution asks for. -/
def ofAction (instanceId : String) (executionId : Nat) : Action → Option Work
  | .callActivity id name input sessionId tag => some (.activity instanceId executionId id name input sessionId tag)
  | .createTimer id fireAtMs => some (.timer instanceId executionId id fireAtMs)
  | .startSubOrchestration id name _ subInstance input =>
      some (.child instanceId id (buildChildInstanceId instanceId subInstance) name input)
  | .startOrchestrationDetached _ name _ target input => some (.detached target name input)
  | _ => none

theorem ofEvent_of_isMessage {event : Event} (message : event.kind.isMessage) : ofEvent event = none := by
  obtain ⟨eventId, source, instanceId, executionId, timestamp, crate, kind⟩ := event
  cases kind <;> first | rfl | cases message

theorem ofEvent_of_isBreadcrumb {event : Event} (breadcrumb : event.kind.isBreadcrumb) : ofEvent event = none := by
  obtain ⟨eventId, source, instanceId, executionId, timestamp, crate, kind⟩ := event
  cases kind <;> first | rfl | cases breadcrumb

theorem ofEvent_of_not_isInner {event : Event} (outer : event.kind.isInner = false) : ofEvent event = none := by
  obtain ⟨eventId, source, instanceId, executionId, timestamp, crate, kind⟩ := event
  cases kind <;> first | rfl | cases outer

/-- An action and its event ask for the same work. -/
theorem projects (instanceId : String) (executionId : Nat) :
    ReplayEngine.Projects instanceId executionId ofEvent (ofAction instanceId executionId) where
  action stamp action eventId := by cases action <;> rfl
  message event := ofEvent_of_isMessage
  breadcrumb event := ofEvent_of_isBreadcrumb

/-- Items that ask for the kept work of their actions, action by action, ask for the kept work of all. -/
theorem map_ofItem {instanceId : String} {executionId : Nat} {enqueued : Action → Option WorkItem} {keep : Work → Bool}
    (agrees : ∀ action, (enqueued action).map ofItem = ((ofAction instanceId executionId action).filter keep).map some)
    (actions : List Action) : (actions.filterMap enqueued).map ofItem =
      ((actions.filterMap (ofAction instanceId executionId)).filter keep).map some := by
  rw [List.map_filterMap, List.filter_filterMap, List.map_filterMap]
  exact List.filterMap_congr fun action _ => agrees action

theorem workerItem_agrees (instanceId : String) (executionId : Nat) (action : Action) :
    (Execution.workerItem instanceId executionId action).map ofItem =
      ((ofAction instanceId executionId action).filter isActivity).map some := by
  cases action <;> rfl

theorem orchestratorItem_agrees (instanceId : String) (executionId : Nat) (action : Action) :
    (Execution.orchestratorItem instanceId executionId action).map ofItem =
      ((ofAction instanceId executionId action).filter (!·.isActivity)).map some := by
  cases action <;> rfl

theorem detachedStart_agrees (instanceId : String) (executionId : Nat) (action : Action) :
    (Execution.detachedStart action).map ofItem = ((ofAction instanceId executionId action).filter isDetached).map some := by
  cases action <;> rfl

end Work

namespace Dispatcher

variable {semver : Semver} {env : RuntimeEnv semver} {item : OrchestrationItem} {outcome : ExecutionOutcome}
  {result : TurnResult} {engine : ReplayEngine} {manager : HistoryManager} {ending : List Event}

theorem reads_work : ReadsInner Work.ofEvent where
  outer _ := Work.ofEvent_of_not_isInner
  breadcrumb _ := Work.ofEvent_of_isBreadcrumb

/-- The new schedule events of a turn ask for the work of the engine's pending actions, in order. -/
theorem Turned.work (turned : Turned env item result engine outcome manager ending) :
    (turnRequest env item outcome).historyDelta.filterMap Work.ofEvent =
      engine.pendingActions.filterMap (Work.ofAction item.instanceId (turnExecution item).1) :=
  (reads_work.turned turned).trans (turned.projected (Work.projects _ _))

end Dispatcher

/-! ## Turns that go on -/

namespace ScheduledWork

open Dispatcher VersionPinning

variable {semver : Semver} {env : RuntimeEnv semver} {item : OrchestrationItem} {attemptCount : Nat}
  {outcome : ExecutionOutcome} {result : TurnResult} {engine : ReplayEngine} {request : AckRequest semver}
  {fallback : Option (ProviderError → AckRequest semver)}

def isCancelInstance : WorkItem → Bool
  | .cancelInstance .. => true
  | _ => false

/-- The work items of a request are the new schedule events, in their order; besides them it only cancels
instances. Every new event is numbered above those of the execution so far. -/
structure EnqueuesScheduled (item : OrchestrationItem) (request : AckRequest semver) : Prop where
  activities : request.workerItems.map Work.ofItem =
    ((request.historyDelta.filterMap Work.ofEvent).filter (·.isActivity)).map some
  others : ∃ enqueued cancels, request.orchestratorItems = enqueued ++ cancels ∧
    enqueued.map Work.ofItem = ((request.historyDelta.filterMap Work.ofEvent).filter (!·.isActivity)).map some ∧
    ∀ cancel ∈ cancels, isCancelInstance cancel
  new : Ascending item.history → ∀ event ∈ request.historyDelta, ∀ old ∈ baseHistory item request.executionId,
    old.eventId < event.eventId

/-- A turn within its limits whose program goes on enqueues what it schedules. -/
theorem enqueuesScheduled_of_continue (turn : executeTurn env item attemptCount = .ack request fallback)
    (executed : turnExecuted env item = some (.continue, engine)) (ran : turnOutcome env item = some outcome)
    (within : limitError outcome.historyMgr.delta item.kvSnapshot = none) : EnqueuesScheduled item request := by
  rw [executeTurn_eq, ran] at turn
  cases turn
  obtain ⟨manager, ending, turned⟩ := turned_of_executed executed ran
  refine ⟨?_, ?_, ?_⟩
  · rw [workerItems_of_within within, turned.workerItems, turned.work]
    exact Work.map_ofItem (Work.workerItem_agrees _ _) _
  · refine ⟨engine.pendingActions.filterMap (Execution.orchestratorItem item.instanceId (turnExecution item).1),
      engine.cancelledSubOrchestrationIds.map fun child =>
        .cancelInstance (buildChildInstanceId item.instanceId child) "parent dropped sub-orchestration future", ?_, ?_, ?_⟩
    · rw [items_of_within within, turned.orchestratorItems]
      rfl
    · rw [turned.work]
      exact Work.map_ofItem (Work.orchestratorItem_agrees _ _) _
    · intro cancel member
      obtain ⟨child, _, rfl⟩ := List.mem_map.mp member
      rfl
  · intro history event member old base
    obtain ⟨_, _, _, _, _, events⟩ := requestEvents ran history
    exact (List.pairwise_append.mp events.ascending).2.2 old base event member

/-! An orchestration that schedules one piece of work of each kind, and then waits or continues as new. -/

def fanningHandler : OrchestrationHandler where
  State := Option String
  invoke := some
  poll
    | some input => .call (.scheduleActivity "charge" "" none) fun _ => .call (.scheduleTimer 5) fun _ =>
        .call (.scheduleSubOrchestration "child" none none "") fun _ =>
        .call (.scheduleOrchestration "audit" none "a" "") fun _ =>
          if input = "again" then .call (.continueAsNew "" none) fun _ => .suspend none else .suspend none
    | none => .suspend none

def fanningEnv : RuntimeEnv textSemver :=
  registeredEnv fun name => if name = "parent" then some fanningHandler else none

/-- The item of a start request. -/
def startedItem (input : String) : OrchestrationItem where
  instanceId := "p"
  orchestrationName := "parent"
  executionId := 1
  version := "unknown"
  history := []
  messages := [.startOrchestration "p" "parent" input none none none 1]
  historyError := none
  kvSnapshot := ∅

theorem enqueuesScheduled_of_continue_wait : ∃ request fallback,
    executeTurn fanningEnv (startedItem "wait") 1 = .ack request fallback ∧
      (request.workerItems.length = 1 ∧ request.orchestratorItems.length = 3) ∧
      EnqueuesScheduled (startedItem "wait") request := by
  have observed : (turnExecuted fanningEnv (startedItem "wait")).any (·.1 == .continue) = true ∧
      (turnOutcome fanningEnv (startedItem "wait")).any (fun outcome =>
        (limitError outcome.historyMgr.delta (startedItem "wait").kvSnapshot).isNone &&
          outcome.workerItems.length == 1 && outcome.orchestratorItems.length == 3) = true := by
    decide +kernel
  obtain ⟨⟨⟨result, engine⟩, executed, goesOn⟩, outcome, ran, facts⟩ :=
    observed.imp (Option.any_eq_true _ _).mp (Option.any_eq_true _ _).mp
  obtain rfl : result = .continue := eq_of_beq goesOn
  simp only [Bool.and_eq_true, beq_iff_eq, Option.isNone_iff_eq_none] at facts
  obtain ⟨⟨within, workers⟩, orchestrators⟩ := facts
  have turn := executeTurn_eq fanningEnv (startedItem "wait") 1
  rw [ran] at turn
  refine ⟨_, _, turn, ⟨?_, ?_⟩, enqueuesScheduled_of_continue turn executed ran within⟩
  · rw [workerItems_of_within within, workers]
  · rw [items_of_within within, orchestrators]

end ScheduledWork

/-! ## Detached starts -/

namespace Work

/-- The kept work of items, where the items of actions ask for what their actions do. -/
theorem filterMap_ofItem {instanceId : String} {executionId : Nat} {enqueued : Action → Option WorkItem}
    {keep : Work → Bool}
    (agrees : ∀ action, (enqueued action).map ofItem = ((ofAction instanceId executionId action).filter keep).map some)
    (actions : List Action) : (actions.filterMap enqueued).filterMap ofItem =
      (actions.filterMap (ofAction instanceId executionId)).filter keep := by
  have mapped := congrArg (List.filterMap id) (map_ofItem agrees actions)
  rw [List.filterMap_map, List.filterMap_map] at mapped
  exact mapped.trans List.filterMap_some

theorem filter_isDetached_of_keep {keep : Work → Bool} (keeps : ∀ work : Work, work.isDetached → keep work)
    (works : List Work) : (works.filter keep).filter (·.isDetached) = works.filter (·.isDetached) := by
  rw [List.filter_filter]
  refine List.filter_congr fun work _ => ?_
  rcases detached : work.isDetached with _ | _
  · rfl
  · exact keeps work detached

end Work

namespace Execution

/-- The results after which the detached starts of a turn are honored. -/
def honorsDetached : TurnResult → Bool
  | .continue | .completed _ | .failed _ => true
  | .continueAsNew .. | .cancelled _ => false

theorem notifyParent_ofItem (executionIds : ExecutionIds) (parentLink : Option (String × Nat))
    {notice : String → Nat → Nat → WorkItem}
    (silent : ∀ parentInstance parentExecutionId parentId,
      Work.ofItem (notice parentInstance parentExecutionId parentId) = none) :
    (notifyParent executionIds parentLink notice).filterMap Work.ofItem = [] := by
  cases parentLink with
  | none => rfl
  | some link => exact List.filterMap_eq_nil_iff.mpr fun item member => List.mem_singleton.mp member ▸ silent ..

/-- What a result makes of the detached starts among the pending actions. -/
theorem applyTurnResult_detached (stamp : Stamp) (executionIds : ExecutionIds) (instanceId orchestrationName : String)
    (executionId : Nat) (manager : HistoryManager) (parentLink : Option (String × Nat)) (pendingActions : List Action)
    (result : TurnResult) :
    ((applyTurnResult stamp executionIds instanceId orchestrationName executionId manager parentLink pendingActions
        result).orchestratorItems.filterMap Work.ofItem).filter (·.isDetached) =
      if honorsDetached result then
        (pendingActions.filterMap (Work.ofAction instanceId executionId)).filter (·.isDetached)
      else [] := by
  have honored : (pendingActions.filterMap detachedStart).filterMap Work.ofItem =
      (pendingActions.filterMap (Work.ofAction instanceId executionId)).filter (·.isDetached) :=
    Work.filterMap_ofItem (Work.detachedStart_agrees _ _) _
  cases result with
  | «continue» =>
    simp only [applyTurnResult, honorsDetached, if_true]
    rw [Work.filterMap_ofItem (Work.orchestratorItem_agrees _ _) _]
    exact Work.filter_isDetached_of_keep (fun work detached => by cases work <;> first | rfl | cases detached) _
  | completed output =>
    simp only [applyTurnResult, honorsDetached, if_true, List.filterMap_append, honored]
    rw [notifyParent_ofItem executionIds parentLink fun _ _ _ => rfl, List.append_nil]
    exact Work.filter_isDetached_of_keep (fun _ detached => detached) _
  | failed details =>
    simp only [applyTurnResult, honorsDetached, if_true, List.filterMap_append, honored]
    rw [notifyParent_ofItem executionIds parentLink fun _ _ _ => rfl, List.append_nil]
    exact Work.filter_isDetached_of_keep (fun _ detached => detached) _
  | continueAsNew input version => rfl
  | cancelled reason =>
    simp only [applyTurnResult, honorsDetached, Bool.false_eq_true, if_false, List.filterMap_append, List.filterMap_map]
    rw [notifyParent_ofItem executionIds parentLink fun _ _ _ => rfl, List.append_nil]
    exact List.filter_eq_nil_iff.mpr fun work member => by
      obtain ⟨child, _, asked⟩ := List.mem_filterMap.mp member
      cases asked

end Execution

namespace DetachedStarts

open Dispatcher ScheduledWork

variable {semver : Semver} {env : RuntimeEnv semver} {item : OrchestrationItem} {attemptCount : Nat}
  {outcome : ExecutionOutcome} {result : TurnResult} {engine : ReplayEngine} {request : AckRequest semver}
  {fallback : Option (ProviderError → AckRequest semver)}

/-- The detached starts that the events of a request record. -/
def recordedStarts (request : AckRequest semver) : List Work :=
  (request.historyDelta.filterMap Work.ofEvent).filter (·.isDetached)

/-- The detached starts that the items of a request ask for. -/
def enqueuedStarts (request : AckRequest semver) : List Work :=
  (request.orchestratorItems.filterMap Work.ofItem).filter (·.isDetached)

/-- The recorded detached starts and the enqueued ones match one to one. -/
def StartsDetached (request : AckRequest semver) : Prop := (recordedStarts request).Perm (enqueuedStarts request)

/-- A turn emits no detached start, or it has a result that honors them and exceeds no limit. -/
def Honors (env : RuntimeEnv semver) (item : OrchestrationItem) : Prop :=
  ∀ result engine, turnExecuted env item = some (result, engine) →
    engine.pendingActions.filterMap Execution.detachedStart = [] ∨
      Execution.honorsDetached result ∧
        ∀ outcome, turnOutcome env item = some outcome → limitError outcome.historyMgr.delta item.kvSnapshot = none

theorem enqueuedStarts_of_exceeded (exceeds : limitError outcome.historyMgr.delta item.kvSnapshot ≠ none) :
    enqueuedStarts (turnRequest env item outcome) = [] := by
  rw [enqueuedStarts, items_of_exceeded exceeds]
  rfl

/-- Within the limits a turn asks for the detached starts of a result that honors them, and for no others. -/
theorem enqueuedStarts_of_within {manager : HistoryManager} {ending : List Event}
    (turned : Turned env item result engine outcome manager ending)
    (within : limitError outcome.historyMgr.delta item.kvSnapshot = none) :
    enqueuedStarts (turnRequest env item outcome) =
      if Execution.honorsDetached result then
        (engine.pendingActions.filterMap (Work.ofAction item.instanceId (turnExecution item).1)).filter (·.isDetached)
      else [] := by
  have cancels : ((engine.cancelledSubOrchestrationIds.map fun child =>
      WorkItem.cancelInstance (buildChildInstanceId item.instanceId child) "parent dropped sub-orchestration future").filterMap
        Work.ofItem) = [] := by
    rw [List.filterMap_map]
    exact List.filterMap_eq_nil_iff.mpr fun _ _ => rfl
  rw [enqueuedStarts, items_of_within within, turned.orchestratorItems, List.filterMap_append, cancels, List.append_nil]
  exact Execution.applyTurnResult_detached ..

/-- A turn that ran nothing records no detached start and asks for none. -/
theorem startsDetached_of_unexecuted (idle : turnExecuted env item = none) (ran : turnOutcome env item = some outcome) :
    StartsDetached (turnRequest env item outcome) := by
  have nothing := outcome_of_unexecuted idle ran
  have recorded : recordedStarts (turnRequest env item outcome) = [] := by
    rw [recordedStarts, reads_work.turnRequest, nothing, turnExecution_delta]
    rfl
  have enqueued : enqueuedStarts (turnRequest env item outcome) = [] := by
    by_cases within : limitError outcome.historyMgr.delta item.kvSnapshot = none
    · rw [enqueuedStarts, items_of_within within, nothing]
      rfl
    · exact enqueuedStarts_of_exceeded within
  rw [StartsDetached, recorded, enqueued]

/-- The pending actions hold a detached start exactly if they ask for detached work. -/
theorem detachedStarts_eq_nil_iff {instanceId : String} {executionId : Nat} {actions : List Action} :
    actions.filterMap Execution.detachedStart = [] ↔
      (actions.filterMap (Work.ofAction instanceId executionId)).filter (·.isDetached) = [] := by
  rw [← List.map_eq_nil_iff (f := Work.ofItem), Work.map_ofItem (Work.detachedStart_agrees instanceId executionId),
    List.map_eq_nil_iff]

/-- A turn starts what it records as detached exactly if it honors detached starts. -/
theorem startsDetached_iff (turn : executeTurn env item attemptCount = .ack request fallback) :
    (StartsDetached request ↔ Honors env item) ∧ ∀ commit ∈ fallback, ∀ error, StartsDetached (commit error) := by
  rw [executeTurn_eq] at turn
  rcases ran : turnOutcome env item with _ | outcome <;> rw [ran] at turn <;> cases turn
  refine ⟨?_, ?_⟩
  · rcases executed : turnExecuted env item with _ | ⟨result, engine⟩
    · refine iff_of_true (startsDetached_of_unexecuted executed ran) fun result engine ran => ?_
      rw [executed] at ran
      cases ran
    · obtain ⟨manager, ending, turned⟩ := turned_of_executed executed ran
      rw [StartsDetached, recordedStarts, turned.work]
      constructor
      · intro matched other otherEngine same
        obtain ⟨rfl, rfl⟩ := Prod.mk.inj (Option.some.inj (executed.symm.trans same))
        by_cases within : limitError outcome.historyMgr.delta item.kvSnapshot = none
        · rw [enqueuedStarts_of_within turned within] at matched
          split_ifs at matched with honored
          · refine .inr ⟨honored, fun other same => ?_⟩
            obtain rfl := Option.some.inj (ran.symm.trans same)
            exact within
          · exact .inl (detachedStarts_eq_nil_iff.mpr matched.eq_nil)
        · rw [enqueuedStarts_of_exceeded within] at matched
          exact .inl (detachedStarts_eq_nil_iff.mpr matched.eq_nil)
      · intro honors
        rcases honors result engine executed with none | ⟨honored, within⟩
        · rw [detachedStarts_eq_nil_iff.mp none]
          by_cases within : limitError outcome.historyMgr.delta item.kvSnapshot = .none
          · rw [enqueuedStarts_of_within turned within, detachedStarts_eq_nil_iff.mp none, ite_self]
          · rw [enqueuedStarts_of_exceeded within]
        · rw [enqueuedStarts_of_within turned (within outcome ran), if_pos honored]
  · intro commit given error
    cases given
    have recorded : recordedStarts (failureCommit env item (turnExecution item).1 error) = [] := by
      rw [recordedStarts, failureCommit]
      dsimp only
      rw [(HistoryManager.extends_appendFailed _ _).delta, HistoryManager.fromHistory_delta]
      rfl
    rw [StartsDetached, recorded]
    rfl

theorem startsDetached_iff_wait : ∃ request fallback,
    executeTurn fanningEnv (startedItem "wait") 1 = .ack request fallback ∧
      (StartsDetached request ↔ Honors fanningEnv (startedItem "wait")) ∧
      ∀ commit ∈ fallback, ∀ error, StartsDetached (commit error) := by
  have observed : (turnOutcome fanningEnv (startedItem "wait")).isSome = true := by
    decide +kernel
  obtain ⟨outcome, ran⟩ := Option.isSome_iff_exists.mp observed
  have turn := executeTurn_eq fanningEnv (startedItem "wait") 1
  rw [ran] at turn
  exact ⟨_, _, turn, startsDetached_iff turn⟩

/-- A turn that continues as new records its detached start and enqueues only the next execution. -/
theorem again_notStartsDetached : ∃ request fallback,
    executeTurn fanningEnv (startedItem "again") 1 = .ack request fallback ∧ ¬ StartsDetached request := by
  have observed : (turnOutcome fanningEnv (startedItem "again")).any (fun outcome =>
      recordedStarts (turnRequest fanningEnv (startedItem "again") outcome) == [.detached "a" "audit" ""] &&
        enqueuedStarts (turnRequest fanningEnv (startedItem "again") outcome) == []) = true := by
    decide +kernel
  obtain ⟨outcome, ran, facts⟩ := (Option.any_eq_true _ _).mp observed
  simp only [Bool.and_eq_true, beq_iff_eq] at facts
  have turn := executeTurn_eq fanningEnv (startedItem "again") 1
  rw [ran] at turn
  refine ⟨_, _, turn, fun matched => ?_⟩
  rw [StartsDetached, facts.1, facts.2] at matched
  exact absurd matched.eq_nil (List.cons_ne_nil _ _)

end DetachedStarts

end Duroxide
