import Duroxide.Proofs.Lifecycle

/-! # The link of a sub-orchestration to its parent

The parent that waits for an instance stands in the start event of its first execution: the start event
of an execution that continues another one names no parent. A turn notifies the parent that its own
execution names, once, exactly if it completes, fails or is cancelled.
-/

namespace Duroxide

open Provider Dispatcher HistoryManager

variable {semver : Semver}

/-! ## Results of sub-orchestrations -/

def WorkItem.isSubOrchResult : WorkItem → Bool
  | .subOrchCompleted .. | .subOrchFailed .. => true
  | _ => false

/-- The results among the items of a request. -/
def AckRequest.notices (request : AckRequest semver) : List WorkItem := request.orchestratorItems.filter (·.isSubOrchResult)

/-- A result for a parent, under the id of the event that scheduled the child. -/
inductive Informs (parent : String) (parentId : Nat) : WorkItem → Prop
  | completed (executionId : Nat) (result : String) :
      Informs parent parentId (.subOrchCompleted parent executionId parentId result)
  | failed (executionId : Nat) (details : ErrorDetails) :
      Informs parent parentId (.subOrchFailed parent executionId parentId details)

/-- A request informs a parent once, and nobody else. -/
def NotifiesOnce (request : AckRequest semver) (parent : String) (parentId : Nat) : Prop :=
  ∃ notice, request.notices = [notice] ∧ Informs parent parentId notice

namespace Execution

variable {stamp : Stamp} {executionIds : ExecutionIds} {instanceId orchestrationName : String} {executionId : Nat}
  {manager : HistoryManager} {parentLink : Option (String × Nat)} {pendingActions : List Action}

/-- What a result of a turn tells the parent. -/
def notice (executionIds : ExecutionIds) (parentLink : Option (String × Nat)) : TurnResult → List WorkItem
  | .completed output => notifyParent executionIds parentLink (.subOrchCompleted · · · output)
  | .failed details => notifyParent executionIds parentLink (.subOrchFailed · · · details)
  | .cancelled reason =>
      notifyParent executionIds parentLink (.subOrchFailed · · · (.application (.cancelled reason) "" false))
  | .continue | .continueAsNew .. => []

theorem filter_notifyParent {item : String → Nat → Nat → WorkItem}
    (result : ∀ parent execution id, (item parent execution id).isSubOrchResult) :
    (notifyParent executionIds parentLink item).filter (·.isSubOrchResult) = notifyParent executionIds parentLink item := by
  unfold notifyParent
  split
  · exact List.filter_cons_of_pos (result _ _ _)
  · rfl

theorem filter_detachedStart : (pendingActions.filterMap detachedStart).filter (·.isSubOrchResult) = [] := by
  rw [List.filter_eq_nil_iff]
  intro item member
  obtain ⟨action, _, emitted⟩ := List.mem_filterMap.mp member
  cases action <;> cases emitted
  exact Bool.false_ne_true

theorem filter_orchestratorItem :
    (pendingActions.filterMap (orchestratorItem instanceId executionId)).filter (·.isSubOrchResult) = [] := by
  rw [List.filter_eq_nil_iff]
  intro item member
  obtain ⟨action, _, emitted⟩ := List.mem_filterMap.mp member
  cases action <;> cases emitted <;> exact Bool.false_ne_true

theorem filter_cancelInstance {Child : Type} (children : List Child) (target : Child → String) (reason : String) :
    (children.map fun child => WorkItem.cancelInstance (target child) reason).filter (·.isSubOrchResult) = [] := by
  rw [List.filter_eq_nil_iff]
  intro item member
  obtain ⟨child, _, rfl⟩ := List.mem_map.mp member
  exact Bool.false_ne_true

theorem applyTurnResult_notices (result : TurnResult) :
    (applyTurnResult stamp executionIds instanceId orchestrationName executionId manager parentLink pendingActions
      result).orchestratorItems.filter (·.isSubOrchResult) = notice executionIds parentLink result := by
  cases result with
  | «continue» => exact filter_orchestratorItem
  | completed output =>
    rw [applyTurnResult, List.filter_append, filter_detachedStart, filter_notifyParent fun _ _ _ => rfl]
    rfl
  | failed details =>
    rw [applyTurnResult, List.filter_append, filter_detachedStart, filter_notifyParent fun _ _ _ => rfl]
    rfl
  | continueAsNew input version => rfl
  | cancelled reason =>
    rw [applyTurnResult, List.filter_append, filter_cancelInstance, filter_notifyParent fun _ _ _ => rfl]
    rfl

theorem runSingleExecutionAtomic_notices (reader : WorkItemReader) (handler : OrchestrationHandler)
    (orchestrationVersion : String) (kvSnapshot : AList (fun _ : String => KvEntry)) :
    (runSingleExecutionAtomic stamp executionIds instanceId manager reader executionId handler orchestrationVersion
      kvSnapshot).orchestratorItems.filter (·.isSubOrchResult) =
        notice executionIds manager.extractContext.2
          (executedTurn stamp instanceId manager reader executionId handler orchestrationVersion kvSnapshot).1 := by
  unfold runSingleExecutionAtomic
  rw [List.filter_append, filter_cancelInstance, List.append_nil]
  exact applyTurnResult_notices _

/-- The notice of a result is addressed to the linked parent, if the result ends the orchestration. -/
theorem notice_of_linked {parent : String} {parentId : Nat} {result : TurnResult} {kind : EventKind}
    (terminal : terminalKind result = some kind) (ends : kind.isCompleted ∨ kind.isFailed) :
    ∃ item, notice executionIds (some (parent, parentId)) result = [item] ∧ Informs parent parentId item := by
  cases result with
  | «continue» => cases terminal
  | completed output => exact ⟨_, rfl, .completed _ output⟩
  | failed details => exact ⟨_, rfl, .failed _ details⟩
  | cancelled reason => exact ⟨_, rfl, .failed _ _⟩
  | continueAsNew input version =>
    cases terminal
    rcases ends with completed | failed
    · cases completed
    · cases failed

theorem notice_of_unlinked (result : TurnResult) : notice executionIds none result = [] := by
  cases result <;> rfl

end Execution

/-! ## The parent that a history names -/

/-- The parent that the start event among some events names. -/
def linkOf (events : List Event) : Option (String × Nat) := events.findSome? parentOfStarted

theorem parentOfStarted_of_unstarted {event : Event} (unstarted : event.kind.isStarted = false) :
    parentOfStarted event = none := by
  obtain ⟨eventId, source, instanceId, executionId, timestamp, crate, kind⟩ := event
  cases kind with
  | orchestrationStarted => cases unstarted
  | _ => rfl

theorem linkOf_of_unstarted {events : List Event} (unstarted : ∀ event ∈ events, event.kind.isStarted = false) :
    linkOf events = none :=
  List.findSome?_eq_none_iff.mpr fun event member => parentOfStarted_of_unstarted (unstarted event member)

/-- A history names the parent of its first event. -/
theorem HistoryOrigin.linkOf_cons {first : Event} {rest : List Event} (history : HistoryOrigin (first :: rest)) :
    linkOf (first :: rest) = parentOfStarted first := by
  rw [linkOf, List.findSome?_cons]
  split
  · rename_i link found
    exact found.symm
  · rename_i none
    rw [none]
    exact linkOf_of_unstarted history.startsOnce

namespace HistoryManager

theorem readTerminal_context (metadata : HistoryManager) (events : List Event) :
    (metadata.readTerminal events).orchestrationInput = metadata.orchestrationInput ∧
      (metadata.readTerminal events).parentInstance = metadata.parentInstance ∧
      (metadata.readTerminal events).parentId = metadata.parentId ∧ (metadata.readTerminal events).delta = metadata.delta := by
  unfold readTerminal
  split
  · split <;> exact ⟨rfl, rfl, rfl, rfl⟩
  · exact ⟨rfl, rfl, rfl, rfl⟩

/-- The context depends on what the scan of the history found. -/
theorem extractContext_readTerminal (metadata : HistoryManager) (events : List Event) :
    (metadata.readTerminal events).extractContext = metadata.extractContext := by
  obtain ⟨input, parentInstance, parentId, delta⟩ := readTerminal_context metadata events
  rw [extractContext, extractContext, input, parentInstance, parentId, startedInDelta, startedInDelta, delta]

/-- A manager that read a history knows the parent that the history names. -/
theorem extractContext_fromHistory {events : List Event} (history : HistoryOrigin events) :
    (fromHistory events).extractContext.2 = linkOf events := by
  have scanned : (fromHistory events).extractContext.2 = (events.foldl readStarted { history := events }).extractContext.2 := by
    unfold fromHistory
    dsimp only
    split
    · rw [extractContext_readTerminal]
    · rfl
  rw [scanned]
  rcases events with _ | ⟨first, rest⟩
  · rfl
  have once : (first :: rest).foldl readStarted { history := first :: rest } =
      readStarted { history := first :: rest } first := foldl_readStarted_of_none history.startsOnce _
  rw [once, history.linkOf_cons]
  obtain ⟨eventId, source, instanceId, executionId, timestamp, crate, kind⟩ := first
  cases kind <;> rfl

end HistoryManager

/-! ## The parent of a turn -/

namespace Dispatcher

variable {env : RuntimeEnv semver} {item : OrchestrationItem} {attemptCount : Nat} {outcome : ExecutionOutcome}

/-- A continue-as-new item names no parent. -/
theorem parents_of_continues (continues : (workitemReader item).isContinueAsNew) :
    (workitemReader item).parentInstance = none ∧ (workitemReader item).parentId = none := by
  have parsed := WorkItemReader.parsed_fromMessages item.messages (tempHistoryMgr item) item.instanceId
  change WorkItemReader.Parsed _ _ _ (workitemReader item) at parsed
  generalize workitemReader item = reader at parsed continues
  cases parsed with
  | continueAsNew => exact ⟨rfl, rfl⟩
  | start | neither => cases continues

/-- The parent that a turn knows: the one in its history, or else the one that its batch names. -/
def turnLink (item : OrchestrationItem) : Option (String × Nat) :=
  if (baseHistory item (turnExecution item).1).isEmpty then
    parentLink (workitemReader item).parentInstance (workitemReader item).parentId
  else linkOf item.history

theorem extractContext_startIfNew (history : HistoryOrigin item.history) (version : String) :
    (startIfNew env.stamp item.instanceId (turnExecution item).1 (workitemReader item) version
      (turnExecution item).2).extractContext.2 = turnLink item := by
  have manager := turnExecution_eq item
  have full := turnExecution_fullHistory item
  rcases base : baseHistory item (turnExecution item).1 with _ | ⟨first, rest⟩
  · have new : (turnExecution item).2 = fromHistory [] := by
      rw [manager, base]
    rw [new, turnLink, base]
    rfl
  · have read : baseHistory item (turnExecution item).1 = item.history := by
      unfold baseHistory at base ⊢
      split_ifs at base ⊢ with same
      · rfl
    have same : (turnExecution item).2 = fromHistory item.history := by
      rw [manager, read]
    have occupied : (turnExecution item).2.isEmpty = false := by
      rw [same, HistoryManager.isEmpty, fromHistory_history, ← read, base]
      rfl
    rw [startIfNew, if_neg (by rw [occupied]; exact Bool.false_ne_true), same, extractContext_fromHistory history,
      turnLink, base]
    rfl

/-- The notices of a turn within its limits. -/
theorem turnRequest_notices (history : HistoryOrigin item.history)
    {version : String} {handler : OrchestrationHandler}
    (within : limitError (Execution.runSingleExecutionAtomic env.stamp env.executionIds item.instanceId
      (startIfNew env.stamp item.instanceId (turnExecution item).1 (workitemReader item) version (turnExecution item).2)
      (workitemReader item) (turnExecution item).1 handler version item.kvSnapshot).historyMgr.delta item.kvSnapshot = none) :
    (turnRequest env item (Execution.runSingleExecutionAtomic env.stamp env.executionIds item.instanceId
      (startIfNew env.stamp item.instanceId (turnExecution item).1 (workitemReader item) version (turnExecution item).2)
      (workitemReader item) (turnExecution item).1 handler version item.kvSnapshot)).notices =
        Execution.notice env.executionIds (turnLink item) (Execution.executedTurn env.stamp item.instanceId
          (startIfNew env.stamp item.instanceId (turnExecution item).1 (workitemReader item) version (turnExecution item).2)
          (workitemReader item) (turnExecution item).1 handler version item.kvSnapshot).1 := by
  rw [AckRequest.notices, items_of_within within, Execution.runSingleExecutionAtomic_notices,
    extractContext_startIfNew history]

/-- The terminal event of a turn within its limits is that of its result. -/
theorem executed_of_ended (ran : turnOutcome env item = some outcome) (history : Ascending item.history)
    (within : limitError outcome.historyMgr.delta item.kvSnapshot = none) {event : Event}
    (member : event ∈ (turnRequest env item outcome).historyDelta) (terminal : event.kind.isTerminal) :
    ∃ version handler,
      outcome = Execution.runSingleExecutionAtomic env.stamp env.executionIds item.instanceId
        (startIfNew env.stamp item.instanceId (turnExecution item).1 (workitemReader item) version (turnExecution item).2)
        (workitemReader item) (turnExecution item).1 handler version item.kvSnapshot ∧
      Execution.terminalKind (Execution.executedTurn env.stamp item.instanceId
        (startIfNew env.stamp item.instanceId (turnExecution item).1 (workitemReader item) version (turnExecution item).2)
        (workitemReader item) (turnExecution item).1 handler version item.kvSnapshot).1 = some event.kind := by
  obtain ⟨_, _, _, limit, trailing, events⟩ := requestEvents ran history
  have own : event ∈ outcome.historyMgr.delta := by
    rw [events.delta_of_within within] at member
    refine (List.mem_append.mp member).resolve_right fun behind => ?_
    rw [EventKind.isTerminal_of_isBreadcrumb (events.breadcrumbs event behind)] at terminal
    cases terminal
  cases ran_of_turnOutcome ran with
  | unnamed =>
    rw [turnExecution_delta] at own
    exact absurd own List.not_mem_nil
  | executed named version handler resolved =>
    refine ⟨semver.render version, handler, rfl, ?_⟩
    obtain ⟨opening, opens, started⟩ := startIfNew_extends env item named version
    have full : Ascending (turnExecution item).2.fullHistory :=
      turnExecution_fullHistory item ▸ ascending_baseHistory history _
    obtain ⟨body, ending, extended, _, inner, ends⟩ := Execution.runSingleExecutionAtomic_extends env.executionIds
      (workitemReader item) handler (semver.render version) item.kvSnapshot (started.ascending full)
    rw [(started.trans extended).delta, turnExecution_delta, List.nil_append] at own
    rcases List.mem_append.mp own with inOpening | later
    · exfalso
      cases opens with
      | continues | unnamed => exact List.not_mem_nil inOpening
      | opens =>
        rw [List.mem_singleton.mp inOpening] at terminal
        cases terminal
    · rcases List.mem_append.mp later with inBody | inEnding
      · rw [EventKind.isTerminal_of_isInner (inner event inBody)] at terminal
        cases terminal
      · exact ends.kind_of_terminal inEnding terminal

end Dispatcher

/-! ## Links in every run -/

/-- A name and a version come from a start event. -/
theorem started_of_identity {delta : List Event} {metadata : ExecutionMetadata semver} (anonymous : identityOf metadata = none)
    (named : (identityOf (computeExecutionMetadata semver delta metadata)).isSome) :
    ∃ event ∈ delta, event.kind.isStarted := by
  induction delta with
  | nil =>
    rw [computeExecutionMetadata, anonymous] at named
    cases named
  | cons event rest ih =>
    obtain ⟨eventId, source, instanceId, executionId, timestamp, crate, kind⟩ := event
    cases kind with
    | orchestrationStarted => exact ⟨_, List.mem_cons_self, rfl⟩
    | orchestrationCompleted | orchestrationFailed | orchestrationContinuedAsNew =>
      change (identityOf metadata).isSome at named
      rw [anonymous] at named
      cases named
    | _ =>
      obtain ⟨started, member, isStarted⟩ := ih named
      exact ⟨started, List.mem_cons_of_mem _ member, isStarted⟩

namespace Asks.Source

variable {conditions : Conditions semver} {item : OrchestrationItem} {attemptCount : Nat} {request : AckRequest semver}

/-- A request over no history that names its instance starts its execution. -/
theorem started (source : Source conditions item attemptCount request) (readable : item.historyError = none)
    (empty : item.history = []) (named : (identityOf request.metadata).isSome) :
    ∃ event ∈ request.historyDelta, event.kind.isStarted := by
  have history : Ascending item.history := empty ▸ .nil
  cases source with
  | answer env allowed supported _ fallback answered =>
    cases answered with
    | corrupted exceeded message unreadable =>
      rw [readable] at unreadable
      cases unreadable
    | poisoned =>
      have events := (@failOrchestrationAsPoison_events semver env item attemptCount readable history).1
      generalize (failOrchestrationAsPoison env item attemptCount).historyDelta = delta at events
      cases events with
      | recorded occupied => exact absurd empty occupied
      | new _ started failed begins => exact ⟨started, List.mem_cons_self, by rw [begins.kind]; rfl⟩
    | ended => cases named
    | turned inTime _ running outcome ran =>
      obtain ⟨opening, body, ending, limit, trailing, events⟩ := requestEvents ran history
      have identity : identityOf (turnRequest env item outcome).metadata = _ := events.limited.identity
      rw [identity] at named
      obtain ⟨event, member, started⟩ := started_of_identity rfl named
      rw [events.outcomeDelta] at member
      refine ⟨event, ?_, started⟩
      rw [events.delta]
      exact List.mem_append_left _ (List.mem_append_left _ member)
  | failure env allowed supported turned _ outcome ran running error =>
    obtain ⟨event, member, started⟩ := started_of_identity rfl named
    exact ⟨event, member, started⟩

/-- The start event of a request names a parent only if it starts the first execution. -/
theorem unlinked (source : Source conditions item attemptCount request) (history : Ascending item.history)
    {event : Event} (member : event ∈ request.historyDelta) :
    request.executionId = item.executionId ∧ item.history = [] ∧ item.historyError = none ∨
      parentOfStarted event = none := by
  have failure : event.kind.isFailed → parentOfStarted event = none := by
    intro failed
    refine parentOfStarted_of_unstarted ?_
    obtain ⟨eventId, source, instanceId, executionId, timestamp, crate, kind⟩ := event
    cases kind with
    | orchestrationStarted => cases failed
    | _ => rfl
  rcases error : item.historyError with _ | message
  swap
  · obtain ⟨_, failed, delta, _, kind⟩ := source.corrupted error
    rw [delta] at member
    rw [← List.mem_singleton.mp member] at kind
    exact .inr (failure kind)
  cases source with
  | answer env allowed supported _ fallback answered =>
    cases answered with
    | corrupted exceeded message unreadable =>
      rw [error] at unreadable
      cases unreadable
    | poisoned =>
      have events := (@failOrchestrationAsPoison_events semver env item attemptCount error history).1
      generalize delta : (failOrchestrationAsPoison env item attemptCount).historyDelta = delta at events member
      cases events with
      | recorded occupied failed kind =>
        rw [← List.mem_singleton.mp member] at kind
        exact .inr (failure (by rw [kind]; rfl))
      | new empty => exact .inl ⟨failOrchestrationAsPoison_executionId, empty, rfl⟩
    | ended => exact absurd member List.not_mem_nil
    | turned inTime _ running outcome ran =>
      obtain ⟨opening, body, ending, limit, trailing, events⟩ := requestEvents ran history
      rcases starts : event.kind.isStarted with _ | _
      · exact .inr (parentOfStarted_of_unstarted starts)
      have opened := events.mem_opening member starts
      cases events.turn.opens with
      | continues | unnamed => exact absurd opened List.not_mem_nil
      | opens new named version =>
        rw [List.mem_singleton.mp opened]
        rcases turnExecution_cases item with same | ⟨_, continues⟩
        · rw [same, baseHistory_self] at new
          exact .inl ⟨same, new, rfl⟩
        · have parents := parents_of_continues continues
          rw [startedEvent, parents.1, parents.2]
          exact .inr rfl
  | failure env allowed supported turned _ outcome ran running error' =>
    obtain ⟨failed, kind, delta, _⟩ := @failureCommit_events semver env item (turnExecution item).1 error' history
    rw [delta] at member
    rw [← List.mem_singleton.mp member] at kind
    exact .inr (failure (by rw [kind]; rfl))

end Asks.Source

/-- The first execution of an instance with a row has started, and later ones name no parent. -/
structure ParentLinks (store : Store) : Prop where
  started : ∀ instanceId info, store.instances instanceId = some info →
    ∃ event ∈ store.recorded instanceId INITIAL_EXECUTION_ID, event.kind.isStarted
  unlinked : ∀ instanceId executionId, executionId ≠ INITIAL_EXECUTION_ID →
    ∀ event ∈ store.recorded instanceId executionId, parentOfStarted event = none

namespace ParentLinks

variable {conditions : Conditions semver} {world after : World semver} {label : Step semver}
  {delivery : Delivery semver} {request : AckRequest semver} {instanceId : String}

theorem initial : ParentLinks {} where
  started _ _ row := nomatch row
  unlinked _ _ _ _ member := absurd member List.not_mem_nil

/-- What was recorded stays. -/
theorem recorded_kept (effect : Effect world label after) {target : String} {executionId : Nat} {event : Event}
    (member : event ∈ world.store.recorded target executionId) : event ∈ after.store.recorded target executionId := by
  rcases effect.records with same | ⟨delivery, request, instanceId, commits⟩
  · rwa [Store.recorded, same.history]
  · obtain ⟨config, now, token, fault, _, holds, committed, _⟩ := commits.holds
    by_cases own : (target, executionId) = (instanceId, request.executionId)
    · cases own
      exact (mem_recorded_iff committed).mpr (.inl member)
    · rwa [recorded_other committed own]

theorem started_of_commits (lifecycle : Lifecycle world) (coherent : Coherent world)
    (pending : Pending conditions world) (commits : Commits world label delivery request instanceId after)
    (noRow : world.store.instances instanceId = none) {info : InstanceRow}
    (row : after.store.instances instanceId = some info) :
    ∃ event ∈ after.store.recorded instanceId INITIAL_EXECUTION_ID, event.kind.isStarted := by
  obtain ⟨config, now, token, fault, _, holds, committed, _⟩ := commits.holds
  obtain ⟨fallback, failed, phase⟩ := commits.phase
  obtain ⟨rfl, describes⟩ := coherent.of_locked committed.locked holds
  have source := (pending token delivery request fallback failed holds phase).source
  obtain ⟨first, readable, empty⟩ := lifecycle.describes_of_noRow describes noRow
  have bumped := currentExecutionId_of_acked committed
  rw [noRow, row] at bumped
  dsimp only at bumped
  split_ifs at bumped with named
  swap
  · cases bumped
  obtain ⟨event, member, started⟩ := source.started readable empty named
  have same : request.executionId = INITIAL_EXECUTION_ID := by
    refine (source.execution.resolve_right fun ⟨_, continues⟩ => ?_).trans first
    have known := (lifecycle.continuation holds continues).2
    rw [noRow] at known
    cases known
  rw [← same]
  exact ⟨event, (mem_recorded_iff committed).mpr (.inr member), started⟩

/-- Only the commit that starts an instance can record a start event that names a parent. -/
theorem linked_of_commits (lifecycle : Lifecycle world) (provenance : Provenance world) (coherent : Coherent world)
    (pending : Pending conditions world) (commits : Commits world label delivery request instanceId after)
    {event : Event} (member : event ∈ request.historyDelta) :
    world.store.instances instanceId = none ∧ request.executionId = INITIAL_EXECUTION_ID ∨
      parentOfStarted event = none := by
  obtain ⟨config, now, token, fault, _, holds, committed, _⟩ := commits.holds
  obtain ⟨fallback, failed, phase⟩ := commits.phase
  obtain ⟨rfl, describes⟩ := coherent.of_locked committed.locked holds
  have source := (pending token delivery request fallback failed holds phase).source
  refine (source.unlinked (provenance.items token delivery holds).ordered member).imp_left ?_
  rintro ⟨same, empty, readable⟩
  cases describes with
  | known info row current named versioned _ history =>
    rw [empty] at history
    exact absurd (Store.recorded_of_readHistory history).symm ((lifecycle.records _).current info row)
  | unreadable info row current named versioned error =>
    rw [readable] at error
    cases error
  | recorded noRow first | requested noRow first => exact ⟨noRow, same.trans first⟩

theorem step (links : ParentLinks world.store) (lifecycle : Lifecycle world) (provenance : Provenance world)
    (coherent : Coherent world) (pending : Pending conditions world) (effect : Effect world label after) :
    ParentLinks after.store where
  started target info row := by
    rcases before : world.store.instances target with _ | old
    · rcases effect.records with same | ⟨delivery, request, instanceId, commits⟩
      · rw [same.instances, before] at row
        cases row
      · by_cases own : target = instanceId
        · subst own
          exact started_of_commits lifecycle coherent pending commits before row
        · obtain ⟨config, now, token, fault, _, holds, committed, _⟩ := commits.holds
          rw [committed.otherInstances target own, before] at row
          cases row
    · obtain ⟨event, member, started⟩ := links.started target old before
      exact ⟨event, recorded_kept effect member, started⟩
  unlinked target executionId later event member := by
    rcases effect.records with same | ⟨delivery, request, instanceId, commits⟩
    · rw [Store.recorded, same.history] at member
      exact links.unlinked target executionId later event member
    · obtain ⟨config, now, token, fault, _, holds, committed, _⟩ := id commits.holds
      by_cases own : (target, executionId) = (instanceId, request.executionId)
      · cases own
        rcases (mem_recorded_iff committed).mp member with old | new
        · exact links.unlinked _ _ later event old
        · exact (linked_of_commits lifecycle provenance coherent pending commits new).resolve_left fun first => later first.2
      · rw [recorded_other committed own] at member
        exact links.unlinked target executionId later event member

theorem of_reachable {guard : World semver → Step semver → Prop} (reached : (system semver).Reachable guard world) :
    ParentLinks world.store := by
  have everywhere := reachable_unconditionally reached
  clear reached
  induction everywhere with
  | initial start => exact start ▸ initial
  | step reached _ taken ih =>
    exact ih.step (.of_reachable reached) (.of_reachable reached) (.of_reachable reached) (.of_reachable reached)
      (World.step_effect taken)

end ParentLinks

end Duroxide
