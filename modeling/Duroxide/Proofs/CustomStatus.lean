import Duroxide.Lib.Register
import Duroxide.Proofs.ActionReadings
import Duroxide.Proofs.HistoryForm

/-! # Custom status

The status column of an instance is a register that the events of its current execution write, and the message that
continues an instance carries its content into the next execution. Only a failure that is committed in place of the
first turn of such an execution loses it: the execution is then recorded without its start event.
-/

namespace Duroxide

open Provider Dispatcher Execution Lib.Register VersionPinning

variable {semver : Semver}

/-! ## The register -/

/-- The custom status that is stored of an instance. -/
def Store.storedStatus (store : Store) (instanceId : String) : Option String :=
  (store.instances instanceId).bind (·.customStatus)

/-- The version of an instance's custom status. -/
def Store.statusVersion (store : Store) (instanceId : String) : Nat :=
  ((store.instances instanceId).map (·.customStatusVersion)).getD 0

/-- The status that a program sets or resets. -/
def EventKind.statusUpdate : EventKind → Option (Option String)
  | .customStatusUpdated status => some status
  | _ => none

/-- The status that an execution starts with. -/
def EventKind.initialStatus : EventKind → Option String
  | .orchestrationStarted _ _ _ _ _ _ initial => initial
  | _ => none

/-- The status that an event writes. -/
def EventKind.statusWrite (kind : EventKind) : Option (Option String) := kind.statusUpdate.or (kind.initialStatus.map some)

/-- The status that a message carries into the next execution. -/
def WorkItem.carriedStatus : WorkItem → Option (Option String)
  | .continueAsNew _ _ _ _ _ status => some status
  | _ => none

/-- The status that the next execution starts with, if a batch opens it. -/
def initialStatus (item : OrchestrationItem) : Option String :=
  ((workitemReader item).startItem.bind WorkItem.carriedStatus).join

theorem customStatusFromDelta_eq (delta : List Event) :
    customStatusFromDelta delta = lastWrite (fun event : Event => event.kind.statusUpdate) delta := by
  rw [← findSome?_reverse, customStatusFromDelta]
  congr 1

theorem computeAccumulatedCustomStatus_eq (history : List Event) :
    computeAccumulatedCustomStatus history = (lastWrite (fun event : Event => event.kind.statusWrite) history).getD none := by
  rw [← foldl_getD, computeAccumulatedCustomStatus]
  congr 1
  funext status event
  obtain ⟨eventId, source, owner, executionId, timestamp, crate, kind⟩ := event
  cases kind with
  | orchestrationStarted _ _ _ _ _ _ initial => cases initial <;> rfl
  | _ => rfl

theorem computeAccumulatedCustomStatus_append (history delta : List Event) :
    computeAccumulatedCustomStatus (history ++ delta) =
      (lastWrite (fun event : Event => event.kind.statusWrite) delta).getD (computeAccumulatedCustomStatus history) := by
  rw [computeAccumulatedCustomStatus_eq, computeAccumulatedCustomStatus_eq, lastWrite_append]
  cases lastWrite (fun event : Event => event.kind.statusWrite) delta <;> rfl

theorem reads_statusUpdate : ReadsActions fun event : Event => event.kind.statusUpdate where
  outer event outer := by
    obtain ⟨eventId, source, owner, executionId, timestamp, version, kind⟩ := event
    cases kind <;> first | rfl | cases outer
  breadcrumb event breadcrumb := by
    obtain ⟨eventId, source, owner, executionId, timestamp, version, kind⟩ := event
    cases kind <;> first | rfl | cases breadcrumb
  message event message := by
    obtain ⟨eventId, source, owner, executionId, timestamp, version, kind⟩ := event
    cases kind <;> first | rfl | cases message

theorem initialStatus_of_not_started {kind : EventKind} (plain : kind.isStarted = false) : kind.initialStatus = none := by
  cases kind <;> first | rfl | cases plain

theorem statusUpdate_of_started {kind : EventKind} (started : kind.isStarted) : kind.statusUpdate = none := by
  cases kind <;> first | rfl | cases started

/-- Apart from the start of an execution the writes are the updates. -/
theorem lastWrite_of_unstarted {events : List Event} (plain : ∀ event ∈ events, event.kind.isStarted = false) :
    lastWrite (fun event : Event => event.kind.statusWrite) events = customStatusFromDelta events := by
  rw [customStatusFromDelta_eq]
  refine lastWrite_congr fun event member => ?_
  rw [EventKind.statusWrite, initialStatus_of_not_started (plain event member), Option.map_none, Option.or_none]

/-! ## What an acknowledgement makes of it -/

section Acked

variable {store after : Store} {now token : Nat} {instanceId : String} {request : AckRequest semver}

/-- Naming an instance and moving it to an execution leave its status alone. -/
theorem storedStatus_bumped {info : InstanceRow} (row : bumpedInstance request (store.instances instanceId) = some info) :
    info.customStatus = store.storedStatus instanceId ∧ info.customStatusVersion = store.statusVersion instanceId := by
  obtain ⟨named, found, rfl⟩ := Option.map_eq_some_iff.mp row
  unfold namedInstance at found
  unfold Store.storedStatus Store.statusVersion
  cases before : store.instances instanceId with
  | none =>
    rw [before] at found
    split at found
    · cases found
      exact ⟨rfl, rfl⟩
    · cases found
  | some old =>
    rw [before] at found
    split at found <;> cases found <;> exact ⟨rfl, rfl⟩

/-- The last update of a delta is stored if its instance has a row. -/
theorem storedStatus_of_acked (committed : Acked store now token instanceId request after)
    (known : after.instances instanceId = none →
      store.instances instanceId = none ∧ customStatusFromDelta request.historyDelta = none) :
    after.storedStatus instanceId = (customStatusFromDelta request.historyDelta).getD (store.storedStatus instanceId) := by
  have written := committed.instanceRow
  cases found : bumpedInstance request (store.instances instanceId) with
  | none =>
    rw [found] at written
    obtain ⟨before, silent⟩ := known written
    rw [silent, Store.storedStatus, Store.storedStatus, before, written]
    rfl
  | some info =>
    obtain ⟨status, _⟩ := storedStatus_bumped found
    rw [found] at written
    rw [Store.storedStatus, written, ← status]
    unfold statusInstance
    rcases customStatusFromDelta request.historyDelta with _ | update <;> rfl

/-- The version of a status grows with every update, and the status changes only with one. -/
theorem statusVersion_of_acked (committed : Acked store now token instanceId request after) :
    store.statusVersion instanceId ≤ after.statusVersion instanceId ∧
    (after.storedStatus instanceId ≠ store.storedStatus instanceId →
      store.statusVersion instanceId < after.statusVersion instanceId) := by
  have written := committed.instanceRow
  cases found : bumpedInstance request (store.instances instanceId) with
  | none =>
    have before : store.instances instanceId = none := by
      rcases row : store.instances instanceId with _ | info
      · rfl
      · rw [row] at found
        unfold bumpedInstance namedInstance at found
        split at found <;> cases found
    rw [found] at written
    constructor
    · rw [Store.statusVersion, before]
      exact Nat.zero_le _
    · intro changed
      rw [Store.storedStatus, Store.storedStatus, before, written] at changed
      exact absurd rfl changed
  | some info =>
    obtain ⟨status, version⟩ := storedStatus_bumped found
    rw [found] at written
    unfold statusInstance at written
    rw [← status, ← version, Store.statusVersion, Store.storedStatus, written]
    rcases customStatusFromDelta request.historyDelta with _ | update
    · exact ⟨Nat.le_refl _, fun changed => absurd rfl changed⟩
    · exact ⟨Nat.le_succ _, fun _ => Nat.lt_succ_self _⟩

end Acked

/-! ## What a request records -/

/-- A batch that does not continue its instance carries nothing. -/
theorem initialStatus_of_same {item : OrchestrationItem} (stays : (workitemReader item).isContinueAsNew = false) :
    initialStatus item = none := by
  have parsed : WorkItemReader.Parsed item.messages (tempHistoryMgr item) item.instanceId (workitemReader item) :=
    WorkItemReader.parsed_fromMessages _ _ _
  unfold initialStatus
  generalize workitemReader item = reader at parsed stays
  cases parsed with
  | start _ _ _ _ _ _ _ first =>
    rw [first]
    rfl
  | continueAsNew => cases stays
  | neither => rfl

/-- A batch that continues its instance carries the status of one of its messages. -/
theorem carriedStatus_of_continues {item : OrchestrationItem} (continues : (workitemReader item).isContinueAsNew) :
    ∃ message ∈ item.messages, message.carriedStatus = some (initialStatus item) := by
  have parsed : WorkItemReader.Parsed item.messages (tempHistoryMgr item) item.instanceId (workitemReader item) :=
    WorkItemReader.parsed_fromMessages _ _ _
  unfold initialStatus
  generalize workitemReader item = reader at parsed continues
  cases parsed with
  | start | neither => cases continues
  | continueAsNew target orchestration input version carried status first =>
    refine ⟨_, List.mem_of_find?_eq_some first, ?_⟩
    rw [first]
    rfl

theorem initialStatus_startedEvent (stamp : Stamp) (item : OrchestrationItem) (executionId : Nat) (version : String) :
    (startedEvent stamp item.instanceId executionId (workitemReader item) version).kind.initialStatus = initialStatus item := by
  unfold startedEvent initialStatus
  rcases (workitemReader item).startItem with _ | start
  · rfl
  · cases start <;> rfl

/-- A message that carries a status on comes from a turn that continues as new, and carries its last one. -/
theorem carriedStatus_of_applyTurnResult {stamp : Stamp} {executionIds : ExecutionIds}
    {instanceId orchestrationName : String} {executionId : Nat} {manager : HistoryManager}
    {parentLink : Option (String × Nat)} {pendingActions : List Action} {result : TurnResult} {message : WorkItem}
    (listed : message ∈ (applyTurnResult stamp executionIds instanceId orchestrationName executionId manager parentLink
      pendingActions result).orchestratorItems) {status : Option String} (carries : message.carriedStatus = some status) :
    status = computeAccumulatedCustomStatus (applyTurnResult stamp executionIds instanceId orchestrationName executionId
      manager parentLink pendingActions result).historyMgr.fullHistory := by
  cases message with
  | continueAsNew =>
    obtain ⟨_, _, next, version, rfl⟩ := continueAsNew_of_applyTurnResult listed
    cases List.mem_singleton.mp listed
    cases carries
    rfl
  | _ => cases carries

/-- Breadcrumbs write nothing. -/
theorem computeAccumulatedCustomStatus_breadcrumbs {history trailing : List Event}
    (breadcrumbs : ∀ event ∈ trailing, event.kind.isBreadcrumb) :
    computeAccumulatedCustomStatus (history ++ trailing) = computeAccumulatedCustomStatus history := by
  have silent : customStatusFromDelta trailing = none := by
    rw [customStatusFromDelta_eq, lastWrite_eq_none, List.filterMap_eq_nil_iff]
    exact fun event member => reads_statusUpdate.breadcrumb event (breadcrumbs event member)
  have plain : ∀ event ∈ trailing, event.kind.isStarted = false := fun event member =>
    EventKind.isStarted_of_isInner (EventKind.isInner_of_isBreadcrumb (breadcrumbs event member))
  rw [computeAccumulatedCustomStatus_append, lastWrite_of_unstarted plain, silent]
  rfl

namespace Asks.Source

variable {conditions : Conditions semver} {item : OrchestrationItem} {attemptCount : Nat} {request : AckRequest semver}

/-- An execution starts with what its batch carries, and the one that was read with nothing. -/
theorem initialStatus_of_started (source : Asks.Source conditions item attemptCount request)
    (history : Ascending item.history) {event : Event} (member : event ∈ request.historyDelta)
    (started : event.kind.isStarted) :
    event.kind.initialStatus = if request.executionId = item.executionId then none else initialStatus item := by
  cases source with
  | failure env allowed supported turned readable outcome ran running error =>
    obtain ⟨failed, kind, delta, _⟩ := failureCommit_events (turnExecution item).1 error history
    rw [delta] at member
    rw [List.mem_singleton.mp member, kind] at started
    cases started
  | answer env allowed supported _ fallback answered =>
    cases answered with
    | corrupted exceeded message unreadable =>
      unfold failOrchestrationAsPoison at member
      rw [unreadable] at member
      rw [List.mem_singleton.mp member] at started
      cases started
    | poisoned exceeded readable =>
      rw [if_pos failOrchestrationAsPoison_executionId]
      have events : PoisonEvents item (poisonDetails env item attemptCount) _ :=
        (failOrchestrationAsPoison_events readable history).1
      generalize (failOrchestrationAsPoison env item attemptCount).historyDelta = delta at events member
      cases events with
      | recorded continues failed kind =>
        rw [List.mem_singleton.mp member, kind] at started
        cases started
      | new empty first failed begins kind =>
        rcases List.mem_cons.mp member with rfl | last
        · rw [begins.kind]
          rfl
        · rw [List.mem_singleton.mp last, kind] at started
          cases started
    | ended => exact absurd member List.not_mem_nil
    | turned inTime readable running outcome ran =>
      obtain ⟨opening, body, ending, limit, trailing, events⟩ := requestEvents ran history
      have opened := events.mem_opening member started
      have carried : event.kind.initialStatus = initialStatus item := by
        cases events.turn.opens with
        | continues | unnamed => exact absurd opened List.not_mem_nil
        | opens new named version =>
          rw [List.mem_singleton.mp opened]
          exact initialStatus_startedEvent _ _ _ _
      rw [carried]
      change initialStatus item = if (turnExecution item).1 = item.executionId then none else initialStatus item
      rcases continues : (workitemReader item).isContinueAsNew with _ | _
      · rw [initialStatus_of_same continues, ite_self]
      · rw [turnExecution, if_pos continues, if_neg (Nat.succ_ne_self _)]

/-- A request over a history that cannot be read enqueues nothing. -/
theorem items_of_unreadable (source : Asks.Source conditions item attemptCount request) {message : String}
    (unreadable : item.historyError = some message) : request.orchestratorItems = [] := by
  cases source with
  | failure => rfl
  | answer env allowed supported _ fallback answered =>
    cases answered with
    | corrupted => exact failOrchestrationAsPoison_items_of_unreadable unreadable
    | poisoned _ readable | ended _ readable | turned _ readable => exact nomatch readable.symm.trans unreadable

/-- Over the execution that was read, a request writes what it updates. -/
theorem lastWrite_of_same (source : Asks.Source conditions item attemptCount request)
    (history : Ascending item.history) (same : request.executionId = item.executionId) :
    lastWrite (fun event : Event => event.kind.statusWrite) request.historyDelta =
      customStatusFromDelta request.historyDelta := by
  rw [customStatusFromDelta_eq]
  refine lastWrite_congr fun event member => ?_
  unfold EventKind.statusWrite
  rcases started : event.kind.isStarted with _ | _
  · rw [initialStatus_of_not_started started, Option.map_none, Option.or_none]
  · rw [source.initialStatus_of_started history member started, if_pos same, Option.map_none, Option.or_none]

/-- What a request carries on is the status that its execution came to. -/
theorem carriedStatus_eq (source : Asks.Source conditions item attemptCount request) (history : Ascending item.history)
    {message : WorkItem} (listed : message ∈ request.orchestratorItems) {status : Option String}
    (carries : message.carriedStatus = some status) :
    status = computeAccumulatedCustomStatus (baseHistory item request.executionId ++ request.historyDelta) := by
  cases source with
  | failure => exact absurd listed List.not_mem_nil
  | answer env allowed supported _ fallback answered =>
    cases answered with
    | corrupted exceeded text unreadable =>
      rw [failOrchestrationAsPoison_items_of_unreadable unreadable] at listed
      exact absurd listed List.not_mem_nil
    | poisoned exceeded readable =>
      rw [failOrchestrationAsPoison_items readable] at listed
      obtain ⟨_, _, _, rfl⟩ := mem_notifyParent listed
      cases carries
    | ended => exact absurd listed List.not_mem_nil
    | turned inTime readable running outcome ran =>
      obtain ⟨opening, body, ending, limit, trailing, events⟩ := requestEvents ran history
      by_cases within : limitError outcome.historyMgr.delta item.kvSnapshot = none
      · have extended := events.turn.extended.fullHistory
        rw [turnExecution_fullHistory, ← events.outcomeDelta] at extended
        change status = computeAccumulatedCustomStatus (baseHistory item (turnExecution item).1 ++ _)
        rw [events.delta_of_within within, ← List.append_assoc, ← extended,
          computeAccumulatedCustomStatus_breadcrumbs events.breadcrumbs]
        rw [items_of_within within] at listed
        rcases executed : turnExecuted env item with _ | ⟨result, engine⟩
        · rw [outcome_of_unexecuted executed ran] at listed
          exact absurd listed List.not_mem_nil
        · obtain ⟨manager, ending, turned⟩ := turned_of_executed executed ran
          rw [turned.orchestratorItems] at listed
          rcases List.mem_append.mp listed with applied | cancelled
          · rw [turned.historyMgr]
            exact carriedStatus_of_applyTurnResult applied carries
          · obtain ⟨child, _, rfl⟩ := List.mem_map.mp cancelled
            cases carries
      · rw [items_of_exceeded within] at listed
        exact absurd listed List.not_mem_nil

end Asks.Source

/-! ## What is stored -/

/-- What is stored of an instance is the status that its current execution came to, and the messages that continue
the instance carry it. -/
structure StatusCurrent (world : World semver) : Prop where
  stored : ∀ instanceId, world.store.storedStatus instanceId =
    computeAccumulatedCustomStatus (world.store.currentEvents instanceId)
  carried : ∀ row ∈ world.store.orchestratorQueue, ∀ status ∈ row.workItem.carriedStatus,
    status = world.store.storedStatus row.instanceId

theorem isContinuation_of_carries {item : WorkItem} {status : Option String} (carries : item.carriedStatus = some status) :
    isContinuation item := by
  cases item <;> first | rfl | cases carries

section Stored

variable {world after : World semver} {label : Step semver} {delivery : Delivery semver} {request : AckRequest semver}
  {instanceId : String} {conditions : Conditions semver}

/-- A commit stores its last update. -/
theorem storedStatus_of_commits (lifecycle : Lifecycle world) (later : Lifecycle after) (provenance : Provenance world)
    (coherent : Coherent world) (pending : Pending conditions world)
    (commits : Commits world label delivery request instanceId after) :
    after.store.storedStatus instanceId =
      (customStatusFromDelta request.historyDelta).getD (world.store.storedStatus instanceId) := by
  have silent := reads_statusUpdate.silent_of_noRow lifecycle later provenance coherent pending commits
  rw [← lastWrite_eq_none, ← customStatusFromDelta_eq] at silent
  obtain ⟨config, now, token, fault, _, holds, committed, _⟩ := commits.holds
  exact storedStatus_of_acked committed silent

namespace StatusCurrent

theorem initial : StatusCurrent ({} : World semver) where
  stored _ := rfl
  carried _ member := absurd member List.not_mem_nil

/-- A batch that continues its instance carries the stored status. -/
theorem initialStatus_of_continues (current : StatusCurrent world) (coherent : Coherent world)
    (batches : HoldsBatches world) {lock : InstanceLock}
    (found : world.store.instanceLocks.lookup instanceId = some lock)
    (holds : world.deliveries lock.lockToken = some delivery)
    (continues : (workitemReader delivery.item).isContinueAsNew) :
    initialStatus delivery.item = world.store.storedStatus instanceId := by
  obtain ⟨message, member, carries⟩ := carriedStatus_of_continues continues
  rw [← batches _ lock delivery found holds] at member
  obtain ⟨row, inBatch, item⟩ := List.mem_filterMap.mp member
  obtain ⟨queued, marked⟩ := List.mem_filter.mp inBatch
  rw [beq_iff_eq] at marked
  rw [← OrchestratorRow.workItem_of_decoded item] at carries
  rw [coherent.queueSound.owned row queued _ lock found marked]
  exact current.carried row queued _ carries

/-- An execution that begins with its start event comes to its last update, or to what it started with. -/
theorem computeAccumulatedCustomStatus_of_begun {delta : List Event} {first : Event} {rest : List Event}
    (begins : delta = first :: rest) (started : first.kind.isStarted)
    (once : ∀ event ∈ rest, event.kind.isStarted = false) :
    computeAccumulatedCustomStatus delta = (customStatusFromDelta delta).getD first.kind.initialStatus := by
  rw [begins, computeAccumulatedCustomStatus_eq, lastWrite_cons, lastWrite_of_unstarted once, customStatusFromDelta_eq,
    customStatusFromDelta_eq, lastWrite_cons, EventKind.statusWrite, statusUpdate_of_started started]
  rcases lastWrite (fun event : Event => event.kind.statusUpdate) rest with _ | update
  · cases first.kind.initialStatus <;> rfl
  · rfl

/-- A commit stores the status that its execution comes to. -/
theorem stored_of_commits (current : StatusCurrent world)
    (turns : ∀ item, conditions.failTurn item → initialStatus item = none) (lifecycle : Lifecycle world)
    (later : Lifecycle after) (provenance : Provenance world) (recorded : Provenance after) (coherent : Coherent world)
    (pending : Pending conditions world) (batches : HoldsBatches world)
    (commits : Commits world label delivery request instanceId after) :
    after.store.storedStatus instanceId = computeAccumulatedCustomStatus (after.store.currentEvents instanceId) := by
  have placed := lifecycle.placed provenance coherent pending commits
  have extended := lifecycle.extended provenance coherent pending commits
  have stored := storedStatus_of_commits lifecycle later provenance coherent pending commits
  obtain ⟨config, now, token, fault, _, holds, committed, _⟩ := commits.holds
  obtain ⟨fallback, failed, phase⟩ := commits.phase
  obtain ⟨rfl, describes⟩ := coherent.of_locked committed.locked holds
  have source := (pending token delivery request fallback failed holds phase).source
  have history := (provenance.items token delivery holds).ordered
  have own := describes.executionId_eq
  rw [stored, Store.currentEvents, placed.currentExecution committed]
  cases extended with
  | unchanged readable same empty nothing kept =>
    rw [kept, nothing, same, own]
    exact current.stored _
  | corrupted info row currentId message unreadable failure delta numbered kind =>
    have terminal : failure.kind.isTerminal := isTerminal_of_isFailed kind
    have plain := EventKind.isStarted_of_isTerminal terminal
    have unread : failure.kind.statusUpdate = none := reads_statusUpdate.terminal terminal
    have appended := committed.appended
    rw [delta] at appended
    have same := filterMap_insertSilent (·.kind.statusWrite)
      (by rw [EventKind.statusWrite, unread, initialStatus_of_not_started plain]; rfl) appended
    rw [customStatusFromDelta_eq, delta, lastWrite_cons, unread, current.stored, computeAccumulatedCustomStatus_eq,
      computeAccumulatedCustomStatus_eq]
    unfold lastWrite Store.recorded Store.currentEvents Store.recorded
    rw [same, currentId, currentExecution_of_row row]
    rfl
  | continued readable same base appended =>
    rw [appended, ← base, computeAccumulatedCustomStatus_append, source.lastWrite_of_same history same, current.stored,
      same, own]
    rfl
  | opened readable continues next info row currentId named base appended =>
    obtain ⟨lock, found, rfl, _⟩ := committed.held
    rw [← current.initialStatus_of_continues coherent batches found holds continues, appended]
    have origin := recorded.historyOrigin delivery.item.instanceId request.executionId
    rw [appended] at origin
    cases id source with
    | failure env allowed supported turned _ outcome ran running error =>
      obtain ⟨failure, kind, delta, _⟩ := failureCommit_events (turnExecution delivery.item).1 error history
      rw [turns _ turned, delta, computeAccumulatedCustomStatus_eq, customStatusFromDelta_eq, lastWrite_cons, lastWrite_cons,
        EventKind.statusWrite, kind]
      rfl
    | answer env allowed supported _ commit answered =>
      have new : baseHistory delivery.item request.executionId = [] := by rw [next, baseHistory_next]
      rcases answered.begins history readable new with nothing | ⟨first, rest, delta, begins⟩
      · exact absurd nothing (source.opens history new named)
      · have started : first.kind.isStarted := by
          refine begins.started.resolve_right fun nameless => ?_
          rw [nameless.2.1] at named
          cases named
        have carries := source.initialStatus_of_started history (delta ▸ List.mem_cons_self) started
        rw [next, if_neg (Nat.succ_ne_self _)] at carries
        rw [delta] at origin
        rw [computeAccumulatedCustomStatus_of_begun delta started origin.startsOnce, carries]

/-- What is asked to continue an instance carries the status that its execution came to. -/
theorem carried_of_commits (lifecycle : Lifecycle world) (provenance : Provenance world) (coherent : Coherent world)
    (pending : Pending conditions world) (commits : Commits world label delivery request instanceId after)
    {message : WorkItem} (listed : message ∈ request.orchestratorItems) {status : Option String}
    (carries : message.carriedStatus = some status) :
    message.targetInstance = instanceId ∧
      status = computeAccumulatedCustomStatus (after.store.recorded instanceId request.executionId) := by
  have extended := lifecycle.extended provenance coherent pending commits
  obtain ⟨own, orchestration, continued⟩ :=
    Succession.continues_of_enqueued provenance coherent pending commits listed (isContinuation_of_carries carries)
  obtain ⟨config, now, token, fault, _, holds, committed, _⟩ := commits.holds
  obtain ⟨fallback, failed, phase⟩ := commits.phase
  obtain ⟨rfl, describes⟩ := coherent.of_locked committed.locked holds
  have source := (pending token delivery request fallback failed holds phase).source
  have history := (provenance.items token delivery holds).ordered
  have carried := source.carriedStatus_eq history listed carries
  refine ⟨own, carried.trans ?_⟩
  cases extended with
  | unchanged readable same empty nothing kept =>
    have ends := continued.ends
    rw [nothing] at ends
    cases ends
  | corrupted info row currentId message unreadable failure delta numbered kind =>
    rw [source.items_of_unreadable unreadable] at listed
    exact absurd listed List.not_mem_nil
  | continued readable same base appended => rw [appended, same, baseHistory_self]
  | opened readable continues next info row currentId named base appended =>
    rw [appended, next, baseHistory_next, List.nil_append]

theorem step_of_commits (current : StatusCurrent world)
    (turns : ∀ item, conditions.failTurn item → initialStatus item = none) (succession : Succession world)
    (lifecycle : Lifecycle world) (later : Lifecycle after) (provenance : Provenance world) (recorded : Provenance after)
    (coherent : Coherent world) (pending : Pending conditions world) (batches : HoldsBatches world)
    (commits : Commits world label delivery request instanceId after) : StatusCurrent after := by
  have stored := storedStatus_of_commits lifecycle later provenance coherent pending commits
  have coherentStatus :=
    current.stored_of_commits turns lifecycle later provenance recorded coherent pending batches commits
  have placed := lifecycle.placed provenance coherent pending commits
  have quiet := reads_statusUpdate.silent_of_ended lifecycle provenance coherent pending commits
  rw [← lastWrite_eq_none, ← customStatusFromDelta_eq] at quiet
  obtain ⟨config, now, token, fault, _, holds, committed, _⟩ := commits.holds
  have others : ∀ other, other ≠ instanceId → after.store.storedStatus other = world.store.storedStatus other := by
    intro other differs
    rw [Store.storedStatus, Store.storedStatus, committed.otherInstances other differs]
  constructor
  · intro other
    by_cases own : other = instanceId
    · rw [own]
      exact coherentStatus
    · rw [others other own, currentEvents_other committed own]
      exact current.stored other
  · intro row member status carries
    rw [committed.queue] at member
    rcases List.mem_append.mp member with old | new
    · have before := List.mem_of_mem_filter old
      by_cases own : row.instanceId = instanceId
      · have continues := isContinuation_of_carries carries
        have kept : row ∈ after.store.orchestratorQueue := by
          rw [committed.queue]
          exact member
        have same := succession.current_of_kept lifecycle provenance coherent pending batches commits before kept continues own
        have ended := succession.ended row before continues
        rw [Ended, Store.currentEvents, own, ← same] at ended
        rw [own, stored, quiet ended, Option.getD_none, ← own]
        exact current.carried row before status carries
      · rw [others _ own]
        exact current.carried row before status carries
    · obtain ⟨_, _, _, _, asked, target, _⟩ := QueueSound.mem_enqueuedRows new
      obtain ⟨own, came⟩ :=
        carried_of_commits lifecycle provenance coherent pending commits (List.mem_of_mem_filter asked) carries
      rw [target.trans own, coherentStatus, Store.currentEvents, placed.currentExecution committed]
      exact came

theorem step (current : StatusCurrent world) (turns : ∀ item, conditions.failTurn item → initialStatus item = none)
    (succession : Succession world) (lifecycle : Lifecycle world) (later : Lifecycle after)
    (provenance : Provenance world) (recorded : Provenance after) (coherent : Coherent world)
    (pending : Pending conditions world) (batches : HoldsBatches world) (effect : Effect world label after) :
    StatusCurrent after := by
  by_cases committed : ∃ delivery request instanceId, Commits world label delivery request instanceId after
  · obtain ⟨delivery, request, instanceId, commits⟩ := committed
    exact current.step_of_commits turns succession lifecycle later provenance recorded coherent pending batches commits
  have same := effect.records.resolve_right committed
  have stored : ∀ instanceId, after.store.storedStatus instanceId = world.store.storedStatus instanceId := by
    intro instanceId
    rw [Store.storedStatus, Store.storedStatus, same.instances]
  constructor
  · intro instanceId
    rw [stored, same.currentEvents]
    exact current.stored instanceId
  · intro row member status carries
    rw [stored]
    cases effect.row member with
    | kept old before item sameInstance id =>
      rw [← sameInstance]
      exact current.carried old before status (by rwa [item])
    | client target item =>
      generalize row.workItem = message at item carries
      cases message <;> first | (cases carries; done) | cases item
    | completion target item =>
      generalize row.workItem = message at item carries
      cases message <;> first | (cases carries; done) | cases item
    | committed target delivery request instanceId commits => exact absurd ⟨delivery, request, instanceId, commits⟩ committed

theorem of_reachable (turns : ∀ item, conditions.failTurn item → initialStatus item = none)
    (reached : (system semver).Reachable conditions.guard world) : StatusCurrent world := by
  induction reached with
  | initial start => exact start ▸ initial
  | step reached allowed taken ih =>
    exact ih.step turns (.of_reachable reached) (.of_reachable reached) (.of_reachable (.step reached allowed taken))
      (.of_reachable reached) (.of_reachable (.step reached allowed taken)) (.of_reachable reached)
      (.of_reachable reached) (.of_reachable reached) (World.step_effect taken)

end StatusCurrent

end Stored

/-- The version of a status never decreases, and increases with every change. -/
theorem statusVersion_of_effect {world after : World semver} {label : Step semver} (effect : Effect world label after)
    (instanceId : String) : world.store.statusVersion instanceId ≤ after.store.statusVersion instanceId ∧
      (after.store.storedStatus instanceId ≠ world.store.storedStatus instanceId →
        world.store.statusVersion instanceId < after.store.statusVersion instanceId) := by
  have untouched : after.store.instances instanceId = world.store.instances instanceId →
      world.store.statusVersion instanceId ≤ after.store.statusVersion instanceId ∧
        (after.store.storedStatus instanceId ≠ world.store.storedStatus instanceId →
          world.store.statusVersion instanceId < after.store.statusVersion instanceId) := by
    intro same
    rw [Store.statusVersion, Store.statusVersion, Store.storedStatus, Store.storedStatus, same]
    exact ⟨Nat.le_refl _, fun changed => absurd rfl changed⟩
  rcases effect.records with same | ⟨delivery, request, acked, commits⟩
  · exact untouched (by rw [same.instances])
  · obtain ⟨config, now, token, fault, _, holds, committed, _⟩ := commits.holds
    by_cases own : instanceId = acked
    · subst own
      exact statusVersion_of_acked committed
    · exact untouched (committed.otherInstances instanceId own)

namespace CustomStatus

/-- A failure is not committed in place of the first turn of an execution that was given a status. -/
def conditions (semver : Semver) : Conditions semver where
  failTurn item := initialStatus item = none

/-- The stored status of every instance is the one that its current execution came to. -/
def StatusCoherent (store : Store) : Prop :=
  ∀ instanceId, store.storedStatus instanceId = computeAccumulatedCustomStatus (store.currentEvents instanceId)

/-- A step keeps the version of a status or increases it, and increases it with every change. -/
def VersionsFollow (before after : Store) : Prop :=
  ∀ instanceId, before.statusVersion instanceId ≤ after.statusVersion instanceId ∧
    (after.storedStatus instanceId ≠ before.storedStatus instanceId →
      before.statusVersion instanceId < after.statusVersion instanceId)

/-- In every run whose failure commits do not take the place of the first turn of an execution that was given a status,
the stored status is the one that the current execution came to, and its version follows it. -/
theorem statusCoherent_of_guarded {world : World semver}
    (reached : (system semver).Reachable (conditions semver).guard world) :
    StatusCoherent world.store ∧ ∀ label after, world.step label = some after → VersionsFollow world.store after.store :=
  ⟨(StatusCurrent.of_reachable (fun _ => id) reached).stored,
    fun _ _ taken instanceId => statusVersion_of_effect (World.step_effect taken) instanceId⟩

/-- A test that implies the conditions. -/
def passes (world : World semver) : Step semver → Bool
  | .failTurn token => (world.deliveries token).all fun delivery => (initialStatus delivery.item).isNone
  | _ => true

theorem guard_of_passes (world : World semver) (label : Step semver) (tested : passes world label) :
    (conditions semver).guard world label := by
  cases label with
  | decide => exact fun _ _ => trivial
  | failTurn token =>
    intro delivery holds
    simp only [passes, holds, Option.all_some, Option.isNone_iff_eq_none] at tested
    exact tested
  | ack => exact fun _ _ _ _ _ _ _ => trivial
  | client | fetch | abandon | renew | fetchWork | renewWork | completeWork | dropWork | abandonWork => trivial

/-! An orchestration sets its status and continues as new. -/

def relayHandler : OrchestrationHandler where
  State := String
  invoke := id
  poll input :=
    if input = "" then .call (.setCustomStatus "ready") fun _ => .call (.continueAsNew "next" none) fun _ => .suspend "next"
    else .suspend "next"

def relayEnv : RuntimeEnv textSemver := registeredEnv fun name => if name = "relay" then some relayHandler else none

/-- The first execution continues as new, and the first turn of the second one is decided. -/
def secondOpened : List (Step textSemver) :=
  [.client 0 (.startOrchestration "i" "relay" "" none none none 1), .fetch {} none 0 1000 1 none, .decide 1 relayEnv,
    .ack {} 0 1 none, .fetch {} none 0 1000 2 none, .decide 2 relayEnv]

theorem statusCoherent_of_guarded_relay : ∃ world,
    World.runTested passes {} (secondOpened ++ [.ack {} 0 2 none]) = some world ∧
      world.store.currentExecution "i" = 2 ∧ world.store.storedStatus "i" = some "ready" ∧ StatusCoherent world.store ∧
      ∀ label after, world.step label = some after → VersionsFollow world.store after.store := by
  have ran : (World.runTested passes {} (secondOpened ++ [.ack {} 0 2 none])).any (fun world =>
      world.store.currentExecution "i" == 2 && world.store.storedStatus "i" == some "ready") = true := by
    decide +kernel
  obtain ⟨world, reached, facts⟩ := (Option.any_eq_true _ _).mp ran
  simp only [Bool.and_eq_true, beq_iff_eq] at facts
  obtain ⟨coherent, versions⟩ := statusCoherent_of_guarded
    (World.reachable_of_runTested guard_of_passes (.initial rfl) reached)
  exact ⟨world, reached, facts.1, facts.2, coherent, versions⟩

/-- That turn's acknowledgement fails, the failure is committed in its place, and the instance is started again. -/
def secondLost : List (Step textSemver) :=
  secondOpened ++ [.ack {} 0 2 (some (0, HistoryForm.diskError)), .failTurn 2, .ack {} 0 2 none,
    .client 0 (.startOrchestration "i" "relay" "again" none none none 1), .fetch {} none 0 1000 3 none, .decide 3 relayEnv,
    .ack {} 0 3 none]

/-- The turn that follows is executed and acknowledged over a history that does not know the stored status. -/
theorem secondLost_notCoherent : ∃ world delivery, World.run {} secondLost = some world ∧
    world.deliveries 3 = some delivery ∧ (turnExecuted relayEnv delivery.item).isSome ∧
    world.store.storedStatus "i" = some "ready" ∧ ¬ StatusCoherent world.store := by
  have ran : (World.run {} secondLost).any (fun world => (world.deliveries 3).any fun delivery =>
      (turnExecuted relayEnv delivery.item).isSome && world.store.storedStatus "i" == some "ready" &&
        computeAccumulatedCustomStatus (world.store.currentEvents "i") == none) = true := by
    decide +kernel
  obtain ⟨world, reached, facts⟩ := (Option.any_eq_true _ _).mp ran
  obtain ⟨delivery, holds, facts⟩ := (Option.any_eq_true _ _).mp facts
  simp only [Bool.and_eq_true, beq_iff_eq] at facts
  obtain ⟨⟨executed, stored⟩, lost⟩ := facts
  refine ⟨world, delivery, reached, holds, executed, stored, fun coherent => ?_⟩
  have same := coherent "i"
  rw [stored, lost] at same
  cases same

end CustomStatus

end Duroxide
