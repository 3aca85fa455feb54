import Duroxide.Proofs.Determinism
import Duroxide.Proofs.HandedOver
import Duroxide.Proofs.Succession

/-! # Events that are raised for an instance

Clients raise positional events and queue messages. A turn records every raised event of its batch, in the order of
the batch, behind the messages that a continue-as-new carried into the execution; nothing else records one, and
no turn raises one. A turn whose batch holds a cancellation fails its execution.
-/

namespace Duroxide

open Provider Dispatcher ReplayEngine

/-- The event that a raised message becomes. -/
def WorkItem.raised : WorkItem → Option EventKind
  | .externalRaised _ name data => some (.externalEvent name data)
  | .queueMessage _ name data => some (.queueEventDelivered name data)
  | _ => none

/-- The kinds of events that clients raise. -/
def EventKind.isRaised : EventKind → Bool
  | .externalEvent .. | .queueEventDelivered .. => true
  | _ => false

/-- The raised event that an event of a history records. -/
def Event.arrival (event : Event) : Option EventKind := if event.kind.isRaised then some event.kind else none

/-- The raised events of a history, in order. -/
def arrivals (events : List Event) : List EventKind := events.filterMap Event.arrival

/-- The queue messages that a continue-as-new item carries, as events. -/
def WorkItem.carried : WorkItem → List EventKind
  | .continueAsNew _ _ _ _ carried _ => carried.map fun (name, data) => .queueEventDelivered name data
  | _ => []

/-- The queue messages that were carried into an execution, as its start event lists them. -/
def carriedArrivals : List Event → List EventKind
  | [] => []
  | first :: _ =>
      match first.kind with
      | .orchestrationStarted _ _ _ _ _ (some carried) _ => carried.map fun (name, data) => .queueEventDelivered name data
      | _ => []

/-- The raised events that an execution received itself. -/
def ownArrivals (events : List Event) : List EventKind := (arrivals events).drop (carriedArrivals events).length

/-- The events complete or fail their execution. -/
def isFinished (events : List Event) : Bool := events.any fun event => event.kind.isCompleted || event.kind.isFailed

theorem isFinished_of_mem {events : List Event} {event : Event} (member : event ∈ events)
    (finishes : event.kind.isCompleted || event.kind.isFailed) : isFinished events :=
  List.any_eq_true.mpr ⟨event, member, finishes⟩

theorem isFinished_mono {events longer : List Event} (contains : events ⊆ longer) (finished : isFinished events) :
    isFinished longer := by
  obtain ⟨event, member, finishes⟩ := List.any_eq_true.mp finished
  exact isFinished_of_mem (contains member) finishes

theorem arrivals_append (history delta : List Event) : arrivals (history ++ delta) = arrivals history ++ arrivals delta :=
  List.filterMap_append

/-- The start event stays at the head of a history. -/
theorem carriedArrivals_append {history : List Event} (occupied : history ≠ []) (delta : List Event) :
    carriedArrivals (history ++ delta) = carriedArrivals history := by
  obtain ⟨first, rest, rfl⟩ := List.exists_cons_of_ne_nil occupied
  rfl

/-- What arrives later is the execution's own. -/
theorem ownArrivals_append {history : List Event} (occupied : history ≠ [])
    (carried : carriedArrivals history <+: arrivals history) (delta : List Event) :
    ownArrivals (history ++ delta) = ownArrivals history ++ arrivals delta := by
  rw [ownArrivals, carriedArrivals_append occupied, arrivals_append, List.drop_append_of_le_length carried.length_le]
  rfl

/-! ## Recording raised events -/

theorem EventKind.isInner_of_isRaised {kind : EventKind} (raised : kind.isRaised) : kind.isInner := by
  cases kind <;> first | rfl | cases raised

theorem reads_arrival : ReadsInner Event.arrival where
  outer event outer := by
    refine if_neg fun raised => ?_
    rw [EventKind.isInner_of_isRaised raised] at outer
    cases outer
  breadcrumb event breadcrumb := by
    refine if_neg fun raised => ?_
    cases kind : event.kind <;> rw [kind] at breadcrumb raised <;> first | cases breadcrumb; done | cases raised

namespace ReplayEngine

variable {engine result : ReplayEngine}

theorem arrivals_pushEvent (source : Option Nat) (kind : EventKind) :
    arrivals (engine.pushEvent source kind).historyDelta =
      arrivals engine.historyDelta ++ if kind.isRaised then [kind] else [] := by
  refine (arrivals_append _ _).trans (congrArg _ ?_)
  cases raised : kind.isRaised <;> simp [arrivals, Event.arrival, raised]

/-- Every raised event is recorded, and no other message as one. -/
theorem arrivals_prepCompletion (message : WorkItem) : arrivals (engine.prepCompletion message).historyDelta =
    arrivals engine.historyDelta ++ message.raised.toList := by
  rcases raises : message.raised with _ | kind
  · rw [Option.toList_none, List.append_nil]
    rcases engine.prepCompletion_cases message with ⟨_, unchanged⟩ | ⟨_, source, kind, converted, pushed⟩
    · rw [unchanged]
    · have plain : kind.isRaised = false := by
        cases message with
        | cancelInstance =>
          simp only [messageToEventKind] at converted
          split_ifs at converted
          cases converted
          rfl
        | externalRaised | queueMessage => cases raises
        | _ => cases converted <;> rfl
      rw [pushed, arrivals_pushEvent, plain]
      exact List.append_nil _
  · cases message <;> cases raises <;> exact arrivals_pushEvent none _

theorem arrivals_prepCompletions (messages : List WorkItem) : arrivals (engine.prepCompletions messages).historyDelta =
    arrivals engine.historyDelta ++ messages.filterMap WorkItem.raised := by
  unfold prepCompletions
  induction messages generalizing engine with
  | nil => exact (List.append_nil _).symm
  | cons message rest ih =>
    rw [List.foldl_cons, ih, arrivals_prepCompletion, List.append_assoc, List.filterMap_cons]
    cases message.raised <;> rfl

/-- After the batch is prepared, an engine records no raised event. -/
theorem Recorded.arrivals (recorded : Recorded engine result) :
    Duroxide.arrivals result.historyDelta = Duroxide.arrivals engine.historyDelta := by
  induction recorded with
  | refl => rfl
  | tail _ records ih =>
    rw [← ih]
    cases records with
    | action ctx emitted =>
      refine (arrivals_append _ _).trans (List.append_right_eq_self.mpr (List.filterMap_eq_nil_iff.mpr ?_))
      intro event member
      cases action : updateActionEventId emitted.2 _ <;> rw [action] at member <;> cases Option.mem_toList.mp member <;> rfl
    | breadcrumb id kind isBreadcrumb =>
      rw [arrivals_pushEvent]
      cases kind <;> first | exact List.append_nil _ | cases isBreadcrumb
    | cancelled activities children => rfl

end ReplayEngine

/-! ## Cancellations -/

namespace ReplayEngine

variable {engine : ReplayEngine} {messages : List WorkItem} {target reason : String}

/-- Some event of an engine requests the cancellation of its execution. -/
def CancelRequested (engine : ReplayEngine) : Prop :=
  ∃ event ∈ engine.baselineHistory ++ engine.historyDelta, isCancelRequest event.kind

theorem CancelRequested.prepCompletion (requested : CancelRequested engine) (message : WorkItem) :
    CancelRequested (engine.prepCompletion message) := by
  obtain ⟨event, member, cancels⟩ := requested
  rcases engine.prepCompletion_cases message with ⟨_, unchanged⟩ | ⟨_, source, kind, _, pushed⟩
  · rw [unchanged]
    exact ⟨event, member, cancels⟩
  · rw [pushed]
    refine ⟨event, ?_, cancels⟩
    change event ∈ engine.baselineHistory ++ (engine.historyDelta ++ _)
    rw [← List.append_assoc]
    exact List.mem_append_left _ member

theorem CancelRequested.prepCompletions (requested : CancelRequested engine) (messages : List WorkItem) :
    CancelRequested (engine.prepCompletions messages) := by
  unfold ReplayEngine.prepCompletions
  induction messages generalizing engine with
  | nil => exact requested
  | cons message rest ih => exact ih (requested.prepCompletion message)

/-- A cancellation is recorded, unless one was before. -/
theorem cancelRequested_of_prepCompletion (running : engine.baselineHistory.any (·.isTerminal) = false) :
    CancelRequested (engine.prepCompletion (.cancelInstance target reason)) := by
  rcases already : (engine.baselineHistory ++ engine.historyDelta).any (isCancelRequest ·.kind)
  · have converted : engine.messageToEventKind (.cancelInstance target reason) =
        some (none, .orchestrationCancelRequested reason) := by
      unfold messageToEventKind
      refine if_pos (Bool.and_eq_true_iff.mpr ⟨?_, by rw [already]; rfl⟩)
      rw [Bool.not_eq_true']
      refine List.any_eq_false.mpr fun event member finishes => ?_
      have plain := List.any_eq_false.mp running event member
      unfold Event.isTerminal at plain
      cases kind : event.kind <;> rw [kind] at plain finishes <;> first | exact plain rfl | cases finishes
    have pushed : engine.prepCompletion (.cancelInstance target reason) =
        engine.pushEvent none (.orchestrationCancelRequested reason) := by
      unfold prepCompletion
      simp only [isCompletionForCurrentExecution, isCompletionAlreadyInHistory, isAlreadyInDelta, completionError,
        abortOnSystemError, converted, Bool.not_true, Bool.false_eq_true, if_false]
    rw [pushed]
    exact ⟨_, List.mem_append_right _ (List.mem_append_right _ (List.mem_singleton_self _)), rfl⟩
  · exact CancelRequested.prepCompletion (List.any_eq_true.mp already) _

theorem cancelRequested_of_mem (running : engine.baselineHistory.any (·.isTerminal) = false)
    (listed : WorkItem.cancelInstance target reason ∈ messages) : CancelRequested (engine.prepCompletions messages) := by
  obtain ⟨before, after, rfl⟩ := List.append_of_mem listed
  have same : (engine.prepCompletions before).baselineHistory = engine.baselineHistory := prepCompletions_baselineHistory ..
  have split : engine.prepCompletions (before ++ .cancelInstance target reason :: after) =
      ((engine.prepCompletions before).prepCompletion (.cancelInstance target reason)).prepCompletions after :=
    List.foldl_append
  rw [split]
  exact (cancelRequested_of_prepCompletion (by rwa [same])).prepCompletions after

/-- A turn fails whose execution is to be cancelled. -/
theorem failed_of_cancelRequested (sound : Sound engine) (requested : CancelRequested engine)
    (running : (engine.baselineHistory ++ engine.historyDelta).any (·.isTerminal) = false)
    (handler : OrchestrationHandler) (input orchestrationName orchestrationVersion : String) :
    ∃ details, Execution.terminalKind (engine.executeOrchestration handler input orchestrationName
      orchestrationVersion).1 = some (.orchestrationFailed details) := by
  unfold executeOrchestration
  dsimp only
  split
  · exact ⟨_, rfl⟩
  split_ifs with ended
  · rw [running] at ended
    cases ended
  · exact ⟨_, rfl⟩
  · exact ⟨_, rfl⟩
  split
  · rename_i failure after evaluated
    obtain ⟨details, rfl⟩ := onlyFails_evaluate failure (by rw [evaluated])
    exact ⟨details, rfl⟩
  · rename_i replay after evaluated
    have converted := (converted_of_evaluate sound evaluated).1
    obtain ⟨events, delta, _⟩ := converted.delta
    obtain ⟨event, member, cancels⟩ := requested
    have kept : event ∈ after.baselineHistory ++ after.historyDelta := by
      rw [converted.baseline, delta, ← List.append_assoc]
      exact List.mem_append_left _ member
    unfold finalizeTurn
    rcases found : (after.baselineHistory ++ after.historyDelta).findSome? cancelReasonOf with _ | reason
    · have silent := List.findSome?_eq_none_iff.mp found event kept
      unfold cancelReasonOf at silent
      cases kind : event.kind <;> rw [kind] at silent cancels <;> first | cases cancels; done | cases silent
    · exact ⟨_, rfl⟩

end ReplayEngine

/-! ## Turns -/

/-- What an execution takes in with some messages: the events that they raise, behind what was carried into it. -/
structure TakesIn (history delta : List Event) (messages : List WorkItem) : Prop where
  own : ownArrivals (history ++ delta) = ownArrivals history ++ messages.filterMap WorkItem.raised
  carried : carriedArrivals (history ++ delta) <+: arrivals (history ++ delta)

namespace Dispatcher

variable {semver : Semver} {env : RuntimeEnv semver} {item : OrchestrationItem} {outcome : ExecutionOutcome}
  {result : TurnResult} {engine : ReplayEngine} {manager : HistoryManager} {ending : List Event}

/-- A reader's messages raise the carried messages, and then those of the batch. -/
theorem raised_completionMessages (item : OrchestrationItem) :
    (workitemReader item).completionMessages.filterMap WorkItem.raised =
      (workitemReader item).startItem.elim [] WorkItem.carried ++ item.messages.filterMap WorkItem.raised := by
  have own : (item.messages.filter WorkItemReader.isCompletionMessage).filterMap WorkItem.raised =
      item.messages.filterMap WorkItem.raised := by
    rw [List.filterMap_filter]
    exact List.filterMap_congr fun message _ => by cases message <;> rfl
  have parsed := VersionPinning.parsed_workitemReader item
  generalize workitemReader item = reader at parsed
  cases parsed with
  | start target orchestration input version parentInstance parentId executionId first =>
    rw [own, first]
    rfl
  | neither first => exact own
  | continueAsNew target orchestration input version carried status first =>
    rw [List.filterMap_append, own, first, List.filterMap_map]
    refine congrArg (· ++ _) ?_
    clear first
    induction carried with
    | nil => rfl
    | cons message later ih => exact congrArg (_ :: ·) ih

/-- The start event of an execution lists what its start item carries. -/
theorem carriedArrivals_startedEvent (stamp : Stamp) (instanceId : String) (executionId : Nat) (reader : WorkItemReader)
    (version : String) (rest : List Event) :
    carriedArrivals (startedEvent stamp instanceId executionId reader version :: rest) =
      reader.startItem.elim [] WorkItem.carried := by
  obtain ⟨startItem, messages, name, input, asked, parentInstance, parentId, continues⟩ := reader
  rcases startItem with _ | start
  · rfl
  · cases start with
    | continueAsNew target orchestration input version carried custom =>
      rcases carried with _ | ⟨first, later⟩ <;> rfl
    | _ => rfl

theorem arrivals_of_turned (turned : Turned env item result engine outcome manager ending) :
    arrivals (turnRequest env item outcome).historyDelta =
      (workitemReader item).startItem.elim [] WorkItem.carried ++ item.messages.filterMap WorkItem.raised :=
  calc arrivals (turnRequest env item outcome).historyDelta
      = arrivals (preparedEngine env item manager).historyDelta :=
        (reads_arrival.turned turned).trans (Recorded.arrivals turned.recorded)
    _ = (workitemReader item).completionMessages.filterMap WorkItem.raised :=
        (arrivals_prepCompletions _).trans (List.nil_append _)
    _ = _ := raised_completionMessages item

/-- A turn takes in its batch, and what its start item carries if it opens its execution. -/
theorem takesIn_of_turned (turned : Turned env item result engine outcome manager ending)
    (named : (workitemReader item).hasOrchestrationName)
    (carried : carriedArrivals (baseHistory item (turnExecution item).1) <+:
      arrivals (baseHistory item (turnExecution item).1)) :
    TakesIn (baseHistory item (turnExecution item).1) (turnRequest env item outcome).historyDelta item.messages := by
  have taken := arrivals_of_turned turned
  obtain ⟨limit, trailing, delta, _, _⟩ := turnRequest_delta env item outcome
  have opens := turned.opens
  rw [turned.delta] at delta
  generalize manager.delta = opening at opens delta
  cases opens with
  | unnamed noName =>
    rw [noName] at named
    cases named
  | continues recorded =>
    have sameExecution : (workitemReader item).isContinueAsNew = false := by
      by_contra continues
      rw [turnExecution, if_pos (by simpa using continues), baseHistory_next] at recorded
      exact recorded rfl
    have none : (workitemReader item).startItem.elim [] WorkItem.carried = [] := by
      have parsed := VersionPinning.parsed_workitemReader item
      generalize workitemReader item = reader at parsed sameExecution
      cases parsed with
      | start target orchestration input version parentInstance parentId executionId first => rw [first]; rfl
      | neither => rfl
      | continueAsNew => cases sameExecution
    rw [none, List.nil_append] at taken
    constructor
    · rw [ownArrivals_append recorded carried, taken]
    · rw [carriedArrivals_append recorded, arrivals_append]
      exact carried.trans (List.prefix_append _ _)
  | opens new named version =>
    have head : carriedArrivals (turnRequest env item outcome).historyDelta =
        (workitemReader item).startItem.elim [] WorkItem.carried := by
      rw [delta, List.append_assoc, List.append_assoc]
      exact carriedArrivals_startedEvent ..
    rw [new]
    constructor
    · rw [List.nil_append, ownArrivals, head, taken, List.drop_left]
      rfl
    · rw [List.nil_append, head, taken]
      exact List.prefix_append _ _

/-- The terminal events of a turn within its limits are those of its result. -/
theorem terminalKind_of_turned (turned : Turned env item result engine outcome manager ending)
    (history : Ascending item.history) (ran : turnOutcome env item = some outcome)
    (within : limitError outcome.historyMgr.delta item.kvSnapshot = none) {event : Event}
    (member : event ∈ (turnRequest env item outcome).historyDelta) (terminal : event.kind.isTerminal) :
    Execution.terminalKind result = some event.kind := by
  have sound := (turned.sound history ran).recorded turned.recorded
  obtain ⟨opening, body, last, limit, trailing, events⟩ := requestEvents ran history
  rw [events.delta_of_within within, turned.delta] at member
  rcases List.mem_append.mp member with inOutcome | crumb
  · rcases List.mem_append.mp inOutcome with opens | later
    · have plain := Completions.plain_opening turned.opens event opens
      cases kind : event.kind <;> rw [kind] at plain terminal <;> first | cases terminal; done | cases plain
    · rcases List.mem_append.mp later with inner | ends
      · rw [EventKind.isTerminal_of_isInner (sound.inner event inner)] at terminal
        cases terminal
      · exact turned.ends.kind_of_terminal ends terminal
  · rw [EventKind.isTerminal_of_isBreadcrumb (events.breadcrumbs event crumb)] at terminal
    cases terminal

/-- A turn that exceeds a limit fails its execution. -/
theorem finished_of_exceeded (exceeds : limitError outcome.historyMgr.delta item.kvSnapshot ≠ none) :
    isFinished (turnRequest env item outcome).historyDelta := by
  obtain ⟨limit, limited⟩ := enforceLimits_limited env item (turnExecution item).1 outcome
  obtain ⟨trailing, cancelled, _⟩ := cancelInflight_extends env.stamp item.instanceId (turnExecution item).1
    (enforceLimits env item (turnExecution item).1 outcome).1
    (enforceLimits env item (turnExecution item).1 outcome).2.status
  have delta : (turnRequest env item outcome).historyDelta = outcome.historyMgr.delta ++ (limit ++ trailing) :=
    (limited.extends.trans cancelled).delta
  rw [delta]
  generalize enforceLimits env item (turnExecution item).1 outcome = enforced at limited
  cases limited with
  | within none => exact absurd none exceeds
  | exceeded message some failure failed =>
    have member : failure ∈ outcome.historyMgr.delta ++ ([failure] ++ trailing) := by simp
    refine isFinished_of_mem member ?_
    rw [failed]
    rfl

/-- A turn is refused for a history that is finished, or that continues in an execution that the batch does not open. -/
theorem finished_of_isTerminalFor (terminal : isTerminalFor (tempHistoryMgr item) (workitemReader item)) :
    isFinished item.history ∨ (workitemReader item).isContinueAsNew = false := by
  obtain ⟨completed, failed, _⟩ := HistoryManager.fromHistory_state item.history
  simp only [isTerminalFor, tempHistoryMgr, completed, failed, Bool.or_eq_true, Bool.and_eq_true,
    Bool.not_eq_true'] at terminal
  have deciding : ∀ {ends : Event → Bool}, (HistoryManager.decidingEvent item.history).any ends →
      ∃ event ∈ item.history, ends event := by
    intro ends decides
    obtain ⟨event, decided, holds⟩ := (Option.any_eq_true _ _).mp decides
    obtain ⟨events, after, found⟩ := Option.bind_eq_some_iff.mp decided
    exact ⟨event, HistoryManager.mem_of_afterLastStarted after (List.mem_of_find?_eq_some found), holds⟩
  rcases terminal with (completes | fails) | continues
  · obtain ⟨event, member, completes⟩ := deciding completes
    exact .inl (isFinished_of_mem member (by rw [completes]; rfl))
  · obtain ⟨event, member, fails⟩ := deciding fails
    exact .inl (isFinished_of_mem member (by rw [fails]; exact Bool.or_true _))
  · exact .inr continues.2

/-- A turn records the terminal event of its result. -/
theorem mem_of_terminalKind (turned : Turned env item result engine outcome manager ending) {kind : EventKind}
    (terminal : Execution.terminalKind result = some kind) :
    ∃ event ∈ (turnRequest env item outcome).historyDelta, event.kind = kind := by
  obtain ⟨limit, trailing, delta, _, _⟩ := turnRequest_delta env item outcome
  obtain ⟨breadcrumbs, tail, rfl, _, kinds⟩ := turned.ends.split
  rw [terminal] at kinds
  obtain ⟨last, rfl, same⟩ := List.map_eq_singleton_iff.mp (show tail.map (·.kind) = [kind] from kinds)
  refine ⟨last, ?_, same⟩
  rw [delta, turned.delta]
  simp

end Dispatcher

/-! ## What is sent -/

/-- The messages that turns send: neither activities and their outcomes, nor raised events. -/
def WorkItem.isSent : WorkItem → Bool
  | .startOrchestration .. | .timerFired .. | .subOrchCompleted .. | .subOrchFailed .. | .cancelInstance ..
  | .continueAsNew .. => true
  | _ => false

theorem WorkItem.raised_of_isSent {item : WorkItem} (sent : item.isSent) : item.raised = none := by
  cases item <;> first | rfl | cases sent

theorem Execution.isSent_of_notifyParent {executionIds : ExecutionIds} {parentLink : Option (String × Nat)}
    {notice : String → Nat → Nat → WorkItem}
    (sent : ∀ parentInstance parentExecution parentId, (notice parentInstance parentExecution parentId).isSent) :
    ∀ workItem ∈ notifyParent executionIds parentLink notice, workItem.isSent := by
  intro workItem member
  obtain ⟨_, _, _, rfl⟩ := mem_notifyParent member
  exact sent _ _ _

theorem Execution.isSent_of_applyTurnResult {stamp : Stamp} {instanceId orchestrationName : String} {executionId : Nat}
    {manager : HistoryManager} {executionIds : ExecutionIds} {parentLink : Option (String × Nat)}
    {pendingActions : List Action} {result : TurnResult} :
    ∀ workItem ∈ (applyTurnResult stamp executionIds instanceId orchestrationName executionId manager parentLink
      pendingActions result).orchestratorItems, workItem.isSent := by
  have detached : ∀ workItem ∈ pendingActions.filterMap detachedStart, workItem.isSent := by
    intro workItem member
    obtain ⟨action, _, asked⟩ := List.mem_filterMap.mp member
    cases action <;> cases asked
    rfl
  intro workItem member
  cases result with
  | «continue» =>
    obtain ⟨action, _, asked⟩ := List.mem_filterMap.mp member
    cases action <;> cases asked <;> rfl
  | completed | failed =>
    rcases List.mem_append.mp member with started | notice
    · exact detached workItem started
    · exact isSent_of_notifyParent (fun _ _ _ => rfl) workItem notice
  | continueAsNew =>
    rw [List.mem_singleton.mp member]
    rfl
  | cancelled =>
    rcases List.mem_append.mp member with cancels | notice
    · obtain ⟨child, _, rfl⟩ := List.mem_map.mp cancels
      rfl
    · exact isSent_of_notifyParent (fun _ _ _ => rfl) workItem notice

theorem Dispatcher.isSent_of_turned {semver : Semver} {env : RuntimeEnv semver} {item : OrchestrationItem}
    {outcome : ExecutionOutcome} {result : TurnResult} {engine : ReplayEngine} {manager : HistoryManager}
    {ending : List Event} (turned : Turned env item result engine outcome manager ending) :
    ∀ workItem ∈ (turnRequest env item outcome).orchestratorItems, workItem.isSent := by
  intro workItem member
  rcases within : limitError outcome.historyMgr.delta item.kvSnapshot with _ | message
  · rw [items_of_within within, turned.orchestratorItems] at member
    rcases List.mem_append.mp member with applied | cancelled
    · exact Execution.isSent_of_applyTurnResult workItem applied
    · obtain ⟨child, _, rfl⟩ := List.mem_map.mp cancelled
      rfl
  · rw [items_of_exceeded (by rw [within]; nofun)] at member
    exact absurd member List.not_mem_nil

/-! ## Requests -/

/-- What is asked for with a batch: nothing over a history that ended, no message if the batch names no orchestration,
a failure, or what a turn makes of the batch. -/
inductive Proceeds {semver : Semver} (item : OrchestrationItem) : AckRequest semver → Prop
  | refused (terminal : isTerminalFor (tempHistoryMgr item) (workitemReader item)) :
      Proceeds item { executionId := item.executionId }
  | unnamed (request : AckRequest semver) (noName : (workitemReader item).hasOrchestrationName = false)
      (silent : request.orchestratorItems = []) : Proceeds item request
  | failed (request : AckRequest semver) (finished : isFinished request.historyDelta)
      (sent : ∀ workItem ∈ request.orchestratorItems, workItem.isSent ∧ isContinuation workItem = false) :
      Proceeds item request
  | turned (env : RuntimeEnv semver) (running : isTerminalFor (tempHistoryMgr item) (workitemReader item) = false)
      (outcome : ExecutionOutcome) (ran : turnOutcome env item = some outcome) (result : TurnResult)
      (engine : ReplayEngine) (manager : HistoryManager) (ending : List Event)
      (turned : Turned env item result engine outcome manager ending) : Proceeds item (turnRequest env item outcome)

namespace Asks.Source

variable {semver : Semver} {conditions : Conditions semver} {item : OrchestrationItem} {attemptCount : Nat}
  {request : AckRequest semver}

theorem proceeds (source : Asks.Source conditions item attemptCount request) (history : Ascending item.history) :
    Proceeds item request := by
  have notified : ∀ {executionIds : Execution.ExecutionIds} {parentLink : Option (String × Nat)} {details : ErrorDetails},
      ∀ workItem ∈ Execution.notifyParent executionIds parentLink (.subOrchFailed · · · details),
        workItem.isSent ∧ isContinuation workItem = false := by
    intro executionIds parentLink details workItem member
    obtain ⟨_, _, _, rfl⟩ := mem_notifyParent member
    exact ⟨rfl, rfl⟩
  cases source with
  | answer env allowed supported _ fallback answered =>
    cases answered with
    | corrupted exceeded message unreadable =>
      unfold failOrchestrationAsPoison
      rw [unreadable]
      exact .failed _ rfl fun _ none => absurd none List.not_mem_nil
    | poisoned exceeded readable =>
      have events := (@failOrchestrationAsPoison_events semver env item attemptCount readable history).1
      refine .failed _ ?_ ?_
      · generalize (failOrchestrationAsPoison env item attemptCount).historyDelta = delta at events
        cases events with
        | recorded continues failed kind =>
          exact isFinished_of_mem (List.mem_singleton_self _) (by rw [kind]; rfl)
        | new empty started failed begins kind =>
          exact isFinished_of_mem (List.mem_cons_of_mem _ (List.mem_singleton_self _)) (by rw [kind]; rfl)
      · rw [failOrchestrationAsPoison_items readable]
        exact notified
    | ended inTime readable terminal => exact .refused terminal
    | turned inTime readable running outcome ran =>
      rcases executed : turnExecuted env item with _ | ⟨result, engine⟩
      · cases ran_of_turnOutcome ran with
        | unnamed noName =>
          refine .unnamed _ noName (List.eq_nil_iff_forall_not_mem.mpr fun workItem member => ?_)
          rcases within : limitError (turnExecution item).2.delta item.kvSnapshot with _ | message
          · rw [items_of_within within] at member
            exact List.not_mem_nil member
          · rw [items_of_exceeded (by rw [within]; nofun)] at member
            exact List.not_mem_nil member
        | executed named version handler resolved =>
          rw [turnExecuted, if_pos named, resolved] at executed
          cases executed
      · obtain ⟨manager, ending, turned⟩ := turned_of_executed executed ran
        exact .turned env running outcome ran result engine manager ending turned
  | failure env allowed supported turned _ outcome ran running error =>
    obtain ⟨failed, kind, delta, _⟩ := @failureCommit_events semver env item (turnExecution item).1 error history
    refine .failed _ ?_ fun _ none => absurd none List.not_mem_nil
    rw [delta]
    exact isFinished_of_mem (List.mem_singleton_self _) (by rw [kind]; rfl)

end Asks.Source

namespace Proceeds

variable {semver : Semver} {item : OrchestrationItem} {request : AckRequest semver}

/-- No request raises an event. -/
theorem raised (proceeds : Proceeds item request) :
    ∀ workItem ∈ request.orchestratorItems, workItem.raised = none := by
  intro workItem member
  refine WorkItem.raised_of_isSent ?_
  cases proceeds with
  | refused => exact absurd member List.not_mem_nil
  | unnamed _ _ silent =>
    rw [silent] at member
    exact absurd member List.not_mem_nil
  | failed _ _ sent => exact (sent workItem member).1
  | turned env running outcome ran result engine manager ending turned => exact isSent_of_turned turned workItem member

/-- A request for a named batch that leaves its execution unfinished is that of a turn. -/
theorem turned_of_unfinished (proceeds : Proceeds item request) (named : (workitemReader item).hasOrchestrationName)
    (resumes : isTerminalFor (tempHistoryMgr item) (workitemReader item) = false)
    (unfinished : isFinished request.historyDelta = false) :
    ∃ (env : RuntimeEnv semver) (outcome : ExecutionOutcome) (result : TurnResult) (engine : ReplayEngine)
      (manager : HistoryManager) (ending : List Event), turnOutcome env item = some outcome ∧
      Turned env item result engine outcome manager ending ∧ request = turnRequest env item outcome := by
  cases proceeds with
  | refused terminal =>
    rw [resumes] at terminal
    cases terminal
  | unnamed _ noName =>
    rw [noName] at named
    cases named
  | failed _ finished =>
    rw [unfinished] at finished
    cases finished
  | turned env running outcome ran result engine manager ending turned =>
    exact ⟨env, outcome, result, engine, manager, ending, ran, turned, rfl⟩

/-- A request that leaves its execution unfinished takes in its batch. -/
theorem takesIn (proceeds : Proceeds item request) (named : (workitemReader item).hasOrchestrationName)
    (resumes : isTerminalFor (tempHistoryMgr item) (workitemReader item) = false)
    (unfinished : isFinished request.historyDelta = false)
    (carried : carriedArrivals (baseHistory item request.executionId) <+: arrivals (baseHistory item request.executionId)) :
    TakesIn (baseHistory item request.executionId) request.historyDelta item.messages := by
  obtain ⟨_, _, _, _, _, _, _, turned, rfl⟩ := proceeds.turned_of_unfinished named resumes unfinished
  exact takesIn_of_turned turned named carried

/-- A request for a batch that continues its instance as new opens the next execution, or finishes one. -/
theorem executionId_of_continues (proceeds : Proceeds item request) (named : (workitemReader item).hasOrchestrationName)
    (resumes : isTerminalFor (tempHistoryMgr item) (workitemReader item) = false)
    (unfinished : isFinished request.historyDelta = false) (continues : (workitemReader item).isContinueAsNew) :
    request.executionId = item.executionId + 1 := by
  obtain ⟨_, _, _, _, _, _, _, _, rfl⟩ := proceeds.turned_of_unfinished named resumes unfinished
  change (turnExecution item).1 = _
  rw [turnExecution, if_pos continues]

/-- A request that opens an execution without finishing it records its start. -/
theorem started_of_new (proceeds : Proceeds item request) (named : (workitemReader item).hasOrchestrationName)
    (resumes : isTerminalFor (tempHistoryMgr item) (workitemReader item) = false)
    (unfinished : isFinished request.historyDelta = false) (new : baseHistory item request.executionId = []) :
    ∃ event ∈ request.historyDelta, event.kind.isStarted := by
  obtain ⟨env, outcome, result, engine, manager, ending, _, turned, rfl⟩ :=
    proceeds.turned_of_unfinished named resumes unfinished
  obtain ⟨limit, trailing, delta, _, _⟩ := turnRequest_delta env item outcome
  have opens := turned.opens
  rw [turned.delta] at delta
  generalize manager.delta = opening at opens delta
  cases opens with
  | unnamed noName =>
    rw [noName] at named
    cases named
  | continues recorded => exact absurd new recorded
  | opens _ named version =>
    rw [delta]
    exact ⟨_, List.mem_append_left _ (List.mem_append_left _ List.mem_cons_self), rfl⟩

/-- A request that ends its execution without finishing it continues its instance as new. -/
theorem continues_of_ended (proceeds : Proceeds item request) (history : Ascending item.history)
    (named : (workitemReader item).hasOrchestrationName)
    (resumes : isTerminalFor (tempHistoryMgr item) (workitemReader item) = false)
    (unfinished : isFinished request.historyDelta = false) (ends : request.historyDelta.any (·.isTerminal)) :
    ∃ workItem ∈ request.orchestratorItems, isContinuation workItem := by
  obtain ⟨env, outcome, result, engine, manager, ending, ran, turned, rfl⟩ :=
    proceeds.turned_of_unfinished named resumes unfinished
  rcases within : limitError outcome.historyMgr.delta item.kvSnapshot with _ | message
  swap
  · rw [finished_of_exceeded (by rw [within]; nofun)] at unfinished
    cases unfinished
  obtain ⟨event, member, terminal⟩ := List.any_eq_true.mp ends
  have kind := terminalKind_of_turned turned history ran within member terminal
  have plain := List.any_eq_false.mp unfinished event member
  cases result with
  | continueAsNew input version =>
    rw [items_of_within within, turned.orchestratorItems]
    exact ⟨_, List.mem_append_left _ (List.mem_singleton_self _), rfl⟩
  | «continue» => cases kind
  | completed | failed | cancelled =>
    rw [← Option.some.inj kind] at plain
    exact absurd rfl plain

/-- A request that continues its instance as new does not finish its execution. -/
theorem unfinished_of_continues (proceeds : Proceeds item request) (history : Ascending item.history)
    {workItem : WorkItem} (listed : workItem ∈ request.orchestratorItems) (continues : isContinuation workItem) :
    isFinished request.historyDelta = false := by
  cases proceeds with
  | refused => rfl
  | unnamed _ _ silent =>
    rw [silent] at listed
    exact absurd listed List.not_mem_nil
  | failed _ _ sent =>
    rw [(sent workItem listed).2] at continues
    cases continues
  | turned env running outcome ran result engine manager ending turned =>
    rcases within : limitError outcome.historyMgr.delta item.kvSnapshot with _ | message
    swap
    · rw [items_of_exceeded (by rw [within]; nofun)] at listed
      exact absurd listed List.not_mem_nil
    obtain ⟨next, version, rfl⟩ : ∃ next version, result = .continueAsNew next version := by
      rw [items_of_within within, turned.orchestratorItems] at listed
      cases workItem with
      | continueAsNew target orchestration input version carried status =>
        rcases List.mem_append.mp listed with applied | cancelled
        · exact (continueAsNew_of_applyTurnResult applied).2.2
        · obtain ⟨child, _, same⟩ := List.mem_map.mp cancelled
          cases same
      | _ => cases continues
    refine List.any_eq_false.mpr fun event member finishes => ?_
    have terminal : event.kind.isTerminal := by
      cases kind : event.kind <;> rw [kind] at finishes <;> first | rfl | cases finishes
    have kind := terminalKind_of_turned turned history ran within member terminal
    rw [← Option.some.inj kind] at finishes
    cases finishes

/-- A request for a batch with a cancellation finishes its execution. -/
theorem finished_of_cancelled (proceeds : Proceeds item request) (history : Ascending item.history)
    (named : (workitemReader item).hasOrchestrationName)
    (resumes : isTerminalFor (tempHistoryMgr item) (workitemReader item) = false)
    (goesOn : GoesOn (baseHistory item request.executionId)) {target reason : String}
    (listed : WorkItem.cancelInstance target reason ∈ item.messages) : isFinished request.historyDelta := by
  refine Bool.eq_true_of_not_eq_false fun unfinished => ?_
  obtain ⟨env, outcome, result, engine, manager, ending, ran, turned, rfl⟩ :=
    proceeds.turned_of_unfinished named resumes unfinished
  have read : .cancelInstance target reason ∈ (workitemReader item).completionMessages := by
    have kept : WorkItem.cancelInstance target reason ∈ item.messages.filter WorkItemReader.isCompletionMessage :=
      List.mem_filter.mpr ⟨listed, rfl⟩
    have parsed := VersionPinning.parsed_workitemReader item
    generalize workitemReader item = reader at parsed
    cases parsed with
    | start | neither => exact kept
    | continueAsNew => exact List.mem_append_right _ kept
  have sound := turned.sound history ran
  have unended : manager.fullHistory.any (·.isTerminal) = false := by
    rw [HistoryManager.fullHistory, turned.history, List.any_append]
    refine Bool.or_eq_false_iff.mpr ⟨goesOn, List.any_eq_false.mpr fun event opens terminal => ?_⟩
    have plain := Completions.plain_opening turned.opens event opens
    unfold Event.isTerminal at terminal
    cases kind : event.kind <;> rw [kind] at plain terminal <;> first | cases terminal; done | cases plain
  have baseline : (preparedEngine env item manager).baselineHistory = manager.fullHistory :=
    Execution.prepareTurn_baselineHistory ..
  have inner : (preparedEngine env item manager).historyDelta.any (·.isTerminal) = false :=
    List.any_eq_false.mpr fun event member =>
      Bool.eq_false_iff.mp (EventKind.isTerminal_of_isInner (sound.inner event member))
  obtain ⟨version, handler, _, run⟩ := turned.ran
  obtain ⟨details, kind⟩ := failed_of_cancelRequested sound (cancelRequested_of_mem unended read)
    (by rw [List.any_append, baseline, unended, inner]; rfl) handler manager.extractContext.1
    (workitemReader item).orchestrationName (semver.render version)
  rw [← run] at kind
  obtain ⟨event, member, same⟩ := mem_of_terminalKind turned kind
  rw [isFinished_of_mem member (by rw [same]; rfl)] at unfinished
  cases unfinished

end Proceeds

end Duroxide
