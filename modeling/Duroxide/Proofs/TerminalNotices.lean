import Duroxide.Proofs.ParentLinks
import Duroxide.Proofs.VersionPinning

/-! # Whether the end of a child reaches its parent

An instance that was started with a parent link can end in several ways. The parent is notified, once,
by a turn of the first execution that stays within its limits and by a poison failure of the first
execution; it is not by a turn that exceeds a limit, by a later execution, by the failure of a corrupted
history, and by the failure that is committed after an acknowledgement failed.
-/

namespace Duroxide.TerminalNotices

open Provider Dispatcher HistoryManager VersionPinning

variable {semver : Semver} {env : RuntimeEnv semver} {item : OrchestrationItem} {attemptCount : Nat}
  {request : AckRequest semver} {parent : String} {parentId : Nat}

/-- The parent of an item's instance: the one that its first start event names, or, before there is one,
the one that the first start item of the batch names. -/
def firstLink (store : Store) (item : OrchestrationItem) : Option (String × Nat) :=
  match (store.recorded item.instanceId INITIAL_EXECUTION_ID).find? (·.kind.isStarted) with
  | some started => parentOfStarted started
  | none => match item.messages.find? (·.isStart) with
    | some (.startOrchestration _ _ _ _ parentInstance parentId _) => parentLink parentInstance parentId
    | _ => none

/-- The requests that end an orchestration: what is decided about an item, or the failure that is committed
after the acknowledgement of a turn failed. -/
inductive Transition (env : RuntimeEnv semver) (item : OrchestrationItem) (attemptCount : Nat) :
    Bool → AckRequest semver → Prop
  | decided (request : AckRequest semver) (fallback : Option (ProviderError → AckRequest semver))
      (decision : handleFetchedItem env item attemptCount = .ack request fallback) (event : Event)
      (member : event ∈ request.historyDelta) (ends : event.kind.isCompleted ∨ event.kind.isFailed) :
      Transition env item attemptCount false request
  | afterFailedAck (original : AckRequest semver) (commit : ProviderError → AckRequest semver)
      (decision : handleFetchedItem env item attemptCount = .ack original (some commit)) (error : ProviderError) :
      Transition env item attemptCount true (commit error)

/-- When a transition notifies the parent: it is decided over a history that can be read, in the first
execution, and a turn neither continues as new nor exceeds a limit. -/
structure NoticeDue (env : RuntimeEnv semver) (item : OrchestrationItem) (attemptCount : Nat) (afterFailedAck : Bool) :
    Prop where
  decided : afterFailedAck = false
  readable : item.historyError = none
  first : item.executionId = INITIAL_EXECUTION_ID
  sameExecution : attemptCount ≤ env.maxAttempts → (workitemReader item).isContinueAsNew = false
  within : attemptCount ≤ env.maxAttempts → ∀ outcome, turnOutcome env item = some outcome →
    limitError outcome.historyMgr.delta item.kvSnapshot = none

theorem not_notifiesOnce_of_nil (silent : request.notices = []) : ¬ NotifiesOnce request parent parentId := by
  rintro ⟨notice, single, _⟩
  rw [silent] at single
  cases single

/-! ## The parent that an item's decision knows -/

/-- The holder of an item, and what the tables say about its instance. -/
structure Known (store : Store) (item : OrchestrationItem) : Prop where
  records : InstanceRecords store item.instanceId
  unstarted : store.instances item.instanceId = none → ∀ event ∈ store.recorded item.instanceId INITIAL_EXECUTION_ID,
    event.kind.isStarted = false
  newborn : store.instances item.instanceId = none →
    item.executionId = 1 ∧ item.history = [] ∧ (workitemReader item).isContinueAsNew = false
  links : ParentLinks store
  describes : Describes store item
  history : HistoryOrigin item.history

theorem known_of_reachable {guard : World semver → Step semver → Prop} {world : World semver}
    (reached : (system semver).Reachable guard world) {token : Nat} {delivery : Delivery semver} {now : Int}
    (holds : world.deliveries token = some delivery)
    (locked : world.store.holdsLock now delivery.item.instanceId token) : Known world.store delivery.item := by
  have lifecycle := Lifecycle.of_reachable reached
  have describes := (Coherent.of_reachable reached).of_holdsLock holds locked
  refine ⟨lifecycle.records _, fun noRow => lifecycle.notRecorded noRow _, fun noRow => ?_, .of_reachable reached, describes,
    (Provenance.of_reachable reached).items token delivery holds⟩
  obtain ⟨first, _, empty⟩ := lifecycle.describes_of_noRow describes noRow
  refine ⟨first, empty, Bool.eq_false_of_not_eq_true fun continues => ?_⟩
  have known := (lifecycle.continuation holds continues).2
  rw [noRow] at known
  cases known

namespace Known

variable {store : Store}

/-- An item with an instance row has the events of the execution that it is about. -/
theorem read (known : Known store item) (readable : item.historyError = none) {info : InstanceRow}
    (row : store.instances item.instanceId = some info) :
    item.history = store.recorded item.instanceId item.executionId ∧ item.history ≠ [] := by
  cases known.describes with
  | recorded noRow | requested noRow => exact nomatch noRow.symm.trans row
  | unreadable _ _ _ _ _ error =>
    rw [readable] at error
    cases error
  | known other found current named versioned _ history =>
    have same := Store.recorded_of_readHistory history
    rw [← current] at same
    refine ⟨same, fun empty => ?_⟩
    rw [empty, current] at same
    exact known.records.current other found same.symm

/-- An instance without a row has not started. -/
theorem find?_started (known : Known store item) (noRow : store.instances item.instanceId = none) :
    (store.recorded item.instanceId INITIAL_EXECUTION_ID).find? (·.kind.isStarted) = none := by
  rw [List.find?_eq_none]
  intro event member started
  rw [known.unstarted noRow event member] at started
  cases started

/-- Later executions know no parent. -/
theorem linkOf_of_later (known : Known store item) (readable : item.historyError = none)
    (later : item.executionId ≠ INITIAL_EXECUTION_ID) : item.history ≠ [] ∧ linkOf item.history = none := by
  rcases row : store.instances item.instanceId with _ | info
  · exact absurd (known.newborn row).1 later
  · obtain ⟨same, occupied⟩ := known.read readable row
    refine ⟨occupied, List.findSome?_eq_none_iff.mpr fun event member => ?_⟩
    rw [same] at member
    exact known.links.unlinked _ _ later event member

/-- The history of the first execution names the parent. -/
theorem linkOf_of_first (known : Known store item) (readable : item.historyError = none)
    (first : item.executionId = INITIAL_EXECUTION_ID) (occupied : item.history ≠ []) :
    linkOf item.history = firstLink store item := by
  rcases row : store.instances item.instanceId with _ | info
  · exact absurd (known.newborn row).2.1 occupied
  obtain ⟨same, _⟩ := known.read readable row
  have history := known.history
  obtain ⟨event, member, started⟩ := known.links.started _ info row
  rw [firstLink, ← first, ← same]
  rw [← first, ← same] at member
  rcases events : item.history with _ | ⟨head, rest⟩
  · exact absurd events occupied
  rw [events] at history member
  have own : event = head := by
    refine (List.mem_cons.mp member).resolve_right fun later => ?_
    rw [history.startsOnce event later] at started
    cases started
  rw [history.linkOf_cons, List.find?_cons_of_pos (own ▸ started)]

/-- Without a history the batch names the parent. -/
theorem parentLink_of_new (known : Known store item) (readable : item.historyError = none) (empty : item.history = [])
    (same : (workitemReader item).isContinueAsNew = false) :
    parentLink (workitemReader item).parentInstance (workitemReader item).parentId = firstLink store item := by
  rcases row : store.instances item.instanceId with _ | info
  swap
  · exact absurd empty (known.read readable row).2
  rw [firstLink, known.find?_started row]
  have parsed := WorkItemReader.parsed_fromMessages item.messages (tempHistoryMgr item) item.instanceId
  change WorkItemReader.Parsed _ _ _ (workitemReader item) at parsed
  generalize workitemReader item = reader at parsed same
  cases parsed with
  | start target orchestration input version parentInstance parentId executionId first => rw [first]
  | continueAsNew => cases same
  | neither first =>
    rw [first, tempHistoryMgr, empty]
    rfl

/-- A turn of the first execution knows the parent. -/
theorem turnLink_of_first (known : Known store item) (readable : item.historyError = none)
    (first : item.executionId = INITIAL_EXECUTION_ID) (same : (workitemReader item).isContinueAsNew = false) :
    turnLink item = firstLink store item := by
  rw [turnLink, turnExecution_of_sameExecution same, baseHistory_self]
  split_ifs with empty
  · exact known.parentLink_of_new readable (List.isEmpty_iff.mp empty) same
  · exact known.linkOf_of_first readable first fun new => empty (List.isEmpty_iff.mpr new)

/-- A turn of a later execution knows none. -/
theorem turnLink_of_later (known : Known store item) (readable : item.historyError = none)
    (later : item.executionId ≠ INITIAL_EXECUTION_ID ∨ (workitemReader item).isContinueAsNew) : turnLink item = none := by
  rcases continues : (workitemReader item).isContinueAsNew with _ | _
  · have past := later.resolve_right (by rw [continues]; exact Bool.false_ne_true)
    obtain ⟨occupied, unlinked⟩ := known.linkOf_of_later readable past
    rw [turnLink, turnExecution_of_sameExecution continues, baseHistory_self, unlinked]
    exact if_neg fun empty => occupied (List.isEmpty_iff.mp empty)
  · obtain ⟨noInstance, noId⟩ := parents_of_continues continues
    have next : (turnExecution item).1 = item.executionId + 1 := by
      rw [turnExecution, if_pos continues]
    rw [turnLink, next, baseHistory_next, noInstance, noId]
    rfl

end Known

/-- A poison failure takes the parent from the first start item. -/
theorem poisonStart_parents (item : OrchestrationItem) :
    parentLink (poisonStart item).2.2.1 (poisonStart item).2.2.2.1 =
      match item.messages.find? (·.isStart) with
      | some (.startOrchestration _ _ _ _ parentInstance parentId _) => parentLink parentInstance parentId
      | _ => none := by
  unfold poisonStart
  induction item.messages with
  | nil => rfl
  | cons message rest ih =>
    cases message with
    | startOrchestration | continueAsNew => rfl
    | _ => exact ih

theorem poisonLink_of_occupied (occupied : item.history ≠ []) : (poisonManager env item).2 = linkOf item.history := by
  unfold poisonManager
  dsimp only
  rw [if_neg]
  · rfl
  · simp [HistoryManager.isEmpty, occupied]

theorem poisonLink_of_new (empty : item.history = []) :
    (poisonManager env item).2 = parentLink (poisonStart item).2.2.1 (poisonStart item).2.2.2.1 := by
  unfold poisonManager
  dsimp only
  rw [if_pos]
  simp [HistoryManager.isEmpty, empty]

namespace Known

variable {store : Store}

theorem poisonLink_of_first (known : Known store item) (readable : item.historyError = none)
    (first : item.executionId = INITIAL_EXECUTION_ID) : (poisonManager env item).2 = firstLink store item := by
  by_cases empty : item.history = []
  · rw [poisonLink_of_new empty, poisonStart_parents]
    rcases row : store.instances item.instanceId with _ | info
    swap
    · exact absurd empty (known.read readable row).2
    rw [firstLink, known.find?_started row]
  · rw [poisonLink_of_occupied empty, known.linkOf_of_first readable first empty]

theorem poisonLink_of_later (known : Known store item) (readable : item.historyError = none)
    (later : item.executionId ≠ INITIAL_EXECUTION_ID) : (poisonManager env item).2 = none := by
  obtain ⟨occupied, unlinked⟩ := known.linkOf_of_later readable later
  rw [poisonLink_of_occupied occupied, unlinked]

end Known

/-! ## The notices of a transition -/

variable {store : Store} {outcome : ExecutionOutcome}

theorem notices_of_poison (readable : item.historyError = none) :
    (failOrchestrationAsPoison env item attemptCount).notices =
      Execution.notifyParent env.executionIds (poisonManager env item).2
        (.subOrchFailed · · · (poisonDetails env item attemptCount)) := by
  rw [AckRequest.notices, failOrchestrationAsPoison_items readable]
  exact Execution.filter_notifyParent fun _ _ _ => rfl

/-- A turn that exceeds a limit tells nobody. -/
theorem notices_of_exceeded (exceeds : limitError outcome.historyMgr.delta item.kvSnapshot ≠ none) :
    (turnRequest env item outcome).notices = [] := by
  rw [AckRequest.notices, items_of_exceeded exceeds, List.filter_nil]

/-- The notices of a turn that ends within its limits are those of its result. -/
theorem notices_of_ended (ran : turnOutcome env item = some outcome) (history : HistoryOrigin item.history)
    (within : limitError outcome.historyMgr.delta item.kvSnapshot = none) {event : Event}
    (member : event ∈ (turnRequest env item outcome).historyDelta) (ends : event.kind.isCompleted ∨ event.kind.isFailed) :
    ∃ result, Execution.terminalKind result = some event.kind ∧
      (turnRequest env item outcome).notices = Execution.notice env.executionIds (turnLink item) result := by
  have terminal : event.kind.isTerminal := by
    rcases kind : event.kind with _ | _ | _ <;> rw [kind] at ends <;>
      simp_all [EventKind.isCompleted, EventKind.isFailed, EventKind.isTerminal]
  obtain ⟨version, handler, rfl, kind⟩ := executed_of_ended ran history.ordered within member terminal
  exact ⟨_, kind, turnRequest_notices history within⟩

/-- A failure that is committed after a failed acknowledgement tells nobody. -/
theorem notices_of_failureCommit {original : AckRequest semver} {commit : ProviderError → AckRequest semver}
    (decision : handleFetchedItem env item attemptCount = .ack original (some commit)) (error : ProviderError) :
    (commit error).notices = [] := by
  cases (answered_of_decided decision).2 with
  | turned => rfl

/-- A transition notifies the parent once exactly when its notice is due. -/
theorem notifiesOnce_iff_of_known (known : Known store item) (link : firstLink store item = some (parent, parentId))
    {late : Bool} (transition : Transition env item attemptCount late request) :
    NotifiesOnce request parent parentId ↔ NoticeDue env item attemptCount late := by
  cases transition with
  | afterFailedAck original commit decision error =>
    refine iff_of_false (not_notifiesOnce_of_nil (notices_of_failureCommit decision error)) fun due => ?_
    cases due.decided
  | decided request fallback decision event member ends =>
    cases (answered_of_decided decision).2 with
    | ended => exact absurd member List.not_mem_nil
    | corrupted exceeded message unreadable =>
      refine iff_of_false (not_notifiesOnce_of_nil ?_) fun due => ?_
      · rw [AckRequest.notices, failOrchestrationAsPoison_items_of_unreadable unreadable]
        rfl
      · rw [due.readable] at unreadable
        cases unreadable
    | poisoned exceeded readable =>
      have silent := @notices_of_poison semver env item attemptCount readable
      by_cases first : item.executionId = INITIAL_EXECUTION_ID
      · rw [known.poisonLink_of_first readable first, link] at silent
        refine iff_of_true ⟨_, silent, .failed _ _⟩ ⟨rfl, readable, first, ?_, ?_⟩
        · exact fun inTime => absurd inTime (not_le.mpr exceeded)
        · exact fun inTime => absurd inTime (not_le.mpr exceeded)
      · rw [known.poisonLink_of_later readable first] at silent
        exact iff_of_false (not_notifiesOnce_of_nil silent) fun due => first due.first
    | turned inTime readable running outcome ran =>
      by_cases within : limitError outcome.historyMgr.delta item.kvSnapshot = none
      swap
      · refine iff_of_false (not_notifiesOnce_of_nil (notices_of_exceeded within)) fun due => ?_
        exact within (due.within inTime outcome ran)
      obtain ⟨result, kind, notices⟩ := notices_of_ended ran known.history within member ends
      by_cases first : item.executionId = INITIAL_EXECUTION_ID ∧ (workitemReader item).isContinueAsNew = false
      · rw [known.turnLink_of_first readable first.1 first.2, link] at notices
        obtain ⟨notice, single, informs⟩ := @Execution.notice_of_linked env.executionIds _ _ _ _ kind ends
        refine iff_of_true ⟨notice, notices.trans single, informs⟩ ⟨rfl, readable, first.1, fun _ => first.2, ?_⟩
        intro _ other otherRan
        rw [ran] at otherRan
        cases otherRan
        exact within
      · have later : item.executionId ≠ INITIAL_EXECUTION_ID ∨ (workitemReader item).isContinueAsNew := by
          by_contra neither
          rw [not_or, not_ne_iff, Bool.not_eq_true] at neither
          exact first neither
        rw [known.turnLink_of_later readable later, Execution.notice_of_unlinked] at notices
        refine iff_of_false (not_notifiesOnce_of_nil notices) fun due => ?_
        exact first ⟨due.first, due.sameExecution inTime⟩

/-- Whoever holds the lock of an instance that was started with a parent: every request by which it ends
the orchestration notifies the parent once exactly when its notice is due. -/
theorem notifiesOnce_iff {guard : World semver → Step semver → Prop} {world : World semver}
    (reached : (system semver).Reachable guard world) {token : Nat} {delivery : Delivery semver} {now : Int}
    (holds : world.deliveries token = some delivery)
    (locked : world.store.holdsLock now delivery.item.instanceId token)
    (link : firstLink world.store delivery.item = some (parent, parentId)) {late : Bool}
    (transition : Transition env delivery.item delivery.attemptCount late request) :
    NotifiesOnce request parent parentId ↔ NoticeDue env delivery.item delivery.attemptCount late :=
  notifiesOnce_iff_of_known (known_of_reachable reached holds locked) link transition

/-! A parent gives its own input to one child and waits; the child continues as new, or finishes. -/

def waitingParent : OrchestrationHandler where
  State := Option String
  invoke := some
  poll
    | some input => .call (.scheduleSubOrchestration "child" none none input) fun _ => .suspend none
    | none => .suspend none

def repeatingChild : OrchestrationHandler where
  State := String
  invoke input := input
  poll input :=
    if input = "again" then .call (.continueAsNew "finish" none) fun _ => .suspend "wait"
    else if input = "wait" then .suspend "wait"
    else .finish (.ok "done")

def pairEnv : RuntimeEnv textSemver :=
  registeredEnv fun name =>
    if name = "parent" then some waitingParent else if name = "child" then some repeatingChild else none

/-- The parent starts the child, and a dispatcher decides the first turn of the child. -/
def childDecided (input : String) : List (Step textSemver) :=
  [.client 0 (.startOrchestration "p" "parent" input none none none 1), .fetch {} none 0 1000 1 none,
    .decide 1 pairEnv, .ack {} 0 1 none, .fetch {} none 0 1000 2 none, .decide 2 pairEnv]

/-- What a test of a decided turn of a child shows: its parent, its terminal event and its readiness to fail. -/
def endsChild (store : Store) (delivery : Delivery textSemver) : Bool :=
  firstLink store delivery.item == some ("p", 2) && store.holdsLock 0 delivery.item.instanceId 2 &&
    match handleFetchedItem pairEnv delivery.item delivery.attemptCount with
    | .ack request (some _) => request.historyDelta.any (·.kind.isCompleted)
    | _ => false

theorem childDecided_finish : ∃ world delivery request commit, World.run {} (childDecided "finish") = some world ∧
    world.deliveries 2 = some delivery ∧ firstLink world.store delivery.item = some ("p", 2) ∧
    world.store.holdsLock 0 delivery.item.instanceId 2 ∧
    handleFetchedItem pairEnv delivery.item delivery.attemptCount = .ack request (some commit) ∧
    ∃ event ∈ request.historyDelta, event.kind.isCompleted := by
  have observed : (World.run {} (childDecided "finish")).any (fun world =>
      (world.deliveries 2).any (endsChild world.store)) = true := by
    decide +kernel
  obtain ⟨world, ran, held⟩ := (Option.any_eq_true _ _).mp observed
  obtain ⟨delivery, holds, facts⟩ := (Option.any_eq_true _ _).mp held
  simp only [endsChild, Bool.and_eq_true, beq_iff_eq] at facts
  obtain ⟨⟨link, locked⟩, decided⟩ := facts
  rcases decision : handleFetchedItem pairEnv delivery.item delivery.attemptCount with ⟨_, _⟩ | ⟨request, _ | commit⟩
  · simp [decision] at decided
  · simp [decision] at decided
  · simp only [decision, List.any_eq_true] at decided
    exact ⟨world, delivery, request, commit, ran, holds, link, locked, decision, decided⟩

theorem notifiesOnce_iff_finish : ∃ world delivery request, World.run {} (childDecided "finish") = some world ∧
    world.deliveries 2 = some delivery ∧ Transition pairEnv delivery.item delivery.attemptCount false request ∧
    (NotifiesOnce request "p" 2 ↔ NoticeDue pairEnv delivery.item delivery.attemptCount false) := by
  obtain ⟨world, delivery, request, commit, ran, holds, link, locked, decision, event, member, ends⟩ := childDecided_finish
  have transition : Transition pairEnv delivery.item delivery.attemptCount false request :=
    .decided request _ decision event member (.inl ends)
  exact ⟨world, delivery, request, ran, holds, transition,
    notifiesOnce_iff (World.reachable_of_run (.initial rfl) ran) holds locked link transition⟩

def diskFailure : SqlxError where
  message := "disk I/O error"

/-- The acknowledgement of the child's last turn fails, and the failure is committed instead. -/
def failedAck : List (Step textSemver) :=
  childDecided "finish" ++ [.ack {} 0 2 (some (0, diskFailure)), .failTurn 2, .ack {} 0 2 none]

/-- The failure that is committed after a failed acknowledgement leaves the parent waiting. -/
theorem failedAck_notNotified :
    (∃ world delivery request, World.run {} (childDecided "finish") = some world ∧
      world.deliveries 2 = some delivery ∧ firstLink world.store delivery.item = some ("p", 2) ∧
      Transition pairEnv delivery.item delivery.attemptCount true request ∧ ¬ NotifiesOnce request "p" 2) ∧
    ∃ world, World.run {} failedAck = some world ∧
      (world.store.recorded "p::sub::2" 1).any (·.kind.isFailed) = true ∧ world.store.orchestratorQueue = [] := by
  constructor
  · obtain ⟨world, delivery, request, commit, ran, holds, link, _, decision, _⟩ := childDecided_finish
    exact ⟨world, delivery, _, ran, holds, link, .afterFailedAck request commit decision (appendError diskFailure),
      not_notifiesOnce_of_nil (notices_of_failureCommit decision _)⟩
  · have observed : (World.run {} failedAck).any (fun world =>
        (world.store.recorded "p::sub::2" 1).any (·.kind.isFailed) && world.store.orchestratorQueue.isEmpty) = true := by
      decide +kernel
    obtain ⟨world, ran, facts⟩ := (Option.any_eq_true _ _).mp observed
    obtain ⟨failed, empty⟩ := Bool.and_eq_true_iff.mp facts
    exact ⟨world, ran, failed, List.isEmpty_iff.mp empty⟩

end Duroxide.TerminalNotices
