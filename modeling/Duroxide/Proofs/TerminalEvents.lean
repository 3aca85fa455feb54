import Duroxide.Proofs.Lifecycle
import Duroxide.Proofs.VersionPinning

/-! # At most one terminal event, and it is last

A turn orders its breadcrumbs before its terminal event, but the dispatcher appends further events
behind the turn: the failure for a limit, and the cancellations of what is in flight. A failure of a
poisoned or corrupted history does not look at what ended the execution before, and a history without
its start event is not recognized as ended. Where none of these happens, every history of every run
ends with its only terminal event.
-/

namespace Duroxide.TerminalEvents

open Provider Dispatcher HistoryManager VersionPinning

variable {semver : Semver}

/-! ## Events of which only the last may end the execution -/

def Unended (events : List Event) : Prop := ∀ event ∈ events, event.isTerminal = false

def Closing (events : List Event) : Prop := events.Pairwise fun earlier _ => earlier.isTerminal = false

variable {base events rest : List Event}

theorem Unended.append (first : Unended events) (second : Unended rest) : Unended (events ++ rest) := by
  intro event member
  exact (List.mem_append.mp member).elim (first event) (second event)

theorem closing_singleton (event : Event) : Closing [event] := List.pairwise_singleton _ _

theorem Unended.closing_append (unended : Unended base) (closing : Closing rest) : Closing (base ++ rest) := by
  refine List.pairwise_append.mpr ⟨?_, closing, fun event member _ _ => unended event member⟩
  exact List.pairwise_iff_forall_sublist.mpr fun sublist => unended _ (sublist.subset List.mem_cons_self)

theorem unended_of_inner (inner : ∀ event ∈ events, event.kind.isInner) : Unended events :=
  fun event member => EventKind.isTerminal_of_isInner (inner event member)

theorem unended_of_breadcrumbs (breadcrumbs : ∀ event ∈ events, event.kind.isBreadcrumb) : Unended events :=
  fun event member => EventKind.isTerminal_of_isBreadcrumb (breadcrumbs event member)

/-- The events of a turn's ending are unended up to at most one last event. -/
theorem ending_split {result : TurnResult} {ending : List Event} (ends : Execution.Ends result ending) :
    ∃ breadcrumbs tail, ending = breadcrumbs ++ tail ∧ Unended breadcrumbs ∧ Closing tail := by
  obtain ⟨breadcrumbs, tail, rfl, kinds, terminal⟩ := ends.split
  refine ⟨breadcrumbs, tail, rfl, unended_of_breadcrumbs kinds, ?_⟩
  have short : tail.length ≤ 1 := by
    rw [← List.length_map (f := (·.kind)), terminal]
    exact Option.length_toList_le
  rcases tail with _ | ⟨event, _ | ⟨second, others⟩⟩
  · exact .nil
  · exact closing_singleton event
  · simp only [List.length_cons] at short
    omega

/-! ## What a turn appends -/

/-- A message that the engine takes in: it becomes an event or aborts the turn. -/
def enters (engine : ReplayEngine) (message : WorkItem) : Bool :=
  engine.isCompletionForCurrentExecution message && !engine.isCompletionAlreadyInHistory message &&
    !engine.isAlreadyInDelta message &&
    ((engine.completionError message).isSome || (engine.messageToEventKind message).isSome)

theorem prepCompletion_of_not_enters {engine : ReplayEngine} {message : WorkItem} (ignored : enters engine message = false) :
    engine.prepCompletion message = engine := by
  unfold ReplayEngine.prepCompletion
  split_ifs with other persisted staged
  · rfl
  · rfl
  · rfl
  simp only [Bool.not_eq_true'] at other
  simp only [Bool.not_eq_true] at persisted staged
  simp only [enters, Bool.not_eq_false] at ignored other
  simp only [other, persisted, staged, Bool.not_false, Bool.and_true, Bool.true_and, Bool.or_eq_false_iff,
    Option.isSome_eq_false_iff, Option.isNone_iff_eq_none] at ignored
  rw [ignored.1]
  dsimp only
  rw [ignored.2]
  cases message with
  | activityFailed | subOrchFailed => cases ignored.2
  | _ => rfl

theorem prepCompletions_of_not_enters {engine : ReplayEngine} {messages : List WorkItem}
    (ignored : ∀ message ∈ messages, enters engine message = false) : engine.prepCompletions messages = engine := by
  unfold ReplayEngine.prepCompletions
  induction messages with
  | nil => rfl
  | cons message rest ih =>
    rw [List.foldl_cons, prepCompletion_of_not_enters (ignored message List.mem_cons_self)]
    exact ih fun later member => ignored later (List.mem_cons_of_mem message member)

variable {env : RuntimeEnv semver} {item : OrchestrationItem} {attemptCount : Nat} {outcome : ExecutionOutcome}

/-- The engine of a turn before any message. -/
def freshEngine (stamp : Stamp) (item : OrchestrationItem) : ReplayEngine :=
  ReplayEngine.new stamp item.instanceId item.executionId item.history

/-- No branch is taken that appends behind a terminal event. -/
structure EndsOnce (env : RuntimeEnv semver) (item : OrchestrationItem) (attemptCount : Nat) : Prop where
  poisoned : isSupported env item → env.maxAttempts < attemptCount → item.historyError = none → Unended item.history
  resumed : ∀ outcome, Takes env item attemptCount outcome → (workitemReader item).isContinueAsNew = false →
    (workitemReader item).hasOrchestrationName → Unended item.history ∨
      ∀ message ∈ (workitemReader item).completionMessages, enters (freshEngine env.stamp item) message = false
  limited : ∀ outcome, Takes env item attemptCount outcome →
    (limitError outcome.historyMgr.delta item.kvSnapshot).isSome → Unended outcome.historyMgr.fullHistory
  inflight : ∀ outcome, Takes env item attemptCount outcome →
    (turnRequest env item outcome).metadata.status.isSome →
    (enforceLimits env item (turnExecution item).1 outcome).1.historyMgr.computeInflightActivities item.instanceId
      (turnExecution item).1 = []

/-- A turn over an ended history adds nothing if no message enters. -/
theorem delta_of_ended (takes : Takes env item attemptCount outcome) (history : Ascending item.history)
    (same : (workitemReader item).isContinueAsNew = false) (ended : ¬ Unended item.history)
    (ignored : (workitemReader item).hasOrchestrationName → ∀ message ∈ (workitemReader item).completionMessages,
      enters (freshEngine env.stamp item) message = false) : outcome.historyMgr.delta = [] := by
  have occupied : item.history ≠ [] := fun empty => ended (empty ▸ fun _ none => absurd none List.not_mem_nil)
  cases ran_of_turnOutcome takes.ran with
  | unnamed => exact turnExecution_delta item
  | executed named version handler resolved =>
    have events : startIfNew env.stamp item.instanceId (turnExecution item).1 (workitemReader item)
        (semver.render version) (turnExecution item).2 = tempHistoryMgr item := eventsOf_of_recorded same occupied version
    rw [events, turnExecution_of_sameExecution same]
    have prepared : Execution.prepareTurn env.stamp item.instanceId item.executionId (tempHistoryMgr item)
        (workitemReader item) item.kvSnapshot =
          ((freshEngine env.stamp item).withPersistedHistoryLen (tempHistoryMgr item).originalLen).withKvSnapshot
            item.kvSnapshot := by
      rw [Execution.prepareTurn, fullHistory_tempHistoryMgr]
      exact prepCompletions_of_not_enters (ignored named)
    have stopped : Execution.executedTurn env.stamp item.instanceId (tempHistoryMgr item) (workitemReader item)
        item.executionId handler (semver.render version) item.kvSnapshot =
          (.continue, ((freshEngine env.stamp item).withPersistedHistoryLen (tempHistoryMgr item).originalLen).withKvSnapshot
            item.kvSnapshot) := by
      have terminal : (item.history ++ []).any (·.isTerminal) = true := by
        rw [List.append_nil]
        simpa [Unended] using ended
      rw [Execution.executedTurn, prepared, ReplayEngine.executeOrchestration]
      exact if_pos terminal
    obtain ⟨body, ending, extended, bodyEvents, _, ends⟩ := Execution.runSingleExecutionAtomic_extends
      env.executionIds (workitemReader item) handler (semver.render version) item.kvSnapshot
      (fullHistory_tempHistoryMgr.symm ▸ history)
    rw [stopped] at bodyEvents ends
    rw [extended.delta, bodyEvents, ends.goesOn rfl, List.append_nil]
    exact (List.append_nil _).trans (fromHistory_delta item.history)

/-- The events of a turn that takes none of the branches close its execution. -/
theorem closing_turn (takes : Takes env item attemptCount outcome) (endsOnce : EndsOnce env item attemptCount)
    (history : Ascending item.history) (closing : Closing (baseHistory item (turnExecution item).1)) :
    Closing (baseHistory item (turnExecution item).1 ++ (turnRequest env item outcome).historyDelta) := by
  obtain ⟨opening, body, ending, limit, trailing, events⟩ := requestEvents takes.ran history
  have nothingBehind : trailing = [] := by
    rcases status : (turnRequest env item outcome).metadata.status with _ | ended
    · exact events.quiet status
    · exact events.idle (endsOnce.inflight outcome takes (status ▸ rfl))
  have full : outcome.historyMgr.fullHistory = baseHistory item (turnExecution item).1 ++ outcome.historyMgr.delta := by
    rw [events.turn.extended.fullHistory, turnExecution_fullHistory, events.outcomeDelta]
  have limited : limit = [] ∨ Unended outcome.historyMgr.fullHistory ∧ Closing limit := by
    have limited := events.limited
    generalize enforceLimits env item (turnExecution item).1 outcome = enforced at limited
    cases limited with
    | within => exact .inl rfl
    | exceeded message some event failed =>
      exact .inr ⟨endsOnce.limited outcome takes (some ▸ rfl), closing_singleton event⟩
  rw [events.delta, nothingBehind, List.append_nil, ← events.outcomeDelta, ← List.append_assoc, ← full]
  rcases limited with rfl | ⟨unended, closes⟩
  swap
  · exact unended.closing_append closes
  rw [List.append_nil, full]
  by_cases running : Unended (baseHistory item (turnExecution item).1)
  · -- what comes before the terminal event does not end the execution
    obtain ⟨result, ends⟩ := events.turn.ends
    obtain ⟨breadcrumbs, tail, rfl, unended, closes⟩ := ending_split ends
    have opens : Unended opening := by
      cases events.turn.opens with
      | continues | unnamed => exact fun _ none => absurd none List.not_mem_nil
      | opens _ _ version =>
        intro event member
        rw [List.mem_singleton.mp member]
        rfl
    have before := ((running.append opens).append (unended_of_inner events.turn.inner)).append unended
    rw [events.outcomeDelta]
    have closed := before.closing_append closes
    simpa only [List.append_assoc] using closed
  · have continues : baseHistory item (turnExecution item).1 = item.history ∧
        (workitemReader item).isContinueAsNew = false := by
      unfold turnExecution at running ⊢
      split_ifs at running ⊢ with continues
      · rw [baseHistory_next] at running
        exact absurd (fun _ none => absurd none List.not_mem_nil) running
      · exact ⟨baseHistory_self item, Bool.eq_false_of_not_eq_true continues⟩
    rw [continues.1] at running
    have ignored : (workitemReader item).hasOrchestrationName → _ := fun named =>
      (endsOnce.resumed outcome takes continues.2 named).resolve_left running
    rw [delta_of_ended takes history continues.2 running ignored, List.append_nil]
    exact closing

/-! ## Runs -/

/-- No step appends behind a terminal event. -/
def conditions (semver : Semver) : Conditions semver where
  decide := EndsOnce
  failTurn item := (workitemReader item).isContinueAsNew = false → Unended item.history
  commit store item request := item.historyError.isSome →
    ∀ event ∈ store.recorded item.instanceId request.executionId,
      event.isTerminal = false ∧ event.eventId ≤ CORRUPTED_HISTORY_EVENT_ID

/-- A pending request closes the execution that it is about. -/
theorem closing_source {request : AckRequest semver}
    (source : Asks.Source (conditions semver) item attemptCount request) (readable : item.historyError = none)
    (history : Ascending item.history) (closing : Closing (baseHistory item request.executionId)) :
    Closing (baseHistory item request.executionId ++ request.historyDelta) := by
  cases source with
  | answer env allowed supported _ fallback answered =>
    cases answered with
    | corrupted exceeded message unreadable =>
      rw [readable] at unreadable
      cases unreadable
    | poisoned exceeded =>
      rw [failOrchestrationAsPoison_executionId, baseHistory_self] at closing ⊢
      have events := (@failOrchestrationAsPoison_events semver env item attemptCount readable history).1
      generalize (failOrchestrationAsPoison env item attemptCount).historyDelta = delta at events
      cases events with
      | recorded occupied failed =>
        exact (allowed.poisoned supported exceeded readable).closing_append (closing_singleton failed)
      | new empty started failed begins =>
        rw [empty, List.nil_append]
        have unended : Unended [started] := by
          intro event member
          rw [List.mem_singleton.mp member, Event.isTerminal, begins.kind]
          rfl
        exact unended.closing_append (closing_singleton failed)
    | ended =>
      rw [List.append_nil]
      exact closing
    | turned inTime _ running outcome ran =>
      exact closing_turn ⟨supported, inTime, readable, running, ran⟩ allowed history closing
  | failure env allowed supported turned _ outcome ran running error =>
    obtain ⟨failed, _, delta, _⟩ := @failureCommit_events semver env item (turnExecution item).1 error history
    rw [delta]
    refine Unended.closing_append ?_ (closing_singleton failed)
    change Unended (baseHistory item (turnExecution item).1)
    unfold turnExecution
    split_ifs with continues
    · rw [baseHistory_next]
      exact fun _ none => absurd none List.not_mem_nil
    · rw [baseHistory_self]
      exact turned (Bool.eq_false_of_not_eq_true continues)

/-- Every history of a state is closed. -/
def Closed (world : World semver) : Prop :=
  ∀ instanceId executionId, Closing (world.store.recorded instanceId executionId)

theorem closed_of_commits {world after : World semver} {label : Step semver} {delivery : Delivery semver}
    {request : AckRequest semver} {instanceId : String} (closed : Closed world) (lifecycle : Lifecycle world)
    (provenance : Provenance world) (coherent : Coherent world) (pending : Pending (conditions semver) world)
    (allowed : (conditions semver).guard world label)
    (commits : Commits world label delivery request instanceId after) :
    Closing (after.store.recorded instanceId request.executionId) := by
  obtain ⟨rfl, sentinel⟩ := commits.allowed coherent allowed
  have extended := lifecycle.extended provenance coherent pending commits
  obtain ⟨config, now, token, fault, _, holds, committed, _⟩ := commits.holds
  obtain ⟨fallback, failed, phase⟩ := commits.phase
  have source := (pending token delivery request fallback failed holds phase).source
  have history := (provenance.items token delivery holds).ordered
  cases extended with
  | unchanged readable same _ nothing kept =>
    rw [kept]
    exact closed _ _
  | corrupted info row current message unreadable failure delta numbered kind =>
    have stored := sentinel (unreadable ▸ rfl)
    have appended := committed.appended
    rw [delta] at appended
    have below : ∀ event ∈ world.store.recorded delivery.item.instanceId request.executionId,
        event.eventId < failure.eventId := by
      intro event member
      refine lt_of_le_of_ne (numbered ▸ (stored event member).2) fun taken => ?_
      have refused : insertEvents _ [failure] = none :=
        ExecutionHistory.insertEvents_taken (provenance.holds _ _) ⟨event, member, taken⟩
      rw [appended] at refused
      cases refused
    rw [recorded_of_appended provenance appended (ascending_append_singleton (provenance.ascending _ _) below)]
    exact Unended.closing_append (fun event member => (stored event member).1) (closing_singleton failure)
  | continued readable same base appended =>
    have read : baseHistory delivery.item request.executionId = delivery.item.history := by
      rw [same, baseHistory_self]
    have closing := closing_source source readable history (by rw [read, ← base]; exact closed _ _)
    rwa [read, ← appended] at closing
  | opened readable continues next info row current named base appended =>
    have read : baseHistory delivery.item request.executionId = [] := by
      rw [next, baseHistory_next]
    have closing := closing_source source readable history (by rw [read]; exact .nil)
    rwa [read, List.nil_append, ← appended] at closing

theorem Closed.step {world after : World semver} {label : Step semver} (closed : Closed world)
    (lifecycle : Lifecycle world) (provenance : Provenance world) (coherent : Coherent world)
    (pending : Pending (conditions semver) world) (allowed : (conditions semver).guard world label)
    (effect : Effect world label after) : Closed after := by
  intro target executionId
  rcases effect.records with same | ⟨delivery, request, instanceId, commits⟩
  · rw [Store.recorded, same.history]
    exact closed target executionId
  · by_cases own : (target, executionId) = (instanceId, request.executionId)
    · cases own
      exact closed_of_commits closed lifecycle provenance coherent pending allowed commits
    · obtain ⟨config, now, token, fault, _, holds, committed, _⟩ := commits.holds
      rw [recorded_other committed own]
      exact closed target executionId

/-- At most one event ends the execution, and no event has a larger id. -/
structure TerminalLast (events : List Event) : Prop where
  once : (events.filter (·.isTerminal)).length ≤ 1
  last : ∀ terminal ∈ events, terminal.isTerminal → ∀ event ∈ events, event.eventId ≤ terminal.eventId

theorem terminalLast_of_closing (closing : Closing events) (ascending : Ascending events) : TerminalLast events := by
  induction events with
  | nil => exact ⟨Nat.zero_le 1, fun _ none => absurd none List.not_mem_nil⟩
  | cons first rest ih =>
    obtain ⟨unended, closes⟩ := List.pairwise_cons.mp closing
    obtain ⟨above, ascends⟩ := List.pairwise_cons.mp ascending
    obtain ⟨once, last⟩ := ih closes ascends
    rcases rest with _ | ⟨second, others⟩
    · refine ⟨(List.length_filter_le _ _), fun terminal member _ event other => ?_⟩
      rw [List.mem_singleton.mp member, List.mem_singleton.mp other]
    · have running := unended second List.mem_cons_self
      refine ⟨by rwa [List.filter_cons_of_neg (by simp [running])], fun terminal member ended event other => ?_⟩
      rcases List.mem_cons.mp member with rfl | later
      · rw [running] at ended
        cases ended
      · rcases List.mem_cons.mp other with rfl | listed
        · exact (above terminal later).le
        · exact last terminal later ended event listed

/-- In every run whose steps append nothing behind a terminal event, every history ends with its only one. -/
theorem terminalLast_of_guarded {world : World semver}
    (reached : (system semver).Reachable (conditions semver).guard world) (instanceId : String) (executionId : Nat) :
    TerminalLast (world.store.recorded instanceId executionId) := by
  refine terminalLast_of_closing ?_ ((Provenance.of_reachable reached).ascending instanceId executionId)
  suffices closed : Closed world from closed instanceId executionId
  induction reached with
  | initial start => exact start ▸ fun _ _ => .nil
  | step reached allowed taken ih =>
    exact ih.step (.of_reachable reached) (.of_reachable reached) (.of_reachable reached) (.of_reachable reached)
      allowed (World.step_effect taken)

/-- A test that implies the conditions: no step comes near an ended history, a limit or an activity in flight. -/
def passes (world : World semver) : Step semver → Bool
  | .decide token env => (world.deliveries token).all fun delivery =>
      delivery.item.history.all (!·.isTerminal) && (turnOutcome env delivery.item).all fun outcome =>
        (limitError outcome.historyMgr.delta delivery.item.kvSnapshot).isNone &&
          ((enforceLimits env delivery.item (turnExecution delivery.item).1 outcome).1.historyMgr.computeInflightActivities
            delivery.item.instanceId (turnExecution delivery.item).1).isEmpty
  | .failTurn token => (world.deliveries token).all fun delivery => delivery.item.history.all (!·.isTerminal)
  | .ack _ _ token _ => (world.deliveries token).all fun delivery => delivery.item.historyError.isNone
  | _ => true

theorem unended_iff_all : Unended events ↔ events.all (!·.isTerminal) = true := by
  simp [Unended]

theorem guard_of_passes (world : World semver) (label : Step semver) (tested : passes world label) :
    (conditions semver).guard world label := by
  cases label with
  | decide token env =>
    intro delivery holds
    simp only [passes, holds, Option.all_some, Bool.and_eq_true, ← unended_iff_all] at tested
    obtain ⟨unended, turns⟩ := tested
    have turn : ∀ outcome, Takes env delivery.item delivery.attemptCount outcome →
        limitError outcome.historyMgr.delta delivery.item.kvSnapshot = none ∧
          (enforceLimits env delivery.item (turnExecution delivery.item).1 outcome).1.historyMgr.computeInflightActivities
            delivery.item.instanceId (turnExecution delivery.item).1 = [] := by
      intro outcome takes
      rw [takes.ran, Option.all_some, Bool.and_eq_true, Option.isNone_iff_eq_none, List.isEmpty_iff] at turns
      exact turns
    refine ⟨fun _ _ _ => unended, fun _ _ _ _ => .inl unended, fun outcome takes exceeds => ?_, fun outcome takes _ => ?_⟩
    · rw [(turn outcome takes).1] at exceeds
      cases exceeds
    · exact (turn outcome takes).2
  | failTurn token =>
    intro delivery holds _
    simpa only [passes, holds, Option.all_some, ← unended_iff_all] using tested
  | ack config now token fault =>
    intro delivery request fallback failed holds phase locked unreadable
    simp only [passes, holds, Option.all_some, Option.isNone_iff_eq_none] at tested
    rw [tested] at unreadable
    cases unreadable
  | client | fetch | abandon | renew | fetchWork | renewWork | completeWork | dropWork | abandonWork => trivial

/-! An orchestration that waits for an activity, or finishes at once if its input says so. -/

def activityHandler : OrchestrationHandler where
  State := Option String
  invoke := some
  poll
    | some input =>
        if input = "finish" then .finish (.ok "done")
        else .call (.scheduleActivity "work" "" none) fun _ => .suspend none
    | none => .suspend none

def activityEnv : RuntimeEnv textSemver :=
  registeredEnv fun name => if name = "orch" then some activityHandler else none

/-- An instance is started and takes its first turn. -/
def firstTurn (input : String) : List (Step textSemver) :=
  [.client 0 (.startOrchestration "i" "orch" input none none none 1), .fetch {} none 0 1000 1 none,
    .decide 1 activityEnv, .ack {} 0 1 none]

theorem terminalLast_of_guarded_finish : ∃ world, World.runTested passes {} (firstTurn "finish") = some world ∧
    (world.store.recorded "i" 1).any (·.isTerminal) = true ∧ TerminalLast (world.store.recorded "i" 1) := by
  have ran : (World.runTested passes {} (firstTurn "finish")).any (fun world =>
      (world.store.recorded "i" 1).any (·.isTerminal)) = true := by
    decide +kernel
  obtain ⟨world, reached, ended⟩ := (Option.any_eq_true _ _).mp ran
  exact ⟨world, reached, ended,
    terminalLast_of_guarded (World.reachable_of_runTested guard_of_passes (.initial rfl) reached) "i" 1⟩

/-- The instance is cancelled while its activity is in flight. -/
def cancelled : List (Step textSemver) :=
  firstTurn "wait" ++ [.client 0 (.cancelInstance "i" "stop"), .fetch {} none 0 1000 2 none, .decide 2 activityEnv,
    .ack {} 0 2 none]

/-- The cancellation of the activity is recorded behind the failure. -/
theorem cancelled_notTerminalLast :
    ∃ world, World.run {} cancelled = some world ∧ ¬ TerminalLast (world.store.recorded "i" 1) := by
  have observed : (World.run {} cancelled).any (fun world => (world.store.recorded "i" 1).any fun terminal =>
      terminal.isTerminal && (world.store.recorded "i" 1).any (terminal.eventId < ·.eventId)) = true := by
    decide +kernel
  obtain ⟨world, ran, facts⟩ := (Option.any_eq_true _ _).mp observed
  obtain ⟨terminal, member, ended⟩ := List.any_eq_true.mp facts
  obtain ⟨isTerminal, behind⟩ := Bool.and_eq_true_iff.mp ended
  obtain ⟨event, later, above⟩ := List.any_eq_true.mp behind
  refine ⟨world, ran, fun ends => ?_⟩
  exact absurd (ends.last terminal member isTerminal event later) (not_le.mpr (of_decide_eq_true above))

end Duroxide.TerminalEvents
