import Duroxide.Model.Client
import Duroxide.Proofs.HistoryForm

/-! # Three views of an execution's outcome

The executions row says how an execution stands, and so does its history, as the dispatcher reads it
(the first terminal event after the start) and as the client does (the last completion or failure).
The views agree as long as no failure is recorded behind a completion or a continuation, and every
execution begins with its start event. A continued execution has no status of its own in the client:
it is reported as running.
-/

namespace Duroxide.OutcomeViews

open Provider Dispatcher HistoryManager VersionPinning HistoryForm Client

variable {semver : Semver}

/-! ## The views -/

inductive Outcome where
  | running
  | completed (output : String)
  | failed (message : String)
  | continued
deriving DecidableEq, Repr

/-- The outcome that an executions row stands for. -/
def outcomeOf (row : ExecutionRow) : Outcome :=
  match row.status with
  | .running => .running
  | .completed => .completed (row.output.getD "")
  | .failed => .failed (row.output.getD "")
  | .continuedAsNew => .continued

/-- What a dispatcher reads off a history whose execution has an outcome: completed, failed, continued. -/
def Outcome.flags : Outcome → Bool × Bool × Bool
  | .running => (false, false, false)
  | .completed _ => (true, false, false)
  | .failed _ => (false, true, false)
  | .continued => (false, false, true)

def classification (manager : HistoryManager) : Bool × Bool × Bool :=
  (manager.isCompleted, manager.isFailed, manager.isContinuedAsNew)

/-- The client statuses that denote an outcome. -/
inductive Denotes : OrchestrationStatus → Outcome → Prop
  | running : Denotes .running .running
  | completed (output : String) : Denotes (.completed output) (.completed output)
  | failed (details : ErrorDetails) : Denotes (.failed details) (.failed details.displayMessage)

theorem not_denotes_continued {status : OrchestrationStatus} : ¬ Denotes status .continued := nofun

/-- What the client reports of an outcome: a continued execution is running. -/
def Reports (status : OrchestrationStatus) (outcome : Outcome) : Prop :=
  Denotes status outcome ∨ status = .running ∧ outcome = .continued

/-- The views of every execution agree, given what the client reports of an outcome. -/
def ViewsAgree (reports : OrchestrationStatus → Outcome → Prop) (store : Store) : Prop :=
  ∀ instanceId executionId row, (store.executions instanceId).lookup executionId = some row →
    classification (fromHistory (store.recorded instanceId executionId)) = (outcomeOf row).flags ∧
      reports (getOrchestrationStatus (store.recorded instanceId executionId)) (outcomeOf row)

/-! ## The terminal events of a history -/

/-- The kinds of the events that end an execution, in their order. -/
def endings (events : List Event) : List EventKind := (events.map (·.kind)).filter (·.isTerminal)

@[simp] theorem endings_nil : endings [] = [] := rfl

@[simp] theorem endings_append (events rest : List Event) : endings (events ++ rest) = endings events ++ endings rest := by
  rw [endings, List.map_append, List.filter_append]
  rfl

theorem endings_eq_nil {events : List Event} : endings events = [] ↔ ∀ event ∈ events, event.kind.isTerminal = false := by
  simp [endings, List.filter_eq_nil_iff]

theorem mem_endings {events : List Event} {kind : EventKind} :
    kind ∈ endings events ↔ kind.isTerminal ∧ ∃ event ∈ events, event.kind = kind := by
  simp [endings, and_comm]

/-- A row's status and output, as the endings of a history justify them. -/
inductive Justified : ExecutionStatus → Option String → List EventKind → Prop
  | running (output : Option String) : Justified .running output []
  | completed (output : String) : Justified .completed (some output) [.orchestrationCompleted output]
  | failed (earlier : List EventKind) (failures : ∀ kind ∈ earlier, kind.isFailed) (details : ErrorDetails) :
      Justified .failed (some details.displayMessage) (earlier ++ [.orchestrationFailed details])
  | continued (input : String) : Justified .continuedAsNew (some input) [.orchestrationContinuedAsNew input]

/-- What a request says about an execution, as the endings that it records justify it. -/
def Summarizes (metadata : ExecutionMetadata semver) (kinds : List EventKind) : Prop :=
  match metadata.status with
  | none => kinds = []
  | some status => kinds ≠ [] ∧ Justified status metadata.output kinds

variable {first : Event} {rest : List Event}

/-- In a history that begins with its start, the first ending decides. -/
theorem decidingKind (started : first.kind.isStarted) (once : ∀ later ∈ rest, later.kind.isStarted = false) :
    (decidingEvent (first :: rest)).map (·.kind) = (endings (first :: rest)).head? := by
  have opening : endings (first :: rest) = endings rest := by
    rw [endings, List.map_cons, List.filter_cons_of_neg]
    · rfl
    · rw [EventKind.isTerminal_of_isStarted started]
      exact Bool.false_ne_true
  rw [decidingEvent_cons started once, opening, endings, List.head?_filter, List.find?_map]
  rfl

theorem classification_eq (history : List Event) :
    classification (fromHistory history) =
      (((decidingEvent history).map (·.kind)).any (·.isCompleted), ((decidingEvent history).map (·.kind)).any (·.isFailed),
        ((decidingEvent history).map (·.kind)).any (·.isContinuedAsNew)) := by
  obtain ⟨completed, failed, continued⟩ := fromHistory_state history
  rw [classification, completed, failed, continued]
  cases decidingEvent history <;> rfl

/-- The client looks at the endings only. -/
theorem findSome_endedStatus (events : List Event) :
    events.reverse.findSome? (endedStatus ·.kind) = (endings events).reverse.findSome? endedStatus := by
  induction events with
  | nil => rfl
  | cons event later ih =>
    have single : endings (event :: later) = endings [event] ++ endings later := endings_append [event] later
    rw [List.reverse_cons, List.findSome?_append, ih, single, List.reverse_append, List.findSome?_append]
    congr 1
    obtain ⟨eventId, source, instanceId, executionId, timestamp, crate, kind⟩ := event
    cases kind <;> rfl

/-- The views of a history that begins with its start follow from what its endings justify. -/
theorem agree_of_justified {row : ExecutionRow} (started : first.kind.isStarted)
    (once : ∀ later ∈ rest, later.kind.isStarted = false)
    (justified : Justified row.status row.output (endings (first :: rest))) :
    classification (fromHistory (first :: rest)) = (outcomeOf row).flags ∧
      Reports (getOrchestrationStatus (first :: rest)) (outcomeOf row) := by
  rw [classification_eq, decidingKind started once, getOrchestrationStatus, findSome_endedStatus]
  have starts : (first :: rest).any (·.kind.isStarted) = true := List.any_eq_true.mpr ⟨first, List.mem_cons_self, started⟩
  rw [starts]
  obtain ⟨status, output, version⟩ := row
  dsimp only at justified
  generalize endings (first :: rest) = kinds at justified
  cases justified with
  | running => exact ⟨rfl, .inl .running⟩
  | completed output => exact ⟨rfl, .inl (.completed output)⟩
  | continued => exact ⟨rfl, .inr ⟨rfl, rfl⟩⟩
  | failed earlier failures details =>
    refine ⟨?_, .inl ?_⟩
    · cases earlier with
      | nil => rfl
      | cons kind later =>
        have failure := failures kind List.mem_cons_self
        cases kind with
        | orchestrationFailed => rfl
        | _ => cases failure
    · rw [List.reverse_append]
      exact .failed details

/-! ## What a request says -/

theorem endings_of_unterminal {events : List Event} (plain : ∀ event ∈ events, event.kind.isTerminal = false) :
    endings events = [] := endings_eq_nil.mpr plain

theorem endings_of_inner {events : List Event} (inner : ∀ event ∈ events, event.kind.isInner) : endings events = [] :=
  endings_of_unterminal fun event member => EventKind.isTerminal_of_isInner (inner event member)

theorem endings_of_breadcrumbs {events : List Event} (kinds : ∀ event ∈ events, event.kind.isBreadcrumb) :
    endings events = [] :=
  endings_of_inner fun event member => EventKind.isInner_of_isBreadcrumb (kinds event member)

/-- A turn ends with the terminal event of its result, if it has one. -/
theorem endings_of_ends {result : TurnResult} {ending : List Event} (ends : Execution.Ends result ending) :
    endings ending = (Execution.terminalKind result).toList := by
  obtain ⟨breadcrumbs, tail, rfl, kinds, terminal⟩ := ends.split
  rw [endings_append, endings_of_breadcrumbs kinds, List.nil_append, endings, terminal]
  rcases kind : Execution.terminalKind result with _ | ended
  · rfl
  · exact List.filter_cons_of_pos (Execution.isTerminal_of_terminalKind kind)

/-- The status and output that an ending stands for. -/
def summaryOf : EventKind → Option ExecutionStatus × Option String
  | .orchestrationCompleted output => (some .completed, some output)
  | .orchestrationFailed details => (some .failed, some details.displayMessage)
  | .orchestrationContinuedAsNew input => (some .continuedAsNew, some input)
  | _ => (none, none)

/-- The metadata of a delta comes from its first ending. -/
theorem computeExecutionMetadata_summary (delta : List Event) (metadata : ExecutionMetadata semver) :
    ((computeExecutionMetadata semver delta metadata).status, (computeExecutionMetadata semver delta metadata).output) =
      match (endings delta).head? with
      | some kind => summaryOf kind
      | none => (metadata.status, metadata.output) := by
  induction delta generalizing metadata with
  | nil => rfl
  | cons event rest ih =>
    obtain ⟨eventId, source, instanceId, executionId, timestamp, crate, kind⟩ := event
    cases kind <;> first | exact ih _ | rfl

/-- What a delta with at most one ending is summarized to. -/
theorem summarizes_of_single {delta : List Event} {kind : Option EventKind} (single : endings delta = kind.toList)
    (terminal : ∀ ended ∈ kind, ended.isTerminal) :
    Summarizes (computeExecutionMetadata semver delta {}) (endings delta) := by
  have summary := computeExecutionMetadata_summary delta ({} : ExecutionMetadata semver)
  rw [single] at summary ⊢
  rcases kind with _ | ended
  · have status := (Prod.mk.inj summary).1
    rw [Summarizes, status]
    rfl
  · obtain ⟨status, output⟩ := Prod.mk.inj summary
    have isTerminal := terminal ended rfl
    cases ended with
    | orchestrationCompleted result =>
      rw [Summarizes, status, output]
      exact ⟨List.cons_ne_nil _ _, .completed result⟩
    | orchestrationFailed details =>
      rw [Summarizes, status, output]
      exact ⟨List.cons_ne_nil _ _, .failed [] (fun _ none => absurd none List.not_mem_nil) details⟩
    | orchestrationContinuedAsNew input =>
      rw [Summarizes, status, output]
      exact ⟨List.cons_ne_nil _ _, .continued input⟩
    | _ => cases isTerminal

variable {env : RuntimeEnv semver} {item : OrchestrationItem} {attemptCount : Nat} {outcome : ExecutionOutcome}

/-- A turn is summarized rightly unless a limit fails what it had completed or continued. -/
theorem summarizes_turn (ran : turnOutcome env item = some outcome) (history : Ascending item.history)
    (limits : (limitError outcome.historyMgr.delta item.kvSnapshot).isSome →
      ∀ kind ∈ endings outcome.historyMgr.delta, kind.isFailed) :
    Summarizes (turnRequest env item outcome).metadata (endings (turnRequest env item outcome).historyDelta) := by
  obtain ⟨opening, body, ending, limit, trailing, events⟩ := requestEvents ran history
  have single : ∃ kind : Option EventKind, endings outcome.historyMgr.delta = kind.toList ∧
      ∀ ended ∈ kind, ended.isTerminal := by
    obtain ⟨result, ends⟩ := events.turn.ends
    refine ⟨Execution.terminalKind result, ?_, fun ended => Execution.isTerminal_of_terminalKind⟩
    have opens : endings opening = [] := by
      cases events.turn.opens <;> rfl
    rw [events.outcomeDelta, endings_append, endings_append, opens, endings_of_inner events.turn.inner,
      endings_of_ends ends]
    rfl
  rw [events.delta, ← events.outcomeDelta, endings_append, endings_append, endings_of_breadcrumbs events.breadcrumbs,
    List.append_nil]
  change Summarizes (enforceLimits env item (turnExecution item).1 outcome).2 _
  obtain ⟨kind, only, terminal⟩ := single
  have limited := events.limited
  generalize enforceLimits env item (turnExecution item).1 outcome = enforced at limited
  cases limited with
  | within =>
    rw [endings_nil, List.append_nil]
    exact summarizes_of_single only terminal
  | exceeded message some event failed =>
    have added : endings [event] = [.orchestrationFailed (.application .orchestrationFailed message false)] := by
      rw [endings, List.map_singleton, failed]
      rfl
    rw [added]
    exact ⟨by simp, .failed _ (limits (some ▸ rfl)) _⟩

/-! ## Runs -/

def OnlyFailures (events : List Event) : Prop := ∀ event ∈ events, event.isTerminal → event.kind.isFailed

theorem OnlyFailures.endings {events : List Event} (failures : OnlyFailures events) :
    ∀ kind ∈ endings events, kind.isFailed := by
  intro kind member
  obtain ⟨terminal, event, listed, rfl⟩ := mem_endings.mp member
  exact failures event listed terminal

/-- No decision fails what was completed or continued, and executions begin with a named orchestration. -/
structure KeepsViews (env : RuntimeEnv semver) (item : OrchestrationItem) (attemptCount : Nat) : Prop where
  poisoned : isSupported env item → env.maxAttempts < attemptCount → item.historyError = none → OnlyFailures item.history
  limited : ∀ outcome, Takes env item attemptCount outcome →
    (limitError outcome.historyMgr.delta item.kvSnapshot).isSome → OnlyFailures outcome.historyMgr.delta
  named : ∀ outcome, Takes env item attemptCount outcome → item.history = [] → (workitemReader item).hasOrchestrationName

/-- No step fails what was completed or continued, or leaves an execution without its start event. -/
def conditions (semver : Semver) : Conditions semver where
  decide := KeepsViews
  failTurn := ContinuesTurn
  commit store item request := Clear store item request ∧
    (item.historyError.isSome → OnlyFailures (store.recorded item.instanceId request.executionId))

variable {request : AckRequest semver}

theorem summarizes_source (source : Asks.Source (conditions semver) item attemptCount request)
    (history : Ascending item.history) : Summarizes request.metadata (endings request.historyDelta) := by
  cases source with
  | answer env allowed supported _ fallback answered =>
    cases answered with
    | corrupted exceeded message unreadable =>
      unfold failOrchestrationAsPoison
      rw [unreadable]
      exact ⟨List.cons_ne_nil _ _, .failed [] (fun _ none => absurd none List.not_mem_nil) _⟩
    | poisoned exceeded readable =>
      have events := (@failOrchestrationAsPoison_events semver env item attemptCount readable history).1
      have ends : endings (failOrchestrationAsPoison env item attemptCount).historyDelta =
          [.orchestrationFailed (poisonDetails env item attemptCount)] := by
        generalize (failOrchestrationAsPoison env item attemptCount).historyDelta = delta at events
        cases events with
        | recorded occupied failed kind =>
          rw [endings, List.map_singleton, kind]
          rfl
        | new empty started failed begins kind =>
          rw [endings, List.map_cons, List.map_singleton, kind, begins.kind]
          rfl
      rw [ends]
      unfold failOrchestrationAsPoison
      rw [readable]
      exact ⟨List.cons_ne_nil _ _, .failed [] (fun _ none => absurd none List.not_mem_nil) _⟩
    | ended => rfl
    | turned inTime readable running outcome ran =>
      exact summarizes_turn ran history fun exceeds =>
        (allowed.limited outcome ⟨supported, inTime, readable, running, ran⟩ exceeds).endings
  | failure env allowed supported turned _ outcome ran running error =>
    obtain ⟨failed, kind, delta, _⟩ := @failureCommit_events semver env item (turnExecution item).1 error history
    have metadata : (failureCommit env item (turnExecution item).1 error).metadata =
      computeExecutionMetadata semver (failureCommit env item (turnExecution item).1 error).historyDelta {} := rfl
    rw [metadata]
    have single : endings (failureCommit env item (turnExecution item).1 error).historyDelta =
        (some (EventKind.orchestrationFailed error.toInfrastructureError)).toList := by
      rw [delta, endings, List.map_singleton, kind]
      rfl
    refine summarizes_of_single single ?_
    rintro _ ⟨⟩
    rfl

/-- A turn is taken over a history without an ending. -/
theorem endings_of_running (running : isTerminalFor (tempHistoryMgr item) (workitemReader item) = false)
    (same : (workitemReader item).isContinueAsNew = false) (begun : Begun item.history)
    (history : HistoryOrigin item.history) : endings item.history = [] := by
  rcases events : item.history with _ | ⟨first, rest⟩
  · rfl
  rw [events] at begun history
  have flags := classification_eq (first :: rest)
  rw [decidingKind (begun first rfl) history.startsOnce] at flags
  have state : classification (fromHistory (first :: rest)) = (false, false, false) := by
    simp only [isTerminalFor, tempHistoryMgr, events, same, Bool.not_false, Bool.and_true, Bool.or_eq_false_iff] at running
    obtain ⟨⟨completed, failed⟩, continued⟩ := running
    rw [classification, completed, failed, continued]
  rw [state] at flags
  rcases ended : endings (first :: rest) with _ | ⟨kind, later⟩
  · rfl
  · have terminal : kind.isTerminal := (mem_endings.mp (ended ▸ List.mem_cons_self)).1
    rw [ended] at flags
    cases kind with
    | orchestrationCompleted | orchestrationFailed | orchestrationContinuedAsNew => cases flags
    | _ => cases terminal

/-- A turn over the execution that was read does not continue as new. -/
theorem isContinueAsNew_of_same (same : (turnExecution item).1 = item.executionId) :
    (workitemReader item).isContinueAsNew = false := by
  unfold turnExecution at same
  split_ifs at same with continues
  · exact absurd same (Nat.succ_ne_self _)
  · exact Bool.eq_false_of_not_eq_true continues

/-- Events may follow if nothing ended yet, nothing ends with them, or there are only failures. -/
def Follows (base delta : List Event) : Prop :=
  endings base = [] ∨ endings delta = [] ∨ OnlyFailures base ∧ OnlyFailures delta

theorem follows_source (source : Asks.Source (conditions semver) item attemptCount request)
    (readable : item.historyError = none) (same : request.executionId = item.executionId) (begun : Begun item.history)
    (history : HistoryOrigin item.history) : Follows item.history request.historyDelta := by
  cases source with
  | answer env allowed supported _ fallback answered =>
    cases answered with
    | corrupted exceeded message unreadable =>
      rw [readable] at unreadable
      cases unreadable
    | poisoned exceeded =>
      refine .inr (.inr ⟨allowed.poisoned supported exceeded readable, ?_⟩)
      have events := (@failOrchestrationAsPoison_events semver env item attemptCount readable history.ordered).1
      generalize (failOrchestrationAsPoison env item attemptCount).historyDelta = delta at events
      intro event member terminal
      cases events with
      | recorded occupied failed kind =>
        rw [List.mem_singleton.mp member, kind]
        rfl
      | new empty started failed begins kind =>
        rcases List.mem_cons.mp member with rfl | last
        · rw [Event.isTerminal, begins.kind] at terminal
          cases terminal
        · rw [List.mem_singleton.mp last, kind]
          rfl
    | ended => exact .inr (.inl rfl)
    | turned inTime _ running outcome ran =>
      exact .inl (endings_of_running running (isContinueAsNew_of_same same) begun history)
  | failure env allowed supported turned _ outcome ran running error =>
    exact .inl (endings_of_running running turned.2 begun history)

/-- The endings of events that follow justify the row that the request leaves. -/
theorem justified_append {row : ExecutionRow} {base : List Event}
    (justified : Justified row.status row.output (endings base))
    (summarizes : Summarizes request.metadata (endings request.historyDelta)) (follows : Follows base request.historyDelta) :
    Justified (statusExecution request row).status (statusExecution request row).output
      (endings (base ++ request.historyDelta)) := by
  rw [endings_append]
  unfold Summarizes at summarizes
  unfold statusExecution
  rcases status : request.metadata.status with _ | ended
  · rw [status] at summarizes
    dsimp only at summarizes ⊢
    rwa [summarizes, List.append_nil]
  rw [status] at summarizes
  obtain ⟨ends, own⟩ := summarizes
  dsimp only
  rcases follows with fresh | nothing | ⟨old, new⟩
  · rwa [fresh, List.nil_append]
  · exact absurd nothing ends
  have failures := new.endings
  generalize request.metadata.output = output at own
  generalize endings request.historyDelta = kinds at own ends failures
  cases own with
  | running => exact absurd rfl ends
  | completed | continued =>
    have failure := failures _ List.mem_cons_self
    cases failure
  | failed earlier failed details =>
    rw [← List.append_assoc]
    exact .failed _ (fun kind member => (List.mem_append.mp member).elim (old.endings kind) (failed kind)) details

/-- Every execution with events has a row, and its endings justify the row. -/
structure Viewed (store : Store) (instanceId : String) (executionId : Nat) : Prop where
  rowless : (store.executions instanceId).lookup executionId = none → store.recorded instanceId executionId = []
  events : ∀ row, (store.executions instanceId).lookup executionId = some row →
    store.recorded instanceId executionId ≠ [] ∧
      Justified row.status row.output (endings (store.recorded instanceId executionId))

variable {world after : World semver} {label : Step semver} {delivery : Delivery semver} {instanceId : String}

/-- A request over an execution without events records something. -/
theorem records_of_new (source : Asks.Source (conditions semver) item attemptCount request)
    (history : Ascending item.history) (new : baseHistory item request.executionId = [])
    (named : item.history = [] ∨ (workitemReader item).hasOrchestrationName) : request.historyDelta ≠ [] := by
  cases source with
  | answer env allowed supported _ fallback answered =>
    cases id answered with
    | corrupted | poisoned => exact failOrchestrationAsPoison_records history
    | ended inTime readable terminal =>
      rw [baseHistory_self] at new
      rw [isTerminalFor, tempHistoryMgr, new] at terminal
      cases terminal
    | turned inTime readable running outcome ran =>
      refine answered.opens history new (named.elim (fun empty => ?_) id)
      exact allowed.named outcome ⟨supported, inTime, readable, running, ran⟩ empty
  | failure env allowed supported turned _ outcome ran running error =>
    obtain ⟨failed, _, delta, _⟩ := @failureCommit_events semver env item (turnExecution item).1 error history
    rw [delta]
    exact List.cons_ne_nil _ _

/-- What a commit needs to know about the execution that it is about. -/
theorem viewed_of_commits (viewed : ∀ instanceId executionId, Viewed world.store instanceId executionId)
    (formed : Formed world) (lifecycle : Lifecycle world) (provenance : Provenance world) (coherent : Coherent world)
    (pending : Pending (conditions semver) world) (allowed : (conditions semver).guard world label)
    (commits : Commits world label delivery request instanceId after) :
    Viewed after.store instanceId request.executionId := by
  obtain ⟨rfl, sentinel⟩ := commits.allowed coherent allowed
  have extended := lifecycle.extended provenance coherent pending commits
  obtain ⟨config, now, token, fault, _, holds, committed, _⟩ := commits.holds
  obtain ⟨fallback, failed, phase⟩ := commits.phase
  have source := (pending token delivery request fallback failed holds phase).source
  have origin := provenance.items token delivery holds
  have before := viewed delivery.item.instanceId request.executionId
  have summarizes := summarizes_source source origin.ordered
  -- whatever is recorded behind the events of the execution is justified
  have step : ∀ base, world.store.recorded delivery.item.instanceId request.executionId = base →
      after.store.recorded delivery.item.instanceId request.executionId = base ++ request.historyDelta →
      Follows base request.historyDelta → (base = [] → request.historyDelta ≠ []) →
      Viewed after.store delivery.item.instanceId request.executionId := by
    intro base recorded appended follows occupied
    refine ⟨fun rowless => absurd (committed.executionRow.symm.trans rowless) (Option.some_ne_none _), fun row found => ?_⟩
    rw [committed.executionRow] at found
    cases found
    rw [appended]
    constructor
    · rw [Ne, List.append_eq_nil_iff]
      exact fun ⟨empty, nothing⟩ => occupied empty nothing
    · refine justified_append ?_ summarizes follows
      have pinned : ∀ row : Option ExecutionRow, (pinnedExecution request row).status = (row.getD {}).status ∧
          (pinnedExecution request row).output = (row.getD {}).output := by
        intro row
        unfold pinnedExecution
        split <;> exact ⟨rfl, rfl⟩
      rw [(pinned _).1, (pinned _).2]
      rcases row : (world.store.executions delivery.item.instanceId).lookup request.executionId with _ | info
      · rw [← recorded, before.rowless row]
        exact .running none
      · rw [← recorded]
        exact (before.events info row).2
  cases extended with
  | unchanged readable same empty nothing =>
    have new : baseHistory delivery.item request.executionId = [] := by
      rw [same, baseHistory_self, empty]
    exact absurd nothing (records_of_new source origin.ordered new (.inl empty))
  | corrupted info row current message unreadable failure delta numbered kind =>
    have below := sentinel.1 (unreadable ▸ rfl)
    have appended := committed.appended
    rw [delta] at appended
    refine step _ rfl ?_ (.inr (.inr ⟨sentinel.2 (unreadable ▸ rfl), fun event member _ => ?_⟩)) fun empty => ?_
    · rw [delta]
      refine recorded_of_appended provenance appended (ascending_append_singleton (provenance.ascending _ _) ?_)
      exact fun earlier member => numbered ▸ below earlier member
    · rw [delta] at member
      rw [List.mem_singleton.mp member]
      exact kind
    · rw [current] at empty
      exact absurd empty ((lifecycle.records _).current info row)
  | continued readable same base appended =>
    have begun := formed.begun delivery.item.instanceId request.executionId
    rw [base] at begun
    refine step _ base appended (follows_source source readable same begun origin) fun empty => ?_
    exact records_of_new source origin.ordered (by rw [same, baseHistory_self, empty]) (.inl empty)
  | opened readable continues next info row current named base appended =>
    refine step [] base appended (.inl rfl) fun _ => ?_
    exact records_of_new source origin.ordered (by rw [next, baseHistory_next]) (.inr named)

/-- One step keeps every execution's row justified. -/
theorem viewed_step (viewed : ∀ instanceId executionId, Viewed world.store instanceId executionId)
    (formed : Formed world) (lifecycle : Lifecycle world) (provenance : Provenance world) (coherent : Coherent world)
    (pending : Pending (conditions semver) world) (allowed : (conditions semver).guard world label)
    (effect : Effect world label after) (target : String) (executionId : Nat) :
    Viewed after.store target executionId := by
  have before := viewed target executionId
  rcases effect.records with same | ⟨delivery, request, instanceId, commits⟩
  · constructor
    · rw [Store.recorded, same.executions, same.history]
      exact before.rowless
    · rw [Store.recorded, same.executions, same.history]
      exact before.events
  · by_cases own : (target, executionId) = (instanceId, request.executionId)
    · cases own
      exact viewed_of_commits viewed formed lifecycle provenance coherent pending allowed commits
    · obtain ⟨config, now, token, fault, _, holds, committed, _⟩ := commits.holds
      have row : (after.store.executions target).lookup executionId =
          (world.store.executions target).lookup executionId := by
        by_cases sameInstance : target = instanceId
        · subst sameInstance
          exact committed.otherExecutions executionId fun same => own (by rw [same])
        · rw [committed.foreignExecutions target sameInstance]
      constructor
      · rw [recorded_other committed own, row]
        exact before.rowless
      · rw [recorded_other committed own, row]
        exact before.events

/-- In every run whose steps meet the conditions, the views of every execution agree. -/
theorem viewsAgree_of_guarded (reached : (system semver).Reachable (conditions semver).guard world) :
    ViewsAgree Reports world.store := by
  have viewed : ∀ instanceId executionId, Viewed world.store instanceId executionId := by
    induction reached with
    | initial start => exact start ▸ fun _ _ => ⟨fun _ => rfl, fun _ found => nomatch found⟩
    | step reached allowed taken ih =>
      exact viewed_step ih (formed_of_reachable (fun _ => id) (fun _ _ _ => And.left) reached) (.of_reachable reached)
        (.of_reachable reached) (.of_reachable reached) (.of_reachable reached) allowed (World.step_effect taken)
  have formed := formed_of_reachable (fun _ => id) (fun _ _ _ => And.left) reached
  have provenance := Provenance.of_reachable reached
  intro instanceId executionId row found
  obtain ⟨occupied, justified⟩ := (viewed instanceId executionId).events row found
  have begun := formed.begun instanceId executionId
  have history := provenance.historyOrigin instanceId executionId
  rcases recorded : world.store.recorded instanceId executionId with _ | ⟨first, rest⟩
  · exact absurd recorded occupied
  · rw [recorded] at begun history justified
    exact agree_of_justified (begun first rfl) history.startsOnce justified

/-- A test that implies the conditions. -/
def passes (world : World semver) : Step semver → Bool
  | .decide token env => (world.deliveries token).all fun delivery =>
      delivery.item.history.all (!·.isTerminal) && (workitemReader delivery.item).hasOrchestrationName &&
        (turnOutcome env delivery.item).all fun outcome =>
          (limitError outcome.historyMgr.delta delivery.item.kvSnapshot).isNone
  | .failTurn token => (world.deliveries token).all fun delivery =>
      !delivery.item.history.isEmpty && !(workitemReader delivery.item).isContinueAsNew
  | .ack _ _ token _ => (world.deliveries token).all fun delivery => delivery.item.historyError.isNone
  | _ => true

theorem guard_of_passes (world : World semver) (label : Step semver) (tested : passes world label) :
    (conditions semver).guard world label := by
  cases label with
  | decide token env =>
    intro delivery holds
    simp only [passes, holds, Option.all_some, Bool.and_eq_true, List.all_eq_true, Bool.not_eq_true'] at tested
    obtain ⟨⟨unended, named⟩, limits⟩ := tested
    refine ⟨fun _ _ _ event member terminal => ?_, fun outcome takes exceeds => ?_, fun _ _ _ => named⟩
    · rw [unended event member] at terminal
      cases terminal
    · rw [takes.ran, Option.all_some, Option.isNone_iff_eq_none] at limits
      rw [limits] at exceeds
      cases exceeds
  | failTurn token =>
    intro delivery holds
    simp only [passes, holds, Option.all_some, Bool.and_eq_true, Bool.not_eq_true'] at tested
    exact ⟨by simpa using tested.1, tested.2⟩
  | ack config now token fault =>
    intro delivery request fallback failed holds phase locked
    simp only [passes, holds, Option.all_some, Option.isNone_iff_eq_none] at tested
    constructor
    · intro unreadable
      rw [tested] at unreadable
      cases unreadable
    · intro unreadable
      rw [tested] at unreadable
      cases unreadable
  | client | fetch | abandon | renew | fetchWork | renewWork | completeWork | dropWork | abandonWork => trivial

/-! Three inputs of one orchestration: it completes, continues as new, or completes after giving an
activity too long a tag. -/

def longTag : String := String.ofList (List.replicate 257 'x')

def viewedHandler : OrchestrationHandler where
  State := String
  invoke input := input
  poll input :=
    if input = "continue" then .call (.continueAsNew "again" none) fun _ => .suspend "forever"
    else if input = "forever" then .suspend "forever"
    else if input = "limit" then
      .call (.scheduleActivity "work" "" none) fun token => .call (.withTag token longTag) fun _ => .finish (.ok "done")
    else .finish (.ok "done")

def viewedEnv : RuntimeEnv textSemver :=
  registeredEnv fun name => if name = "orch" then some viewedHandler else none

/-- An instance is started and takes its first turn. -/
def viewedTurn (input : String) : List (Step textSemver) :=
  [.client 0 (.startOrchestration "i" "orch" input none none none 1), .fetch {} none 0 1000 1 none,
    .decide 1 viewedEnv, .ack {} 0 1 none]

theorem viewsAgree_of_guarded_finish : ∃ world, World.runTested passes {} (viewedTurn "finish") = some world ∧
    ((world.store.executions "i").lookup 1).any (·.status == .completed) = true ∧ ViewsAgree Reports world.store := by
  have ran : (World.runTested passes {} (viewedTurn "finish")).any (fun world =>
      ((world.store.executions "i").lookup 1).any (·.status == .completed)) = true := by
    decide +kernel
  obtain ⟨world, reached, completed⟩ := (Option.any_eq_true _ _).mp ran
  exact ⟨world, reached, completed,
    viewsAgree_of_guarded (World.reachable_of_runTested guard_of_passes (.initial rfl) reached)⟩

/-- The client calls a continued execution running, and a limit fails an execution that the dispatcher
goes on to read as completed. -/
theorem continued_and_limited_disagree :
    (∃ world, World.run {} (viewedTurn "continue") = some world ∧ ¬ ViewsAgree Denotes world.store) ∧
      ∃ world, World.run {} (viewedTurn "limit") = some world ∧ ¬ ViewsAgree Reports world.store := by
  have continues : (World.run {} (viewedTurn "continue")).any (fun world =>
      ((world.store.executions "i").lookup 1).any fun row => outcomeOf row == .continued) = true := by
    decide +kernel
  have limited : (World.run {} (viewedTurn "limit")).any (fun world =>
      ((world.store.executions "i").lookup 1).any fun row =>
        classification (fromHistory (world.store.recorded "i" 1)) != (outcomeOf row).flags) = true := by
    decide +kernel
  obtain ⟨continuedWorld, ranContinued, row⟩ := (Option.any_eq_true _ _).mp continues
  obtain ⟨limitedWorld, ranLimited, other⟩ := (Option.any_eq_true _ _).mp limited
  obtain ⟨continuedRow, foundContinued, continued⟩ := (Option.any_eq_true _ _).mp row
  obtain ⟨limitedRow, foundLimited, differs⟩ := (Option.any_eq_true _ _).mp other
  refine ⟨⟨continuedWorld, ranContinued, fun agree => ?_⟩, limitedWorld, ranLimited, fun agree => ?_⟩
  · have denotes := (agree "i" 1 continuedRow foundContinued).2
    rw [beq_iff_eq.mp continued] at denotes
    exact not_denotes_continued denotes
  · exact absurd (agree "i" 1 limitedRow foundLimited).1 (bne_iff_ne.mp differs)

end Duroxide.OutcomeViews
