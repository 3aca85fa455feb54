import Duroxide.Proofs.Turns
import Duroxide.Proofs.VersionPinning

/-! # Duplicate start requests

A start item in the batch of a running instance opens nothing, but the reader takes the name and the
version of the turn from it, while input and parent come from history. So a further start request is
harmless exactly if an earlier item of the batch hides it, or if it asks for the handler that would run
without it.
-/

namespace Duroxide.DuplicateStarts

open Dispatcher VersionPinning

variable {semver : Semver}

/-- The item with other messages. -/
def withMessages (item : OrchestrationItem) (messages : List WorkItem) : OrchestrationItem := { item with messages }

/-- An instance whose history, if it can be read, begins with a start event and has not ended. -/
structure Running (item : OrchestrationItem) : Prop where
  started : item.historyError = none → ReplayEngine.startsExecution item.history
  unended : item.history.any (·.isTerminal) = false

/-- The name and version of the handler that a turn runs. -/
def handlerRun (env : RuntimeEnv semver) (item : OrchestrationItem) (attemptCount : Nat) :
    Option (String × semver.Version) :=
  if isSupported env item && attemptCount ≤ env.maxAttempts && item.historyError.isNone &&
      (workitemReader item).hasOrchestrationName then
    (resolveTurnHandler env.registry (workitemReader item).orchestrationName (workitemReader item).version).map
      fun resolved => ((workitemReader item).orchestrationName, resolved.1)
  else none

/-- A further message changes neither what the dispatcher decides (the history delta, the work items and
everything else it asks for) nor the handler it runs. -/
structure Harmless (env : RuntimeEnv semver) (item : OrchestrationItem) (attemptCount : Nat)
    (before after : List WorkItem) (extra : WorkItem) : Prop where
  decision : handleFetchedItem env (withMessages item (before ++ extra :: after)) attemptCount =
    handleFetchedItem env (withMessages item (before ++ after)) attemptCount
  handler : handlerRun env (withMessages item (before ++ extra :: after)) attemptCount =
    handlerRun env (withMessages item (before ++ after)) attemptCount

/-- A request asks for what a batch asks for: neither names an orchestration, neither has a handler, or
both have the same one and the batch does not open another execution. -/
inductive AsksTheSame (registry : Registry semver) (orchestration : String) (requested : Option String)
    (reader : WorkItemReader) : Prop
  | unnamed (request : orchestration = "") (batch : reader.orchestrationName = "")
      (sameExecution : reader.isContinueAsNew = false)
  | unregistered (requestNamed : orchestration ≠ "") (batchNamed : reader.orchestrationName ≠ "")
      (request : resolveTurnHandler registry orchestration requested = none)
      (batch : resolveTurnHandler registry reader.orchestrationName reader.version = none)
  | sameHandler (named : orchestration ≠ "") (sameName : reader.orchestrationName = orchestration)
      (sameExecution : reader.isContinueAsNew = false) (resolved : semver.Version × OrchestrationHandler)
      (request : resolveTurnHandler registry orchestration requested = some resolved)
      (batch : resolveTurnHandler registry reader.orchestrationName reader.version = some resolved)

/-- A request to start an orchestration, perhaps of a given version. -/
inductive IsStartRequest (orchestration : String) (requested : Option String) : WorkItem → Prop
  | intro (target input : String) (parentInstance : Option String) (parentId : Option Nat) (executionId : Nat) :
      IsStartRequest orchestration requested
        (.startOrchestration target orchestration input requested parentInstance parentId executionId)

/-- The batches in which a further start request is harmless. -/
inductive HarmlessWhen (env : RuntimeEnv semver) (item : OrchestrationItem) (attemptCount : Nat)
    (before after : List WorkItem) (extra : WorkItem) (orchestration : String) (requested : Option String) : Prop
  | unsupported (refused : isSupported env item = false)
  | unreadable (failed : item.historyError.isSome)
  | poisoned (exceeded : env.maxAttempts < attemptCount)
      (same : env.serializeMessages (before ++ extra :: after) = env.serializeMessages (before ++ after))
  | hidden (inTime : attemptCount ≤ env.maxAttempts) (earlier : before.any (·.isStart))
  | same (inTime : attemptCount ≤ env.maxAttempts)
      (asks : AsksTheSame env.registry orchestration requested (workitemReader (withMessages item (before ++ after))))

/-! ## Reading the batch -/

variable {env : RuntimeEnv semver} {item : OrchestrationItem} {attemptCount : Nat} {before after : List WorkItem}
  {extra : WorkItem} {orchestration : String} {requested : Option String}

@[simp] theorem withMessages_history (messages : List WorkItem) : (withMessages item messages).history = item.history := rfl

@[simp] theorem isSupported_withMessages (messages : List WorkItem) :
    isSupported env (withMessages item messages) = isSupported env item := rfl

@[simp] theorem tempHistoryMgr_withMessages (messages : List WorkItem) :
    tempHistoryMgr (withMessages item messages) = tempHistoryMgr item := rfl

theorem Running.isTerminalFor (running : Running item) (reader : WorkItemReader) :
    isTerminalFor (tempHistoryMgr item) reader = false := by
  obtain ⟨completed, failed, continued⟩ := HistoryManager.fromHistory_state item.history
  rw [HistoryManager.decidingEvent_of_running running.unended] at completed failed continued
  simp only [Dispatcher.isTerminalFor, tempHistoryMgr, completed, failed, continued, Option.any_none, Bool.false_and,
    Bool.or_self]

theorem Running.occupied (running : Running item) (readable : item.historyError = none) :
    (tempHistoryMgr item).isEmpty = false := by
  have started := running.started readable
  rcases events : item.history with _ | ⟨first, rest⟩
  · rw [events] at started
    cases started
  · simp [HistoryManager.isEmpty, tempHistoryMgr, events]

theorem IsStartRequest.isStart (request : IsStartRequest orchestration requested extra) : extra.isStart = true := by
  cases request
  rfl

theorem IsStartRequest.notCompletion (request : IsStartRequest orchestration requested extra) :
    WorkItemReader.isCompletionMessage extra = false := by
  cases request
  rfl

/-- A start request adds no completion message. -/
theorem filter_insert (request : IsStartRequest orchestration requested extra) (before after : List WorkItem) :
    (before ++ extra :: after).filter WorkItemReader.isCompletionMessage =
      (before ++ after).filter WorkItemReader.isCompletionMessage := by
  rw [List.filter_append, List.filter_append, List.filter_cons_of_neg (by simp [request.notCompletion])]

/-- Behind another start item, a start request is not read at all. -/
theorem reader_of_hidden (request : IsStartRequest orchestration requested extra) (earlier : before.any (·.isStart)) :
    workitemReader (withMessages item (before ++ extra :: after)) =
      workitemReader (withMessages item (before ++ after)) := by
  have first : (before ++ extra :: after).find? (·.isStart) = (before ++ after).find? (·.isStart) := by
    obtain ⟨start, found⟩ := Option.isSome_iff_exists.mp (List.find?_isSome.mpr (List.any_eq_true.mp earlier))
    rw [List.find?_append, List.find?_append, found]
    rfl
  unfold workitemReader WorkItemReader.fromMessages
  simp only [withMessages, tempHistoryMgr, first, filter_insert request]

/-- In front of every other start item, a start request gives the turn its name and version. -/
theorem reader_of_first (item : OrchestrationItem) (after : List WorkItem)
    (request : IsStartRequest orchestration requested extra) (first : before.any (·.isStart) = false) :
    ∃ reader, workitemReader (withMessages item (before ++ extra :: after)) = reader ∧
      reader.orchestrationName = orchestration ∧ reader.version = requested ∧ reader.isContinueAsNew = false ∧
      reader.completionMessages = (before ++ after).filter WorkItemReader.isCompletionMessage := by
  have found : (before ++ extra :: after).find? (·.isStart) = some extra := by
    have none : before.find? (·.isStart) = none := by
      rw [List.find?_eq_none]
      simpa [List.any_eq_false] using first
    rw [List.find?_append, none, List.find?_cons_of_pos request.isStart]
    rfl
  refine ⟨_, rfl, ?_⟩
  unfold workitemReader WorkItemReader.fromMessages
  simp only [withMessages, found, filter_insert request]
  cases request
  exact ⟨rfl, rfl, rfl, rfl⟩

/-- A batch that opens no execution leaves its completion messages in order. -/
theorem completionMessages_of_same (messages : List WorkItem)
    (same : (workitemReader (withMessages item messages)).isContinueAsNew = false) :
    (workitemReader (withMessages item messages)).completionMessages =
      messages.filter WorkItemReader.isCompletionMessage := by
  have parsed := parsed_workitemReader (withMessages item messages)
  generalize workitemReader (withMessages item messages) = reader at parsed same
  cases parsed with
  | start => rfl
  | continueAsNew => cases same
  | neither => rfl

/-! ## Deciding -/

/-- Within the attempt limit a running instance with a readable history takes its turn. -/
theorem handleFetchedItem_of_running (running : Running item) (readable : item.historyError = none)
    (supported : isSupported env item) (inTime : attemptCount ≤ env.maxAttempts) (messages : List WorkItem) :
    handleFetchedItem env (withMessages item messages) attemptCount =
      executeTurn env (withMessages item messages) attemptCount := by
  have unended : Dispatcher.isTerminalFor (tempHistoryMgr (withMessages item messages))
    (workitemReader (withMessages item messages)) = false := running.isTerminalFor _
  have error : (withMessages item messages).historyError = none := readable
  rw [handleFetchedItem_eq, isSupported_withMessages, supported]
  simp only [↓reduceIte, processOrchestrationItem, gt_iff_lt, not_lt.mpr inTime, error, Option.isSome_none,
    Bool.false_eq_true, unended]

/-- Over a history that cannot be read, the messages are not looked at. -/
theorem handleFetchedItem_of_unreadable (failed : item.historyError.isSome) (messages other : List WorkItem) :
    handleFetchedItem env (withMessages item messages) attemptCount =
      handleFetchedItem env (withMessages item other) attemptCount := by
  obtain ⟨message, error⟩ := Option.isSome_iff_exists.mp failed
  have errors : ∀ messages, (withMessages item messages).historyError = some message := fun _ => error
  rw [handleFetchedItem_eq, handleFetchedItem_eq, isSupported_withMessages, isSupported_withMessages]
  simp only [processOrchestrationItem, failOrchestrationAsPoison, errors, Option.isSome_some, ↓reduceIte]
  rfl

/-- The poison failure of a running instance records the batch and nothing else of it. -/
theorem failOrchestrationAsPoison_of_running (running : Running item) (readable : item.historyError = none)
    (messages : List WorkItem) :
    failOrchestrationAsPoison env (withMessages item messages) attemptCount =
      let details : ErrorDetails := .poison attemptCount env.maxAttempts
        (.orchestration item.instanceId item.executionId) (env.serializeMessages messages)
      let parentLink := item.history.findSome? parentOfStarted
      { executionId := item.executionId
        historyDelta := ((tempHistoryMgr item).appendFailed env.stamp details).delta
        orchestratorItems := Execution.notifyParent env.executionIds parentLink (.subOrchFailed · · · details)
        metadata :=
          { status := some .failed, output := some details.displayMessage
            orchestrationName := some item.orchestrationName, orchestrationVersion := some item.version
            parentInstanceId := parentLink.map (·.1) } } := by
  have error : (withMessages item messages).historyError = none := readable
  have occupied : (HistoryManager.fromHistory item.history).isEmpty = false := running.occupied readable
  unfold failOrchestrationAsPoison
  rw [error]
  simp only [poisonManager, withMessages, occupied, Bool.false_eq_true, ↓reduceIte, tempHistoryMgr]

/-- Two readers of one execution that agree on the name and the messages run the same turn. -/
theorem resolveAndExecute_congr {manager : HistoryManager} (occupied : manager.isEmpty = false)
    {reader other : WorkItemReader} (named : reader.orchestrationName = other.orchestrationName)
    (messages : reader.completionMessages = other.completionMessages)
    (resolved : resolveTurnHandler env.registry reader.orchestrationName reader.version =
      resolveTurnHandler env.registry other.orchestrationName other.version)
    (instanceId : String) (executionId : Nat) (kvSnapshot : AList fun _ : String => KvEntry) :
    resolveAndExecuteOrchestrationHandler env instanceId manager reader executionId kvSnapshot =
      resolveAndExecuteOrchestrationHandler env instanceId manager other executionId kvSnapshot := by
  unfold resolveAndExecuteOrchestrationHandler
  rw [resolved]
  simp only [startIfNew, occupied, Bool.false_eq_true, ↓reduceIte, Execution.runSingleExecutionAtomic,
    Execution.prepareTurn, named, messages]

/-- How an item that takes its turn is answered. -/
inductive Turned (env : RuntimeEnv semver) (item : OrchestrationItem) (attemptCount : Nat) : Decision semver → Prop
  | unregistered (named : (workitemReader item).hasOrchestrationName)
      (unresolved : resolveTurnHandler env.registry (workitemReader item).orchestrationName (workitemReader item).version =
        none) :
      Turned env item attemptCount (.abandon (some (env.unregisteredBackoff.delay attemptCount)) false)
  | acknowledged (resolves : (workitemReader item).hasOrchestrationName →
        (resolveTurnHandler env.registry (workitemReader item).orchestrationName (workitemReader item).version).isSome)
      (request : AckRequest semver) (fallback : ProviderError → AckRequest semver)
      (execution : request.executionId = (turnExecution item).1) :
      Turned env item attemptCount (.ack request (some fallback))

/-- A batch that names an orchestration without a handler is given back. -/
theorem executeTurn_of_unregistered (named : (workitemReader item).hasOrchestrationName)
    (unresolved : resolveTurnHandler env.registry (workitemReader item).orchestrationName
      (workitemReader item).version = none) :
    executeTurn env item attemptCount = .abandon (some (env.unregisteredBackoff.delay attemptCount)) false := by
  simp only [executeTurn, named, ↓reduceIte, resolveAndExecuteOrchestrationHandler, unresolved, Option.map_none]

theorem executeTurn_turned (env : RuntimeEnv semver) (item : OrchestrationItem) (attemptCount : Nat) :
    Turned env item attemptCount (executeTurn env item attemptCount) := by
  unfold executeTurn
  dsimp only
  split
  · rename_i named
    rcases resolved : resolveTurnHandler env.registry (workitemReader item).orchestrationName
      (workitemReader item).version with _ | chosen
    · rw [resolveAndExecuteOrchestrationHandler, resolved]
      exact .unregistered named resolved
    · rw [resolveAndExecuteOrchestrationHandler, resolved]
      exact .acknowledged (fun _ => resolved ▸ rfl) _ _ rfl
  · rename_i unnamed
    exact .acknowledged (fun named => absurd named unnamed) _ _ rfl

/-- Within one execution, a turn depends on the name that the batch gives and on the handler run under it. -/
theorem executeTurn_withMessages {messages : List WorkItem}
    (same : (workitemReader (withMessages item messages)).isContinueAsNew = false) :
    executeTurn env (withMessages item messages) attemptCount =
      if (workitemReader (withMessages item messages)).hasOrchestrationName then
        match resolveAndExecuteOrchestrationHandler env item.instanceId (tempHistoryMgr item)
          (workitemReader (withMessages item messages)) item.executionId item.kvSnapshot with
        | some outcome => finishTurn env item item.executionId outcome
        | none => .abandon (some (env.unregisteredBackoff.delay attemptCount)) false
      else finishTurn env item item.executionId { historyMgr := tempHistoryMgr item } := by
  unfold executeTurn
  rw [turnExecution_of_sameExecution same]
  rfl

/-- The handler run by an item that takes its turn. -/
theorem handlerRun_of_inTime (supported : isSupported env item) (inTime : attemptCount ≤ env.maxAttempts)
    (readable : item.historyError = none) (messages : List WorkItem) :
    handlerRun env (withMessages item messages) attemptCount =
      if (workitemReader (withMessages item messages)).hasOrchestrationName then
        (resolveTurnHandler env.registry (workitemReader (withMessages item messages)).orchestrationName
          (workitemReader (withMessages item messages)).version).map
          fun resolved => ((workitemReader (withMessages item messages)).orchestrationName, resolved.1)
      else none := by
  have error : (withMessages item messages).historyError = none := readable
  unfold handlerRun
  rw [isSupported_withMessages, supported, error]
  simp only [inTime, decide_true, Option.isNone_none, Bool.and_self, Bool.true_and]

/-- One name and version stand for one handler. -/
theorem resolved_of_handlerRun {registry : Registry semver} {name other : String} {requested otherRequested : Option String}
    (same : (resolveTurnHandler registry name requested).map (fun resolved => (name, resolved.1)) =
      (resolveTurnHandler registry other otherRequested).map fun resolved => (other, resolved.1)) :
    resolveTurnHandler registry name requested = resolveTurnHandler registry other otherRequested ∧
      ((resolveTurnHandler registry name requested).isSome → name = other) := by
  rcases first : resolveTurnHandler registry name requested with _ | ⟨version, handler⟩
  · rw [first, Option.map_none, eq_comm, Option.map_eq_none_iff] at same
    exact ⟨same.symm, fun some => nomatch some⟩
  · rcases second : resolveTurnHandler registry other otherRequested with _ | ⟨otherVersion, otherHandler⟩
    · rw [first, second] at same
      cases same
    · rw [first, second] at same
      simp only [Option.map_some, Option.some.injEq, Prod.mk.injEq] at same
      obtain ⟨rfl, rfl⟩ := same
      have one := resolveHandlerExact_of_resolved first
      rw [resolveHandlerExact_of_resolved second] at one
      cases one
      exact ⟨rfl, fun _ => rfl⟩

theorem hasOrchestrationName_iff {reader : WorkItemReader} :
    reader.hasOrchestrationName ↔ reader.orchestrationName ≠ "" := by
  rw [WorkItemReader.hasOrchestrationName, bne_iff_ne]

/-- A turn that is asked the same does the same. -/
theorem executeTurn_of_asksTheSame (running : Running item) (readable : item.historyError = none)
    (request : IsStartRequest orchestration requested extra) (first : before.any (·.isStart) = false)
    (asks : AsksTheSame env.registry orchestration requested (workitemReader (withMessages item (before ++ after)))) :
    executeTurn env (withMessages item (before ++ extra :: after)) attemptCount =
      executeTurn env (withMessages item (before ++ after)) attemptCount := by
  obtain ⟨reader, read, name, version, sameExecution, messages⟩ := reader_of_first item after request first
  rw [← read] at name version sameExecution messages
  cases asks with
  | unnamed requestUnnamed batchUnnamed batchExecution =>
    rw [executeTurn_withMessages sameExecution, executeTurn_withMessages batchExecution, if_neg, if_neg]
    · rwa [hasOrchestrationName_iff, not_not]
    · rwa [hasOrchestrationName_iff, not_not, name]
  | unregistered requestNamed batchNamed requestNone batchNone =>
    rw [executeTurn_of_unregistered (hasOrchestrationName_iff.mpr batchNamed) batchNone]
    refine executeTurn_of_unregistered (hasOrchestrationName_iff.mpr ?_) ?_
    · rwa [name]
    · rwa [name, version]
  | sameHandler named sameName batchExecution resolved requestResolved batchResolved =>
    have requestNamed : (workitemReader (withMessages item (before ++ extra :: after))).hasOrchestrationName :=
      hasOrchestrationName_iff.mpr (by rwa [name])
    have batchNamed : (workitemReader (withMessages item (before ++ after))).hasOrchestrationName :=
      hasOrchestrationName_iff.mpr (by rwa [sameName])
    rw [executeTurn_withMessages sameExecution, executeTurn_withMessages batchExecution, if_pos requestNamed,
      if_pos batchNamed]
    rw [resolveAndExecute_congr (running.occupied readable) (name.trans sameName.symm)
      (messages.trans (completionMessages_of_same _ batchExecution).symm)]
    rw [name, version, requestResolved, batchResolved]

/-- A request that asks for the same is run by the same handler. -/
theorem handlerRun_of_asksTheSame (readable : item.historyError = none) (supported : isSupported env item)
    (inTime : attemptCount ≤ env.maxAttempts) (request : IsStartRequest orchestration requested extra)
    (first : before.any (·.isStart) = false)
    (asks : AsksTheSame env.registry orchestration requested (workitemReader (withMessages item (before ++ after)))) :
    handlerRun env (withMessages item (before ++ extra :: after)) attemptCount =
      handlerRun env (withMessages item (before ++ after)) attemptCount := by
  obtain ⟨reader, read, name, version, _, _⟩ := reader_of_first item after request first
  rw [← read] at name version
  rw [handlerRun_of_inTime supported inTime readable, handlerRun_of_inTime supported inTime readable]
  simp only [hasOrchestrationName_iff, name, version]
  cases asks with
  | unnamed requestUnnamed batchUnnamed => rw [if_neg (not_not.mpr requestUnnamed), if_neg (not_not.mpr batchUnnamed)]
  | unregistered requestNamed batchNamed requestNone batchNone =>
    rw [if_pos requestNamed, if_pos batchNamed, requestNone, batchNone, Option.map_none, Option.map_none]
  | sameHandler named sameName _ resolved requestResolved batchResolved =>
    rw [if_pos named, if_pos (by rwa [sameName]), requestResolved, batchResolved, sameName]

/-- A turn that does the same was asked the same. -/
theorem asksTheSame_of_harmless (running : Running item) (readable : item.historyError = none)
    (supported : isSupported env item) (inTime : attemptCount ≤ env.maxAttempts)
    (request : IsStartRequest orchestration requested extra) (first : before.any (·.isStart) = false)
    (harmless : Harmless env item attemptCount before after extra) :
    AsksTheSame env.registry orchestration requested (workitemReader (withMessages item (before ++ after))) := by
  obtain ⟨reader, read, name, version, sameExecution, _⟩ := reader_of_first item after request first
  rw [← read] at name version sameExecution
  have decision := harmless.decision
  rw [handleFetchedItem_of_running running readable supported inTime,
    handleFetchedItem_of_running running readable supported inTime] at decision
  have turned := executeTurn_turned env (withMessages item (before ++ extra :: after)) attemptCount
  have other := executeTurn_turned env (withMessages item (before ++ after)) attemptCount
  rw [decision] at turned
  generalize executeTurn env (withMessages item (before ++ after)) attemptCount = decided at turned other
  have handler := harmless.handler
  rw [handlerRun_of_inTime supported inTime readable, handlerRun_of_inTime supported inTime readable] at handler
  simp only [hasOrchestrationName_iff, name, version] at handler
  cases turned with
  | unregistered named unresolved =>
    rw [hasOrchestrationName_iff, name] at named
    rw [name, version] at unresolved
    cases other with
    | unregistered otherNamed otherUnresolved =>
      exact .unregistered named (hasOrchestrationName_iff.mp otherNamed) unresolved otherUnresolved
  | acknowledged resolves asked fallback execution =>
    simp only [hasOrchestrationName_iff, name, version] at resolves
    cases other with
    | acknowledged otherResolves _ _ otherExecution =>
      rw [hasOrchestrationName_iff] at otherResolves
      have batchExecution : (workitemReader (withMessages item (before ++ after))).isContinueAsNew = false := by
        by_contra continues
        -- the two turns would belong to different executions
        rw [turnExecution_of_sameExecution sameExecution] at execution
        rw [turnExecution, if_pos (Bool.eq_true_of_not_eq_false continues), execution] at otherExecution
        exact absurd otherExecution (Nat.ne_of_lt (Nat.lt_succ_self item.executionId))
      by_cases named : orchestration ≠ ""
      · obtain ⟨resolved, found⟩ := Option.isSome_iff_exists.mp (resolves named)
        rw [if_pos named, found] at handler
        by_cases batchNamed : (workitemReader (withMessages item (before ++ after))).orchestrationName ≠ ""
        · rw [if_pos batchNamed, ← found] at handler
          obtain ⟨same, names⟩ := resolved_of_handlerRun handler
          exact .sameHandler named (names (found ▸ rfl)).symm batchExecution resolved found (same.symm.trans found)
        · rw [if_neg batchNamed] at handler
          cases handler
      · by_cases batchNamed : (workitemReader (withMessages item (before ++ after))).orchestrationName ≠ ""
        · obtain ⟨resolved, found⟩ := Option.isSome_iff_exists.mp (otherResolves batchNamed)
          rw [if_neg named, if_pos batchNamed, found] at handler
          cases handler
        · exact .unnamed (not_not.mp named) (not_not.mp batchNamed) batchExecution

/-- An instance whose attempts are used up fails with its batch. -/
theorem handleFetchedItem_of_exceeded (supported : isSupported env item) (exceeded : env.maxAttempts < attemptCount)
    (messages : List WorkItem) :
    handleFetchedItem env (withMessages item messages) attemptCount =
      .ack (failOrchestrationAsPoison env (withMessages item messages) attemptCount) none := by
  rw [handleFetchedItem_eq, isSupported_withMessages, supported]
  simp only [↓reduceIte, processOrchestrationItem, gt_iff_lt, exceeded]

/-- The recorded failures of two batches are the same exactly if their texts are. -/
theorem failOrchestrationAsPoison_eq_iff (running : Running item) (readable : item.historyError = none)
    (messages other : List WorkItem) :
    failOrchestrationAsPoison env (withMessages item messages) attemptCount =
        failOrchestrationAsPoison env (withMessages item other) attemptCount ↔
      env.serializeMessages messages = env.serializeMessages other := by
  rw [failOrchestrationAsPoison_of_running running readable, failOrchestrationAsPoison_of_running running readable]
  constructor
  · intro same
    have deltas := congrArg AckRequest.historyDelta same
    have events := List.append_cancel_left deltas
    have kinds := congrArg (List.map (·.kind)) events
    simp only [List.map_cons, List.map_nil, Event.withEventId_kind, List.cons.injEq, EventKind.orchestrationFailed.injEq,
      ErrorDetails.poison.injEq] at kinds
    exact kinds.1.2.2.2
  · intro same
    rw [same]

theorem handlerRun_of_notTaken (messages : List WorkItem)
    (stopped : isSupported env item = false ∨ env.maxAttempts < attemptCount ∨ item.historyError.isSome) :
    handlerRun env (withMessages item messages) attemptCount = none := by
  unfold handlerRun
  refine if_neg fun taken => ?_
  simp only [isSupported_withMessages, Bool.and_eq_true, decide_eq_true_eq] at taken
  obtain ⟨⟨⟨supported, inTime⟩, readable⟩, _⟩ := taken
  rcases stopped with unsupported | exceeded | failed
  · rw [unsupported] at supported
    cases supported
  · exact absurd inTime (not_le.mpr exceeded)
  · rw [withMessages, Option.isNone_iff_eq_none] at readable
    rw [readable] at failed
    cases failed

/-- For every running instance, batch and further start request: the request changes nothing exactly if the
turn is not taken, fails with the same text, has an earlier start item, or is asked for the same. -/
theorem harmless_iff (running : Running item) (request : IsStartRequest orchestration requested extra) :
    Harmless env item attemptCount before after extra ↔
      HarmlessWhen env item attemptCount before after extra orchestration requested := by
  by_cases supported : isSupported env item
  swap
  · have unsupported := Bool.eq_false_of_not_eq_true supported
    refine ⟨fun _ => .unsupported unsupported, fun _ => ⟨?_, ?_⟩⟩
    · simp only [handleFetchedItem_eq, isSupported_withMessages, unsupported, Bool.false_eq_true, ↓reduceIte]
    · rw [handlerRun_of_notTaken _ (.inl unsupported), handlerRun_of_notTaken _ (.inl unsupported)]
  rcases error : item.historyError with _ | message
  swap
  · have failed : item.historyError.isSome := error ▸ rfl
    refine ⟨fun _ => .unreadable failed, fun _ => ⟨handleFetchedItem_of_unreadable failed _ _, ?_⟩⟩
    rw [handlerRun_of_notTaken _ (.inr (.inr failed)), handlerRun_of_notTaken _ (.inr (.inr failed))]
  rcases Nat.lt_or_ge env.maxAttempts attemptCount with exceeded | inTime
  · have decision : handleFetchedItem env (withMessages item (before ++ extra :: after)) attemptCount =
          handleFetchedItem env (withMessages item (before ++ after)) attemptCount ↔
        env.serializeMessages (before ++ extra :: after) = env.serializeMessages (before ++ after) := by
      rw [handleFetchedItem_of_exceeded supported exceeded, handleFetchedItem_of_exceeded supported exceeded,
        ← failOrchestrationAsPoison_eq_iff running error, Decision.ack.injEq, and_iff_left rfl]
    constructor
    · exact fun harmless => .poisoned exceeded (decision.mp harmless.decision)
    · intro harmless
      have handlers : ∀ messages, handlerRun env (withMessages item messages) attemptCount = none :=
        fun messages => handlerRun_of_notTaken messages (.inr (.inl exceeded))
      refine ⟨decision.mpr ?_, by rw [handlers, handlers]⟩
      cases harmless with
      | unsupported refused => exact absurd supported (by rw [refused]; exact Bool.false_ne_true)
      | unreadable failed => exact absurd failed (by rw [error]; exact Bool.false_ne_true)
      | poisoned _ same => exact same
      | hidden inTime => exact absurd inTime (not_le.mpr exceeded)
      | same inTime => exact absurd inTime (not_le.mpr exceeded)
  · have takesTurn : ∀ messages, handleFetchedItem env (withMessages item messages) attemptCount =
        executeTurn env (withMessages item messages) attemptCount :=
      handleFetchedItem_of_running running error supported inTime
    by_cases earlier : before.any (·.isStart)
    · refine ⟨fun _ => .hidden inTime earlier, fun _ => ⟨?_, ?_⟩⟩
      · rw [takesTurn, takesTurn]
        unfold executeTurn turnExecution
        rw [reader_of_hidden request earlier]
        rfl
      · unfold handlerRun
        rw [reader_of_hidden request earlier]
        rfl
    · have first := Bool.eq_false_of_not_eq_true earlier
      constructor
      · exact fun harmless => .same inTime
          (asksTheSame_of_harmless running error supported inTime request first harmless)
      · intro harmless
        cases harmless with
        | unsupported refused => exact absurd supported (by rw [refused]; exact Bool.false_ne_true)
        | unreadable failed => exact absurd failed (by rw [error]; exact Bool.false_ne_true)
        | poisoned exceeded => exact absurd inTime (not_le.mpr exceeded)
        | hidden _ hidden => exact absurd hidden earlier
        | same _ asks =>
          refine ⟨?_, handlerRun_of_asksTheSame error supported inTime request first asks⟩
          rw [takesTurn, takesTurn]
          exact executeTurn_of_asksTheSame running error request first asks

/-! An instance waits under version 1.0.0 when version 2.0.0, which does not wait, is registered and a second
request arrives. -/

def finishingHandler : OrchestrationHandler where
  State := Unit
  invoke _ := ()
  poll _ := .finish (.ok "two")

/-- Both versions, the older of which waits. -/
def upgradedEnv : RuntimeEnv textSemver where
  stamp := ⟨0, "1.0.0"⟩
  registry :=
    { inner := fun name =>
        if name = "orch" then [(versionOne, waitingHandler), (versionTwo, finishingHandler)] else []
      distinct := fun name => by
        split_ifs
        · decide
        · exact List.nodup_nil
      policy := fun _ => none }
  executionIds _ := none
  supportedRange := ⟨versionOne, versionOne⟩
  serializeMessages _ := ""

def secondRequest : WorkItem := .startOrchestration "i" "orch" "" none none none 1

/-- The instance waits, and an event that it does not wait for arrives. -/
def disturbed : List (Step textSemver) :=
  startedOnce ++ [.client 0 (.externalRaised "i" "other" ""), .fetch {} none 0 1000 2 none]

/-- Whether an item of a running instance has this batch. -/
def isRunningWith (item : OrchestrationItem) (messages : List WorkItem) : Bool :=
  ReplayEngine.startsExecution item.history && !item.history.any (·.isTerminal) && item.messages == messages

theorem running_of_isRunningWith {messages : List WorkItem} (facts : isRunningWith item messages) :
    Running item ∧ item.messages = messages := by
  simp only [isRunningWith, Bool.and_eq_true, Bool.not_eq_true', beq_iff_eq] at facts
  exact ⟨⟨fun _ => facts.1.1, facts.1.2⟩, facts.2⟩

theorem harmless_iff_disturbed : ∃ world delivery, World.run {} disturbed = some world ∧
    world.deliveries 2 = some delivery ∧
    (Harmless upgradedEnv delivery.item delivery.attemptCount [] delivery.item.messages secondRequest ↔
      HarmlessWhen upgradedEnv delivery.item delivery.attemptCount [] delivery.item.messages secondRequest "orch"
        none) := by
  have observed : (World.run {} disturbed).any (fun world => (world.deliveries 2).any fun delivery =>
      isRunningWith delivery.item [.externalRaised "i" "other" ""]) = true := by
    decide +kernel
  obtain ⟨world, ran, held⟩ := (Option.any_eq_true _ _).mp observed
  obtain ⟨delivery, holds, facts⟩ := (Option.any_eq_true _ _).mp held
  exact ⟨world, delivery, ran, holds, harmless_iff (running_of_isRunningWith facts).1 (.intro ..)⟩

/-- The kinds of the events that a decision records. -/
def recordedKinds : Decision semver → List EventKind
  | .ack request _ => request.historyDelta.map (·.kind)
  | .abandon .. => []

/-- With the second request the turn completes under version 2.0.0; without it the instance goes on waiting. -/
theorem secondRequest_not_harmless : ∃ world delivery, World.run {} disturbed = some world ∧
    world.deliveries 2 = some delivery ∧ Running delivery.item ∧
    ¬ Harmless upgradedEnv delivery.item delivery.attemptCount [] delivery.item.messages secondRequest := by
  have observed : (World.run {} disturbed).any (fun world => (world.deliveries 2).any fun delivery =>
      isRunningWith delivery.item [.externalRaised "i" "other" ""] &&
        recordedKinds (handleFetchedItem upgradedEnv
          (withMessages delivery.item (secondRequest :: delivery.item.messages)) delivery.attemptCount) !=
        recordedKinds (handleFetchedItem upgradedEnv
          (withMessages delivery.item delivery.item.messages) delivery.attemptCount)) = true := by
    decide +kernel
  obtain ⟨world, ran, held⟩ := (Option.any_eq_true _ _).mp observed
  obtain ⟨delivery, holds, facts⟩ := (Option.any_eq_true _ _).mp held
  rw [Bool.and_eq_true, bne_iff_ne] at facts
  refine ⟨world, delivery, ran, holds, (running_of_isRunningWith facts.1).1, fun harmless => facts.2 ?_⟩
  exact congrArg recordedKinds harmless.decision

end Duroxide.DuplicateStarts
