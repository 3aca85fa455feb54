import Duroxide.Proofs.Provenance

/-! # Version pinning

An execution records the name and version of its orchestration in its first event. A later turn takes
both from a start item in its batch when there is one, and asks the registry's policy when the recorded
version is the placeholder; in every other case it runs exactly what was recorded.
-/

namespace Duroxide.VersionPinning

open Dispatcher

variable {semver : Semver}

/-- The events of an execution before a turn prepares its messages. -/
def eventsOf (env : RuntimeEnv semver) (item : OrchestrationItem) (version : semver.Version) : HistoryManager :=
  startIfNew env.stamp item.instanceId (turnExecution item).1 (workitemReader item) (semver.render version)
    (turnExecution item).2

/-- The dispatcher takes an item to the resolution of its handler. -/
structure TakesTurn (env : RuntimeEnv semver) (item : OrchestrationItem) (attemptCount : Nat) : Prop where
  supported : ∀ pinned, pinnedVersion semver item.history = some pinned → env.supportedRange.contains pinned
  attempts : attemptCount ≤ env.maxAttempts
  readable : item.historyError = none
  running : isTerminalFor (tempHistoryMgr item) (workitemReader item) = false
  named : (workitemReader item).hasOrchestrationName

/-- A turn polls a handler that it resolved under a name and a version, over some recorded events. -/
structure Runs (env : RuntimeEnv semver) (item : OrchestrationItem) (attemptCount : Nat) (name : String)
    (version : semver.Version) (handler : OrchestrationHandler) (recorded : List Event) : Prop where
  takesTurn : TakesTurn env item attemptCount
  named : (workitemReader item).orchestrationName = name
  resolved : resolveTurnHandler env.registry name (workitemReader item).version = some (version, handler)
  recorded : (eventsOf env item version).fullHistory = recorded
  evaluates : (Execution.prepareTurn env.stamp item.instanceId (turnExecution item).1 (eventsOf env item version)
    (workitemReader item) item.kvSnapshot).evaluates

theorem handleFetchedItem_of_takesTurn {env : RuntimeEnv semver} {item : OrchestrationItem} {attemptCount : Nat}
    (takesTurn : TakesTurn env item attemptCount) :
    handleFetchedItem env item attemptCount = executeTurn env item attemptCount := by
  have processed : processOrchestrationItem env item attemptCount = executeTurn env item attemptCount := by
    simp only [processOrchestrationItem, gt_iff_lt, not_lt.mpr takesTurn.attempts, takesTurn.readable,
      takesTurn.running, Option.isSome_none, Bool.false_eq_true, ↓reduceIte]
  unfold handleFetchedItem
  split
  · rename_i pinned found
    rw [takesTurn.supported pinned found, processed]
    rfl
  · exact processed

/-- What `Runs` describes is what the dispatcher does. -/
theorem handleFetchedItem_of_runs {env : RuntimeEnv semver} {item : OrchestrationItem} {attemptCount : Nat}
    {name : String} {version : semver.Version} {handler : OrchestrationHandler} {recorded : List Event}
    (runs : Runs env item attemptCount name version handler recorded) :
    handleFetchedItem env item attemptCount =
      finishTurn env item (turnExecution item).1 (Execution.runSingleExecutionAtomic env.stamp env.executionIds
        item.instanceId (eventsOf env item version) (workitemReader item) (turnExecution item).1 handler (semver.render version)
        item.kvSnapshot) := by
  rw [handleFetchedItem_of_takesTurn runs.takesTurn]
  simp only [executeTurn, runs.takesTurn.named, ↓reduceIte, resolveAndExecuteOrchestrationHandler, runs.named,
    runs.resolved, Option.map_some]
  rfl

/-- The name and version that an execution's first event records. -/
def recordedStart : List Event → Option (String × String)
  | ⟨_, _, _, _, _, _, .orchestrationStarted name version ..⟩ :: _ => some (name, version)
  | _ => none

/-- A turn runs the handler registered under the recorded name and version, or gives the item back
because none is registered. -/
structure Pinned (env : RuntimeEnv semver) (item : OrchestrationItem) (attemptCount : Nat) : Prop where
  runs : ∀ name version handler recorded, Runs env item attemptCount name version handler recorded →
    recordedStart recorded = some (name, semver.render version) ∧
      env.registry.resolveHandlerExact name version = some handler
  unregistered : TakesTurn env item attemptCount →
    resolveTurnHandler env.registry (workitemReader item).orchestrationName (workitemReader item).version = none →
    ∃ delayMs, handleFetchedItem env item attemptCount = .abandon (some delayMs) false

/-- A later turn of an execution gets as far as polling a handler, whichever it is. -/
structure PollsLater (env : RuntimeEnv semver) (item : OrchestrationItem) (attemptCount : Nat) : Prop where
  takesTurn : TakesTurn env item attemptCount
  sameExecution : (workitemReader item).isContinueAsNew = false
  evaluates : (Execution.prepareTurn env.stamp item.instanceId item.executionId (tempHistoryMgr item)
    (workitemReader item) item.kvSnapshot).evaluates

/-- A later turn asks for the recorded name and version: a start item in its batch resolves to them, or to
nothing; without one, a recorded placeholder is what the registry's policy resolves to. -/
structure AsksForRecorded (registry : Registry semver) (item : OrchestrationItem) (name version : String) :
    Prop where
  startItem : ∀ instanceId orchestration input requested parentInstance parentId executionId,
    item.messages.find? (·.isStart) =
      some (.startOrchestration instanceId orchestration input requested parentInstance parentId executionId) →
    ∀ resolved handler, resolveTurnHandler registry orchestration requested = some (resolved, handler) →
      orchestration = name ∧ semver.render resolved = version
  placeholder : item.messages.find? (·.isStart) = none → version = PLACEHOLDER_VERSION →
    ∀ resolved handler, registry.resolveHandler name = some (resolved, handler) → semver.render resolved = version

/-- Every later turn that polls a handler asks for what the execution recorded. -/
def PinnedWhen (env : RuntimeEnv semver) (item : OrchestrationItem) (attemptCount : Nat) : Prop :=
  ∀ name version, recordedStart item.history = some (name, version) → PollsLater env item attemptCount →
    AsksForRecorded env.registry item name version

/-! ## What a turn resolves -/

variable {env : RuntimeEnv semver} {item : OrchestrationItem} {attemptCount : Nat}

theorem resolveHandlerExact_of_resolved {registry : Registry semver} {name : String} {requested : Option String}
    {version : semver.Version} {handler : OrchestrationHandler}
    (resolved : resolveTurnHandler registry name requested = some (version, handler)) :
    registry.resolveHandlerExact name version = some handler := by
  cases requested with
  | none => exact Registry.resolveHandlerExact_of_resolveHandler resolved
  | some text =>
    simp only [resolveTurnHandler] at resolved
    split at resolved
    · obtain ⟨found, exact, same⟩ := Option.map_eq_some_iff.mp resolved
      cases same
      exact exact
    · cases resolved

/-- A request for a version text resolves to the version of that text. -/
theorem render_of_resolved (law : ∀ text version, semver.parse text = some version → semver.render version = text)
    {registry : Registry semver} {name text : String} {version : semver.Version} {handler : OrchestrationHandler}
    (resolved : resolveTurnHandler registry name (some text) = some (version, handler)) :
    semver.render version = text := by
  simp only [resolveTurnHandler] at resolved
  split at resolved
  · rename_i asked parsed
    obtain ⟨found, exact, same⟩ := Option.map_eq_some_iff.mp resolved
    cases same
    exact law text _ parsed
  · cases resolved

/-- A turn that opens its execution records what it resolved. -/
theorem recordedStart_startIfNew {stamp : Stamp} {instanceId version : String} {executionId : Nat}
    {reader : WorkItemReader} {manager : HistoryManager} (empty : manager.isEmpty) :
    recordedStart (startIfNew stamp instanceId executionId reader version manager).fullHistory =
      some (reader.orchestrationName, version) := by
  simp only [HistoryManager.isEmpty, Bool.and_eq_true, List.isEmpty_iff] at empty
  simp only [startIfNew, HistoryManager.isEmpty, HistoryManager.fullHistory, HistoryManager.append, empty.1, empty.2,
    List.isEmpty_nil, Bool.and_self, ↓reduceIte, List.nil_append]
  rfl

theorem turnExecution_of_sameExecution (same : (workitemReader item).isContinueAsNew = false) :
    turnExecution item = (item.executionId, tempHistoryMgr item) := by
  simp only [turnExecution, same, Bool.false_eq_true, ↓reduceIte]

/-- A turn over recorded events leaves them as they are. -/
theorem eventsOf_of_recorded (same : (workitemReader item).isContinueAsNew = false) (recorded : item.history ≠ [])
    (version : semver.Version) : eventsOf env item version = tempHistoryMgr item := by
  have occupied : (tempHistoryMgr item).isEmpty = false := by
    simp [HistoryManager.isEmpty, tempHistoryMgr, recorded]
  simp only [eventsOf, turnExecution_of_sameExecution same, startIfNew, occupied, Bool.false_eq_true, ↓reduceIte]

/-- A turn whose execution has events continues the fetched history. -/
theorem later_of_occupied (occupied : ¬ (turnExecution item).2.isEmpty) :
    (workitemReader item).isContinueAsNew = false ∧ item.history ≠ [] := by
  have same : (workitemReader item).isContinueAsNew = false := by
    by_contra continues
    refine occupied ?_
    simp [turnExecution, Bool.eq_true_of_not_eq_false continues, HistoryManager.isEmpty]
  refine ⟨same, fun empty => occupied ?_⟩
  simp [turnExecution_of_sameExecution same, HistoryManager.isEmpty, tempHistoryMgr, empty]

theorem fullHistory_tempHistoryMgr : (tempHistoryMgr item).fullHistory = item.history := by
  simp [HistoryManager.fullHistory, tempHistoryMgr]

theorem parsed_workitemReader (item : OrchestrationItem) :
    WorkItemReader.Parsed item.messages (tempHistoryMgr item) item.instanceId (workitemReader item) :=
  WorkItemReader.parsed_fromMessages _ _ _

/-- A history with a recorded start is read with its name and version. -/
theorem tempHistoryMgr_identity {name version : String} (history : HistoryOrigin item.history)
    (recorded : recordedStart item.history = some (name, version)) :
    (tempHistoryMgr item).orchestrationName = some name ∧ (tempHistoryMgr item).orchestrationVersion = some version := by
  rcases events : item.history with _ | ⟨first, rest⟩
  · rw [events] at recorded
    cases recorded
  · rw [events] at recorded history
    obtain ⟨eventId, source, instanceId, executionId, timestamp, crate, kind⟩ := first
    cases kind with
    | orchestrationStarted =>
      cases recorded
      rw [tempHistoryMgr, events]
      exact HistoryManager.fromHistory_identity rfl history.startsOnce
    | _ => cases recorded

/-- A later turn asks for what was recorded exactly if whatever it resolves is what was recorded. -/
theorem asksForRecorded_iff (law : ∀ text version, semver.parse text = some version → semver.render version = text)
    {registry : Registry semver} {name version : String}
    (identity : (tempHistoryMgr item).orchestrationName = some name ∧
      (tempHistoryMgr item).orchestrationVersion = some version)
    (same : (workitemReader item).isContinueAsNew = false) :
    AsksForRecorded registry item name version ↔ ∀ resolved handler,
      resolveTurnHandler registry (workitemReader item).orchestrationName (workitemReader item).version =
        some (resolved, handler) →
      (workitemReader item).orchestrationName = name ∧ semver.render resolved = version := by
  have parsed := parsed_workitemReader item
  generalize workitemReader item = reader at parsed same
  cases parsed with
  | start target orchestration input requested parentInstance parentId executionId first =>
    constructor
    · intro asks resolved handler runs
      exact asks.startItem _ _ _ _ _ _ _ first resolved handler runs
    · intro agrees
      refine ⟨?_, fun absent => nomatch first.symm.trans absent⟩
      intro _ _ _ _ _ _ _ other resolved handler runs
      rw [first] at other
      cases other
      exact agrees resolved handler runs
  | continueAsNew => cases same
  | neither first =>
    have recorded : (tempHistoryMgr item).version = if version = PLACEHOLDER_VERSION then none else some version := by
      simp only [HistoryManager.version, identity.2, Option.some.injEq]
    simp only [identity.1, Option.getD_some, recorded]
    constructor
    · intro asks resolved handler runs
      refine ⟨trivial, ?_⟩
      split_ifs at runs with placeholder
      · exact asks.placeholder first placeholder resolved handler runs
      · exact render_of_resolved law runs
    · intro agrees
      refine ⟨fun _ _ _ _ _ _ _ other => (nomatch first.symm.trans other), ?_⟩
      intro _ placeholder resolved handler runs
      rw [if_pos placeholder] at agrees
      exact (agrees resolved handler runs).2

/-- A turn that polls continues a history that starts with its start event. -/
theorem recordedStart_of_evaluates (occupied : item.history ≠ [])
    (evaluates : (Execution.prepareTurn env.stamp item.instanceId item.executionId (tempHistoryMgr item)
      (workitemReader item) item.kvSnapshot).evaluates) :
    ∃ start, recordedStart item.history = some start := by
  simp only [ReplayEngine.evaluates, Bool.and_eq_true] at evaluates
  have starts := evaluates.2
  rw [Execution.prepareTurn, ReplayEngine.prepCompletions_baselineHistory] at starts
  simp only [ReplayEngine.withKvSnapshot, ReplayEngine.withPersistedHistoryLen, ReplayEngine.new,
    fullHistory_tempHistoryMgr] at starts
  rcases events : item.history with _ | ⟨⟨eventId, source, instanceId, executionId, timestamp, crate, kind⟩, rest⟩
  · exact absurd events occupied
  · rw [events] at starts
    cases kind with
    | orchestrationStarted => exact ⟨_, rfl⟩
    | _ => cases starts

/-- A turn whose batch resolves to no handler gives the item back. -/
theorem abandon_of_unregistered (takesTurn : TakesTurn env item attemptCount)
    (unregistered : resolveTurnHandler env.registry (workitemReader item).orchestrationName
      (workitemReader item).version = none) :
    handleFetchedItem env item attemptCount = .abandon (some (env.unregisteredBackoff.delay attemptCount)) false := by
  rw [handleFetchedItem_of_takesTurn takesTurn]
  simp only [executeTurn, takesTurn.named, ↓reduceIte, resolveAndExecuteOrchestrationHandler, unregistered,
    Option.map_none]

/-- In every run, and whatever the registry of a turn holds, the turn is pinned exactly if it opens its
execution, polls nothing or asks for what the execution recorded. -/
theorem pinned_iff (law : ∀ text version, semver.parse text = some version → semver.render version = text)
    {guard : World semver → Step semver → Prop} {world : World semver}
    (reached : (system semver).Reachable guard world) {token : Nat} {delivery : Delivery semver}
    (holds : world.deliveries token = some delivery) (env : RuntimeEnv semver) :
    Pinned env delivery.item delivery.attemptCount ↔ PinnedWhen env delivery.item delivery.attemptCount := by
  have history := (Provenance.of_reachable reached).items token delivery holds
  generalize delivery.item = item at history
  generalize delivery.attemptCount = attemptCount
  constructor
  · intro pinned name version recorded polls
    have identity := tempHistoryMgr_identity history recorded
    have occupied : item.history ≠ [] := by
      rintro empty
      rw [empty] at recorded
      cases recorded
    refine (asksForRecorded_iff law identity polls.sameExecution).mpr fun resolved handler runs => ?_
    have turn := turnExecution_of_sameExecution polls.sameExecution
    have events : eventsOf env item resolved = tempHistoryMgr item :=
      eventsOf_of_recorded polls.sameExecution occupied resolved
    have agrees := (pinned.runs _ resolved handler item.history
      { takesTurn := polls.takesTurn, named := rfl, resolved := runs
        recorded := by rw [events, fullHistory_tempHistoryMgr]
        evaluates := by rw [events, turn]; exact polls.evaluates }).1
    rw [recorded] at agrees
    cases agrees
    exact ⟨rfl, rfl⟩
  · intro asks
    refine ⟨fun name version handler recorded runs => ?_, fun takesTurn unregistered =>
      ⟨_, abandon_of_unregistered takesTurn unregistered⟩⟩
    refine ⟨?_, resolveHandlerExact_of_resolved runs.resolved⟩
    have events := runs.recorded
    by_cases opens : (turnExecution item).2.isEmpty
    · rw [← runs.named, ← events]
      exact recordedStart_startIfNew opens
    obtain ⟨same, occupied⟩ := later_of_occupied opens
    have turn := turnExecution_of_sameExecution same
    have evaluates := runs.evaluates
    rw [eventsOf_of_recorded same occupied, turn] at evaluates
    rw [eventsOf_of_recorded same occupied, fullHistory_tempHistoryMgr] at events
    subst events
    obtain ⟨⟨startName, startVersion⟩, started⟩ := recordedStart_of_evaluates occupied evaluates
    have identity := tempHistoryMgr_identity history started
    have agrees := (asksForRecorded_iff law identity same).mp
      (asks startName startVersion started ⟨runs.takesTurn, same, evaluates⟩) version handler
      (by rw [runs.named]; exact runs.resolved)
    rw [started, ← agrees.2, ← agrees.1, runs.named]

/-! An execution of version 1.0.0 receives a second start request after version 2.0.0 was registered. -/

def versionOne : textSemver.Version := "1.0.0"

def versionTwo : textSemver.Version := "2.0.0"

/-- Wait for an external event. -/
def waitingHandler : OrchestrationHandler where
  State := Bool
  invoke _ := false
  poll
    | false => .call (.scheduleWait "go") fun _ => .suspend true
    | true => .suspend true

/-- A registry of one orchestration with the given versions. -/
def versionedEnv (versions : List textSemver.Version) (distinct : versions.Nodup) : RuntimeEnv textSemver where
  stamp := ⟨0, "1.0.0"⟩
  registry :=
    { inner := fun name => if name = "orch" then versions.map (·, waitingHandler) else []
      distinct := fun name => by
        split_ifs
        · simpa [Function.comp_def] using distinct
        · exact List.nodup_nil
      policy := fun _ => none }
  executionIds _ := none
  supportedRange := ⟨versionOne, versionOne⟩
  serializeMessages _ := ""

/-- A registry of orchestrations in one version. -/
def registeredEnv (handlers : String → Option OrchestrationHandler) : RuntimeEnv textSemver where
  stamp := ⟨0, "1.0.0"⟩
  registry :=
    { inner := fun name => (handlers name).toList.map (versionOne, ·)
      distinct := fun name => by
        cases handlers name with
        | none => exact List.nodup_nil
        | some handler => exact List.nodup_singleton _
      policy := fun _ => none }
  executionIds _ := none
  supportedRange := ⟨versionOne, versionOne⟩
  serializeMessages _ := ""

def oldEnv : RuntimeEnv textSemver := versionedEnv [versionOne] (by decide)

def newEnv : RuntimeEnv textSemver := versionedEnv [versionOne, versionTwo] (by decide)

def startRequest : Step textSemver := .client 0 (.startOrchestration "i" "orch" "" none none none 1)

def startedOnce : List (Step textSemver) :=
  [startRequest, .fetch {} none 0 1000 1 none, .decide 1 oldEnv, .ack {} 0 1 none]

def startedTwice : List (Step textSemver) := startedOnce ++ [startRequest, .fetch {} none 0 1000 2 none]

theorem render_textSemver (text : String) (version : textSemver.Version) (parsed : textSemver.parse text = some version) :
    textSemver.render version = text := by
  obtain ⟨_, _, same⟩ := Option.map_eq_some_iff.mp parsed
  exact same.symm

theorem pinned_iff_secondTurn : ∃ world delivery, World.run {} startedTwice = some world ∧
    world.deliveries 2 = some delivery ∧
    (Pinned oldEnv delivery.item delivery.attemptCount ↔ PinnedWhen oldEnv delivery.item delivery.attemptCount) := by
  have delivered : (World.run {} startedTwice).any (fun world => (world.deliveries 2).isSome) = true := by
    decide +kernel
  obtain ⟨world, ran, held⟩ := (Option.any_eq_true _ _).mp delivered
  obtain ⟨delivery, holds⟩ := Option.isSome_iff_exists.mp held
  exact ⟨world, delivery, ran, holds,
    pinned_iff render_textSemver (World.reachable_of_run (.initial rfl) ran) holds oldEnv⟩

/-- The facts about an item of which a turn of version 2.0.0 over a start of version 1.0.0 follows. -/
def runsTwoOverOne (env : RuntimeEnv textSemver) (item : OrchestrationItem) (attemptCount : Nat) : Bool :=
  (pinnedVersion textSemver item.history).all env.supportedRange.contains && attemptCount ≤ env.maxAttempts &&
    item.historyError.isNone && !isTerminalFor (tempHistoryMgr item) (workitemReader item) &&
    (workitemReader item).orchestrationName == "orch" &&
    (resolveTurnHandler env.registry "orch" (workitemReader item).version).map (·.1) == some versionTwo &&
    (Execution.prepareTurn env.stamp item.instanceId (turnExecution item).1 (eventsOf env item versionTwo)
      (workitemReader item) item.kvSnapshot).evaluates &&
    recordedStart (eventsOf env item versionTwo).fullHistory == some ("orch", "1.0.0")

/-- The second start request makes the execution's next turn run version 2.0.0. -/
theorem secondStart_notPinned : ∃ world delivery, World.run {} startedTwice = some world ∧
    world.deliveries 2 = some delivery ∧ ¬ Pinned newEnv delivery.item delivery.attemptCount := by
  have observed : (World.run {} startedTwice).any (fun world => (world.deliveries 2).any fun delivery =>
      runsTwoOverOne newEnv delivery.item delivery.attemptCount) = true := by
    decide +kernel
  obtain ⟨world, ran, held⟩ := (Option.any_eq_true _ _).mp observed
  obtain ⟨delivery, holds, facts⟩ := (Option.any_eq_true _ _).mp held
  refine ⟨world, delivery, ran, holds, fun pinned => ?_⟩
  simp only [runsTwoOverOne, Bool.and_eq_true, beq_iff_eq, decide_eq_true_eq, Bool.not_eq_true',
    Option.isNone_iff_eq_none, Option.all_eq_true] at facts
  obtain ⟨⟨⟨⟨⟨⟨⟨supported, attempts⟩, readable⟩, running⟩, named⟩, resolved⟩, evaluates⟩, recorded⟩ := facts
  obtain ⟨⟨version, handler⟩, found, two⟩ := Option.map_eq_some_iff.mp resolved
  obtain rfl : version = versionTwo := two
  have turn : TakesTurn newEnv delivery.item delivery.attemptCount :=
    ⟨supported, attempts, readable, running, by rw [WorkItemReader.hasOrchestrationName, named]; decide⟩
  have agrees := (pinned.runs "orch" versionTwo handler _ ⟨turn, named, found, rfl, evaluates⟩).1
  rw [recorded] at agrees
  exact absurd agrees (by decide)

end Duroxide.VersionPinning
