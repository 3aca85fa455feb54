import Duroxide.Proofs.ActionReadings
import Duroxide.Proofs.KeyValueReplay
import Duroxide.Proofs.TurnActivities
import Duroxide.Proofs.VersionPinning

/-! # Key-value views

What is read of an instance is its stored values after the changes that its current execution recorded, and
the holder of its lock was given these values. So a turn that reads its history comes to the map that is read,
and its acknowledgement makes the map that it ended with the one that is read.
-/

namespace Duroxide

open Provider Dispatcher Lib.Overlay VersionPinning

variable {semver : Semver}

/-! ## What a turn changes -/

/-- The changes that events record are those of the pending actions. -/
theorem projects_kvChange (instanceId : String) (executionId : Nat) :
    ReplayEngine.Projects instanceId executionId (·.kind.kvChange) Action.kvChange where
  action stamp action eventId := by cases action <;> rfl
  message event message := by
    obtain ⟨eventId, source, owner, executionId, timestamp, version, kind⟩ := event
    cases kind <;> first | rfl | cases message
  breadcrumb event breadcrumb := by
    obtain ⟨eventId, source, owner, executionId, timestamp, version, kind⟩ := event
    cases kind <;> first | rfl | cases breadcrumb

theorem reads_kvChange : ReadsActions fun event : Event => event.kind.kvChange where
  outer event outer := by
    obtain ⟨eventId, source, owner, executionId, timestamp, version, kind⟩ := event
    cases kind <;> first | rfl | cases outer
  breadcrumb := (projects_kvChange "" 0).breadcrumb
  message := (projects_kvChange "" 0).message

/-- A failure changes nothing. -/
theorem kvChange_of_isFailed {kind : EventKind} (failed : kind.isFailed) : kind.kvChange = none := by
  cases kind <;> first | rfl | cases failed

namespace Dispatcher

variable {env : RuntimeEnv semver} {item : OrchestrationItem} {outcome : ExecutionOutcome} {result : TurnResult}
  {engine : ReplayEngine} {manager : HistoryManager} {ending : List Event}

/-- The changes of a turn's request are those of its pending actions. -/
theorem kvChanges_of_turned (turned : Turned env item result engine outcome manager ending) :
    kvChanges (turnRequest env item outcome).historyDelta = engine.pendingChanges :=
  (reads_kvChange.turned turned).trans (turned.projected (projects_kvChange _ _))

/-- Preparing messages decides on nothing, and keeps the snapshot. -/
theorem prepCompletions_kept (engine : ReplayEngine) (messages : List WorkItem) :
    (engine.prepCompletions messages).pendingActions = engine.pendingActions ∧
      (engine.prepCompletions messages).kvSnapshot = engine.kvSnapshot := by
  unfold ReplayEngine.prepCompletions
  induction messages generalizing engine with
  | nil => exact ⟨rfl, rfl⟩
  | cons message rest ih =>
    obtain ⟨pending, snapshot⟩ := ih (engine.prepCompletion message)
    rw [List.foldl_cons, pending, snapshot]
    rcases engine.prepCompletion_cases message with ⟨_, unchanged⟩ | ⟨_, _, _, _, pushed⟩
    · rw [unchanged]
      exact ⟨rfl, rfl⟩
    · rw [pushed]
      exact ⟨rfl, rfl⟩

theorem pendingActions_preparedEngine (env : RuntimeEnv semver) (item : OrchestrationItem) (manager : HistoryManager) :
    (preparedEngine env item manager).pendingActions = [] := (prepCompletions_kept _ _).1

theorem snapshotTable_preparedEngine (env : RuntimeEnv semver) (item : OrchestrationItem) (manager : HistoryManager) :
    (preparedEngine env item manager).snapshotTable = fun key => (item.kvSnapshot.lookup key).map (·.value) := by
  have kept : (preparedEngine env item manager).kvSnapshot = item.kvSnapshot := (prepCompletions_kept _ _).2
  unfold ReplayEngine.snapshotTable
  rw [kept]

/-- The changes of the history that a turn replays are those of its execution's base. -/
theorem kvChanges_preparedEngine (opens : Opening env item manager.delta)
    (history : manager.history = baseHistory item (turnExecution item).1) :
    kvChanges ((preparedEngine env item manager).baselineHistory ++ (preparedEngine env item manager).historyDelta) =
      kvChanges (baseHistory item (turnExecution item).1) := by
  have silent : kvChanges (preparedEngine env item manager).historyDelta = [] :=
    reading_preparedEngine reads_kvChange env item manager
  have opening : kvChanges manager.delta = [] := reads_kvChange.of_opening opens
  rw [kvChanges_append, silent, List.append_nil, preparedEngine, Execution.prepareTurn_baselineHistory,
    HistoryManager.fullHistory, kvChanges_append, opening, List.append_nil, history]

end Dispatcher

/-! ## What is stored -/

/-- After an acknowledgement its changes are read. -/
theorem Provider.KvMaterialized.view {store after : Store} {instanceId : String} {request : AckRequest semver}
    (materialized : KvMaterialized instanceId request store after) :
    after.kvView instanceId = applyAll (kvChanges request.historyDelta) (store.kvView instanceId) := by
  rcases ends : endsExecution request with _ | _
  · have base : after.kvBase instanceId = store.kvBase instanceId := by
      unfold Store.kvBase
      rw [materialized.keptKvStore ends]
    rw [Store.kvView, base, materialized.recordedKv ends, view_recordAll]
    rfl
  · obtain ⟨overlay, base⟩ := materialized.mergedKv ends
    rw [Store.kvView, overlay, base, view_unwritten]

/-- What is read of an instance is what its current execution made of the stored values; nothing waits to be
stored of an execution that ended, or of an instance without a row. -/
structure KvCurrent (store : Store) (instanceId : String) : Prop where
  agrees : store.kvView instanceId = applyAll (kvChanges (store.currentEvents instanceId)) (store.kvBase instanceId)
  settled : Ended store instanceId → store.kvOverlay instanceId = unwritten
  unrecorded : store.instances instanceId = none → store.kvOverlay instanceId = unwritten

namespace KvCurrent

variable {world after : World semver} {label : Step semver} {delivery : Delivery semver} {request : AckRequest semver}
  {instanceId : String} {conditions : Conditions semver}

theorem initial (instanceId : String) : KvCurrent {} instanceId where
  agrees := rfl
  settled _ := rfl
  unrecorded _ := rfl

theorem congr {before after : Store} (current : KvCurrent before instanceId)
    (row : after.instances instanceId = before.instances instanceId)
    (recorded : ∀ executionId, after.recorded instanceId executionId = before.recorded instanceId executionId)
    (stored : after.kvStore instanceId = before.kvStore instanceId)
    (written : after.kvDelta instanceId = before.kvDelta instanceId) : KvCurrent after instanceId := by
  have events := currentEvents_congr row recorded
  have base : after.kvBase instanceId = before.kvBase instanceId := by
    unfold Store.kvBase
    rw [stored]
  have overlay : after.kvOverlay instanceId = before.kvOverlay instanceId := by
    unfold Store.kvOverlay
    rw [written]
  constructor
  · rw [Store.kvView, base, overlay, events]
    exact current.agrees
  · rw [overlay, Ended, events]
    exact current.settled
  · rw [overlay, row]
    exact current.unrecorded

/-- The events of the execution of a commit change what was read before into what is read after it. -/
theorem view_of_commits (current : KvCurrent world.store instanceId) (succession : Succession world)
    (lifecycle : Lifecycle world) (provenance : Provenance world) (coherent : Coherent world)
    (pending : Pending conditions world) (batches : HoldsBatches world)
    (commits : Commits world label delivery request instanceId after) :
    applyAll (kvChanges (after.store.recorded instanceId request.executionId)) (world.store.kvBase instanceId) =
      applyAll (kvChanges request.historyDelta) (world.store.kvView instanceId) := by
  have placed := lifecycle.placed provenance coherent pending commits
  have extended := lifecycle.extended provenance coherent pending commits
  have opens := succession.ended_of_next coherent pending batches commits
  obtain ⟨config, now, token, fault, _, holds, committed, _⟩ := commits.holds
  obtain ⟨rfl, describes⟩ := coherent.of_locked committed.locked holds
  have own := describes.executionId_eq
  cases extended with
  | unchanged readable same empty nothing kept =>
    rw [kept, nothing, same, own]
    exact current.agrees.symm
  | corrupted info row currentId message unreadable failed delta numbered kind =>
    have silent : kvChanges request.historyDelta = [] := by
      rw [delta, kvChanges, List.filterMap_cons, kvChange_of_isFailed kind]
      rfl
    have appended := committed.appended
    rw [delta] at appended
    have same := filterMap_insertSilent (·.kind.kvChange) (kvChange_of_isFailed kind) appended
    rw [silent, applyAll_nil, current.agrees]
    unfold Store.currentEvents Store.recorded kvChanges
    rw [same, currentId, currentExecution_of_row row]
  | continued readable same base appended =>
    rw [appended, ← base, kvChanges_append, applyAll_append, current.agrees, same, own]
    rfl
  | opened readable continues next info row currentId named base appended =>
    have ended := opens (by omega)
    have overlay := current.settled ended
    rw [appended, Store.kvView, overlay, view_unwritten]

/-- A commit that leaves its execution ended, but does not end it, changes nothing of an execution that had ended. -/
theorem quiet_of_ended (lifecycle : Lifecycle world) (provenance : Provenance world)
    (coherent : Coherent world) (pending : Pending conditions world)
    (commits : Commits world label delivery request instanceId after) (goesOn : endsExecution request = false)
    (ended : (after.store.recorded instanceId request.executionId).any (·.isTerminal)) :
    Ended world.store instanceId ∧ kvChanges request.historyDelta = [] := by
  have extended := lifecycle.extended provenance coherent pending commits
  have quiet := reads_kvChange.silent_of_ended lifecycle provenance coherent pending commits
  obtain ⟨config, now, token, fault, _, holds, committed, _⟩ := commits.holds
  obtain ⟨fallback, failed, phase⟩ := commits.phase
  obtain ⟨rfl, describes⟩ := coherent.of_locked committed.locked holds
  have own := describes.executionId_eq
  have source := (pending token delivery request fallback failed holds phase).source
  have history := (provenance.items token delivery holds).ordered
  have running : request.historyDelta.any (·.isTerminal) = false := by
    refine Bool.eq_false_of_not_eq_true fun ends => ?_
    rw [source.endsExecution history ends] at goesOn
    cases goesOn
  cases extended with
  | unchanged readable same empty nothing kept =>
    rw [kept, same, own] at ended
    exact ⟨ended, by rw [nothing]; rfl⟩
  | corrupted info row currentId message unreadable failed delta numbered kind =>
    have ends : failed.isTerminal := isTerminal_of_isFailed kind
    rw [delta, List.any_cons, ends] at running
    cases running
  | continued readable same base appended =>
    rw [appended, List.any_append, running, Bool.or_false, ← base] at ended
    have silent := quiet ended
    rw [same, own] at ended
    exact ⟨ended, silent⟩
  | opened readable continues next info row currentId named base appended =>
    rw [appended, running] at ended
    cases ended

theorem of_commits (current : KvCurrent world.store instanceId) (succession : Succession world)
    (lifecycle : Lifecycle world) (later : Lifecycle after) (provenance : Provenance world) (coherent : Coherent world)
    (pending : Pending conditions world) (batches : HoldsBatches world)
    (commits : Commits world label delivery request instanceId after) : KvCurrent after.store instanceId := by
  have read := current.view_of_commits succession lifecycle provenance coherent pending batches commits
  have placed := lifecycle.placed provenance coherent pending commits
  obtain ⟨config, now, token, fault, _, holds, committed, _⟩ := commits.holds
  have materialized := committed.toKvMaterialized
  have view := materialized.view
  have events : after.store.currentEvents instanceId = after.store.recorded instanceId request.executionId := by
    rw [Store.currentEvents, placed.currentExecution committed]
  rw [← read, ← events] at view
  rcases ends : endsExecution request with _ | _
  · have base : after.store.kvBase instanceId = world.store.kvBase instanceId := by
      unfold Store.kvBase
      rw [materialized.keptKvStore ends]
    have overlay := materialized.recordedKv ends
    refine ⟨by rw [view, base], fun ended => ?_, fun noRow => ?_⟩
    · rw [Ended, events] at ended
      obtain ⟨endedBefore, silent⟩ :=
        quiet_of_ended lifecycle provenance coherent pending commits ends ended
      rw [overlay, silent, current.settled endedBefore]
      rfl
    · obtain ⟨before, silent⟩ :=
        reads_kvChange.silent_of_noRow lifecycle later provenance coherent pending commits noRow
      change kvChanges request.historyDelta = [] at silent
      rw [overlay, silent, current.unrecorded before]
      rfl
  · obtain ⟨overlay, base⟩ := materialized.mergedKv ends
    refine ⟨?_, fun _ => overlay, fun _ => overlay⟩
    have stored : after.store.kvBase instanceId = after.store.kvView instanceId := by
      rw [Store.kvView, overlay, view_unwritten]
    rw [stored, view, applyAll_idem]

theorem step (current : ∀ instanceId, KvCurrent world.store instanceId) (succession : Succession world)
    (lifecycle : Lifecycle world) (later : Lifecycle after) (provenance : Provenance world) (coherent : Coherent world)
    (pending : Pending conditions world) (batches : HoldsBatches world) (effect : Effect world label after)
    (target : String) : KvCurrent after.store target := by
  rcases effect.records with same | ⟨delivery, request, acked, commits⟩
  · refine (current target).congr (by rw [same.instances]) (fun executionId => ?_) (by rw [same.kvStore]) (by rw [same.kvDelta])
    rw [Store.recorded, Store.recorded, same.history]
  · by_cases own : target = acked
    · subst own
      exact (current target).of_commits succession lifecycle later provenance coherent pending batches commits
    · obtain ⟨config, now, token, fault, _, holds, committed, _⟩ := commits.holds
      exact (current target).congr (committed.otherInstances target own)
        (fun executionId => recorded_other committed fun same => own (Prod.mk.inj same).1)
        (committed.foreignKvStore target own) (committed.foreignKvDelta target own)

theorem of_reachable {guard : World semver → Step semver → Prop} (reached : (system semver).Reachable guard world)
    (instanceId : String) : KvCurrent world.store instanceId := by
  have everywhere := reachable_unconditionally reached
  clear reached
  induction everywhere generalizing instanceId with
  | initial start => exact start ▸ initial instanceId
  | step reached allowed taken ih =>
    exact step ih (.of_reachable reached) (.of_reachable reached) (.of_reachable (.step reached allowed taken))
      (.of_reachable reached) (.of_reachable reached) (.of_reachable reached) (.of_reachable reached)
      (World.step_effect taken) instanceId

end KvCurrent

/-! ## What a holder was given -/

/-- The holder of a lock was given the stored values of its instance. -/
def HoldsSnapshots (world : World semver) : Prop :=
  ∀ token delivery lock, world.deliveries token = some delivery →
    world.store.instanceLocks.lookup delivery.item.instanceId = some lock → lock.lockToken = token →
    delivery.item.historyError = none → delivery.item.kvSnapshot = world.store.kvStore delivery.item.instanceId

namespace HoldsSnapshots

variable {world after : World semver} {label : Step semver}

/-- The stored values of an instance whose lock stays are kept. -/
theorem kvStore_of_effect (effect : Effect world label after) {instanceId : String} {lock : InstanceLock}
    (found : after.store.instanceLocks.lookup instanceId = some lock) :
    after.store.kvStore instanceId = world.store.kvStore instanceId := by
  rcases effect.records with same | ⟨delivery, request, acked, commits⟩
  · rw [same.kvStore]
  · obtain ⟨config, now, token, fault, _, holds, committed, _⟩ := commits.holds
    refine committed.foreignKvStore instanceId fun own => ?_
    rw [own, committed.released] at found
    cases found

theorem step (snapshots : HoldsSnapshots world) (coherent : Coherent world) (effect : Effect world label after) :
    HoldsSnapshots after := by
  rintro _ delivery lock holds found rfl readable
  rw [kvStore_of_effect effect found]
  cases effect.deliveryStep holds with
  | fetched config filter now lockTimeoutMs unused phase candidate fetched =>
    rw [fetched.snapshot readable, lockedStore_of_unlocked candidate.unlocked]
  | same held =>
    rcases HoldsBatches.batch_of_effect effect coherent found with ⟨original, was, same, _⟩ | ⟨unused, _⟩
    · exact snapshots _ delivery original held was same readable
    · rw [unused] at held
      cases held
  | moved before held step kept =>
    rw [kept] at found readable ⊢
    rcases HoldsBatches.batch_of_effect effect coherent found with ⟨original, was, same, _⟩ | ⟨unused, _⟩
    · exact snapshots _ before original held was same readable
    · rw [unused] at held
      cases held

theorem of_reachable {guard : World semver → Step semver → Prop} (reached : (system semver).Reachable guard world) :
    HoldsSnapshots world := by
  induction reached with
  | initial start =>
    rw [start]
    exact fun _ _ _ holds => nomatch holds
  | step reached _ taken ih => exact ih.step (.of_reachable reached) (World.step_effect taken)

end HoldsSnapshots

/-! ## The map of a turn and the view of its instance -/

section Held

variable {guard : World semver → Step semver → Prop} {world after : World semver} {label : Step semver} {token : Nat}
  {delivery : Delivery semver} {instanceId : String} {env : RuntimeEnv semver} {version : semver.Version}
  {handler : OrchestrationHandler} {replay : Replay handler.State} {evaluated : ReplayEngine}
  {outcome : ExecutionOutcome}

/-- What is read of an instance is what the base of its holder's turn made of the snapshot. -/
theorem view_of_held (reached : (system semver).Reachable guard world)
    (holds : world.deliveries token = some delivery) (locked : world.store.lockedInstance token = some instanceId)
    (readable : delivery.item.historyError = none) :
    world.store.kvView instanceId = applyAll (kvChanges (baseHistory delivery.item (turnExecution delivery.item).1))
      fun key => (delivery.item.kvSnapshot.lookup key).map (·.value) := by
  have coherent : Coherent world := .of_reachable reached
  have lifecycle : Lifecycle world := .of_reachable reached
  obtain ⟨lock, found, rfl⟩ := lock_of_lockedInstance locked
  obtain ⟨rfl, describes⟩ := coherent.of_locked locked holds
  have current : KvCurrent world.store delivery.item.instanceId := .of_reachable reached _
  have snapshot := HoldsSnapshots.of_reachable reached _ delivery lock holds found rfl readable
  have base : (fun key => (delivery.item.kvSnapshot.lookup key).map (·.value)) =
      world.store.kvBase delivery.item.instanceId := by
    rw [snapshot]
    rfl
  rw [base]
  by_cases continues : (workitemReader delivery.item).isContinueAsNew
  · -- the next execution opens over one that ended
    obtain ⟨row, queued, item, own, _⟩ :=
      Succession.queued_of_continues coherent (.of_reachable reached) found holds continues
    have ended := (Succession.of_reachable reached).ended row queued item
    rw [own] at ended
    rw [turnExecution, if_pos continues, baseHistory_next, Store.kvView, current.settled ended, view_unwritten]
    rfl
  · rw [turnExecution, if_neg continues, baseHistory_self]
    have described := describes
    cases describes with
    | known info row currentId named versioned _ history =>
      rw [Store.recorded_of_readHistory history, current.agrees, Store.currentEvents, currentExecution_of_row row]
    | unreadable info row currentId named versioned failed =>
      rw [readable] at failed
      cases failed
    | recorded noRow | requested noRow =>
      rw [(lifecycle.describes_of_noRow described noRow).2.2, Store.kvView, current.unrecorded noRow, view_unwritten]
      rfl

/-- The changes of the history that a holder's turn replays make what is read of its instance. -/
theorem view_of_replayed (reached : (system semver).Reachable guard world)
    (holds : world.deliveries token = some delivery) (locked : world.store.lockedInstance token = some instanceId)
    (readable : delivery.item.historyError = none) (named : (workitemReader delivery.item).hasOrchestrationName) :
    applyAll (kvChanges ((preparedEngine env delivery.item (openedManager env delivery.item version)).baselineHistory ++
        (preparedEngine env delivery.item (openedManager env delivery.item version)).historyDelta))
      (preparedEngine env delivery.item (openedManager env delivery.item version)).snapshotTable =
        world.store.kvView instanceId := by
  obtain ⟨opening, opens, started⟩ := startIfNew_extends env delivery.item named version
  have delta : (openedManager env delivery.item version).delta = opening := by
    rw [openedManager, started.delta, turnExecution_delta, List.nil_append]
  have base : (turnExecution delivery.item).2.history = baseHistory delivery.item (turnExecution delivery.item).1 := by
    rw [← turnExecution_fullHistory, HistoryManager.fullHistory, turnExecution_delta, List.append_nil]
  have history : (openedManager env delivery.item version).history =
      baseHistory delivery.item (turnExecution delivery.item).1 := started.history.trans base
  rw [kvChanges_preparedEngine (delta ▸ opens) history, snapshotTable_preparedEngine,
    view_of_held reached holds locked readable]

/-- A turn that is committed decided on everything that its evaluation decided on. -/
theorem pendingChanges_of_evaluate {engine last : ReplayEngine} {result : TurnResult}
    {input orchestrationName orchestrationVersion : String} (evaluates : engine.evaluates)
    (evaluation : engine.evaluate handler input orchestrationName orchestrationVersion = (.ok replay, evaluated))
    (executed : engine.executeOrchestration handler input orchestrationName orchestrationVersion = (result, last)) :
    last.pendingChanges = evaluated.pendingChanges := by
  have concludes := ReplayEngine.executeOrchestration_concludes engine handler input orchestrationName orchestrationVersion
  rw [executed] at concludes
  have same : ∀ {outcome : Except TurnResult (Replay handler.State)} {after : ReplayEngine},
      engine.evaluate handler input orchestrationName orchestrationVersion = (outcome, after) → after = evaluated := by
    intro outcome after other
    rw [evaluation] at other
    exact (Prod.mk.inj other).2.symm
  cases concludes with
  | idle _ unevaluated =>
    rw [evaluates] at unevaluated
    cases unevaluated
  | failed _ _ _ other => exact congrArg ReplayEngine.pendingChanges (same other)
  | cancelled _ _ _ _ other => exact congrArg ReplayEngine.pendingChanges (same other)
  | continuesAsNew _ _ _ _ other => exact congrArg ReplayEngine.pendingChanges (same other)
  | mismatched _ _ _ _ other => exact congrArg ReplayEngine.pendingChanges (same other)
  | collected _ after _ _ _ other _ _ reconciled =>
    obtain ⟨_, _, _, _, _, collected⟩ := ReplayEngine.collected_of_ok reconciled
    have kept : last.pendingChanges = after.pendingChanges := congrArg (List.filterMap Action.kvChange) collected.pending
    rw [kept, same other]

/-- The map that a committed turn ended with is what is read after its acknowledgement. -/
theorem kvTable_of_acked (reached : (system semver).Reachable guard world)
    (holds : world.deliveries token = some delivery) (readable : delivery.item.historyError = none)
    (named : (workitemReader delivery.item).hasOrchestrationName)
    (resolved : resolveTurnHandler env.registry (workitemReader delivery.item).orchestrationName
      (workitemReader delivery.item).version = some (version, handler)) {now : Nat} {store : Store}
    (ran : turnOutcome env delivery.item = some outcome)
    (committed : Acked world.store now token instanceId (turnRequest env delivery.item outcome) store)
    (evaluates : (preparedEngine env delivery.item (openedManager env delivery.item version)).evaluates)
    (evaluation : (preparedEngine env delivery.item (openedManager env delivery.item version)).evaluate handler
      (openedManager env delivery.item version).extractContext.1 (workitemReader delivery.item).orchestrationName
      (semver.render version) = (.ok replay, evaluated))
    (reads : (preparedEngine env delivery.item (openedManager env delivery.item version)).ReadsHistory handler
      (openedManager env delivery.item version).extractContext.1 (workitemReader delivery.item).orchestrationName
      (semver.render version)) : replay.ctx.kvTable = store.kvView instanceId := by
  rcases executed : (preparedEngine env delivery.item (openedManager env delivery.item version)).executeOrchestration
    handler (openedManager env delivery.item version).extractContext.1 (workitemReader delivery.item).orchestrationName
    (semver.render version) with ⟨result, last⟩
  obtain ⟨ending, turned⟩ := turned_of_resolved named resolved executed ran
  rw [ReplayEngine.kvTable_of_evaluate (pendingActions_preparedEngine ..) evaluation reads,
    view_of_replayed reached holds committed.locked readable named, committed.toKvMaterialized.view,
    kvChanges_of_turned turned, pendingChanges_of_evaluate evaluates evaluation executed]

/-- In every run, both ways to read an instance agree, storing what waits to be stored changes nothing that is read,
and every turn that reads its history comes to the map that is read, and ends with the one that is read after its
acknowledgement. -/
theorem kvViews_agree (reached : (system semver).Reachable guard world) :
    (∀ instanceId key, (getKvAllValues world.store instanceId).lookup key = getKvValue world.store instanceId key) ∧
      (∀ instanceId key,
        getKvValue (world.store.mergeKv instanceId) instanceId key = getKvValue world.store instanceId key) ∧
      ∀ token delivery instanceId env version handler, world.deliveries token = some delivery →
        world.store.lockedInstance token = some instanceId → delivery.item.historyError = none →
        (workitemReader delivery.item).hasOrchestrationName →
        resolveTurnHandler env.registry (workitemReader delivery.item).orchestrationName
          (workitemReader delivery.item).version = some (version, handler) →
        let engine := preparedEngine env delivery.item (openedManager env delivery.item version)
        let input := (openedManager env delivery.item version).extractContext.1
        let orchestrationName := (workitemReader delivery.item).orchestrationName
        engine.ReadsHistory handler input orchestrationName (semver.render version) →
          (∀ replay, engine.replayHistory handler input orchestrationName (semver.render version)
              (engine.baselineHistory ++ engine.historyDelta) = .ok replay →
            replay.Shows fun key => getKvValue world.store instanceId key) ∧
          ∀ outcome fallback failed config now fault after replay evaluated,
            turnOutcome env delivery.item = some outcome →
            delivery.phase = .acking (turnRequest env delivery.item outcome) fallback failed →
            world.step (.ack config now token fault) = some after →
            after.deliveries token = some { delivery with phase := .done } → engine.evaluates →
            engine.evaluate handler input orchestrationName (semver.render version) = (.ok replay, evaluated) →
            replay.ctx.kvTable = fun key => getKvValue after.store instanceId key := by
  refine ⟨fun instanceId key => ?_, fun instanceId key => ?_, ?_⟩
  · rw [lookup_getKvAllValues, getKvValue_eq]
  · rw [getKvValue_eq, getKvValue_eq, Store.kvView_mergeKv]
  intro token delivery instanceId env version handler holds locked readable named resolved engine input orchestrationName reads
  refine ⟨fun replay replayed => ?_, ?_⟩
  · have shows := ReplayEngine.shows_of_replayHistory replayed reads
    rw [view_of_replayed reached holds locked readable named] at shows
    simpa only [getKvValue_eq] using shows
  · intro outcome fallback failed config now fault after replay evaluated ran phase taken done evaluates evaluation
    cases World.step_effect taken with
    | ackFailed _ _ _ _ other request _ _ held _ error =>
      rw [World.setPhase, World.setDelivery_self] at done
      cases congrArg Delivery.phase (Option.some.inj done)
    | acked _ _ _ _ other request _ _ held decided own store committed =>
      rw [holds] at held
      cases held
      rw [phase] at decided
      cases decided
      have same := committed.locked
      rw [locked] at same
      cases same
      rw [kvTable_of_acked reached holds readable named resolved ran committed evaluates evaluation reads]
      funext key
      rw [getKvValue_eq]
      rfl

end Held

/-! A program that sets a key and waits, and may prune what is older than a second. -/

def pruningHandler : OrchestrationHandler where
  State := String ⊕ Nat
  invoke := .inl
  poll
    | .inl input => .call (.scheduleWait "go") fun token => .call (.setKvValue "k" "v") fun _ =>
        if input = "prune" then .call (.pruneKvValuesUpdatedBefore 1000) fun _ => .suspend (.inr token)
        else .suspend (.inr token)
    | .inr token => .call (.pollFuture token) fun _ => .suspend (.inr token)

def pruningEnv (now : Nat) : RuntimeEnv textSemver :=
  { registeredEnv fun name => if name = "pruning" then some pruningHandler else none with stamp := ⟨now, "1.0.0"⟩ }

/-- The first turn is taken at once, and the second one is fetched after two seconds. -/
def twoTurns (input : String) : List (Step textSemver) :=
  [.client 0 (.startOrchestration "i" "pruning" input none none none 1), .fetch {} none 0 1000 1 none,
    .decide 1 (pruningEnv 0), .ack {} 0 1 none, .client 2000 (.externalRaised "i" "go" "now"),
    .fetch {} none 2000 1000 2 none]

def secondEngine (item : OrchestrationItem) : ReplayEngine :=
  preparedEngine (pruningEnv 2000) item (openedManager (pruningEnv 2000) item versionOne)

/-- The history of the second turn, replayed. -/
def secondReplay (item : OrchestrationItem) : Except TurnResult (Replay pruningHandler.State) :=
  (secondEngine item).replayHistory pruningHandler
    (openedManager (pruningEnv 2000) item versionOne).extractContext.1 (workitemReader item).orchestrationName
    (textSemver.render versionOne) ((secondEngine item).baselineHistory ++ (secondEngine item).historyDelta)

/-- A turn that replays a set key that it does not prune comes to the view of its instance. -/
theorem kvViews_agree_keep : ∃ world delivery, World.run {} (twoTurns "keep") = some world ∧
    world.deliveries 2 = some delivery ∧ getKvValue world.store "i" "k" = some "v" ∧
      ∀ replay, secondReplay delivery.item = .ok replay → replay.Shows fun key => getKvValue world.store "i" key := by
  have ran : (World.run {} (twoTurns "keep")).any (fun world => (world.deliveries 2).any fun delivery =>
      world.store.lockedInstance 2 == some "i" && delivery.item.historyError.isNone &&
        (workitemReader delivery.item).orchestrationName == "pruning" && (workitemReader delivery.item).version == some "1.0.0" &&
        getKvValue world.store "i" "k" == some "v" &&
        decide ((secondEngine delivery.item).ReadsHistory pruningHandler
          (openedManager (pruningEnv 2000) delivery.item versionOne).extractContext.1 "pruning"
          (textSemver.render versionOne))) = true := by
    decide +kernel
  obtain ⟨world, reached, facts⟩ := (Option.any_eq_true _ _).mp ran
  obtain ⟨delivery, holds, facts⟩ := (Option.any_eq_true _ _).mp facts
  simp only [Bool.and_eq_true, beq_iff_eq, decide_eq_true_eq, Option.isNone_iff_eq_none] at facts
  obtain ⟨⟨⟨⟨⟨locked, readable⟩, name⟩, version⟩, value⟩, reads⟩ := facts
  refine ⟨world, delivery, reached, holds, value, fun replay replayed => ?_⟩
  have named : (workitemReader delivery.item).hasOrchestrationName := by
    rw [WorkItemReader.hasOrchestrationName, name]
    rfl
  have resolved : resolveTurnHandler (pruningEnv 2000).registry (workitemReader delivery.item).orchestrationName
      (workitemReader delivery.item).version = some (versionOne, pruningHandler) := by
    rw [name, version]
    rfl
  rw [← name] at reads
  exact ((kvViews_agree (World.reachable_of_run (.initial rfl) reached)).2.2 2 delivery "i" (pruningEnv 2000) versionOne
    pruningHandler holds locked readable named resolved reads).1 replay replayed

/-- What a turn pruned is not pruned when it is replayed later: the program sees a key that nobody else reads. -/
theorem pruned_disagree : ∃ world delivery replay, World.run {} (twoTurns "prune") = some world ∧
    world.deliveries 2 = some delivery ∧ secondReplay delivery.item = .ok replay ∧
      replay.ctx.kvTable "k" = some "v" ∧ getKvValue world.store "i" "k" = none ∧
      ¬ replay.Shows fun key => getKvValue world.store "i" key := by
  have ran : (World.run {} (twoTurns "prune")).any (fun world => (world.deliveries 2).any fun delivery =>
      getKvValue world.store "i" "k" == none && (secondReplay delivery.item).toOption.any fun replay =>
        replay.emittedActions.isEmpty && replay.ctx.kvTable "k" == some "v") = true := by
    decide +kernel
  obtain ⟨world, reached, facts⟩ := (Option.any_eq_true _ _).mp ran
  obtain ⟨delivery, holds, facts⟩ := (Option.any_eq_true _ _).mp facts
  simp only [Bool.and_eq_true, beq_iff_eq] at facts
  obtain ⟨cleared, facts⟩ := facts
  obtain ⟨replay, replayed, facts⟩ := (Option.any_eq_true _ _).mp facts
  simp only [Bool.and_eq_true, beq_iff_eq, List.isEmpty_iff] at facts
  obtain ⟨nothing, value⟩ := facts
  refine ⟨world, delivery, replay, reached, holds, ?_, value, cleared, fun shows => ?_⟩
  · cases result : secondReplay delivery.item with
    | error failure =>
      rw [result] at replayed
      cases replayed
    | ok other =>
      rw [result] at replayed
      cases replayed
      rfl
  · have map := congrFun shows.map "k"
    rw [nothing, value] at map
    change some "v" = getKvValue world.store "i" "k" at map
    rw [cleared] at map
    cases map

end Duroxide
