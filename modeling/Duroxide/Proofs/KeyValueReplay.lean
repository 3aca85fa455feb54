import Duroxide.Proofs.KeyValueTables
import Duroxide.Proofs.Matching

/-! # The key-value map of a replay

Orchestration code changes its in-memory map with the calls that emit key-value actions, so the map is the
snapshot after the changes of everything emitted. If every key-value event of the history took an action, the
map after a replay is the snapshot after the changes of the history and of the actions that wait.
-/

namespace Duroxide

open Lib.Overlay

/-- The change of the key-value map that an action stands for. -/
def Action.kvChange : Action → Option (Change String String)
  | .setKeyValue key value _ => some (.set key value)
  | .clearKeyValue key => some (.clear key)
  | .clearKeyValues => some .clearAll
  | _ => none

/-- The changes that emitted actions stand for, in order. -/
def emittedChanges (emitted : List (Nat × Action)) : List (Change String String) := emitted.filterMap (·.2.kvChange)

@[simp] theorem emittedChanges_append (first second : List (Nat × Action)) :
    emittedChanges (first ++ second) = emittedChanges first ++ emittedChanges second := List.filterMap_append

/-- An action that matches an event stands for the change that the event records. -/
theorem kvChange_of_matches {action : Action} {kind : EventKind} (matched : actionMatchesEventKind action kind) :
    action.kvChange = kind.kvChange := by
  cases action <;> cases kind <;> first | rfl | cases matched | skip
  all_goals
    simp only [actionMatchesEventKind, Bool.and_eq_true, beq_iff_eq] at matched
    simp [Action.kvChange, EventKind.kvChange, matched]

namespace CtxInner

variable {ctx after : CtxInner} {base : Table String String}

/-- The in-memory map. -/
def kvTable (ctx : CtxInner) : Table String String := fun key => ctx.kvState.lookup key

/-- The in-memory map is a table after the changes of the actions that were emitted since. -/
def Reflects (base : Table String String) (ctx : CtxInner) : Prop :=
  ctx.kvTable = applyAll (emittedChanges ctx.emittedActions) base

/-- A context that changed neither its map nor what it emitted. -/
theorem Reflects.congr (reflects : Reflects base ctx) (map : after.kvState = ctx.kvState)
    (emitted : emittedChanges after.emittedActions = emittedChanges ctx.emittedActions) : Reflects base after := by
  have same : after.kvTable = ctx.kvTable := funext fun key => congrArg (·.lookup key) map
  rw [Reflects, same, emitted]
  exact reflects

/-- An action that is emitted together with its change. -/
theorem Reflects.emit (reflects : Reflects base ctx) {token : Nat} {action : Action}
    (emitted : after.emittedActions = ctx.emittedActions ++ [(token, action)])
    (map : after.kvTable = (action.kvChange.map fun change => change.apply ctx.kvTable).getD ctx.kvTable) :
    Reflects base after := by
  rw [Reflects, map, emitted, emittedChanges_append, applyAll_append, ← reflects]
  cases kind : action.kvChange with
  | none => simp [emittedChanges, kind]
  | some change => simp [emittedChanges, kind, applyAll]

theorem Reflects.setKvValue (reflects : Reflects base ctx) (key value : String) :
    Reflects base (ctx.setKvValue key value) := by
  refine reflects.emit rfl (funext fun other => ?_)
  change (ctx.kvState.insert key value).lookup other = Function.update ctx.kvTable key (some value) other
  by_cases same : other = key
  · rw [same, AList.lookup_insert, Function.update_self]
  · rw [AList.lookup_insert_ne same, Function.update_of_ne same]
    rfl

theorem Reflects.clearKvValue (reflects : Reflects base ctx) (key : String) :
    Reflects base (ctx.clearKvValue key) := by
  refine reflects.emit rfl (funext fun other => ?_)
  change (ctx.kvState.erase key).lookup other = Function.update ctx.kvTable key none other
  by_cases same : other = key
  · rw [same, AList.lookup_erase, Function.update_self]
  · rw [AList.lookup_erase_ne same, Function.update_of_ne same]
    rfl

theorem Reflects.clearAllKvValues (reflects : Reflects base ctx) : Reflects base ctx.clearAllKvValues :=
  reflects.emit rfl rfl

theorem Reflects.clearKvValues (reflects : Reflects base ctx) (keys : List String) :
    Reflects base (keys.foldl CtxInner.clearKvValue ctx) := by
  induction keys generalizing ctx with
  | nil => exact reflects
  | cons key rest ih => exact ih (reflects.clearKvValue key)

/-- Every context call keeps the map in step with what it emits. -/
theorem Reflects.perform (reflects : Reflects base ctx) {request : CtxCall} {reply : request.Reply}
    (performed : ctx.perform request = .ok (reply, after)) : Reflects base after := by
  cases request with
  | scheduleActivity | scheduleTimer | scheduleWait | dequeueEvent | scheduleSubOrchestration | scheduleOrchestration
  | continueAsNew | setCustomStatus | resetCustomStatus =>
    cases performed
    exact reflects.emit rfl rfl
  | withTag token tag =>
    -- a tag changes no key-value action
    obtain ⟨retag, rfl, retagged⟩ := withTag_frame performed
    refine reflects.congr rfl ?_
    rw [emittedChanges, List.filterMap_map]
    refine List.filterMap_congr fun emitted _ => ?_
    rcases retagged emitted with same | ⟨id, name, input, sessionId, untagged, rfl, same⟩
    · rw [Function.comp_apply, same]
    · rw [Function.comp_apply, same]
      rfl
  | pollFuture token =>
    obtain ⟨futures, queue, rfl, _⟩ := perform_pollFuture performed
    exact reflects.congr rfl rfl
  | dropFuture token =>
    obtain ⟨futures, tokens, kinds, same, _⟩ := dropFuture_frame ctx token
    cases performed
    rw [same]
    exact reflects.congr rfl rfl
  | getCustomStatus | getKvValue | getKvLength =>
    cases performed
    exact reflects
  | setKvValue key value =>
    cases performed
    exact reflects.setKvValue key value
  | clearKvValue key =>
    cases performed
    exact reflects.clearKvValue key
  | clearAllKvValues =>
    cases performed
    exact reflects.clearAllKvValues
  | pruneKvValuesUpdatedBefore updatedBeforeMs =>
    cases performed
    exact reflects.clearKvValues _

/-- A poll of the program keeps the map in step with what it emits. -/
theorem Reflects.run {State : Type} (script : Script State) (reflects : Reflects base ctx) :
    Reflects base (script.run ctx).2 := by
  induction script generalizing ctx with
  | suspend | finish | panic => exact reflects
  | call request next ih =>
    unfold Script.run
    rcases performed : ctx.perform request with message | ⟨reply, after⟩
    · exact reflects
    · exact ih reply (reflects.perform performed)

/-- The engine does not touch the map, nor what the program emitted. -/
theorem observe_kvState (ctx : CtxInner) (event : Event) :
    (ctx.observe event).kvState = ctx.kvState ∧ (ctx.observe event).emittedActions = ctx.emittedActions := by
  obtain ⟨results, external, queue, status, same⟩ := observe_frame ctx event
  rw [same]
  exact ⟨rfl, rfl⟩

theorem bindSchedule_kvState (ctx : CtxInner) (token : Nat) (event : Event) :
    (ctx.bindSchedule token event).kvState = ctx.kvState ∧
      (ctx.bindSchedule token event).emittedActions = ctx.emittedActions := by
  obtain ⟨external, queue, children, same⟩ := bindSchedule_frame ctx token event
  rw [same]
  exact ⟨rfl, rfl⟩

theorem markDroppedQueueWaits_kvState (ctx : CtxInner) :
    (ReplayEngine.markDroppedQueueWaits ctx).kvState = ctx.kvState ∧
      (ReplayEngine.markDroppedQueueWaits ctx).emittedActions = ctx.emittedActions := by
  obtain ⟨queue, marked⟩ := markDroppedQueueWaits_frame ctx
  rw [marked]
  exact ⟨rfl, rfl⟩

end CtxInner

namespace Replay

variable {State : Type} {poll : State → Script State} {replay after : Replay State} {event : Event}
  {table : Table String String}

/-- Between two events the program's map is a table after the changes of the actions that wait. -/
structure Shows (replay : Replay State) (table : Table String String) : Prop where
  drained : replay.ctx.emittedActions = []
  map : replay.ctx.kvTable = applyAll (emittedChanges replay.emittedActions) table

theorem Shows.congr (showing : Shows replay table) (emitted : after.ctx.emittedActions = replay.ctx.emittedActions)
    (map : after.ctx.kvState = replay.ctx.kvState) {changed : Table String String}
    (same : applyAll (emittedChanges after.emittedActions) changed =
      applyAll (emittedChanges replay.emittedActions) table) : Shows after changed where
  drained := emitted.trans showing.drained
  map := by
    have kept : after.ctx.kvTable = replay.ctx.kvTable := funext fun key => congrArg (·.lookup key) map
    rw [kept, showing.map, same]

theorem Shows.polled (showing : Shows replay table) (polled : replay.pollOrchestrationFuture poll = .ok after) :
    Shows after table := by
  have before : replay.ctx.Reflects (applyAll (emittedChanges replay.emittedActions) table) := by
    rw [CtxInner.Reflects, showing.drained]
    exact showing.map
  have reflects := before.run (poll replay.fut)
  obtain ⟨result, ctx, fut, output, ran, rfl, _⟩ := pollOrchestrationFuture_spec polled
  rw [ran] at reflects
  refine ⟨rfl, ?_⟩
  rw [emittedChanges_append, applyAll_append]
  exact reflects

theorem Shows.pollIfNeeded (showing : Shows replay table) (ran : replay.pollIfNeeded poll = .ok after) :
    Shows after table := by
  rcases pollIfNeeded_spec ran with ⟨_, rfl⟩ | ⟨polled, mustPoll, _, taken, rfl, _⟩
  · exact showing
  · have next := showing.polled taken
    exact ⟨next.drained, next.map⟩

/-- An event that takes the action it records is a change of the table. -/
theorem Shows.apply (showing : Shows replay table) (applied : replay.applyHistoryEvent event = .ok after)
    (reads : replay.taken event = none → event.kind.kvChange = none) :
    Shows after (applyAll (kvChanges [event]) table) := by
  obtain ⟨applies, _, _⟩ := applyHistoryEvent_spec applied
  have takes := taken_of_applies applies
  have same : applyAll (emittedChanges after.emittedActions) (applyAll (kvChanges [event]) table) =
      applyAll (emittedChanges replay.emittedActions) table := by
    rw [takes, emittedChanges_append, applyAll_append]
    congr 2
    rcases took : replay.taken event with _ | ⟨token, action⟩
    · simp [kvChanges, emittedChanges, reads took]
    · simp [kvChanges, emittedChanges, List.filterMap_cons, kvChange_of_matches (matches_of_taken applies took)]
  cases applies with
  | bound token action schedules waiting matched ctx =>
    obtain ⟨map, emitted⟩ := replay.ctx.bindSchedule_kvState token event
    exact showing.congr (by rw [ctx, emitted]) (by rw [ctx, map]) same
  | consumed token action forgets waiting matched ctx => exact showing.congr (by rw [ctx]) (by rw [ctx]) same
  | skipped forgets nothing kept => exact showing.congr (by rw [kept]) (by rw [kept]) same
  | observed noSchedule remembered kept ctx =>
    obtain ⟨map, emitted⟩ := replay.ctx.observe_kvState event
    exact showing.congr (by rw [ctx, emitted]) (by rw [ctx, map]) same

/-- Every event of a history that records a change takes an action of the program. -/
def ReadsChanges (poll : State → Script State) (history : List Event) (replay : Replay State) : Prop :=
  ∀ reading ∈ replay.readings poll history, reading.2 = none → reading.1.kind.kvChange = none

instance (poll : State → Script State) (history : List Event) (replay : Replay State) :
    Decidable (ReadsChanges poll history replay) := by
  unfold ReadsChanges
  infer_instance

/-- After a history that was read, the program's map is the table after the changes of the history. -/
theorem Shows.applyHistory {history : List Event} (showing : Shows replay table)
    (applied : replay.applyHistory poll history = .ok after) (reads : replay.ReadsChanges poll history) :
    Shows after (applyAll (kvChanges history) table) := by
  induction history generalizing replay table with
  | nil =>
    cases applied
    exact showing
  | cons event rest ih =>
    obtain ⟨polled, ran, continued⟩ := ok_of_bind applied
    have before := showing.pollIfNeeded ran
    unfold ReadsChanges readings at reads
    rw [ran] at reads
    dsimp only at reads
    split_ifs at continued reads with finished
    · cases continued
      have silent : kvChanges (event :: rest) = [] :=
        List.filterMap_eq_nil_iff.mpr fun other member => reads _ (List.mem_map_of_mem member) rfl
      rw [silent]
      exact before
    · obtain ⟨next, read, later⟩ := ok_of_bind continued
      rw [read] at reads
      dsimp only at reads
      have first := before.apply read (reads _ List.mem_cons_self)
      have whole := ih first later fun reading member => reads reading (List.mem_cons_of_mem _ member)
      rw [← applyAll_append, ← kvChanges_append] at whole
      exact whole

end Replay

namespace ReplayEngine

variable {engine result : ReplayEngine} {handler : OrchestrationHandler} {input orchestrationName orchestrationVersion : String}
  {history : List Event} {replay : Replay handler.State}

/-- The snapshot that the provider handed out. -/
def snapshotTable (engine : ReplayEngine) : Table String String := fun key => (engine.kvSnapshot.lookup key).map (·.value)

theorem shows_firstReplay :
    (engine.firstReplay handler input orchestrationName orchestrationVersion history).Shows engine.snapshotTable where
  drained := rfl
  map := funext fun key => Lib.KeyedTable.lookup_toAList_map engine.kvSnapshot (·.value) key

/-- The history is read by the program that replays it. -/
def ReadsHistory (engine : ReplayEngine) (handler : OrchestrationHandler) (input orchestrationName
    orchestrationVersion : String) : Prop :=
  (engine.firstReplay handler input orchestrationName orchestrationVersion
    (engine.baselineHistory ++ engine.historyDelta)).ReadsChanges handler.poll (engine.baselineHistory ++ engine.historyDelta)

instance : Decidable (engine.ReadsHistory handler input orchestrationName orchestrationVersion) := by
  unfold ReadsHistory
  infer_instance

/-- When the history is used up, the program's map is the snapshot after the changes of the history, and of the
actions that the program emitted beyond it. -/
theorem shows_of_replayHistory
    (replayed : engine.replayHistory handler input orchestrationName orchestrationVersion
      (engine.baselineHistory ++ engine.historyDelta) = .ok replay)
    (reads : engine.ReadsHistory handler input orchestrationName orchestrationVersion) :
    replay.Shows (applyAll (kvChanges (engine.baselineHistory ++ engine.historyDelta)) engine.snapshotTable) := by
  obtain ⟨applied, ran, last⟩ := ok_of_bind replayed
  have showing := shows_firstReplay.applyHistory ran reads
  split_ifs at last
  · exact showing.polled last
  · cases last
    exact showing

/-! ## Beyond the history -/

/-- The changes of the actions that a turn has decided on. -/
def pendingChanges (engine : ReplayEngine) : List (Change String String) := engine.pendingActions.filterMap (·.kvChange)

theorem updateActionEventId_kvChange (action : Action) (eventId : Nat) :
    (updateActionEventId action eventId).kvChange = action.kvChange := by
  cases action <;> rfl

theorem convertEmittedAction_kv (engine : ReplayEngine) (ctx : CtxInner) (emitted : Nat × Action) :
    (engine.convertEmittedAction ctx emitted).2.kvState = ctx.kvState ∧
      (engine.convertEmittedAction ctx emitted).2.emittedActions = ctx.emittedActions ∧
      (engine.convertEmittedAction ctx emitted).1.pendingChanges = engine.pendingChanges ++ emittedChanges [emitted] := by
  obtain ⟨token, action⟩ := emitted
  refine ⟨?_, ?_, ?_⟩
  · unfold convertEmittedAction
    dsimp only
    split <;> rfl
  · unfold convertEmittedAction
    dsimp only
    split <;> rfl
  · change (engine.pendingActions ++ [updateActionEventId action engine.nextEventId]).filterMap _ = _
    rw [List.filterMap_append]
    simp [pendingChanges, emittedChanges, List.filterMap_cons, updateActionEventId_kvChange]

theorem convertEmittedActions_kv (engine : ReplayEngine) (ctx : CtxInner) (actions : List (Nat × Action)) :
    (engine.convertEmittedActions ctx actions).2.kvState = ctx.kvState ∧
      (engine.convertEmittedActions ctx actions).2.emittedActions = ctx.emittedActions ∧
      (engine.convertEmittedActions ctx actions).1.pendingChanges = engine.pendingChanges ++ emittedChanges actions := by
  unfold convertEmittedActions
  induction actions generalizing engine ctx with
  | nil => exact ⟨rfl, rfl, (List.append_nil _).symm⟩
  | cons emitted rest ih =>
    obtain ⟨map, drained, changes⟩ := engine.convertEmittedAction_kv ctx emitted
    obtain ⟨mapRest, drainedRest, changesRest⟩ :=
      ih (engine.convertEmittedAction ctx emitted).1 (engine.convertEmittedAction ctx emitted).2
    refine ⟨mapRest.trans map, drainedRest.trans drained, changesRest.trans ?_⟩
    rw [changes, List.append_assoc, ← emittedChanges_append]
    rfl

variable {State : Type} {poll : State → Script State} {live last : Replay State} {table : Table String String}

/-- The actions that wait become pending, and the map stays as it is. -/
theorem shows_of_converted (showing : live.Shows (applyAll engine.pendingChanges table)) {ctx : CtxInner}
    (map : ctx.kvState = live.ctx.kvState) (drained : ctx.emittedActions = live.ctx.emittedActions) :
    Replay.Shows { live with ctx := (engine.convertEmittedActions ctx live.emittedActions).2, emittedActions := [] }
      (applyAll (engine.convertEmittedActions ctx live.emittedActions).1.pendingChanges table) := by
  obtain ⟨kept, empty, changes⟩ := engine.convertEmittedActions_kv ctx live.emittedActions
  refine showing.congr (empty.trans drained) (kept.trans map) ?_
  rw [changes, applyAll_append]
  rfl

theorem shows_of_runQuiescenceLoop {remaining : Nat} (showing : live.Shows (applyAll engine.pendingChanges table))
    (nothing : live.emittedActions = [])
    (ran : engine.runQuiescenceLoop poll remaining live = (.ok last, result)) :
    last.ctx.kvTable = applyAll result.pendingChanges table := by
  induction remaining generalizing engine live with
  | zero => cases ran
  | succ remaining ih =>
    unfold runQuiescenceLoop at ran
    split at ran
    · cases ran
      rw [showing.map, nothing]
      rfl
    split at ran
    · cases ran
    rename_i polled taken
    have same : ({ live with emittedActions := [] } : Replay State) = live := by rw [← nothing]
    rw [same] at taken
    have next := shows_of_converted (showing.polled taken) rfl rfl
    dsimp only at ran
    split_ifs at ran
    · cases ran
    · cases ran
      exact next.map
    · exact ih next rfl ran

/-- After an evaluation that read its history, the program's map is the snapshot after the changes of the history
and of everything that the turn decided on. -/
theorem kvTable_of_evaluate (fresh : engine.pendingActions = [])
    (evaluated : engine.evaluate handler input orchestrationName orchestrationVersion = (.ok replay, result))
    (reads : engine.ReadsHistory handler input orchestrationName orchestrationVersion) :
    replay.ctx.kvTable = applyAll result.pendingChanges
      (applyAll (kvChanges (engine.baselineHistory ++ engine.historyDelta)) engine.snapshotTable) := by
  unfold evaluate at evaluated
  split at evaluated
  · cases evaluated
  rename_i replayed found
  have showing := shows_of_replayHistory found reads
  have none : engine.pendingChanges = [] := by rw [pendingChanges, fresh]; rfl
  obtain ⟨map, drained⟩ := replayed.ctx.markDroppedQueueWaits_kvState
  rw [← applyAll_nil (applyAll _ engine.snapshotTable), ← none] at showing
  exact shows_of_runQuiescenceLoop (shows_of_converted showing map drained) rfl evaluated

end ReplayEngine

end Duroxide
