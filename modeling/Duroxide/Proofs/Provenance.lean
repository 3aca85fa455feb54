import Duroxide.Proofs.Recording
import Duroxide.Proofs.Steps
import Duroxide.Proofs.WorkerCalls

/-! # The provenance of a history

Only an acknowledgement writes instances, executions and histories, and it writes what a dispatcher
decided. So every row of a reachable history holds an event with an origin, under its own event id.
-/

namespace Duroxide

open Provider

variable {semver : Semver}

/-! ## The tables that only an acknowledgement changes -/

/-- Two stores with the same instances, executions, histories and key-value rows. -/
structure SameRecords (before after : Store) : Prop where
  instances : after.instances = before.instances
  executions : after.executions = before.executions
  history : after.history = before.history
  kvStore : after.kvStore = before.kvStore
  kvDelta : after.kvDelta = before.kvDelta

namespace SameRecords

variable {before middle after : Store}

theorem refl (store : Store) : SameRecords store store := ⟨rfl, rfl, rfl, rfl, rfl⟩

theorem trans (first : SameRecords before middle) (second : SameRecords middle after) : SameRecords before after :=
  ⟨second.instances.trans first.instances, second.executions.trans first.executions,
    second.history.trans first.history, second.kvStore.trans first.kvStore, second.kvDelta.trans first.kvDelta⟩

theorem readHistory (same : SameRecords before after) (instanceId : String) (executionId : Nat) :
    after.readHistory instanceId executionId = before.readHistory instanceId executionId := by
  rw [Store.readHistory, Store.readHistory, same.history]

theorem lockedStore (store : Store) (now lockTimeoutMs token : Nat) (instanceId : String) :
    SameRecords store (Provider.lockedStore store now lockTimeoutMs token instanceId) := by
  obtain ⟨locks, queue, same⟩ := lockedStore_eq store now lockTimeoutMs token instanceId
  rw [same]
  exact ⟨rfl, rfl, rfl, rfl, rfl⟩

theorem abandonOrchestrationItem {now token : Nat} {delayMs : Option Nat} {ignoreAttempt : Bool}
    (released : Provider.abandonOrchestrationItem before now token delayMs ignoreAttempt = .ok after) :
    SameRecords before after := by
  unfold Provider.abandonOrchestrationItem at released
  split at released
  · cases released
  dsimp only at released
  split at released
  · cases released
    split_ifs
    · exact ⟨rfl, rfl, rfl, rfl, rfl⟩
    · exact ⟨rfl, rfl, rfl, rfl, rfl⟩
  · cases released
    split_ifs
    · exact ⟨rfl, rfl, rfl, rfl, rfl⟩
    · exact ⟨rfl, rfl, rfl, rfl, rfl⟩

theorem renewOrchestrationItemLock {now token extendMs : Nat}
    (extended : Provider.renewOrchestrationItemLock before now token extendMs = .ok after) :
    SameRecords before after := by
  unfold Provider.renewOrchestrationItemLock at extended
  dsimp only at extended
  split_ifs at extended
  cases extended
  exact ⟨rfl, rfl, rfl, rfl, rfl⟩

theorem ackWorkItem {now token : Nat} {completion : Option WorkItem}
    (acked : Provider.ackWorkItem before now token completion = .ok after) : SameRecords before after := by
  obtain ⟨row, sessions, _, rfl⟩ := ackWorkItem_spec acked
  cases completion with
  | none => exact ⟨rfl, rfl, rfl, rfl, rfl⟩
  | some completion => exact ⟨rfl, rfl, rfl, rfl, rfl⟩

end SameRecords

/-- A committed acknowledgement, as a step. -/
structure Commits (world : World semver) (label : Step semver) (delivery : Delivery semver)
    (request : AckRequest semver) (instanceId : String) (after : World semver) : Prop where
  holds : ∃ config now token fault, label = .ack config now token fault ∧
    world.deliveries token = some delivery ∧ Acked world.store now token instanceId request after.store ∧
    after.deliveries = Function.update world.deliveries token (some { delivery with phase := .done })
  phase : ∃ fallback failed, delivery.phase = .acking request fallback failed

/-- A step commits an acknowledgement or leaves instances, executions and histories alone. -/
theorem Effect.records {world after : World semver} {label : Step semver} (effect : Effect world label after) :
    SameRecords world.store after.store ∨
      ∃ delivery request instanceId, Commits world label delivery request instanceId after := by
  cases effect with
  | enqueued now item => exact .inl ⟨rfl, rfl, rfl, rfl, rfl⟩
  | fetchedNothing => exact .inl (.refl _)
  | fetched config filter now lockTimeoutMs token fault fresh item => exact .inl (.lockedStore _ _ _ _ _)
  | dropped config filter now lockTimeoutMs token fault fresh instanceId =>
    exact .inl ((SameRecords.lockedStore _ now lockTimeoutMs token instanceId).trans ⟨rfl, rfl, rfl, rfl, rfl⟩)
  | decided => exact .inl ⟨rfl, rfl, rfl, rfl, rfl⟩
  | ackFailed => exact .inl ⟨rfl, rfl, rfl, rfl, rfl⟩
  | acked config now token fault delivery request fallback failed holds phase instanceId after committed =>
    exact .inr ⟨delivery, request, instanceId, ⟨config, now, token, fault, rfl, holds, committed, rfl⟩, fallback,
      failed, phase⟩
  | turnFailed => exact .inl ⟨rfl, rfl, rfl, rfl, rfl⟩
  | abandonFailed => exact .inl ⟨rfl, rfl, rfl, rfl, rfl⟩
  | abandoned now token delivery delayMs ignoreAttempt holds phase store released =>
    exact .inl (.abandonOrchestrationItem released)
  | renewFailed => exact .inl (.refl _)
  | renewed now token extendMs store extended => exact .inl (.renewOrchestrationItemLock extended)
  | workFetched now lockTimeoutMs token session filter fresh workItem attemptCount store found =>
    obtain ⟨row, sessions, _, _, rfl⟩ := fetchWorkItem_spec found
    exact .inl ⟨rfl, rfl, rfl, rfl, rfl⟩
  | workRenewed now token extendMs held holds store extended =>
    obtain ⟨sessions, rfl⟩ := renewWorkItemLock_spec extended
    exact .inl ⟨rfl, rfl, rfl, rfl, rfl⟩
  | workCancelled => exact .inl ⟨rfl, rfl, rfl, rfl, rfl⟩
  | workAckFailed => exact .inl (.refl _)
  | workCompleted now token maxAttempts outcome held holds completion reported store acked =>
    exact .inl (.ackWorkItem acked)
  | workDropFailed => exact .inl (.refl _)
  | workDropped now token held holds cancelled store acked => exact .inl (.ackWorkItem acked)
  | workAbandonFailed => exact .inl (.refl _)
  | workAbandoned now token delayMs ignoreAttempt store released =>
    rw [abandonWorkItem_spec released]
    exact .inl ⟨rfl, rfl, rfl, rfl, rfl⟩

/-! ## Appending -/

/-- Inserting events adds their rows and nothing else. -/
theorem mem_insertEvents {history after : ExecutionHistory} {events : List Event}
    (inserted : insertEvents history events = some after) {row : HistoryRow} (member : row ∈ after.rows) :
    row ∈ history.rows ∨ ∃ event ∈ events, row = ⟨event.eventId, .ok event⟩ := by
  induction events generalizing history with
  | nil =>
    cases inserted
    exact .inl member
  | cons event rest ih =>
    obtain ⟨middle, first, later⟩ := Option.bind_eq_some_iff.mp inserted
    rcases ih later with old | ⟨other, otherMember, same⟩
    · unfold ExecutionHistory.insert at first
      split at first
      · rename_i rows firstRows
        cases first
        rcases ExecutionHistory.mem_of_insertRow firstRows old with rfl | older
        · exact .inr ⟨event, List.mem_cons_self, rfl⟩
        · exact .inl older
      · cases first
    · exact .inr ⟨other, List.mem_cons_of_mem event otherMember, same⟩

/-! ## Reachable histories -/

/-- A history row of the system: an event with an origin, under its own positive id. -/
inductive RowOrigin : HistoryRow → Prop
  | intro (event : Event) (numbered : event.eventId ≠ 0) (origin : Origin event) :
      RowOrigin ⟨event.eventId, .ok event⟩

/-- A history as a fetch reads it: ascending event ids, and every event with an origin. -/
structure HistoryOrigin (history : List Event) : Prop where
  ordered : history.Pairwise (·.eventId < ·.eventId)
  numbered : ∀ event ∈ history, event.eventId ≠ 0
  origin : ∀ event ∈ history, Origin event

theorem historyOrigin_nil : HistoryOrigin [] :=
  ⟨.nil, fun _ none => absurd none List.not_mem_nil, fun _ none => absurd none List.not_mem_nil⟩

/-- Only the first event of a history can be a start event. -/
theorem HistoryOrigin.startsOnce {first : Event} {rest : List Event} (history : HistoryOrigin (first :: rest)) :
    ∀ event ∈ rest, event.kind.isStarted = false := by
  intro event member
  by_contra started
  have atStart := (history.origin event (List.mem_cons_of_mem first member)).eventId_of_isStarted (by simpa using started)
  have above := (List.pairwise_cons.mp history.ordered).1 event member
  have positive := history.numbered first List.mem_cons_self
  rw [atStart, INITIAL_EVENT_ID] at above
  omega

/-- Decoding succeeds only on readable rows, and gives their events. -/
theorem decode_ok {describe : Nat → String → String} {position : Nat} {rows : List HistoryRow} {events : List Event}
    (decoded : ExecutionHistory.decode describe position rows = .ok events) :
    rows.map (·.event) = events.map Except.ok := by
  induction rows generalizing position events with
  | nil =>
    cases decoded
    rfl
  | cons row rest ih =>
    unfold ExecutionHistory.decode at decoded
    split at decoded
    · cases decoded
    rename_i event readable
    rcases later : ExecutionHistory.decode describe (position + 1) rest with error | tail
    · rw [later] at decoded
      cases decoded
    · rw [later] at decoded
      cases decoded
      simp only [List.map_cons, readable, ih later]

theorem readHistory_ok {store : Store} {instanceId : String} {executionId : Nat} {events : List Event}
    (read : store.readHistory instanceId executionId = .ok events) :
    (store.history instanceId executionId).rows.map (·.event) = events.map Except.ok := by
  unfold Store.readHistory at read
  split at read
  · rename_i decoded
    cases read
    exact decode_ok decoded
  · cases read

/-- Rows with an origin are read as a history with an origin. -/
theorem HistoryOrigin.of_rows {history : ExecutionHistory} {events : List Event}
    (rows : ∀ row ∈ history.rows, RowOrigin row) (read : history.rows.map (·.event) = events.map Except.ok) :
    HistoryOrigin events := by
  obtain rfl : events = history.rows.filterMap (·.event.toOption) := by
    have same := congrArg (List.filterMap Except.toOption) read
    simpa [List.filterMap_map, Function.comp_def, Except.toOption] using same.symm
  have own : ∀ row ∈ history.rows, ∀ event, row.event.toOption = some event →
      row.eventId = event.eventId ∧ event.eventId ≠ 0 ∧ Origin event := by
    intro row member event holds
    cases rows row member with
    | intro recorded numbered origin =>
      cases holds
      exact ⟨rfl, numbered, origin⟩
  have found : ∀ event ∈ history.rows.filterMap (·.event.toOption), event.eventId ≠ 0 ∧ Origin event := by
    intro event member
    obtain ⟨row, rowMember, holds⟩ := List.mem_filterMap.mp member
    exact (own row rowMember event holds).2
  refine ⟨?_, fun event member => (found event member).1, fun event member => (found event member).2⟩
  refine List.pairwise_filterMap.mpr (history.ordered.imp_of_mem ?_)
  intro row other member otherMember below event holds otherEvent otherHolds
  rw [← (own row member event holds).1, ← (own other otherMember otherEvent otherHolds).1]
  exact below

/-- Whatever an item says about its instance, its history has an origin. -/
theorem HistoryOrigin.of_describes {store : Store} {item : OrchestrationItem}
    (rows : ∀ instanceId executionId, ∀ row ∈ (store.history instanceId executionId).rows, RowOrigin row)
    (describes : Describes store item) : HistoryOrigin item.history := by
  cases describes with
  | known info row current named versioned readable history => exact .of_rows (rows _ _) (readHistory_ok history)
  | unreadable info row current named versioned failed empty => exact empty ▸ historyOrigin_nil
  | recorded noRow first readable history => exact .of_rows (rows _ _) (readHistory_ok history)
  | requested noRow first readable empty => exact empty ▸ historyOrigin_nil

structure Provenance (world : World semver) : Prop where
  rows : ∀ instanceId executionId, ∀ row ∈ (world.store.history instanceId executionId).rows, RowOrigin row
  requests : ∀ token delivery request fallback failed, world.deliveries token = some delivery →
    delivery.phase = .acking request fallback failed → Dispatcher.RequestOrigin request fallback
  items : ∀ token delivery, world.deliveries token = some delivery → HistoryOrigin delivery.item.history

namespace Provenance

variable {world after : World semver} {label : Step semver}

theorem initial : Provenance ({} : World semver) where
  rows _ _ _ member := absurd member List.not_mem_nil
  requests _ _ _ _ _ holds := nomatch holds
  items _ _ holds := nomatch holds

theorem phaseStep (provenance : Provenance world) {token : Nat} {delivery : Delivery semver}
    (holds : world.deliveries token = some delivery) {request : AckRequest semver}
    {fallback : Option (ProviderError → AckRequest semver)} {failed : Option ProviderError} {phase : TurnPhase semver}
    (moved : PhaseStep delivery phase) (acking : phase = .acking request fallback failed) :
    Dispatcher.RequestOrigin request fallback := by
  cases moved with
  | decided env =>
    rcases decision : Dispatcher.handleFetchedItem env delivery.item delivery.attemptCount with _ | ⟨request', fallback'⟩
    · rw [decision] at acking
      cases acking
    · rw [decision] at acking
      cases acking
      exact Dispatcher.handleFetchedItem_origin decision
  | ackFailed request' fallback' failed' before error =>
    cases acking
    exact provenance.requests token delivery _ _ _ holds before
  | turnFailed request' commit error before =>
    cases acking
    exact ⟨(provenance.requests token delivery _ _ _ holds before).fallback commit rfl error, nofun⟩
  | done => cases acking

theorem step (provenance : Provenance world) (effect : Effect world label after) : Provenance after where
  rows instanceId executionId row member := by
    rcases effect.records with same | ⟨delivery, request, acked, commits⟩
    · rw [same.history] at member
      exact provenance.rows instanceId executionId row member
    · obtain ⟨config, now, token, fault, rfl, holds, committed, _⟩ := commits.holds
      obtain ⟨fallback, failed, phase⟩ := commits.phase
      by_cases written : (instanceId, executionId) = (acked, request.executionId)
      · cases written
        rcases mem_insertEvents committed.appended member with old | ⟨event, appended, rfl⟩
        · exact provenance.rows _ _ row old
        · exact .intro event (committed.numbered event appended)
            ((provenance.requests token delivery _ _ _ holds phase).request event appended)
      · rw [committed.otherHistory instanceId executionId written] at member
        exact provenance.rows instanceId executionId row member
  requests token delivery request fallback failed held phase := by
    cases effect.deliveryStep held with
    | same holds => exact provenance.requests token delivery _ _ _ holds phase
    | fetched config filter now lockTimeoutMs unused fresh =>
      rw [fresh] at phase
      cases phase
    | moved before holds step => exact provenance.phaseStep holds step phase
  items token delivery held := by
    cases effect.deliveryStep held with
    | same holds => exact provenance.items token delivery holds
    | fetched config filter now lockTimeoutMs unused fresh candidate found =>
      refine .of_describes ?_ found.describes
      rw [(SameRecords.lockedStore world.store now lockTimeoutMs token delivery.item.instanceId).history]
      exact provenance.rows
    | moved before holds step kept =>
      rw [kept]
      exact provenance.items token before holds

/-- Every reachable history consists of events with an origin. -/
theorem of_reachable {guard : World semver → Step semver → Prop} (reached : (system semver).Reachable guard world) :
    Provenance world :=
  reached.invariant (fun _ start => start ▸ initial) fun _ _ _ provenance _ taken =>
    provenance.step (World.step_effect taken)

end Provenance

end Duroxide
