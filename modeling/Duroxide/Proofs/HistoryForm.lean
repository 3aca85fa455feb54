import Duroxide.Proofs.Lifecycle
import Duroxide.Proofs.VersionPinning

/-! # The form of a history

The history of an execution begins with its start event under the first id and ascends, and whatever
the holder of a lock wants appended is numbered above it. Two things break this: the failure commit
after a failed acknowledgement is numbered by what was fetched, so in place of the first turn of an
execution it becomes its first event; and the failure of a corrupted history has a fixed id.
-/

namespace Duroxide

open Provider Dispatcher

variable {semver : Semver}

/-! ## Executions that begin with their start -/

/-- Events that begin with a start event, if there are any. -/
def Begun (events : List Event) : Prop := ∀ first ∈ events.head?, first.kind.isStarted

theorem Begun.of_append {base delta : List Event} (begun : Begun base) (opens : base = [] → Begun delta) :
    Begun (base ++ delta) := by
  cases base with
  | nil => exact opens rfl
  | cons first rest => exact begun

/-- A failure commit after a turn that continues the execution it was fetched with. -/
def ContinuesTurn (item : OrchestrationItem) : Prop :=
  item.history ≠ [] ∧ (workitemReader item).isContinueAsNew = false

/-- The sentinel id of a corrupted history is above all recorded ones. -/
def Clear (store : Store) (item : OrchestrationItem) (request : AckRequest semver) : Prop :=
  item.historyError.isSome → ∀ event ∈ store.recorded item.instanceId request.executionId,
    event.eventId < CORRUPTED_HISTORY_EVENT_ID

/-- What holds of the beginnings of executions if failure commits continue their executions. -/
structure Formed (world : World semver) : Prop where
  begun : ∀ instanceId executionId, Begun (world.store.recorded instanceId executionId)
  keyless : ∀ instanceId, world.store.instances instanceId = none → world.store.kvStore instanceId = ∅
  held : ∀ token delivery, world.deliveries token = some delivery → delivery.item.historyError = none →
    delivery.item.history = [] → delivery.item.kvSnapshot = ∅

/-- Nothing exceeds no limit. -/
theorem limitError_nil : limitError [] ∅ = none := rfl

/-- Over an execution without events, a request records nothing, or begins with the start. -/
theorem Asks.Source.begun {conditions : Conditions semver} {item : OrchestrationItem} {attemptCount : Nat}
    {request : AckRequest semver} (source : Asks.Source conditions item attemptCount request)
    (turns : ∀ item, conditions.failTurn item → ContinuesTurn item) (history : Ascending item.history)
    (readable : item.historyError = none) (new : baseHistory item request.executionId = [])
    (named : (workitemReader item).hasOrchestrationName ∨ item.kvSnapshot = ∅) : Begun request.historyDelta := by
  cases source with
  | answer env allowed supported _ fallback answered =>
    rcases answered.begins history readable new with nothing | ⟨first, rest, delta, begins⟩
    · rw [nothing]
      exact fun _ none => nomatch none
    · rw [delta]
      intro head same
      cases same
      refine begins.started.resolve_right fun ⟨_, unnamed, limit⟩ => ?_
      rcases named with named | empty
      · rw [unnamed] at named
        cases named
      · rw [empty, limitError_nil] at limit
        cases limit
  | failure env allowed supported turned _ outcome ran running error =>
    obtain ⟨occupied, sameExecution⟩ := turns item turned
    rw [failureCommit, turnExecution, sameExecution, if_neg Bool.false_ne_true, baseHistory_self] at new
    exact absurd new occupied

/-- An answer over no events and no keys that does not name its instance ends nothing. -/
theorem Dispatcher.Answered.status_of_anonymous {env : RuntimeEnv semver} {item : OrchestrationItem} {attemptCount : Nat}
    {request : AckRequest semver} {fallback : Option (ProviderError → AckRequest semver)}
    (answered : Answered env item attemptCount request fallback) (empty : item.history = [])
    (keyless : item.kvSnapshot = ∅) (anonymous : identityOf request.metadata = none) : request.metadata.status = none := by
  have history : Ascending item.history := empty ▸ .nil
  have fresh : ∀ executionId, baseHistory item executionId = [] := by
    intro executionId
    rw [baseHistory, empty, ite_self]
  cases id answered with
  | corrupted | poisoned =>
    rw [failOrchestrationAsPoison_identity] at anonymous
    cases anonymous
  | ended => rfl
  | turned inTime readable running outcome ran =>
    obtain ⟨opening, body, ending, limit, trailing, events⟩ := requestEvents ran history
    cases ran_of_turnOutcome ran with
    | unnamed noName =>
      have nothing : limitError (turnExecution item).2.delta item.kvSnapshot = none := by
        rw [turnExecution_delta, keyless, limitError_nil]
      change (enforceLimits env item (turnExecution item).1 { historyMgr := (turnExecution item).2 }).2.status = none
      have limited := events.limited
      generalize enforceLimits env item (turnExecution item).1 { historyMgr := (turnExecution item).2 } = enforced at limited
      cases limited with
      | within => rw [turnExecution_delta, computeExecutionMetadata]
      | exceeded message some => exact nomatch nothing.symm.trans some
    | executed named version handler resolved =>
      have opens := events.turn.opens
      have delta := events.delta
      cases opens with
      | continues recorded => exact absurd (fresh _) recorded
      | unnamed noName => exact absurd named (by rw [noName]; exact Bool.false_ne_true)
      | opens _ _ opened =>
        have identified := answered.identity history ⟨_, by rw [delta]; exact List.mem_cons_self, rfl⟩
        rw [anonymous] at identified
        cases identified

namespace Formed

variable {conditions : Conditions semver} {world after : World semver} {label : Step semver}
  {delivery : Delivery semver} {request : AckRequest semver} {instanceId : String}

theorem initial : Formed ({} : World semver) where
  begun _ _ _ none := nomatch none
  keyless _ _ := rfl
  held _ _ holds := nomatch holds

/-- Whatever is recorded begins with a start event, which makes a row of the instance. -/
theorem recorded_of_noRow (formed : Formed world) (lifecycle : Lifecycle world)
    (noRow : world.store.instances instanceId = none) (executionId : Nat) :
    world.store.recorded instanceId executionId = [] := by
  have begun := formed.begun instanceId executionId
  have unstarted := lifecycle.notRecorded noRow executionId
  rcases recorded : world.store.recorded instanceId executionId with _ | ⟨first, rest⟩
  · rfl
  · rw [recorded] at begun unstarted
    have started := begun first rfl
    rw [unstarted first List.mem_cons_self] at started
    cases started

/-- A commit keeps the beginning of its execution. -/
theorem begun_of_commits (formed : Formed world) (turns : ∀ item, conditions.failTurn item → ContinuesTurn item)
    (lifecycle : Lifecycle world) (provenance : Provenance world) (coherent : Coherent world)
    (pending : Pending conditions world) (commits : Commits world label delivery request instanceId after)
    (clear : Clear world.store delivery.item request) :
    Begun (after.store.recorded delivery.item.instanceId request.executionId) := by
  have extended := lifecycle.extended provenance coherent pending commits
  obtain ⟨config, now, token, fault, _, holds, committed, _⟩ := commits.holds
  obtain ⟨fallback, failed, phase⟩ := commits.phase
  obtain ⟨rfl, describes⟩ := coherent.of_locked committed.locked holds
  have source := (pending token delivery request fallback failed holds phase).source
  have history := (provenance.items token delivery holds).ordered
  have begun := formed.begun delivery.item.instanceId request.executionId
  cases extended with
  | unchanged readable same _ nothing kept =>
    rw [kept]
    exact begun
  | corrupted info row current message unreadable failure delta numbered kind =>
    have below := clear (unreadable ▸ rfl)
    have ascending : Ascending (world.store.recorded delivery.item.instanceId request.executionId ++ [failure]) := by
      refine ascending_append_singleton (provenance.ascending _ _) fun earlier member => ?_
      rw [numbered]
      exact below earlier member
    have appended := committed.appended
    rw [delta] at appended
    rw [recorded_of_appended provenance appended ascending]
    refine begun.of_append fun empty => ?_
    rw [current] at empty
    exact absurd empty ((lifecycle.records _).current info row)
  | continued readable same base appended =>
    rw [appended, ← base]
    refine begun.of_append fun empty => source.begun turns history readable ?_ (.inr ?_)
    · rw [same, baseHistory_self, ← base, empty]
    · exact formed.held token delivery holds readable (base ▸ empty)
  | opened readable continues next info row current named base appended =>
    rw [appended]
    exact source.begun turns history readable (by rw [next, baseHistory_next]) (.inl named)

/-- An instance that gets no row gets no key-value rows either. -/
theorem keyless_of_commits (formed : Formed world) (turns : ∀ item, conditions.failTurn item → ContinuesTurn item)
    (lifecycle : Lifecycle world) (provenance : Provenance world) (coherent : Coherent world)
    (pending : Pending conditions world) (commits : Commits world label delivery request instanceId after)
    (noRow : after.store.instances instanceId = none) : after.store.kvStore instanceId = ∅ := by
  obtain ⟨config, now, token, fault, _, holds, committed, _⟩ := commits.holds
  obtain ⟨fallback, failed, phase⟩ := commits.phase
  obtain ⟨rfl, describes⟩ := coherent.of_locked committed.locked holds
  have based := lifecycle.based describes pending holds phase
  have source := (pending token delivery request fallback failed holds phase).source
  have history := (provenance.items token delivery holds).ordered
  have bumped := currentExecutionId_of_acked committed
  rw [noRow, Option.map_none] at bumped
  have before : world.store.instances delivery.item.instanceId = none := by
    rcases row : world.store.instances delivery.item.instanceId with _ | info
    · rfl
    · rw [row] at bumped
      cases bumped
  have anonymous : identityOf request.metadata = none := by
    rw [before] at bumped
    dsimp only at bumped
    split_ifs at bumped with named
    simpa using named
  have empty : delivery.item.historyError = none ∧ delivery.item.history = [] := by
    cases based with
    | corrupted info row => exact nomatch before.symm.trans row
    | opened readable continues next info row => exact nomatch before.symm.trans row
    | requested readable same _ first empty => exact ⟨readable, empty⟩
    | continued readable same base => exact ⟨readable, base ▸ formed.recorded_of_noRow lifecycle before _⟩
  have status : request.metadata.status = none := by
    cases source with
    | answer env allowed supported _ fallback answered =>
      exact answered.status_of_anonymous empty.2 (formed.held token delivery holds empty.1 empty.2) anonymous
    | failure env allowed supported turned => exact absurd empty.2 (turns _ turned).1
  rw [committed.keptKvStore (by rw [endsExecution, status]; rfl)]
  exact formed.keyless _ before

/-- One step keeps the beginnings of executions. -/
theorem step (formed : Formed world) (turns : ∀ item, conditions.failTurn item → ContinuesTurn item)
    (clear : ∀ store item request, conditions.commit store item request → Clear store item request)
    (lifecycle : Lifecycle world) (provenance : Provenance world) (coherent : Coherent world)
    (pending : Pending conditions world) (allowed : conditions.guard world label) (effect : Effect world label after) :
    Formed after where
  begun target executionId := by
    rcases effect.records with same | ⟨delivery, request, instanceId, commits⟩
    · rw [Store.recorded, same.history]
      exact formed.begun target executionId
    · obtain ⟨rfl, condition⟩ := commits.allowed coherent allowed
      by_cases own : (target, executionId) = (delivery.item.instanceId, request.executionId)
      · cases own
        exact formed.begun_of_commits turns lifecycle provenance coherent pending commits (clear _ _ _ condition)
      · obtain ⟨config, now, token, fault, _, holds, committed, _⟩ := commits.holds
        rw [recorded_other committed own]
        exact formed.begun target executionId
  keyless target noRow := by
    rcases effect.records with same | ⟨delivery, request, instanceId, commits⟩
    · rw [same.kvStore]
      exact formed.keyless target (by rwa [← same.instances])
    · by_cases own : target = instanceId
      · subst own
        exact formed.keyless_of_commits turns lifecycle provenance coherent pending commits noRow
      · obtain ⟨config, now, token, fault, _, holds, committed, _⟩ := commits.holds
        rw [committed.foreignKvStore target own]
        exact formed.keyless target (by rwa [← committed.otherInstances target own])
  held token delivery held readable empty := by
    cases effect.deliveryStep held with
    | same holds => exact formed.held token delivery holds readable empty
    | moved before holds step kept =>
      rw [kept] at readable empty ⊢
      exact formed.held token before holds readable empty
    | fetched config filter now lockTimeoutMs unused phase candidate found =>
      have records := SameRecords.lockedStore world.store now lockTimeoutMs token delivery.item.instanceId
      rw [found.snapshot readable, records.kvStore]
      refine formed.keyless _ ?_
      cases found.describes with
      | requested noRow => rwa [← records.instances]
      | unreadable info row current named versioned failed =>
        rw [readable] at failed
        cases failed
      | known info row current named versioned readable history =>
        rw [records.instances] at row
        rw [records.readHistory, empty] at history
        exact absurd (Store.recorded_of_readHistory history).symm ((lifecycle.records _).current info row)
      | recorded noRow first readable history started =>
        rw [empty] at started
        cases started

end Formed

/-! ## Well-formed histories -/

namespace HistoryForm

open VersionPinning

/-- Every history is a list of events, begins with its start event under the first id, and ascends. -/
structure WellFormed (store : Store) : Prop where
  rows : ∀ instanceId executionId,
    (store.history instanceId executionId).Holds (store.recorded instanceId executionId)
  begins : ∀ instanceId executionId, ∀ first ∈ (store.recorded instanceId executionId).head?,
    first.kind.isStarted ∧ first.eventId = INITIAL_EVENT_ID
  ascending : ∀ instanceId executionId, Ascending (store.recorded instanceId executionId)

/-- The events of a request ascend above all stored ones, so no key refuses them. -/
structure Appendable (store : Store) (instanceId : String) (request : AckRequest semver) : Prop where
  above : ∀ stored ∈ store.recorded instanceId request.executionId, ∀ event ∈ request.historyDelta,
    stored.eventId < event.eventId
  ascending : Ascending request.historyDelta
  accepted : (insertEvents (store.history instanceId request.executionId) request.historyDelta).isSome

/-- Whatever the holder of its instance's lock asks for by this token can be appended. -/
def AppendsAbove (world : World semver) (now token : Nat) : Prop :=
  ∀ delivery request fallback failed, world.deliveries token = some delivery →
    delivery.phase = .acking request fallback failed → world.store.holdsLock now delivery.item.instanceId token →
    Appendable world.store delivery.item.instanceId request

/-- The histories of a state are well formed, and whatever the holders of locks ask for can be appended. -/
def AlwaysWellFormed (world : World semver) : Prop :=
  WellFormed world.store ∧ ∀ now token, AppendsAbove world now token

/-- Failures are committed only after turns that continue an execution, and corrupted histories are short. -/
def conditions (semver : Semver) : Conditions semver where
  failTurn := ContinuesTurn
  commit := Clear

theorem formed_of_reachable {conditions : Conditions semver}
    (turns : ∀ item, conditions.failTurn item → ContinuesTurn item)
    (clear : ∀ store item request, conditions.commit store item request → Clear store item request)
    {world : World semver} (reached : (system semver).Reachable conditions.guard world) : Formed world := by
  induction reached with
  | initial start => exact start ▸ .initial
  | step reached allowed taken ih =>
    exact ih.step turns clear (.of_reachable reached) (.of_reachable reached) (.of_reachable reached)
      (.of_reachable reached) allowed (World.step_effect taken)

theorem wellFormed_of_formed {world : World semver} (formed : Formed world) (provenance : Provenance world) :
    WellFormed world.store where
  rows := provenance.holds
  ascending := provenance.ascending
  begins instanceId executionId first head := by
    have started := formed.begun instanceId executionId first head
    have origin := (provenance.historyOrigin instanceId executionId).origin first (List.mem_of_mem_head? head)
    exact ⟨started, origin.eventId_of_isStarted started⟩

/-- Events in order behind the stored ones can be appended. -/
theorem appendable_of_ascending {world : World semver} (provenance : Provenance world) {instanceId : String}
    {request : AckRequest semver}
    (ascending : Ascending (world.store.recorded instanceId request.executionId ++ request.historyDelta)) :
    Appendable world.store instanceId request := by
  obtain ⟨_, ordered, above⟩ := List.pairwise_append.mp ascending
  obtain ⟨after, inserted, _⟩ := ExecutionHistory.insertEvents_above (provenance.holds _ _) ascending
  exact ⟨above, ordered, inserted ▸ rfl⟩

theorem appendsAbove_of_formed {conditions : Conditions semver} {world : World semver} (formed : Formed world)
    (lifecycle : Lifecycle world) (provenance : Provenance world) (coherent : Coherent world)
    (pending : Pending conditions world) {now token : Nat}
    (clear : ∀ delivery request fallback failed, world.deliveries token = some delivery →
      delivery.phase = .acking request fallback failed → world.store.holdsLock now delivery.item.instanceId token →
      Clear world.store delivery.item request) : AppendsAbove world now token := by
  intro delivery request fallback failed holds phase locked
  refine appendable_of_ascending provenance ?_
  have source := (pending token delivery request fallback failed holds phase).source
  have history := (provenance.items token delivery holds).ordered
  cases lifecycle.based (coherent.of_holdsLock holds locked) pending holds phase with
  | corrupted info row current message unreadable failure delta numbered kind =>
    rw [delta]
    refine ascending_append_singleton (provenance.ascending _ _) fun earlier member => ?_
    rw [numbered]
    exact clear delivery request fallback failed holds phase locked (unreadable ▸ rfl) earlier member
  | continued readable same base =>
    have ascending := source.ascending readable history
    rwa [same, baseHistory_self, ← base] at ascending
  | opened readable continues next info row current named base =>
    have ascending := source.ascending readable history
    rwa [next, baseHistory_next, List.nil_append, ← List.nil_append request.historyDelta, ← base] at ascending
  | requested readable same noRow first empty =>
    have ascending := source.ascending readable history
    have fresh := formed.recorded_of_noRow lifecycle noRow request.executionId
    rwa [same, baseHistory_self, empty, List.nil_append, ← List.nil_append request.historyDelta, ← fresh] at ascending

/-- In every run whose failure commits come after turns that continue an execution, and whose corrupted
histories are short, histories are well formed and whatever a holder may commit can be appended. -/
theorem wellFormed_of_guarded {world : World semver} (reached : (system semver).Reachable (conditions semver).guard world) :
    WellFormed world.store ∧ ∀ config now token fault,
      (conditions semver).guard world (.ack config now token fault) → AppendsAbove world now token := by
  have formed := formed_of_reachable (fun _ => id) (fun _ _ _ => id) reached
  have provenance := Provenance.of_reachable reached
  refine ⟨wellFormed_of_formed formed provenance, fun config now token fault allowed => ?_⟩
  exact appendsAbove_of_formed formed (.of_reachable reached) provenance (.of_reachable reached) (.of_reachable reached)
    fun delivery request fallback failed holds phase locked =>
      allowed delivery request fallback failed holds phase locked

/-- A test that implies the conditions: nothing unreadable is committed, and no failure opens an execution. -/
def passes (world : World semver) : Step semver → Bool
  | .failTurn token => (world.deliveries token).all fun delivery =>
      !delivery.item.history.isEmpty && !(workitemReader delivery.item).isContinueAsNew
  | .ack _ _ token _ => (world.deliveries token).all fun delivery => delivery.item.historyError.isNone
  | _ => true

theorem guard_of_passes (world : World semver) (label : Step semver) (tested : passes world label) :
    (conditions semver).guard world label := by
  cases label with
  | decide => exact fun _ _ => trivial
  | failTurn token =>
    intro delivery holds
    simp only [passes, holds, Option.all_some, Bool.and_eq_true, Bool.not_eq_true'] at tested
    exact ⟨by simpa using tested.1, tested.2⟩
  | ack config now token fault =>
    intro delivery request fallback failed holds phase locked unreadable
    simp only [passes, holds, Option.all_some, Option.isNone_iff_eq_none] at tested
    rw [tested] at unreadable
    cases unreadable
  | client | fetch | abandon | renew | fetchWork | renewWork | completeWork | dropWork | abandonWork => trivial

/-! An acknowledgement of a first turn fails, and the dispatcher commits the failure of the orchestration. -/

def diskError : SqlxError := { message := "disk I/O error" }

/-- The second turn's acknowledgement fails instead. -/
def secondTurnFails : List (Step textSemver) :=
  startedOnce ++ [.client 0 (.externalRaised "i" "go" ""), .fetch {} none 0 1000 2 none, .decide 2 oldEnv,
    .ack {} 0 2 (some (0, diskError)), .failTurn 2]

theorem wellFormed_of_secondTurnFails : ∃ world, World.runTested passes {} secondTurnFails = some world ∧
    WellFormed world.store ∧ AppendsAbove world 0 2 := by
  have ran : (World.runTested passes {} secondTurnFails).any (fun world => passes world (.ack {} 0 2 none)) = true := by
    decide +kernel
  obtain ⟨world, reached, passed⟩ := (Option.any_eq_true _ _).mp ran
  obtain ⟨formed, appends⟩ := wellFormed_of_guarded
    (World.reachable_of_runTested guard_of_passes (.initial rfl) reached)
  exact ⟨world, reached, formed, appends {} 0 2 none (guard_of_passes world _ passed)⟩

def firstTurnFails : List (Step textSemver) :=
  [startRequest, .fetch {} none 0 1000 1 none, .decide 1 oldEnv, .ack {} 0 1 (some (0, diskError)), .failTurn 1,
    .ack {} 0 1 none]

/-- The failure is the first event of the execution, which has no start event. -/
theorem firstTurnFails_notWellFormed :
    ∃ world, World.run {} firstTurnFails = some world ∧ ¬ AlwaysWellFormed world := by
  have observed : (World.run {} firstTurnFails).any (fun world =>
      (world.store.recorded "i" 1).head?.any (!·.kind.isStarted)) = true := by
    decide +kernel
  obtain ⟨world, ran, head⟩ := (Option.any_eq_true _ _).mp observed
  obtain ⟨first, member, unstarted⟩ := (Option.any_eq_true _ _).mp head
  refine ⟨world, ran, fun formed => ?_⟩
  rw [(formed.1.begins "i" 1 first member).1] at unstarted
  cases unstarted

end HistoryForm

end Duroxide
