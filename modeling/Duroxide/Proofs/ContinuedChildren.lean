import Duroxide.Proofs.TerminalNotices

/-! # Children that continue as new

The start event of every execution of an instance names the parent that the first one names, and the
turn that ends the instance notifies that parent, as long as no turn of an instance with a parent opens
its next execution, whose start event names nobody, or exceeds a limit.
-/

namespace Duroxide.ContinuedChildren

open Provider Dispatcher TerminalNotices VersionPinning

variable {semver : Semver}

/-- A turn over an instance with a parent neither opens the next execution nor exceeds a limit. -/
def conditions (semver : Semver) : Conditions semver where
  decide env item attemptCount := ∀ outcome, Takes env item attemptCount outcome →
    ((workitemReader item).isContinueAsNew → linkOf item.history = none) ∧
      (limitError outcome.historyMgr.delta item.kvSnapshot ≠ none → turnLink item = none)

/-- Every start event of an instance names the parent that its first execution names. -/
def SameParent (store : Store) : Prop :=
  ∀ instanceId executionId, ∀ event ∈ store.recorded instanceId executionId, event.kind.isStarted →
    parentOfStarted event = linkOf (store.recorded instanceId INITIAL_EXECUTION_ID)

/-- Whoever holds the lock of an instance with a parent, and wants to record how a turn ended it, notifies
the parent once. -/
def TurnsNotify (world : World semver) : Prop :=
  ∀ token delivery request commit failed now parent parentId, world.deliveries token = some delivery →
    delivery.phase = .acking request (some commit) failed →
    world.store.holdsLock now delivery.item.instanceId token → firstLink world.store delivery.item = some (parent, parentId) →
    (∃ event ∈ request.historyDelta, event.kind.isCompleted ∨ event.kind.isFailed) → NotifiesOnce request parent parentId

/-- Instances with a parent have one execution. -/
def SingleExecution (store : Store) : Prop :=
  ∀ instanceId executionId, executionId ≠ INITIAL_EXECUTION_ID → store.recorded instanceId executionId ≠ [] →
    linkOf (store.recorded instanceId INITIAL_EXECUTION_ID) = none

section

variable {conditions : Conditions semver} {item : OrchestrationItem} {attemptCount : Nat} {request : AckRequest semver}
  {fallback : Option (ProviderError → AckRequest semver)}

/-- A request about the next execution comes from a turn. -/
theorem takes_of_next (asks : Asks conditions item attemptCount request fallback)
    (next : request.executionId = item.executionId + 1) :
    ∃ env outcome, conditions.decide env item attemptCount ∧ Takes env item attemptCount outcome := by
  have other : ∀ executionId, executionId = item.executionId → executionId ≠ item.executionId + 1 := by
    rintro _ rfl
    exact (Nat.succ_ne_self _).symm
  cases asks with
  | decided env allowed _ _ decision =>
    obtain ⟨supported, answered⟩ := answered_of_decided decision
    cases answered with
    | corrupted | poisoned => exact absurd next (other _ failOrchestrationAsPoison_executionId)
    | ended => exact absurd next (other _ rfl)
    | turned inTime readable running outcome ran => exact ⟨env, outcome, allowed, supported, inTime, readable, running, ran⟩
  | failed env allowed original commit decision turned error =>
    obtain ⟨supported, answered⟩ := answered_of_decided decision
    cases answered with
    | turned inTime readable running outcome ran => exact ⟨env, outcome, allowed, supported, inTime, readable, running, ran⟩

end

namespace SingleExecution

variable {world after : World semver} {label : Step semver} {delivery : Delivery semver} {request : AckRequest semver}
  {instanceId : String}

theorem initial : SingleExecution {} := fun _ _ _ occupied => absurd rfl occupied

/-- A commit about a later execution is about an instance without a parent. -/
theorem unlinked_of_later (single : SingleExecution world.store) (lifecycle : Lifecycle world) (coherent : Coherent world)
    (pending : Pending (conditions semver) world) (commits : Commits world label delivery request instanceId after)
    (later : request.executionId ≠ INITIAL_EXECUTION_ID) :
    linkOf (world.store.recorded instanceId INITIAL_EXECUTION_ID) = none := by
  obtain ⟨config, now, token, fault, _, holds, committed, _⟩ := commits.holds
  obtain ⟨fallback, failed, phase⟩ := commits.phase
  obtain ⟨rfl, describes⟩ := coherent.of_locked committed.locked holds
  have asks := pending token delivery request fallback failed holds phase
  have recorded : ∀ info, world.store.instances delivery.item.instanceId = some info →
      info.currentExecutionId ≠ INITIAL_EXECUTION_ID →
      linkOf (world.store.recorded delivery.item.instanceId INITIAL_EXECUTION_ID) = none := fun info row past =>
    single _ _ past ((lifecycle.records _).current info row)
  rcases asks.source.execution with same | ⟨next, continues⟩
  · cases describes with
    | known info row current | unreadable info row current => exact recorded info row (by rwa [← current, ← same])
    | recorded _ first | requested _ first => exact absurd (same.trans first) later
  · obtain ⟨env, outcome, allowed, takes⟩ := takes_of_next asks next
    have unlinked := (allowed outcome takes).1 continues
    cases describes with
    | known info row current named versioned _ history =>
      by_cases first : info.currentExecutionId = INITIAL_EXECUTION_ID
      · rw [Store.recorded_of_readHistory history, first] at unlinked
        exact unlinked
      · exact recorded info row first
    | unreadable info row current named versioned error =>
      rw [takes.readable] at error
      cases error
    | recorded noRow | requested noRow =>
      have known := (lifecycle.continuation holds continues).2
      rw [noRow] at known
      cases known

theorem step (single : SingleExecution world.store) (lifecycle : Lifecycle world) (provenance : Provenance world)
    (coherent : Coherent world) (pending : Pending (conditions semver) world) (effect : Effect world label after) :
    SingleExecution after.store := by
  intro target executionId later occupied
  rcases effect.records with same | ⟨delivery, request, instanceId, commits⟩
  · rw [Store.recorded, same.history] at occupied ⊢
    exact single target executionId later occupied
  obtain ⟨config, now, token, fault, _, holds, committed, _⟩ := id commits.holds
  by_cases own : target = instanceId
  swap
  · have other : ∀ execution, after.store.recorded target execution = world.store.recorded target execution :=
      fun execution => recorded_other committed fun same => own (Prod.ext_iff.mp same).1
    rw [other] at occupied ⊢
    exact single target executionId later occupied
  subst own
  by_cases first : request.executionId = INITIAL_EXECUTION_ID
  · -- the row of the instance is known by its later execution, so nothing that is added names a parent
    rw [recorded_other committed fun same => later ((Prod.ext_iff.mp same).2.trans first)] at occupied
    have before := single target executionId later occupied
    refine List.findSome?_eq_none_iff.mpr fun event member => ?_
    rw [← first] at member before
    rcases (mem_recorded_iff committed).mp member with old | new
    · exact List.findSome?_eq_none_iff.mp before event old
    · refine (ParentLinks.linked_of_commits lifecycle provenance coherent pending commits new).resolve_left ?_
      rintro ⟨noRow, _⟩
      exact occupied ((lifecycle.records target).absent noRow executionId later)
  · have kept : after.store.recorded target INITIAL_EXECUTION_ID = world.store.recorded target INITIAL_EXECUTION_ID :=
      recorded_other committed fun same => first (Prod.ext_iff.mp same).2.symm
    rw [kept]
    exact single.unlinked_of_later lifecycle coherent pending commits first

theorem of_reachable (reached : (system semver).Reachable (conditions semver).guard world) : SingleExecution world.store := by
  induction reached with
  | initial start => exact start ▸ initial
  | step reached _ taken ih =>
    exact ih.step (.of_reachable reached) (.of_reachable reached) (.of_reachable reached) (.of_reachable reached)
      (World.step_effect taken)

end SingleExecution

/-- A start event names the parent of its execution. -/
theorem parentOfStarted_of_started {events : List Event} (history : HistoryOrigin events) {event : Event}
    (member : event ∈ events) (started : event.kind.isStarted) : parentOfStarted event = linkOf events := by
  rcases events with _ | ⟨head, rest⟩
  · exact absurd member List.not_mem_nil
  · rcases List.mem_cons.mp member with rfl | later
    · exact history.linkOf_cons.symm
    · rw [history.startsOnce event later] at started
      cases started

theorem sameParent_of_single {store : Store} (single : SingleExecution store) (links : ParentLinks store)
    (histories : ∀ instanceId executionId, HistoryOrigin (store.recorded instanceId executionId)) : SameParent store := by
  intro instanceId executionId event member started
  by_cases first : executionId = INITIAL_EXECUTION_ID
  · rw [← first]
    exact parentOfStarted_of_started (histories _ _) member started
  · rw [links.unlinked instanceId executionId first event member,
      single instanceId executionId first (List.ne_nil_of_mem member)]

section

variable {world : World semver} {item : OrchestrationItem} {attemptCount : Nat} {parent : String} {parentId : Nat}

/-- An instance with a parent is in its first execution. -/
theorem first_of_linked (single : SingleExecution world.store) (known : Known world.store item)
    (readable : item.historyError = none) (link : firstLink world.store item = some (parent, parentId)) :
    item.executionId = INITIAL_EXECUTION_ID := by
  by_contra later
  rcases row : world.store.instances item.instanceId with _ | info
  · exact later (known.newborn row).1
  obtain ⟨same, occupied⟩ := known.read readable row
  have unlinked := List.findSome?_eq_none_iff.mp (single _ _ later (same ▸ occupied))
  obtain ⟨event, member, started⟩ := known.links.started _ info row
  have found : ((world.store.recorded item.instanceId INITIAL_EXECUTION_ID).find? (·.kind.isStarted)).isSome :=
    List.find?_isSome.mpr ⟨event, member, started⟩
  obtain ⟨first, starts⟩ := Option.isSome_iff_exists.mp found
  rw [firstLink, starts] at link
  change parentOfStarted first = _ at link
  rw [unlinked first (List.mem_of_find?_eq_some starts)] at link
  cases link

/-- A turn that may be taken and ends an instance with a parent notifies the parent. -/
theorem notifiesOnce_of_turn (single : SingleExecution world.store) (known : Known world.store item)
    {env : RuntimeEnv semver} (allowed : (conditions semver).decide env item attemptCount)
    (link : firstLink world.store item = some (parent, parentId)) {request : AckRequest semver}
    {commit : ProviderError → AckRequest semver}
    (decision : handleFetchedItem env item attemptCount = .ack request (some commit)) {event : Event}
    (member : event ∈ request.historyDelta) (ends : event.kind.isCompleted ∨ event.kind.isFailed) :
    NotifiesOnce request parent parentId := by
  refine (notifiesOnce_iff_of_known known link (.decided request _ decision event member ends)).mpr ?_
  obtain ⟨supported, answered⟩ := answered_of_decided decision
  cases answered with
  | turned inTime readable running outcome ran =>
    have first := first_of_linked single known readable link
    have same : (workitemReader item).isContinueAsNew = false := by
      refine Bool.eq_false_of_not_eq_true fun continues => ?_
      have unlinked := (allowed outcome ⟨supported, inTime, readable, running, ran⟩).1 continues
      have occupied : item.history ≠ [] := by
        rcases row : world.store.instances item.instanceId with _ | info
        · rw [(known.newborn row).2.2] at continues
          cases continues
        · exact (known.read readable row).2
      rw [known.linkOf_of_first readable first occupied, link] at unlinked
      cases unlinked
    refine ⟨rfl, readable, first, fun _ => same, fun _ other otherRan => ?_⟩
    by_contra exceeds
    have unlinked := (allowed other ⟨supported, inTime, readable, running, otherRan⟩).2 exceeds
    rw [known.turnLink_of_first readable first same, link] at unlinked
    cases unlinked

end

/-- In every run in which turns over instances with a parent neither open another execution nor exceed a
limit, all executions of an instance name one parent, and the turn that ends it notifies that parent. -/
theorem linked_of_guarded {world : World semver} (reached : (system semver).Reachable (conditions semver).guard world) :
    SameParent world.store ∧ TurnsNotify world := by
  have single := SingleExecution.of_reachable reached
  have pending := Pending.of_reachable reached
  refine ⟨sameParent_of_single single (.of_reachable reached) (Provenance.of_reachable reached).historyOrigin, ?_⟩
  rintro token delivery request commit failed now parent parentId holds phase locked link ⟨event, member, ends⟩
  generalize fallback : some commit = answer at phase
  cases pending token delivery request answer failed holds phase with
  | decided env allowed _ _ decision =>
    cases fallback
    exact notifiesOnce_of_turn single (known_of_reachable reached holds locked) allowed link decision member ends
  | failed => cases fallback

/-- A test that implies the conditions: a turn over a continue-as-new item has a history without a parent, and
no turn exceeds a limit. -/
def passes (world : World semver) : Step semver → Bool
  | .decide token env => (world.deliveries token).all fun delivery =>
      (!(workitemReader delivery.item).isContinueAsNew || (linkOf delivery.item.history).isNone) &&
        (turnOutcome env delivery.item).all fun outcome =>
          (limitError outcome.historyMgr.delta delivery.item.kvSnapshot).isNone
  | _ => true

theorem guard_of_passes (world : World semver) (label : Step semver) (tested : passes world label) :
    (conditions semver).guard world label := by
  cases label with
  | decide token env =>
    intro delivery holds outcome takes
    simp only [passes, holds, Option.all_some, takes.ran, Bool.and_eq_true, Option.isNone_iff_eq_none] at tested
    obtain ⟨unlinked, within⟩ := tested
    refine ⟨fun continues => ?_, fun exceeds => absurd within exceeds⟩
    simpa [continues] using unlinked
  | failTurn token => exact fun _ _ => trivial
  | ack => exact fun _ _ _ _ _ _ _ => trivial
  | client | fetch | abandon | renew | fetchWork | renewWork | completeWork | dropWork | abandonWork => trivial

theorem linked_of_guarded_finish : ∃ world, World.runTested passes {} (childDecided "finish") = some world ∧
    (world.deliveries 2).isSome ∧ SameParent world.store ∧ TurnsNotify world := by
  have ran : (World.runTested passes {} (childDecided "finish")).any (fun world => (world.deliveries 2).isSome) = true := by
    decide +kernel
  obtain ⟨world, reached, holds⟩ := (Option.any_eq_true _ _).mp ran
  exact ⟨world, reached, holds,
    linked_of_guarded (World.reachable_of_runTested guard_of_passes (.initial rfl) reached)⟩

/-- The child continues as new and finishes in its second execution. -/
def secondExecution : List (Step textSemver) :=
  childDecided "again" ++ [.ack {} 0 2 none, .fetch {} none 0 1000 3 none, .decide 3 pairEnv, .ack {} 0 3 none]

/-- The start event of the second execution names no parent, and the end of the child reaches nobody. -/
theorem secondExecution_unlinked : ∃ world, World.run {} secondExecution = some world ∧ ¬ SameParent world.store ∧
    (world.store.recorded "p::sub::2" 2).any (·.kind.isCompleted) = true ∧ world.store.orchestratorQueue = [] := by
  have observed : (World.run {} secondExecution).any (fun world =>
      (world.store.recorded "p::sub::2" 2).any (fun event =>
        event.kind.isStarted && parentOfStarted event != linkOf (world.store.recorded "p::sub::2" 1)) &&
      (world.store.recorded "p::sub::2" 2).any (·.kind.isCompleted) && world.store.orchestratorQueue.isEmpty) = true := by
    decide +kernel
  obtain ⟨world, ran, facts⟩ := (Option.any_eq_true _ _).mp observed
  simp only [Bool.and_eq_true, List.any_eq_true, bne_iff_ne, List.isEmpty_iff] at facts
  obtain ⟨⟨⟨event, member, started, differs⟩, completed⟩, empty⟩ := facts
  refine ⟨world, ran, fun same => ?_, by simpa using completed, empty⟩
  exact differs (same "p::sub::2" 2 event member started)

end Duroxide.ContinuedChildren
