import Duroxide.Model.Runtimes
import Duroxide.Proofs.ChildNames
import Duroxide.Proofs.TerminalNotices

/-! # The execution that a child's result is for

A result names an execution of the parent: the one that the runtime which ended the child remembers, or
the first. It is one whose history holds the schedule of the child as long as the last turn of the
parent that this runtime noted belongs to such an execution.
-/

namespace Duroxide

open Provider Dispatcher ChildNames TerminalNotices VersionPinning

variable {semver : Semver} {home : Nat → Nat}

/-! ## Runs of several runtimes -/

namespace Cluster

variable {cluster after : Cluster semver}

/-- The execution of the last turn of an instance that a runtime noted since it started, or the first one. -/
def lastTurn (cluster : Cluster semver) (runtime : Nat) (instanceId : String) : Nat :=
  ((cluster.turns runtime).lookup instanceId).getD INITIAL_EXECUTION_ID

@[simp] theorem note_world (cluster : Cluster semver) (runtime : Nat) (noted : Option (String × Nat)) :
    (cluster.note runtime noted).world = cluster.world := by
  cases noted <;> rfl

/-- The step of the system in a step of the runtimes. -/
def labelOf (home : Nat → Nat) (cluster : Cluster semver) : ClusterStep semver → Option (Step semver)
  | .restart _ => none
  | .world (.decide token env) => some (.decide token (cluster.envOf home token env))
  | .world label => some label

theorem decide_of_labelOf {label : ClusterStep semver} {token : Nat} {env : RuntimeEnv semver}
    (own : labelOf home cluster label = some (.decide token env)) :
    ∃ given, label = .world (.decide token given) ∧ env = cluster.envOf home token given := by
  cases label with
  | restart => cases own
  | world label =>
    cases label with
    | decide other given =>
      cases own
      exact ⟨given, rfl, rfl⟩
    | _ => cases own

/-- A step of the runtimes is a restart, or a step of the system. -/
theorem world_of_step {label : ClusterStep semver} (taken : cluster.step home label = some after) :
    labelOf home cluster label = none ∧ after.world = cluster.world ∨
      ∃ own, labelOf home cluster label = some own ∧ cluster.world.step own = some after.world := by
  cases label with
  | restart runtime =>
    cases taken
    exact .inl ⟨rfl, rfl⟩
  | world label =>
    refine .inr ?_
    cases label with
    | decide token env =>
      obtain ⟨delivery, holds, decided⟩ := Option.bind_eq_some_iff.mp taken
      obtain ⟨world, moved, same⟩ := Option.bind_eq_some_iff.mp decided
      cases same
      exact ⟨_, rfl, by rw [note_world]; exact moved⟩
    | _ =>
      obtain ⟨world, moved, rfl⟩ := Option.map_eq_some_iff.mp taken
      exact ⟨_, rfl, moved⟩

/-- A run of several runtimes is a run of the system. -/
theorem reachable_world {allowed : Cluster semver → ClusterStep semver → Prop}
    (reached : (runtimes semver home).Reachable allowed cluster) :
    (system semver).Reachable (fun _ _ => True) cluster.world := by
  induction reached with
  | initial start => exact .initial (start ▸ rfl)
  | step _ _ taken ih =>
    rcases world_of_step taken with ⟨_, same⟩ | ⟨own, _, moved⟩
    · rwa [same]
    · exact .step ih trivial moved

/-- Each runtime remembers the turns that it noted. -/
def Remembers (cluster : Cluster semver) : Prop :=
  ∀ runtime instanceId, cluster.executionIds runtime instanceId = (cluster.turns runtime).lookup instanceId

namespace Remembers

theorem update (remembers : Remembers cluster) (runtime : Nat) {executionIds : Execution.ExecutionIds}
    {turns : List (String × Nat)} (same : ∀ instanceId, executionIds instanceId = turns.lookup instanceId) :
    Remembers { cluster with
      executionIds := Function.update cluster.executionIds runtime executionIds
      turns := Function.update cluster.turns runtime turns } := by
  intro other instanceId
  dsimp only
  by_cases own : other = runtime
  · rw [own, Function.update_self, Function.update_self, same]
  · rw [Function.update_of_ne own, Function.update_of_ne own, remembers]

theorem note (remembers : Remembers cluster) (runtime : Nat) (noted : Option (String × Nat)) :
    Remembers (cluster.note runtime noted) := by
  rcases noted with _ | ⟨instanceId, executionId⟩
  · exact remembers
  refine remembers.update runtime fun target => ?_
  rw [List.lookup_cons]
  by_cases own : target = instanceId
  · rw [own, Function.update_self, beq_self_eq_true]
  · rw [Function.update_of_ne own, beq_false_of_ne own, remembers]

theorem step (remembers : Remembers cluster) {label : ClusterStep semver}
    (taken : cluster.step home label = some after) : Remembers after := by
  cases label with
  | restart runtime =>
    cases taken
    exact remembers.update runtime fun _ => rfl
  | world label =>
    cases label with
    | decide token env =>
      obtain ⟨delivery, holds, decided⟩ := Option.bind_eq_some_iff.mp taken
      obtain ⟨world, moved, same⟩ := Option.bind_eq_some_iff.mp decided
      cases same
      have kept : Remembers { cluster with world } := remembers
      exact kept.note _ _
    | _ =>
      obtain ⟨world, moved, rfl⟩ := Option.map_eq_some_iff.mp taken
      exact remembers

theorem of_reachable {allowed : Cluster semver → ClusterStep semver → Prop}
    (reached : (runtimes semver home).Reachable allowed cluster) : Remembers cluster :=
  reached.invariant (fun _ start => start ▸ fun _ _ => rfl) fun _ _ _ remembers _ taken => remembers.step taken

/-- A runtime looks up the last turn that it noted. -/
theorem getExecutionIdForInstance (remembers : Remembers cluster) (token : Nat) (env : RuntimeEnv semver)
    (instanceId : String) :
    Execution.getExecutionIdForInstance (cluster.envOf home token env).executionIds instanceId =
      cluster.lastTurn (home token) instanceId := by
  rw [lastTurn, ← remembers]
  rfl

end Remembers

end Cluster

namespace ChildResults

/-! ## What a result is for -/

/-- The parent, its execution and the id of the schedule that a result is for. -/
def resultFor : WorkItem → Option (String × Nat × Nat)
  | .subOrchCompleted parent executionId parentId _ | .subOrchFailed parent executionId parentId _ =>
      some (parent, executionId, parentId)
  | _ => none

/-- The history of an execution holds the event that scheduled a child. -/
def Schedules (store : Store) (parent : String) (executionId parentId : Nat) (child : String) : Prop :=
  ∃ event ∈ store.recorded parent executionId, event.eventId = parentId ∧ childInstance parent event = some child

/-- A result of a child is for an execution of its parent that scheduled it, and only that execution takes it. -/
def Addressed (store : Store) (child : String) (result : WorkItem) : Prop :=
  ∀ parent executionId parentId, resultFor result = some (parent, executionId, parentId) →
    Schedules store parent executionId parentId child ∧
      ∀ engine : ReplayEngine, engine.isCompletionForCurrentExecution result ↔ engine.executionId = executionId

/-- Every result that somebody wants to enqueue is for an execution that scheduled its child. -/
def ReachParents (world : World semver) : Prop :=
  ∀ token delivery request fallback failed, world.deliveries token = some delivery →
    delivery.phase = .acking request fallback failed →
    ∀ result ∈ request.orchestratorItems, Addressed world.store delivery.item.instanceId result

/-- The parent that an answer about an item would notify. -/
def noticeLink (env : RuntimeEnv semver) (item : OrchestrationItem) (attemptCount : Nat) : Option (String × Nat) :=
  if env.maxAttempts < attemptCount then (poisonManager env item).2 else turnLink item

/-- A decision that notifies a parent is made by a runtime whose last noted turn of the parent belongs to an
execution that scheduled the child. -/
def guard (home : Nat → Nat) (cluster : Cluster semver) : ClusterStep semver → Prop
  | .world (.decide token env) => ∀ delivery request fallback parent parentId,
      cluster.world.deliveries token = some delivery →
      handleFetchedItem (cluster.envOf home token env) delivery.item delivery.attemptCount = .ack request fallback →
      request.notices ≠ [] → noticeLink env delivery.item delivery.attemptCount = some (parent, parentId) →
      Schedules cluster.world.store parent (cluster.lastTurn (home token) parent) parentId delivery.item.instanceId
  | _ => True

theorem accepted_of_resultFor {result : WorkItem} {parent : String} {executionId parentId : Nat}
    (target : resultFor result = some (parent, executionId, parentId)) (engine : ReplayEngine) :
    engine.isCompletionForCurrentExecution result ↔ engine.executionId = executionId := by
  cases result with
  | subOrchCompleted | subOrchFailed =>
    cases target
    rw [ReplayEngine.isCompletionForCurrentExecution, beq_iff_eq, eq_comm]
  | _ => cases target

theorem mem_notices_of_resultFor {request : AckRequest semver} {result : WorkItem}
    (member : result ∈ request.orchestratorItems) {target : String × Nat × Nat} (found : resultFor result = some target) :
    result ∈ request.notices := by
  refine List.mem_filter.mpr ⟨member, ?_⟩
  cases result with
  | subOrchCompleted | subOrchFailed => rfl
  | _ => cases found

theorem Addressed.mono {before after : Store} {child : String} {result : WorkItem} (addressed : Addressed before child result)
    (kept : ∀ instanceId executionId event, event ∈ before.recorded instanceId executionId →
      event ∈ after.recorded instanceId executionId) : Addressed after child result := by
  intro parent executionId parentId target
  obtain ⟨⟨event, member, scheduled⟩, accepted⟩ := addressed parent executionId parentId target
  exact ⟨⟨event, kept _ _ event member, scheduled⟩, accepted⟩

/-! ## The results of an answer -/

variable {env : RuntimeEnv semver} {item : OrchestrationItem} {attemptCount : Nat} {request : AckRequest semver}
  {fallback : Option (ProviderError → AckRequest semver)} {result : WorkItem}

theorem result_of_notifyParent {executionIds : Execution.ExecutionIds} {link : Option (String × Nat)}
    {make : String → Nat → Nat → WorkItem}
    (makes : ∀ parent executionId parentId, resultFor (make parent executionId parentId) = some (parent, executionId, parentId))
    (member : result ∈ Execution.notifyParent executionIds link make) :
    ∃ parent parentId, link = some (parent, parentId) ∧
      resultFor result = some (parent, Execution.getExecutionIdForInstance executionIds parent, parentId) := by
  obtain ⟨parent, parentId, linked, rfl⟩ := mem_notifyParent member
  exact ⟨parent, parentId, linked, makes _ _ _⟩

theorem result_of_notice {executionIds : Execution.ExecutionIds} {link : Option (String × Nat)} {turn : TurnResult}
    (member : result ∈ Execution.notice executionIds link turn) :
    ∃ parent parentId, link = some (parent, parentId) ∧
      resultFor result = some (parent, Execution.getExecutionIdForInstance executionIds parent, parentId) := by
  cases turn with
  | completed | failed | cancelled =>
    rw [Execution.notice] at member
    exact result_of_notifyParent (fun _ _ _ => rfl) member
  | «continue» | continueAsNew => exact absurd member List.not_mem_nil

/-- A result of an answer is for the parent of the item and the execution that the runtime looks up. -/
theorem result_of_answered (answered : Answered env item attemptCount request fallback) (history : HistoryOrigin item.history)
    (member : result ∈ request.notices) :
    ∃ parent parentId, noticeLink env item attemptCount = some (parent, parentId) ∧
      resultFor result = some (parent, Execution.getExecutionIdForInstance env.executionIds parent, parentId) := by
  cases answered with
  | corrupted exceeded message unreadable =>
    rw [AckRequest.notices, failOrchestrationAsPoison_items_of_unreadable unreadable] at member
    exact absurd member List.not_mem_nil
  | poisoned exceeded readable =>
    rw [notices_of_poison readable] at member
    rw [noticeLink, if_pos exceeded]
    exact result_of_notifyParent (fun _ _ _ => rfl) member
  | ended => exact absurd member List.not_mem_nil
  | turned inTime readable running outcome ran =>
    rw [noticeLink, if_neg (not_lt.mpr inTime)]
    by_cases within : limitError outcome.historyMgr.delta item.kvSnapshot = none
    swap
    · rw [notices_of_exceeded within] at member
      exact absurd member List.not_mem_nil
    cases ran_of_turnOutcome ran with
    | executed named version handler resolved =>
      rw [turnRequest_notices history within] at member
      exact result_of_notice member
    | unnamed =>
      rw [AckRequest.notices, items_of_within within] at member
      exact absurd member List.not_mem_nil

/-! ## Results in every run -/

/-- In every run in which only runtimes whose last noted turn of a parent scheduled a child end that child,
the results of children are for the executions that scheduled them, and for no other. -/
theorem reachParents_of_guarded {cluster : Cluster semver} (reached : (runtimes semver home).Reachable (guard home) cluster) :
    ReachParents cluster.world := by
  induction reached with
  | initial start =>
    subst start
    intro _ _ _ _ _ holds
    cases holds
  | @step cluster after label reached allowed taken ih =>
    rcases Cluster.world_of_step taken with ⟨_, same⟩ | ⟨own, label', moved⟩
    · rwa [same]
    have effect := World.step_effect moved
    have behind := Cluster.reachable_world reached
    intro token delivery request fallback failed holds acking result member
    cases Pends.of_effect effect holds acking with
    | kept old _ _ failure held phase item attempts =>
      rw [← item]
      exact (ih token old request fallback failure held phase result member).mono fun _ _ _ => ParentLinks.recorded_kept effect
    | decided env decides old held item attempts _ _ decision =>
      subst decides
      obtain ⟨given, rfl, rfl⟩ := Cluster.decide_of_labelOf label'
      intro parent executionId parentId target
      have notice := mem_notices_of_resultFor member target
      have origin := (Provenance.of_reachable behind).items token old held
      rw [item] at origin
      obtain ⟨named, scheduleId, link, answer⟩ := result_of_answered (answered_of_decided decision).2 origin notice
      rw [target] at answer
      cases answer
      refine ⟨?_, accepted_of_resultFor target⟩
      rw [(Cluster.Remembers.of_reachable reached).getExecutionIdForInstance]
      rw [← item, ← attempts] at decision link
      obtain ⟨event, recorded, schedules⟩ := allowed old request fallback parent parentId held decision
        (List.ne_nil_of_mem notice) link
      rw [← item]
      exact ⟨event, ParentLinks.recorded_kept effect recorded, schedules⟩
    | turned turns old original commit error held phase item attempts =>
      intro parent executionId parentId target
      have notice := mem_notices_of_resultFor member target
      have asks := Pending.of_reachable (reachable_unconditionally behind) token old original _ _ held phase
      cases asks with
      | decided env _ _ _ decision =>
        rw [notices_of_failureCommit decision error] at notice
        exact absurd notice List.not_mem_nil

/-- A test that implies the guard: every decision about a child is made by a runtime that would find its schedule. -/
def passes (home : Nat → Nat) (cluster : Cluster semver) : ClusterStep semver → Bool
  | .world (.decide token env) => (cluster.world.deliveries token).all fun delivery =>
      (noticeLink env delivery.item delivery.attemptCount).all fun link =>
        (cluster.world.store.recorded link.1 (cluster.lastTurn (home token) link.1)).any fun event =>
          event.eventId == link.2 && childInstance link.1 event == some delivery.item.instanceId
  | _ => true

theorem guard_of_passes (cluster : Cluster semver) (label : ClusterStep semver) (tested : passes home cluster label) :
    guard home cluster label := by
  cases label with
  | restart => trivial
  | world label =>
    cases label with
    | decide token env =>
      intro delivery request fallback parent parentId holds _ _ link
      simp only [passes, holds, link, Option.all_some, List.any_eq_true, Bool.and_eq_true, beq_iff_eq] at tested
      exact tested
    | _ => trivial

/-- A child of the first execution ends. -/
theorem reachParents_of_guarded_finish : ∃ cluster,
    Lib.TransitionSystem.runTested (Cluster.step id) (passes id) {} ((childDecided "finish").map .world) = some cluster ∧
      (cluster.world.deliveries 2).isSome ∧ ReachParents cluster.world := by
  have ran : (Lib.TransitionSystem.runTested (Cluster.step id) (passes id) {} ((childDecided "finish").map .world)).any
      (fun cluster => (cluster.world.deliveries 2).isSome) = true := by
    decide +kernel
  obtain ⟨cluster, passed, holds⟩ := (Option.any_eq_true _ _).mp ran
  refine ⟨cluster, passed, holds, @reachParents_of_guarded textSemver id cluster ?_⟩
  exact .of_runTested (fun _ _ _ taken => taken) guard_of_passes (.initial rfl) passed

/-! A parent that continues as new, and starts a child in its second execution. -/

def renewedParent : OrchestrationHandler where
  State := String
  invoke input := input
  poll input :=
    if input = "first" then .call (.continueAsNew "second" none) fun _ => .suspend "wait"
    else if input = "second" then .call (.scheduleSubOrchestration "child" none none "finish") fun _ => .suspend "wait"
    else .suspend "wait"

def renewedEnv : RuntimeEnv textSemver :=
  registeredEnv fun name =>
    if name = "parent" then some renewedParent else if name = "child" then some repeatingChild else none

/-- The turn of a dispatcher. -/
def renewedTurn (token : Nat) : List (Step textSemver) :=
  [.fetch {} none 0 1000 token none, .decide token renewedEnv, .ack {} 0 token none]

/-- Two turns of the parent, and the decision about the child. -/
def secondGeneration : List (Step textSemver) :=
  .client 0 (.startOrchestration "p" "parent" "first" none none none 1) ::
    (renewedTurn 1 ++ renewedTurn 2 ++ [.fetch {} none 0 1000 3 none, .decide 3 renewedEnv])

/-- The child's end, and what the parent makes of it. -/
def childEnds : List (Step textSemver) := .ack {} 0 3 none :: renewedTurn 4

/-- A result for the first execution of a parent that scheduled no child in it. -/
def misses (store : Store) (delivery : Delivery textSemver) : Bool :=
  match delivery.phase with
  | .acking request _ _ => request.orchestratorItems.any (resultFor · == some ("p", 1, 2)) &&
      (store.recorded "p" 1).all (childInstance "p" · == none)
  | _ => false

theorem not_reachParents_of_misses {world : World textSemver} {token : Nat} {delivery : Delivery textSemver}
    (holds : world.deliveries token = some delivery) (lost : misses world.store delivery) : ¬ ReachParents world := by
  intro reach
  unfold misses at lost
  split at lost
  · rename_i request fallback failed acking
    simp only [Bool.and_eq_true, List.any_eq_true, List.all_eq_true, beq_iff_eq] at lost
    obtain ⟨⟨result, member, target⟩, unscheduled⟩ := lost
    obtain ⟨event, recorded, _, scheduled⟩ :=
      (reach token delivery request fallback failed holds acking result member "p" 1 2 target).1
    rw [unscheduled event recorded] at scheduled
    cases scheduled
  · cases lost

/-- The child of the second execution reports to the first one, and the parent drops the result. -/
theorem secondGeneration_lost :
    (∃ cluster, Cluster.run (fun _ => 0) {} (secondGeneration.map .world) = some cluster ∧ ¬ ReachParents cluster.world) ∧
      ∃ cluster, Cluster.run (fun _ => 0) {} ((secondGeneration ++ childEnds).map .world) = some cluster ∧
        (cluster.world.store.recorded "p::sub::2" 1).any (·.kind.isCompleted) = true ∧
        (cluster.world.store.recorded "p" 2).length = 2 ∧ cluster.world.store.orchestratorQueue = [] := by
  constructor
  · have observed : (Cluster.run (fun _ => 0) {} (secondGeneration.map .world)).any (fun cluster =>
        (cluster.world.deliveries 3).any (misses cluster.world.store)) = true := by
      decide +kernel
    obtain ⟨cluster, ran, held⟩ := (Option.any_eq_true _ _).mp observed
    obtain ⟨delivery, holds, lost⟩ := (Option.any_eq_true _ _).mp held
    exact ⟨cluster, ran, not_reachParents_of_misses holds lost⟩
  · have observed : (Cluster.run (fun _ => 0) {} ((secondGeneration ++ childEnds).map .world)).any (fun cluster =>
        (cluster.world.store.recorded "p::sub::2" 1).any (·.kind.isCompleted) &&
          (cluster.world.store.recorded "p" 2).length == 2 && cluster.world.store.orchestratorQueue.isEmpty) = true := by
      decide +kernel
    obtain ⟨cluster, ran, facts⟩ := (Option.any_eq_true _ _).mp observed
    simp only [Bool.and_eq_true, beq_iff_eq, List.isEmpty_iff] at facts
    exact ⟨cluster, ran, facts.1.1, facts.1.2, facts.2⟩

end ChildResults

end Duroxide
