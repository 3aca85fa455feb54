import Duroxide.Proofs.OrderlyInstances
import Duroxide.Proofs.VersionPinning

/-! # The mailbox of an instance

The mailbox of an instance lists the raised events that its executions received, in order, and behind them those that
wait in the queue. Until the instance has finished, a mailbox holds what clients raise in every run in which fetches
see what opens executions and batches continue the instance; where fetches also see what is raised, a mailbox
grows at its end only. No cancellation is lost in such runs.
-/

namespace Duroxide

open Provider Dispatcher

variable {semver : Semver} {world after : World semver} {label : Step semver} {instanceId : String}

/-- The raised events that wait in the queue of an instance. -/
def Store.waitingFor (store : Store) (instanceId : String) : List EventKind :=
  (store.rowsOf instanceId).filterMap (·.raised)

/-- The raised events that the executions of an instance received themselves, up to the current one. -/
def Store.receivedBy (store : Store) (instanceId : String) : List EventKind :=
  (List.range (store.currentExecution instanceId)).flatMap fun index =>
    ownArrivals (store.recorded instanceId (index + INITIAL_EXECUTION_ID))

/-- The raised events of an instance: those that it received, and behind them those that wait. -/
def Store.mailbox (store : Store) (instanceId : String) : List EventKind :=
  store.receivedBy instanceId ++ store.waitingFor instanceId

/-- Elements that are in front of those that pass a test with them. -/
theorem filterMap_eq_append_of_pairwise {α β : Type*} {pick : α → Option β} {test : α → Bool} {list : List α}
    (inFront : list.Pairwise fun earlier later => (pick earlier).isSome → (pick later).isSome → test later → test earlier) :
    list.filterMap pick = (list.filter test).filterMap pick ++ (list.filter (!test ·)).filterMap pick := by
  induction inFront with
  | nil => rfl
  | @cons first rest before _ ih =>
    cases picked : pick first with
    | none => cases passes : test first <;> simp [passes, picked, ih]
    | some value =>
      cases passes : test first
      · -- what follows does not pass either
        have none : (rest.filter test).filterMap pick = [] := by
          rw [List.filterMap_eq_nil_iff]
          intro later member
          obtain ⟨listed, marked⟩ := List.mem_filter.mp member
          by_contra some
          rw [before later listed (by rw [picked]; rfl) (Option.isSome_iff_ne_none.mpr some) marked] at passes
          cases passes
        rw [none] at ih
        simp [passes, picked, ih, none]
      · simp [passes, picked, ih]

/-! ## What is received and what waits -/

namespace SameExecutions

variable {before after : Store}

theorem currentExecution (same : SameExecutions before after instanceId) :
    after.currentExecution instanceId = before.currentExecution instanceId := by
  rw [Store.currentExecution, Store.currentExecution, same.row]

theorem receivedBy (same : SameExecutions before after instanceId) :
    after.receivedBy instanceId = before.receivedBy instanceId := by
  rw [Store.receivedBy, Store.receivedBy, same.currentExecution]
  exact List.flatMap_congr fun index _ => by rw [same.recorded]

end SameExecutions

/-- The current execution is the last of those that received something. -/
theorem receivedBy_eq {store : Store} {earlier : Nat}
    (current : store.currentExecution instanceId = earlier + INITIAL_EXECUTION_ID) :
    store.receivedBy instanceId = ((List.range earlier).flatMap fun index =>
      ownArrivals (store.recorded instanceId (index + INITIAL_EXECUTION_ID))) ++
        ownArrivals (store.currentEvents instanceId) := by
  have last : List.range (earlier + INITIAL_EXECUTION_ID) = List.range earlier ++ [earlier] := List.range_succ
  rw [Store.receivedBy, Store.currentEvents, current, last, List.flatMap_append, List.flatMap_singleton]

/-- What an instance receives when its current execution grows, or the next one opens. -/
theorem receivedBy_of_grown {before after : Store} {received : List EventKind}
    (positive : INITIAL_EXECUTION_ID ≤ before.currentExecution instanceId)
    (others : ∀ executionId, executionId ≠ after.currentExecution instanceId →
      after.recorded instanceId executionId = before.recorded instanceId executionId)
    (own : ownArrivals (after.currentEvents instanceId) =
      ownArrivals (before.recorded instanceId (after.currentExecution instanceId)) ++ received)
    (placed : after.currentExecution instanceId = before.currentExecution instanceId ∨
      after.currentExecution instanceId = before.currentExecution instanceId + 1 ∧
        before.recorded instanceId (after.currentExecution instanceId) = []) :
    after.receivedBy instanceId = before.receivedBy instanceId ++ received := by
  obtain ⟨earlier, current⟩ := Nat.exists_eq_add_of_le' (positive.trans (by omega : before.currentExecution instanceId ≤
    after.currentExecution instanceId))
  have same : ((List.range earlier).flatMap fun index =>
      ownArrivals (after.recorded instanceId (index + INITIAL_EXECUTION_ID))) =
      (List.range earlier).flatMap fun index =>
        ownArrivals (before.recorded instanceId (index + INITIAL_EXECUTION_ID)) := by
    refine List.flatMap_congr fun index member => ?_
    rw [others (index + INITIAL_EXECUTION_ID) (by have := List.mem_range.mp member; omega)]
  rw [receivedBy_eq current, same, own, ← List.append_assoc]
  refine congrArg (· ++ received) ?_
  rcases placed with stays | ⟨opens, new⟩
  · rw [receivedBy_eq (stays.symm.trans current), Store.currentEvents, stays]
  · have previous : before.currentExecution instanceId = earlier := by rw [INITIAL_EXECUTION_ID] at current; omega
    rw [new, Store.receivedBy, previous]
    exact List.append_nil _

/-- A commit takes the marked rows out of what waits for its instance, and no new one waits. -/
theorem waitingFor_of_committed {before after : Store} {now token : Nat} {request : AckRequest semver}
    (committed : Acked before now token instanceId request after)
    (silent : ∀ item ∈ request.orchestratorItems, item.raised = none) :
    after.waitingFor instanceId =
      ((before.rowsOf instanceId).filter (!·.lockToken == some token)).filterMap (·.raised) := by
  rw [Store.waitingFor, @rowsOf_append instanceId (before.deleteBatch token) after _ committed.queue, List.filterMap_append]
  have nothing : (List.filter (·.instanceId == instanceId) (enqueuedRows (visibleFrom now) before.nextOrchestratorId
      (request.orchestratorItems.filter (!isActivityExecute ·)))).filterMap (·.raised) = [] := by
    refine List.filterMap_eq_nil_iff.mpr fun row member => OrchestratorRow.raised_of_workItem ?_
    obtain ⟨_, _, _, _, listed, _⟩ := QueueSound.mem_enqueuedRows (List.mem_filter.mp member).1
    exact silent row.workItem (List.mem_filter.mp listed).1
  rw [nothing, List.append_nil]
  exact congrArg _ (List.filter_comm ..)

/-! ## Mailboxes -/

/-- The instance has begun, or the item that opens it is queued. -/
def Due (store : Store) (instanceId : String) : Prop :=
  (store.instances instanceId).isSome ∨ ∃ row ∈ store.rowsOf instanceId, row.opens

namespace Delivering

variable {delivery : Delivery semver} {request : AckRequest semver}

/-- A fetch that sees what is queued for an instance that is due does not drop it. -/
theorem not_dropped (due : Due world.store instanceId) (noRow : world.store.instances instanceId = none) {now : Nat}
    (orphans : ∀ row ∈ world.store.rowsOf instanceId, row.visibleAt ≤ (now : Int) →
      ∀ item ∈ row.decoded, isQueueMessage item)
    (sees : ∀ row ∈ world.store.rowsOf instanceId, row.opens → row.visibleAt ≤ (now : Int)) : False := by
  rcases due with known | ⟨row, member, opens⟩
  · rw [noRow] at known
    cases known
  · obtain ⟨item, read, opening⟩ := (Option.any_eq_true _ _).mp opens
    have orphan := orphans row member (sees row member opens) item read
    cases item <;> first | (cases orphan; done) | cases opening

/-- An instance whose commits leave it unfinished is known from the first on. -/
theorem known_of_committed (delivering : Delivering instanceId world)
    (commits : Commits world label delivery request instanceId after)
    (advances : Advances instanceId world.store after.store delivery request) :
    (after.store.instances instanceId).isSome := by
  obtain ⟨now, lock, found, holds, committed, own, describes, history, source⟩ := delivering.holder commits
  have bumped := currentExecutionId_of_acked committed
  rw [← Option.isSome_map (f := (·.currentExecutionId)), bumped]
  rcases row : world.store.instances instanceId with _ | info
  swap
  · rfl
  -- the instance is new, so it starts with this commit
  rw [← own] at row
  obtain ⟨_, _, empty⟩ := delivering.lifecycle.describes_of_noRow describes row
  have new : baseHistory delivery.item request.executionId = [] := by rw [baseHistory, empty, ite_self]
  dsimp only
  rw [if_pos (source.identity history
    (advances.proceeds.started_of_new advances.named advances.resumes advances.unfinished new))]
  rfl

theorem due_step (delivering : Delivering instanceId world) (due : Due world.store instanceId)
    (effect : Effect world label after) (sees : Sees (·.opens) instanceId world label)
    (unfinished : isFinished (after.store.currentEvents instanceId) = false) : Due after.store instanceId := by
  cases @Effect.turnover _ _ _ _ instanceId _ effect delivering.toSurroundings with
  | changed change added rows decoded tokens locks unmarked plain raised same =>
    rw [Due, same.row, rows]
    refine due.imp_right fun ⟨row, member, opens⟩ => ⟨change row, List.mem_append_left _ (List.mem_map_of_mem member), ?_⟩
    rwa [OrchestratorRow.opens, decoded]
  | fetched config filter now lockTimeoutMs token fault taken rows locked same =>
    rw [Due, same.row, rows]
    refine due.imp_right fun ⟨row, member, opens⟩ => ⟨_, List.mem_map_of_mem member, ?_⟩
    rwa [OrchestratorRow.opens, markedRow_decoded]
  | dropped config filter now lockTimeoutMs token fault taken noRow orphans rows released same =>
    rw [taken] at sees
    exact absurd (not_dropped due noRow orphans sees) not_false
  | committed delivery request commits =>
    exact .inl (delivering.known_of_committed commits (delivering.advances commits unfinished))

/-- A commit adds the events that its batch raises to what its instance received. -/
theorem received_of_committed (delivering : Delivering instanceId world)
    (commits : Commits world label delivery request instanceId after)
    (unfinished : isFinished (after.store.currentEvents instanceId) = false) :
    after.store.receivedBy instanceId =
      world.store.receivedBy instanceId ++ delivery.item.messages.filterMap WorkItem.raised := by
  have advances := delivering.advances commits unfinished
  have taken := advances.takesIn delivering.orderly
  have placed := delivering.placed commits
  have records := delivering.lifecycle.records instanceId
  obtain ⟨now, _, _, _, committed, _⟩ := delivering.holder commits
  have current := placed.currentExecution committed
  refine receivedBy_of_grown ?_ ?_ ?_ ?_
  · rcases row : world.store.instances instanceId with _ | info
    · rw [currentExecution_of_noRow row]
    · rw [currentExecution_of_row row]
      exact records.positive info row
  · intro executionId differs
    rw [current] at differs
    exact recorded_other committed fun same => differs (Prod.mk.inj same).2
  · rw [Store.currentEvents, current, advances.appended]
    exact taken.own
  · rw [current]
    refine placed.previous.imp_right fun next => ⟨next, ?_⟩
    cases placed with
    | current info row same =>
      rw [currentExecution_of_row row] at next
      omega
    | next info row next => exact records.above info row _ (by omega)
    | first noRow same =>
      rw [currentExecution_of_noRow noRow] at next
      omega

/-- What a step makes of a mailbox: it adds what it raises, or it moves the marked part of what waits to the front. -/
theorem mailbox_of_effect (delivering : Delivering instanceId world) (due : Due world.store instanceId)
    (effect : Effect world label after) (sees : Sees (·.opens) instanceId world label)
    (unfinished : isFinished (after.store.currentEvents instanceId) = false) :
    after.store.mailbox instanceId = world.store.mailbox instanceId ++ (label.raises instanceId).toList ∨
      label.raises instanceId = none ∧ ∃ lock, world.store.instanceLocks.lookup instanceId = some lock ∧
        after.store.mailbox instanceId = world.store.receivedBy instanceId ++
          (((world.store.rowsOf instanceId).filter (·.lockToken == some lock.lockToken)).filterMap (·.raised) ++
            ((world.store.rowsOf instanceId).filter (!·.lockToken == some lock.lockToken)).filterMap (·.raised)) := by
  cases @Effect.turnover _ _ _ _ instanceId _ effect delivering.toSurroundings with
  | changed change added rows decoded tokens locks unmarked plain raised same =>
    left
    have kept : (world.store.rowsOf instanceId).filterMap ((·.raised) ∘ change) = world.store.waitingFor instanceId :=
      List.filterMap_congr fun row _ => congrArg (·.bind WorkItem.raised) (decoded row)
    rw [Store.mailbox, Store.mailbox, same.receivedBy, Store.waitingFor, rows, List.filterMap_append, raised,
      List.filterMap_map, kept, List.append_assoc]
  | fetched config filter now lockTimeoutMs token fault taken rows locked same =>
    left
    have kept : (world.store.rowsOf instanceId).filterMap ((·.raised) ∘ markedRow now instanceId token) =
        world.store.waitingFor instanceId :=
      List.filterMap_congr fun row _ => congrArg (·.bind WorkItem.raised) (markedRow_decoded ..)
    rw [taken, Store.mailbox, Store.mailbox, same.receivedBy, Store.waitingFor, rows, List.filterMap_map, kept]
    exact (List.append_nil _).symm
  | dropped config filter now lockTimeoutMs token fault taken noRow orphans rows released same =>
    rw [taken] at sees
    exact absurd (not_dropped due noRow orphans sees) not_false
  | committed delivery request commits =>
    have advances := delivering.advances commits unfinished
    have received := delivering.received_of_committed commits unfinished
    obtain ⟨now, lock, found, holds, committed, _⟩ := delivering.holder commits
    obtain ⟨_, _, _, _, taken, _⟩ := commits.holds
    refine .inr ⟨by rw [taken]; rfl, lock, found, ?_⟩
    rw [messages_eq delivering.coherent delivering.batches found holds, List.filterMap_filterMap] at received
    rw [Store.mailbox, received, waitingFor_of_committed committed advances.proceeds.raised, List.append_assoc]
    rfl

/-- An execution that is finished stays so. -/
theorem unfinished_before (delivering : Delivering instanceId world) (effect : Effect world label after)
    (unfinished : isFinished (after.store.currentEvents instanceId) = false) :
    isFinished (world.store.currentEvents instanceId) = false := by
  cases @Effect.turnover _ _ _ _ instanceId _ effect delivering.toSurroundings with
  | changed _ _ _ _ _ _ _ _ _ same | fetched _ _ _ _ _ _ _ _ _ same | dropped _ _ _ _ _ _ _ _ _ _ _ same =>
    rwa [same.currentEvents] at unfinished
  | committed delivery request commits => exact delivering.previous_unfinished commits unfinished

end Delivering

/-! ## Runs -/

variable {labels : List (Step semver)}

/-- An execution that is unfinished at the end of a run was so all along. -/
theorem unfinished_of_run (reached : (system semver).Reachable (Delivers instanceId) world)
    (run : (system semver).Run (Delivers instanceId) world labels after)
    (unfinished : isFinished (after.store.currentEvents instanceId) = false) :
    isFinished (world.store.currentEvents instanceId) = false := by
  induction run with
  | stay => exact unfinished
  | step allowed taken rest ih =>
    exact (Delivering.of_reachable reached).unfinished_before (World.step_effect taken)
      (ih (.step reached allowed taken) unfinished)

/-- Until its instance has finished, a mailbox holds what clients raise: nothing is lost and nothing is repeated. -/
theorem mailbox_perm_of_run (reached : (system semver).Reachable (Delivers instanceId) world)
    (due : Due world.store instanceId) (run : (system semver).Run (Delivers instanceId) world labels after)
    (unfinished : isFinished (after.store.currentEvents instanceId) = false) :
    (after.store.mailbox instanceId).Perm (world.store.mailbox instanceId ++ labels.filterMap (Step.raises instanceId)) := by
  induction run with
  | stay => rw [List.filterMap_nil, List.append_nil]
  | @step source middle target label later allowed taken rest ih =>
    have delivering := Delivering.of_reachable reached
    have reachedMiddle := Lib.TransitionSystem.Reachable.step reached allowed taken
    have between := unfinished_of_run reachedMiddle rest unfinished
    have effect := World.step_effect taken
    have moved : (middle.store.mailbox instanceId).Perm
        (source.store.mailbox instanceId ++ (label.raises instanceId).toList) := by
      rcases delivering.mailbox_of_effect due effect allowed.2 between with added | ⟨silent, lock, _, split⟩
      · rw [added]
      · rw [split, silent, Option.toList_none, List.append_nil, ← List.filterMap_append]
        exact ((List.filter_append_perm _ _).filterMap _).append_left _
    have tail := ih reachedMiddle (delivering.due_step due effect allowed.2 between) unfinished
    refine tail.trans ((moved.append_right _).trans (List.Perm.of_eq ?_))
    rw [List.append_assoc, List.filterMap_cons]
    cases label.raises instanceId <;> rfl

/-- The steps that keep what is raised for an instance in order. -/
def KeepsOrder (instanceId : String) (world : World semver) (label : Step semver) : Prop :=
  Delivers instanceId world label ∧ Sees (·.raised.isSome) instanceId world label

/-- A test that implies the conditions. -/
def delivers (instanceId : String) (world : World semver) : Step semver → Bool
  | .decide token _ => (world.deliveries token).all fun delivery => delivery.item.instanceId != instanceId ||
      (workitemReader delivery.item).hasOrchestrationName &&
        (!delivery.item.messages.any isContinuation || (workitemReader delivery.item).isContinueAsNew)
  | .fetch _ _ now _ _ _ => (world.store.rowsOf instanceId).all fun row =>
      row.visibleAt ≤ (now : Int) || !row.opens && row.raised.isNone
  | _ => true

theorem delivers_sound (world : World semver) (label : Step semver) (tested : delivers instanceId world label) :
    KeepsOrder instanceId world label := by
  cases label with
  | decide token env =>
    refine ⟨⟨fun delivery holds own => ?_, trivial⟩, trivial⟩
    simp only [delivers, holds, Option.all_some, own, bne_self_eq_false, Bool.false_or, Bool.and_eq_true, Bool.or_eq_true,
      Bool.not_eq_true'] at tested
    refine ⟨tested.1, fun listed => tested.2.resolve_left ?_⟩
    rw [listed]
    nofun
  | fetch config filter now =>
    have visible : ∀ row ∈ world.store.rowsOf instanceId, row.visibleAt ≤ (now : Int) ∨
        row.opens = false ∧ row.raised.isSome = false := by
      intro row member
      simpa using List.all_eq_true.mp tested row member
    constructor
    · refine ⟨trivial, fun row member opens => (visible row member).resolve_right fun hidden => ?_⟩
      exact absurd hidden.1 (Bool.not_eq_false _ |>.mpr opens)
    · refine fun row member raises => (visible row member).resolve_right fun hidden => ?_
      exact absurd hidden.2 (Bool.not_eq_false _ |>.mpr raises)
  | failTurn => exact ⟨⟨fun _ _ => trivial, trivial⟩, trivial⟩
  | ack => exact ⟨⟨fun _ _ _ _ _ _ _ => trivial, trivial⟩, trivial⟩
  | client | abandon | renew | fetchWork | renewWork | completeWork | dropWork | abandonWork =>
    exact ⟨⟨trivial, trivial⟩, trivial⟩

/-! An orchestration that continues as new once, and then waits. -/

def relayHandler : OrchestrationHandler where
  State := String
  invoke input := input
  poll input := if input = "first" then .call (.continueAsNew "second" none) fun _ => .suspend "" else .suspend ""

def relayEnv : RuntimeEnv textSemver :=
  { VersionPinning.registeredEnv fun name => if name = "orch" then some relayHandler else none with maxAttempts := 10 }

/-- An environment without orchestrations. -/
def bareEnv : RuntimeEnv textSemver := { VersionPinning.registeredEnv fun _ => none with maxAttempts := 10 }

def relayStarted (input : String) : List (Step textSemver) :=
  [.client 0 (.startOrchestration "i" "orch" input none none none 1), .client 0 (.queueMessage "i" "q" "early"),
    .fetch {} none 0 1000 1 none]

/-- A message is taken by the first execution and carried into the second, which takes another. -/
def relayed : List (Step textSemver) :=
  [.decide 1 relayEnv, .client 0 (.queueMessage "i" "q" "late"), .ack {} 0 1 none, .fetch {} none 0 1000 2 none,
    .decide 2 relayEnv, .ack {} 0 2 none]

/-- A test of two runs, one after the other: the instance is due between them, and unfinished after them. -/
def leadsTo (test : World textSemver → Step textSemver → Bool) (before later : List (Step textSemver))
    (check : World textSemver → World textSemver → Bool) : Bool :=
  (Lib.TransitionSystem.runTested World.step test {} before).any fun world =>
    ((world.store.instances "i").isSome || (world.store.rowsOf "i").any (·.opens)) &&
      (Lib.TransitionSystem.runTested World.step test world later).any fun after =>
        !isFinished (after.store.currentEvents "i") && check world after

theorem exists_of_leadsTo {test : World textSemver → Step textSemver → Bool} {before later : List (Step textSemver)}
    {check : World textSemver → World textSemver → Bool} (leads : leadsTo test before later check) :
    ∃ world after, Lib.TransitionSystem.runTested World.step test {} before = some world ∧ Due world.store "i" ∧
      Lib.TransitionSystem.runTested World.step test world later = some after ∧
      isFinished (after.store.currentEvents "i") = false ∧ check world after := by
  obtain ⟨world, reached, passed⟩ := (Option.any_eq_true _ _).mp leads
  obtain ⟨due, run⟩ := Bool.and_eq_true_iff.mp passed
  obtain ⟨after, ran, ends⟩ := (Option.any_eq_true _ _).mp run
  obtain ⟨unfinished, checked⟩ := Bool.and_eq_true_iff.mp ends
  refine ⟨world, after, reached, ?_, ran, by simpa using unfinished, checked⟩
  exact ((Bool.or_eq_true _ _).mp due).imp_right List.any_eq_true.mp

theorem mailbox_perm_of_run_relayed : ∃ world after,
    Lib.TransitionSystem.runTested World.step (delivers "i") {} (relayStarted "first") = some world ∧
    Lib.TransitionSystem.runTested World.step (delivers "i") world relayed = some after ∧
    after.store.currentExecution "i" = 2 ∧
    (after.store.mailbox "i").Perm (world.store.mailbox "i" ++ [.queueEventDelivered "q" "late"]) := by
  have leads : leadsTo (delivers "i") (relayStarted "first") relayed fun _ after =>
      after.store.currentExecution "i" == 2 := by
    decide +kernel
  obtain ⟨world, after, reached, due, ran, unfinished, second⟩ := exists_of_leadsTo leads
  have sound : ∀ (world : World textSemver) label, delivers "i" world label → Delivers "i" world label :=
    fun world label tested => (delivers_sound world label tested).1
  exact ⟨world, after, reached, ran, beq_iff_eq.mp second,
    mailbox_perm_of_run (.of_runTested (fun _ _ _ taken => taken) sound (.initial rfl) reached) due
      (.of_runTested (fun _ _ _ taken => taken) sound ran) unfinished⟩

/-- The message waits for a start that a backoff hides. -/
def hiddenStart : List (Step textSemver) :=
  [.client 0 (.startOrchestration "i" "orch" "" none none none 1), .fetch {} none 0 1000 1 none, .decide 1 bareEnv,
    .abandon 0 1]

def hiddenStartDropped : List (Step textSemver) :=
  [.client 0 (.queueMessage "i" "q" "early"), .fetch {} none 0 1000 2 none]

/-- A second start comes in front of the item that continues the instance. -/
def startedTwice : List (Step textSemver) :=
  [.client 0 (.startOrchestration "i" "orch" "first" none none none 1), .fetch {} none 0 1000 1 none, .decide 1 relayEnv,
    .client 0 (.startOrchestration "i" "orch" "first" none none none 1), .ack {} 0 1 none]

def startedTwiceRefused : List (Step textSemver) :=
  [.client 0 (.queueMessage "i" "q" "early"), .fetch {} none 0 1000 2 none, .decide 2 relayEnv, .ack {} 0 2 none]

/-- Without the conditions a message is dropped or acknowledged away, and its instance goes on. -/
theorem not_mailbox_perm_of_unguarded :
    ∀ labels ∈ [(hiddenStart, hiddenStartDropped), (startedTwice, startedTwiceRefused)],
    ∃ world after, Lib.TransitionSystem.runTested World.step (fun _ _ => true) {} labels.1 = some world ∧
      Due world.store "i" ∧ Lib.TransitionSystem.runTested World.step (fun _ _ => true) world labels.2 = some after ∧
      isFinished (after.store.currentEvents "i") = false ∧
      ¬ (after.store.mailbox "i").Perm (world.store.mailbox "i" ++ labels.2.filterMap (Step.raises "i")) := by
  intro labels listed
  have leads : leadsTo (fun _ _ => true) labels.1 labels.2 fun world after =>
      !(after.store.mailbox "i").isPerm (world.store.mailbox "i" ++ labels.2.filterMap (Step.raises "i")) := by
    revert labels
    decide +kernel
  obtain ⟨world, after, reached, due, ran, unfinished, misses⟩ := exists_of_leadsTo leads
  refine ⟨world, after, reached, due, ran, unfinished, fun perm => ?_⟩
  rw [List.isPerm_iff.mpr perm] at misses
  cases misses

/-! ## Order -/

/-- The holder of an instance's lock was given what was raised first. -/
def InFront (instanceId : String) (store : Store) : Prop :=
  ∀ lock, store.instanceLocks.lookup instanceId = some lock →
    (store.rowsOf instanceId).Pairwise fun earlier later => earlier.raised.isSome → later.raised.isSome →
      later.lockToken == some lock.lockToken → earlier.lockToken == some lock.lockToken

/-- What marks, adds and drops the rows of an instance keeps what was raised first in front. -/
theorem InFront.step (inFront : InFront instanceId world.store) (turnover : Turnover instanceId world label after)
    (sees : Sees (·.raised.isSome) instanceId world label) : InFront instanceId after.store := by
  intro lock found
  cases turnover with
  | changed change added rows decoded tokens locks unmarked plain raises same =>
    have raised : ∀ row, (change row).raised = row.raised := fun row => congrArg (·.bind WorkItem.raised) (decoded row)
    obtain ⟨held, was, token⟩ := locks lock found
    have late : ∀ row ∈ added, (row.lockToken == some lock.lockToken) = false := fun row new => by
      rw [unmarked row new]
      rfl
    rw [rows, List.pairwise_append, List.pairwise_map]
    refine ⟨?_, ?_, ?_⟩
    · refine (inFront held was).imp fun before raises later marked => ?_
      rw [raised] at raises later
      rw [tokens] at marked ⊢
      rw [← token] at marked ⊢
      exact before raises later marked
    · refine List.pairwise_of_forall_mem_list fun earlier _ later new _ _ marked => ?_
      rw [late later new] at marked
      cases marked
    · intro earlier _ later new _ _ marked
      rw [late later new] at marked
      cases marked
  | fetched config filter now lockTimeoutMs token fault taken rows locked same =>
    rw [taken] at sees
    obtain rfl := locked lock found
    rw [rows, List.pairwise_map]
    refine List.pairwise_of_forall_mem_list fun earlier member later _ raises _ _ => ?_
    have raised : (markedRow now instanceId lock.lockToken earlier).raised = earlier.raised :=
      congrArg (·.bind WorkItem.raised) (markedRow_decoded ..)
    rw [raised] at raises
    exact beq_iff_eq.mpr (markedRow_of_visible member (sees earlier member raises))
  | dropped config filter now lockTimeoutMs token fault taken noRow orphans rows released same =>
    rw [released] at found
    cases found
  | committed delivery request commits =>
    obtain ⟨config, now, token, fault, _, holds, committed, _⟩ := commits.holds
    rw [committed.released] at found
    cases found

theorem InFront.of_reachable (reached : (system semver).Reachable (KeepsOrder instanceId) world) :
    InFront instanceId world.store := by
  induction reached with
  | initial start =>
    subst start
    intro lock found
    simp at found
  | step reached allowed taken ih =>
    have delivering := Delivering.of_reachable (reached.mono fun _ _ => And.left)
    exact ih.step ((World.step_effect taken).turnover delivering.toSurroundings) allowed.2

/-- Where fetches see what is raised, a mailbox grows at its end only, by what clients raise; and what was carried into
an execution comes first in it. -/
theorem mailbox_of_run (reached : (system semver).Reachable (KeepsOrder instanceId) world)
    (due : Due world.store instanceId) (run : (system semver).Run (KeepsOrder instanceId) world labels after)
    (unfinished : isFinished (after.store.currentEvents instanceId) = false) :
    after.store.mailbox instanceId = world.store.mailbox instanceId ++ labels.filterMap (Step.raises instanceId) ∧
      ∀ executionId, isFinished (after.store.recorded instanceId executionId) = false →
        carriedArrivals (after.store.recorded instanceId executionId) <+:
          arrivals (after.store.recorded instanceId executionId) := by
  refine ⟨?_, (Delivering.of_reachable ((reached.of_run run).mono fun _ _ => And.left)).orderly.carried⟩
  induction run with
  | stay => exact (List.append_nil _).symm
  | @step source middle target label later allowed taken rest ih =>
    have delivering := Delivering.of_reachable (reached.mono fun _ _ => And.left)
    have reachedMiddle := Lib.TransitionSystem.Reachable.step reached allowed taken
    have between := unfinished_of_run (reachedMiddle.mono fun _ _ => And.left) (rest.mono fun _ _ => And.left) unfinished
    have effect := World.step_effect taken
    have grown : middle.store.mailbox instanceId =
        source.store.mailbox instanceId ++ (label.raises instanceId).toList := by
      rcases delivering.mailbox_of_effect due effect allowed.1.2 between with added | ⟨silent, lock, found, split⟩
      · exact added
      · rw [split, silent, Option.toList_none, List.append_nil,
          ← filterMap_eq_append_of_pairwise (InFront.of_reachable reached lock found)]
        rfl
    rw [ih reachedMiddle (delivering.due_step due effect allowed.1.2 between) unfinished, grown, List.append_assoc,
      List.filterMap_cons]
    cases label.raises instanceId <;> rfl

theorem mailbox_of_run_relayed : ∃ world after,
    Lib.TransitionSystem.runTested World.step (delivers "i") {} (relayStarted "first") = some world ∧
    Lib.TransitionSystem.runTested World.step (delivers "i") world relayed = some after ∧
    after.store.currentExecution "i" = 2 ∧
    after.store.mailbox "i" = world.store.mailbox "i" ++ [.queueEventDelivered "q" "late"] := by
  have leads : leadsTo (delivers "i") (relayStarted "first") relayed fun _ after =>
      after.store.currentExecution "i" == 2 := by
    decide +kernel
  obtain ⟨world, after, reached, due, ran, unfinished, second⟩ := exists_of_leadsTo leads
  exact ⟨world, after, reached, ran, beq_iff_eq.mp second,
    (mailbox_of_run (.of_runTested (fun _ _ _ taken => taken) delivers_sound (.initial rfl) reached) due
      (.of_runTested (fun _ _ _ taken => taken) delivers_sound ran) unfinished).1⟩

/-- The first of two messages is hidden by a backoff. -/
def hiddenMessage : List (Step textSemver) :=
  [.client 0 (.startOrchestration "i" "orch" "" none none none 1), .fetch {} none 0 1000 1 none, .decide 1 relayEnv,
    .ack {} 0 1 none]

def hiddenMessageOvertaken : List (Step textSemver) :=
  [.client 0 (.queueMessage "i" "q" "early"), .fetch {} none 0 1000 2 none, .decide 2 bareEnv, .abandon 0 2,
    .client 0 (.queueMessage "i" "q" "late"), .fetch {} none 0 1000 3 none, .decide 3 relayEnv, .ack {} 0 3 none]

/-- A message that a backoff hides is overtaken. -/
theorem hiddenMessage_overtaken : ∃ world after,
    Lib.TransitionSystem.runTested World.step (fun _ _ => true) {} hiddenMessage = some world ∧ Due world.store "i" ∧
    Lib.TransitionSystem.runTested World.step (fun _ _ => true) world hiddenMessageOvertaken = some after ∧
    isFinished (after.store.currentEvents "i") = false ∧
    after.store.mailbox "i" = [.queueEventDelivered "q" "late", .queueEventDelivered "q" "early"] := by
  have leads : leadsTo (fun _ _ => true) hiddenMessage hiddenMessageOvertaken fun _ after =>
      after.store.mailbox "i" == [.queueEventDelivered "q" "late", .queueEventDelivered "q" "early"] := by
    decide +kernel
  obtain ⟨world, after, reached, due, ran, unfinished, overtaken⟩ := exists_of_leadsTo leads
  exact ⟨world, after, reached, due, ran, unfinished, beq_iff_eq.mp overtaken⟩

/-! ## Cancellations -/

/-- A cancellation stays in the queue until its instance has finished. -/
theorem cancelled_step (delivering : Delivering instanceId world) (effect : Effect world label after)
    {row : OrchestratorRow} (member : row ∈ world.store.rowsOf instanceId) {target reason : String}
    (cancels : row.decoded = some (.cancelInstance target reason)) :
    (∃ later ∈ after.store.rowsOf instanceId, later.id = row.id ∧ later.decoded = row.decoded) ∨
      isFinished (after.store.currentEvents instanceId) := by
  obtain ⟨queued, own⟩ := mem_rowsOf.mp member
  cases effect.fate delivering.coherent delivering.batches queued with
  | kept later listed same sameInstance message =>
    exact .inl ⟨later, mem_rowsOf.mpr ⟨listed, sameInstance.trans own⟩, same, message⟩
  | orphaned noRow orphan =>
    have isMessage := orphan _ cancels
    cases isMessage
  | committed delivery request commits listed =>
    rw [own] at commits
    refine .inr (Bool.eq_true_of_not_eq_false fun unfinished => ?_)
    have advances := delivering.advances commits unfinished
    have goesOn := advances.goesOn delivering commits
    rw [← advances.base] at goesOn
    have finished := advances.proceeds.finished_of_cancelled advances.history advances.named advances.resumes goesOn
      (listed _ cancels)
    rw [advances.unfinished] at finished
    cases finished

/-- No cancellation is lost: it is queued, or the instance has finished. -/
theorem cancelled_of_run (reached : (system semver).Reachable (Delivers instanceId) world)
    (run : (system semver).Run (Delivers instanceId) world labels after) {row : OrchestratorRow}
    (member : row ∈ world.store.rowsOf instanceId) {target reason : String}
    (cancels : row.decoded = some (.cancelInstance target reason)) :
    (∃ later ∈ after.store.rowsOf instanceId, later.id = row.id ∧ later.decoded = row.decoded) ∨
      isFinished (after.store.currentEvents instanceId) := by
  induction run generalizing row with
  | stay => exact .inl ⟨row, member, rfl, rfl⟩
  | @step source middle target label later allowed taken rest ih =>
    have reachedMiddle := Lib.TransitionSystem.Reachable.step reached allowed taken
    rcases cancelled_step (.of_reachable reached) (World.step_effect taken) member cancels with
      ⟨kept, listed, same, message⟩ | finished
    · rw [← same, ← message]
      exact ih reachedMiddle listed (message.trans cancels)
    · refine .inr (Bool.eq_true_of_not_eq_false fun unfinished => ?_)
      rw [unfinished_of_run reachedMiddle rest unfinished] at finished
      cases finished

/-- The second execution takes the cancellation. -/
def relayCancelled : List (Step textSemver) :=
  [.decide 1 relayEnv, .client 0 (.cancelInstance "i" "stop"), .ack {} 0 1 none]

theorem cancelled_of_run_relayed : ∃ world after row,
    Lib.TransitionSystem.runTested World.step (delivers "i") {} (relayStarted "first" ++ relayCancelled) = some world ∧
    Lib.TransitionSystem.runTested World.step (delivers "i") world (relayed.drop 3) = some after ∧
    row ∈ world.store.rowsOf "i" ∧ row.decoded = some (.cancelInstance "i" "stop") ∧
    ((∃ later ∈ after.store.rowsOf "i", later.id = row.id ∧ later.decoded = row.decoded) ∨
      isFinished (after.store.currentEvents "i")) := by
  have ran : (Lib.TransitionSystem.runTested World.step (delivers "i") {} (relayStarted "first" ++ relayCancelled)).any
      (fun world => (world.store.rowsOf "i").any (fun row => row.decoded == some (.cancelInstance "i" "stop")) &&
        (Lib.TransitionSystem.runTested World.step (delivers "i") world (relayed.drop 3)).isSome) = true := by
    decide +kernel
  obtain ⟨world, reached, passed⟩ := (Option.any_eq_true _ _).mp ran
  obtain ⟨cancels, later⟩ := Bool.and_eq_true_iff.mp passed
  obtain ⟨after, run⟩ := Option.isSome_iff_exists.mp later
  obtain ⟨row, member, message⟩ := List.any_eq_true.mp cancels
  have sound : ∀ (world : World textSemver) label, delivers "i" world label → Delivers "i" world label :=
    fun world label tested => (delivers_sound world label tested).1
  exact ⟨world, after, row, reached, run, member, beq_iff_eq.mp message,
    cancelled_of_run (.of_runTested (fun _ _ _ taken => taken) sound (.initial rfl) reached)
      (.of_runTested (fun _ _ _ taken => taken) sound run) member (beq_iff_eq.mp message)⟩

end Duroxide
