import Duroxide.Lib.Rank
import Duroxide.Lib.Run
import Duroxide.Model.ReplayEngine

/-! # Queue delivery within one execution

The mailbox of an execution sees four calls: a subscription is bound, a message is delivered, a
subscription is marked cancelled, and a subscription is asked for its message. A subscription asks for
the arrival whose index is its rank among the active subscriptions of its name, so resolutions are
final exactly as long as a cancellation does not come after the resolution of the same or a later
subscription of its name. On such runs delivery is first in, first out and exactly once.
-/

namespace Duroxide.QueueDelivery

open Duroxide.Lib

/-- The calls of the replay engine on the persistent event state. -/
inductive QueueCall where
  | bind (scheduleId : Nat) (name : String)
  | deliver (name data : String)
  | cancel (scheduleId : Nat)
  | get (scheduleId : Nat)
deriving DecidableEq, Repr

/-- The effect of a call. -/
def applyCall (queue : QueueEvents) : QueueCall → QueueEvents
  | .bind scheduleId name => queue.bindQueueSubscription scheduleId name
  | .deliver name data => queue.deliverQueueMessage name data
  | .cancel scheduleId => queue.markQueueSubscriptionCancelled scheduleId
  | .get scheduleId => (queue.getQueueMessage scheduleId).2

/-- Schedule ids are event ids, so a binding never repeats one. -/
def Fresh (queue : QueueEvents) : QueueCall → Prop
  | .bind scheduleId _ => scheduleId ∉ queue.subscriptions.map (·.1)
  | _ => True

/-- A cancellation is timely when neither its subscription nor a later one of the same name was
resolved already. -/
def Timely (queue : QueueEvents) : QueueCall → Prop
  | .cancel scheduleId =>
      ∀ sub ∈ queue.subscriptions, queue.subscriptionName scheduleId = some sub.2 →
        sub ∉ before (·.1) scheduleId queue.subscriptions → ¬ queue.isResolved sub.1
  | _ => True

instance (queue : QueueEvents) (call : QueueCall) : Decidable (Fresh queue call) := by
  cases call <;> unfold Fresh <;> infer_instance

instance (queue : QueueEvents) (call : QueueCall) : Decidable (Timely queue call) := by
  cases call <;> unfold Timely <;> infer_instance

/-- The mailbox of one execution under the calls of the replay engine. -/
def queueSystem : TransitionSystem QueueEvents QueueCall where
  initial queue := queue = {}
  step source call target := Fresh source call ∧ target = applyCall source call

/-- Whether every call of a sequence is fresh and satisfies a guard when its turn comes. -/
def Allowed (guard : QueueEvents → QueueCall → Prop) : QueueEvents → List QueueCall → Prop
  | _, [] => True
  | queue, call :: rest => Fresh queue call ∧ guard queue call ∧ Allowed guard (applyCall queue call) rest

instance decidableAllowed (guard : QueueEvents → QueueCall → Prop) [∀ queue call, Decidable (guard queue call)] :
    (queue : QueueEvents) → (calls : List QueueCall) → Decidable (Allowed guard queue calls)
  | _, [] => isTrue trivial
  | queue, call :: rest =>
      have := decidableAllowed guard (applyCall queue call) rest
      inferInstanceAs (Decidable (Fresh queue call ∧ guard queue call ∧ Allowed guard (applyCall queue call) rest))

theorem reachable_of_allowed {guard : QueueEvents → QueueCall → Prop} {queue : QueueEvents}
    (reached : queueSystem.Reachable guard queue) (calls : List QueueCall) (allowed : Allowed guard queue calls) :
    queueSystem.Reachable guard (calls.foldl applyCall queue) := by
  induction calls generalizing queue with
  | nil => exact reached
  | cons call rest ih =>
    obtain ⟨fresh, guarded, allowed⟩ := allowed
    exact ih (.step reached guarded ⟨fresh, rfl⟩) allowed

/-- A subscription that still owns an arrival: bound, active and not resolved. -/
def Waiting (queue : QueueEvents) (sub : Nat × String) : Prop :=
  sub ∈ queue.subscriptions ∧ sub.1 ∉ queue.cancelledSubscriptions ∧ ¬ queue.isResolved sub.1

/-- Exactly-once, first in, first out delivery of every queue name. -/
structure ExactlyOnceFifo (queue : QueueEvents) : Prop where
  /-- No arrival is returned to two subscriptions. -/
  once : queue.resolvedSubscriptions.Pairwise fun first second =>
    first.name = second.name → first.index ≠ second.index
  /-- Subscriptions of a name receive arrivals in arrival order following subscription order. -/
  ordered : ∀ first ∈ queue.resolvedSubscriptions, ∀ second ∈ queue.resolvedSubscriptions,
    first.name = second.name → (first.scheduleId, first.name) ∈ before (·.1) second.scheduleId queue.subscriptions →
    first.index < second.index
  /-- An arrival in front of a returned one was returned, or still belongs to an earlier waiting subscription. -/
  noneSkipped : ∀ later ∈ queue.resolvedSubscriptions, ∀ index < later.index,
    (∃ earlier ∈ queue.resolvedSubscriptions, earlier.name = later.name ∧ earlier.index = index) ∨
    (∃ sub ∈ before (·.1) later.scheduleId queue.subscriptions, sub.2 = later.name ∧
      Waiting queue sub ∧ queue.arrivalIndex sub.1 sub.2 = index)
  /-- What is returned is the arrival at the index. -/
  authentic : ∀ resolution ∈ queue.resolvedSubscriptions,
    (queue.arrivals resolution.name)[resolution.index]? = some resolution.data

/-! ## The invariant -/

def counted (queue : QueueEvents) (name : String) (sub : Nat × String) : Bool :=
  sub.2 == name && sub.1 ∉ queue.cancelledSubscriptions

theorem arrivalIndex_eq_rank (queue : QueueEvents) (scheduleId : Nat) (name : String) :
    queue.arrivalIndex scheduleId name = rank (·.1) (counted queue name) scheduleId queue.subscriptions := rfl

theorem isResolved_iff {queue : QueueEvents} {id : Nat} :
    queue.isResolved id ↔ ∃ resolution ∈ queue.resolvedSubscriptions, resolution.scheduleId = id := by
  simp [QueueEvents.isResolved]

/-- Every resolution is final: its subscription is active and still has its rank. -/
structure Settled (queue : QueueEvents) : Prop where
  distinct : (queue.subscriptions.map (·.1)).Nodup
  final : ∀ resolution ∈ queue.resolvedSubscriptions,
    (resolution.scheduleId, resolution.name) ∈ queue.subscriptions ∧
    resolution.scheduleId ∉ queue.cancelledSubscriptions ∧
    queue.arrivalIndex resolution.scheduleId resolution.name = resolution.index ∧
    (queue.arrivals resolution.name)[resolution.index]? = some resolution.data
  resolvedOnce : (queue.resolvedSubscriptions.map (·.scheduleId)).Nodup

theorem mem_map_fst {subs : List (Nat × String)} {id : Nat} {name : String} (member : (id, name) ∈ subs) :
    id ∈ subs.map (·.1) := List.mem_map.mpr ⟨_, member, rfl⟩

theorem subscriptionName_eq_some {queue : QueueEvents} (distinct : (queue.subscriptions.map (·.1)).Nodup)
    {id : Nat} {name : String} : queue.subscriptionName id = some name ↔ (id, name) ∈ queue.subscriptions := by
  unfold QueueEvents.subscriptionName
  generalize queue.subscriptions = subs at distinct
  induction subs with
  | nil => simp
  | cons head tail ih =>
    obtain ⟨fresh, tailDistinct⟩ := List.nodup_cons.mp distinct
    rcases head with ⟨headId, headName⟩
    by_cases same : headId = id
    · subst same
      have absent : (headId, name) ∉ tail := fun member => fresh (mem_map_fst member)
      simp [absent, eq_comm]
    · simpa [same, Ne.symm same] using ih tailDistinct

/-- Asking for a message either changes nothing, or resolves an active subscription with the arrival of
its rank. -/
theorem getQueueMessage_cases (queue : QueueEvents) (id : Nat) :
    queue.getQueueMessage id = (none, queue) ∨
    ∃ name data, queue.subscriptionName id = some name ∧ ¬ queue.isResolved id ∧
      id ∉ queue.cancelledSubscriptions ∧ (queue.arrivals name)[queue.arrivalIndex id name]? = some data ∧
      queue.getQueueMessage id = (some data, { queue with
        resolvedSubscriptions := queue.resolvedSubscriptions ++ [⟨id, name, queue.arrivalIndex id name, data⟩] }) := by
  unfold QueueEvents.getQueueMessage
  cases bound : queue.subscriptionName id with
  | none => exact .inl rfl
  | some name =>
    by_cases resolved : queue.isResolved id
    · exact .inl (by simp [resolved])
    by_cases cancelled : id ∈ queue.cancelledSubscriptions
    · exact .inl (by simp [resolved, cancelled])
    cases found : (queue.arrivals name)[queue.arrivalIndex id name]? with
    | none => exact .inl (by simp [resolved, cancelled, found])
    | some data => exact .inr ⟨name, data, rfl, resolved, cancelled, found, by simp [resolved, cancelled, found]⟩

theorem settled_initial : Settled {} where
  distinct := List.nodup_nil
  final := by simp
  resolvedOnce := List.nodup_nil

theorem Settled.bind {queue : QueueEvents} (settled : Settled queue) {id : Nat} {name : String}
    (fresh : id ∉ queue.subscriptions.map (·.1)) : Settled (queue.bindQueueSubscription id name) where
  distinct := by
    simp only [QueueEvents.bindQueueSubscription, List.map_append, List.map_cons, List.map_nil]
    refine List.nodup_append.mpr ⟨settled.distinct, List.nodup_singleton _, ?_⟩
    rintro other member last isLast rfl
    exact fresh (List.mem_singleton.mp isLast ▸ member)
  final resolution member := by
    obtain ⟨bound, active, index, data⟩ := settled.final resolution member
    refine ⟨List.mem_append_left _ bound, active, ?_, data⟩
    rw [← index, arrivalIndex_eq_rank, arrivalIndex_eq_rank]
    exact rank_append_of_mem (mem_map_fst bound)
  resolvedOnce := settled.resolvedOnce

theorem Settled.deliver {queue : QueueEvents} (settled : Settled queue) (name data : String) :
    Settled (queue.deliverQueueMessage name data) where
  distinct := settled.distinct
  final resolution member := by
    obtain ⟨bound, active, index, found⟩ := settled.final resolution member
    refine ⟨bound, active, index, ?_⟩
    simp only [QueueEvents.deliverQueueMessage, Function.update_apply]
    split
    · next same =>
      rw [← same, List.getElem?_append_left (List.getElem?_eq_some_iff.mp found).1]
      exact found
    · exact found
  resolvedOnce := settled.resolvedOnce

/-- Before a timely cancellation every resolved subscription of the name is in front of the cancelled one. -/
theorem Settled.resolved_in_front {queue : QueueEvents} (settled : Settled queue) {id : Nat}
    (timely : Timely queue (.cancel id)) {resolution : Resolution}
    (member : resolution ∈ queue.resolvedSubscriptions) (bound : (id, resolution.name) ∈ queue.subscriptions) :
    (resolution.scheduleId, resolution.name) ∈ before (·.1) id queue.subscriptions := by
  by_contra behind
  exact timely _ (settled.final resolution member).1 ((subscriptionName_eq_some settled.distinct).mpr bound) behind
    (isResolved_iff.mpr ⟨resolution, member, rfl⟩)

/-- A timely cancellation moves no resolved rank. -/
theorem Settled.cancel {queue : QueueEvents} (settled : Settled queue) {id : Nat}
    (timely : Timely queue (.cancel id)) : Settled (queue.markQueueSubscriptionCancelled id) where
  distinct := settled.distinct
  final resolution member := by
    obtain ⟨bound, active, index, found⟩ := settled.final resolution member
    refine ⟨bound, ?_, ?_, found⟩
    · intro cancelled
      rcases Finset.mem_insert.mp cancelled with same | old
      · exact key_ne_of_mem_before (settled.resolved_in_front timely member (same ▸ bound)) same
      · exact active old
    · rw [← index, arrivalIndex_eq_rank, arrivalIndex_eq_rank]
      refine rank_congr fun entry front => ?_
      -- A counted entry in front of a resolved one is not the cancelled subscription.
      by_cases named : entry.2 = resolution.name
      · have other : entry.1 ≠ id := by
          rintro rfl
          have behind := settled.resolved_in_front timely member (named ▸ mem_of_mem_before front)
          exact before_asymm settled.distinct behind front
        simp [counted, QueueEvents.markQueueSubscriptionCancelled, other]
      · simp [counted, beq_false_of_ne named]
  resolvedOnce := settled.resolvedOnce

theorem Settled.get {queue : QueueEvents} (settled : Settled queue) (id : Nat) :
    Settled (queue.getQueueMessage id).2 := by
  rcases getQueueMessage_cases queue id with unchanged | ⟨name, data, bound, fresh, active, found, taken⟩
  · rw [unchanged]
    exact settled
  · have isBound := (subscriptionName_eq_some settled.distinct).mp bound
    rw [taken]
    exact
      { distinct := settled.distinct
        final := by
          intro resolution member
          rcases List.mem_append.mp member with old | new
          · exact settled.final resolution old
          · rw [List.mem_singleton.mp new]
            exact ⟨isBound, active, rfl, found⟩
        resolvedOnce := by
          rw [List.map_append]
          refine List.nodup_append.mpr ⟨settled.resolvedOnce, List.nodup_singleton _, ?_⟩
          rintro other member last isLast rfl
          obtain ⟨resolution, old, same⟩ := List.mem_map.mp member
          exact fresh (isResolved_iff.mpr ⟨resolution, old, same.trans (List.mem_singleton.mp isLast)⟩) }

/-- The step lemma: every fresh and timely call keeps the resolutions settled. -/
theorem Settled.applyCall {queue : QueueEvents} (settled : Settled queue) {call : QueueCall}
    (fresh : Fresh queue call) (timely : Timely queue call) : Settled (applyCall queue call) := by
  cases call with
  | bind id name => exact settled.bind fresh
  | deliver name data => exact settled.deliver name data
  | cancel id => exact settled.cancel timely
  | get id => exact settled.get id

/-- The run lemma. -/
theorem settled_of_timely {queue : QueueEvents} (reached : queueSystem.Reachable Timely queue) : Settled queue :=
  reached.invariant
    (by rintro _ rfl; exact settled_initial)
    (by rintro source call _ settled timely ⟨fresh, rfl⟩; exact settled.applyCall fresh timely)

/-- Resolutions of a name are different ranks of one list, so they are ordered like it. -/
theorem Settled.index_lt {queue : QueueEvents} (settled : Settled queue) {first second : Resolution}
    (firstMem : first ∈ queue.resolvedSubscriptions) (secondMem : second ∈ queue.resolvedSubscriptions)
    (sameName : first.name = second.name)
    (front : (first.scheduleId, first.name) ∈ before (·.1) second.scheduleId queue.subscriptions) :
    first.index < second.index := by
  obtain ⟨-, active, firstIndex, -⟩ := settled.final first firstMem
  obtain ⟨-, -, secondIndex, -⟩ := settled.final second secondMem
  rw [← firstIndex, ← secondIndex, ← sameName]
  exact rank_lt_of_mem_before settled.distinct front (by simp [active])

theorem Settled.once {queue : QueueEvents} (settled : Settled queue) :
    queue.resolvedSubscriptions.Pairwise fun first second => first.name = second.name → first.index ≠ second.index := by
  refine (List.pairwise_map.mp settled.resolvedOnce).imp_of_mem
    fun {first second} firstMem secondMem apart sameName => ?_
  have firstBound := (settled.final first firstMem).1
  have secondBound := (settled.final second secondMem).1
  rcases before_total (·.1) firstBound secondBound apart settled.distinct with front | front
  · exact (settled.index_lt firstMem secondMem sameName front).ne
  · exact (settled.index_lt secondMem firstMem sameName.symm front).ne'

theorem Settled.noneSkipped {queue : QueueEvents} (settled : Settled queue) {later : Resolution}
    (member : later ∈ queue.resolvedSubscriptions) {index : Nat} (bound : index < later.index) :
    (∃ earlier ∈ queue.resolvedSubscriptions, earlier.name = later.name ∧ earlier.index = index) ∨
    (∃ sub ∈ before (·.1) later.scheduleId queue.subscriptions, sub.2 = later.name ∧
      Waiting queue sub ∧ queue.arrivalIndex sub.1 sub.2 = index) := by
  obtain ⟨-, -, laterIndex, -⟩ := settled.final later member
  rw [← laterIndex, arrivalIndex_eq_rank] at bound
  obtain ⟨sub, front, isCounted, subRank⟩ := exists_rank_eq_of_lt settled.distinct bound
  obtain ⟨named, active⟩ : sub.2 = later.name ∧ sub.1 ∉ queue.cancelledSubscriptions := by
    simpa [counted] using isCounted
  have subBound := mem_of_mem_before front
  have subIndex : queue.arrivalIndex sub.1 sub.2 = index := by rw [named, arrivalIndex_eq_rank, subRank]
  by_cases resolved : queue.isResolved sub.1
  · obtain ⟨earlier, earlierMem, sameId⟩ := isResolved_iff.mp resolved
    obtain ⟨earlierBound, -, earlierIndex, -⟩ := settled.final earlier earlierMem
    have sameName : earlier.name = sub.2 := by
      have left := (subscriptionName_eq_some settled.distinct).mpr earlierBound
      have right := (subscriptionName_eq_some settled.distinct).mpr subBound
      rw [sameId, right] at left
      exact (Option.some.inj left).symm
    exact .inl ⟨earlier, earlierMem, sameName.trans named, by rw [← earlierIndex, sameId, sameName, subIndex]⟩
  · exact .inr ⟨sub, front, named, ⟨subBound, active, resolved⟩, subIndex⟩

/-- On every run whose cancellations are timely, delivery is first in, first out and exactly once. -/
theorem exactlyOnceFifo_of_timely (queue : QueueEvents) (reached : queueSystem.Reachable Timely queue) :
    ExactlyOnceFifo queue :=
  have settled := settled_of_timely reached
  { once := settled.once
    ordered := fun _ firstMem _ secondMem sameName front => settled.index_lt firstMem secondMem sameName front
    noneSkipped := fun _ member _ bound => settled.noneSkipped member bound
    authentic := fun resolution member => (settled.final resolution member).2.2.2 }

/-- The first of two subscriptions is dropped in time, and the second one takes its place. -/
theorem exactlyOnceFifo_of_timely_drop :
    ExactlyOnceFifo ([.bind 2 "q", .bind 3 "q", .cancel 2, .deliver "q" "m1", .get 3].foldl applyCall {}) :=
  exactlyOnceFifo_of_timely _ (reachable_of_allowed (.initial rfl) _ (by decide))

/-! ## A late cancellation -/

/-- Two dequeues of one queue: the second is awaited, then the first is dropped and a third awaited. -/
inductive LateDrop where
  | start
  | awaitSecond (first second : Nat)
  | awaitThird (text : String) (third : Nat)

def LateDrop.poll : LateDrop → Script LateDrop
  | .start => .call (.dequeueEvent "q") fun first => .call (.dequeueEvent "q") fun second =>
      .suspend (.awaitSecond first second)
  | .awaitSecond first second => .call (.pollFuture second) fun
      | some (.externalData text) => .call (.dropFuture first) fun _ => .call (.dequeueEvent "q") fun third =>
          .suspend (.awaitThird text third)
      | _ => .suspend (.awaitSecond first second)
  | .awaitThird text third => .call (.pollFuture third) fun
      | some (.externalData next) => .finish (.ok (text ++ "|" ++ next))
      | _ => .suspend (.awaitThird text third)

def lateDrop : OrchestrationHandler where
  State := LateDrop
  invoke _ := .start
  poll := LateDrop.poll

def lateDropStarted : Event :=
  Event.withEventId ⟨0, "0.1.0"⟩ 1 "p" 1 none (.orchestrationStarted "late" "1.0.0" "" none none none none)

/-- The first turn subscribes twice. -/
def lateDropFirstTurn : TurnResult × ReplayEngine :=
  (ReplayEngine.new ⟨0, "0.1.0"⟩ "p" 1 [lateDropStarted]).executeOrchestration lateDrop "" "late" "1.0.0"

/-- The second turn, on the history of the first, receives two messages. -/
def lateDropSecondTurn : TurnResult × ReplayEngine :=
  ((ReplayEngine.new ⟨0, "0.1.0"⟩ "p" 1 (lateDropStarted :: lateDropFirstTurn.2.historyDelta)).prepCompletions
    [.queueMessage "p" "q" "m1", .queueMessage "p" "q" "m2"]).executeOrchestration lateDrop "" "late" "1.0.0"

/-- The calls of the second turn: the drop is marked after the later subscription was resolved. -/
def lateDropCalls : List QueueCall :=
  [.bind 2 "q", .bind 3 "q", .deliver "q" "m1", .deliver "q" "m2", .get 3, .cancel 2, .bind 6 "q", .get 6]

/-- The second message is returned twice and the first one never. -/
theorem lateDrop_duplicates :
    lateDropFirstTurn.1 = .continue ∧ lateDropSecondTurn.1 = .completed "m2|m2" ∧
      ¬ ∀ queue, queueSystem.Reachable (fun _ _ => True) queue → ExactlyOnceFifo queue := by
  refine ⟨rfl, rfl, fun always => ?_⟩
  have fifo := always _ (reachable_of_allowed (.initial rfl) lateDropCalls (by decide))
  exact absurd fifo.once (by decide)

end Duroxide.QueueDelivery
