import Duroxide.Model.Execution
import Duroxide.Proofs.ExternalDelivery
import Duroxide.Proofs.QueueDelivery

/-! # Outstanding waits

A terminal result leaves breadcrumbs for the subscriptions that a history reports as outstanding. For the persistent
events these are always the subscriptions for which the replayed context has nothing to return. For the positional
events the report serves the subscriptions one by one, while the context counts slots: the two agree as long as no
name has both an event in surplus and a subscription that waits.
-/

namespace Duroxide

open Lib QueueDelivery

variable {history : List Event} {event : Event} {name : String}

/-! ## Persistent events of a history -/

/-- What an event tells the persistent events. -/
def QueueEvents.observe (queue : QueueEvents) (event : Event) : QueueEvents :=
  match event.kind with
  | .queueSubscribed name => queue.bindQueueSubscription event.eventId name
  | .queueSubscriptionCancelled _ => match event.sourceEventId with
    | some sourceId => queue.markQueueSubscriptionCancelled sourceId
    | none => queue
  | .queueEventDelivered name data => queue.deliverQueueMessage name data
  | _ => queue

/-- A mailbox that has read a history, whatever was taken from it meanwhile. -/
structure ReadsQueue (queue : QueueEvents) (history : List Event) : Prop where
  subscriptions : queue.subscriptions = history.filterMap Execution.isQueueSubscribed
  arrivals : ∀ name, (queue.arrivals name).length =
    (history.filterMap Execution.isQueueEventDelivered).countP fun arrival => arrival.1 == name
  cancelled : ∀ id, id ∈ queue.cancelledSubscriptions ↔ id ∈ history.filterMap Execution.isQueueCancelled
  known : ∀ id, queue.isResolved id → id ∈ queue.subscriptions.map (·.1)
  /-- What a subscription took is at its place or behind it. -/
  taken : ∀ id, queue.isResolved id → ∀ name, (id, name) ∈ queue.subscriptions →
    queue.arrivalIndex id name < (queue.arrivals name).length

theorem isQueueSubscribed_iff {id : Nat} :
    Execution.isQueueSubscribed event = some (id, name) ↔ event.eventId = id ∧ event.kind = .queueSubscribed name := by
  obtain ⟨eventId, source, instanceId, executionId, timestamp, version, kind⟩ := event
  cases kind <;> simp [Execution.isQueueSubscribed]

/-- The subscriptions are numbered as their events. -/
theorem nodup_queueSubscriptions (ascending : Ascending history) :
    ((history.filterMap Execution.isQueueSubscribed).map (·.1)).Nodup := by
  rw [List.map_filterMap]
  refine List.Pairwise.filterMap _ ?_ ascending
  intro first second order id found other otherFound same
  obtain ⟨⟨_, firstName⟩, first', rfl⟩ := Option.map_eq_some_iff.mp found
  obtain ⟨⟨_, secondName⟩, second', rfl⟩ := Option.map_eq_some_iff.mp otherFound
  rw [← (isQueueSubscribed_iff.mp first').1, ← (isQueueSubscribed_iff.mp second').1] at same
  exact Nat.ne_of_lt order same

namespace ReadsQueue

variable {queue : QueueEvents}

theorem initial : ReadsQueue {} [] where
  subscriptions := rfl
  arrivals _ := rfl
  cancelled := by simp
  known := by simp [QueueEvents.isResolved]
  taken := by simp

/-- Taking a message changes what is resolved alone. -/
theorem getQueueMessage (reads : ReadsQueue queue history) (ascending : Ascending history) (id : Nat) :
    ReadsQueue (queue.getQueueMessage id).2 history := by
  have distinct := nodup_queueSubscriptions ascending
  rw [← reads.subscriptions] at distinct
  rcases getQueueMessage_cases queue id with unchanged | ⟨name, data, bound, _, _, found, taken⟩
  · rwa [unchanged]
  rw [taken]
  have listed := (subscriptionName_eq_some distinct).mp bound
  have split : ∀ other, QueueEvents.isResolved { queue with
      resolvedSubscriptions := queue.resolvedSubscriptions ++ [⟨id, name, queue.arrivalIndex id name, data⟩] } other →
      queue.isResolved other ∨ other = id := by
    intro other resolved
    simp only [QueueEvents.isResolved, List.any_append, List.any_cons, List.any_nil, Bool.or_false, Bool.or_eq_true,
      beq_iff_eq] at resolved ⊢
    exact resolved.imp_right Eq.symm
  refine ⟨reads.subscriptions, reads.arrivals, reads.cancelled, ?_, ?_⟩
  · intro other resolved
    rcases split other resolved with old | rfl
    · exact reads.known other old
    · exact mem_map_fst listed
  · intro other resolved otherName otherListed
    rcases split other resolved with old | rfl
    · exact reads.taken other old otherName otherListed
    · have same := (subscriptionName_eq_some distinct).mpr otherListed
      rw [bound] at same
      cases same
      exact (List.getElem?_eq_some_iff.mp found).1

/-- The place of a subscription does not grow when another one is cancelled. -/
theorem arrivalIndex_cancel_le (queue : QueueEvents) (id cancelled : Nat) (name : String) :
    (queue.markQueueSubscriptionCancelled cancelled).arrivalIndex id name ≤ queue.arrivalIndex id name := by
  apply List.countP_mono_left
  intro sub _ counts
  simp only [QueueEvents.markQueueSubscriptionCancelled, Finset.mem_insert, not_or, Bool.and_eq_true, beq_iff_eq,
    decide_eq_true_eq] at counts ⊢
  exact ⟨counts.1, counts.2.2⟩

/-- An event that is about no persistent wait. -/
theorem ignore (reads : ReadsQueue queue history) (unsubscribed : Execution.isQueueSubscribed event = none)
    (undelivered : Execution.isQueueEventDelivered event = none) (uncancelled : Execution.isQueueCancelled event = none) :
    ReadsQueue queue (history ++ [event]) where
  subscriptions := by simp [unsubscribed, reads.subscriptions]
  arrivals name := by simp [undelivered, reads.arrivals]
  cancelled id := by
    rw [List.filterMap_append, List.filterMap_cons, uncancelled]
    simpa using reads.cancelled id
  known := reads.known
  taken := reads.taken

theorem observe (reads : ReadsQueue queue history) (ascending : Ascending (history ++ [event])) :
    ReadsQueue (queue.observe event) (history ++ [event]) := by
  have above : ∀ earlier ∈ history, earlier.eventId < event.eventId := fun earlier member =>
    (List.pairwise_append.mp ascending).2.2 earlier member event (List.mem_singleton_self _)
  obtain ⟨eventId, source, instanceId, executionId, timestamp, version, kind⟩ := event
  cases kind with
  | queueSubscribed name =>
    have fresh : eventId ∉ queue.subscriptions.map (·.1) := by
      rw [reads.subscriptions]
      intro member
      obtain ⟨⟨id, subscribed⟩, listed, same⟩ := List.mem_map.mp member
      obtain ⟨earlier, present, found⟩ := List.mem_filterMap.mp listed
      have order := above earlier present
      rw [(isQueueSubscribed_iff.mp found).1] at order
      exact absurd same (Nat.ne_of_lt order)
    refine ⟨?_, ?_, ?_, ?_, ?_⟩
    · simp [QueueEvents.observe, QueueEvents.bindQueueSubscription, reads.subscriptions, Execution.isQueueSubscribed]
    · intro other
      rw [List.filterMap_append]
      exact (reads.arrivals other).trans (by simp [Execution.isQueueEventDelivered])
    · intro id
      rw [List.filterMap_append]
      exact (reads.cancelled id).trans (by simp [Execution.isQueueCancelled])
    · intro id resolved
      have old := reads.known id resolved
      simp only [QueueEvents.observe, QueueEvents.bindQueueSubscription, List.map_append, List.mem_append]
      exact .inl old
    · intro id resolved other listed
      have old := reads.known id resolved
      have different : id ≠ eventId := fun same => fresh (same ▸ old)
      have listed' : (id, other) ∈ queue.subscriptions := by
        rcases List.mem_append.mp listed with earlier | last
        · exact earlier
        · exact absurd (Prod.mk.inj (List.mem_singleton.mp last)).1 different
      have kept : (queue.bindQueueSubscription eventId name).arrivalIndex id other = queue.arrivalIndex id other := by
        rw [arrivalIndex_eq_rank, arrivalIndex_eq_rank]
        exact rank_append_of_mem old
      exact kept.trans_lt (reads.taken id resolved other listed')
  | queueEventDelivered name data =>
    refine ⟨?_, ?_, ?_, reads.known, ?_⟩
    · simp [QueueEvents.observe, QueueEvents.deliverQueueMessage, reads.subscriptions, Execution.isQueueSubscribed]
    · intro other
      have old := reads.arrivals other
      by_cases same : name = other
      · subst same
        simp [QueueEvents.observe, QueueEvents.deliverQueueMessage, Execution.isQueueEventDelivered, old]
      · simp [QueueEvents.observe, QueueEvents.deliverQueueMessage, Execution.isQueueEventDelivered, old,
          Function.update_of_ne (Ne.symm same), same]
    · intro id
      rw [List.filterMap_append]
      exact (reads.cancelled id).trans (by simp [Execution.isQueueCancelled])
    · intro id resolved other listed
      refine Nat.lt_of_lt_of_le (reads.taken id resolved other listed) ?_
      simp only [QueueEvents.observe, QueueEvents.deliverQueueMessage, Function.update_apply]
      split_ifs with same
      · simp [same]
      · exact Nat.le_refl _
  | queueSubscriptionCancelled reason =>
    cases source with
    | none => exact reads.ignore rfl rfl rfl
    | some id =>
      refine ⟨?_, ?_, ?_, reads.known, ?_⟩
      · simp [QueueEvents.observe, QueueEvents.markQueueSubscriptionCancelled, reads.subscriptions,
          Execution.isQueueSubscribed]
      · intro other
        rw [List.filterMap_append]
        exact (reads.arrivals other).trans (by simp [Execution.isQueueEventDelivered])
      · intro other
        simp [QueueEvents.observe, QueueEvents.markQueueSubscriptionCancelled, reads.cancelled,
          Execution.isQueueCancelled, or_comm]
      · intro other resolved otherName listed
        exact Nat.lt_of_le_of_lt (arrivalIndex_cancel_le queue other id otherName) (reads.taken other resolved otherName listed)
  | _ => exact reads.ignore rfl rfl rfl

end ReadsQueue

/-! ## Which persistent subscriptions a report resolves -/

/-- A subscription is resolved when its place among those of its name is below the number of messages. -/
theorem mem_resolvedQueueFrom {subs : List (Nat × String)} (distinct : (subs.map (·.1)).Nodup) {id : Nat}
    (listed : (id, name) ∈ subs) (available consumed : String → Nat) :
    id ∈ Execution.resolvedQueueFrom available consumed subs ↔
      consumed name + rank (·.1) (·.2 == name) id subs < available name := by
  have member : ∀ (rest : List (Nat × String)) (used : String → Nat) (other : Nat),
      other ∈ Execution.resolvedQueueFrom available used rest → other ∈ rest.map (·.1) := by
    intro rest
    induction rest with
    | nil => exact fun _ _ none => none
    | cons head tail ih =>
      intro used other resolved
      unfold Execution.resolvedQueueFrom at resolved
      split_ifs at resolved
      · rcases List.mem_cons.mp resolved with rfl | later
        · exact List.mem_cons_self
        · exact List.mem_cons_of_mem _ (ih _ _ later)
      · exact List.mem_cons_of_mem _ (ih _ _ resolved)
  induction subs generalizing consumed with
  | nil => cases listed
  | cons head rest ih =>
    obtain ⟨first, firstName⟩ := head
    obtain ⟨fresh, distinct⟩ := List.nodup_cons.mp distinct
    unfold Execution.resolvedQueueFrom
    by_cases here : first = id
    · subst here
      have same : firstName = name := by
        rcases List.mem_cons.mp listed with same | later
        · exact (Prod.mk.inj same).2.symm
        · exact absurd (mem_map_fst later) fresh
      subst same
      have front : rank (·.1) (·.2 == firstName) first ((first, firstName) :: rest) = 0 := by simp [rank, Lib.before]
      rw [front, Nat.add_zero]
      split_ifs with free
      · simp [free]
      · exact iff_of_false (fun resolved => fresh (member rest consumed first resolved)) free
    · have later : (id, name) ∈ rest := (List.mem_cons.mp listed).resolve_left fun same => here (Prod.mk.inj same).1.symm
      have moved : rank (·.1) (·.2 == name) id ((first, firstName) :: rest) =
          rank (·.1) (·.2 == name) id rest + if firstName == name then 1 else 0 := by
        simp [rank, Lib.before, here, List.countP_cons]
      rw [moved]
      by_cases free : consumed firstName < available firstName
      · rw [if_pos free, List.mem_cons, or_iff_right (Ne.symm here)]
        refine (ih distinct later (Function.update consumed firstName (consumed firstName + 1))).trans ?_
        by_cases same : firstName = name
        · subst same
          simp only [Function.update_self, beq_self_eq_true, if_true]
          omega
        · simp [Function.update_of_ne (Ne.symm same), same]
      · rw [if_neg free]
        refine (ih distinct later consumed).trans ?_
        by_cases same : firstName = name
        · subst same
          simp only [beq_self_eq_true, if_true]
          omega
        · simp [same]

/-- The place of an entry does not depend on entries that are not counted. -/
theorem rank_filter {subs : List (Nat × String)} (kept counted : Nat × String → Bool) {id : Nat}
    (keeps : ∀ sub ∈ subs, sub.1 = id → kept sub) :
    rank (·.1) counted id (subs.filter kept) = rank (·.1) (fun sub => counted sub && kept sub) id subs := by
  induction subs with
  | nil => rfl
  | cons head rest ih =>
    have later := ih fun sub member => keeps sub (List.mem_cons_of_mem _ member)
    by_cases here : head.1 = id
    · have stays := keeps head List.mem_cons_self here
      simp [rank, Lib.before, stays, here]
    · by_cases stays : kept head
      · simp only [rank, Lib.before, List.filter_cons_of_pos stays, ne_eq, here, not_false_eq_true, bne_iff_ne,
          List.takeWhile_cons_of_pos, List.countP_cons] at later ⊢
        rw [later, stays, Bool.and_true]
      · simp only [rank, Lib.before, List.filter_cons_of_neg stays, ne_eq, here, not_false_eq_true, bne_iff_ne,
          List.takeWhile_cons_of_pos, List.countP_cons] at later ⊢
        rw [later]
        simp [stays]

/-- A persistent subscription that is not cancelled, took nothing and has no message to return. -/
def QueueEvents.Empty (queue : QueueEvents) (id : Nat) : Prop :=
  id ∈ queue.subscriptions.map (·.1) ∧ id ∉ queue.cancelledSubscriptions ∧ ¬ queue.isResolved id ∧
    (queue.getQueueMessage id).1 = none

namespace ReadsQueue

variable {queue : QueueEvents}

/-- A mailbox has nothing for a subscription whose place is behind the messages of its name. -/
theorem empty_iff (reads : ReadsQueue queue history) (ascending : Ascending history) {id : Nat}
    (listed : (id, name) ∈ queue.subscriptions) (active : id ∉ queue.cancelledSubscriptions) :
    (¬ queue.isResolved id ∧ (queue.getQueueMessage id).1 = none) ↔
      ¬ queue.arrivalIndex id name < (queue.arrivals name).length := by
  have distinct := nodup_queueSubscriptions ascending
  rw [← reads.subscriptions] at distinct
  have bound := (subscriptionName_eq_some distinct).mpr listed
  by_cases resolved : queue.isResolved id
  · simp [resolved, reads.taken id resolved name listed]
  · unfold QueueEvents.getQueueMessage
    rw [bound]
    simp only [resolved, Bool.false_eq_true, if_false, active, not_false_eq_true, true_and]
    cases found : (queue.arrivals name)[queue.arrivalIndex id name]? with
    | none => simpa using found
    | some data => simpa using (List.getElem?_eq_some_iff.mp found).1

/-- A history reports a persistent subscription as outstanding exactly when the mailbox has nothing for it. -/
theorem outstanding_iff (reads : ReadsQueue queue history) (ascending : Ascending history) (id : Nat) :
    id ∈ (Execution.getOutstandingScheduleIds history).queueSubscriptions ↔ queue.Empty id := by
  have distinct := nodup_queueSubscriptions ascending
  have reported : id ∈ (Execution.getOutstandingScheduleIds history).queueSubscriptions ↔
      id ∈ queue.subscriptions.map (·.1) ∧ id ∉ queue.cancelledSubscriptions ∧
        id ∉ Execution.resolvedQueueFrom (fun name => (history.filterMap Execution.isQueueEventDelivered).countP
          fun arrival => arrival.1 == name) (fun _ => 0) (Execution.activeQueueSubs history) := by
    unfold Execution.getOutstandingScheduleIds
    simp only [List.mem_filter, Bool.and_eq_true, decide_eq_true_eq, reads.subscriptions, reads.cancelled]
    exact and_congr_right fun _ => and_comm
  rw [reported, QueueEvents.Empty]
  refine and_congr_right fun member => and_congr_right fun active => ?_
  obtain ⟨⟨other, name⟩, listed, same⟩ := List.mem_map.mp member
  obtain rfl : other = id := same
  rw [reads.empty_iff ascending listed active, arrivalIndex_eq_rank, reads.arrivals]
  have uncancelled : other ∉ history.filterMap Execution.isQueueCancelled := fun found =>
    active ((reads.cancelled _).mpr found)
  have kept : (other, name) ∈ Execution.activeQueueSubs history := by
    unfold Execution.activeQueueSubs
    rw [reads.subscriptions] at listed
    exact List.mem_filter.mpr ⟨listed, by simpa using uncancelled⟩
  have activeDistinct : ((Execution.activeQueueSubs history).map (·.1)).Nodup :=
    distinct.sublist (List.filter_sublist.map _)
  rw [mem_resolvedQueueFrom activeDistinct kept, Nat.zero_add]
  have places : rank (·.1) (·.2 == name) other (Execution.activeQueueSubs history) =
      rank (·.1) (counted queue name) other queue.subscriptions := by
    unfold Execution.activeQueueSubs
    rw [rank_filter, reads.subscriptions]
    · refine rank_congr fun sub _ => ?_
      simp only [counted, reads.cancelled]
    · intro sub _ same
      rw [same]
      simpa using uncancelled
  rw [places]

end ReadsQueue

/-! ## The mailbox of a replay -/

namespace CtxInner

variable {ctx after : CtxInner}

/-- A context call takes at most one message from the mailbox. -/
theorem perform_queue {request : CtxCall} {reply : request.Reply} (performed : ctx.perform request = .ok (reply, after)) :
    after.queue = ctx.queue ∨ ∃ id, after.queue = (ctx.queue.getQueueMessage id).2 := by
  obtain ⟨_, _, _, _, _, _, _, _, _, rfl, taken⟩ := perform_frame performed
  exact taken

theorem readsQueue_of_run {State : Type} (script : Script State) (ascending : Ascending history)
    (reads : ReadsQueue ctx.queue history) : ReadsQueue (script.run ctx).2.queue history := by
  induction script generalizing ctx with
  | suspend | finish | panic => exact reads
  | call request next ih =>
    unfold Script.run
    rcases performed : ctx.perform request with message | ⟨reply, after⟩
    · exact reads
    · apply ih reply
      rcases perform_queue performed with same | ⟨id, taken⟩
      · rwa [same]
      · rw [taken]
        exact reads.getQueueMessage ascending id

theorem deliverTo_queue (ctx : CtxInner) (source : Option Nat) (result : CompletionResult) :
    (ctx.deliverTo source result).queue = ctx.queue := by
  obtain ⟨results, same⟩ := deliverTo_frame ctx source result
  rw [same]

theorem observe_queue (ctx : CtxInner) (event : Event) (noSchedule : event.kind.isSchedule = false) :
    (ctx.observe event).queue = ctx.queue.observe event := by
  obtain ⟨eventId, source, instanceId, executionId, timestamp, version, kind⟩ := event
  cases kind with
  | activityCompleted | activityFailed | timerFired | subOrchestrationCompleted | subOrchestrationFailed =>
    exact deliverTo_queue ..
  | orchestrationStarted name version input parentInstance parentId carried status => cases status <;> rfl
  | externalSubscribedCancelled | queueSubscriptionCancelled => cases source <;> rfl
  | externalEvent name data =>
    unfold CtxInner.observe
    dsimp only
    split_ifs <;> rfl
  | queueSubscribed => cases noSchedule
  | _ => rfl

theorem bindSchedule_queue (ctx : CtxInner) (token : Nat) (event : Event) (binds : event.kind.isSchedule) :
    (ctx.bindSchedule token event).queue = ctx.queue.observe event := by
  obtain ⟨eventId, source, instanceId, executionId, timestamp, version, kind⟩ := event
  cases kind <;> first | rfl | cases binds

end CtxInner

namespace Replay

variable {State : Type} {poll : State → Script State} {replay drained after middle : Replay State}

theorem applyHistoryEvent_queue (applied : replay.applyHistoryEvent event = .ok after) :
    after.ctx.queue = replay.ctx.queue.observe event := by
  obtain ⟨applies, _, _⟩ := applyHistoryEvent_spec applied
  have forgotten : event.kind.isFireAndForget → replay.ctx.queue.observe event = replay.ctx.queue := by
    intro forgets
    unfold QueueEvents.observe
    split <;> rename_i kind <;> first | rfl | (rw [kind] at forgets; cases forgets)
  cases applies with
  | bound token action schedules waiting matched ctx =>
    rw [ctx]
    exact CtxInner.bindSchedule_queue replay.ctx token event schedules
  | consumed token action forgets waiting matched ctx => rw [ctx, forgotten forgets]
  | skipped forgets nothing same => rw [same, forgotten forgets]
  | observed noSchedule remembered kept ctx =>
    rw [ctx]
    exact CtxInner.observe_queue replay.ctx event noSchedule

theorem readsQueue_of_poll (ascending : Ascending history) (reads : ReadsQueue replay.ctx.queue history)
    (ran : replay.pollIfNeeded poll = .ok drained) : ReadsQueue drained.ctx.queue history := by
  rcases pollIfNeeded_spec ran with ⟨_, rfl⟩ | ⟨taken, mustPoll, _, polled, rfl, _⟩
  · exact reads
  · have kept := CtxInner.readsQueue_of_run (poll replay.fut) ascending reads
    obtain ⟨result, ctx, fut, output, outcome, rfl, _⟩ := pollOrchestrationFuture_spec polled
    rwa [outcome] at kept

/-- A replay that is still running has put the whole history into its mailbox. -/
theorem readsQueue_of_applyHistory {before : List Event} (ascending : Ascending (before ++ history))
    (reads : ReadsQueue replay.ctx.queue before) (ran : replay.applyHistory poll history = .ok middle)
    (running : middle.output = none) : ReadsQueue middle.ctx.queue (before ++ history) := by
  induction history generalizing before replay with
  | nil =>
    cases ran
    rwa [List.append_nil]
  | cons event rest ih =>
    obtain ⟨drained, after, polled, _, applied, later⟩ := applyHistory_cons_spec ran running
    rw [List.append_cons] at ascending ⊢
    have earlier : Ascending (before ++ [event]) := (List.pairwise_append.mp ascending).1
    have reading := readsQueue_of_poll (List.pairwise_append.mp earlier).1 reads polled
    refine ih ascending ?_ later
    rw [applyHistoryEvent_queue applied]
    exact reading.observe earlier

end Replay

/-! ## Which positional subscriptions a report resolves -/

/-- The ledger of an event name after a history. -/
def ledgerOf (name : String) (history : List Event) : Ledger Nat := Ledger.after (waitOps name history)

theorem ledgerOf_append (name : String) (history : List Event) (event : Event) :
    ledgerOf name (history ++ [event]) =
      match waitOp name event with
      | some op => (ledgerOf name history).apply op
      | none => ledgerOf name history := by
  rw [ledgerOf, waitOps_append]
  cases waitOp name event with
  | none => simp [ledgerOf]
  | some op => exact Ledger.after_append _ op

/-- The ledger keeps the slots of a history. -/
theorem keeps_ledgerOf (recorded : Recorded history) (name : String) :
    Ledger.Keeps (ledgerOf name history) (slotsOf name history) := by
  induction history using List.reverseRecOn with
  | nil => exact ⟨List.nodup_nil, rfl, rfl⟩
  | append_singleton history event ih =>
    rw [ledgerOf_append, slotsOf_append]
    cases does : waitOp name event with
    | none => exact ih recorded.earlier
    | some op =>
      refine (ih recorded.earlier).apply ?_
      rintro holder rfl held
      rcases waitOp_cases name event with ⟨claims, _⟩ | ⟨id, op, _⟩ | ⟨data, op, _⟩ | ⟨op, _⟩
      · rw [does] at claims
        cases claims
        have subscribed := (Slots.holders_sublist (waitOps name history)).subset held
        obtain ⟨source, listed, same, _⟩ := exists_of_subscriber subscribed
        exact Nat.ne_of_lt (recorded.above source listed) same
      · rw [does] at op
        cases op
      · rw [does] at op
        cases op
      · rw [does] at op
        cases op

/-- Positional matching as the report makes it. -/
def matchingOf (history : List Event) : Execution.PositionalMatch := history.foldl Execution.PositionalMatch.step {}

/-- Pending subscriptions of a name, oldest first. -/
def pendingOf (matching : Execution.PositionalMatch) (name : String) : List Nat :=
  (matching.pending.filter (·.1 == name)).map (·.2)

/-- The report serves the subscriptions as the ledgers do. -/
structure Serves (matching : Execution.PositionalMatch) (history : List Event) : Prop where
  waiting : ∀ name, pendingOf matching name = (ledgerOf name history).waiting
  resolved : ∀ name, ∀ id ∈ (slotsOf name history).holders, id ∈ matching.resolved ↔ id ∈ (ledgerOf name history).served
  known : ∀ id ∈ matching.resolved, ∃ name, id ∈ subscribers name history

/-- A subscription has one name. -/
theorem name_of_subscriber (recorded : Recorded history) {id : Nat} {other : String} (subscribed : id ∈ subscribers name history)
    (otherSubscribed : id ∈ subscribers other history) : name = other := by
  obtain ⟨event, listed, rfl, kind⟩ := exists_of_subscriber subscribed
  obtain ⟨source, present, same, otherKind⟩ := exists_of_subscriber otherSubscribed
  have distinct : (history.map (·.eventId)).Nodup :=
    List.pairwise_map.mpr (recorded.ascending.imp fun order => Nat.ne_of_lt order)
  obtain rfl := List.inj_on_of_nodup_map distinct present listed same
  rw [kind] at otherKind
  cases otherKind
  rfl

theorem find_pending (matching : Execution.PositionalMatch) (name : String) :
    (matching.pending.find? (·.1 == name)).map (·.2) = (pendingOf matching name).head? := by
  rw [pendingOf, List.head?_map, List.head?_filter]

theorem pendingOf_eraseP (matching : Execution.PositionalMatch) (name other : String) :
    pendingOf { matching with pending := matching.pending.eraseP (·.1 == name) } other =
      if name = other then (pendingOf matching other).tail else pendingOf matching other := by
  simp only [pendingOf]
  induction matching.pending with
  | nil => simp
  | cons head rest ih =>
    by_cases first : head.1 = name
    · rw [List.eraseP_cons_of_pos (by simpa using first)]
      by_cases same : name = other
      · simp [same, first]
      · simp [same, first]
    · rw [List.eraseP_cons_of_neg (by simpa using first)]
      by_cases here : head.1 = other
      · have different : ¬ name = other := fun same => first (here.trans same.symm)
        rw [if_neg different] at ih ⊢
        simp [here, ih]
      · simp [here, ih]

theorem subscribers_subset (name : String) (history : List Event) (event : Event) {id : Nat}
    (subscribed : id ∈ subscribers name history) : id ∈ subscribers name (history ++ [event]) := by
  rw [subscribers_append]
  exact List.mem_append_left _ subscribed

theorem subscribed_of_held {id : Nat} (held : id ∈ (slotsOf name history).holders) : id ∈ subscribers name history :=
  (Slots.holders_sublist (waitOps name history)).subset held

theorem subscriber_ne (recorded : Recorded (history ++ [event])) {id : Nat} (subscribed : id ∈ subscribers name history) :
    id ≠ event.eventId := by
  obtain ⟨source, listed, rfl, _⟩ := exists_of_subscriber subscribed
  exact Nat.ne_of_lt (recorded.above source listed)

namespace Serves

variable {matching : Execution.PositionalMatch}

theorem initial : Serves {} [] where
  waiting _ := rfl
  resolved := by simp [slotsOf, waitOps, Slots.after]
  known := by simp

/-- An event that is about no positional wait. -/
theorem ignore (serves : Serves matching history) (nothing : ∀ name, waitOp name event = none) :
    Serves matching (history ++ [event]) where
  waiting name := by rw [ledgerOf_append, nothing, serves.waiting]
  resolved name id held := by
    rw [slotsOf_append, nothing] at held
    rw [ledgerOf_append, nothing]
    exact serves.resolved name id held
  known id resolved := by
    obtain ⟨name, subscribed⟩ := serves.known id resolved
    exact ⟨name, subscribers_subset name history event subscribed⟩

theorem subscribe (serves : Serves matching history) (recorded : Recorded (history ++ [event])) {name : String}
    (kind : event.kind = .externalSubscribed name) :
    Serves { matching with pending := matching.pending ++ [(name, event.eventId)] } (history ++ [event]) := by
  have op : ∀ other, waitOp other event = if name = other then some (.claim event.eventId) else none := by
    intro other
    simp only [waitOp, kind]
  constructor
  · intro other
    have old := serves.waiting other
    rw [ledgerOf_append, op]
    by_cases same : name = other
    · subst same
      simpa [pendingOf, Ledger.apply] using old
    · simpa [pendingOf, same] using old
  · intro other id held
    have old := serves.resolved other id
    have keeps := keeps_ledgerOf recorded.earlier other
    rw [slotsOf_append, op] at held
    rw [ledgerOf_append, op]
    by_cases same : name = other
    · rw [if_pos same] at held ⊢
      simp only [Slots.apply, List.mem_append, List.mem_singleton] at held
      rcases held with earlier | rfl
      · exact old earlier
      · -- The new subscription is neither resolved nor served.
        refine iff_of_false (fun resolved => ?_) (fun served => ?_)
        · obtain ⟨known, subscribed⟩ := serves.known _ resolved
          exact subscriber_ne recorded subscribed rfl
        · have held : event.eventId ∈ (slotsOf other history).holders := by
            rw [keeps.holders]
            exact List.mem_append_left _ served
          exact subscriber_ne recorded (subscribed_of_held held) rfl
    · rw [if_neg same] at held ⊢
      exact old held
  · intro id resolved
    obtain ⟨known, subscribed⟩ := serves.known id resolved
    exact ⟨known, subscribers_subset known history event subscribed⟩

theorem cancel (serves : Serves matching history) (recorded : Recorded (history ++ [event])) {source : Nat}
    (op : ∀ name, waitOp name event = some (.release source)) :
    Serves { matching with pending := matching.pending.filter (·.2 != source) } (history ++ [event]) := by
  constructor
  · intro name
    have keeps := keeps_ledgerOf recorded.earlier name
    have distinct := keeps.distinct
    rw [keeps.holders, List.nodup_append] at distinct
    have filtered : pendingOf { matching with pending := matching.pending.filter (·.2 != source) } name =
        (ledgerOf name history).waiting.filter (· != source) := by
      rw [← serves.waiting]
      simp only [pendingOf, List.filter_filter, List.filter_map]
      congr 1
      exact List.filter_congr fun entry _ => by simp [Bool.and_comm]
    rw [filtered, ledgerOf_append, op]
    simp only [Ledger.apply]
    split_ifs with served
    · refine List.filter_eq_self.mpr fun id waits => ?_
      rw [bne_iff_ne]
      rintro rfl
      exact distinct.2.2 id served id waits rfl
    · exact (distinct.2.1.erase_eq_filter source).symm
  · intro name id held
    have keeps := keeps_ledgerOf recorded.earlier name
    rw [slotsOf_append, op] at held
    have different : id ≠ source := by
      rintro rfl
      exact keeps.distinct.not_mem_erase held
    rw [ledgerOf_append, op, serves.resolved name id (List.mem_of_mem_erase held)]
    simp only [Ledger.apply]
    split_ifs with served
    · exact (List.mem_erase_of_ne different).symm
    · rfl
  · intro id resolved
    obtain ⟨known, subscribed⟩ := serves.known id resolved
    exact ⟨known, subscribers_subset known history event subscribed⟩

theorem raise (serves : Serves matching history) (recorded : Recorded (history ++ [event])) {name data : String}
    (kind : event.kind = .externalEvent name data) : Serves (matching.step event) (history ++ [event]) := by
  have op : ∀ other, waitOp other event = if name = other then some (.offer event) else none := by
    intro other
    simp only [waitOp, kind]
  have holders : ∀ other, (slotsOf other (history ++ [event])).holders = (slotsOf other history).holders := by
    intro other
    rw [slotsOf_append, op]
    split_ifs
    · exact holders_offer _ _
    · rfl
  have found := find_pending matching name
  rw [serves.waiting] at found
  cases waits : (ledgerOf name history).waiting with
  | nil =>
    have unserved : matching.pending.find? (·.1 == name) = none := by
      rw [waits, List.head?_nil, Option.map_eq_none_iff] at found
      exact found
    have same : matching.step event = matching := by simp only [Execution.PositionalMatch.step, kind, unserved]
    have ledger : ∀ other, ledgerOf other (history ++ [event]) = ledgerOf other history := by
      intro other
      rw [ledgerOf_append, op]
      by_cases here : name = other
      · subst here
        simp [Ledger.apply, waits]
      · simp [here]
    rw [same]
    refine ⟨fun other => by rw [ledger, serves.waiting], fun other id held => ?_, fun id resolved => ?_⟩
    · rw [holders] at held
      rw [ledger]
      exact serves.resolved other id held
    · obtain ⟨known, subscribed⟩ := serves.known id resolved
      exact ⟨known, subscribers_subset known history event subscribed⟩
  | cons next rest =>
    rw [waits, List.head?_cons] at found
    obtain ⟨⟨pendingName, id⟩, first, rfl⟩ := Option.map_eq_some_iff.mp found
    have stepped : matching.step event =
        { pending := matching.pending.eraseP (·.1 == name), resolved := matching.resolved ++ [id] } := by
      simp only [Execution.PositionalMatch.step, kind, first]
    have held : id ∈ (slotsOf name history).holders := by
      rw [(keeps_ledgerOf recorded.earlier name).holders, waits]
      simp
    rw [stepped]
    refine ⟨fun other => ?_, fun other otherId otherHeld => ?_, fun otherId resolved => ?_⟩
    · have erased := pendingOf_eraseP matching name other
      rw [serves.waiting] at erased
      refine erased.trans ?_
      rw [ledgerOf_append, op]
      by_cases here : name = other
      · subst here
        simp [Ledger.apply, waits]
      · simp [here]
    · rw [holders] at otherHeld
      have old := serves.resolved other otherId otherHeld
      rw [ledgerOf_append, op]
      by_cases here : name = other
      · subst here
        simp [Ledger.apply, waits, old]
      · have different : otherId ≠ id := by
          rintro rfl
          exact here (name_of_subscriber recorded.earlier (subscribed_of_held held) (subscribed_of_held otherHeld))
        simp [here, old, different]
    · rw [List.mem_append, List.mem_singleton] at resolved
      rcases resolved with earlier | rfl
      · obtain ⟨known, subscribed⟩ := serves.known otherId earlier
        exact ⟨known, subscribers_subset known history event subscribed⟩
      · exact ⟨name, subscribers_subset name history event (subscribed_of_held held)⟩

theorem step (serves : Serves matching history) (recorded : Recorded (history ++ [event])) :
    Serves (matching.step event) (history ++ [event]) := by
  obtain ⟨eventId, source, instanceId, executionId, timestamp, version, kind⟩ := event
  cases kind with
  | externalSubscribed name => exact serves.subscribe recorded rfl
  | externalSubscribedCancelled reason =>
    cases source with
    | none => exact serves.ignore fun _ => rfl
    | some id => exact serves.cancel recorded fun _ => rfl
  | externalEvent name data => exact serves.raise recorded rfl
  | _ => exact serves.ignore fun _ => rfl

end Serves

theorem serves_matchingOf (recorded : Recorded history) : Serves (matchingOf history) history := by
  induction history using List.reverseRecOn with
  | nil => exact .initial
  | append_singleton history event ih =>
    rw [matchingOf, List.foldl_append]
    exact (ih recorded.earlier).step recorded

/-! ## What a report gets right -/

/-- A positional subscription that is not cancelled and has no event to return. -/
def ExternalEvents.Empty (external : ExternalEvents) (id : Nat) : Prop :=
  id ∈ external.subscriptions ∧ id ∉ external.cancelledSubscriptions ∧ external.getExternalEvent id = none

theorem Represents.mem_subscriptions {external : ExternalEvents} (represents : Represents external history) (id : Nat) :
    id ∈ external.subscriptions ↔ ∃ name, id ∈ subscribers name history := by
  rw [← AList.lookup_isSome, Option.isSome_iff_exists]
  constructor
  · rintro ⟨⟨name, index⟩, found⟩
    exact ⟨name, List.mem_of_getElem? (represents.lookup_iff.mp found)⟩
  · rintro ⟨name, subscribed⟩
    obtain ⟨index, found⟩ := List.mem_iff_getElem?.mp subscribed
    exact ⟨(name, index), represents.lookup_iff.mpr found⟩

theorem sourcesOf_cancelled {isCancelled : EventKind → Bool}
    (cancels : ∀ kind, isCancelled kind = (match kind with | .externalSubscribedCancelled _ => true | _ => false)) :
    HistoryManager.sourcesOf history isCancelled = cancelledWaits history := by
  unfold HistoryManager.sourcesOf cancelledWaits
  refine List.filterMap_congr fun event _ => ?_
  rw [cancels]
  unfold cancelsWait
  cases event.kind <;> rfl

theorem mem_positionalSubscriptions (id : Nat) :
    id ∈ (Execution.getOutstandingScheduleIds history).positionalSubscriptions ↔
      (∃ name, id ∈ subscribers name history) ∧ id ∉ (matchingOf history).resolved ∧ id ∉ cancelledWaits history := by
  unfold Execution.getOutstandingScheduleIds
  dsimp only
  rw [sourcesOf_cancelled fun kind => by cases kind <;> rfl, List.mem_filterMap]
  constructor
  · rintro ⟨event, listed, reports⟩
    split at reports
    · rename_i name kind
      split_ifs at reports with outstanding
      cases reports
      simp only [Bool.and_eq_true, decide_eq_true_eq] at outstanding
      refine ⟨⟨name, ?_⟩, outstanding⟩
      refine List.mem_filterMap.mpr ⟨.claim event.eventId, List.mem_filterMap.mpr ⟨event, listed, ?_⟩, rfl⟩
      simp only [waitOp, kind, if_true]
    · cases reports
  · rintro ⟨⟨name, subscribed⟩, unresolved, active⟩
    obtain ⟨event, listed, rfl, kind⟩ := exists_of_subscriber subscribed
    refine ⟨event, listed, ?_⟩
    rw [kind]
    exact if_pos (by simp only [Bool.and_eq_true, decide_eq_true_eq]; exact ⟨unresolved, active⟩)

/-- The report of a history and the slots of its context agree if and only if the ledger of every name is balanced or
nobody waits in it. -/
theorem positional_agree_iff (recorded : Recorded history) :
    (∀ id, id ∈ (Execution.getOutstandingScheduleIds history).positionalSubscriptions ↔ (externalOf history).Empty id) ↔
      ∀ name, (ledgerOf name history).surplus = 0 ∨ (ledgerOf name history).waiting = [] := by
  have represents := represents_externalOf recorded
  have serves := serves_matchingOf recorded
  have active : ∀ name id, id ∈ (slotsOf name history).holders ↔ id ∈ subscribers name history ∧ id ∉ cancelledWaits history := by
    intro name id
    rw [holders_slotsOf recorded, List.mem_filter, decide_eq_true_iff]
  -- On a slot, the report goes by the ledger and the context by the item.
  have reports : ∀ name id, id ∈ (slotsOf name history).holders →
      (id ∈ (Execution.getOutstandingScheduleIds history).positionalSubscriptions ↔ id ∉ (ledgerOf name history).served) := by
    intro name id held
    obtain ⟨subscribed, uncancelled⟩ := (active name id).mp held
    rw [mem_positionalSubscriptions, serves.resolved name id held]
    exact ⟨fun outstanding => outstanding.2.1, fun unserved => ⟨⟨name, subscribed⟩, unserved, uncancelled⟩⟩
  have empty : ∀ name id, id ∈ (slotsOf name history).holders →
      ((externalOf history).Empty id ↔ (slotsOf name history).item id = none) := by
    intro name id held
    obtain ⟨subscribed, uncancelled⟩ := (active name id).mp held
    rw [ExternalEvents.Empty, represents.mem_subscriptions, represents.cancelled,
      represents.getExternalEvent recorded subscribed, Option.map_eq_none_iff]
    exact ⟨fun waits => waits.2.2, fun none => ⟨⟨name, subscribed⟩, uncancelled, none⟩⟩
  constructor
  · intro agree name
    apply (keeps_ledgerOf recorded name).agree_iff.mp
    intro id held
    rw [← empty name id held, ← reports name id held, agree id]
  · intro balanced id
    constructor
    · intro outstanding
      obtain ⟨⟨name, subscribed⟩, _, uncancelled⟩ := (mem_positionalSubscriptions id).mp outstanding
      have held := (active name id).mpr ⟨subscribed, uncancelled⟩
      rw [empty name id held, (keeps_ledgerOf recorded name).agree_iff.mpr (balanced name) id held]
      exact (reports name id held).mp outstanding
    · intro waits
      obtain ⟨name, subscribed⟩ := (represents.mem_subscriptions id).mp waits.1
      have uncancelled : id ∉ cancelledWaits history := fun found => waits.2.1 ((represents.cancelled id).mpr found)
      have held := (active name id).mpr ⟨subscribed, uncancelled⟩
      rw [reports name id held, ← (keeps_ledgerOf recorded name).agree_iff.mpr (balanced name) id held]
      exact (empty name id held).mp waits

/-- What a history reports as outstanding is what the replayed context has nothing to return for, if and only if no
event name has both an event in surplus and a subscription that waits. An event is in surplus when the subscription
that it was matched to is cancelled afterwards, until the slots refuse a later event in its place. -/
theorem outstanding_iff_empty {engine : ReplayEngine} {handler : OrchestrationHandler}
    {input orchestrationName orchestrationVersion : String} {middle replay : Replay handler.State}
    (recorded : Recorded history)
    (replayed : (engine.firstReplay handler input orchestrationName orchestrationVersion history).applyHistory
      handler.poll history = .ok middle) (running : middle.output = none)
    (polled : middle.pollIfNeeded handler.poll = .ok replay) :
    ((∀ id, id ∈ (Execution.getOutstandingScheduleIds history).positionalSubscriptions ↔ replay.ctx.external.Empty id) ∧
      ∀ id, id ∈ (Execution.getOutstandingScheduleIds history).queueSubscriptions ↔ replay.ctx.queue.Empty id) ↔
    ∀ name, (ledgerOf name history).surplus = 0 ∨ (ledgerOf name history).waiting = [] := by
  have external : replay.ctx.external = externalOf history :=
    (Replay.pollIfNeeded_external polled).trans (Replay.applyHistory_external replayed running)
  have reads : ReadsQueue replay.ctx.queue history := by
    apply Replay.readsQueue_of_poll recorded.ascending _ polled
    rw [← List.nil_append history]
    exact Replay.readsQueue_of_applyHistory recorded.ascending .initial replayed running
  rw [external, positional_agree_iff recorded]
  exact and_iff_left fun id => reads.outstanding_iff recorded.ascending id

/-! A program that waits twice for an event and drops the first wait after an activity. -/

def droppingHandler : OrchestrationHandler where
  State := Option (Nat × Nat)
  invoke _ := none
  poll
    | none => .call (.scheduleWait "n") fun first => .call (.scheduleWait "n") fun _ =>
        .call (.scheduleActivity "work" "" none) fun activity => .suspend (some (first, activity))
    | some (first, activity) => .call (.pollFuture activity) fun
        | some _ => .call (.dropFuture first) fun _ => .suspend (some (first, activity))
        | none => .suspend (some (first, activity))

/-- What the program has recorded when an event and the activity's result have come. -/
def droppedLate : List Event :=
  bothWaiting ++ [waitEvent 4 none (.activityScheduled "work" "" none none), waitEvent 5 none (.externalEvent "n" "first"),
    waitEvent 6 (some 4) (.activityCompleted "")]

/-- The breadcrumb of the dropped wait. -/
def lateBreadcrumb : Event := waitEvent 7 (some 2) (.externalSubscribedCancelled ReplayEngine.droppedFuture)

def droppingTurn : ReplayEngine := ReplayEngine.new ⟨0, "0.1.0"⟩ "i" 1 droppedLate

theorem outstanding_iff_empty_dropping : ∃ replay : Replay droppingHandler.State,
    ((∀ id, id ∈ (Execution.getOutstandingScheduleIds droppedLate).positionalSubscriptions ↔ replay.ctx.external.Empty id) ∧
      ∀ id, id ∈ (Execution.getOutstandingScheduleIds droppedLate).queueSubscriptions ↔ replay.ctx.queue.Empty id) ↔
    ∀ name, (ledgerOf name droppedLate).surplus = 0 ∨ (ledgerOf name droppedLate).waiting = [] :=
  ⟨_, @outstanding_iff_empty _ droppingTurn droppingHandler "" "o" "1.0.0" _ _ ⟨by decide, by decide⟩ rfl rfl rfl⟩

/-- The event stays in its slot when the wait that it was matched to is dropped, and the second wait moves up to it;
the second wait is reported as outstanding all the same. -/
theorem outstanding_with_event :
    (droppingTurn.executeOrchestration droppingHandler "" "o" "1.0.0").2.historyDelta = [lateBreadcrumb] ∧
      Recorded (droppedLate ++ [lateBreadcrumb]) ∧
      3 ∈ (Execution.getOutstandingScheduleIds (droppedLate ++ [lateBreadcrumb])).positionalSubscriptions ∧
      ∃ middle replay, (droppingTurn.firstReplay droppingHandler "" "o" "1.0.0" (droppedLate ++ [lateBreadcrumb])).applyHistory
        droppingHandler.poll (droppedLate ++ [lateBreadcrumb]) = .ok middle ∧
        middle.pollIfNeeded droppingHandler.poll = .ok replay ∧ replay.ctx.external.getExternalEvent 3 = some "first" ∧
        ¬ replay.ctx.external.Empty 3 := by
  refine ⟨by decide +kernel, ⟨by decide, by decide⟩, by decide, _, _, rfl, rfl, by decide +kernel, ?_⟩
  rintro ⟨_, _, none⟩
  exact absurd none (by decide +kernel)

end Duroxide
