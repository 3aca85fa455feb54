import Duroxide.Proofs.Bindings
import Duroxide.Proofs.ExternalSlots

/-! # Delivery of positional events

Every poll of an execution, live or replayed, reads the slots of a prefix of the execution's history. As long as no
breadcrumb cancels a subscription that has an event in its slot, an event stays with the subscription it went to: it
is returned to that one alone, in subscription order, and by every poll alike.
-/

namespace Duroxide

open Lib

variable {history seen before rest : List Event} {event : Event} {name : String} {ctx : CtxInner}

/-! ## The polls of a turn -/

/-- One context call of the program. -/
def CtxInner.Calls (ctx after : CtxInner) : Prop :=
  ∃ (request : CtxCall) (reply : request.Reply), ctx.perform request = .ok (reply, after)

/-- The contexts in which the program of a turn runs, each with the events that it has read. -/
inductive Polls (engine : ReplayEngine) (handler : OrchestrationHandler) (input orchestrationName
    orchestrationVersion : String) : List Event → CtxInner → Prop
  | replaying {before rest : List Event} {middle : Replay handler.State} {ctx : CtxInner}
      (split : engine.baselineHistory ++ engine.historyDelta = before ++ rest)
      (replayed : (engine.firstReplay handler input orchestrationName orchestrationVersion
        (before ++ rest)).applyHistory handler.poll before = .ok middle) (running : middle.output = none)
      (calls : Relation.ReflTransGen CtxInner.Calls middle.ctx ctx) :
      Polls engine handler input orchestrationName orchestrationVersion before ctx
  | live {replay : Replay handler.State} {state : Evaluation}
      (replayed : engine.replayHistory handler input orchestrationName orchestrationVersion
        (engine.baselineHistory ++ engine.historyDelta) = .ok replay) (running : replay.output = none)
      (steps : Evaluation.Steps (.of engine [] replay) state) :
      Polls engine handler input orchestrationName orchestrationVersion
        (state.engine.baselineHistory ++ state.engine.historyDelta) state.ctx

theorem external_of_calls {after : CtxInner} (calls : Relation.ReflTransGen CtxInner.Calls ctx after) :
    after.external = ctx.external := by
  induction calls with
  | refl => rfl
  | tail _ call ih =>
    obtain ⟨request, reply, performed⟩ := call
    exact (CtxInner.perform_external performed).trans ih

/-- What an evaluation records beyond its history reaches the context as it is recorded. -/
theorem external_of_live {source target : Evaluation} (steps : Evaluation.Steps source target)
    (exhausted : source.unread = []) : target.unread = [] ∧
      target.engine.baselineHistory = source.engine.baselineHistory ∧
      ∃ recorded, target.engine.historyDelta = source.engine.historyDelta ++ recorded ∧
        target.ctx.external = recorded.foldl ExternalEvents.observe source.ctx.external := by
  induction steps with
  | refl => exact ⟨exhausted, rfl, [], (List.append_nil _).symm, rfl⟩
  | tail _ step ih =>
    obtain ⟨unread, baseline, recorded, delta, external⟩ := ih
    cases step with
    | called request reply performed =>
      exact ⟨unread, baseline, recorded, delta, (CtxInner.perform_external performed).trans external⟩
    | drained => exact ⟨unread, baseline, recorded, delta, external⟩
    | bound | consumed | skipped | observed => cases unread
    | @marked _ _ _ ctx =>
      obtain ⟨queue, marked⟩ := ctx.markDroppedQueueWaits_frame
      exact ⟨unread, baseline, recorded, delta, (congrArg CtxInner.external marked).trans external⟩
    | @converted engine _ emitted later ctx =>
      obtain ⟨token, action⟩ := emitted
      dsimp only at delta external
      refine ⟨unread, baseline, recorded ++ (actionToEvent engine.stamp (updateActionEventId action engine.nextEventId)
        engine.instanceId engine.executionId engine.nextEventId).toList, ?_, ?_⟩
      · dsimp only
        rw [CtxInner.Linked.convertEmittedAction_delta, delta, List.append_assoc]
      · dsimp only
        rw [List.foldl_append, ← external, CtxInner.Linked.convertEmittedAction_ctx]
        cases actionEvent : actionToEvent engine.stamp (updateActionEventId action engine.nextEventId) engine.instanceId
            engine.executionId engine.nextEventId with
        | none => rfl
        | some event =>
          have binds : event.kind.isSchedule ∨ event.kind.isFireAndForget := by
            cases action <;> cases actionEvent <;> first | exact .inl rfl | exact .inr rfl
          exact CtxInner.bindSchedule_external ctx token event binds

variable {engine : ReplayEngine} {handler : OrchestrationHandler} {input orchestrationName orchestrationVersion : String}

/-- Every poll reads the positional events of what it has seen. -/
theorem Polls.external (polls : Polls engine handler input orchestrationName orchestrationVersion seen ctx) :
    ctx.external = externalOf seen := by
  cases polls with
  | replaying split replayed running calls =>
    rw [external_of_calls calls]
    exact Replay.applyHistory_external replayed running
  | @live replay state replayed running steps =>
    obtain ⟨applied, ran, last⟩ := ok_of_bind replayed
    have pending : applied.output = none ∧ replay.ctx.external = applied.ctx.external := by
      split_ifs at last with polled
      · simp only [Bool.and_eq_true, Option.isNone_iff_eq_none] at polled
        exact ⟨polled.2, Replay.pollOrchestrationFuture_external last⟩
      · cases last
        exact ⟨running, rfl⟩
    obtain ⟨_, baseline, recorded, delta, external⟩ := external_of_live steps rfl
    rw [external, baseline, delta, ← List.append_assoc]
    unfold externalOf
    rw [List.foldl_append]
    congr 1
    exact pending.2.trans (Replay.applyHistory_external ran pending.1)

/-! ## Timely breadcrumbs -/

/-- No breadcrumb cancels a subscription that has an event in its slot. -/
def Timely (history : List Event) : Prop :=
  ∀ before event rest, history = before ++ event :: rest → ∀ id, cancelsWait event = some id →
    (externalOf before).getExternalEvent id = none

theorem Timely.earlier (timely : Timely (before ++ rest)) : Timely before :=
  fun first event later split => timely first event (later ++ rest) (by rw [split, List.append_assoc, List.cons_append])

/-- An operation on the slots of a name comes from an event of the history. -/
theorem exists_of_waitOps {ops more : List (SlotOp Nat Event)} {op : SlotOp Nat Event}
    (split : waitOps name history = ops ++ op :: more) :
    ∃ before event rest, history = before ++ event :: rest ∧ waitOps name before = ops ∧ waitOp name event = some op := by
  obtain ⟨first, second, rfl, firstOps, secondOps⟩ := List.filterMap_eq_append_iff.mp split
  obtain ⟨skipped, event, rest, rfl, silent, does, _⟩ := List.filterMap_eq_cons_iff.mp secondOps
  refine ⟨first ++ skipped, event, rest, by rw [List.append_assoc], ?_, does⟩
  rw [waitOps, List.filterMap_append, firstOps, List.filterMap_eq_nil_iff.mpr silent, List.append_nil]

theorem holders_subset (name : String) (history : List Event) {id : Nat} (held : id ∈ (slotsOf name history).holders) :
    id ∈ subscribers name history := (Slots.holders_sublist (waitOps name history)).subset held

/-- The slots of a timely history are only released without an item. -/
theorem admitted_of_timely (recorded : Recorded history) (timely : Timely history) (name : String) :
    Slots.Admitted (waitOps name history) := by
  intro ops op more split
  obtain ⟨before, event, rest, rfl, rfl, does⟩ := exists_of_waitOps split
  have earlier : Recorded (before ++ [event]) := by
    rw [List.append_cons] at recorded
    exact recorded.earlier
  rcases waitOp_cases name event with ⟨claims, _, _⟩ | ⟨id, releases, cancels⟩ | ⟨data, offers, _, _⟩ | ⟨none, _⟩
  · rw [claims] at does
    cases does
    intro held
    obtain ⟨source, listed, same, _⟩ := exists_of_subscriber (holders_subset name before held)
    exact absurd same (Nat.ne_of_lt (earlier.above source listed))
  · rw [releases] at does
    cases does
    have empty := timely before event rest rfl id cancels
    change (slotsOf name before).item id = none
    by_cases subscribed : id ∈ subscribers name before
    · rw [(represents_externalOf earlier.earlier).getExternalEvent earlier.earlier subscribed, Option.map_eq_none_iff] at empty
      exact empty
    · exact if_neg fun held => subscribed (holders_subset name before held)
  · rw [offers] at does
    cases does
    trivial
  · rw [none] at does
    cases does

/-! ## Receipts -/

/-- A poll of the execution, live or replayed, returns an event to a subscription. -/
def Receipt (history : List Event) (name : String) (id : Nat) (event : Event) : Prop :=
  ∃ engine handler input orchestrationName orchestrationVersion seen ctx, seen <+: history ∧
    Polls engine handler input orchestrationName orchestrationVersion seen ctx ∧ id ∈ subscribers name seen ∧
      (slotsOf name seen).item id = some event ∧ ctx.external.getExternalEvent id = some event.externalData

/-- Exactly-once delivery of positional events, in order and never stale. -/
structure DeliversInOrder (history : List Event) : Prop where
  /-- An event is returned to one subscription. -/
  once : ∀ name other id otherId event, Receipt history name id event → Receipt history other otherId event → id = otherId
  /-- All polls, live or replayed, agree on what a subscription receives. -/
  agreed : ∀ name id event other, Receipt history name id event → Receipt history name id other → event = other
  /-- Subscriptions to a name receive events in subscription order. -/
  ordered : ∀ name id later event laterEvent, id < later → Receipt history name id event →
    Receipt history name later laterEvent → event.eventId < laterEvent.eventId
  /-- An event went to a subscription that was live and had none when the event arrived. -/
  fresh : ∀ name id event, Receipt history name id event → ∃ before rest, history = before ++ event :: rest ∧
    id ∈ subscribers name before ∧ id ∉ cancelledWaits before ∧ (externalOf before).getExternalEvent id = none
  /-- What a subscription has received, every later poll of it returns, whatever was dropped in between. -/
  kept : ∀ engine handler input orchestrationName orchestrationVersion first seen ctx name id event,
    first <+: seen → seen <+: history → Polls engine handler input orchestrationName orchestrationVersion seen ctx →
      Receipt first name id event → ctx.external.getExternalEvent id = some event.externalData
  /-- No subscription has an event while a live one in front of it has none. -/
  noneSkipped : ∀ engine handler input orchestrationName orchestrationVersion seen ctx name id later,
    seen <+: history → Polls engine handler input orchestrationName orchestrationVersion seen ctx → id < later →
      id ∈ subscribers name seen → id ∉ cancelledWaits seen → later ∈ subscribers name seen →
        (ctx.external.getExternalEvent later).isSome → (ctx.external.getExternalEvent id).isSome

theorem waitOps_earlier {more : List Event} (name : String) (initial : before <+: more) :
    ∃ ops, waitOps name more = waitOps name before ++ ops := by
  obtain ⟨rest, rfl⟩ := initial
  exact ⟨waitOps name rest, List.filterMap_append⟩

theorem Recorded.of_earlier (recorded : Recorded history) (initial : seen <+: history) : Recorded seen := by
  obtain ⟨rest, rfl⟩ := initial
  exact recorded.earlier

theorem Timely.of_earlier (timely : Timely history) (initial : seen <+: history) : Timely seen := by
  obtain ⟨rest, rfl⟩ := initial
  exact timely.earlier

/-- A subscription keeps its item in every longer part of a timely history. -/
theorem item_of_earlier {first : List Event} (recorded : Recorded seen) (timely : Timely seen) (initial : first <+: seen)
    {id : Nat} (found : (slotsOf name first).item id = some event) : (slotsOf name seen).item id = some event := by
  have admitted := admitted_of_timely recorded timely name
  obtain ⟨ops, split⟩ := waitOps_earlier name initial
  unfold slotsOf at found ⊢
  rw [split] at admitted ⊢
  exact admitted.item_stays found

/-- The items of a name are its events, in order. -/
theorem mem_of_item {id : Nat} (found : (slotsOf name history).item id = some event) :
    event ∈ history ∧ ∃ data, event.kind = .externalEvent name data := by
  have member : event ∈ (slotsOf name history).items := by
    rw [Slots.item_of_mem (Slots.mem_of_item found)] at found
    exact List.mem_of_getElem? found
  obtain ⟨op, listed, offers⟩ := List.mem_filterMap.mp ((Slots.items_sublist (waitOps name history)).subset member)
  obtain ⟨source, present, does⟩ := List.mem_filterMap.mp listed
  rcases waitOp_cases name source with ⟨claims, _⟩ | ⟨id, releases, _⟩ | ⟨data, raises, kind, _⟩ | ⟨none, _⟩
  · rw [claims] at does
    cases does
    cases offers
  · rw [releases] at does
    cases does
    cases offers
  · rw [raises] at does
    cases does
    cases offers
    exact ⟨present, data, kind⟩
  · rw [none] at does
    cases does

theorem pairwise_items (ascending : Ascending history) (name : String) :
    (slotsOf name history).items.Pairwise (·.eventId < ·.eventId) := by
  refine List.Pairwise.sublist (Slots.items_sublist _) ?_
  unfold waitOps
  rw [List.filterMap_filterMap]
  have offered : ∀ {source event : Event}, (waitOp name source).bind Slots.offered = some event → source = event := by
    intro source event found
    rcases waitOp_cases name source with ⟨op, _⟩ | ⟨id, op, _⟩ | ⟨data, op, _⟩ | ⟨op, _⟩ <;> rw [op] at found <;> cases found
    rfl
  refine List.Pairwise.filterMap _ ?_ ascending
  intro first second order event offers other otherOffers
  rw [← offered offers, ← offered otherOffers]
  exact order

theorem pairwise_holders (ascending : Ascending history) (name : String) :
    (slotsOf name history).holders.Pairwise (· < ·) :=
  (pairwise_subscribers ascending).sublist (Slots.holders_sublist _)

/-- Two parts of a timely history show a subscription the items of one state. -/
theorem items_in_one_state {first second : List Event} (recorded : Recorded history) (timely : Timely history)
    (initial : first <+: history) (otherInitial : second <+: history) {id other : Nat} {otherName : String} {later : Event}
    (found : (slotsOf name first).item id = some event) (otherFound : (slotsOf otherName second).item other = some later) :
    (slotsOf name history).item id = some event ∧ (slotsOf otherName history).item other = some later :=
  ⟨item_of_earlier recorded timely initial found, item_of_earlier recorded timely otherInitial otherFound⟩

/-- In an execution in which no breadcrumb cancels a subscription with an event in its slot, positional events are
delivered once, in order and never stale, by all polls alike. -/
theorem delivers_in_order (recorded : Recorded history) (timely : Timely history) : DeliversInOrder history where
  once := by
    rintro name other id otherId event ⟨_, _, _, _, _, first, _, initial, _, _, found, _⟩
      ⟨_, _, _, _, _, second, _, otherInitial, _, _, otherFound, _⟩
    obtain ⟨item, otherItem⟩ := items_in_one_state recorded timely initial otherInitial found otherFound
    obtain ⟨_, data, kind⟩ := mem_of_item item
    obtain ⟨_, otherData, otherKind⟩ := mem_of_item otherItem
    rw [kind] at otherKind
    cases otherKind
    have distinct := (pairwise_items recorded.ascending name).imp fun order same =>
      Nat.ne_of_lt order (congrArg Event.eventId same)
    exact Slots.item_injective distinct item otherItem
  agreed := by
    rintro name id event other ⟨_, _, _, _, _, first, _, initial, _, _, found, _⟩
      ⟨_, _, _, _, _, second, _, otherInitial, _, _, otherFound, _⟩
    obtain ⟨item, otherItem⟩ := items_in_one_state recorded timely initial otherInitial found otherFound
    rw [item] at otherItem
    exact Option.some.inj otherItem
  ordered := by
    rintro name id later event laterEvent order ⟨_, _, _, _, _, first, _, initial, _, _, found, _⟩
      ⟨_, _, _, _, _, second, _, otherInitial, _, _, otherFound, _⟩
    obtain ⟨item, otherItem⟩ := items_in_one_state recorded timely initial otherInitial found otherFound
    exact Slots.item_order (fun _ _ => Nat.lt_asymm) (pairwise_holders recorded.ascending name)
      (pairwise_items recorded.ascending name) order item otherItem
  fresh := by
    rintro name id event ⟨_, _, _, _, _, first, _, initial, _, _, found, _⟩
    have item := item_of_earlier recorded timely initial found
    obtain ⟨ops, more, split, held, empty⟩ := (admitted_of_timely recorded timely name).item_origin item
    obtain ⟨before, source, rest, rfl, rfl, does⟩ := exists_of_waitOps split
    have offers : source = event := by
      rcases waitOp_cases name source with ⟨op, _⟩ | ⟨id, op, _⟩ | ⟨data, op, _⟩ | ⟨op, _⟩ <;> rw [op] at does <;> cases does
      rfl
    subst offers
    change id ∈ (slotsOf name before).holders at held
    have subscribed := holders_subset name before held
    rw [holders_slotsOf recorded.earlier, List.mem_filter] at held
    refine ⟨before, rest, rfl, subscribed, by simpa using held.2, ?_⟩
    rw [(represents_externalOf recorded.earlier).getExternalEvent recorded.earlier subscribed]
    exact congrArg _ empty
  kept := by
    rintro engine handler input orchestrationName orchestrationVersion first seen ctx name id event initial whole polls
      ⟨_, _, _, _, _, earlier, _, firstInitial, _, subscribed, found, _⟩
    have seenRecorded := recorded.of_earlier whole
    have shorter := firstInitial.trans initial
    have item := item_of_earlier seenRecorded (timely.of_earlier whole) shorter found
    rw [polls.external, (represents_externalOf seenRecorded).getExternalEvent seenRecorded
      (holders_subset name seen (Slots.mem_of_item item)), item]
    rfl
  noneSkipped := by
    intro engine handler input orchestrationName orchestrationVersion seen ctx name id later whole polls order
      subscribed live laterSubscribed received
    have seenRecorded := recorded.of_earlier whole
    have represents := represents_externalOf seenRecorded
    rw [polls.external, represents.getExternalEvent seenRecorded laterSubscribed, Option.isSome_map] at received
    rw [polls.external, represents.getExternalEvent seenRecorded subscribed, Option.isSome_map]
    obtain ⟨event, found⟩ := Option.isSome_iff_exists.mp received
    have held : id ∈ (slotsOf name seen).holders := by
      rw [holders_slotsOf seenRecorded]
      simp [subscribed, live]
    exact Slots.item_of_ahead (fun _ _ => Nat.lt_asymm) (pairwise_holders seenRecorded.ascending name) held order found

theorem timely_of_uncancelled (uncancelled : ∀ event ∈ history, cancelsWait event = none) : Timely history := by
  rintro before event rest rfl id cancels
  rw [uncancelled event (by simp)] at cancels
  cases cancels

theorem Timely.append (timely : Timely history)
    (spared : ∀ id, cancelsWait event = some id → (externalOf history).getExternalEvent id = none) :
    Timely (history ++ [event]) := by
  intro before last rest split id cancels
  rcases List.eq_nil_or_concat rest with rfl | ⟨middle, final, rfl⟩
  · obtain ⟨rfl, same⟩ := List.append_inj' split rfl
    cases same
    exact spared id cancels
  · rw [List.concat_eq_append, ← List.cons_append, ← List.append_assoc] at split
    obtain ⟨rfl, -⟩ := List.append_inj' split rfl
    exact timely before last middle rfl id cancels

/-! A program that waits twice for an event, takes the second wait, drops the first and waits again. -/

/-- Events of an execution that records positional waits. -/
def waitEvent (eventId : Nat) (source : Option Nat) (kind : EventKind) : Event :=
  Event.withEventId ⟨0, "0.1.0"⟩ eventId "i" 1 source kind

inductive OvertakingState where
  | start
  | waiting (first second : Nat)
  | again (third activity : Nat) (data : String)

def overtakingHandler : OrchestrationHandler where
  State := OvertakingState
  invoke _ := .start
  poll
    | .start => .call (.scheduleWait "n") fun first => .call (.scheduleWait "n") fun second =>
        .suspend (.waiting first second)
    | .waiting first second => .call (.pollFuture second) fun
        | some (.externalData data) => .call (.dropFuture first) fun _ => .call (.scheduleWait "n") fun third =>
            .call (.scheduleActivity "work" "" none) fun activity => .suspend (.again third activity data)
        | _ => .suspend (.waiting first second)
    | .again third activity data => .call (.pollFuture activity) fun
        | some _ => .call (.pollFuture third) fun
            | some (.externalData more) => .finish (.ok (data ++ more))
            | _ => .finish (.ok data)
        | none => .suspend (.again third activity data)

/-- What the program has recorded when its two waits are open. -/
def bothWaiting : List Event :=
  [waitEvent 1 none (.orchestrationStarted "o" "1.0.0" "" none none none none),
    waitEvent 2 none (.externalSubscribed "n"), waitEvent 3 none (.externalSubscribed "n")]

def raisedTwice : List Event :=
  [waitEvent 4 none (.externalEvent "n" "first"), waitEvent 5 none (.externalEvent "n" "second")]

/-- The first wait is dropped, and then an event arrives. -/
def droppedInTime : List Event :=
  bothWaiting ++ [waitEvent 4 (some 2) (.externalSubscribedCancelled ReplayEngine.droppedFuture)] ++
    [waitEvent 5 none (.externalEvent "n" "first")]

theorem delivers_in_order_dropped : DeliversInOrder droppedInTime :=
  delivers_in_order ⟨by decide, by decide⟩ (((timely_of_uncancelled (by decide)).append (by decide)).append (by decide))

/-- The turn of the two events. -/
def overtakingTurn : ReplayEngine := { ReplayEngine.new ⟨0, "0.1.0"⟩ "i" 1 bothWaiting with
  historyDelta := raisedTwice, nextEventId := 6 }

/-- What that turn records beyond the events. -/
def overtaken : List Event :=
  [waitEvent 6 none (.externalSubscribed "n"), waitEvent 7 none (.activityScheduled "work" "" none none),
    waitEvent 8 (some 2) (.externalSubscribedCancelled ReplayEngine.droppedFuture)]

/-- The next turn, in which the activity completes. -/
def repeatedTurn : ReplayEngine := { ReplayEngine.new ⟨0, "0.1.0"⟩ "i" 1 (bothWaiting ++ raisedTwice ++ overtaken) with
  historyDelta := [waitEvent 9 (some 7) (.activityCompleted "")], nextEventId := 10 }

/-- The second event is returned to the second wait, and in the next turn to the third wait as well. -/
theorem second_event_returned_twice :
    let history := repeatedTurn.baselineHistory ++ repeatedTurn.historyDelta
    (overtakingTurn.executeOrchestration overtakingHandler "" "o" "1.0.0").2.historyDelta = raisedTwice ++ overtaken ∧
      (repeatedTurn.executeOrchestration overtakingHandler "" "o" "1.0.0").1 = .completed "secondsecond" ∧
      Recorded history ∧ ¬ DeliversInOrder history := by
  refine ⟨by decide +kernel, by decide +kernel, ⟨by decide, by decide⟩, fun delivers => ?_⟩
  have first : Receipt (repeatedTurn.baselineHistory ++ repeatedTurn.historyDelta) "n" 3
      (waitEvent 5 none (.externalEvent "n" "second")) :=
    ⟨overtakingTurn, overtakingHandler, "", "o", "1.0.0", bothWaiting ++ raisedTwice, _, ⟨_, rfl⟩,
      .replaying rfl rfl rfl .refl, by decide, by decide, by decide +kernel⟩
  have again : Receipt (repeatedTurn.baselineHistory ++ repeatedTurn.historyDelta) "n" 6
      (waitEvent 5 none (.externalEvent "n" "second")) :=
    ⟨repeatedTurn, overtakingHandler, "", "o", "1.0.0", repeatedTurn.baselineHistory ++ repeatedTurn.historyDelta, _,
      ⟨[], rfl⟩, .replaying rfl rfl rfl .refl, by decide, by decide, by decide +kernel⟩
  exact absurd (delivers.once "n" "n" 3 6 _ first again) (by decide)

end Duroxide
