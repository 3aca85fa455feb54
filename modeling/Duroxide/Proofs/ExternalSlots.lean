import Duroxide.Lib.Slots
import Duroxide.Proofs.DroppedFutures
import Duroxide.Proofs.Matching

/-! # Positional events of a history

What a context knows of the positional events depends on the events that it has read alone. For each event name the
subscriptions that no breadcrumb cancels hold slots, and the events that are accepted go into these slots in order:
an index that is compressed by the cancelled subscriptions below it is the position among the others.
-/

namespace Duroxide

open Lib

/-- Histories are numbered in order, and whatever completes or cancels a schedule comes behind it. -/
structure Recorded (history : List Event) : Prop where
  ascending : Ascending history
  behind : ∀ event ∈ history, ∀ id, event.sourceEventId = some id → id < event.eventId

variable {history before rest : List Event} {event : Event} {name : String}

theorem Recorded.earlier (recorded : Recorded (before ++ rest)) : Recorded before where
  ascending := (List.pairwise_append.mp recorded.ascending).1
  behind event member := recorded.behind event (List.mem_append_left _ member)

/-- The last event is numbered above all that are before it. -/
theorem Recorded.above (recorded : Recorded (history ++ [event])) : ∀ earlier ∈ history, earlier.eventId < event.eventId :=
  fun earlier member => (List.pairwise_append.mp recorded.ascending).2.2 earlier member event (List.mem_singleton_self _)

/-! ## What an event tells the positional events -/

namespace ExternalEvents

def observe (external : ExternalEvents) (event : Event) : ExternalEvents :=
  match event.kind with
  | .externalSubscribed name => external.bindExternalSubscription event.eventId name
  | .externalSubscribedCancelled _ => match event.sourceEventId with
    | some sourceId => external.markExternalSubscriptionCancelled sourceId
    | none => external
  | .externalEvent name data =>
      if external.hasPendingSubscriptionSlot name then external.deliverExternalEvent name data else external
  | _ => external

end ExternalEvents

/-- The positional events after a history. -/
def externalOf (history : List Event) : ExternalEvents := history.foldl ExternalEvents.observe {}

theorem externalOf_append (history : List Event) (event : Event) :
    externalOf (history ++ [event]) = (externalOf history).observe event := by
  simp [externalOf]

/-- The datum of a positional event. -/
def Event.externalData (event : Event) : String :=
  match event.kind with
  | .externalEvent _ data => data
  | _ => ""

/-- What an event does to the slots of an event name. -/
def waitOp (name : String) (event : Event) : Option (SlotOp Nat Event) :=
  match event.kind with
  | .externalSubscribed subscribed => if subscribed = name then some (.claim event.eventId) else none
  | .externalSubscribedCancelled _ => event.sourceEventId.map .release
  | .externalEvent raised _ => if raised = name then some (.offer event) else none
  | _ => none

def waitOps (name : String) (history : List Event) : List (SlotOp Nat Event) := history.filterMap (waitOp name)

/-- The slots of an event name after a history. -/
def slotsOf (name : String) (history : List Event) : Slots Nat Event := Slots.after (waitOps name history)

/-- The subscriptions to an event name, in order. -/
def subscribers (name : String) (history : List Event) : List Nat :=
  (waitOps name history).filterMap Slots.claimed

/-- The schedule that a breadcrumb of a positional wait names. -/
def cancelsWait (event : Event) : Option Nat :=
  match event.kind with
  | .externalSubscribedCancelled _ => event.sourceEventId
  | _ => none

def cancelledWaits (history : List Event) : List Nat := history.filterMap cancelsWait

theorem waitOps_append (name : String) (history : List Event) (event : Event) :
    waitOps name (history ++ [event]) = waitOps name history ++ (waitOp name event).toList := by
  rw [waitOps, List.filterMap_append, List.filterMap_cons, List.filterMap_nil]
  cases waitOp name event <;> rfl

theorem slotsOf_append (name : String) (history : List Event) (event : Event) :
    slotsOf name (history ++ [event]) =
      match waitOp name event with
      | some op => (slotsOf name history).apply op
      | none => slotsOf name history := by
  rw [slotsOf, waitOps_append]
  cases waitOp name event with
  | none => simp [slotsOf]
  | some op => exact Slots.after_append _ op

theorem subscribers_append (name : String) (history : List Event) (event : Event) :
    subscribers name (history ++ [event]) =
      subscribers name history ++ ((waitOp name event).bind Slots.claimed).toList := by
  rw [subscribers, waitOps_append, List.filterMap_append, subscribers]
  congr 1
  cases waitOp name event with
  | none => rfl
  | some op => cases op <;> rfl

/-- A subscription is an event of its history. -/
theorem exists_of_subscriber {id : Nat} (member : id ∈ subscribers name history) :
    ∃ event ∈ history, event.eventId = id ∧ event.kind = .externalSubscribed name := by
  obtain ⟨op, listed, claims⟩ := List.mem_filterMap.mp member
  obtain ⟨event, present, does⟩ := List.mem_filterMap.mp listed
  refine ⟨event, present, ?_⟩
  obtain ⟨eventId, source, instanceId, executionId, timestamp, version, kind⟩ := event
  cases kind <;> simp only [waitOp, reduceCtorEq, Option.map_eq_some_iff] at does
  · split_ifs at does with same
    cases does
    cases claims
    exact ⟨rfl, by rw [same]⟩
  · split_ifs at does
    cases does
    cases claims
  · obtain ⟨_, _, rfl⟩ := does
    cases claims

/-- The subscriptions are in the order of their ids. -/
theorem pairwise_subscribers (ascending : Ascending history) : (subscribers name history).Pairwise (· < ·) := by
  unfold subscribers waitOps
  rw [List.filterMap_filterMap]
  refine List.Pairwise.filterMap _ ?_ ascending
  intro first second order id claims other otherClaims
  have claimed : ∀ {event : Event} {id : Nat}, (waitOp name event).bind Slots.claimed = some id → event.eventId = id := by
    intro event id found
    obtain ⟨eventId, source, instanceId, executionId, timestamp, version, kind⟩ := event
    cases kind <;> simp only [waitOp, Option.bind_none, reduceCtorEq, Option.bind_map] at found
    · split_ifs at found
      · cases found
        rfl
      · cases found
    · split_ifs at found <;> cases found
    · cases source <;> cases found
  rw [← claimed claims, ← claimed otherClaims]
  exact order

theorem cancelledWaits_append (history : List Event) (event : Event) :
    cancelledWaits (history ++ [event]) = cancelledWaits history ++ (cancelsWait event).toList := by
  rw [cancelledWaits, List.filterMap_append, List.filterMap_cons, List.filterMap_nil]
  cases cancelsWait event <;> rfl

theorem source_of_cancelsWait {id : Nat} (cancels : cancelsWait event = some id) : event.sourceEventId = some id := by
  unfold cancelsWait at cancels
  split at cancels
  · exact cancels
  · cases cancels

theorem lt_of_cancelledWait (recorded : Recorded (history ++ [event])) {id : Nat} (member : id ∈ cancelledWaits history) :
    id < event.eventId := by
  obtain ⟨breadcrumb, listed, names⟩ := List.mem_filterMap.mp member
  exact (recorded.earlier.behind breadcrumb listed id (source_of_cancelsWait names)).trans
    (recorded.above breadcrumb listed)

/-- What an event does to the slots of a name: it claims one for itself, releases one, offers itself, or nothing. -/
theorem waitOp_cases (name : String) (event : Event) :
    (waitOp name event = some (.claim event.eventId) ∧ event.kind = .externalSubscribed name ∧ cancelsWait event = none) ∨
    (∃ id, waitOp name event = some (.release id) ∧ cancelsWait event = some id) ∨
    (∃ data, waitOp name event = some (.offer event) ∧ event.kind = .externalEvent name data ∧ cancelsWait event = none) ∨
    (waitOp name event = none ∧ cancelsWait event = none ∧ event.kind ≠ .externalSubscribed name ∧
      ∀ data, event.kind ≠ .externalEvent name data) := by
  obtain ⟨eventId, source, instanceId, executionId, timestamp, version, kind⟩ := event
  cases kind with
  | externalSubscribed subscribed => by_cases same : subscribed = name <;> simp [waitOp, cancelsWait, same]
  | externalSubscribedCancelled reason => cases source <;> simp [waitOp, cancelsWait]
  | externalEvent raised data => by_cases same : raised = name <;> simp [waitOp, cancelsWait, same]
  | _ => simp [waitOp, cancelsWait]

/-! ## The slots of a history -/

theorem holders_offer (slots : Slots Nat Event) (event : Event) : (slots.apply (.offer event)).holders = slots.holders := by
  unfold Slots.apply
  dsimp only
  split_ifs <;> rfl

/-- The subscriptions that no breadcrumb cancels hold the slots. -/
theorem holders_slotsOf (recorded : Recorded history) (name : String) :
    (slotsOf name history).holders = (subscribers name history).filter (· ∉ cancelledWaits history) := by
  induction history using List.reverseRecOn with
  | nil => rfl
  | append_singleton history event ih =>
    have holders := ih recorded.earlier
    have distinct : (subscribers name history).Nodup :=
      (pairwise_subscribers recorded.earlier.ascending).imp fun order => Nat.ne_of_lt order
    rw [slotsOf_append, subscribers_append, cancelledWaits_append]
    rcases waitOp_cases name event with ⟨op, _, none⟩ | ⟨id, op, cancels⟩ | ⟨data, op, _, none⟩ | ⟨op, none, _⟩
    · have fresh : event.eventId ∉ cancelledWaits history := fun member =>
        Nat.lt_irrefl _ (lt_of_cancelledWait recorded member)
      simp [op, none, Slots.apply, Slots.claimed, holders, fresh]
    · simp only [op, cancels, Slots.apply, Slots.claimed, Option.bind_some, Option.toList_none, List.append_nil, holders]
      rw [(distinct.filter _).erase_eq_filter, List.filter_filter]
      refine List.filter_congr fun other _ => ?_
      by_cases same : other = id <;> simp [same]
    · simp [op, none, Slots.claimed, holders_offer, holders]
    · simp [op, none, holders]

/-! ## The context keeps the slots -/

/-- The subscriptions to a name that a context keeps, with their indices. -/
def ExternalEvents.indexed (external : ExternalEvents) (name : String) : List (Nat × Nat) :=
  (external.subscriptions.entries.filter (·.2.1 == name)).map fun sub => (sub.1, sub.2.2)

/-- A context that has read a history keeps its slots. -/
structure Represents (external : ExternalEvents) (history : List Event) : Prop where
  known : ∀ id ∈ external.subscriptions, ∃ event ∈ history, event.eventId = id
  indexed : ∀ name, external.indexed name = (subscribers name history).zipIdx.reverse
  next : ∀ name, external.nextIndex name = (subscribers name history).length
  cancelled : ∀ id, id ∈ external.cancelledSubscriptions ↔ id ∈ cancelledWaits history
  arrivals : ∀ name, external.arrivals name = (slotsOf name history).items.map (·.externalData)

namespace Represents

variable {external : ExternalEvents}

theorem countP_entries (represents : Represents external history) (name : String) (counted : Nat × Nat → Bool) :
    external.subscriptions.entries.countP (fun sub => sub.2.1 == name && counted (sub.1, sub.2.2)) =
      (subscribers name history).zipIdx.countP counted := by
  have both : external.subscriptions.entries.countP (fun sub => sub.2.1 == name && counted (sub.1, sub.2.2)) =
      (external.indexed name).countP counted := by
    rw [ExternalEvents.indexed, List.countP_map, List.countP_filter]
    exact List.countP_congr fun sub _ => by simp [and_comm]
  rw [both, represents.indexed, List.countP_reverse]

/-- Counting the subscriptions that are not cancelled counts the slots. -/
theorem countP_active (represents : Represents external history) (recorded : Recorded history) (name : String) :
    external.subscriptions.entries.countP (fun sub => sub.2.1 == name && sub.1 ∉ external.cancelledSubscriptions) =
      (slotsOf name history).holders.length := by
  have counted := represents.countP_entries name fun sub => decide (sub.1 ∉ external.cancelledSubscriptions)
  rw [counted, holders_slotsOf recorded, ← List.countP_eq_length_filter]
  have projected := List.countP_map (p := fun id => decide (id ∉ cancelledWaits history)) (f := Prod.fst)
    (l := (subscribers name history).zipIdx)
  rw [List.zipIdx_map_fst] at projected
  rw [projected]
  exact List.countP_congr fun sub _ => by simp [represents.cancelled]

/-- A slot is pending when there are more holders than items. -/
theorem hasPendingSubscriptionSlot (represents : Represents external history) (recorded : Recorded history)
    (name : String) : external.hasPendingSubscriptionSlot name ↔
      (slotsOf name history).items.length < (slotsOf name history).holders.length := by
  unfold ExternalEvents.hasPendingSubscriptionSlot
  dsimp only
  rw [represents.countP_active recorded name, represents.arrivals, List.length_map, decide_eq_true_iff, gt_iff_lt]

theorem initial : Represents {} [] where
  known := by simp
  indexed _ := rfl
  next _ := rfl
  cancelled := by simp [cancelledWaits]
  arrivals _ := rfl

/-- An event that is about no positional wait. -/
theorem ignore (represents : Represents external history) (nothing : ∀ name, waitOp name event = none)
    (uncancelled : cancelsWait event = none) : Represents external (history ++ [event]) where
  known id member := by
    obtain ⟨source, listed, named⟩ := represents.known id member
    exact ⟨source, List.mem_append_left _ listed, named⟩
  indexed name := by simp [subscribers_append, nothing, represents.indexed]
  next name := by simp [subscribers_append, nothing, represents.next]
  cancelled id := by simp [cancelledWaits_append, uncancelled, represents.cancelled]
  arrivals name := by simp [slotsOf_append, nothing, represents.arrivals]

theorem bind (represents : Represents external history) (unread : ∀ earlier ∈ history, earlier.eventId ≠ event.eventId)
    {name : String} (kind : event.kind = .externalSubscribed name) :
    Represents (external.bindExternalSubscription event.eventId name) (history ++ [event]) := by
  have fresh : event.eventId ∉ external.subscriptions := by
    intro member
    obtain ⟨source, listed, named⟩ := represents.known _ member
    exact unread source listed named
  have op : ∀ other, waitOp other event = if name = other then some (.claim event.eventId) else none := by
    intro other
    simp only [waitOp, kind]
  have uncancelled : cancelsWait event = none := by simp only [cancelsWait, kind]
  constructor
  · intro id member
    rcases (AList.mem_insert _).mp member with rfl | old
    · exact ⟨event, by simp, rfl⟩
    · obtain ⟨source, listed, named⟩ := represents.known id old
      exact ⟨source, List.mem_append_left _ listed, named⟩
  · intro other
    have entries : (external.bindExternalSubscription event.eventId name).subscriptions.entries =
        ⟨event.eventId, name, external.nextIndex name⟩ :: external.subscriptions.entries :=
      AList.entries_insert_of_notMem fresh
    have old := represents.indexed other
    rw [ExternalEvents.indexed] at old ⊢
    rw [entries, subscribers_append, op]
    by_cases same : name = other
    · subst same
      simp [old, Slots.claimed, represents.next, List.zipIdx_append]
    · simp [same, old]
  · intro other
    rw [subscribers_append, op]
    by_cases same : name = other
    · subst same
      simp [ExternalEvents.bindExternalSubscription, represents.next, Slots.claimed]
    · simp [ExternalEvents.bindExternalSubscription, same, Ne.symm same, represents.next]
  · intro id
    rw [cancelledWaits_append, uncancelled, Option.toList_none, List.append_nil]
    exact represents.cancelled id
  · intro other
    rw [slotsOf_append, op]
    have old := represents.arrivals other
    by_cases same : name = other
    · rw [if_pos same]
      exact old
    · rw [if_neg same]
      exact old

theorem cancel (represents : Represents external history) {id : Nat} (cancels : cancelsWait event = some id) :
    Represents (external.markExternalSubscriptionCancelled id) (history ++ [event]) := by
  have op : ∀ name, waitOp name event = some (.release id) := by
    intro name
    rcases waitOp_cases name event with ⟨_, _, none⟩ | ⟨other, op, names⟩ | ⟨_, _, _, none⟩ | ⟨_, none, _⟩
    · simp [none] at cancels
    · rw [cancels] at names
      cases names
      exact op
    · simp [none] at cancels
    · simp [none] at cancels
  constructor
  · intro other member
    obtain ⟨source, listed, named⟩ := represents.known other member
    exact ⟨source, List.mem_append_left _ listed, named⟩
  · intro name
    rw [subscribers_append, op]
    exact (represents.indexed name).trans (by simp [Slots.claimed])
  · intro name
    rw [subscribers_append, op]
    exact (represents.next name).trans (by simp [Slots.claimed])
  · intro other
    rw [cancelledWaits_append, cancels]
    simp [ExternalEvents.markExternalSubscriptionCancelled, represents.cancelled, or_comm]
  · intro name
    rw [slotsOf_append, op]
    exact represents.arrivals name

theorem raise (represents : Represents external history) (recorded : Recorded history) {name data : String}
    (kind : event.kind = .externalEvent name data) :
    Represents (if external.hasPendingSubscriptionSlot name then external.deliverExternalEvent name data else external)
      (history ++ [event]) := by
  have op : ∀ other, waitOp other event = if name = other then some (.offer event) else none := by
    intro other
    simp only [waitOp, kind]
  have uncancelled : cancelsWait event = none := by simp only [cancelsWait, kind]
  have claims : ∀ other, ((waitOp other event).bind Slots.claimed).toList = [] := by
    intro other
    rw [op]
    split_ifs <;> rfl
  have pending := represents.hasPendingSubscriptionSlot recorded name
  have kept : Represents external history := represents
  constructor
  · intro id member
    have old : id ∈ external.subscriptions := by split_ifs at member <;> exact member
    obtain ⟨source, listed, named⟩ := represents.known id old
    exact ⟨source, List.mem_append_left _ listed, named⟩
  · intro other
    rw [subscribers_append, claims, List.append_nil]
    split_ifs <;> exact represents.indexed other
  · intro other
    rw [subscribers_append, claims, List.append_nil]
    split_ifs <;> exact represents.next other
  · intro id
    rw [cancelledWaits_append, uncancelled]
    split_ifs <;> simpa [ExternalEvents.deliverExternalEvent] using represents.cancelled id
  · intro other
    rw [slotsOf_append, op]
    by_cases same : name = other
    · subst same
      simp only [if_true, Slots.apply]
      split_ifs with waits free free
      · simp [ExternalEvents.deliverExternalEvent, represents.arrivals, Event.externalData, kind]
      · exact absurd (pending.mp waits) free
      · exact absurd (pending.mpr free) waits
      · exact represents.arrivals name
    · have old := represents.arrivals other
      split_ifs <;> simpa [ExternalEvents.deliverExternalEvent, Function.update_of_ne (Ne.symm same)] using old

theorem observe (represents : Represents external history) (recorded : Recorded (history ++ [event])) :
    Represents (external.observe event) (history ++ [event]) := by
  have above := recorded.above
  obtain ⟨eventId, source, instanceId, executionId, timestamp, version, kind⟩ := event
  cases kind with
  | externalSubscribed name => exact represents.bind (fun earlier member => Nat.ne_of_lt (above earlier member)) rfl
  | externalSubscribedCancelled reason =>
    cases source with
    | none => exact represents.ignore (fun _ => rfl) rfl
    | some id => exact represents.cancel rfl
  | externalEvent name data => exact represents.raise recorded.earlier rfl
  | _ => exact represents.ignore (fun _ => rfl) rfl

end Represents

theorem represents_externalOf (recorded : Recorded history) : Represents (externalOf history) history := by
  induction history using List.reverseRecOn with
  | nil => exact .initial
  | append_singleton history event ih =>
    rw [externalOf_append]
    exact (ih recorded.earlier).observe recorded

/-! ## What a subscription reads -/

theorem countP_zipIdx (entries : List Nat) (counted : Nat → Bool) (start bound : Nat) :
    (entries.zipIdx start).countP (fun entry => decide (entry.2 < bound) && counted entry.1) =
      (entries.take (bound - start)).countP counted := by
  induction entries generalizing start with
  | nil => simp
  | cons head rest ih =>
    rw [List.zipIdx_cons, List.countP_cons, ih]
    by_cases within : start < bound
    · obtain ⟨more, rfl⟩ := Nat.exists_eq_add_of_lt within
      have shifted : start + more + 1 - start = more + 1 := by omega
      have next : start + more + 1 - (start + 1) = more := by omega
      rw [shifted, next, List.take_succ_cons, List.countP_cons]
      simp [within]
    · have none : bound - start = 0 := by omega
      have next : bound - (start + 1) = 0 := by omega
      simp [none, next, within]

/-- The position of an entry among those that are kept. -/
theorem idxOf_filter {entries : List Nat} (distinct : entries.Nodup) (kept : Nat → Bool) {index id : Nat}
    (found : entries[index]? = some id) (keeps : kept id) :
    (entries.filter kept).idxOf id = (entries.take index).countP kept := by
  obtain ⟨bound, rfl⟩ := List.getElem?_eq_some_iff.mp found
  have split : entries = entries.take index ++ entries[index] :: entries.drop (index + 1) := by
    rw [List.getElem_cons_drop, List.take_append_drop]
  have fresh : entries[index] ∉ (entries.take index).filter kept := by
    intro member
    rw [split, List.nodup_append] at distinct
    exact distinct.2.2 _ (List.mem_of_mem_filter member) _ List.mem_cons_self rfl
  generalize entries[index] = id at split fresh keeps ⊢
  conv_lhs => rw [split]
  rw [List.filter_append, List.idxOf_append_of_notMem fresh, List.filter_cons_of_pos keeps, List.idxOf_cons_self,
    Nat.add_zero, List.countP_eq_length_filter]

namespace Represents

variable {external : ExternalEvents}

theorem lookup_iff (represents : Represents external history) {id index : Nat} {name : String} :
    external.subscriptions.lookup id = some (name, index) ↔ (subscribers name history)[index]? = some id := by
  have listed : (id, index) ∈ external.indexed name ↔ (subscribers name history)[index]? = some id := by
    rw [represents.indexed, List.mem_reverse]
    exact List.mk_mem_zipIdx_iff_getElem?
  rw [← listed, ← Option.mem_def, AList.mem_lookup_iff]
  simp [ExternalEvents.indexed]

/-- The cancelled subscriptions with a smaller index. -/
theorem countP_cancelledBelow (represents : Represents external history) (name : String) (index : Nat) :
    external.subscriptions.entries.countP (fun sub => sub.2.1 == name && sub.2.2 < index &&
      external.subscriptions.entries.any fun other =>
        other.2.1 == name && other.2.2 == sub.2.2 && other.1 ∈ external.cancelledSubscriptions) =
    ((subscribers name history).take index).countP (· ∈ cancelledWaits history) := by
  have counted := represents.countP_entries name fun sub => decide (sub.2 < index) &&
    (external.indexed name).any fun other => other.2 == sub.2 && decide (other.1 ∈ external.cancelledSubscriptions)
  have bounded := countP_zipIdx (subscribers name history) (· ∈ cancelledWaits history) 0 index
  rw [Nat.sub_zero] at bounded
  rw [← bounded]
  refine Eq.trans ?_ (counted.trans ?_)
  · refine List.countP_congr fun sub _ => ?_
    simp [ExternalEvents.indexed, List.any_map, List.any_filter, Function.comp_def, and_assoc]
  · refine List.countP_congr fun sub member => ?_
    have found := List.mk_mem_zipIdx_iff_getElem?.mp member
    simp only [represents.indexed, represents.cancelled, Bool.and_eq_true, decide_eq_true_eq, List.any_reverse,
      List.any_eq_true, beq_iff_eq]
    refine and_congr_right fun _ => ⟨?_, fun cancelled => ⟨sub, member, rfl, cancelled⟩⟩
    rintro ⟨other, listed, same, cancelled⟩
    have otherFound := List.mk_mem_zipIdx_iff_getElem?.mp listed
    rw [same, found] at otherFound
    rwa [Option.some.inj otherFound]

/-- A subscription reads the item of its slot. -/
theorem getExternalEvent (represents : Represents external history) (recorded : Recorded history) {id : Nat}
    (subscribed : id ∈ subscribers name history) :
    external.getExternalEvent id = ((slotsOf name history).item id).map (·.externalData) := by
  have distinct : (subscribers name history).Nodup :=
    (pairwise_subscribers recorded.ascending).imp fun order => Nat.ne_of_lt order
  obtain ⟨index, found⟩ := List.mem_iff_getElem?.mp subscribed
  have known := represents.lookup_iff.mpr found
  unfold ExternalEvents.getExternalEvent
  rw [known]
  simp only [Option.bind_eq_bind, Option.bind_some]
  rw [represents.countP_cancelledBelow, represents.arrivals, Slots.item, holders_slotsOf recorded]
  by_cases cancelled : id ∈ cancelledWaits history
  · simp [represents.cancelled, cancelled]
  have active : id ∉ external.cancelledSubscriptions := fun member => cancelled ((represents.cancelled id).mp member)
  have held : id ∈ (subscribers name history).filter (· ∉ cancelledWaits history) := by simp [subscribed, cancelled]
  have lengths := List.length_eq_countP_add_countP (· ∈ cancelledWaits history) (l := (subscribers name history).take index)
  have bound := (List.getElem?_eq_some_iff.mp found).1
  rw [if_neg active, if_pos held, List.getElem?_map, idxOf_filter distinct _ found (by simpa using cancelled)]
  rw [List.length_take, Nat.min_eq_left (Nat.le_of_lt bound)] at lengths
  congr 2
  simp only [Bool.not_eq_true, decide_eq_false_iff_not] at lengths
  omega

end Represents

/-! ## What an evaluation reads -/

namespace CtxInner

variable {ctx after : CtxInner}

/-- Context calls read the positional events and leave them alone. -/
theorem perform_external {request : CtxCall} {reply : request.Reply}
    (performed : ctx.perform request = .ok (reply, after)) : after.external = ctx.external := by
  obtain ⟨_, _, _, _, _, _, _, _, _, rfl, _⟩ := perform_frame performed
  rfl

theorem run_external {State : Type} (script : Script State) (ctx : CtxInner) :
    (script.run ctx).2.external = ctx.external := by
  induction script generalizing ctx with
  | suspend | finish | panic => rfl
  | call request next ih =>
    unfold Script.run
    rcases performed : ctx.perform request with message | ⟨reply, after⟩
    · rfl
    · exact (ih reply after).trans (perform_external performed)

theorem deliverTo_external (ctx : CtxInner) (source : Option Nat) (result : CompletionResult) :
    (ctx.deliverTo source result).external = ctx.external := by
  obtain ⟨results, same⟩ := deliverTo_frame ctx source result
  rw [same]

theorem observe_external (ctx : CtxInner) (event : Event) (noSchedule : event.kind.isSchedule = false) :
    (ctx.observe event).external = ctx.external.observe event := by
  obtain ⟨eventId, source, instanceId, executionId, timestamp, version, kind⟩ := event
  cases kind with
  | activityCompleted | activityFailed | timerFired | subOrchestrationCompleted | subOrchestrationFailed =>
    exact deliverTo_external ..
  | orchestrationStarted name version input parentInstance parentId carried status => cases status <;> rfl
  | externalSubscribedCancelled | queueSubscriptionCancelled => cases source <;> rfl
  | externalEvent name data =>
    unfold CtxInner.observe ExternalEvents.observe
    dsimp only
    split_ifs <;> rfl
  | externalSubscribed => cases noSchedule
  | _ => rfl

theorem bindSchedule_external (ctx : CtxInner) (token : Nat) (event : Event)
    (binds : event.kind.isSchedule ∨ event.kind.isFireAndForget) :
    (ctx.bindSchedule token event).external = ctx.external.observe event := by
  obtain ⟨eventId, source, instanceId, executionId, timestamp, version, kind⟩ := event
  cases kind <;> first | rfl | (rcases binds with binds | binds <;> cases binds)

end CtxInner

namespace Replay

variable {State : Type} {poll : State → Script State} {replay drained after middle : Replay State}

theorem applyHistoryEvent_external (applied : replay.applyHistoryEvent event = .ok after) :
    after.ctx.external = replay.ctx.external.observe event := by
  obtain ⟨applies, _, _⟩ := applyHistoryEvent_spec applied
  have forgotten : event.kind.isFireAndForget → replay.ctx.external.observe event = replay.ctx.external := by
    intro forgets
    unfold ExternalEvents.observe
    split <;> rename_i kind <;> first | rfl | (rw [kind] at forgets; cases forgets)
  cases applies with
  | bound token action schedules waiting matched ctx =>
    rw [ctx]
    exact CtxInner.bindSchedule_external replay.ctx token event (.inl schedules)
  | consumed token action forgets waiting matched ctx => rw [ctx, forgotten forgets]
  | skipped forgets nothing same => rw [same, forgotten forgets]
  | observed noSchedule remembered kept ctx =>
    rw [ctx]
    exact CtxInner.observe_external replay.ctx event noSchedule

theorem pollOrchestrationFuture_external (ran : replay.pollOrchestrationFuture poll = .ok drained) :
    drained.ctx.external = replay.ctx.external := by
  have same := CtxInner.run_external (poll replay.fut) replay.ctx
  obtain ⟨result, ctx, fut, output, outcome, rfl, _⟩ := pollOrchestrationFuture_spec ran
  rwa [outcome] at same

theorem pollIfNeeded_external (ran : replay.pollIfNeeded poll = .ok drained) :
    drained.ctx.external = replay.ctx.external := by
  rcases pollIfNeeded_spec ran with ⟨_, rfl⟩ | ⟨taken, mustPoll, _, polled, rfl, _⟩
  · rfl
  · have same := pollOrchestrationFuture_external polled
    exact same

/-- A replay that is still running has read the whole history. -/
theorem applyHistory_external (ran : replay.applyHistory poll history = .ok middle) (running : middle.output = none) :
    middle.ctx.external = history.foldl ExternalEvents.observe replay.ctx.external := by
  induction history generalizing replay with
  | nil =>
    cases ran
    rfl
  | cons event rest ih =>
    obtain ⟨drained, after, polled, _, applied, later⟩ := applyHistory_cons_spec ran running
    rw [ih later, applyHistoryEvent_external applied, pollIfNeeded_external polled]
    rfl

end Replay

end Duroxide
