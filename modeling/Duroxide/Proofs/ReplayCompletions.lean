import Duroxide.Proofs.Bindings
import Duroxide.Proofs.Matching

/-! # Completions in replay

A replay keeps the schedules that are open with their kinds, and the context keeps the tokens that are bound to
them. A completion closes the open schedule that it names and gives its result to the token of the schedule. The
kind of the schedule is checked for a completed activity alone.
-/

namespace Duroxide

/-- The kind under which a replay keeps the schedule of an event open. -/
def EventKind.actionKind : EventKind → Option ActionKind
  | .activityScheduled .. => some .activity
  | .timerCreated _ => some .timer
  | .externalSubscribed _ => some .external
  | .queueSubscribed _ => some .persistent
  | .subOrchestrationScheduled .. => some .subOrch
  | _ => none

/-- The kind of schedule that a completion is for, and what it delivers. -/
def EventKind.delivery : EventKind → Option (ActionKind × CompletionResult)
  | .activityCompleted result => some (.activity, .activityOk result)
  | .activityFailed details => some (.activity, .activityErr details.displayMessage)
  | .timerFired _ => some (.timer, .timerFired)
  | .subOrchestrationCompleted result => some (.subOrch, .subOrchOk result)
  | .subOrchestrationFailed details => some (.subOrch, .subOrchErr details.displayMessage)
  | _ => none

/-- The completions whose schedule must be of the right kind. -/
def EventKind.kindIsChecked : EventKind → Bool
  | .activityCompleted _ => true
  | _ => false

theorem EventKind.isSchedule_of_actionKind {kind : EventKind} (opens : kind.actionKind.isSome) : kind.isSchedule := by
  cases kind <;> first | rfl | cases opens

theorem EventKind.not_isSchedule_of_delivery {kind : EventKind} (delivers : kind.delivery.isSome) :
    kind.isSchedule = false ∧ kind.isFireAndForget = false ∧ kind.actionKind = none := by
  cases kind <;> first | exact ⟨rfl, rfl, rfl⟩ | cases delivers

/-- A history schedules an id and has no completion for it. -/
def IsOpen (history : List Event) (id : Nat) : Prop :=
  (∃ event ∈ history, event.eventId = id ∧ event.kind.actionKind.isSome) ∧
    ∀ event ∈ history, event.kind.delivery.isSome → event.sourceEventId ≠ some id

namespace CtxInner

variable {events : List Event} {promises : List (Nat × Option ScheduleKind)} {waiting : List (Nat × Action)} {ctx : CtxInner}

/-- A poll of the program keeps the tokens in order. -/
theorem Linked.run {State : Type} (script : Script State) (linked : Linked events (ctx.promises waiting) ctx) :
    Linked events ((script.run ctx).2.promises waiting) (script.run ctx).2 := by
  induction script generalizing ctx with
  | suspend | finish | panic => exact linked
  | call request next ih =>
    unfold Script.run
    rcases performed : ctx.perform request with message | ⟨reply, after⟩
    · exact linked
    · exact ih reply (linked.perform performed)

theorem SameBindings.run {State : Type} (script : Script State) (ctx : CtxInner) :
    SameBindings ctx (script.run ctx).2 := by
  induction script generalizing ctx with
  | suspend | finish | panic => exact refl ctx
  | call request next ih =>
    unfold Script.run
    rcases performed : ctx.perform request with message | ⟨reply, after⟩
    · exact refl ctx
    · exact (perform performed).trans (ih reply after)

end CtxInner

namespace Replay

variable {State : Type} {poll : State → Script State} {replay drained after middle : Replay State}
  {before history : List Event} {event : Event} {kind : ActionKind} {result : CompletionResult}

/-! ## What a replay keeps of the events it has read -/

structure Tracks (history : List Event) (replay : Replay State) : Prop where
  linked : replay.ctx.Linked history (replay.ctx.promises replay.emittedActions)
  bound : ∀ token id, replay.ctx.tokenBindings token = some id → ∃ event ∈ history, event.eventId = id
  kinds : ∀ id kind, replay.scheduleKinds id = some kind ↔
    ∃ event ∈ history, event.eventId = id ∧ event.kind.actionKind = some kind
  opened : ∀ id, id ∈ replay.openSchedules ↔ IsOpen history id
  named : ∀ event ∈ history, event.kind.delivery.isSome → ∀ id, event.sourceEventId = some id →
    ∃ schedule ∈ history, schedule.eventId = id
  unresolved : ∀ id ∈ replay.openSchedules, ∀ token, replay.ctx.tokenBindings token = some id →
    replay.ctx.completionResults token = none

/-- A poll reads nothing. -/
theorem Tracks.polled (tracks : Tracks history replay) (ran : replay.pollOrchestrationFuture poll = .ok drained) :
    Tracks history drained := by
  have linked := tracks.linked.run (poll replay.fut)
  have same := CtxInner.SameBindings.run (poll replay.fut) replay.ctx
  obtain ⟨result, ctx, fut, output, outcome, rfl, _⟩ := pollOrchestrationFuture_spec ran
  rw [outcome] at linked same
  dsimp only at linked same
  constructor
  · have waits : CtxInner.promises { ctx with emittedActions := [] } (replay.emittedActions ++ ctx.emittedActions) =
        ctx.promises replay.emittedActions := by simp [CtxInner.promises]
    dsimp only
    rw [waits]
    exact linked.frame ⟨rfl, rfl, rfl, rfl⟩ rfl fun _ => rfl
  · simpa only [same.tokens] using tracks.bound
  · exact tracks.kinds
  · exact tracks.opened
  · exact tracks.named
  · simpa only [same.tokens, same.results] using tracks.unresolved

theorem Tracks.pollIfNeeded (tracks : Tracks history replay) (ran : replay.pollIfNeeded poll = .ok drained) :
    Tracks history drained := by
  rcases pollIfNeeded_spec ran with ⟨_, rfl⟩ | ⟨taken, mustPoll, _, polled, rfl, _⟩
  · exact tracks
  · exact { tracks.polled polled with }

/-- What an event does to the open schedules: an operation opens its own, a completion closes one that is open. -/
inductive Books (replay after : Replay State) (event : Event) : Prop
  | opens (kind : ActionKind) (schedules : event.kind.actionKind = some kind)
      (opened : after.openSchedules = insert event.eventId replay.openSchedules)
      (kinds : after.scheduleKinds = Function.update replay.scheduleKinds event.eventId (some kind))
  | closes (id : Nat) (delivers : event.kind.delivery.isSome) (source : event.sourceEventId = some id)
      (wasOpen : id ∈ replay.openSchedules) (closed : after.openSchedules = replay.openSchedules.erase id)
      (kinds : after.scheduleKinds = replay.scheduleKinds)
  | keeps (schedules : event.kind.actionKind = none) (unnamed : event.kind.delivery.isSome → event.sourceEventId = none)
      (opened : after.openSchedules = replay.openSchedules) (kinds : after.scheduleKinds = replay.scheduleKinds)

theorem books_of_match {token : Nat} {bound : Replay State}
    (matched : replay.matchAndBindSchedule event kind = .ok (token, bound)) (schedules : event.kind.actionKind = some kind)
    (opened : after.openSchedules = bound.openSchedules) (kinds : after.scheduleKinds = bound.scheduleKinds) :
    Books replay after event := by
  unfold matchAndBindSchedule at matched
  split at matched
  · cases matched
  · split_ifs at matched
    cases matched
    exact .opens kind schedules opened kinds

theorem books_of_delivery {activityOnly : Bool} (delivers : event.kind.delivery.isSome)
    (delivered : replay.deliverCompletion event activityOnly result = .ok after) : Books replay after event := by
  have schedules := (EventKind.not_isSchedule_of_delivery delivers).2.2
  unfold deliverCompletion at delivered
  split at delivered
  · rename_i source
    cases delivered
    exact .keeps schedules (fun _ => source) rfl rfl
  · rename_i sourceId source
    split_ifs at delivered with wasOpen other
    cases delivered
    exact .closes sourceId delivers source wasOpen rfl rfl

theorem books_of_applyHistoryEvent (applied : replay.applyHistoryEvent event = .ok after) : Books replay after event := by
  obtain ⟨eventId, source, instanceId, executionId, timestamp, version, kind⟩ := event
  cases kind with
  | activityScheduled | timerCreated | externalSubscribed | queueSubscribed | subOrchestrationScheduled =>
    obtain ⟨⟨token, bound⟩, matched, last⟩ := ok_of_bind applied
    cases last
    exact books_of_match matched rfl rfl rfl
  | activityCompleted | activityFailed | timerFired | subOrchestrationCompleted | subOrchestrationFailed =>
    exact books_of_delivery rfl applied
  | orchestrationStarted name version input parentInstance parentId carried status =>
    cases status <;> cases applied <;> exact .keeps rfl nofun rfl rfl
  | customStatusUpdated | keyValueSet | keyValueCleared | keyValuesCleared =>
    unfold applyHistoryEvent consumeAction at applied
    dsimp only at applied
    split at applied
    · cases applied
      exact .keeps rfl nofun rfl rfl
    · split_ifs at applied
      cases applied
      exact .keeps rfl nofun rfl rfl
  | orchestrationChained =>
    unfold applyHistoryEvent at applied
    dsimp only at applied
    split at applied
    · cases applied
    · split_ifs at applied
      cases applied
      exact .keeps rfl nofun rfl rfl
  | externalSubscribedCancelled | queueSubscriptionCancelled =>
    cases source <;> cases applied <;> exact .keeps rfl nofun rfl rfl
  | externalEvent =>
    unfold applyHistoryEvent at applied
    dsimp only at applied
    split_ifs at applied <;> cases applied <;> exact .keeps rfl nofun rfl rfl
  | _ =>
    cases applied
    exact .keeps rfl nofun rfl rfl

/-! ## What a replay keeps while it reads -/

/-- The results that an event leaves behind belong to the schedule that it completes. -/
theorem results_of_observe (ctx : CtxInner) (event : Event) (token : Nat)
    (other : ∀ id, event.sourceEventId = some id → event.kind.delivery.isSome → ctx.scheduleBindings id ≠ some token) :
    (ctx.observe event).completionResults token = ctx.completionResults token := by
  have delivered : ∀ result, event.kind.delivery.isSome →
      (ctx.deliverTo event.sourceEventId result).completionResults token = ctx.completionResults token := by
    intro result delivers
    cases source : event.sourceEventId with
    | none => rfl
    | some id =>
      have different := other id source delivers
      change (ctx.deliverResult id result).completionResults token = _
      unfold CtxInner.deliverResult
      split
      · rename_i bound found
        exact Function.update_of_ne (fun same => different (by rw [found, same])) _ _
      · rfl
  obtain ⟨eventId, source, instanceId, executionId, timestamp, version, kind⟩ := event
  cases kind with
  | activityCompleted | activityFailed | timerFired | subOrchestrationCompleted | subOrchestrationFailed =>
    exact delivered _ rfl
  | orchestrationStarted name version input parentInstance parentId carried status => cases status <;> rfl
  | externalSubscribedCancelled | queueSubscriptionCancelled => cases source <;> rfl
  | externalEvent name data =>
    unfold CtxInner.observe
    dsimp only
    split_ifs <;> rfl
  | _ => rfl

theorem isOpen_append {id : Nat} : IsOpen (history ++ [event]) id ↔
    ((∃ earlier ∈ history, earlier.eventId = id ∧ earlier.kind.actionKind.isSome) ∨
      event.eventId = id ∧ event.kind.actionKind.isSome) ∧
    (∀ earlier ∈ history, earlier.kind.delivery.isSome → earlier.sourceEventId ≠ some id) ∧
      (event.kind.delivery.isSome → event.sourceEventId ≠ some id) := by
  simp only [IsOpen, List.mem_append, List.mem_singleton, or_and_right, exists_or, exists_eq_left, or_imp,
    forall_and, forall_eq]

/-- A schedule is known under the token that it is bound to, and under no other id before it is read. -/
theorem Tracks.fresh (tracks : Tracks history replay) {id : Nat} (unread : ∀ event ∈ history, event.eventId ≠ id) :
    replay.ctx.scheduleBindings id = none := by
  by_contra bound
  obtain ⟨token, found⟩ := Option.ne_none_iff_exists'.mp bound
  obtain ⟨event, member, named⟩ := tracks.bound token id ((tracks.linked.paired token id).mpr found)
  exact unread event member named

theorem Tracks.linked_of_apply (tracks : Tracks history replay) (unread : ∀ earlier ∈ history, earlier.eventId ≠ event.eventId)
    (applies : Applies replay event after) :
    after.ctx.Linked (history ++ [event]) (after.ctx.promises after.emittedActions) := by
  have linked := tracks.linked
  cases applies with
  | bound token action schedules waiting matched ctx =>
    rw [waiting] at linked
    rw [ctx]
    exact linked.reads_bound (tracks.fresh unread) matched
  | consumed token action forgets waiting matched ctx =>
    rw [waiting] at linked
    rw [ctx]
    exact linked.reads_consumed forgets
  | skipped forgets nothing same =>
    rw [same]
    exact linked.read (EventKind.isSchedule_of_isFireAndForget forgets)
  | observed noSchedule remembered kept ctx =>
    rw [kept, ctx]
    exact linked.reads_observed noSchedule

/-- A token that is bound after an event was bound before, or waited for the event. -/
theorem tokenBindings_of_applies (applies : Applies replay event after) {token id : Nat}
    (bound : after.ctx.tokenBindings token = some id) : replay.ctx.tokenBindings token = some id ∨
      id = event.eventId ∧ ∃ action later, replay.emittedActions = (token, action) :: later := by
  cases applies with
  | bound first action schedules waiting matched ctx =>
    rw [ctx, CtxInner.bindSchedule_tokenBindings] at bound
    by_cases same : token = first
    · subst same
      rw [Function.update_self] at bound
      cases bound
      exact .inr ⟨rfl, action, _, waiting⟩
    · rw [Function.update_of_ne same] at bound
      exact .inl bound
  | consumed first action forgets waiting matched ctx =>
    rw [ctx] at bound
    exact .inl bound
  | skipped forgets nothing same =>
    rw [same] at bound
    exact .inl bound
  | observed noSchedule remembered kept ctx =>
    rw [ctx, CtxInner.observe_tokenBindings] at bound
    exact .inl bound

theorem results_of_applies (applies : Applies replay event after) {token : Nat}
    (other : ∀ id, event.sourceEventId = some id → event.kind.delivery.isSome →
      replay.ctx.scheduleBindings id ≠ some token) :
    after.ctx.completionResults token = replay.ctx.completionResults token := by
  cases applies with
  | bound first action schedules waiting matched ctx =>
    rw [ctx, (CtxInner.Linked.bindSchedule_same replay.ctx first event).2.1]
  | consumed first action forgets waiting matched ctx => rw [ctx]
  | skipped forgets nothing same => rw [same]
  | observed noSchedule remembered kept ctx =>
    rw [ctx]
    exact results_of_observe replay.ctx event token other

/-- A schedule is open after an event if it was, or if the event opens it. -/
theorem Books.open_before (books : Books replay after event) {id : Nat} (wasOpen : id ∈ after.openSchedules) :
    id ∈ replay.openSchedules ∨ id = event.eventId := by
  cases books with
  | opens booked schedules opened kinds =>
    rw [opened, Finset.mem_insert] at wasOpen
    exact wasOpen.symm
  | closes other _ _ _ closed =>
    rw [closed] at wasOpen
    exact .inl (Finset.mem_of_mem_erase wasOpen)
  | keeps _ _ opened =>
    rw [opened] at wasOpen
    exact .inl wasOpen

/-- The schedule that an event completes is not open behind it. -/
theorem Books.not_open_of_closed (books : Books replay after event) (delivers : event.kind.delivery.isSome)
    {source id : Nat} (named : event.sourceEventId = some source) (wasOpen : id ∈ after.openSchedules) : id ≠ source := by
  cases books with
  | opens booked schedules =>
    rw [(EventKind.not_isSchedule_of_delivery delivers).2.2] at schedules
    cases schedules
  | closes other _ named' _ closed =>
    rw [named] at named'
    cases named'
    rw [closed] at wasOpen
    exact Finset.ne_of_mem_erase wasOpen
  | keeps _ silent =>
    rw [silent delivers] at named
    cases named

/-- The kinds of the schedules that were read, with an event that is read next. -/
theorem Tracks.kinds_of_books (tracks : Tracks history replay)
    (unread : ∀ earlier ∈ history, earlier.eventId ≠ event.eventId) (books : Books replay after event) (id : Nat)
    (kind : ActionKind) : after.scheduleKinds id = some kind ↔
      ∃ read ∈ history ++ [event], read.eventId = id ∧ read.kind.actionKind = some kind := by
  simp only [List.mem_append, List.mem_singleton, or_and_right, exists_or, exists_eq_left]
  rw [← tracks.kinds id kind]
  cases books with
  | opens booked schedules opened kinds =>
    rw [kinds, schedules]
    by_cases here : id = event.eventId
    · have absent : replay.scheduleKinds event.eventId ≠ some kind := by
        rw [Ne, tracks.kinds]
        rintro ⟨earlier, member, same, _⟩
        exact unread earlier member same
      simp [here, absent]
    · simp [Function.update_of_ne here, Ne.symm here]
  | closes _ delivers _ _ _ kinds => simp [kinds, (EventKind.not_isSchedule_of_delivery delivers).2.2]
  | keeps schedules _ _ kinds => simp [kinds, schedules]

/-- The schedules that are open behind an event that is read next. -/
theorem Tracks.opened_of_books (tracks : Tracks history replay)
    (unread : ∀ earlier ∈ history, earlier.eventId ≠ event.eventId) (books : Books replay after event) (id : Nat) :
    id ∈ after.openSchedules ↔ IsOpen (history ++ [event]) id := by
  have unnamed : ∀ earlier ∈ history, earlier.kind.delivery.isSome → earlier.sourceEventId ≠ some event.eventId := by
    intro earlier member delivers source
    obtain ⟨schedule, listed, same⟩ := tracks.named earlier member delivers _ source
    exact unread schedule listed same
  rw [isOpen_append]
  cases books with
  | opens booked schedules opened kinds =>
    have silent : event.kind.delivery = none := by
      by_contra delivers
      rw [(EventKind.not_isSchedule_of_delivery (Option.isSome_iff_ne_none.mpr delivers)).2.2] at schedules
      cases schedules
    rw [opened, Finset.mem_insert, tracks.opened]
    by_cases here : id = event.eventId
    · subst here
      simpa [schedules, silent] using unnamed
    · simp [IsOpen, here, Ne.symm here, silent]
  | closes source delivers named wasOpen closed kinds =>
    rw [closed, Finset.mem_erase, tracks.opened]
    simp only [IsOpen, delivers, named, (EventKind.not_isSchedule_of_delivery delivers).2.2]
    constructor
    · rintro ⟨different, scheduled, unclosed⟩
      exact ⟨.inl scheduled, unclosed, fun _ same => different (Option.some.inj same).symm⟩
    · rintro ⟨scheduled | ⟨_, none⟩, unclosed, different⟩
      · exact ⟨fun same => different trivial (by rw [same]), scheduled, unclosed⟩
      · cases none
  | keeps schedules silent opened kinds =>
    rw [opened, tracks.opened]
    have unnamed : event.kind.delivery.isSome → event.sourceEventId ≠ some id := fun delivers same => by
      rw [silent delivers] at same
      cases same
    simp only [IsOpen, schedules, Option.isSome_none, Bool.false_eq_true, and_false, or_false]
    exact ⟨fun held => ⟨held.1, held.2, unnamed⟩, fun held => ⟨held.1, held.2.1⟩⟩

/-- The schedule that a completion names has been read. -/
theorem Tracks.named_of_books (tracks : Tracks history replay) (books : Books replay after event) :
    ∀ earlier ∈ history ++ [event], earlier.kind.delivery.isSome → ∀ id, earlier.sourceEventId = some id →
      ∃ schedule ∈ history ++ [event], schedule.eventId = id := by
  intro earlier member delivers id source
  rw [List.mem_append, List.mem_singleton] at member
  rcases member with old | rfl
  · obtain ⟨schedule, listed, same⟩ := tracks.named earlier old delivers id source
    exact ⟨schedule, List.mem_append_left _ listed, same⟩
  · cases books with
    | opens booked schedules =>
      rw [(EventKind.not_isSchedule_of_delivery delivers).2.2] at schedules
      cases schedules
    | closes other _ named wasOpen =>
      rw [source] at named
      cases named
      obtain ⟨⟨schedule, listed, same, _⟩, _⟩ := (tracks.opened id).mp wasOpen
      exact ⟨schedule, List.mem_append_left _ listed, same⟩
    | keeps _ silent =>
      rw [silent delivers] at source
      cases source

/-- An open schedule is without a result behind an event that is read next. -/
theorem Tracks.unresolved_of_applies (tracks : Tracks history replay)
    (unread : ∀ earlier ∈ history, earlier.eventId ≠ event.eventId) (books : Books replay after event)
    (applies : Applies replay event after) {id token : Nat} (wasOpen : id ∈ after.openSchedules)
    (bound : after.ctx.tokenBindings token = some id) : after.ctx.completionResults token = none := by
  have waits : ∀ action later, replay.emittedActions = (token, action) :: later →
      replay.ctx.tokenBindings token = none ∧ replay.ctx.completionResults token = none := by
    intro action later waiting
    have linked := tracks.linked
    unfold CtxInner.promises at linked
    rw [waiting] at linked
    exact linked.unbound (promise (token, action)) (by simp)
  -- Only the token of the schedule that the event completes gets a result, and that schedule is closed.
  have other : ∀ source, event.sourceEventId = some source → event.kind.delivery.isSome →
      replay.ctx.scheduleBindings source ≠ some token := by
    intro source named delivers found
    rw [← tracks.linked.paired] at found
    have different := books.not_open_of_closed delivers named wasOpen
    rcases tokenBindings_of_applies applies bound with old | ⟨_, action, later, waiting⟩
    · rw [old] at found
      exact different (Option.some.inj found)
    · rw [(waits action later waiting).1] at found
      cases found
  rw [results_of_applies applies other]
  rcases tokenBindings_of_applies applies bound with old | ⟨_, action, later, waiting⟩
  · refine tracks.unresolved id ((books.open_before wasOpen).resolve_right ?_) token old
    rintro rfl
    obtain ⟨earlier, member, same⟩ := tracks.bound token _ old
    exact unread earlier member same
  · exact (waits action later waiting).2

/-- An event that a replay accepts. -/
theorem Tracks.applied (tracks : Tracks history replay) (unread : ∀ earlier ∈ history, earlier.eventId ≠ event.eventId)
    (applied : replay.applyHistoryEvent event = .ok after) : Tracks (history ++ [event]) after := by
  obtain ⟨applies, _, _⟩ := applyHistoryEvent_spec applied
  have books := books_of_applyHistoryEvent applied
  constructor
  case linked => exact tracks.linked_of_apply unread applies
  case bound =>
    intro token id bound
    rcases tokenBindings_of_applies applies bound with old | ⟨same, _⟩
    · obtain ⟨source, member, named⟩ := tracks.bound token id old
      exact ⟨source, List.mem_append_left _ member, named⟩
    · exact ⟨event, by simp, same.symm⟩
  case kinds => exact tracks.kinds_of_books unread books
  case opened => exact tracks.opened_of_books unread books
  case named => exact tracks.named_of_books books
  case unresolved => exact fun id wasOpen token bound => tracks.unresolved_of_applies unread books applies wasOpen bound

theorem Tracks.applyHistory (tracks : Tracks history replay) (distinct : ((history ++ before).map (·.eventId)).Nodup)
    (ran : replay.applyHistory poll before = .ok middle) (running : middle.output = none) :
    Tracks (history ++ before) middle := by
  induction before generalizing history replay with
  | nil =>
    cases ran
    rwa [List.append_nil]
  | cons event rest ih =>
    obtain ⟨drained, after, polled, _, applied, later⟩ := applyHistory_cons_spec ran running
    have unread : ∀ earlier ∈ history, earlier.eventId ≠ event.eventId := by
      intro earlier member same
      rw [List.map_append, List.nodup_append] at distinct
      exact distinct.2.2 _ (List.mem_map_of_mem member) event.eventId (by simp) same
    have next := (tracks.pollIfNeeded polled).applied unread applied
    rw [List.append_cons] at distinct ⊢
    exact ih next distinct later

/-- A program that is still running behind a poll ran before it. -/
theorem output_of_pollIfNeeded (ran : replay.pollIfNeeded poll = .ok drained) (running : drained.output = none) :
    replay.output = none := by
  rcases pollIfNeeded_spec ran with ⟨_, rfl⟩ | ⟨taken, mustPoll, _, polled, rfl, _⟩
  · exact running
  · obtain ⟨result, ctx, fut, output, _, rfl, suspended⟩ := pollOrchestrationFuture_spec polled
    exact (suspended running).2

/-- A replay that has read nothing. -/
theorem tracks_firstReplay (engine : ReplayEngine) (handler : OrchestrationHandler) (input orchestrationName
    orchestrationVersion : String) (history : List Event) :
    Tracks [] (engine.firstReplay handler input orchestrationName orchestrationVersion history) where
  linked := CtxInner.Linked.nil _ rfl rfl rfl rfl
  bound _ _ bound := nomatch bound
  kinds id kind := by simp [ReplayEngine.firstReplay]
  opened id := by simp [ReplayEngine.firstReplay, IsOpen]
  named := by simp
  unresolved := by simp [ReplayEngine.firstReplay]

/-! ## What a completion does -/

/-- A completion closes one open schedule of its kind and makes the future that is bound to it ready with its result;
nothing else becomes ready. -/
structure Resolves (replay after : Replay State) (scheduleId : Nat) (kind : ActionKind) (result : CompletionResult) :
    Prop where
  wasOpen : scheduleId ∈ replay.openSchedules
  sameKind : replay.scheduleKinds scheduleId = some kind
  closed : after.openSchedules = replay.openSchedules.erase scheduleId
  futures : after.ctx.futures = replay.ctx.futures
  resolved : ∃ token future, replay.ctx.futures token = some future ∧
    (∀ other, replay.ctx.tokenBindings other = some scheduleId ↔ other = token) ∧
    (replay.ctx.readyValue token future.kind).1 = none ∧ (after.ctx.readyValue token future.kind).1 = some result ∧
    ∀ other ≠ token, ∀ kind, (after.ctx.readyValue other kind).1 = (replay.ctx.readyValue other kind).1

/-- A completion that is accepted resolves the future of its own schedule; one for a schedule that is closed or of
another kind is rejected as nondeterminism. -/
def ResolvesItsOwn (replay : Replay State) (event : Event) (kind : ActionKind) (result : CompletionResult) : Prop :=
  (∀ after, replay.applyHistoryEvent event = .ok after →
    ∃ id, event.sourceEventId = some id ∧ Resolves replay after id kind result) ∧
  ∀ id, event.sourceEventId = some id → id ∉ replay.openSchedules ∨ replay.scheduleKinds id ≠ some kind →
    ∃ message, replay.applyHistoryEvent event = .error (.failed (nondeterminismError message))

/-- A completion names a schedule, and not an open one of another kind unless its kind is checked. -/
def NamesItsOwn (history : List Event) (event : Event) (kind : ActionKind) : Prop :=
  ∃ id, event.sourceEventId = some id ∧ (event.kind.kindIsChecked ∨
    (IsOpen history id → ∃ schedule ∈ history, schedule.eventId = id ∧ schedule.kind.actionKind = some kind))

theorem applyHistoryEvent_of_delivery (completes : event.kind.delivery = some (kind, result)) :
    replay.applyHistoryEvent event = replay.deliverCompletion event event.kind.kindIsChecked result := by
  obtain ⟨eventId, source, instanceId, executionId, timestamp, version, eventKind⟩ := event
  cases eventKind <;> cases completes <;> rfl

theorem kind_of_checked {eventKind : EventKind} (completes : eventKind.delivery = some (kind, result))
    (checked : eventKind.kindIsChecked) : kind = .activity := by
  cases eventKind <;> cases completes <;> first | rfl | cases checked

/-- A future is ready with the result that its token was given, if it is one that completions are for. -/
theorem readyValue_of_delivery {eventKind scheduled : EventKind} {ctx : CtxInner} {token : Nat} {held : ScheduleKind}
    (completes : eventKind.delivery = some (kind, result)) (schedules : scheduled.actionKind = some kind)
    (future : scheduled.futureKind token = some held) :
    (ctx.completionResults token = none → (ctx.readyValue token held).1 = none) ∧
      (ctx.completionResults token = some result → (ctx.readyValue token held).1 = some result) := by
  have awaited : held = .timer ∨ (∃ name, held = .activity name) ∨ ∃ other, held = .subOrchestration other := by
    cases eventKind <;> cases completes <;> cases scheduled <;> cases schedules <;> cases future <;> simp
  constructor
  · intro unresolved
    rcases awaited with rfl | ⟨name, rfl⟩ | ⟨other, rfl⟩ <;> simp [CtxInner.readyValue, unresolved]
  · intro delivered
    cases eventKind <;> cases completes <;> cases scheduled <;> cases schedules <;> cases future <;>
      simp [CtxInner.readyValue, delivered]

theorem readyValue_congr {ctx other : CtxInner} {token : Nat} (results : other.completionResults token = ctx.completionResults token)
    (bindings : other.tokenBindings = ctx.tokenBindings) (external : other.external = ctx.external)
    (queue : other.queue = ctx.queue) (held : ScheduleKind) :
    (other.readyValue token held).1 = (ctx.readyValue token held).1 := by
  cases held <;> simp only [CtxInner.readyValue, results, bindings, external, queue]
  split <;> rfl

/-- A completion that is applied to an open schedule of its kind. -/
theorem Tracks.resolves (tracks : Tracks history replay) (completes : event.kind.delivery = some (kind, result))
    {id : Nat} (wasOpen : id ∈ replay.openSchedules) (sameKind : replay.scheduleKinds id = some kind) :
    Resolves replay { replay with
      ctx := replay.ctx.deliverResult id result, openSchedules := replay.openSchedules.erase id, mustPoll := true }
      id kind result := by
  obtain ⟨schedule, member, rfl, schedules⟩ := (tracks.kinds _ kind).mp sameKind
  obtain ⟨token, bound, held, _⟩ := tracks.linked.booked schedule member
    (EventKind.isSchedule_of_actionKind (by rw [schedules]; rfl))
  have found := (tracks.linked.paired token _).mp bound
  have delivered : replay.ctx.deliverResult schedule.eventId result = { replay.ctx with
      completionResults := Function.update replay.ctx.completionResults token (some result) } := by
    unfold CtxInner.deliverResult
    rw [found]
  have records : (schedule.kind.futureKind token).isSome := by
    cases kind' : schedule.kind <;> first | rfl | (rw [kind'] at schedules; cases schedules)
  obtain ⟨kind', future⟩ := Option.isSome_iff_exists.mp records
  rw [future] at held
  obtain ⟨promised, futureFound, rfl⟩ := Option.map_eq_some_iff.mp held
  have ready := fun ctx => @readyValue_of_delivery kind result _ _ ctx token _ completes schedules future
  refine ⟨wasOpen, sameKind, rfl, by rw [delivered], token, promised, futureFound, fun other => ?_, ?_, ?_, ?_⟩
  · rw [tracks.linked.paired, found]
    exact ⟨fun same => (Option.some.inj same).symm, fun same => by rw [same]⟩
  · exact (ready replay.ctx).1 (tracks.unresolved _ wasOpen token bound)
  · apply (ready _).2
    rw [delivered]
    exact Function.update_self ..
  · intro other different kind
    rw [delivered]
    apply readyValue_congr
    · exact Function.update_of_ne different _ _
    · rfl
    · rfl
    · rfl

/-- In a replay of any history, a completion that is reached resolves the future of its own schedule or is rejected
as nondeterminism, if and only if it names a schedule and, unless its kind is checked, not an open one of another
kind. -/
theorem completion_resolves_iff {engine : ReplayEngine} {handler : OrchestrationHandler}
    {input orchestrationName orchestrationVersion : String} {before rest : List Event}
    {middle drained : Replay handler.State}
    (distinct : ((before ++ event :: rest).map (·.eventId)).Nodup)
    (replayed : (engine.firstReplay handler input orchestrationName orchestrationVersion
      (before ++ event :: rest)).applyHistory handler.poll before = .ok middle)
    (polled : middle.pollIfNeeded handler.poll = .ok drained) (running : drained.output = none)
    (completes : event.kind.delivery = some (kind, result)) :
    ResolvesItsOwn drained event kind result ↔ NamesItsOwn before event kind := by
  have tracks : Tracks before drained := by
    have first := tracks_firstReplay engine handler input orchestrationName orchestrationVersion (before ++ event :: rest)
    refine Tracks.pollIfNeeded (first.applyHistory ?_ replayed (output_of_pollIfNeeded polled running)) polled
    rw [List.nil_append]
    exact (List.map_append ▸ distinct).of_append_left
  have delivers := @applyHistoryEvent_of_delivery _ drained event kind result completes
  have accepted : ∀ id, event.sourceEventId = some id → id ∈ drained.openSchedules →
      (event.kind.kindIsChecked → drained.scheduleKinds id = some .activity) →
      drained.applyHistoryEvent event = .ok { drained with
        ctx := drained.ctx.deliverResult id result, openSchedules := drained.openSchedules.erase id, mustPoll := true } := by
    intro id source wasOpen checked
    rw [delivers]
    unfold deliverCompletion
    rw [source]
    simpa [wasOpen] using checked
  constructor
  · rintro ⟨resolves, rejects⟩
    cases source : event.sourceEventId with
    | none =>
      obtain ⟨id, named, _⟩ := resolves drained (by rw [delivers]; unfold deliverCompletion; rw [source])
      rw [source] at named
      cases named
    | some id =>
      refine ⟨id, source, ?_⟩
      by_cases checked : event.kind.kindIsChecked
      · exact .inl checked
      refine .inr fun isOpen => ?_
      obtain ⟨other, named, resolved⟩ := resolves _ (accepted id source ((tracks.opened id).mpr isOpen)
        fun checks => absurd checks checked)
      rw [source] at named
      cases named
      exact (tracks.kinds id kind).mp resolved.sameKind
  · rintro ⟨id, source, own⟩
    by_cases matched : id ∈ drained.openSchedules ∧ drained.scheduleKinds id = some kind
    · refine ⟨fun after applied => ⟨id, source, ?_⟩, ?_⟩
      · rw [accepted id source matched.1 fun checked => by rw [matched.2, kind_of_checked completes checked]] at applied
        cases applied
        exact tracks.resolves completes matched.1 matched.2
      · intro other named differs
        rw [source] at named
        cases named
        rcases differs with isClosed | differs
        · exact absurd matched.1 isClosed
        · exact absurd matched.2 differs
    · have rejected : ∃ message, drained.applyHistoryEvent event = .error (.failed (nondeterminismError message)) := by
        rw [delivers]
        unfold deliverCompletion
        rw [source]
        dsimp only
        split_ifs with wasOpen wrong
        · exact ⟨_, rfl⟩
        · refine absurd ⟨wasOpen, ?_⟩ matched
          by_cases checked : event.kind.kindIsChecked
          · rw [kind_of_checked completes checked]
            simpa [checked] using wrong
          · exact (tracks.kinds id kind).mpr ((own.resolve_left checked) ((tracks.opened id).mp wasOpen))
        · exact ⟨_, rfl⟩
      refine ⟨fun after applied => ?_, fun _ _ _ => rejected⟩
      obtain ⟨message, failed⟩ := rejected
      rw [failed] at applied
      cases applied

/-! A program that sleeps. -/

def sleepingHandler : OrchestrationHandler where
  State := Option Nat
  invoke _ := none
  poll
    | none => .call (.scheduleTimer 5) fun token => .suspend (some token)
    | some token => .call (.pollFuture token) fun
        | some _ => .finish (.ok "")
        | none => .suspend (some token)

/-- What a sleeping program has recorded. -/
def asleep : List Event :=
  let event := Event.withEventId ⟨0, "0.1.0"⟩
  [event 1 "i" 1 none (.orchestrationStarted "o" "1.0.0" "" none none none none), event 2 "i" 1 none (.timerCreated 5)]

/-- A completion for the timer of the sleeping program. -/
def wakes (kind : EventKind) : Event := Event.withEventId ⟨0, "0.1.0"⟩ 3 "i" 1 (some 2) kind

/-- The replay of the sleeping program up to the completion of its timer. -/
def sleepingReplay (kind : EventKind) : Except TurnResult (Replay sleepingHandler.State) :=
  ((ReplayEngine.new ⟨0, "0.1.0"⟩ "i" 1 (asleep ++ [wakes kind])).firstReplay sleepingHandler "" "o" "1.0.0"
    (asleep ++ [wakes kind])).applyHistory sleepingHandler.poll asleep >>= pollIfNeeded sleepingHandler.poll

theorem completion_resolves_iff_asleep : ∃ drained, sleepingReplay (.timerFired 5) = .ok drained ∧
    (ResolvesItsOwn drained (wakes (.timerFired 5)) .timer .timerFired ↔
      NamesItsOwn asleep (wakes (.timerFired 5)) .timer) :=
  ⟨_, rfl, completion_resolves_iff (by decide) rfl rfl rfl rfl⟩

/-- A failed activity is accepted for the timer: it closes the timer's schedule, and the timer never fires. -/
theorem failedActivity_closes_timer :
    ∃ drained after, sleepingReplay (.activityFailed (.application .activityFailed "no" false)) = .ok drained ∧
      drained.applyHistoryEvent (wakes (.activityFailed (.application .activityFailed "no" false))) = .ok after ∧
      drained.scheduleKinds 2 = some .timer ∧ 2 ∉ after.openSchedules ∧ (after.ctx.readyValue 1 .timer).1 = none ∧
      ¬ ResolvesItsOwn drained (wakes (.activityFailed (.application .activityFailed "no" false))) .activity
        (.activityErr "no") := by
  refine ⟨_, _, rfl, rfl, rfl, by decide, rfl, ?_⟩
  rintro ⟨resolves, _⟩
  obtain ⟨id, source, resolved⟩ := resolves _ rfl
  cases source
  exact absurd resolved.sameKind (by decide)

end Replay

end Duroxide
