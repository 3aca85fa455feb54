import Duroxide.Model.Runtimes
import Duroxide.Proofs.DuplicateStarts
import Duroxide.Proofs.ExecutedTurns
import Duroxide.Proofs.TerminalEvents

/-! # Completions of schedules

A message completes a schedule of its kind once: the engine drops what the history or the batch already
holds. The test against the history looks for the event of the message's own kind only, and never for that
of a failed activity, so the other outcome of a schedule passes it.
-/

namespace Duroxide

/-- The kind of schedule that an event completes. -/
def EventKind.completes : EventKind → Option String
  | .activityCompleted _ | .activityFailed _ => some "activity"
  | .timerFired _ => some "timer"
  | .subOrchestrationCompleted _ | .subOrchestrationFailed _ => some "suborchestration"
  | _ => none

/-- The schedule that an event completes, by its kind and its event id. -/
def Event.completion (event : Event) : Option (String × Nat) :=
  event.kind.completes.bind fun kind => event.sourceEventId.map (kind, ·)

/-- The execution and the schedule that a message completes. -/
def WorkItem.completion : WorkItem → Option (Nat × String × Nat)
  | .activityCompleted _ executionId id _ | .activityFailed _ executionId id _ => some (executionId, "activity", id)
  | .timerFired _ executionId id _ => some (executionId, "timer", id)
  | .subOrchCompleted _ parentExecutionId parentId _ | .subOrchFailed _ parentExecutionId parentId _ =>
      some (parentExecutionId, "suborchestration", parentId)
  | _ => none

/-- The schedules that the events of a history complete, in their order. -/
def completions (history : List Event) : List (String × Nat) := history.filterMap Event.completion

/-- No schedule is completed twice. -/
def AtMostOnce (history : List Event) : Prop := ((completions history).map (·.2)).Nodup

/-- The kind of schedule that a history records under an event id. -/
def scheduleKindOf (history : List Event) (id : Nat) : Option String :=
  history.findSome? fun event =>
    if event.eventId != id then none else
    match event.kind with
    | .activityScheduled .. => some "activity"
    | .timerCreated _ => some "timer"
    | .subOrchestrationScheduled .. => some "suborchestration"
    | _ => none

/-- A completion that the test against the history misses: the schedule has an outcome of another kind, or
its activity failed. -/
def slips (history : List Event) : WorkItem → Bool
  | .activityCompleted _ _ id _ => ReplayEngine.hasSource history id fun | .activityFailed _ => true | _ => false
  | .activityFailed _ _ id _ => ReplayEngine.hasSource history id (·.completes == some "activity")
  | .subOrchCompleted _ _ parentId _ =>
      ReplayEngine.hasSource history parentId fun | .subOrchestrationFailed _ => true | _ => false
  | .subOrchFailed _ _ parentId _ =>
      ReplayEngine.hasSource history parentId fun | .subOrchestrationCompleted _ => true | _ => false
  | _ => false

/-- A message that is no completion for this execution, or does not slip. -/
def Caught (history : List Event) (executionId : Nat) (message : WorkItem) : Prop :=
  ∀ kind id, message.completion = some (executionId, kind, id) → slips history message = false

/-- No schedule is completed twice, and what is completed was scheduled as what it is completed as. -/
structure SettledOnce (history : List Event) : Prop where
  once : AtMostOnce history
  scheduled : ∀ settled ∈ completions history, scheduleKindOf history settled.2 = some settled.1

theorem completions_append (history delta : List Event) : completions (history ++ delta) =
    completions history ++ completions delta := List.filterMap_append

/-- A schedule keeps its kind when events follow. -/
theorem scheduleKindOf_append {history : List Event} {id : Nat} {kind : String}
    (scheduled : scheduleKindOf history id = some kind) (delta : List Event) :
    scheduleKindOf (history ++ delta) id = some kind := by
  rw [scheduleKindOf, List.findSome?_append]
  exact Option.or_of_isSome (Option.isSome_of_mem scheduled) ▸ scheduled

/-- Start events and messages schedule nothing. -/
theorem scheduleKindOf_append_of_plain (history : List Event) {delta : List Event}
    (plain : ∀ event ∈ delta, event.kind.isStarted || event.kind.isMessage) (id : Nat) :
    scheduleKindOf (history ++ delta) id = scheduleKindOf history id := by
  have nothing : scheduleKindOf delta id = none := by
    refine List.findSome?_eq_none_iff.mpr fun event member => ?_
    have other := plain event member
    obtain ⟨eventId, source, instanceId, executionId, timestamp, crate, kind⟩ := event
    cases kind <;> first | exact ite_self _ | cases other
  rw [scheduleKindOf, List.findSome?_append]
  change (scheduleKindOf history id).or (scheduleKindOf delta id) = _
  rw [nothing, Option.or_none]

namespace SettledOnce

variable {history delta : List Event}

theorem nil : SettledOnce [] := ⟨List.nodup_nil, fun _ none => absurd none List.not_mem_nil⟩

/-- Completions of schedules that the history left open settle them. -/
theorem append (settled : SettledOnce history) (once : AtMostOnce delta)
    (scheduled : ∀ added ∈ completions delta, scheduleKindOf history added.2 = some added.1)
    (fresh : ∀ added ∈ completions delta, added ∉ completions history) : SettledOnce (history ++ delta) where
  once := by
    rw [AtMostOnce, completions_append, List.map_append]
    refine List.nodup_append.mpr ⟨settled.once, once, ?_⟩
    intro id old other new same
    obtain ⟨⟨kind, before⟩, settledBefore, rfl⟩ := List.mem_map.mp old
    obtain ⟨⟨addedKind, added⟩, settledNow, rfl⟩ := List.mem_map.mp new
    obtain rfl : before = added := same
    have kinds : some kind = some addedKind :=
      (settled.scheduled (kind, before) settledBefore).symm.trans (scheduled (addedKind, before) settledNow)
    obtain rfl := Option.some.inj kinds
    exact fresh _ settledNow settledBefore
  scheduled := by
    intro added member
    rw [completions_append] at member
    rcases List.mem_append.mp member with old | new
    · exact scheduleKindOf_append (settled.scheduled added old) delta
    · exact scheduleKindOf_append (scheduled added new) delta

/-- Events that complete nothing leave what is settled. -/
theorem append_of_nil (settled : SettledOnce history) (nothing : completions delta = []) :
    SettledOnce (history ++ delta) :=
  settled.append (by rw [AtMostOnce, nothing]; exact List.nodup_nil)
    (fun _ added => absurd (nothing ▸ added) List.not_mem_nil) fun _ added => absurd (nothing ▸ added) List.not_mem_nil

end SettledOnce

/-! ## Preparing a completion -/

namespace ReplayEngine

variable {engine : ReplayEngine} {message : WorkItem} {executionId id : Nat} {kind : String}

theorem scheduleKind_eq (engine : ReplayEngine) (id : Nat) :
    engine.scheduleKind id = scheduleKindOf (engine.baselineHistory ++ engine.historyDelta) id := rfl

theorem hasSource_completes {events : List Event} :
    hasSource events id (·.completes == some kind) = true ↔ (kind, id) ∈ completions events := by
  simp only [hasSource, List.any_eq_true, completions, List.mem_filterMap, Event.completion, Option.bind_eq_some_iff,
    Option.map_eq_some_iff, Prod.mk.injEq, Bool.and_eq_true, beq_iff_eq]
  constructor
  · rintro ⟨event, member, source, completes⟩
    exact ⟨event, member, kind, completes, id, source, rfl, rfl⟩
  · rintro ⟨event, member, _, completes, _, source, rfl, rfl⟩
    exact ⟨event, member, source, completes⟩

theorem isCompletionForCurrentExecution_of_completion (completion : message.completion = some (executionId, kind, id)) :
    engine.isCompletionForCurrentExecution message = (executionId == engine.executionId) := by
  cases message <;> cases completion <;> rfl

theorem isAlreadyInDelta_of_completion (completion : message.completion = some (executionId, kind, id)) :
    engine.isAlreadyInDelta message = hasSource engine.historyDelta id (·.completes == some kind) := by
  unfold isAlreadyInDelta
  cases message <;> cases completion <;> refine congrArg (hasSource engine.historyDelta id) (funext fun kind => ?_) <;>
    cases kind <;> rfl

/-- A completion whose schedule is settled is found in the history, unless it slips. -/
theorem isCompletionAlreadyInHistory_of_settled (completion : message.completion = some (executionId, kind, id))
    (settled : (kind, id) ∈ completions engine.baselineHistory) (caught : slips engine.baselineHistory message = false) :
    engine.isCompletionAlreadyInHistory message = true := by
  obtain ⟨event, member, found⟩ := List.any_eq_true.mp (hasSource_completes.mpr settled)
  obtain ⟨source, completes⟩ := Bool.and_eq_true_iff.mp found
  have missed : ∀ kindMatches : EventKind → Bool, hasSource engine.baselineHistory id kindMatches = false →
      kindMatches event.kind = false := by
    intro kindMatches none
    rw [hasSource, List.any_eq_false] at none
    have other := none event member
    rw [source, Bool.true_and] at other
    exact Bool.eq_false_of_not_eq_true other
  have met : ∀ kindMatches : EventKind → Bool, kindMatches event.kind = true →
      hasSource engine.baselineHistory id kindMatches = true := by
    intro kindMatches own
    refine List.any_eq_true.mpr ⟨event, member, ?_⟩
    rw [source, own]
    rfl
  unfold slips at caught
  unfold isCompletionAlreadyInHistory
  cases message <;> cases completion
  case activityCompleted =>
    have other := missed _ caught
    refine met _ ?_
    rcases eventKind : event.kind <;> rw [eventKind] at completes other <;> first | rfl | (cases completes; done) | cases other
  case activityFailed => exact absurd completes (ne_true_of_eq_false (missed _ caught))
  case timerFired =>
    refine met _ ?_
    rcases eventKind : event.kind <;> rw [eventKind] at completes <;> first | rfl | cases completes
  case subOrchCompleted =>
    have other := missed _ caught
    refine met _ ?_
    rcases eventKind : event.kind <;> rw [eventKind] at completes other <;> first | rfl | (cases completes; done) | cases other
  case subOrchFailed =>
    have other := missed _ caught
    refine met _ ?_
    rcases eventKind : event.kind <;> rw [eventKind] at completes other <;> first | rfl | (cases completes; done) | cases other

/-- A completion is dropped, refused, or becomes an event that completes its schedule. -/
inductive PreparesCompletion (engine : ReplayEngine) (message : WorkItem) (executionId : Nat) (kind : String) (id : Nat) :
    ReplayEngine → Prop
  | ignored (other : executionId ≠ engine.executionId) : PreparesCompletion engine message executionId kind id engine
  | persisted (known : engine.isCompletionAlreadyInHistory message = true) :
      PreparesCompletion engine message executionId kind id engine
  | duplicate (known : (kind, id) ∈ completions engine.historyDelta) :
      PreparesCompletion engine message executionId kind id engine
  | refused (unscheduled : engine.scheduleKind id ≠ some kind) (error : ErrorDetails) :
      PreparesCompletion engine message executionId kind id { engine with abortError := some error }
  | staged (own : executionId = engine.executionId) (new : engine.isCompletionAlreadyInHistory message = false)
      (first : (kind, id) ∉ completions engine.historyDelta) (scheduled : engine.scheduleKind id = some kind)
      (abortError : Option ErrorDetails) (eventKind : EventKind) (completes : eventKind.completes = some kind)
      (isMessage : eventKind.isMessage) :
      PreparesCompletion engine message executionId kind id ({ engine with abortError }.pushEvent (some id) eventKind)

theorem completionError_of_completion (completion : message.completion = some (executionId, kind, id)) :
    (engine.completionError message = none ↔ engine.scheduleKind id = some kind) := by
  have expected : ∀ described, engine.expectSchedule id kind described = none ↔ engine.scheduleKind id = some kind := by
    intro described
    unfold expectSchedule
    split
    · rename_i found scheduled
      rw [scheduled]
      split_ifs with same
      · simp [same]
      · simp [same]
    · rename_i unscheduled
      simp [unscheduled]
  unfold completionError
  cases message <;> cases completion <;> exact expected _

theorem preparesCompletion (completion : message.completion = some (executionId, kind, id)) :
    PreparesCompletion engine message executionId kind id (engine.prepCompletion message) := by
  unfold prepCompletion
  split_ifs with other persisted duplicate
  · refine .ignored fun own => ?_
    rw [isCompletionForCurrentExecution_of_completion completion, own, beq_self_eq_true] at other
    cases other
  · exact .persisted persisted
  · rw [isAlreadyInDelta_of_completion completion] at duplicate
    exact .duplicate (hasSource_completes.mp duplicate)
  have own : executionId = engine.executionId := by
    rw [isCompletionForCurrentExecution_of_completion completion] at other
    simpa using other
  rw [isAlreadyInDelta_of_completion completion, hasSource_completes] at duplicate
  split
  · rename_i error failed
    refine .refused (fun scheduled => ?_) error
    rw [(completionError_of_completion completion).mpr scheduled] at failed
    cases failed
  · rename_i accepted
    have scheduled := (completionError_of_completion completion).mp accepted
    obtain ⟨abortError, aborted⟩ : ∃ abortError, engine.abortOnSystemError message = { engine with abortError } := by
      unfold abortOnSystemError
      split <;> first | exact ⟨_, rfl⟩ | (split_ifs <;> exact ⟨_, rfl⟩)
    obtain ⟨eventKind, completes, converted⟩ : ∃ eventKind : EventKind, eventKind.completes = some kind ∧
        engine.messageToEventKind message = some (some id, eventKind) := by
      cases message <;> cases completion <;> exact ⟨_, rfl, rfl⟩
    dsimp only
    rw [aborted, converted]
    exact .staged own (Bool.eq_false_of_not_eq_true persisted) duplicate scheduled abortError eventKind completes
      (messageToEventKind_isMessage converted)

/-- Other messages become events that complete nothing. -/
theorem completes_of_not_completion (other : message.completion = none) {source : Option Nat} {eventKind : EventKind}
    (converted : engine.messageToEventKind message = some (source, eventKind)) : eventKind.completes = none := by
  cases message with
  | cancelInstance instanceId reason =>
    unfold messageToEventKind at converted
    dsimp only at converted
    split_ifs at converted
    cases converted
    rfl
  | activityCompleted | activityFailed | timerFired | subOrchCompleted | subOrchFailed => cases other
  | externalRaised | queueMessage => cases converted; rfl
  | startOrchestration | activityExecute | continueAsNew => cases converted

/-! ## Preparing a batch -/

/-- An engine that has prepared some messages over the history of an execution. -/
structure Staged (history : List Event) (executionId : Nat) (engine : ReplayEngine) : Prop where
  baseline : engine.baselineHistory = history
  execution : engine.executionId = executionId
  messages : ∀ event ∈ engine.historyDelta, event.kind.isMessage
  once : AtMostOnce engine.historyDelta
  scheduled : ∀ staged ∈ completions engine.historyDelta, scheduleKindOf history staged.2 = some staged.1

/-- The staged completions are of open schedules. -/
def Fresh (engine : ReplayEngine) : Prop :=
  ∀ staged ∈ completions engine.historyDelta, staged ∉ completions engine.baselineHistory

theorem Staged.scheduleKind {history : List Event} (staged : Staged history executionId engine) (id : Nat) :
    engine.scheduleKind id = scheduleKindOf history id := by
  rw [scheduleKind_eq, scheduleKindOf_append_of_plain _ fun event member => ?_, staged.baseline]
  rw [staged.messages event member, Bool.or_true]

theorem completions_pushEvent (engine : ReplayEngine) (source : Option Nat) (eventKind : EventKind) :
    completions (engine.pushEvent source eventKind).historyDelta =
      completions engine.historyDelta ++ (eventKind.completes.bind fun kind => source.map (kind, ·)).toList := by
  change completions (engine.historyDelta ++ [Event.withEventId _ _ _ _ source eventKind]) = _
  rw [completions_append]
  congr 1

namespace Staged

variable {history : List Event}

theorem abort (staged : Staged history executionId engine) (abortError : Option ErrorDetails) :
    Staged history executionId { engine with abortError } :=
  ⟨staged.baseline, staged.execution, staged.messages, staged.once, staged.scheduled⟩

/-- A message that completes nothing, or a schedule that nothing staged completes. -/
theorem push (staged : Staged history executionId engine) {source : Option Nat} {eventKind : EventKind}
    (isMessage : eventKind.isMessage)
    (unsettled : ∀ added ∈ eventKind.completes.bind fun kind => source.map (kind, ·),
      added ∉ completions engine.historyDelta ∧ scheduleKindOf history added.2 = some added.1) :
    Staged history executionId (engine.pushEvent source eventKind) where
  baseline := staged.baseline
  execution := staged.execution
  messages := by
    intro event member
    rcases List.mem_append.mp member with old | new
    · exact staged.messages event old
    · rw [List.mem_singleton.mp new]
      exact isMessage
  once := by
    rw [AtMostOnce, completions_pushEvent, List.map_append]
    refine List.nodup_append.mpr ⟨staged.once, ?_, ?_⟩
    · cases eventKind.completes.bind fun kind => source.map (kind, ·) with
      | none => exact List.nodup_nil
      | some added => exact List.nodup_singleton _
    · intro id old other new same
      obtain ⟨⟨kind, before⟩, stagedBefore, rfl⟩ := List.mem_map.mp old
      obtain ⟨⟨addedKind, added⟩, stagedNow, rfl⟩ := List.mem_map.mp new
      obtain rfl : before = added := same
      obtain ⟨first, scheduled⟩ := unsettled _ (Option.mem_toList.mp stagedNow)
      obtain rfl : kind = addedKind := Option.some.inj ((staged.scheduled _ stagedBefore).symm.trans scheduled)
      exact first stagedBefore
  scheduled := by
    intro added member
    rw [completions_pushEvent] at member
    rcases List.mem_append.mp member with old | new
    · exact staged.scheduled added old
    · exact (unsettled added (Option.mem_toList.mp new)).2

/-- A message adds at most a completion of a schedule that the batch did not complete yet. -/
theorem prepCompletion (staged : Staged history executionId engine) (message : WorkItem) :
    Staged history executionId (engine.prepCompletion message) := by
  rcases completion : message.completion with _ | ⟨completedExecution, kind, id⟩
  · rcases engine.prepCompletion_cases message with ⟨abortError, same⟩ | ⟨abortError, source, eventKind, converted, pushed⟩
    · rw [same]
      exact staged.abort abortError
    · rw [pushed]
      refine (staged.abort abortError).push (messageToEventKind_isMessage converted) ?_
      rw [completes_of_not_completion completion converted]
      exact fun _ none => absurd none (Option.not_mem_none _)
  · have prepares := @preparesCompletion engine _ _ _ _ completion
    generalize engine.prepCompletion message = result at prepares ⊢
    cases prepares with
    | ignored | persisted | duplicate => exact staged
    | refused unscheduled error => exact staged.abort (some error)
    | staged own new first scheduled abortError eventKind completes isMessage =>
      refine (staged.abort abortError).push isMessage fun added member => ?_
      rw [completes] at member
      obtain rfl := Option.some.inj member
      exact ⟨first, (staged.scheduleKind id).symm.trans scheduled⟩

theorem prepCompletions (staged : Staged history executionId engine) (messages : List WorkItem) :
    Staged history executionId (engine.prepCompletions messages) := by
  unfold ReplayEngine.prepCompletions
  induction messages generalizing engine with
  | nil => exact staged
  | cons message rest ih => exact ih (staged.prepCompletion message)

end Staged

/-- A completion that does not slip is staged only for a schedule that the history left open. -/
theorem Fresh.prepCompletion (fresh : Fresh engine) (caught : Caught engine.baselineHistory engine.executionId message) :
    Fresh (engine.prepCompletion message) := by
  rcases completion : message.completion with _ | ⟨executionId, kind, id⟩
  · rcases engine.prepCompletion_cases message with ⟨abortError, same⟩ | ⟨abortError, source, eventKind, converted, pushed⟩
    · rw [same]
      exact fresh
    · rw [pushed, Fresh, completions_pushEvent, completes_of_not_completion completion converted]
      intro staged member
      exact fresh staged (by simpa using member)
  · have prepares := @preparesCompletion engine _ _ _ _ completion
    generalize engine.prepCompletion message = result at prepares ⊢
    cases prepares with
    | ignored | persisted | duplicate => exact fresh
    | refused unscheduled error => exact fresh
    | staged own new first scheduled abortError eventKind completes isMessage =>
      intro staged member settled
      rw [completions_pushEvent, completes] at member
      rcases List.mem_append.mp member with old | now
      · exact fresh staged old settled
      · obtain rfl := Option.some.inj (Option.mem_toList.mp now)
        have known := @isCompletionAlreadyInHistory_of_settled engine _ _ _ _ completion settled (caught _ _ (own ▸ completion))
        rw [new] at known
        cases known

theorem Fresh.prepCompletions {history : List Event} (staged : Staged history executionId engine) (fresh : Fresh engine)
    {messages : List WorkItem} (caught : ∀ message ∈ messages, Caught history executionId message) :
    Fresh (engine.prepCompletions messages) := by
  unfold ReplayEngine.prepCompletions
  induction messages generalizing engine with
  | nil => exact fresh
  | cons message rest ih =>
    obtain ⟨own, others⟩ := List.forall_mem_cons.mp caught
    exact ih (staged.prepCompletion message) (fresh.prepCompletion (staged.baseline ▸ staged.execution ▸ own)) others

/-! ## Redelivery -/

/-- A completion of a settled schedule changes nothing, unless it slips. -/
theorem prepCompletion_of_settled {history : List Event} (staged : Staged history executionId engine)
    (settled : SettledOnce history) {completedExecution : Nat}
    (completion : message.completion = some (completedExecution, kind, id)) (known : (kind, id) ∈ completions history)
    (caught : Caught history executionId message) : engine.prepCompletion message = engine := by
  have prepares := @preparesCompletion engine _ _ _ _ completion
  generalize engine.prepCompletion message = result at prepares ⊢
  cases prepares with
  | ignored | persisted | duplicate => rfl
  | refused unscheduled error => exact absurd ((staged.scheduleKind id).trans (settled.scheduled _ known)) unscheduled
  | staged own new first scheduled abortError eventKind completes isMessage =>
    have persisted := isCompletionAlreadyInHistory_of_settled completion (staged.baseline.symm ▸ known)
      (staged.baseline.symm ▸ caught _ _ (own.trans staged.execution ▸ completion))
    rw [new] at persisted
    cases persisted

/-- A completion that the batch has staged already changes nothing. -/
theorem prepCompletion_of_staged {history : List Event} (staged : Staged history executionId engine)
    {completedExecution : Nat} (completion : message.completion = some (completedExecution, kind, id))
    (known : (kind, id) ∈ completions engine.historyDelta) : engine.prepCompletion message = engine := by
  have prepares := @preparesCompletion engine _ _ _ _ completion
  generalize engine.prepCompletion message = result at prepares ⊢
  cases prepares with
  | ignored | persisted | duplicate => rfl
  | refused unscheduled error => exact absurd ((staged.scheduleKind id).trans (staged.scheduled _ known)) unscheduled
  | staged own new first scheduled abortError eventKind completes isMessage => exact absurd known first

theorem isCompletionAlreadyInHistory_settled (completion : message.completion = some (executionId, kind, id))
    (persisted : engine.isCompletionAlreadyInHistory message = true) : (kind, id) ∈ completions engine.baselineHistory := by
  have widened : ∀ kindMatches : EventKind → Bool, (∀ eventKind, kindMatches eventKind → eventKind.completes = some kind) →
      hasSource engine.baselineHistory id kindMatches = true → (kind, id) ∈ completions engine.baselineHistory := by
    intro kindMatches completes found
    obtain ⟨event, member, facts⟩ := List.any_eq_true.mp found
    obtain ⟨source, own⟩ := Bool.and_eq_true_iff.mp facts
    refine hasSource_completes.mp (List.any_eq_true.mpr ⟨event, member, ?_⟩)
    change (event.sourceEventId == some id && event.kind.completes == some kind) = true
    rw [source, completes _ own]
    exact beq_self_eq_true _
  unfold isCompletionAlreadyInHistory at persisted
  cases message <;> cases completion <;> first
    | exact widened _ (fun eventKind own => by cases eventKind <;> first | rfl | cases own) persisted
    | cases persisted

/-- What a message stages stays staged. -/
theorem completions_prepCompletion (engine : ReplayEngine) (message : WorkItem) :
    completions engine.historyDelta ⊆ completions (engine.prepCompletion message).historyDelta := by
  rcases engine.prepCompletion_cases message with ⟨_, same⟩ | ⟨_, source, eventKind, _, pushed⟩
  · rw [same]
    exact List.Subset.refl _
  · rw [pushed, completions_pushEvent]
    exact List.subset_append_left _ _

theorem completions_prepCompletions (engine : ReplayEngine) (messages : List WorkItem) :
    completions engine.historyDelta ⊆ completions (engine.prepCompletions messages).historyDelta := by
  unfold prepCompletions
  induction messages generalizing engine with
  | nil => exact List.Subset.refl _
  | cons message rest ih => exact List.Subset.trans (completions_prepCompletion engine message) (ih _)

/-- A delivered completion of a schedule of the execution is in the history or staged. -/
theorem known_of_delivered {history : List Event} (staged : Staged history executionId engine) {messages : List WorkItem}
    (delivered : message ∈ messages) (completion : message.completion = some (executionId, kind, id))
    (scheduled : scheduleKindOf history id = some kind) :
    (kind, id) ∈ completions history ∨ (kind, id) ∈ completions (engine.prepCompletions messages).historyDelta := by
  unfold prepCompletions
  induction messages generalizing engine with
  | nil => exact absurd delivered List.not_mem_nil
  | cons first rest ih =>
    rcases List.mem_cons.mp delivered with rfl | later
    · have prepares := @preparesCompletion engine _ _ _ _ completion
      rw [List.foldl_cons]
      have kept := completions_prepCompletions (engine.prepCompletion message) rest
      unfold prepCompletions at kept
      generalize engine.prepCompletion message = result at prepares kept ⊢
      cases prepares with
      | ignored other => exact absurd staged.execution.symm other
      | persisted known => exact .inl (staged.baseline ▸ isCompletionAlreadyInHistory_settled completion known)
      | duplicate known => exact .inr (kept known)
      | refused unscheduled error => exact absurd ((staged.scheduleKind id).trans scheduled) unscheduled
      | staged own new first scheduled abortError eventKind completes isMessage =>
        refine .inr (kept ?_)
        rw [completions_pushEvent, completes]
        exact List.mem_append_right _ List.mem_cons_self
    · exact ih (staged.prepCompletion first) later

end ReplayEngine

/-- A completion that is delivered again: the history completes its schedule, or the batch held a completion of
this open schedule before. -/
def Redelivered (history : List Event) (before : List WorkItem) (message : WorkItem) : Prop :=
  ∃ executionId kind id, message.completion = some (executionId, kind, id) ∧
    ((kind, id) ∈ completions history ∨
      scheduleKindOf history id = some kind ∧ ∃ earlier ∈ before, earlier.completion = some (executionId, kind, id))

namespace ReplayEngine

variable {engine : ReplayEngine} {message : WorkItem} {executionId : Nat}

/-- A redelivered completion that does not slip prepares nothing. -/
theorem prepCompletions_of_redelivered {history : List Event} (staged : Staged history executionId engine)
    (settled : SettledOnce history) {before after : List WorkItem} (again : Redelivered history before message)
    (caught : Caught history executionId message) :
    engine.prepCompletions (before ++ message :: after) = engine.prepCompletions (before ++ after) := by
  have prepared := staged.prepCompletions before
  have unchanged : (engine.prepCompletions before).prepCompletion message = engine.prepCompletions before := by
    obtain ⟨completedExecution, kind, id, completion, known | ⟨scheduled, earlier, delivered, same⟩⟩ := again
    · exact prepCompletion_of_settled prepared settled completion known caught
    · by_cases own : completedExecution = executionId
      · subst own
        rcases known_of_delivered staged delivered same scheduled with known | known
        · exact prepCompletion_of_settled prepared settled completion known caught
        · exact prepCompletion_of_staged prepared completion known
      · unfold prepCompletion
        rw [isCompletionForCurrentExecution_of_completion completion, prepared.execution, beq_false_of_ne own]
        rfl
  unfold prepCompletions at unchanged ⊢
  rw [List.foldl_append, List.foldl_cons, unchanged, ← List.foldl_append]

theorem completion_of_actionToEvent {stamp : Stamp} {action : Action} {instanceId : String} {executionId eventId : Nat}
    {event : Event} (converted : actionToEvent stamp action instanceId executionId eventId = some event) :
    event.completion = none := by
  cases action <;> cases converted <;> rfl

/-- After the batch is prepared, an engine completes nothing more. -/
theorem Recorded.completions {result : ReplayEngine} (recorded : Recorded engine result) :
    Duroxide.completions result.historyDelta = Duroxide.completions engine.historyDelta := by
  induction recorded with
  | refl => rfl
  | tail _ records ih =>
    rw [← ih]
    cases records with
    | action ctx emitted =>
      refine (completions_append _ _).trans (List.append_right_eq_self.mpr ?_)
      exact List.filterMap_eq_nil_iff.mpr fun event member => completion_of_actionToEvent (Option.mem_toList.mp member)
    | breadcrumb id kind isBreadcrumb =>
      rw [completions_pushEvent]
      cases kind <;> first | exact List.append_nil _ | cases isBreadcrumb
    | cancelled activities children => rfl

end ReplayEngine

/-! ## Turns -/

namespace Completions

open Dispatcher DuplicateStarts

variable {semver : Semver} {env : RuntimeEnv semver} {item : OrchestrationItem} {attemptCount : Nat}
  {outcome : ExecutionOutcome} {result : TurnResult} {engine : ReplayEngine} {manager : HistoryManager}
  {ending : List Event} {request : AckRequest semver} {fallback : Option (ProviderError → AckRequest semver)}

theorem reads_completion : ReadsInner Event.completion where
  outer event outer := by
    obtain ⟨eventId, source, instanceId, executionId, timestamp, crate, kind⟩ := event
    cases kind <;> first | rfl | cases outer
  breadcrumb event breadcrumb := by
    obtain ⟨eventId, source, instanceId, executionId, timestamp, crate, kind⟩ := event
    cases kind <;> first | rfl | cases breadcrumb

/-- The start event of an execution lets nothing slip. -/
theorem slips_opening {opening : List Event} (opens : Opening env item opening) (history : List Event)
    (message : WorkItem) : slips (history ++ opening) message = slips history message := by
  cases opens with
  | continues | unnamed => rw [List.append_nil]
  | opens new named version =>
    have same : ∀ id kindMatches, kindMatches (startedEvent env.stamp item.instanceId (turnExecution item).1
        (workitemReader item) (semver.render version)).kind = false →
        ReplayEngine.hasSource (history ++ [startedEvent env.stamp item.instanceId (turnExecution item).1
          (workitemReader item) (semver.render version)]) id kindMatches =
          ReplayEngine.hasSource history id kindMatches := by
      intro id kindMatches other
      simp only [ReplayEngine.hasSource, List.any_append, List.any_cons, List.any_nil, other, Bool.and_false,
        Bool.or_false]
    unfold slips
    cases message <;> first | rfl | exact same _ _ rfl

theorem plain_opening {opening : List Event} (opens : Opening env item opening) :
    ∀ event ∈ opening, event.kind.isStarted || event.kind.isMessage := by
  intro event member
  cases opens with
  | continues | unnamed => exact absurd member List.not_mem_nil
  | opens => exact List.mem_singleton.mp member ▸ rfl

/-- The events that open a turn settle nothing. -/
theorem SettledOnce.opened (settled : SettledOnce (baseHistory item (turnExecution item).1))
    (opens : Opening env item manager.delta) (history : manager.history = baseHistory item (turnExecution item).1) :
    SettledOnce manager.fullHistory := by
  rw [HistoryManager.fullHistory, history]
  exact settled.append_of_nil (reads_completion.of_opening opens)

/-- The engine of a turn is staged over the history of its execution with what opened it. -/
theorem staged_seeded (env : RuntimeEnv semver) (item : OrchestrationItem) (manager : HistoryManager) :
    ReplayEngine.Staged manager.fullHistory (turnExecution item).1
      (((ReplayEngine.new env.stamp item.instanceId (turnExecution item).1 manager.fullHistory).withPersistedHistoryLen
        manager.originalLen).withKvSnapshot item.kvSnapshot) where
  baseline := rfl
  execution := rfl
  messages _ none := absurd none List.not_mem_nil
  once := List.nodup_nil
  scheduled _ none := absurd none List.not_mem_nil

theorem messages_preparedEngine (env : RuntimeEnv semver) (item : OrchestrationItem) (manager : HistoryManager) :
    ∀ event ∈ (preparedEngine env item manager).historyDelta, event.kind.isMessage :=
  ((staged_seeded env item manager).prepCompletions (workitemReader item).completionMessages).messages

/-- The events that a turn prepares from its batch are no breadcrumbs. -/
theorem silent_preparedEngine (env : RuntimeEnv semver) (item : OrchestrationItem) (manager : HistoryManager) :
    ∀ event ∈ (preparedEngine env item manager).historyDelta, event.kind.isBreadcrumb = false :=
  fun event member => EventKind.isBreadcrumb_of_isMessage (messages_preparedEngine env item manager event member)

/-- The completions that a turn reads are messages of its batch: the carried messages complete nothing. -/
theorem mem_messages_of_completion {message : WorkItem} (member : message ∈ (workitemReader item).completionMessages)
    (completes : message.completion.isSome) : message ∈ item.messages := by
  have parsed := VersionPinning.parsed_workitemReader item
  generalize workitemReader item = reader at parsed member
  cases parsed with
  | start | neither => exact (List.mem_filter.mp member).1
  | continueAsNew =>
    rcases List.mem_append.mp member with carried | own
    · obtain ⟨_, _, rfl⟩ := List.mem_map.mp carried
      cases completes
    · exact (List.mem_filter.mp own).1

/-- What the batch of a turn may complete, its own messages do. -/
theorem caught_completionMessages {history : List Event} {executionId : Nat}
    (caught : ∀ message ∈ item.messages, Caught history executionId message) :
    ∀ message ∈ (workitemReader item).completionMessages, Caught history executionId message :=
  fun message member kind id completion =>
    caught message (mem_messages_of_completion member (completion ▸ rfl)) kind id completion

/-- A turn whose messages do not slip settles each schedule once. -/
theorem settled_of_turned (turned : Turned env item result engine outcome manager ending)
    (settled : SettledOnce (baseHistory item (turnExecution item).1))
    (caught : ∀ message ∈ item.messages,
      Caught (baseHistory item (turnExecution item).1) (turnExecution item).1 message) :
    SettledOnce (baseHistory item (turnExecution item).1 ++ (turnRequest env item outcome).historyDelta) := by
  have opened := SettledOnce.opened settled turned.opens turned.history
  have base : manager.fullHistory = baseHistory item (turnExecution item).1 ++ manager.delta := by
    rw [HistoryManager.fullHistory, turned.history]
  have known : completions manager.fullHistory = completions (baseHistory item (turnExecution item).1) := by
    rw [base, completions_append]
    exact List.append_right_eq_self.mpr (reads_completion.of_opening turned.opens)
  have staged := (staged_seeded env item manager).prepCompletions (workitemReader item).completionMessages
  have caught : ∀ message ∈ (workitemReader item).completionMessages,
      Caught manager.fullHistory (turnExecution item).1 message :=
    caught_completionMessages fun message member kind id completion => by
      rw [base, slips_opening turned.opens]
      exact caught message member kind id completion
  have fresh := ReplayEngine.Fresh.prepCompletions (staged_seeded env item manager)
    (fun _ none => absurd none List.not_mem_nil) caught
  have delta : completions (turnRequest env item outcome).historyDelta =
      completions (preparedEngine env item manager).historyDelta :=
    (reads_completion.turned turned).trans (ReplayEngine.Recorded.completions turned.recorded)
  refine settled.append ?_ ?_ ?_
  · rw [AtMostOnce, delta]
    exact staged.once
  · intro added member
    rw [← scheduleKindOf_append_of_plain _ (plain_opening turned.opens), ← base]
    exact staged.scheduled added (delta ▸ member)
  · intro added member
    rw [← known, ← show (preparedEngine env item manager).baselineHistory = manager.fullHistory from staged.baseline]
    exact fresh added (delta ▸ member)

/-! ## Turns over redelivered completions -/

variable {before after : List WorkItem} {message : WorkItem}

/-- A completion message is read after the carried messages, in its place in the batch. -/
theorem reader_of_completion (batch : item.messages = before ++ message :: after) (completes : message.completion.isSome) :
    ∃ carried rest, (workitemReader (withMessages item (before ++ after))).completionMessages = carried ++ rest ∧
      workitemReader item = { workitemReader (withMessages item (before ++ after)) with
        completionMessages := carried ++ message :: rest } ∧
      ∀ earlier ∈ before, earlier.completion.isSome → earlier ∈ carried := by
  have kept : ∀ other : WorkItem, other.completion.isSome → other.isStart = false ∧
      WorkItemReader.isCompletionMessage other = true := by
    intro other completes
    cases other <;> first | exact ⟨rfl, rfl⟩ | cases completes
  obtain ⟨notStart, isCompletion⟩ := kept message completes
  have first : (before ++ message :: after).find? (·.isStart) = (before ++ after).find? (·.isStart) := by
    rw [List.find?_append, List.find?_append, List.find?_cons_of_neg (by simp [notStart])]
  have filtered : (before ++ message :: after).filter WorkItemReader.isCompletionMessage =
      before.filter WorkItemReader.isCompletionMessage ++ message :: after.filter WorkItemReader.isCompletionMessage := by
    rw [List.filter_append, List.filter_cons_of_pos isCompletion]
  have earlier : ∀ earlier ∈ before, earlier.completion.isSome → earlier ∈ before.filter WorkItemReader.isCompletionMessage :=
    fun other member completes => List.mem_filter.mpr ⟨member, (kept other completes).2⟩
  unfold workitemReader WorkItemReader.fromMessages
  simp only [withMessages, tempHistoryMgr, batch, first, filtered, List.filter_append]
  generalize (before ++ after).find? (·.isStart) = start
  rcases start with _ | item
  · exact ⟨_, _, rfl, rfl, earlier⟩
  · cases item with
    | continueAsNew target orchestration input version carriedEvents status =>
      refine ⟨_ ++ _, _, (List.append_assoc _ _ _).symm, ?_, fun other member completes =>
        List.mem_append_right _ (earlier other member completes)⟩
      rw [List.append_assoc]
    | _ => exact ⟨_, _, rfl, rfl, earlier⟩

/-- Runs of one execution whose batches prepare the same engine are the same. -/
theorem runSingleExecutionAtomic_congr {reader other : WorkItemReader} {handler : OrchestrationHandler} {version : String}
    {instanceId : String} {executionId : Nat} {kvSnapshot : AList (fun _ : String => KvEntry)}
    (named : reader.orchestrationName = other.orchestrationName)
    (prepared : Execution.prepareTurn env.stamp instanceId executionId manager reader kvSnapshot =
      Execution.prepareTurn env.stamp instanceId executionId manager other kvSnapshot) :
    Execution.runSingleExecutionAtomic env.stamp env.executionIds instanceId manager reader executionId handler version
        kvSnapshot =
      Execution.runSingleExecutionAtomic env.stamp env.executionIds instanceId manager other executionId handler version
        kvSnapshot := by
  unfold Execution.runSingleExecutionAtomic
  rw [prepared, named]

section Without

variable {carried rest : List WorkItem} {without : WorkItemReader}

/-- A turn is prepared without a completion that is delivered again. -/
theorem prepareTurn_of_redelivered (settled : SettledOnce (baseHistory item (turnExecution item).1))
    (others : without.completionMessages = carried ++ rest)
    (reads : workitemReader item = { without with completionMessages := carried ++ message :: rest })
    (redelivered : Redelivered (baseHistory item (turnExecution item).1) carried message)
    (caught : Caught (baseHistory item (turnExecution item).1) (turnExecution item).1 message) {manager : HistoryManager}
    (opens : Opening env item manager.delta) (history : manager.history = baseHistory item (turnExecution item).1) :
    Execution.prepareTurn env.stamp item.instanceId (turnExecution item).1 manager (workitemReader item) item.kvSnapshot =
      Execution.prepareTurn env.stamp item.instanceId (turnExecution item).1 manager without item.kvSnapshot := by
  have full : manager.fullHistory = baseHistory item (turnExecution item).1 ++ manager.delta := by
    rw [HistoryManager.fullHistory, history]
  have again : Redelivered manager.fullHistory carried message := by
    obtain ⟨executionId, kind, id, completion, known | ⟨scheduled, delivered⟩⟩ := redelivered
    · refine ⟨executionId, kind, id, completion, .inl ?_⟩
      rw [full, completions_append]
      exact List.mem_append_left _ known
    · exact ⟨executionId, kind, id, completion, .inr ⟨full ▸ scheduleKindOf_append scheduled _, delivered⟩⟩
  have unchanged := @ReplayEngine.prepCompletions_of_redelivered _ _ _ _ (staged_seeded env item manager)
    (SettledOnce.opened settled opens history) _ rest again fun kind id completion => by
      rw [full, slips_opening opens]
      exact caught kind id completion
  rw [Execution.prepareTurn, Execution.prepareTurn, reads, others]
  exact unchanged

/-- A turn runs without a completion that is delivered again. -/
theorem execute_of_redelivered (settled : SettledOnce (baseHistory item (turnExecution item).1))
    (others : without.completionMessages = carried ++ rest)
    (reads : workitemReader item = { without with completionMessages := carried ++ message :: rest })
    (redelivered : Redelivered (baseHistory item (turnExecution item).1) carried message)
    (caught : Caught (baseHistory item (turnExecution item).1) (turnExecution item).1 message)
    (named : (workitemReader item).hasOrchestrationName) :
    resolveAndExecuteOrchestrationHandler env item.instanceId (turnExecution item).2 (workitemReader item)
        (turnExecution item).1 item.kvSnapshot =
      resolveAndExecuteOrchestrationHandler env item.instanceId (turnExecution item).2 without (turnExecution item).1
        item.kvSnapshot := by
  have resolved : resolveTurnHandler env.registry (workitemReader item).orchestrationName (workitemReader item).version =
      resolveTurnHandler env.registry without.orchestrationName without.version := by
    rw [reads]
  unfold resolveAndExecuteOrchestrationHandler
  rw [← resolved]
  refine Option.map_congr fun found _ => ?_
  obtain ⟨version, handler⟩ := found
  obtain ⟨opening, opens, started⟩ := startIfNew_extends env item named version
  have opened : startIfNew env.stamp item.instanceId (turnExecution item).1 without (semver.render version)
        (turnExecution item).2 =
      startIfNew env.stamp item.instanceId (turnExecution item).1 (workitemReader item) (semver.render version)
        (turnExecution item).2 := by
    rw [reads]
    rfl
  have base : (turnExecution item).2.history = baseHistory item (turnExecution item).1 := by
    rw [← turnExecution_fullHistory, HistoryManager.fullHistory, turnExecution_delta, List.append_nil]
  dsimp only
  rw [opened]
  refine runSingleExecutionAtomic_congr (by rw [reads])
    (prepareTurn_of_redelivered settled others reads redelivered caught ?_ (started.history.trans base))
  rwa [started.delta, turnExecution_delta, List.nil_append]

end Without

/-- A redelivered completion that does not slip changes nothing about a turn. -/
theorem executeTurn_of_redelivered (settled : SettledOnce (baseHistory item (turnExecution item).1))
    (batch : item.messages = before ++ message :: after)
    (again : Redelivered (baseHistory item (turnExecution item).1) before message)
    (caught : Caught (baseHistory item (turnExecution item).1) (turnExecution item).1 message) :
    executeTurn env item attemptCount = executeTurn env (withMessages item (before ++ after)) attemptCount := by
  have completes : message.completion.isSome := by
    obtain ⟨executionId, kind, id, completion, _⟩ := again
    rw [completion]
    rfl
  obtain ⟨carried, rest, others, reads, earlier⟩ := reader_of_completion batch completes
  have sameExecution : turnExecution item = turnExecution (withMessages item (before ++ after)) := by
    unfold turnExecution
    rw [reads]
    rfl
  have redelivered : Redelivered (baseHistory item (turnExecution item).1) carried message := by
    obtain ⟨executionId, kind, id, completion, known | ⟨scheduled, other, member, same⟩⟩ := again
    · exact ⟨executionId, kind, id, completion, .inl known⟩
    · exact ⟨executionId, kind, id, completion, .inr ⟨scheduled, other, earlier other member (same ▸ rfl), same⟩⟩
  have named : (workitemReader item).hasOrchestrationName =
      (workitemReader (withMessages item (before ++ after))).hasOrchestrationName := by
    rw [reads]
    rfl
  unfold executeTurn
  rw [← sameExecution]
  dsimp only
  rw [← named]
  split_ifs with names
  · rw [execute_of_redelivered settled others reads redelivered caught names]
    rfl
  · rfl

/-! ## Runs of turns -/

/-- An answer to an item that was read with the present history. The acknowledgement may have failed, in which
case what it falls back to is committed. -/
structure Turn (semver : Semver) where
  env : RuntimeEnv semver
  item : OrchestrationItem
  attemptCount : Nat
  failed : Option ProviderError := none

namespace Turn

/-- What a turn commits. -/
def committed (turn : Turn semver) : Option (AckRequest semver) :=
  match handleFetchedItem turn.env turn.item turn.attemptCount, turn.failed with
  | .ack request _, none => some request
  | .ack _ fallback, some error => fallback.map (· error)
  | .abandon .., _ => none

/-- The history of the execution that a turn committed to. -/
def step (history : List Event) (turn : Turn semver) : Option (List Event) :=
  if turn.item.history = history ∧ turn.item.historyError = none then
    turn.committed.map fun request => baseHistory turn.item request.executionId ++ request.historyDelta
  else none

/-- The messages of a turn that is committed do not slip. -/
def guard (_ : List Event) (turn : Turn semver) : Prop :=
  turn.failed = none → (executedOutcome turn.env turn.item turn.attemptCount).isSome →
    ∀ message ∈ turn.item.messages,
      Caught (baseHistory turn.item (turnExecution turn.item).1) (turnExecution turn.item).1 message

/-- What a turn commits is how the dispatcher answers its item, or the failure of a turn that could not be
acknowledged. -/
inductive Committed (turn : Turn semver) : AckRequest semver → Prop
  | answered (request : AckRequest semver) (fallback : Option (ProviderError → AckRequest semver))
      (acknowledged : turn.failed = none) (answered : Answered turn.env turn.item turn.attemptCount request fallback) :
      Committed turn request
  | failed (error : ProviderError) (refused : turn.failed = some error) (inTime : turn.attemptCount ≤ turn.env.maxAttempts)
      (running : isTerminalFor (tempHistoryMgr turn.item) (workitemReader turn.item) = false) (outcome : ExecutionOutcome)
      (ran : turnOutcome turn.env turn.item = some outcome) :
      Committed turn (failureCommit turn.env turn.item (turnExecution turn.item).1 error)

theorem step_spec {history next : List Event} {turn : Turn semver} (taken : turn.step history = some next) :
    ∃ request, turn.committed = some request ∧ turn.item.history = history ∧ turn.item.historyError = none ∧
      next = baseHistory turn.item request.executionId ++ request.historyDelta ∧ isSupported turn.env turn.item ∧
      turn.Committed request := by
  unfold step at taken
  split_ifs at taken with read
  obtain ⟨request, commits, rfl⟩ := Option.map_eq_some_iff.mp taken
  refine ⟨request, commits, read.1, read.2, rfl, ?_⟩
  unfold committed at commits
  rcases decided : handleFetchedItem turn.env turn.item turn.attemptCount with _ | ⟨original, fallback⟩ <;>
    rw [decided] at commits
  · cases commits
  obtain ⟨supported, answered⟩ := answered_of_decided decided
  refine ⟨supported, ?_⟩
  rcases failed : turn.failed with _ | error <;> rw [failed] at commits
  · obtain rfl := Option.some.inj commits
    exact .answered original fallback failed answered
  · obtain ⟨commit, given, rfl⟩ := Option.map_eq_some_iff.mp commits
    cases answered with
    | corrupted | poisoned | ended => cases given
    | turned inTime readable running outcome ran =>
      cases given
      exact .failed error failed inTime running outcome ran

end Turn

/-- Turn after turn, over any batches; a turn may continue as new, and then the next execution's history follows. -/
def turns (semver : Semver) : Lib.TransitionSystem (List Event) (Turn semver) where
  initial := SettledOnce
  step history turn after := turn.step history = some after

theorem SettledOnce.baseHistory {history : List Event} (settled : SettledOnce history) (same : item.history = history)
    (executionId : Nat) : SettledOnce (Dispatcher.baseHistory item executionId) := by
  unfold Dispatcher.baseHistory
  split_ifs
  · rwa [same]
  · exact .nil

theorem completions_appendFailed (stamp : Stamp) (details : ErrorDetails) (quiet : completions manager.delta = []) :
    completions (manager.appendFailed stamp details).delta = [] := by
  rw [(HistoryManager.extends_appendFailed stamp details).delta, completions_append, quiet]
  rfl

theorem completions_failOrchestrationAsPoison (env : RuntimeEnv semver) (item : OrchestrationItem) (attemptCount : Nat) :
    completions (failOrchestrationAsPoison env item attemptCount).historyDelta = [] := by
  unfold failOrchestrationAsPoison
  split
  · rfl
  · refine completions_appendFailed _ _ ?_
    obtain ⟨opening, extended, opens⟩ := poisonManager_extends env item
    rw [extended.delta, HistoryManager.fromHistory_delta, List.nil_append]
    rcases opens with ⟨_, rfl⟩ | ⟨_, started, rfl, begins⟩
    · rfl
    · have opened : started.kind.isInner = false := by
        rw [begins.kind]
        rfl
      exact List.filterMap_eq_nil_iff.mpr fun event member =>
        List.mem_singleton.mp member ▸ reads_completion.outer _ opened

/-- A turn that an item takes, and that runs a handler, has an outcome. -/
theorem executedOutcome_isSome (supported : isSupported env item) (inTime : attemptCount ≤ env.maxAttempts)
    (readable : item.historyError = none) (running : isTerminalFor (tempHistoryMgr item) (workitemReader item) = false)
    (executed : turnExecuted env item = some (result, engine)) (ran : turnOutcome env item = some outcome) :
    (executedOutcome env item attemptCount).isSome := by
  have named : (workitemReader item).hasOrchestrationName = true := by
    unfold turnExecuted at executed
    split_ifs at executed with named
    exact named
  have takes : (pinnedVersion semver item.history).all env.supportedRange.contains = true := supported
  rw [turnOutcome, if_pos named] at ran
  rw [executedOutcome, takes, readable, running, named, ran]
  simp [inTime]

/-- A turn whose messages do not slip leaves every schedule settled at most once. -/
theorem settledOnce_step {history next : List Event} {turn : Turn semver} (settled : SettledOnce history)
    (allowed : turn.guard history) (taken : turn.step history = some next) : SettledOnce next := by
  obtain ⟨request, _, same, readable, rfl, supported, committed⟩ := Turn.step_spec taken
  have base := SettledOnce.baseHistory settled same
  cases committed with
  | answered _ fallback acknowledged answered =>
    cases answered with
    | corrupted exceeded message unreadable =>
      rw [readable] at unreadable
      cases unreadable
    | poisoned exceeded => exact (base _).append_of_nil (completions_failOrchestrationAsPoison ..)
    | ended => exact (base _).append_of_nil rfl
    | turned inTime _ running outcome ran =>
      rcases executed : turnExecuted turn.env turn.item with _ | ⟨result, engine⟩
      · refine (base _).append_of_nil ((reads_completion.turnRequest ..).trans ?_)
        rw [outcome_of_unexecuted executed ran, turnExecution_delta]
        rfl
      · obtain ⟨manager, ending, turned⟩ := turned_of_executed executed ran
        exact settled_of_turned turned (base _)
          (allowed acknowledged (executedOutcome_isSome supported inTime readable running executed ran))
  | failed error refused inTime running outcome ran =>
    exact (base _).append_of_nil (completions_appendFailed _ _ (by rw [HistoryManager.fromHistory_delta]; rfl))

/-- While no completion slips, no schedule is completed twice, and a completion that is delivered again changes
nothing about its turn. -/
theorem idempotent_of_guarded {history : List Event} (reached : (turns semver).Reachable Turn.guard history) :
    AtMostOnce history ∧ ∀ (env : RuntimeEnv semver) (item : OrchestrationItem) (attemptCount : Nat)
      (before after : List WorkItem) (message : WorkItem), item.history = history →
      item.messages = before ++ message :: after →
      Redelivered (baseHistory item (turnExecution item).1) before message →
      Caught (baseHistory item (turnExecution item).1) (turnExecution item).1 message →
      executeTurn env item attemptCount = executeTurn env (withMessages item (before ++ after)) attemptCount := by
  have settled : SettledOnce history := reached.invariant (fun _ start => start) fun _ _ _ settled => settledOnce_step settled
  refine ⟨settled.once, fun env item attemptCount before after message same batch again caught => ?_⟩
  exact executeTurn_of_redelivered (SettledOnce.baseHistory settled same _) batch again caught

/-! An orchestration that waits for an activity, whose outcome is delivered twice. -/

/-- The turn that a batch brings about over a history. -/
def turnOver (history : List Event) (messages : List WorkItem) : Turn textSemver where
  env := TerminalEvents.activityEnv
  item :=
    { instanceId := "i", orchestrationName := "orch", executionId := 1, version := "1.0.0", history, messages
      historyError := none, kvSnapshot := ∅ }
  attemptCount := 1

/-- Deliver one batch after the other, as long as they pass a test. -/
def delivered (test : List Event → WorkItem → Bool) (history : List Event) : List (List WorkItem) → Option (List Event)
  | [] => some history
  | messages :: rest =>
      if messages.all (test (baseHistory (turnOver history messages).item (turnExecution (turnOver history messages).item).1))
      then ((turnOver history messages).step history).bind (delivered test · rest)
      else none

def startBatch : List WorkItem := [.startOrchestration "i" "orch" "wait" none none none 1]

theorem reachable_of_delivered {batches : List (List WorkItem)} {history last : List Event}
    (reached : (turns textSemver).Reachable Turn.guard history)
    (ran : delivered (fun history message => !slips history message) history batches = some last) :
    (turns textSemver).Reachable Turn.guard last := by
  induction batches generalizing history with
  | nil =>
    cases ran
    exact reached
  | cons messages rest ih =>
    unfold delivered at ran
    split_ifs at ran with caught
    obtain ⟨next, taken, later⟩ := Option.bind_eq_some_iff.mp ran
    refine ih (.step reached (fun _ _ message member kind id _ => ?_) taken) later
    simpa using List.all_eq_true.mp caught message member

theorem idempotent_of_guarded_completedTwice : ∃ history,
    delivered (fun history message => !slips history message) []
      [startBatch, [.activityCompleted "i" 1 2 "done"], [.activityCompleted "i" 1 2 "done"]] = some history ∧
    completions history = [("activity", 2)] ∧ AtMostOnce history := by
  have observed : (delivered (fun history message => !slips history message) []
      [startBatch, [.activityCompleted "i" 1 2 "done"], [.activityCompleted "i" 1 2 "done"]]).any
        (completions · == [("activity", 2)]) = true := by
    decide +kernel
  obtain ⟨history, ran, settled⟩ := (Option.any_eq_true _ _).mp observed
  exact ⟨history, ran, eq_of_beq settled, (idempotent_of_guarded (reachable_of_delivered (.initial .nil) ran)).1⟩

/-- A failed activity that is delivered again completes its schedule again. -/
theorem failedTwice_notAtMostOnce : ∃ history,
    delivered (fun _ _ => true) []
      [startBatch, [.activityFailed "i" 1 2 (.application .activityFailed "broken" false)],
        [.activityFailed "i" 1 2 (.application .activityFailed "broken" false)]] = some history ∧
    ¬ AtMostOnce history := by
  have observed : (delivered (fun _ _ => true) []
      [startBatch, [.activityFailed "i" 1 2 (.application .activityFailed "broken" false)],
        [.activityFailed "i" 1 2 (.application .activityFailed "broken" false)]]).any
          (completions · == [("activity", 2), ("activity", 2)]) = true := by
    decide +kernel
  obtain ⟨history, ran, settled⟩ := (Option.any_eq_true _ _).mp observed
  refine ⟨history, ran, fun once => ?_⟩
  rw [AtMostOnce, eq_of_beq settled] at once
  exact absurd once (by decide)

end Completions

end Duroxide
