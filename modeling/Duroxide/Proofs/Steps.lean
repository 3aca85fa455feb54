import Duroxide.Model.System
import Duroxide.Proofs.ProviderCalls

/-! # What a step of the system can do

`Effect` lists the effects of the steps, each with what the step has found. A call that reports an
error leaves the tables alone.
-/

namespace Duroxide

open Provider

variable {semver : Semver}

/-- The effect of a step, by its label. -/
inductive Effect (world : World semver) : Step semver → World semver → Prop
  | enqueued (now : Nat) (item : WorkItem) (isClientItem : item.isClientItem) :
      Effect world (.client now item) { world with store := world.store.insertOrchestratorRow item now }
  | fetchedNothing (config : ProviderConfig) (filter : Option (List (SemverRange semver)))
      (now lockTimeoutMs token : Nat) (fault : Fault) :
      Effect world (.fetch config filter now lockTimeoutMs token fault) world
  | fetched (config : ProviderConfig) (filter : Option (List (SemverRange semver))) (now lockTimeoutMs token : Nat)
      (fault : Fault) (fresh : world.isFresh token) (item : OrchestrationItem) (attemptCount : Nat)
      (candidate : Candidate world.store now (rangeOf filter) item.instanceId)
      (found : Fetched (lockedStore world.store now lockTimeoutMs token item.instanceId) token item attemptCount) :
      Effect world (.fetch config filter now lockTimeoutMs token fault)
        ({ world with store := lockedStore world.store now lockTimeoutMs token item.instanceId }.setDelivery token
          { item, attemptCount })
  | dropped (config : ProviderConfig) (filter : Option (List (SemverRange semver))) (now lockTimeoutMs token : Nat)
      (fault : Fault) (fresh : world.isFresh token) (instanceId : String)
      (candidate : Candidate world.store now (rangeOf filter) instanceId)
      (noRow : world.store.instances instanceId = none)
      (orphans : ∀ row ∈ (lockedStore world.store now lockTimeoutMs token instanceId).batch token,
        ∀ item ∈ row.decoded, isQueueMessage item) :
      Effect world (.fetch config filter now lockTimeoutMs token fault)
        { world with
          store := ((lockedStore world.store now lockTimeoutMs token instanceId).deleteBatch token).deleteLocks
            fun _ lock => lock.lockToken == token }
  | decided (token : Nat) (env : RuntimeEnv semver) (delivery : Delivery semver)
      (holds : world.deliveries token = some delivery) (phase : delivery.phase = .fetched) :
      Effect world (.decide token env) (world.setPhase token delivery
        (Dispatcher.handleFetchedItem env delivery.item delivery.attemptCount).phase)
  | ackFailed (config : ProviderConfig) (now token : Nat) (fault : Fault) (delivery : Delivery semver)
      (request : AckRequest semver) (fallback : Option (ProviderError → AckRequest semver))
      (failed : Option ProviderError) (holds : world.deliveries token = some delivery)
      (phase : delivery.phase = .acking request fallback failed) (error : ProviderError) :
      Effect world (.ack config now token fault) (world.setPhase token delivery (.acking request fallback (some error)))
  | acked (config : ProviderConfig) (now token : Nat) (fault : Fault) (delivery : Delivery semver)
      (request : AckRequest semver) (fallback : Option (ProviderError → AckRequest semver))
      (failed : Option ProviderError) (holds : world.deliveries token = some delivery)
      (phase : delivery.phase = .acking request fallback failed) (instanceId : String) (after : Store)
      (committed : Acked world.store now token instanceId request after) :
      Effect world (.ack config now token fault) ({ world with store := after }.setPhase token delivery .done)
  | turnFailed (token : Nat) (delivery : Delivery semver) (request : AckRequest semver)
      (fallback : ProviderError → AckRequest semver) (error : ProviderError)
      (holds : world.deliveries token = some delivery)
      (phase : delivery.phase = .acking request (some fallback) (some error)) :
      Effect world (.failTurn token) (world.setPhase token delivery (.acking (fallback error) none none))
  | abandonFailed (now token : Nat) (delivery : Delivery semver) (delayMs : Option Nat) (ignoreAttempt : Bool)
      (holds : world.deliveries token = some delivery) (phase : delivery.phase = .abandoning delayMs ignoreAttempt) :
      Effect world (.abandon now token) (world.setPhase token delivery .done)
  | abandoned (now token : Nat) (delivery : Delivery semver) (delayMs : Option Nat) (ignoreAttempt : Bool)
      (holds : world.deliveries token = some delivery) (phase : delivery.phase = .abandoning delayMs ignoreAttempt)
      (store : Store) (released : abandonOrchestrationItem world.store now token delayMs ignoreAttempt = .ok store) :
      Effect world (.abandon now token) ({ world with store }.setPhase token delivery .done)
  | renewFailed (now token extendMs : Nat) : Effect world (.renew now token extendMs) world
  | renewed (now token extendMs : Nat) (store : Store)
      (extended : renewOrchestrationItemLock world.store now token extendMs = .ok store) :
      Effect world (.renew now token extendMs) { world with store }
  | workFetched (now lockTimeoutMs token : Nat) (session : Option SessionFetchConfig) (filter : TagFilter)
      (fresh : world.isFresh token) (workItem : WorkItem) (attemptCount : Nat) (store : Store)
      (found : fetchWorkItem world.store now lockTimeoutMs token session filter = some ((workItem, attemptCount), store)) :
      Effect world (.fetchWork now lockTimeoutMs token session filter)
        ({ world with store }.setWork token { workItem, attemptCount })
  | workRenewed (now token extendMs : Nat) (held : WorkDelivery) (holds : world.work token = some held) (store : Store)
      (extended : renewWorkItemLock world.store now token extendMs = .ok store) :
      Effect world (.renewWork now token extendMs none) { world with store }
  | workCancelled (now token extendMs : Nat) (error : Option ProviderError) (held : WorkDelivery)
      (holds : world.work token = some held)
      (lost : error.isSome ∨ ∃ error, renewWorkItemLock world.store now token extendMs = .error error) :
      Effect world (.renewWork now token extendMs error) (world.setWork token { held with cancelled := true })
  | workAckFailed (now token maxAttempts : Nat) (outcome : Except String String) :
      Effect world (.completeWork now token maxAttempts outcome) world
  | workCompleted (now token maxAttempts : Nat) (outcome : Except String String) (held : WorkDelivery)
      (holds : world.work token = some held) (completion : WorkItem)
      (reported : activityCompletion maxAttempts (fun _ => "") held outcome = some completion) (store : Store)
      (acked : ackWorkItem world.store now token (some completion) = .ok store) :
      Effect world (.completeWork now token maxAttempts outcome) { world with store }
  | workDropFailed (now token : Nat) : Effect world (.dropWork now token) world
  | workDropped (now token : Nat) (held : WorkDelivery) (holds : world.work token = some held)
      (cancelled : held.cancelled) (store : Store) (acked : ackWorkItem world.store now token none = .ok store) :
      Effect world (.dropWork now token) { world with store }
  | workAbandonFailed (now token : Nat) (delayMs : Option Nat) (ignoreAttempt : Bool) :
      Effect world (.abandonWork now token delayMs ignoreAttempt) world
  | workAbandoned (now token : Nat) (delayMs : Option Nat) (ignoreAttempt : Bool) (store : Store)
      (released : abandonWorkItem world.store now token delayMs ignoreAttempt = .ok store) :
      Effect world (.abandonWork now token delayMs ignoreAttempt) { world with store }

namespace World

variable {world after : World semver}

theorem client_effect {now : Nat} {item : WorkItem} (taken : world.client now item = some after) :
    Effect world (.client now item) after := by
  unfold client at taken
  split_ifs at taken with isClientItem
  have queued : enqueueForOrchestrator world.store now item none =
      .ok (world.store.insertOrchestratorRow item now) := by
    unfold enqueueForOrchestrator
    rw [if_neg]
    · rfl
    · cases item <;> simp_all [WorkItem.isClientItem, isActivityExecute]
  rw [queued] at taken
  cases taken
  exact .enqueued now item isClientItem

theorem fetch_effect {config : ProviderConfig} {filter : Option (List (SemverRange semver))}
    {now lockTimeoutMs token : Nat} {fault : Fault}
    (taken : world.fetch config filter now lockTimeoutMs token fault = some after) :
    Effect world (.fetch config filter now lockTimeoutMs token fault) after := by
  unfold fetch at taken
  split_ifs at taken with fresh
  have outcome := fetchOrchestrationItem_outcome config filter world.store now lockTimeoutMs token fault
  generalize fetchOrchestrationItem config filter now lockTimeoutMs token (Lib.Database.Conn.open world.store fault) =
    ran at outcome taken
  obtain ⟨result, conn⟩ := ran
  dsimp only at outcome taken
  generalize conn.committed = committed at outcome taken
  cases outcome with
  | failed error =>
    cases taken
    exact .fetchedNothing ..
  | nothing =>
    cases taken
    exact .fetchedNothing ..
  | locked item attemptCount candidate found =>
    cases taken
    exact .fetched _ _ _ _ _ _ fresh item attemptCount candidate found
  | dropped instanceId candidate noRow orphans =>
    cases taken
    exact .dropped _ _ _ _ _ _ fresh instanceId candidate noRow orphans

theorem decide_effect {token : Nat} {env : RuntimeEnv semver} (taken : world.decide token env = some after) :
    Effect world (.decide token env) after := by
  obtain ⟨delivery, holds, decided⟩ := Option.bind_eq_some_iff.mp taken
  split at decided
  · rename_i phase
    cases decided
    exact .decided token env delivery holds phase
  · cases decided

theorem ack_effect {config : ProviderConfig} {now token : Nat} {fault : Fault}
    (taken : world.ack config now token fault = some after) : Effect world (.ack config now token fault) after := by
  obtain ⟨delivery, holds, answered⟩ := Option.bind_eq_some_iff.mp taken
  split at answered
  · rename_i request fallback failed phase
    have outcome := ackOrchestrationItem_outcome config world.store now token request fault
    generalize ackOrchestrationItem config now token request (Lib.Database.Conn.open world.store fault) =
      ran at outcome answered
    obtain ⟨result, conn⟩ := ran
    rcases outcome with ⟨error, rfl, unchanged⟩ | ⟨rfl, instanceId, committed⟩
    · dsimp only at answered unchanged
      rw [unchanged] at answered
      cases answered
      exact .ackFailed config now token fault delivery request fallback failed holds phase error
    · cases answered
      exact .acked config now token fault delivery request fallback failed holds phase instanceId _ committed
  · cases answered

theorem failTurn_effect {token : Nat} (taken : world.failTurn token = some after) :
    Effect world (.failTurn token) after := by
  obtain ⟨delivery, holds, turned⟩ := Option.bind_eq_some_iff.mp taken
  split at turned
  · rename_i request fallback error phase
    cases turned
    exact .turnFailed token delivery request fallback error holds phase
  · cases turned

theorem abandon_effect {now token : Nat} (taken : world.abandon now token = some after) :
    Effect world (.abandon now token) after := by
  obtain ⟨delivery, holds, given⟩ := Option.bind_eq_some_iff.mp taken
  split at given
  · rename_i delayMs ignoreAttempt phase
    split at given
    · rename_i store released
      cases given
      exact .abandoned now token delivery delayMs ignoreAttempt holds phase store released
    · cases given
      exact .abandonFailed now token delivery delayMs ignoreAttempt holds phase
  · cases given

theorem renew_effect {now token extendMs : Nat} (taken : world.renew now token extendMs = some after) :
    Effect world (.renew now token extendMs) after := by
  unfold renew at taken
  split_ifs at taken
  split at taken
  · rename_i store extended
    cases taken
    exact .renewed now token extendMs store extended
  · cases taken
    exact .renewFailed now token extendMs

theorem fetchWork_effect {now lockTimeoutMs token : Nat} {session : Option SessionFetchConfig} {filter : TagFilter}
    (taken : world.fetchWork now lockTimeoutMs token session filter = some after) :
    Effect world (.fetchWork now lockTimeoutMs token session filter) after := by
  unfold fetchWork at taken
  split_ifs at taken with fresh
  obtain ⟨⟨⟨workItem, attemptCount⟩, store⟩, found, held⟩ := Option.bind_eq_some_iff.mp taken
  cases held
  exact .workFetched now lockTimeoutMs token session filter fresh workItem attemptCount store found

theorem renewWork_effect {now token extendMs : Nat} {error : Option ProviderError}
    (taken : world.renewWork now token extendMs error = some after) :
    Effect world (.renewWork now token extendMs error) after := by
  obtain ⟨held, holds, extended⟩ := Option.bind_eq_some_iff.mp taken
  rcases renewed : renewWorkItemLock world.store now token extendMs with failure | store
  · rw [renewed] at extended
    rcases error with _ | error <;> cases extended <;> exact .workCancelled _ _ _ _ held holds (.inr ⟨failure, renewed⟩)
  · rw [renewed] at extended
    rcases error with _ | error
    · cases extended
      exact .workRenewed now token extendMs held holds store renewed
    · cases extended
      exact .workCancelled now token extendMs _ held holds (.inl rfl)

theorem completeWork_effect {now token maxAttempts : Nat} {outcome : Except String String}
    (taken : world.completeWork now token maxAttempts outcome = some after) :
    Effect world (.completeWork now token maxAttempts outcome) after := by
  obtain ⟨held, holds, rest⟩ := Option.bind_eq_some_iff.mp taken
  obtain ⟨completion, reported, acked⟩ := Option.bind_eq_some_iff.mp rest
  split at acked
  · rename_i store committed
    cases acked
    exact .workCompleted now token maxAttempts outcome held holds completion reported store committed
  · cases acked
    exact .workAckFailed now token maxAttempts outcome

theorem dropWork_effect {now token : Nat} (taken : world.dropWork now token = some after) :
    Effect world (.dropWork now token) after := by
  obtain ⟨held, holds, acked⟩ := Option.bind_eq_some_iff.mp taken
  split_ifs at acked with cancelled
  split at acked
  · rename_i store committed
    cases acked
    exact .workDropped now token held holds cancelled store committed
  · cases acked
    exact .workDropFailed now token

theorem abandonWork_effect {now token : Nat} {delayMs : Option Nat} {ignoreAttempt : Bool}
    (taken : world.abandonWork now token delayMs ignoreAttempt = some after) :
    Effect world (.abandonWork now token delayMs ignoreAttempt) after := by
  obtain ⟨held, _, released⟩ := Option.bind_eq_some_iff.mp taken
  split at released
  · rename_i store given
    cases released
    exact .workAbandoned now token delayMs ignoreAttempt store given
  · cases released
    exact .workAbandonFailed now token delayMs ignoreAttempt

/-- Every step has one of the listed effects. -/
theorem step_effect {label : Step semver} (taken : world.step label = some after) : Effect world label after := by
  cases label with
  | client now item => exact client_effect taken
  | fetch config filter now lockTimeoutMs token fault => exact fetch_effect taken
  | decide token env => exact decide_effect taken
  | ack config now token fault => exact ack_effect taken
  | failTurn token => exact failTurn_effect taken
  | abandon now token => exact abandon_effect taken
  | renew now token extendMs => exact renew_effect taken
  | fetchWork now lockTimeoutMs token session filter => exact fetchWork_effect taken
  | renewWork now token extendMs error => exact renewWork_effect taken
  | completeWork now token maxAttempts outcome => exact completeWork_effect taken
  | dropWork now token => exact dropWork_effect taken
  | abandonWork now token delayMs ignoreAttempt => exact abandonWork_effect taken

end World

/-! ## Deliveries -/

/-- How the holder of an item moves on. -/
inductive PhaseStep (delivery : Delivery semver) : TurnPhase semver → Prop
  | decided (env : RuntimeEnv semver) (phase : delivery.phase = .fetched) :
      PhaseStep delivery (Dispatcher.handleFetchedItem env delivery.item delivery.attemptCount).phase
  | ackFailed (request : AckRequest semver) (fallback : Option (ProviderError → AckRequest semver))
      (failed : Option ProviderError) (phase : delivery.phase = .acking request fallback failed)
      (error : ProviderError) : PhaseStep delivery (.acking request fallback (some error))
  | turnFailed (request : AckRequest semver) (fallback : ProviderError → AckRequest semver) (error : ProviderError)
      (phase : delivery.phase = .acking request (some fallback) (some error)) :
      PhaseStep delivery (.acking (fallback error) none none)
  | done : PhaseStep delivery .done

/-- A delivery is new with the fetch that returned it, or has moved on, or is as before. -/
inductive DeliveryStep (world : World semver) (token : Nat) (delivery : Delivery semver) : Prop
  | same (holds : world.deliveries token = some delivery)
  | fetched (config : ProviderConfig) (filter : Option (List (SemverRange semver))) (now lockTimeoutMs : Nat)
      (unused : world.deliveries token = none) (phase : delivery.phase = .fetched)
      (candidate : Provider.Candidate world.store now (Provider.rangeOf filter) delivery.item.instanceId)
      (found : Provider.Fetched (Provider.lockedStore world.store now lockTimeoutMs token delivery.item.instanceId)
        token delivery.item delivery.attemptCount)
  | moved (before : Delivery semver) (holds : world.deliveries token = some before)
      (step : PhaseStep before delivery.phase) (kept : delivery = { before with phase := delivery.phase })

variable {world after : World semver} {label : Step semver} {token : Nat} {delivery : Delivery semver}

theorem DeliveryStep.update {other : Nat} {before : Delivery semver} {phase : TurnPhase semver}
    (holds : world.deliveries other = some before) (step : PhaseStep before phase)
    (held : Function.update world.deliveries other (some { before with phase }) token = some delivery) :
    DeliveryStep world token delivery := by
  by_cases same : token = other
  · subst same
    rw [Function.update_self] at held
    cases held
    exact .moved before holds step rfl
  · rw [Function.update_of_ne same] at held
    exact .same held

theorem Effect.deliveryStep (effect : Effect world label after) (held : after.deliveries token = some delivery) :
    DeliveryStep world token delivery := by
  cases effect with
  | fetched config filter now lockTimeoutMs other fault fresh item attemptCount candidate found =>
    by_cases same : token = other
    · subst same
      rw [World.setDelivery_self] at held
      cases held
      refine .fetched config filter now lockTimeoutMs ?_ rfl candidate found
      simp only [World.isFresh, Bool.and_eq_true, Option.isNone_iff_eq_none] at fresh
      exact fresh.1
    · rw [World.setDelivery_of_ne _ _ same] at held
      exact .same held
  | decided other env before holds phase => exact .update holds (.decided env phase) held
  | ackFailed config now other fault before request fallback failed holds phase error =>
    exact .update holds (.ackFailed request fallback failed phase error) held
  | acked config now other fault before request fallback failed holds => exact .update holds .done held
  | turnFailed other before request fallback error holds phase =>
    exact .update holds (.turnFailed request fallback error phase) held
  | abandonFailed now other before delayMs ignoreAttempt holds => exact .update holds .done held
  | abandoned now other before delayMs ignoreAttempt holds => exact .update holds .done held
  | enqueued | fetchedNothing | dropped | renewFailed | renewed | workFetched | workRenewed | workCancelled
  | workAckFailed | workCompleted | workDropFailed | workDropped | workAbandonFailed | workAbandoned =>
    exact .same held

end Duroxide
