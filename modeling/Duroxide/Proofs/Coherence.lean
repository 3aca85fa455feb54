import Duroxide.Proofs.PeekLock

/-! # The system keeps to the peek-lock protocol

Whatever the dispatchers, workers and clients of a system do to its database are moves of the
peek-lock protocol. So a dispatcher that commits a turn holds the lock of its item's instance, and the
tables still say about that instance what the fetch of the item had read.
-/

namespace Duroxide

open Provider PeekLock

variable {semver : Semver}

/-- A desk over the same tables, with a ticket for every delivery. -/
structure Presents (world : World semver) (desk : Desk) : Prop where
  store : desk.store = world.store
  items : ∀ token, (world.deliveries token).map (·.item) = (desk.tickets token).map (·.item)

/-- A world that some sound desk presents. -/
def Coherent (world : World semver) : Prop := ∃ desk, Presents world desk ∧ Sound desk

namespace PeekLock.Elsewhere

variable {before after : Store}

/-- Nothing but the worker tables changes. -/
theorem of_workers (workers : List WorkerRow) (next : Nat) (sessions : AList fun _ : String => SessionRow) :
    Elsewhere before { before with workerQueue := workers, nextWorkerId := next, sessions } :=
  ⟨⟨rfl, rfl, rfl, rfl, rfl⟩, rfl, fun _ => 0, [], by simp [enqueuedRows]⟩

theorem enqueued (store : Store) (item : WorkItem) (visibleAt : Int) :
    Elsewhere store (store.insertOrchestratorRow item visibleAt) :=
  ⟨⟨rfl, rfl, rfl, rfl, rfl⟩, rfl, fun _ => visibleAt, [item], rfl, rfl⟩

/-- An acknowledged work item deletes worker rows and enqueues its completion. -/
theorem ackWorkItem {now token : Nat} {completion : Option WorkItem}
    (acked : Provider.ackWorkItem before now token completion = .ok after) : Elsewhere before after := by
  obtain ⟨row, sessions, _, rfl⟩ := ackWorkItem_spec acked
  cases completion with
  | none => exact .of_workers _ _ _
  | some completion => exact ⟨⟨rfl, rfl, rfl, rfl, rfl⟩, rfl, fun _ => now, [completion], rfl, rfl⟩

end PeekLock.Elsewhere

namespace Presents

variable {world after : World semver} {desk : Desk} {label : Step semver}

/-- A delivery of a world has a ticket for its item. -/
theorem ticket (presents : Presents world desk) {token : Nat} {delivery : Delivery semver}
    (holds : world.deliveries token = some delivery) :
    ∃ ticket, desk.tickets token = some ticket ∧ ticket.item = delivery.item := by
  have same := presents.items token
  rw [holds, Option.map_some] at same
  exact Option.map_eq_some_iff.mp same.symm

theorem unissued (presents : Presents world desk) {token : Nat} (fresh : world.isFresh token) :
    desk.tickets token = none := by
  simp only [World.isFresh, Bool.and_eq_true, Option.isNone_iff_eq_none] at fresh
  have same := presents.items token
  rw [fresh.1, Option.map_none] at same
  exact Option.map_eq_none_iff.mp same.symm

/-- A change of the tables alone. -/
theorem withStore (presents : Presents world desk) (store : Store) :
    Presents { world with store } (desk.withStore store) :=
  ⟨rfl, presents.items⟩

/-- A change of a delivery that keeps its item. -/
theorem setPhase (presents : Presents world desk) {token : Nat} {delivery : Delivery semver}
    (holds : world.deliveries token = some delivery) (phase : TurnPhase semver) :
    Presents (world.setPhase token delivery phase) desk := by
  refine ⟨presents.store, fun other => ?_⟩
  by_cases same : other = token
  · subst same
    rw [World.setPhase, World.setDelivery_self, ← presents.items, holds]
    rfl
  · rw [World.setPhase, World.setDelivery_of_ne _ _ same]
    exact presents.items other

/-- A step of the system is a move of the protocol. -/
theorem moves (presents : Presents world desk) (effect : Effect world label after) :
    ∃ next, Moves semver desk next ∧ Presents after next := by
  have tables := presents.store
  obtain ⟨store, tickets, commits⟩ := desk
  dsimp only at tables
  subst tables
  cases effect with
  | enqueued now item => exact ⟨_, .elsewhere _ (.enqueued _ _ _), presents.withStore _⟩
  | fetchedNothing | renewFailed | workAckFailed | workDropFailed | workAbandonFailed =>
    exact ⟨_, .same, presents⟩
  | fetched config filter now lockTimeoutMs token fault fresh item attemptCount candidate found =>
    refine ⟨_, .issued now lockTimeoutMs token attemptCount item (presents.unissued fresh) candidate.unlocked found,
      rfl, fun other => ?_⟩
    by_cases same : other = token
    · subst same
      rw [World.setDelivery_self, Desk.issue_self]
      rfl
    · rw [World.setDelivery_of_ne _ _ same, Desk.issue_of_ne _ _ _ same]
      exact presents.items other
  | dropped config filter now lockTimeoutMs token fault fresh instanceId candidate noRow orphans =>
    exact ⟨_, .dropped now lockTimeoutMs token instanceId (presents.unissued fresh) candidate.unlocked,
      presents.withStore _⟩
  | decided token env delivery holds => exact ⟨_, .same, presents.setPhase holds _⟩
  | ackFailed config now token fault delivery request fallback failed holds =>
    exact ⟨_, .same, presents.setPhase holds _⟩
  | acked config now token fault delivery request fallback failed holds phase instanceId after committed =>
    refine ⟨_, .committed now token instanceId request after committed, ?_⟩
    have recorded : Presents { world with store := after } (Desk.record ⟨world.store, tickets, commits⟩ token after) :=
      ⟨rfl, presents.items⟩
    exact recorded.setPhase holds .done
  | turnFailed token delivery request fallback error holds => exact ⟨_, .same, presents.setPhase holds _⟩
  | abandonFailed now token delivery delayMs ignoreAttempt holds => exact ⟨_, .same, presents.setPhase holds _⟩
  | abandoned now token delivery delayMs ignoreAttempt holds phase store released =>
    exact ⟨_, .released now token delayMs ignoreAttempt store released, (presents.withStore store).setPhase holds .done⟩
  | renewed now token extendMs store extended =>
    exact ⟨_, .extended now token extendMs store extended, presents.withStore store⟩
  | workFetched now lockTimeoutMs token session filter fresh workItem attemptCount store found =>
    obtain ⟨row, sessions, _, _, rfl⟩ := fetchWorkItem_spec found
    exact ⟨_, .elsewhere _ (.of_workers _ _ _), rfl, presents.items⟩
  | workRenewed now token extendMs held holds store extended =>
    obtain ⟨sessions, rfl⟩ := renewWorkItemLock_spec extended
    exact ⟨_, .elsewhere _ (.of_workers _ _ _), presents.withStore _⟩
  | workCancelled => exact ⟨_, .same, rfl, presents.items⟩
  | workCompleted now token maxAttempts outcome held holds completion reported store acked =>
    exact ⟨_, .elsewhere store (.ackWorkItem acked), presents.withStore store⟩
  | workDropped now token held holds cancelled store acked =>
    exact ⟨_, .elsewhere store (.ackWorkItem acked), presents.withStore store⟩
  | workAbandoned now token delayMs ignoreAttempt store released =>
    rw [abandonWorkItem_spec released]
    exact ⟨_, .elsewhere _ (.of_workers _ _ _), presents.withStore _⟩

end Presents

namespace Coherent

variable {world after : World semver} {label : Step semver}

theorem initial : Coherent ({} : World semver) := ⟨{}, ⟨rfl, fun _ => rfl⟩, .initial⟩

theorem step (coherent : Coherent world) (effect : Effect world label after) : Coherent after := by
  obtain ⟨desk, presents, sound⟩ := coherent
  obtain ⟨next, moves, presented⟩ := presents.moves effect
  exact ⟨next, presented, sound.moves moves⟩

theorem of_reachable {guard : World semver → Step semver → Prop} (reached : (system semver).Reachable guard world) :
    Coherent world :=
  reached.invariant (fun _ start => start ▸ initial) fun _ _ _ coherent _ taken =>
    coherent.step (World.step_effect taken)

/-- The holder of a lock has the item of the locked instance, as the tables describe it. -/
theorem of_lock (coherent : Coherent world) {instanceId : String} {lock : InstanceLock} {delivery : Delivery semver}
    (found : world.store.instanceLocks.lookup instanceId = some lock)
    (holds : world.deliveries lock.lockToken = some delivery) :
    delivery.item.instanceId = instanceId ∧ Describes world.store delivery.item := by
  obtain ⟨desk, presents, sound⟩ := coherent
  rw [← presents.store] at found ⊢
  obtain ⟨ticket, held⟩ := sound.holders instanceId lock found
  obtain ⟨other, issued, same⟩ := presents.ticket holds
  have own := held.issued
  rw [issued] at own
  cases own
  rw [← same]
  exact ⟨held.target, held.describes⟩

theorem of_locked (coherent : Coherent world) {token : Nat} {instanceId : String} {delivery : Delivery semver}
    (locked : world.store.lockedInstance token = some instanceId) (holds : world.deliveries token = some delivery) :
    delivery.item.instanceId = instanceId ∧ Describes world.store delivery.item := by
  obtain ⟨lock, found, rfl⟩ := lock_of_lockedInstance locked
  exact coherent.of_lock found holds

theorem of_holdsLock (coherent : Coherent world) {now : Int} {token : Nat} {delivery : Delivery semver}
    (holds : world.deliveries token = some delivery)
    (locked : world.store.holdsLock now delivery.item.instanceId token) : Describes world.store delivery.item := by
  obtain ⟨lock, found, rfl⟩ := lock_of_holdsLock locked
  exact (coherent.of_lock found holds).2

end Coherent

end Duroxide
