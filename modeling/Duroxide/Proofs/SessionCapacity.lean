import Duroxide.Model.SessionTracker
import Mathlib.Algebra.BigOperators.Ring.Finset

/-! # Session capacity

The tracker counts the guards that the slots hold. A slot processes an item of a session only after it
found the tracker within the capacity while it held a guard itself, and every session that executes at
that moment has a guard too; so however the slots interleave no more sessions execute than the capacity
allows, also while slots that will give their item back hold more guards than that.
-/

namespace Duroxide

namespace SessionTracker

variable {tracker : SessionTracker} {sessionId : String}

def count (tracker : SessionTracker) (sessionId : String) : Nat := (tracker.lookup sessionId).getD 0

/-- An entry goes when its count reaches 0. -/
def Positive (tracker : SessionTracker) : Prop := ∀ sessionId, tracker.lookup sessionId ≠ some 0

theorem count_increment (tracker : SessionTracker) (sessionId other : String) :
    (tracker.increment sessionId).count other = tracker.count other + if sessionId = other then 1 else 0 := by
  unfold count increment
  split_ifs with same
  · subst same
    rw [AList.lookup_insert, Option.getD_some]
  · rw [AList.lookup_insert_ne (Ne.symm same), Nat.add_zero]

theorem Positive.increment (positive : tracker.Positive) : (tracker.increment sessionId).Positive := by
  intro other
  unfold SessionTracker.increment
  by_cases same : other = sessionId
  · subst same
    rw [AList.lookup_insert]
    simp
  · rw [AList.lookup_insert_ne same]
    exact positive other

theorem count_decrement (tracker : SessionTracker) (sessionId other : String) :
    (tracker.decrement sessionId).count other = tracker.count other - if sessionId = other then 1 else 0 := by
  unfold count decrement
  by_cases same : sessionId = other
  · subst same
    rcases found : tracker.lookup sessionId with _ | count
    · simp [found]
    · by_cases last : count - 1 = 0 <;> simp [last]
  · rcases found : tracker.lookup sessionId with _ | count
    · simp [same]
    · by_cases last : count - 1 = 0
      · simp [last, same, AList.lookup_erase_ne (Ne.symm same)]
      · simp [last, same, AList.lookup_insert_ne (Ne.symm same)]

theorem Positive.decrement (positive : tracker.Positive) : (tracker.decrement sessionId).Positive := by
  intro other
  unfold SessionTracker.decrement
  rcases found : tracker.lookup sessionId with _ | count
  · exact positive other
  · by_cases same : other = sessionId
    · subst same
      by_cases last : count - 1 = 0
      · simp [last]
      · simp [last]
    · have kept := positive other
      by_cases last : count - 1 = 0
      · simpa [last, AList.lookup_erase_ne same] using kept
      · simpa [last, AList.lookup_insert_ne same] using kept

/-- The sessions in flight are the keys of the map. -/
theorem mem_keys_of_count (counted : 0 < tracker.count sessionId) : sessionId ∈ tracker.keys := by
  by_contra absent
  rw [count, AList.lookup_eq_none.mpr absent] at counted
  exact Nat.lt_irrefl 0 counted

/-- A tracker that counts nothing is empty. -/
theorem Positive.eq_empty (positive : tracker.Positive) (zero : ∀ sessionId, tracker.count sessionId = 0) :
    tracker = ∅ := by
  have none : ∀ sessionId, tracker.lookup sessionId = none := by
    intro sessionId
    rcases found : tracker.lookup sessionId with _ | count
    · rfl
    · have counted := zero sessionId
      rw [SessionTracker.count, found, Option.getD_some] at counted
      exact absurd (counted ▸ found) (positive sessionId)
  apply AList.ext
  apply List.eq_nil_iff_forall_not_mem.mpr
  intro entry listed
  have found := AList.mem_lookup_iff.mpr listed
  rw [none] at found
  cases found

end SessionTracker

namespace WorkerSlots

variable {concurrency maxSessionsPerRuntime : Nat} {state next : WorkerSlots concurrency} {slot : Fin concurrency}
  {place : WorkerSlot}

/-! ## One slot moves -/

@[simp] theorem moveTo_tracker : (state.moveTo slot place).tracker = state.tracker := rfl

@[simp] theorem moveTo_self : (state.moveTo slot place).slots slot = place := Function.update_self ..

theorem moveTo_of_ne {other : Fin concurrency} (different : other ≠ slot) :
    (state.moveTo slot place).slots other = state.slots other := Function.update_of_ne different ..

/-- The guards of a session, counted over the slots. -/
def guards (state : WorkerSlots concurrency) (sessionId : String) : Nat := (holders state sessionId).card

theorem guards_moveTo (state : WorkerSlots concurrency) (slot : Fin concurrency) (place : WorkerSlot) (sessionId : String) :
    (state.moveTo slot place).guards sessionId + (if (state.slots slot).guard = some sessionId then 1 else 0) =
      state.guards sessionId + if place.guard = some sessionId then 1 else 0 := by
  have split : ∀ state : WorkerSlots concurrency, state.guards sessionId =
      (if (state.slots slot).guard = some sessionId then 1 else 0) +
        ∑ other ∈ Finset.univ.erase slot, if (state.slots other).guard = some sessionId then 1 else 0 := by
    intro state
    rw [guards, holders, Finset.card_filter]
    exact (Finset.add_sum_erase _ _ (Finset.mem_univ slot)).symm
  have others : ∑ other ∈ Finset.univ.erase slot, (if ((state.moveTo slot place).slots other).guard = some sessionId then 1 else 0) =
      ∑ other ∈ Finset.univ.erase slot, if (state.slots other).guard = some sessionId then 1 else 0 := by
    apply Finset.sum_congr rfl
    intro other listed
    rw [moveTo_of_ne (Finset.ne_of_mem_erase listed)]
  rw [split (state.moveTo slot place), split state, others, moveTo_self]
  omega

theorem mem_executingSessions {sessionId : String} :
    sessionId ∈ state.executingSessions ↔ ∃ slot, (state.slots slot).executing = some sessionId := by
  simp [executingSessions]

theorem executingSessions_moveTo (state : WorkerSlots concurrency) (idle : place.executing = none) :
    (state.moveTo slot place).executingSessions ⊆ state.executingSessions := by
  intro sessionId executes
  obtain ⟨other, executes⟩ := mem_executingSessions.mp executes
  by_cases same : other = slot
  · subst same
    rw [moveTo_self, idle] at executes
    cases executes
  · rw [moveTo_of_ne same] at executes
    exact mem_executingSessions.mpr ⟨other, executes⟩

theorem executing_unbound (poison : Bool) : (WorkerSlot.processing none poison).executing = none := by
  cases poison <;> rfl

/-- A slot that executes for a session holds a guard of it. -/
theorem guard_of_executing {sessionId : String} (executes : place.executing = some sessionId) :
    place.guard = some sessionId := by
  cases place with
  | processing bound poison =>
    cases poison with
    | false => exact executes
    | true => cases executes
  | _ => cases executes

/-! ## The invariant -/

structure Tracked (maxSessionsPerRuntime : Nat) (state : WorkerSlots concurrency) : Prop where
  counts : ∀ sessionId, state.tracker.count sessionId = state.guards sessionId
  positive : state.tracker.Positive
  within : state.executingSessions.card ≤ maxSessionsPerRuntime

/-- Every session that executes has an entry in the map. -/
theorem executingSessions_subset (counts : ∀ sessionId, state.tracker.count sessionId = state.guards sessionId) :
    state.executingSessions ⊆ state.tracker.keys.toFinset := by
  intro sessionId executes
  obtain ⟨slot, executes⟩ := mem_executingSessions.mp executes
  rw [List.mem_toFinset]
  apply SessionTracker.mem_keys_of_count
  rw [counts, guards, Finset.card_pos]
  exact ⟨slot, Finset.mem_filter.mpr ⟨Finset.mem_univ slot, guard_of_executing executes⟩⟩

theorem executingSessions_card_le (counts : ∀ sessionId, state.tracker.count sessionId = state.guards sessionId) :
    state.executingSessions.card ≤ state.tracker.distinctCount :=
  (Finset.card_le_card (executingSessions_subset counts)).trans (List.toFinset_card_le _)

/-- A slot that moves without a guard or with the one it had. -/
theorem Tracked.moveTo (tracked : Tracked maxSessionsPerRuntime state) (same : place.guard = (state.slots slot).guard)
    (idle : place.executing = none) : Tracked maxSessionsPerRuntime (state.moveTo slot place) where
  counts sessionId := by
    have moved := state.guards_moveTo slot place sessionId
    rw [same] at moved
    rw [moveTo_tracker, tracked.counts]
    omega
  positive := tracked.positive
  within := (Finset.card_le_card (executingSessions_moveTo state idle)).trans tracked.within

theorem Tracked.take {sessionId : String} (tracked : Tracked maxSessionsPerRuntime state)
    (free : (state.slots slot).guard = none) (taken : place.guard = some sessionId) (idle : place.executing = none) :
    Tracked maxSessionsPerRuntime ({ state with tracker := state.tracker.increment sessionId }.moveTo slot place) where
  counts other := by
    have moved := state.guards_moveTo slot place other
    have counted := tracked.counts other
    simp only [free, taken, Option.some.injEq, reduceCtorEq, if_false, Nat.add_zero] at moved
    rw [moveTo_tracker, SessionTracker.count_increment, counted]
    exact moved.symm
  positive := tracked.positive.increment
  within := (Finset.card_le_card (executingSessions_moveTo { state with tracker := _ } idle)).trans tracked.within

theorem Tracked.drop {sessionId : String} (tracked : Tracked maxSessionsPerRuntime state)
    (held : (state.slots slot).guard = some sessionId) (free : place.guard = none) (idle : place.executing = none) :
    Tracked maxSessionsPerRuntime ({ state with tracker := state.tracker.decrement sessionId }.moveTo slot place) where
  counts other := by
    have moved := state.guards_moveTo slot place other
    have counted := tracked.counts other
    simp only [free, held, Option.some.injEq, reduceCtorEq, if_false, Nat.add_zero] at moved
    rw [moveTo_tracker, SessionTracker.count_decrement, counted, ← moved, Nat.add_sub_cancel]
    rfl
  positive := tracked.positive.decrement
  within := (Finset.card_le_card (executingSessions_moveTo { state with tracker := _ } idle)).trans tracked.within

/-- A slot goes on to process an item of a session when it finds the tracker within the capacity. -/
theorem Tracked.process {sessionId : String} {poison : Bool} (tracked : Tracked maxSessionsPerRuntime state)
    (held : (state.slots slot).guard = some sessionId) (room : state.tracker.distinctCount ≤ maxSessionsPerRuntime) :
    Tracked maxSessionsPerRuntime (state.moveTo slot (.processing (some sessionId) poison)) := by
  have counts : ∀ other, (state.moveTo slot (.processing (some sessionId) poison)).tracker.count other =
      (state.moveTo slot (.processing (some sessionId) poison)).guards other := by
    intro other
    have moved := state.guards_moveTo slot (.processing (some sessionId) poison) other
    rw [held] at moved
    rw [moveTo_tracker, tracked.counts]
    exact (Nat.add_right_cancel moved).symm
  exact ⟨counts, tracked.positive, (executingSessions_card_le counts).trans room⟩

theorem Tracked.step {label : Fin concurrency × SlotAction} (tracked : Tracked maxSessionsPerRuntime state)
    (taken : step maxSessionsPerRuntime state label = some next) : Tracked maxSessionsPerRuntime next := by
  obtain ⟨slot, action⟩ := label
  simp only [WorkerSlots.step] at taken
  have wanders : ∀ {here place : WorkerSlot}, state.slots slot = here → place.guard = here.guard → place.executing = none →
      Tracked maxSessionsPerRuntime (state.moveTo slot place) := by
    rintro here place rfl same idle
    exact tracked.moveTo same idle
  split at taken <;> rename_i here
  · cases taken
    exact wanders here rfl rfl
  · cases taken
    exact wanders here rfl rfl
  · cases taken
    exact wanders here rfl rfl
  · cases taken
    exact tracked.take (by rw [here]; rfl) rfl rfl
  · cases taken
    exact wanders here rfl (executing_unbound _)
  · split_ifs at taken with full
    · cases taken
      exact wanders here rfl rfl
    · cases taken
      exact tracked.process (by rw [here]; rfl) (Nat.not_lt.mp full)
  · cases taken
    exact tracked.drop (by rw [here]; rfl) rfl rfl
  · cases taken
    exact wanders here rfl rfl
  · cases taken
    exact tracked.drop (by rw [here]; rfl) rfl rfl
  · cases taken
    exact wanders here rfl rfl
  · cases taken

theorem tracked_of_reachable (reached : (system concurrency maxSessionsPerRuntime).Reachable (fun _ _ => True) state) :
    Tracked maxSessionsPerRuntime state := by
  refine reached.invariant ?_ fun source label target tracked _ taken => tracked.step taken
  rintro state rfl
  constructor
  · intro sessionId
    simp [SessionTracker.count, guards, holders, WorkerSlot.guard]
  · intro sessionId
    simp
  · have none : executingSessions ({} : WorkerSlots concurrency) = ∅ := by
      ext sessionId
      simp [mem_executingSessions, WorkerSlot.executing]
    simp [none]

/-- However the slots interleave, no more sessions execute than the capacity allows, the tracker counts the guards
of each session, and it is empty when no slot holds one. -/
theorem sessions_within_capacity (reached : (system concurrency maxSessionsPerRuntime).Reachable (fun _ _ => True) state) :
    state.executingSessions.card ≤ maxSessionsPerRuntime ∧
      (∀ sessionId, (state.tracker.lookup sessionId).getD 0 = (state.holders sessionId).card) ∧
      ((∀ slot, (state.slots slot).guard = none) → state.tracker = ∅) := by
  have tracked := tracked_of_reachable reached
  refine ⟨tracked.within, tracked.counts, fun free => ?_⟩
  apply tracked.positive.eq_empty
  intro sessionId
  rw [tracked.counts, guards, Finset.card_eq_zero, holders, Finset.filter_eq_empty_iff]
  intro slot _
  rw [free]
  exact Option.some_ne_none sessionId |>.symm

/-- Two slots that race past the first check with items of different sessions, where one session is allowed. -/
def race : List (Fin 2 × SlotAction) :=
  [(0, .checkCapacity), (1, .checkCapacity), (0, .fetch (some (some "a", false))), (1, .fetch (some (some "b", false))),
    (0, .takeGuard), (0, .recheckCapacity), (1, .takeGuard), (1, .recheckCapacity), (1, .dropGuard)]

theorem sessions_within_capacity_race :
    ∃ state : WorkerSlots 2, (system 2 1).Reachable (fun _ _ => True) state ∧ state.executingSessions.card ≤ 1 ∧
      state.slots 0 = .processing (some "a") false ∧ state.slots 1 = .abandoning := by
  obtain ⟨state, ran, places⟩ : ∃ state, Lib.TransitionSystem.runTested (step 1) (fun _ _ => true) {} race = some state ∧
      state.slots 0 = .processing (some "a") false ∧ state.slots 1 = .abandoning := ⟨_, rfl, rfl, rfl⟩
  have reached : (system 2 1).Reachable (fun _ _ => True) state :=
    .of_runTested (fun _ _ _ taken => taken) (fun _ _ _ => trivial) (.initial rfl) ran
  exact ⟨state, reached, (sessions_within_capacity reached).1, places⟩

end WorkerSlots

end Duroxide
