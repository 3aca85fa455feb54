import Duroxide.Lib.Overlay
import Duroxide.Model.Provider

/-! # The key-value tables of an instance

What is stored of an instance is a base table, and the mutations of its current execution are an overlay on
it. The statements of an acknowledgement record changes in the overlay and fold it into the base, and what
the provider reads is the view through the overlay.
-/

namespace Duroxide

open Lib.Overlay

/-- The change of the key-value map that an event records. -/
def EventKind.kvChange : EventKind → Option (Change String String)
  | .keyValueSet key value _ => some (.set key value)
  | .keyValueCleared key => some (.clear key)
  | .keyValuesCleared => some .clearAll
  | _ => none

/-- The changes that events record, in order. -/
def kvChanges (events : List Event) : List (Change String String) := events.filterMap (·.kind.kvChange)

@[simp] theorem kvChanges_append (first second : List Event) :
    kvChanges (first ++ second) = kvChanges first ++ kvChanges second := List.filterMap_append

namespace Store

variable {store : Store} {instanceId key : String} {now : Nat}

/-- The stored values of an instance. -/
def kvBase (store : Store) (instanceId : String) : Table String String :=
  fun key => ((store.kvStore instanceId).lookup key).map (·.value)

/-- What the current execution of an instance wrote and cleared. -/
def kvOverlay (store : Store) (instanceId : String) : Delta String String :=
  fun key => ((store.kvDelta instanceId).lookup key).map (·.value)

/-- What is read of an instance. -/
def kvView (store : Store) (instanceId : String) : Table String String :=
  view (store.kvBase instanceId) (store.kvOverlay instanceId)

/-! ## What is written -/

theorem kvOverlay_upsertKv (row : KvDeltaRow) :
    (store.upsertKv instanceId key row).kvOverlay instanceId =
      Function.update (store.kvOverlay instanceId) key (some row.value) := by
  funext other
  simp only [kvOverlay, upsertKv, updateKvDelta, Function.update_self]
  by_cases same : other = key
  · subst same
    rw [AList.lookup_insert, Function.update_self]
    rfl
  · rw [AList.lookup_insert_ne same, Function.update_of_ne same]
    rfl

/-- Clearing everything touches the mutations of the instance only. -/
theorem tombstones_eq : ∃ delta, (store.tombstoneDelta instanceId now).tombstoneStored instanceId now =
    { store with kvDelta := Function.update store.kvDelta instanceId delta } := by
  unfold tombstoneStored tombstoneDelta updateKvDelta
  dsimp only
  rw [Function.update_idem]
  exact ⟨_, rfl⟩

/-- Clearing everything leaves a tombstone for every key in use. -/
theorem kvOverlay_tombstones :
    ((store.tombstoneDelta instanceId now).tombstoneStored instanceId now).kvOverlay instanceId =
      Change.clearAll.record (store.kvBase instanceId) (store.kvOverlay instanceId) := by
  funext other
  have inUse : other ∈ (store.kvStore instanceId).keys ↔ ((store.kvStore instanceId).lookup other).isSome := by
    rw [← AList.mem_keys, AList.lookup_isSome]
  simp only [kvOverlay, tombstoneStored, tombstoneDelta, updateKvDelta, Function.update_self,
    Lib.KeyedTable.lookup_foldl_insertMissing, Lib.KeyedTable.lookup_updateWhere, Change.record, kvBase, inUse]
  by_cases written : ((store.kvDelta instanceId).lookup other).isSome
  · obtain ⟨row, found⟩ := Option.isSome_iff_exists.mp written
    simp [found]
  · have unwritten := Option.not_isSome_iff_eq_none.mp written
    by_cases stored : ((store.kvStore instanceId).lookup other).isSome <;> simp [unwritten, stored]

/-! ## The fold of the overlay into the base -/

theorem lookup_mergeKvValues :
    ((store.mergeKvValues instanceId).kvStore instanceId).lookup key =
      match (store.kvDelta instanceId).lookup key with
      | some ⟨some value, written⟩ => some ⟨value, written⟩
      | _ => (store.kvStore instanceId).lookup key := by
  simp only [mergeKvValues, updateKvStore, Function.update_self]
  rw [Lib.KeyedTable.lookup_foldl (store.kvDelta instanceId) (fun row stored =>
    (row.value.map fun value => ⟨value, row.lastUpdatedAtMs⟩).or stored)]
  · rcases (store.kvDelta instanceId).lookup key with _ | ⟨_ | value, written⟩ <;> rfl
  · intro result entry
    rcases entry with ⟨own, _ | value, written⟩
    · rfl
    · exact AList.lookup_insert result
  · intro result entry other differs
    rcases entry with ⟨own, _ | value, written⟩
    · rfl
    · exact AList.lookup_insert_ne differs

/-- The end of an execution: its mutations are stored, and forgotten as mutations. -/
def mergeKv (store : Store) (instanceId : String) : Store :=
  ((store.mergeKvValues instanceId).mergeKvTombstones instanceId).clearKvDelta instanceId

theorem kvBase_mergeKv : (store.mergeKv instanceId).kvBase instanceId = store.kvView instanceId := by
  funext other
  have merged : (((store.mergeKvValues instanceId).mergeKvTombstones instanceId).kvStore instanceId).lookup other =
      (((store.mergeKvValues instanceId).kvStore instanceId).lookup other).filter fun _ =>
        !((store.kvDelta instanceId).lookup other).any (·.value.isNone) := by
    simp only [mergeKvTombstones, updateKvStore, Function.update_self, Lib.KeyedTable.lookup_deleteWhere]
    rfl
  change (_ : Option KvEntry).map (·.value) = _
  rw [show ((store.mergeKv instanceId).kvStore instanceId).lookup other = _ from merged, lookup_mergeKvValues]
  unfold kvView view kvOverlay kvBase
  rcases (store.kvDelta instanceId).lookup other with _ | ⟨_ | value, written⟩
  · rcases (store.kvStore instanceId).lookup other with _ | entry <;> rfl
  · rcases (store.kvStore instanceId).lookup other with _ | entry <;> rfl
  · rfl

theorem kvOverlay_mergeKv : (store.mergeKv instanceId).kvOverlay instanceId = unwritten := by
  funext other
  simp [mergeKv, clearKvDelta, updateKvDelta, kvOverlay, unwritten]

/-- Storing the mutations of an execution changes nothing of what is read. -/
theorem kvView_mergeKv : (store.mergeKv instanceId).kvView instanceId = store.kvView instanceId := by
  rw [kvView, kvBase_mergeKv, kvOverlay_mergeKv, view_unwritten]

end Store

namespace Provider

variable (store : Store) (instanceId key : String)

/-! ## What is read -/

theorem getKvValue_eq : getKvValue store instanceId key = store.kvView instanceId key := by
  unfold getKvValue Store.kvView view Store.kvOverlay Store.kvBase
  rcases (store.kvDelta instanceId).lookup key with _ | row <;> rfl

theorem lookup_getKvAllValues : (getKvAllValues store instanceId).lookup key = store.kvView instanceId key := by
  unfold getKvAllValues Store.kvView view Store.kvOverlay Store.kvBase
  dsimp only
  rw [Lib.KeyedTable.lookup_foldl (store.kvDelta instanceId) (fun row _ => row.value),
    Lib.KeyedTable.lookup_foldl (store.kvStore instanceId) (fun entry _ => some entry.value)]
  · rcases (store.kvDelta instanceId).lookup key with _ | row
    · rcases (store.kvStore instanceId).lookup key with _ | entry <;> rfl
    · rfl
  · exact fun result entry => AList.lookup_insert result
  · exact fun result entry other differs => AList.lookup_insert_ne differs
  · intro result entry
    rcases entry with ⟨own, _ | value, written⟩
    · exact AList.lookup_erase own result
    · exact AList.lookup_insert result
  · intro result entry other differs
    rcases entry with ⟨own, _ | value, written⟩
    · exact AList.lookup_erase_ne differs
    · exact AList.lookup_insert_ne differs

end Provider

end Duroxide
