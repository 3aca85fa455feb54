import Duroxide.Lib.OverlayKeys
import Duroxide.Proofs.KeyValueViews

/-! # The limit on the number of keys

The check of a turn follows the keys of the snapshot through the turn's events, and the snapshot is the table
of stored values alone. So the keys that earlier turns of the same execution wrote are not counted, and those
that they cleared are; the count is that of the visible keys exactly if these make up for each other.
-/

namespace Duroxide

open Provider Dispatcher Lib.Overlay VersionPinning

variable {semver : Semver}

/-! ## The keys in use -/

namespace Store

theorem lists_kvBase (store : Store) (instanceId : String) :
    Lists (store.kvStore instanceId).keys (store.kvBase instanceId) where
  distinct := AList.keys_nodup _
  mem_iff key := by rw [← AList.mem_keys, ← AList.lookup_isSome, kvBase, Option.isSome_map]

theorem lists_kvOverlay (store : Store) (instanceId : String) :
    Lists (store.kvDelta instanceId).keys (store.kvOverlay instanceId) where
  distinct := AList.keys_nodup _
  mem_iff key := by rw [← AList.mem_keys, ← AList.lookup_isSome, kvOverlay, Option.isSome_map]

theorem lists_kvView (store : Store) (instanceId : String) :
    Lists (getKvAllValues store instanceId).keys (store.kvView instanceId) where
  distinct := AList.keys_nodup _
  mem_iff key := by rw [← AList.mem_keys, ← AList.lookup_isSome, lookup_getKvAllValues]

/-- The keys that an orchestration sees after a turn: those of both tables, through the turn's events. -/
def visibleKeys (store : Store) (instanceId : String) (historyDelta : List Event) : List String :=
  keysThrough (kvChanges historyDelta) (getKvAllValues store instanceId).keys

/-- Among the keys that the events of a turn leave alone, as many were added since the snapshot as were cleared. -/
def MissesAsMany (store : Store) (instanceId : String) (historyDelta : List Event) : Prop :=
  (addedKeys (store.kvBase instanceId) (store.kvOverlay instanceId) (kvChanges historyDelta)
      (store.kvDelta instanceId).keys).length =
    (clearedKeys (store.kvBase instanceId) (store.kvOverlay instanceId) (kvChanges historyDelta)
      (store.kvDelta instanceId).keys).length

instance (store : Store) (instanceId : String) (historyDelta : List Event) :
    Decidable (store.MissesAsMany instanceId historyDelta) := inferInstanceAs (Decidable (_ = _))

/-- The visible keys are those that are read after the turn was acknowledged. -/
theorem mem_visibleKeys {store after : Store} {instanceId : String} {request : AckRequest semver}
    (materialized : KvMaterialized instanceId request store after) {key : String} :
    key ∈ store.visibleKeys instanceId request.historyDelta ↔ (getKvValue after instanceId key).isSome := by
  have lists := lists_keysThrough (kvChanges request.historyDelta) (store.lists_kvView instanceId)
  rw [visibleKeys, lists.mem_iff, getKvValue_eq, materialized.view]

end Store

namespace Dispatcher

theorem effectiveKeys_eq (historyDelta : List Event) (kvSnapshot : AList (fun _ : String => KvEntry)) :
    effectiveKeys historyDelta kvSnapshot = keysThrough (kvChanges historyDelta) kvSnapshot.keys := by
  unfold effectiveKeys
  generalize kvSnapshot.keys = keys
  induction historyDelta generalizing keys with
  | nil => rfl
  | cons event rest ih =>
    rw [List.foldl_cons, ih, kvChanges, kvChanges, List.filterMap_cons]
    cases event.kind <;> rfl

/-- No limit that is checked before the key count is exceeded. -/
def OthersKept (historyDelta : List Event) : Prop :=
  customStatusError historyDelta = none ∧ tagError historyDelta = none ∧ kvValueError historyDelta = none

instance (historyDelta : List Event) : Decidable (OthersKept historyDelta) := inferInstanceAs (Decidable (_ ∧ _))

/-- The key count fails a turn: it exceeds its limit, and no other limit is exceeded before. -/
def FailsForKeyCount (historyDelta : List Event) (kvSnapshot : AList (fun _ : String => KvEntry)) : Prop :=
  OthersKept historyDelta ∧ (limitError historyDelta kvSnapshot).isSome

theorem limitError_of_others {historyDelta : List Event} (kvSnapshot : AList (fun _ : String => KvEntry))
    (others : OthersKept historyDelta) : limitError historyDelta kvSnapshot = kvKeyCountError historyDelta kvSnapshot := by
  obtain ⟨status, tags, values⟩ := others
  simp only [limitError, status, tags, values]
  rfl

theorem kvKeyCountError_isSome {historyDelta : List Event} {kvSnapshot : AList (fun _ : String => KvEntry)} :
    (kvKeyCountError historyDelta kvSnapshot).isSome ↔ MAX_KV_KEYS < (effectiveKeys historyDelta kvSnapshot).length := by
  unfold kvKeyCountError
  dsimp only
  split_ifs with exceeded
  · exact iff_of_true rfl exceeded
  · exact iff_of_false Bool.false_ne_true exceeded

end Dispatcher

section Held

variable {guard : World semver → Step semver → Prop} {world : World semver} {token : Nat} {delivery : Delivery semver}
  {instanceId : String} {env : RuntimeEnv semver} {outcome : ExecutionOutcome}

/-- The check misses the keys that were added since the snapshot, and counts those that were cleared. -/
theorem effectiveKeys_length (reached : (system semver).Reachable guard world)
    (holds : world.deliveries token = some delivery) (locked : world.store.lockedInstance token = some instanceId)
    (readable : delivery.item.historyError = none) (historyDelta : List Event) :
    (effectiveKeys historyDelta delivery.item.kvSnapshot).length +
        (addedKeys (world.store.kvBase instanceId) (world.store.kvOverlay instanceId) (kvChanges historyDelta)
          (world.store.kvDelta instanceId).keys).length =
      (world.store.visibleKeys instanceId historyDelta).length +
        (clearedKeys (world.store.kvBase instanceId) (world.store.kvOverlay instanceId) (kvChanges historyDelta)
          (world.store.kvDelta instanceId).keys).length := by
  have coherent : Coherent world := .of_reachable reached
  obtain ⟨lock, found, rfl⟩ := lock_of_lockedInstance locked
  obtain ⟨rfl, _⟩ := coherent.of_locked locked holds
  have snapshot := HoldsSnapshots.of_reachable reached _ delivery lock holds found rfl readable
  rw [effectiveKeys_eq, snapshot]
  exact length_keysThrough (world.store.lists_kvBase delivery.item.instanceId)
    (world.store.lists_kvView delivery.item.instanceId) (world.store.lists_kvOverlay delivery.item.instanceId)

/-- The check counts the visible keys exactly if the changes since the snapshot make up for each other. -/
theorem effectiveKeys_length_iff (reached : (system semver).Reachable guard world)
    (holds : world.deliveries token = some delivery) (locked : world.store.lockedInstance token = some instanceId)
    (readable : delivery.item.historyError = none) (historyDelta : List Event) :
    (effectiveKeys historyDelta delivery.item.kvSnapshot).length = (world.store.visibleKeys instanceId historyDelta).length ↔
      world.store.MissesAsMany instanceId historyDelta := by
  have counts := effectiveKeys_length reached holds locked readable historyDelta
  unfold Store.MissesAsMany
  omega

end Held

/-! A program that sets keys, waits, and sets one more. -/

/-- Set as many keys as given, under names of their own. -/
def setKeys {State : Type} (next : Script State) : Nat → Script State
  | 0 => next
  | count + 1 => .call (.setKvValue (String.singleton (Char.ofNat (0x100 + count))) "") fun _ => setKeys next count

def hoardingHandler : OrchestrationHandler where
  State := String ⊕ Nat
  invoke := .inl
  poll
    | .inl _ => .call (.scheduleWait "go") fun token => setKeys (.suspend (.inr token)) MAX_KV_KEYS
    | .inr token => .call (.pollFuture token) fun
        | some _ => .call (.setKvValue "more" "") fun _ => .finish (.ok "")
        | none => .suspend (.inr token)

def hoardingEnv : RuntimeEnv textSemver :=
  registeredEnv fun name => if name = "hoarding" then some hoardingHandler else none

/-- The first turn sets as many keys as are allowed, and the second one is fetched. -/
def secondHoarding : List (Step textSemver) :=
  [.client 0 (.startOrchestration "i" "hoarding" "" none none none 1), .fetch {} none 0 1000 1 none,
    .decide 1 hoardingEnv, .ack {} 0 1 none, .client 0 (.externalRaised "i" "go" "now"), .fetch {} none 0 1000 2 none]

end Duroxide
