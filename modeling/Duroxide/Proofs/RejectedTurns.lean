import Duroxide.Proofs.CustomStatus
import Duroxide.Proofs.KeyLimit

/-! # Turns that exceed a limit

A turn that exceeds a limit is failed behind its events, and the provider takes status and key-value updates from
these events as from any others. So a rejected turn leaves the stored values alone exactly if its events repeat
them, and only then the limits bound what is stored.
-/

namespace Duroxide

open Provider Dispatcher Lib.Overlay Lib.Register VersionPinning

variable {semver : Semver}

namespace RejectedTurns

/-- The events of a request exceed a limit. -/
def Exceeds (item : OrchestrationItem) (request : AckRequest semver) : Prop :=
  (limitError request.historyDelta item.kvSnapshot).isSome

/-- An instance has the custom status and the key-value pairs that it had. -/
structure SameValues (before after : Store) (instanceId : String) : Prop where
  status : after.storedStatus instanceId = before.storedStatus instanceId
  values : after.kvView instanceId = before.kvView instanceId

/-- The last status among the events is the stored one, and every key that they set or clear ends with its value. -/
structure Repeats (store : Store) (instanceId : String) (historyDelta : List Event) : Prop where
  status : ∀ update ∈ customStatusFromDelta historyDelta, update = store.storedStatus instanceId
  values : ∀ key, touched (kvChanges historyDelta) key →
    applyAll (kvChanges historyDelta) (fun _ => none) key = store.kvView instanceId key

/-- What is stored of an instance respects the limits. -/
structure WithinLimits (store : Store) (instanceId : String) : Prop where
  status : ∀ status ∈ store.storedStatus instanceId, status.utf8ByteSize ≤ MAX_CUSTOM_STATUS_BYTES
  stored : ∀ key value, store.kvBase instanceId key = some value → value.utf8ByteSize ≤ MAX_KV_VALUE_BYTES
  pending : ∀ key value, store.kvOverlay instanceId key = some (some value) → value.utf8ByteSize ≤ MAX_KV_VALUE_BYTES
  keys : (getKvAllValues store instanceId).keys.length ≤ MAX_KV_KEYS

/-- The keys that the check of a turn counts, with the pending ones that it overlooks, are no more than allowed;
pending tombstones that it overlooks make room. -/
def CountsWithin (store : Store) (item : OrchestrationItem) (historyDelta : List Event) : Prop :=
  (effectiveKeys historyDelta item.kvSnapshot).length +
      (addedKeys (store.kvBase item.instanceId) (store.kvOverlay item.instanceId) (kvChanges historyDelta)
        (store.kvDelta item.instanceId).keys).length ≤
    MAX_KV_KEYS + (clearedKeys (store.kvBase item.instanceId) (store.kvOverlay item.instanceId) (kvChanges historyDelta)
      (store.kvDelta item.instanceId).keys).length

instance (store : Store) (item : OrchestrationItem) (historyDelta : List Event) :
    Decidable (CountsWithin store item historyDelta) := inferInstanceAs (Decidable (_ ≤ _))

/-- Rejected turns only repeat what is stored, and the others set no more keys than allowed. -/
structure Harmless (store : Store) (item : OrchestrationItem) (request : AckRequest semver) : Prop where
  rejected : Exceeds item request → Repeats store item.instanceId request.historyDelta
  counted : ¬ Exceeds item request → CountsWithin store item request.historyDelta

/-! ## What a limit says about the events -/

variable {historyDelta : List Event} {kvSnapshot : AList (fun _ : String => KvEntry)}

theorem limitError_eq_none : limitError historyDelta kvSnapshot = none ↔
    OthersKept historyDelta ∧ kvKeyCountError historyDelta kvSnapshot = none := by
  unfold limitError OthersKept
  cases customStatusError historyDelta <;> cases tagError historyDelta <;> cases kvValueError historyDelta <;> simp

theorem customStatusError_eq : customStatusError historyDelta =
    (lastWrite (fun event : Event => event.kind.statusUpdate.bind id) historyDelta).bind fun status =>
      if status.utf8ByteSize > MAX_CUSTOM_STATUS_BYTES then
        some (exceeds "Custom status size" status.utf8ByteSize MAX_CUSTOM_STATUS_BYTES)
      else none := by
  rw [← findSome?_reverse, customStatusError]
  congr 2
  funext event
  obtain ⟨eventId, source, owner, executionId, timestamp, crate, kind⟩ := event
  cases kind <;> rfl

/-- A delta that passes the check ends with a status of an allowed size. -/
theorem size_of_customStatusError (kept : customStatusError historyDelta = none) {status : String}
    (last : customStatusFromDelta historyDelta = some (some status)) : status.utf8ByteSize ≤ MAX_CUSTOM_STATUS_BYTES := by
  rw [customStatusFromDelta_eq] at last
  have found : lastWrite (fun event : Event => event.kind.statusUpdate.bind id) historyDelta = some status :=
    lastWrite_bind last rfl
  rw [customStatusError_eq, found] at kept
  simpa using kept

/-- A delta that passes the check sets values of an allowed size. -/
theorem size_of_kvValueError (kept : kvValueError historyDelta = none) {key value : String}
    (sets : .set key value ∈ kvChanges historyDelta) : value.utf8ByteSize ≤ MAX_KV_VALUE_BYTES := by
  obtain ⟨event, member, change⟩ := List.mem_filterMap.mp sets
  have within := List.findSome?_eq_none_iff.mp kept event member
  obtain ⟨eventId, source, owner, executionId, timestamp, crate, kind⟩ := event
  cases kind with
  | keyValueSet =>
    cases change
    simpa using within
  | _ => cases change

/-! ## What a commit leaves -/

variable {world after : World semver} {label : Step semver} {delivery : Delivery semver} {request : AckRequest semver}
  {instanceId : String} {guard : World semver → Step semver → Prop}

/-- A commit leaves the stored values alone exactly if its events repeat them. -/
theorem sameValues_iff (reached : (system semver).Reachable guard world)
    (next : (system semver).Reachable guard after)
    (commits : Commits world label delivery request instanceId after) :
    SameValues world.store after.store instanceId ↔ Repeats world.store instanceId request.historyDelta := by
  have pending : Pending ({} : Conditions semver) world := .of_reachable (reachable_unconditionally reached)
  have status := storedStatus_of_commits (.of_reachable reached) (.of_reachable next) (.of_reachable reached)
    (.of_reachable reached) pending commits
  obtain ⟨config, now, token, fault, _, holds, committed, _⟩ := commits.holds
  have values := committed.toKvMaterialized.view
  constructor
  · intro same
    constructor
    · intro update last
      rw [Option.mem_def] at last
      rw [last, Option.getD_some, same.status] at status
      exact status.symm
    · rw [same.values] at values
      exact applyAll_eq_self_iff.mp values.symm
  · intro repeats
    constructor
    · rw [status]
      cases last : customStatusFromDelta request.historyDelta with
      | none => rfl
      | some update => exact repeats.status update last
    · rw [values]
      exact applyAll_eq_self_iff.mpr repeats.values

namespace WithinLimits

theorem initial (instanceId : String) : WithinLimits ({} : World semver).store instanceId where
  status _ none := nomatch none
  stored _ _ none := nomatch none
  pending _ _ none := nomatch none
  keys := Nat.zero_le _

theorem congr {before after : Store} (within : WithinLimits before instanceId)
    (row : after.instances instanceId = before.instances instanceId)
    (stored : after.kvStore instanceId = before.kvStore instanceId)
    (written : after.kvDelta instanceId = before.kvDelta instanceId) : WithinLimits after instanceId := by
  have base : after.kvBase instanceId = before.kvBase instanceId := by
    unfold Store.kvBase
    rw [stored]
  have overlay : after.kvOverlay instanceId = before.kvOverlay instanceId := by
    unfold Store.kvOverlay
    rw [written]
  constructor
  · rw [Store.storedStatus, row]
    exact within.status
  · rw [base]
    exact within.stored
  · rw [overlay]
    exact within.pending
  · refine le_of_eq_of_le ((after.lists_kvView instanceId).length_eq (before.lists_kvView instanceId) fun key => ?_) within.keys
    rw [Store.kvView, Store.kvView, base, overlay]

/-- Everything that can be read has an allowed size. -/
theorem visible {store : Store} (within : WithinLimits store instanceId) {key value : String}
    (reads : store.kvView instanceId key = some value) : value.utf8ByteSize ≤ MAX_KV_VALUE_BYTES := by
  unfold Store.kvView view at reads
  cases written : store.kvOverlay instanceId key with
  | none =>
    rw [written, Option.getD_none] at reads
    exact within.stored key value reads
  | some entry =>
    rw [written, Option.getD_some] at reads
    exact within.pending key value (by rw [written, reads])

/-- A commit after which everything that can be read has an allowed size keeps the tables within the limits. -/
theorem of_visible {store after : Store} (within : WithinLimits store instanceId)
    (materialized : KvMaterialized instanceId request store after)
    (status : ∀ status ∈ after.storedStatus instanceId, status.utf8ByteSize ≤ MAX_CUSTOM_STATUS_BYTES)
    (values : ∀ key value, after.kvView instanceId key = some value → value.utf8ByteSize ≤ MAX_KV_VALUE_BYTES)
    (keys : (getKvAllValues after instanceId).keys.length ≤ MAX_KV_KEYS) : WithinLimits after instanceId where
  status := status
  stored key value reads := by
    rcases ends : endsExecution request with _ | _
    · unfold Store.kvBase at reads
      rw [materialized.keptKvStore ends] at reads
      exact within.stored key value reads
    · obtain ⟨overlay, _⟩ := materialized.mergedKv ends
      refine values key value ?_
      rw [Store.kvView, overlay, view_unwritten]
      exact reads
  pending key value written := values key value (view_of_written written)
  keys := keys

end WithinLimits

/-- Whoever asks for key-value changes was given the values of the instance. -/
theorem readable_of_changes (reached : (system semver).Reachable guard world)
    (commits : Commits world label delivery request instanceId after) (changes : kvChanges request.historyDelta ≠ []) :
    delivery.item.historyError = none := by
  have pending : Pending ({} : Conditions semver) world := .of_reachable (reachable_unconditionally reached)
  obtain ⟨config, now, token, fault, _, holds, _⟩ := commits.holds
  obtain ⟨fallback, failed, phase⟩ := commits.phase
  have source := (pending token delivery request fallback failed holds phase).source
  cases unreadable : delivery.item.historyError with
  | none => rfl
  | some message =>
    obtain ⟨_, failure, delta, _, kind⟩ := source.corrupted unreadable
    refine absurd ?_ changes
    rw [delta]
    exact List.filterMap_cons_none (kvChange_of_isFailed kind)

/-- The keys that are read after a commit are those that its events leave visible. -/
theorem length_keys_of_acked {store : Store} (materialized : KvMaterialized instanceId request store after.store) :
    (getKvAllValues after.store instanceId).keys.length = (store.visibleKeys instanceId request.historyDelta).length := by
  have lists := lists_keysThrough (kvChanges request.historyDelta) (store.lists_kvView instanceId)
  refine (after.store.lists_kvView instanceId).length_eq lists fun key => ?_
  rw [materialized.view]

/-- A turn that passes the check leaves no more keys than allowed, if it counts the pending ones. -/
theorem length_keys_of_counted (within : WithinLimits world.store instanceId)
    (reached : (system semver).Reachable guard world) (commits : Commits world label delivery request instanceId after)
    (counted : CountsWithin world.store delivery.item request.historyDelta) :
    (world.store.visibleKeys instanceId request.historyDelta).length ≤ MAX_KV_KEYS := by
  have coherent : Coherent world := .of_reachable reached
  have readable := readable_of_changes reached commits
  obtain ⟨config, now, token, fault, _, holds, committed, _⟩ := commits.holds
  obtain ⟨rfl, _⟩ := coherent.of_locked committed.locked holds
  by_cases changes : kvChanges request.historyDelta = []
  · rw [Store.visibleKeys, changes]
    exact within.keys
  · have counts := effectiveKeys_length reached holds committed.locked (readable changes) request.historyDelta
    unfold CountsWithin at counted
    omega

/-- A commit that is harmless keeps its instance within the limits. -/
theorem within_of_commits (within : WithinLimits world.store instanceId) (reached : (system semver).Reachable guard world)
    (next : (system semver).Reachable guard after) (commits : Commits world label delivery request instanceId after)
    (harmless : Harmless world.store delivery.item request) : WithinLimits after.store instanceId := by
  have coherent : Coherent world := .of_reachable reached
  have pending : Pending ({} : Conditions semver) world := .of_reachable (reachable_unconditionally reached)
  have status := storedStatus_of_commits (.of_reachable reached) (.of_reachable next) (.of_reachable reached)
    coherent pending commits
  have repeated := sameValues_iff reached next commits
  have counted := length_keys_of_counted within reached commits
  obtain ⟨config, now, token, fault, _, holds, committed, _⟩ := commits.holds
  obtain ⟨rfl, _⟩ := coherent.of_locked committed.locked holds
  have materialized := committed.toKvMaterialized
  by_cases exceeds : Exceeds delivery.item request
  · have same := repeated.mpr (harmless.rejected exceeds)
    apply within.of_visible materialized
    · rw [same.status]
      exact within.status
    · rw [same.values]
      exact fun _ _ => within.visible
    · refine le_of_eq_of_le ?_ within.keys
      refine (after.store.lists_kvView _).length_eq (world.store.lists_kvView _) fun key => ?_
      rw [same.values]
  · have passed : limitError request.historyDelta delivery.item.kvSnapshot = none := by simpa [Exceeds] using exceeds
    obtain ⟨⟨statusKept, _, valuesKept⟩, _⟩ := limitError_eq_none.mp passed
    apply within.of_visible materialized
    · rw [status]
      intro text stored
      cases last : customStatusFromDelta request.historyDelta with
      | none =>
        rw [last] at stored
        exact within.status text stored
      | some update =>
        rw [last, Option.getD_some, Option.mem_def] at stored
        exact size_of_customStatusError statusKept (last.trans (congrArg some stored))
    · rw [materialized.view]
      intro key value reads
      rcases set_of_applyAll reads with sets | before
      · exact size_of_kvValueError valuesKept sets
      · exact within.visible before
    · rw [length_keys_of_acked materialized]
      exact counted (harmless.counted exceeds)

/-! ## Runs -/

/-- Rejected turns only repeat what is stored, and the others set no more keys than allowed. -/
def conditions (semver : Semver) : Conditions semver where
  commit := Harmless

theorem within_of_guarded (reached : (system semver).Reachable (conditions semver).guard world) (instanceId : String) :
    WithinLimits world.store instanceId := by
  induction reached with
  | initial start => exact start ▸ .initial instanceId
  | @step world after label reached allowed taken ih =>
    have next : (system semver).Reachable (conditions semver).guard after := .step reached allowed taken
    rcases (World.step_effect taken).records with same | ⟨delivery, request, acked, commits⟩
    · exact ih.congr (by rw [same.instances]) (by rw [same.kvStore]) (by rw [same.kvDelta])
    · by_cases own : instanceId = acked
      · subst own
        exact within_of_commits ih reached next commits (commits.allowed (.of_reachable reached) allowed).2
      · obtain ⟨config, now, token, fault, _, holds, committed, _⟩ := commits.holds
        exact ih.congr (committed.otherInstances instanceId own) (committed.foreignKvStore instanceId own)
          (committed.foreignKvDelta instanceId own)

/-- In every run, a rejected turn leaves the stored values alone exactly if its events repeat them; and if all rejected
turns do, and no other turn sets more keys than allowed, all stored values respect the limits. -/
theorem rejected_leaves_iff (reached : (system semver).Reachable guard world) :
    (∀ label after delivery request instanceId, world.step label = some after →
      Commits world label delivery request instanceId after → Exceeds delivery.item request →
        (SameValues world.store after.store instanceId ↔ Repeats world.store instanceId request.historyDelta)) ∧
      ((system semver).Reachable (conditions semver).guard world →
        ∀ instanceId, WithinLimits world.store instanceId) := by
  have anyhow : (system semver).Reachable (fun _ _ => True) world := reached.mono fun _ _ _ => trivial
  refine ⟨?_, within_of_guarded⟩
  intro label after delivery request instanceId taken commits _
  exact sameValues_iff anyhow (.step anyhow trivial taken) commits

/-- A test that implies the conditions: only turns that record no values are acknowledged. -/
def passes (world : World semver) : Step semver → Bool
  | .ack _ _ token _ => (world.deliveries token).all fun delivery =>
      match delivery.phase with
      | .acking request _ _ => (kvChanges request.historyDelta).isEmpty && (customStatusFromDelta request.historyDelta).isNone &&
          decide (CountsWithin world.store delivery.item request.historyDelta)
      | _ => true
  | _ => true

theorem guard_of_passes (world : World semver) (label : Step semver) (tested : passes world label) :
    (conditions semver).guard world label := by
  cases label with
  | decide => exact fun _ _ => trivial
  | failTurn => exact fun _ _ => trivial
  | ack config now token fault =>
    intro delivery request fallback failed holds phase locked
    simp only [passes, holds, phase, Option.all_some, Bool.and_eq_true, List.isEmpty_iff, Option.isNone_iff_eq_none,
      decide_eq_true_eq] at tested
    obtain ⟨⟨changes, status⟩, counted⟩ := tested
    refine ⟨fun _ => ⟨?_, ?_⟩, fun _ => counted⟩
    · simp [status]
    · simp [changes, touched]
  | client | fetch | abandon | renew | fetchWork | renewWork | completeWork | dropWork | abandonWork => trivial

/-! An orchestration schedules an activity with a tag that is too long. -/

def longTag : String := String.ofList (List.replicate (MAX_TAG_NAME_BYTES + 1) 'x')

/-- With an input it also sets its status and a key. -/
def taggingHandler : OrchestrationHandler where
  State := Option String
  invoke := some
  poll
    | none => .suspend none
    | some "" => .call (.scheduleActivity "work" "" none) fun token => .call (.withTag token longTag) fun _ => .suspend none
    | some _ => .call (.setCustomStatus "busy") fun _ => .call (.setKvValue "key" "value") fun _ =>
        .call (.scheduleActivity "work" "" none) fun token => .call (.withTag token longTag) fun _ => .suspend none

def taggingEnv : RuntimeEnv textSemver :=
  registeredEnv fun name => if name = "tagging" then some taggingHandler else none

/-- The first turn of the instance is decided. -/
def tagged (input : String) : List (Step textSemver) :=
  [.client 0 (.startOrchestration "i" "tagging" input none none none 1), .fetch {} none 0 1000 1 none,
    .decide 1 taggingEnv]

/-- An acknowledgement that changes what is stored committed. -/
theorem commits_of_ack {config : ProviderConfig} {now token : Nat} {fault : Fault}
    {fallback : Option (ProviderError → AckRequest semver)} {failed : Option ProviderError}
    (holds : world.deliveries token = some delivery) (phase : delivery.phase = .acking request fallback failed)
    (locked : world.store.lockedInstance token = some instanceId)
    (taken : world.step (.ack config now token fault) = some after)
    (changed : after.store.instances instanceId ≠ world.store.instances instanceId) :
    Commits world (.ack config now token fault) delivery request instanceId after := by
  rcases (World.step_effect taken).records with same | ⟨other, asked, acked, commits⟩
  · exact absurd (by rw [same.instances]) changed
  · obtain ⟨config', now', token', fault', label, held, committed, _⟩ := commits.holds
    obtain ⟨fallback', failed', acking⟩ := commits.phase
    cases label
    cases holds.symm.trans held
    cases locked.symm.trans committed.locked
    cases phase.symm.trans acking
    exact commits

/-- The first turn of an instance is about to be acknowledged as failed for a limit. -/
def rejects (world : World textSemver) : Bool :=
  (world.store.instances "i").isNone && (world.deliveries 1).any fun delivery =>
    world.store.lockedInstance 1 == some "i" &&
    match delivery.phase with
    | .acking request _ _ => (limitError request.historyDelta delivery.item.kvSnapshot).isSome
    | _ => false

theorem commits_of_rejects {world : World textSemver} (pending : rejects world) {after : World textSemver}
    (taken : world.step (.ack {} 0 1 none) = some after)
    (row : (after.store.instances "i").isSome) :
    ∃ delivery request, Commits world (.ack {} 0 1 none) delivery request "i" after ∧ Exceeds delivery.item request := by
  rw [rejects, Bool.and_eq_true, Option.isNone_iff_eq_none] at pending
  obtain ⟨new, pending⟩ := pending
  obtain ⟨delivery, holds, facts⟩ := (Option.any_eq_true _ _).mp pending
  rw [Bool.and_eq_true, beq_iff_eq] at facts
  obtain ⟨locked, facts⟩ := facts
  split at facts
  · rename_i request fallback failed phase
    refine ⟨delivery, request, commits_of_ack holds phase locked taken fun same => ?_, facts⟩
    rw [same, new] at row
    cases row
  · cases facts

theorem rejected_leaves_iff_tagged : ∃ world after delivery request,
    World.runTested passes {} (tagged "") = some world ∧ world.step (.ack {} 0 1 none) = some after ∧
      Commits world (.ack {} 0 1 none) delivery request "i" after ∧ Exceeds delivery.item request ∧
      (SameValues world.store after.store "i" ↔ Repeats world.store "i" request.historyDelta) ∧
      ∀ instanceId, WithinLimits world.store instanceId := by
  have ran : (World.runTested passes {} (tagged "")).any (fun world => rejects world &&
      (world.step (.ack {} 0 1 none)).any fun after => (after.store.instances "i").isSome) = true := by
    decide +kernel
  obtain ⟨world, tested, facts⟩ := (Option.any_eq_true _ _).mp ran
  rw [Bool.and_eq_true] at facts
  obtain ⟨after, taken, row⟩ := (Option.any_eq_true _ _).mp facts.2
  obtain ⟨delivery, request, commits, exceeds⟩ := commits_of_rejects facts.1 taken row
  have reached := World.reachable_of_runTested guard_of_passes (.initial rfl) tested
  obtain ⟨leaves, within⟩ := rejected_leaves_iff reached
  exact ⟨world, after, delivery, request, tested, taken, commits, exceeds, leaves _ _ _ _ _ taken commits exceeds,
    within reached⟩

/-- A turn that is failed for the length of a tag still sets the status and the key. -/
theorem taggedBusy_stored : ∃ world after delivery request, World.run {} (tagged "busy") = some world ∧
    world.step (.ack {} 0 1 none) = some after ∧ Commits world (.ack {} 0 1 none) delivery request "i" after ∧
    Exceeds delivery.item request ∧ after.store.storedStatus "i" = some "busy" ∧
    after.store.kvView "i" "key" = some "value" ∧ ¬ SameValues world.store after.store "i" := by
  have ran : (World.run {} (tagged "busy")).any (fun world => rejects world &&
      (world.step (.ack {} 0 1 none)).any fun after =>
        (after.store.instances "i").isSome && after.store.storedStatus "i" == some "busy" &&
        after.store.kvView "i" "key" == some "value") = true := by
    decide +kernel
  obtain ⟨world, tested, facts⟩ := (Option.any_eq_true _ _).mp ran
  rw [Bool.and_eq_true] at facts
  obtain ⟨after, taken, seen⟩ := (Option.any_eq_true _ _).mp facts.2
  simp only [Bool.and_eq_true, beq_iff_eq] at seen
  obtain ⟨⟨row, busy⟩, value⟩ := seen
  obtain ⟨delivery, request, commits, exceeds⟩ := commits_of_rejects facts.1 taken row
  refine ⟨world, after, delivery, request, tested, taken, commits, exceeds, busy, value, fun same => ?_⟩
  have new : world.store.instances "i" = none := by
    have pending := facts.1
    rw [rejects, Bool.and_eq_true, Option.isNone_iff_eq_none] at pending
    exact pending.1
  have kept := same.status
  rw [busy, Store.storedStatus, new] at kept
  cases kept

end RejectedTurns

end Duroxide
