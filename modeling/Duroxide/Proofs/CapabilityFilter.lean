import Duroxide.Proofs.ProviderCalls

/-! # The capability filter of a fetch

The query of a fetch compares three numbers packed into one, and only with the first range of the filter. Packing keeps
the order of versions whose minor and patch numbers stay below 1000, so the query accepts what the first range contains,
unless a version and a bound share their numbers and differ in what the packing drops.
-/

namespace Duroxide.CapabilityFilter

open Provider

/-- The numbers of a version. -/
def numbersOf (semver : Semver) (version : semver.Version) : Nat × Nat × Nat :=
  (semver.major version, semver.minor version, semver.patch version)

/-- Number by number. -/
def Precedes (left right : Nat × Nat × Nat) : Prop :=
  left.1 < right.1 ∨ left.1 = right.1 ∧ (left.2.1 < right.2.1 ∨ left.2.1 = right.2.1 ∧ left.2.2 < right.2.2)

/-- The `semver` package orders versions by their numbers first. -/
structure ComparesNumbers (semver : Semver) : Prop where
  le_iff : ∀ left right : semver.Version, numbersOf semver left ≠ numbersOf semver right →
    (semver.le left right ↔ Precedes (numbersOf semver left) (numbersOf semver right))

theorem comparesNumbers_textSemver : ComparesNumbers textSemver := by
  constructor
  intro left right differ
  change versionLe left right ↔ Precedes (versionNumbers left) (versionNumbers right)
  have differ : versionNumbers left ≠ versionNumbers right := differ
  unfold versionLe Precedes
  generalize versionNumbers left = leftNumbers at differ ⊢
  generalize versionNumbers right = rightNumbers at differ ⊢
  obtain ⟨major, minor, patch⟩ := leftNumbers
  obtain ⟨otherMajor, otherMinor, otherPatch⟩ := rightNumbers
  simp only [ne_eq, Prod.mk.injEq, ite_not] at differ ⊢
  split_ifs with sameMajor sameMinor samePatch
  · exact absurd ⟨sameMajor, sameMinor, samePatch⟩ differ
  all_goals
    simp only [decide_eq_true_eq]
    omega

/-! ## Packing -/

/-- Minor and patch numbers below the base, and a packed number that an `i64` holds. -/
structure Packable (version : Nat × Nat × Nat) : Prop where
  minor : version.2.1 < 1000
  patch : version.2.2 < 1000
  fits : Store.packVersion version < 2 ^ 63

/-- Arithmetic of 64 bits wraps around. -/
def wrapped (value : Int) : Int := Int.bmod value (2 ^ 64)

/-- What the provider computes: each number cast, multiplied and added in 64 bits. -/
def packedI64 (version : Nat × Nat × Nat) : Int :=
  wrapped (wrapped (wrapped (asI64 version.1 * 1000000) + wrapped (asI64 version.2.1 * 1000)) + asI64 version.2.2)

theorem wrapped_of_small {value : Nat} (small : value < 2 ^ 63) : wrapped value = value := asI64_of_small small

theorem wrapped_mul_of_small {value base : Nat} (small : value * base < 2 ^ 63) :
    wrapped ((value : Int) * (base : Int)) = ((value * base : Nat) : Int) := by
  rw [← Int.natCast_mul]
  exact wrapped_of_small small

theorem wrapped_add_of_small {left right : Nat} (small : left + right < 2 ^ 63) :
    wrapped ((left : Int) + (right : Int)) = ((left + right : Nat) : Int) := by
  rw [← Int.natCast_add]
  exact wrapped_of_small small

/-- A packable version is packed without overflow. -/
theorem packedI64_of_packable {version : Nat × Nat × Nat} (packable : Packable version) :
    packedI64 version = Store.packVersion version := by
  obtain ⟨major, minor, patch⟩ := version
  have fits : major * 1000000 + minor * 1000 + patch < 2 ^ 63 := packable.fits
  have small : ∀ value, value ≤ major * 1000000 + minor * 1000 + patch → value < 2 ^ 63 :=
    fun value below => lt_of_le_of_lt below fits
  have majorPart : wrapped (asI64 major * 1000000) = ((major * 1000000 : Nat) : Int) := by
    rw [asI64_of_small (small major (by omega))]
    exact wrapped_mul_of_small (small (major * 1000000) (by omega))
  have minorPart : wrapped (asI64 minor * 1000) = ((minor * 1000 : Nat) : Int) := by
    rw [asI64_of_small (small minor (by omega))]
    exact wrapped_mul_of_small (small (minor * 1000) (by omega))
  rw [packedI64, majorPart, minorPart, asI64_of_small (small patch (by omega)), wrapped_add_of_small (small _ (by omega))]
  exact wrapped_add_of_small fits

/-- Packing keeps the order of the numbers. -/
theorem packVersion_le_iff {left right : Nat × Nat × Nat} (packedLeft : Packable left) (packedRight : Packable right) :
    Store.packVersion left ≤ Store.packVersion right ↔ left = right ∨ Precedes left right := by
  obtain ⟨leftMinor, leftPatch, _⟩ := packedLeft
  obtain ⟨rightMinor, rightPatch, _⟩ := packedRight
  unfold Store.packVersion Precedes
  rw [Prod.ext_iff, Prod.ext_iff]
  omega

variable {semver : Semver}

/-- A comparison of packed numbers is one of versions, if equal numbers mean no more. -/
theorem packVersion_le_iff_le (order : ComparesNumbers semver) {left right : semver.Version}
    (packedLeft : Packable (numbersOf semver left)) (packedRight : Packable (numbersOf semver right))
    (bound : numbersOf semver left = numbersOf semver right → semver.le left right) :
    Store.packVersion (numbersOf semver left) ≤ Store.packVersion (numbersOf semver right) ↔ semver.le left right := by
  rw [packVersion_le_iff packedLeft packedRight]
  by_cases same : numbersOf semver left = numbersOf semver right
  · exact iff_of_true (.inl same) (bound same)
  · rw [order.le_iff left right same, or_iff_right same]

/-! ## The query -/

/-- The store after an acknowledgement has pinned a version. -/
def pinVersion (store : Store) (instanceId : String) (executionId : Nat) (pinned : semver.Version) : Store :=
  (store.ensureExecution instanceId executionId).updateExecution instanceId executionId fun row =>
    { row with duroxideVersion := some (semver.major pinned, semver.minor pinned, semver.patch pinned) }

theorem pinnedDuroxideVersion_pinVersion {store : Store} {instanceId : String} {info : InstanceRow}
    (known : store.instances instanceId = some info) (pinned : semver.Version) :
    (pinVersion store instanceId info.currentExecutionId pinned).pinnedDuroxideVersion instanceId =
      some (numbersOf semver pinned) := by
  obtain ⟨row, ensured⟩ : ∃ row,
      ((store.ensureExecution instanceId info.currentExecutionId).executions instanceId).lookup info.currentExecutionId =
        some row := by
    simp only [Store.ensureExecution, Store.updateExecutions, Function.update_self]
    split_ifs with present
    · exact Option.isSome_iff_exists.mp present
    · exact ⟨{}, AList.lookup_insert _⟩
  have kept : (pinVersion store instanceId info.currentExecutionId pinned).instances instanceId = some info := known
  simp only [Store.pinnedDuroxideVersion, kept, Option.bind_eq_bind, Option.bind_some]
  simp only [pinVersion, Store.updateExecution, ensured, Store.updateExecutions, Function.update_self, AList.lookup_insert,
    Option.bind_some]
  rfl

/-- What the packing of a range and a version keeps: all numbers are packable, and a version with the numbers of a bound
is within that bound. -/
structure Kept (range : SemverRange semver) (version : semver.Version) : Prop where
  packable : Packable (numbersOf semver version)
  packableMin : Packable (numbersOf semver range.min)
  packableMax : Packable (numbersOf semver range.max)
  atMin : numbersOf semver range.min = numbersOf semver version → semver.le range.min version
  atMax : numbersOf semver version = numbersOf semver range.max → semver.le version range.max

/-- The query accepts an execution exactly if the first range contains its version. -/
theorem supportsInstance_eq_contains (order : ComparesNumbers semver) {range : SemverRange semver}
    {rest : List (SemverRange semver)} {version : semver.Version} (kept : Kept range version) {store : Store}
    {instanceId : String} (pinned : store.pinnedDuroxideVersion instanceId = some (numbersOf semver version)) :
    store.supportsInstance ((range :: rest).head?.map packRange) instanceId = range.contains version := by
  have low := packVersion_le_iff_le order kept.packableMin kept.packable kept.atMin
  have high := packVersion_le_iff_le order kept.packable kept.packableMax kept.atMax
  rw [Bool.eq_iff_iff]
  simp only [Store.supportsInstance, List.head?_cons, Option.map_some, pinned, SemverRange.contains, Bool.and_eq_true,
    decide_eq_true_eq]
  exact and_congr low high

/-- The query agrees with the filter exactly if no later range contains what the first does not. -/
theorem supportsInstance_eq_isCompatible_iff (order : ComparesNumbers semver) {range : SemverRange semver}
    {rest : List (SemverRange semver)} {version : semver.Version} (kept : Kept range version) {store : Store}
    {instanceId : String} (pinned : store.pinnedDuroxideVersion instanceId = some (numbersOf semver version)) :
    store.supportsInstance ((range :: rest).head?.map packRange) instanceId = range.contains version ∧
      (store.supportsInstance ((range :: rest).head?.map packRange) instanceId = isCompatible (range :: rest) version ↔
        ∀ later ∈ rest, later.contains version → range.contains version) := by
  have first : store.supportsInstance ((range :: rest).head?.map packRange) instanceId = range.contains version :=
    supportsInstance_eq_contains order kept pinned
  refine ⟨first, ?_⟩
  rw [first, isCompatible, List.any_cons]
  cases range.contains version with
  | true => simp
  | false =>
    simp only [Bool.false_or, Bool.false_eq_true, imp_false]
    rw [eq_comm, List.any_eq_false]

/-! An instance whose execution is pinned. -/

def pinnedAt (version : String) : Store :=
  let instances := fun instanceId => if instanceId = "i" then
    some { orchestrationName := "orch", orchestrationVersion := none, currentExecutionId := 1, parentInstanceId := none }
  else none
  @pinVersion textSemver { instances } "i" 1 version

theorem pinnedAt_pinned (version : String) :
    (pinnedAt version).pinnedDuroxideVersion "i" = some (numbersOf textSemver version) :=
  @pinnedDuroxideVersion_pinVersion textSemver _ "i"
    { orchestrationName := "orch", orchestrationVersion := none, currentExecutionId := 1, parentInstanceId := none } rfl version

/-- The query on an execution that is pinned to a version. -/
def queryAccepts (supported : List (SemverRange textSemver)) (version : String) : Bool :=
  (pinnedAt version).supportsInstance (supported.head?.map packRange) "i"

theorem queryAccepts_eq (range : SemverRange textSemver) (rest : List (SemverRange textSemver)) (version : String) :
    queryAccepts (range :: rest) version =
      (Store.packVersion (versionNumbers range.min) ≤ Store.packVersion (versionNumbers version) &&
        Store.packVersion (versionNumbers version) ≤ Store.packVersion (versionNumbers range.max)) := by
  simp only [queryAccepts, Store.supportsInstance, pinnedAt_pinned, List.head?_cons, Option.map_some]
  rfl

/-- A release within the only range of a filter. -/
theorem supportsInstance_eq_isCompatible_release :
    (pinnedAt "1.2.3").supportsInstance (([⟨"1.0.0", "1.5.0"⟩].head? : Option (SemverRange textSemver)).map packRange) "i" =
      isCompatible ([⟨"1.0.0", "1.5.0"⟩] : List (SemverRange textSemver)) "1.2.3" := by
  have kept : Kept (⟨"1.0.0", "1.5.0"⟩ : SemverRange textSemver) "1.2.3" :=
    ⟨⟨by decide, by decide, by decide⟩, ⟨by decide, by decide, by decide⟩, ⟨by decide, by decide, by decide⟩, by decide,
      by decide⟩
  exact (supportsInstance_eq_isCompatible_iff comparesNumbers_textSemver kept (pinnedAt_pinned _)).2.mpr (by simp)

/-- The query and the filter differ over a second range, over a minor number of 1000, and over a pre-release. -/
theorem queryAccepts_ne_isCompatible :
    queryAccepts [⟨"1.0.0", "1.5.0"⟩, ⟨"3.0.0", "3.5.0"⟩] "3.0.0" = false ∧
      @isCompatible textSemver [⟨"1.0.0", "1.5.0"⟩, ⟨"3.0.0", "3.5.0"⟩] "3.0.0" = true ∧
      queryAccepts [⟨"1.0.0", "1.5.0"⟩] "0.1000.0" = true ∧
      @isCompatible textSemver [⟨"1.0.0", "1.5.0"⟩] "0.1000.0" = false ∧
      queryAccepts [⟨"1.0.0", "1.5.0"⟩] "1.0.0-alpha" = true ∧
      @isCompatible textSemver [⟨"1.0.0", "1.5.0"⟩] "1.0.0-alpha" = false := by
  simp only [queryAccepts_eq]
  decide

end Duroxide.CapabilityFilter
