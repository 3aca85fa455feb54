import Duroxide.Model.DispatchLoop

/-! # Backoffs of an outage

The power of a backoff is computed before its cap applies, so the time is the intended one only while the product
fits 64 bits. From the 58th consecutive error on it overflows: a debug build panics, and a release build waits for what
is left of the product, which is nothing from the 62nd error on.
-/

namespace Duroxide.DispatchLoop

/-- The backoffs of a loop as they should be: computed without overflow, positive, capped and growing with the count. -/
structure SafeBackoffs (backoffs : List Backoff) : Prop where
  fits : ∀ backoff ∈ backoffs, 100 * 2 ^ backoff.consecutiveRetryableErrors < 2 ^ 64
  bounded : ∀ backoff ∈ backoffs, ∃ delayMs, backoff.delayMs = some delayMs ∧ 0 < delayMs ∧ delayMs ≤ 3000
  growing : ∀ first ∈ backoffs, ∀ second ∈ backoffs,
    first.consecutiveRetryableErrors ≤ second.consecutiveRetryableErrors →
    ∀ firstMs ∈ first.delayMs, ∀ secondMs ∈ second.delayMs, firstMs ≤ secondMs

/-- The same of the backoff for an unregistered orchestration or activity, with its configured bounds. -/
structure SafeUnregistered (config : UnregisteredBackoffConfig) : Prop where
  fits : ∀ attemptCount, 2 ^ min (attemptCount - 1) MAX_BACKOFF_EXPONENT < 2 ^ 32
  capped : ∀ attemptCount, config.delay attemptCount ≤ config.maxDelayMs
  positive : 0 < config.baseDelayMs → 0 < config.maxDelayMs → ∀ attemptCount, 0 < config.delay attemptCount
  growing : ∀ first second, first ≤ second → config.delay first ≤ config.delay second

/-- The most retryable errors in a row, some of them before the list. -/
def longestOutage : Nat → List FetchResult → Nat
  | _, [] => 0
  | errors, .retryableError :: rest => max (errors + 1) (longestOutage (errors + 1) rest)
  | _, _ :: rest => longestOutage 0 rest

theorem unsigned_of_fits (mode : OverflowMode) {bits exact : Nat} (fits : exact < 2 ^ bits) :
    unsigned mode bits exact = some exact := if_pos fits

/-! ## One backoff -/

theorem product_fits_iff (errors : Nat) : 100 * 2 ^ errors < 2 ^ 64 ↔ errors ≤ 57 := by
  constructor
  · intro fits
    by_contra above
    have larger : 2 ^ 58 ≤ 2 ^ errors := Nat.pow_le_pow_right (by decide) (by omega)
    omega
  · intro below
    have smaller : 2 ^ errors ≤ 2 ^ 57 := Nat.pow_le_pow_right (by decide) below
    omega

theorem backoffMs_of_fits (mode : OverflowMode) {errors : Nat} (fits : 100 * 2 ^ errors < 2 ^ 64) :
    backoffMs mode errors = some (min (100 * 2 ^ errors) 3000) := by
  have power : 2 ^ errors < 2 ^ 64 := by omega
  simp only [backoffMs, unsigned_of_fits mode power, unsigned_of_fits mode fits, Option.bind_eq_bind, Option.bind_some]
  rfl

/-- A backoff that is what the formula says. -/
structure Intended (backoff : Backoff) : Prop where
  fits : 100 * 2 ^ backoff.consecutiveRetryableErrors < 2 ^ 64
  delayMs : backoff.delayMs = some (min (100 * 2 ^ backoff.consecutiveRetryableErrors) 3000)

theorem safeBackoffs_of_intended {backoffs : List Backoff} (intended : ∀ backoff ∈ backoffs, Intended backoff) :
    SafeBackoffs backoffs where
  fits backoff member := (intended backoff member).fits
  bounded backoff member := by
    refine ⟨_, (intended backoff member).delayMs, ?_, min_le_right ..⟩
    have positive : 0 < 2 ^ backoff.consecutiveRetryableErrors := Nat.pow_pos (by decide)
    omega
  growing first firstMember second secondMember ordered firstMs firstHas secondMs secondHas := by
    rw [(intended first firstMember).delayMs] at firstHas
    rw [(intended second secondMember).delayMs] at secondHas
    obtain rfl := Option.some.inj firstHas
    obtain rfl := Option.some.inj secondHas
    have powers : 2 ^ first.consecutiveRetryableErrors ≤ 2 ^ second.consecutiveRetryableErrors :=
      Nat.pow_le_pow_right (by decide) ordered
    omega

/-! ## A run of the loop -/

/-- A retryable error within an outage of 57 backs off as intended, and the loop goes on. -/
theorem dispatchLoop_retryableError (mode : OverflowMode) {errors : Nat} (short : errors + 1 ≤ 57)
    (rest : List FetchResult) : ∃ backoff, Intended backoff ∧
      dispatchLoop mode errors (.retryableError :: rest) = backoff :: dispatchLoop mode (errors + 1) rest := by
  have fits := (product_fits_iff (errors + 1)).mpr short
  refine ⟨⟨errors + 1, some (min (100 * 2 ^ (errors + 1)) 3000)⟩, ⟨fits, rfl⟩, ?_⟩
  simp only [dispatchLoop, unsigned_of_fits mode (show errors + 1 < 2 ^ 32 by omega), backoffMs_of_fits mode fits]

/-- Within outages of 57 every backoff is as intended. -/
theorem intended_of_longestOutage (mode : OverflowMode) {errors : Nat} {results : List FetchResult}
    (short : longestOutage errors results ≤ 57) : ∀ backoff ∈ dispatchLoop mode errors results, Intended backoff := by
  induction results generalizing errors with
  | nil => simp [dispatchLoop]
  | cons result rest ih =>
    cases result with
    | retryableError =>
      obtain ⟨here, later⟩ := max_le_iff.mp short
      obtain ⟨backoff, intended, continues⟩ := dispatchLoop_retryableError mode here rest
      rw [continues]
      exact List.forall_mem_cons.mpr ⟨intended, ih later⟩
    | _ => exact ih short

/-- The count of an error beyond an outage of 57 does not fit. -/
theorem longestOutage_of_fits (mode : OverflowMode) {errors : Nat} {results : List FetchResult} (start : errors ≤ 57)
    (fits : ∀ backoff ∈ dispatchLoop mode errors results, 100 * 2 ^ backoff.consecutiveRetryableErrors < 2 ^ 64) :
    longestOutage errors results ≤ 57 := by
  induction results generalizing errors with
  | nil => exact Nat.zero_le _
  | cons result rest ih =>
    cases result with
    | retryableError =>
      by_cases short : errors + 1 ≤ 57
      · obtain ⟨backoff, _, continues⟩ := dispatchLoop_retryableError mode short rest
        rw [continues] at fits
        exact max_le short (ih short (List.forall_mem_cons.mp fits).2)
      · -- The 58th error in a row is backed off from a count that does not fit.
        have counted : ∃ backoff ∈ dispatchLoop mode errors (.retryableError :: rest),
            backoff.consecutiveRetryableErrors = errors + 1 := by
          simp only [dispatchLoop, unsigned_of_fits mode (show errors + 1 < 2 ^ 32 by omega)]
          split
          · exact ⟨_, List.mem_singleton_self _, rfl⟩
          · exact ⟨_, List.mem_cons_self, rfl⟩
        obtain ⟨backoff, member, count⟩ := counted
        have below := fits backoff member
        rw [count, product_fits_iff] at below
        exact absurd below short
    | _ => exact ih (Nat.zero_le _) fits

/-! ## Unregistered work -/

theorem safeUnregistered (config : UnregisteredBackoffConfig) : SafeUnregistered config where
  fits attemptCount := Nat.pow_lt_pow_right (by decide) (by unfold MAX_BACKOFF_EXPONENT; omega)
  capped attemptCount := min_le_right ..
  positive base cap attemptCount := lt_min (Nat.mul_pos base (Nat.pow_pos (by decide))) cap
  growing first second ordered := by
    have powers : 2 ^ min (first - 1) MAX_BACKOFF_EXPONENT ≤ 2 ^ min (second - 1) MAX_BACKOFF_EXPONENT :=
      Nat.pow_le_pow_right (by decide) (by omega)
    exact min_le_min_right _ (Nat.mul_le_mul_left _ powers)

/-- The backoffs of a loop are safe exactly if no outage is longer than 57 errors; those for unregistered work always
are. -/
theorem safeBackoffs_iff (mode : OverflowMode) (results : List FetchResult) :
    (SafeBackoffs (dispatchLoop mode 0 results) ∧ ∀ config, SafeUnregistered config) ↔ longestOutage 0 results ≤ 57 := by
  constructor
  · exact fun safe => longestOutage_of_fits mode (Nat.zero_le _) safe.1.fits
  · exact fun short => ⟨safeBackoffs_of_intended (intended_of_longestOutage mode short), safeUnregistered⟩

/-- The 58th error in a row panics, or the 62nd does not wait. -/
theorem outage_notSafe :
    ⟨58, none⟩ ∈ dispatchLoop .panics 0 (List.replicate 58 .retryableError) ∧
      ⟨62, some 0⟩ ∈ dispatchLoop .wraps 0 (List.replicate 62 .retryableError) ∧
      ¬ SafeBackoffs (dispatchLoop .panics 0 (List.replicate 58 .retryableError)) ∧
      ¬ SafeBackoffs (dispatchLoop .wraps 0 (List.replicate 62 .retryableError)) := by
  have panicked : ⟨58, none⟩ ∈ dispatchLoop .panics 0 (List.replicate 58 .retryableError) := by decide +kernel
  have unwaited : ⟨62, some 0⟩ ∈ dispatchLoop .wraps 0 (List.replicate 62 .retryableError) := by decide +kernel
  refine ⟨panicked, unwaited, ?_, ?_⟩
  · intro safe
    obtain ⟨_, none, _⟩ := safe.bounded _ panicked
    cases none
  · intro safe
    obtain ⟨delayMs, waited, positive, _⟩ := safe.bounded _ unwaited
    obtain rfl := Option.some.inj waited
    exact absurd positive (lt_irrefl 0)

end Duroxide.DispatchLoop
