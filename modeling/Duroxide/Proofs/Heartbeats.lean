import Duroxide.Model.Heartbeats
import Duroxide.Proofs.WorkerCalls
import Mathlib.Tactic.Linarith

/-! # Heartbeats and leases

A heartbeat keeps a lease when its interval, rounded up to milliseconds, is shorter than the lease, rounded
down. The intervals are at least a second, and below 15 seconds they are whole seconds, while the timeouts
can be shorter than that, and the check of the options compares the idle timeout with another interval. So
the options decide which leases are kept: on the ones that satisfy a condition in closed form all of them,
in every run, and on the others there is a run that loses one.
-/

namespace Duroxide

/-! ## The interval -/

/-- Whole seconds at least half as long as a timeout. -/
theorem half_le_iff {timeout seconds : Nat} (positive : 0 < seconds) :
    (max ⌈((timeout : ℚ) / SECOND) * (1 / 2)⌉ 1).toNat ≤ seconds ↔ timeout ≤ 2 * (seconds * SECOND) := by
  rw [Int.toNat_le, max_le_iff, and_iff_left (by omega), Int.ceil_le]
  have unit : (0 : ℚ) < SECOND := by norm_num [SECOND]
  rw [Int.cast_natCast, mul_one_div, div_le_iff₀ two_pos, div_le_iff₀ unit]
  constructor
  · intro le
    have : ((timeout : Nat) : ℚ) ≤ ((2 * (seconds * SECOND) : Nat) : ℚ) := by push_cast; linarith
    exact_mod_cast this
  · intro le
    have : ((timeout : Nat) : ℚ) ≤ ((2 * (seconds * SECOND) : Nat) : ℚ) := by exact_mod_cast le
    push_cast at this
    linarith

/-- What bounds the renewal interval: from 15 seconds on a second, and what the buffer leaves of the timeout; below, a
whole number of seconds, of which two make up the timeout. -/
structure IntervalWithin (lockTimeout buffer : Duration) (bound : Int) : Prop where
  long : 15 * SECOND ≤ lockTimeout.asNanos → SECOND ≤ bound ∧ lockTimeout.asNanos ≤ buffer.asNanos + bound
  short : lockTimeout.asNanos < 15 * SECOND →
    ∃ seconds : Nat, 0 < seconds ∧ lockTimeout.asNanos ≤ 2 * (seconds * SECOND) ∧ (seconds * SECOND : Nat) ≤ bound

theorem calculateRenewalInterval_le_iff (lockTimeout buffer : Duration) (bound : Int) :
    (calculateRenewalInterval lockTimeout buffer : Int) ≤ bound ↔ IntervalWithin lockTimeout buffer bound := by
  unfold calculateRenewalInterval
  split_ifs with long
  · have sub : checkedSub lockTimeout.asNanos (min buffer.asNanos lockTimeout.asNanos) =
        some (lockTimeout.asNanos - min buffer.asNanos lockTimeout.asNanos) := if_pos (Nat.min_le_right _ _)
    dsimp only
    rw [sub, Option.getD_some]
    constructor
    · intro within
      exact ⟨fun _ => by omega, fun short => absurd long (Nat.not_le.mpr short)⟩
    · intro within
      have bounds := within.long long
      omega
  · dsimp only
    unfold Duration.asSecs
    generalize halves : (max ⌈((lockTimeout.asNanos : ℚ) / SECOND) * (1 / 2)⌉ 1).toNat = half
    have positive : 0 < half := by omega
    constructor
    · intro within
      exact ⟨fun more => absurd more long, fun _ => ⟨half, positive, (half_le_iff positive).mp halves.le, within⟩⟩
    · intro within
      obtain ⟨seconds, some, covers, within⟩ := within.short (Nat.not_le.mp long)
      have least : half ≤ seconds := halves ▸ (half_le_iff some).mpr covers
      have scaled : half * SECOND ≤ seconds * SECOND := Nat.mul_le_mul_right SECOND least
      omega

theorem SECOND_le_interval (lockTimeout buffer : Duration) : SECOND ≤ calculateRenewalInterval lockTimeout buffer := by
  unfold calculateRenewalInterval
  split_ifs
  · exact Nat.le_max_right _ _
  · apply Nat.le_mul_of_pos_left
    omega

/-- The interval is shorter than the timeout unless a long timeout has no buffer or a short one is at most a second. -/
structure ShorterThanTimeout (lockTimeout buffer : Duration) : Prop where
  long : 15 * SECOND ≤ lockTimeout.asNanos → 0 < buffer.asNanos
  short : lockTimeout.asNanos < 15 * SECOND → SECOND < lockTimeout.asNanos

theorem calculateRenewalInterval_lt_iff (lockTimeout buffer : Duration) :
    calculateRenewalInterval lockTimeout buffer < lockTimeout.asNanos ↔ ShorterThanTimeout lockTimeout buffer := by
  have within := calculateRenewalInterval_le_iff lockTimeout buffer (lockTimeout.asNanos - 1)
  have shorter : calculateRenewalInterval lockTimeout buffer < lockTimeout.asNanos ↔
      (calculateRenewalInterval lockTimeout buffer : Int) ≤ lockTimeout.asNanos - 1 := by omega
  rw [shorter, within]
  constructor
  · rintro ⟨long, short⟩
    refine ⟨fun more => ?_, fun less => ?_⟩
    · have bounds := long more
      omega
    · obtain ⟨seconds, some, _, below⟩ := short less
      have least : SECOND ≤ seconds * SECOND := Nat.le_mul_of_pos_left SECOND some
      omega
  · rintro ⟨long, short⟩
    refine ⟨fun more => ?_, fun less => ?_⟩
    · have buffered := long more
      unfold SECOND at more ⊢
      omega
    · have more := short less
      unfold SECOND at more ⊢
      refine ⟨(lockTimeout.asNanos + 1999999999) / 2000000000, ?_, ?_, ?_⟩ <;> omega

/-! ## Milliseconds -/

theorem nowMillis_mono {earlier later : Nat} (ordered : earlier ≤ later) : nowMillis earlier ≤ nowMillis later := by
  unfold nowMillis MILLISECOND
  omega

/-- A lease of some milliseconds lasts for an interval that is a millisecond shorter. -/
theorem nowMillis_lt {earlier later : Nat} {limit : Int} (within : (later : Int) ≤ earlier + (limit - 1) * MILLISECOND) :
    nowMillis later < nowMillis earlier + limit := by
  unfold nowMillis
  unfold MILLISECOND at within ⊢
  omega

/-- And for no longer one, when it starts at the end of a millisecond. -/
theorem within_of_nowMillis_lt {interval : Nat} {start limit : Int} {clock : Nat} (last : clock % MILLISECOND = 999999)
    (starts : start = nowMillis clock) (lasts : nowMillis (clock + interval) < start + limit) :
    (interval : Int) ≤ (limit - 1) * MILLISECOND := by
  unfold nowMillis at starts lasts
  unfold MILLISECOND at *
  omega

theorem asI64_le (value : Nat) : asI64 value ≤ value := by
  unfold asI64
  rw [Int.bmod_def]
  split_ifs <;> omega

theorem asMillis_le (duration : Duration) : duration.asMillis * MILLISECOND ≤ duration.asNanos := by
  unfold Duration.asMillis Duration.asNanos MILLISECOND
  omega

/-- An interval that is a millisecond shorter than what the provider adds is shorter than the timeout. -/
theorem lt_asNanos {interval : Nat} {duration : Duration} (within : (interval : Int) ≤ (asI64 duration.asMillis - 1) * MILLISECOND) :
    interval < duration.asNanos := by
  have narrowed := asI64_le duration.asMillis
  have rounded := asMillis_le duration
  unfold MILLISECOND at *
  omega

/-! ## The columns -/

namespace Lease

variable {options : RuntimeOptions} {clock : Nat} {lease : Lease}

theorem renewWorkItemLock_eq_some (held : lease.held clock) (sessionHeld : nowMillis clock < lease.sessionLockedUntil) :
    lease.renewWorkItemLock options clock =
      some ⟨timestampAfter clock options.workerLockTimeout, lease.sessionLockedUntil, nowMillis clock⟩ := by
  rw [renewWorkItemLock, if_pos held, if_pos sessionHeld]

theorem renewSessionLock_of_inUse (inUse : lease.sessionInUse options clock) :
    lease.renewSessionLock options clock =
      ⟨lease.lockedUntil, timestampAfter clock options.sessionLockTimeout, lease.lastActivityAt⟩ := if_pos inUse

theorem sessionInUse_iff : lease.sessionInUse options clock ↔ nowMillis clock < lease.sessionLockedUntil ∧
    nowMillis clock - asI64 options.sessionIdleTimeout.asMillis < lease.lastActivityAt := by
  rw [sessionInUse, Bool.and_eq_true, decide_eq_true_eq, decide_eq_true_eq]

theorem renewSessionLock_lockedUntil (options : RuntimeOptions) (clock : Nat) (lease : Lease) :
    (lease.renewSessionLock options clock).lockedUntil = lease.lockedUntil := by
  unfold renewSessionLock
  split_ifs <;> rfl

theorem renewSessionLock_lastActivityAt (options : RuntimeOptions) (clock : Nat) (lease : Lease) :
    (lease.renewSessionLock options clock).lastActivityAt = lease.lastActivityAt := by
  unfold renewSessionLock
  split_ifs <;> rfl

end Lease

/-! ## Runs that keep the leases -/

namespace Heartbeats

variable {options : RuntimeOptions} {workInterval sessionInterval : Nat} {state next : Heartbeats}

/-- Each interval is a millisecond shorter than what the provider adds. -/
structure Shorter (options : RuntimeOptions) (workInterval sessionInterval : Nat) : Prop where
  worker : (workInterval : Int) ≤ (asI64 options.workerLockTimeout.asMillis - 1) * MILLISECOND
  session : (sessionInterval : Int) ≤ (asI64 options.sessionLockTimeout.asMillis - 1) * MILLISECOND
  idle : (workInterval : Int) ≤ (asI64 options.sessionIdleTimeout.asMillis - 1) * MILLISECOND

/-- No heartbeat is overdue, and the lease is the one that the last heartbeats left. -/
structure OnTime (options : RuntimeOptions) (workInterval sessionInterval : Nat) (state : Heartbeats) : Prop where
  work : state.clock ≤ state.workRenewedAt + workInterval
  session : state.clock ≤ state.sessionRenewedAt + sessionInterval
  lockedUntil : state.lease.lockedUntil = timestampAfter state.workRenewedAt options.workerLockTimeout
  lastActivityAt : state.lease.lastActivityAt = nowMillis state.workRenewedAt
  sessionLockedUntil : timestampAfter state.sessionRenewedAt options.sessionLockTimeout ≤ state.lease.sessionLockedUntil

namespace OnTime

variable (onTime : OnTime options workInterval sessionInterval state) (shorter : Shorter options workInterval sessionInterval)

include onTime shorter

theorem held : state.lease.held state.clock := by
  have within := shorter.worker
  have due := onTime.work
  rw [Lease.held, decide_eq_true_eq, onTime.lockedUntil]
  apply nowMillis_lt
  omega

theorem sessionHeld : nowMillis state.clock < state.lease.sessionLockedUntil := by
  have within := shorter.session
  have due := onTime.session
  refine lt_of_lt_of_le (nowMillis_lt ?_) onTime.sessionLockedUntil
  omega

theorem inUse : state.lease.sessionInUse options state.clock := by
  have within := shorter.idle
  have due := onTime.work
  have recent : nowMillis state.clock < nowMillis state.workRenewedAt + asI64 options.sessionIdleTimeout.asMillis := by
    apply nowMillis_lt
    omega
  rw [Lease.sessionInUse_iff, onTime.lastActivityAt]
  exact ⟨onTime.sessionHeld shorter, sub_lt_iff_lt_add.mpr recent⟩

omit shorter in
theorem renewedWork {now lockedUntil : Int} (current : now = nowMillis state.clock)
    (extended : lockedUntil = timestampAfter state.clock options.workerLockTimeout) :
    OnTime options workInterval sessionInterval
      ⟨⟨lockedUntil, state.lease.sessionLockedUntil, now⟩, state.clock, state.clock, state.sessionRenewedAt⟩ :=
  ⟨Nat.le_add_right _ _, onTime.session, extended, current, onTime.sessionLockedUntil⟩

omit shorter in
theorem renewedSession {lockedUntil : Int} (extended : lockedUntil = timestampAfter state.clock options.sessionLockTimeout) :
    OnTime options workInterval sessionInterval
      ⟨⟨state.lease.lockedUntil, lockedUntil, state.lease.lastActivityAt⟩, state.clock, state.workRenewedAt, state.clock⟩ :=
  ⟨onTime.work, Nat.le_add_right _ _, onTime.lockedUntil, onTime.lastActivityAt, extended.ge⟩

theorem step {heartbeat : Heartbeat} (taken : step options workInterval sessionInterval state heartbeat = some next) :
    OnTime options workInterval sessionInterval next := by
  cases heartbeat with
  | wait later =>
    rw [Heartbeats.step] at taken
    split_ifs at taken with due
    obtain rfl := Option.some.inj taken
    exact ⟨due.2.1, due.2.2, onTime.lockedUntil, onTime.lastActivityAt, onTime.sessionLockedUntil⟩
  | renewWorkItemLock =>
    rw [Heartbeats.step] at taken
    split_ifs at taken with due
    rw [Lease.renewWorkItemLock_eq_some (onTime.held shorter) (onTime.sessionHeld shorter), Option.map_some] at taken
    obtain rfl := Option.some.inj taken
    exact onTime.renewedWork rfl rfl
  | renewSessionLock =>
    rw [Heartbeats.step] at taken
    split_ifs at taken with due
    rw [Lease.renewSessionLock_of_inUse (onTime.inUse shorter)] at taken
    obtain rfl := Option.some.inj taken
    exact onTime.renewedSession rfl

end OnTime

theorem onTime_of_reachable (shorter : Shorter options workInterval sessionInterval)
    (reached : (system options workInterval sessionInterval).Reachable (fun _ _ => True) state) :
    OnTime options workInterval sessionInterval state := by
  refine reached.invariant ?_ fun source label target onTime _ taken => onTime.step shorter taken
  rintro state ⟨fetchedAt, tickedAt, before, due, rfl⟩
  refine ⟨Nat.le_add_right _ _, due, rfl, rfl, ?_⟩
  have ordered := nowMillis_mono before
  simp only [fetched, Lease.fetch, timestampAfter]
  omega

theorem Shorter.keepLeases (shorter : Shorter options workInterval sessionInterval) :
    KeepLeases options workInterval sessionInterval where
  held _ reached := (onTime_of_reachable shorter reached).held shorter
  inUse _ reached _ := (onTime_of_reachable shorter reached).inUse shorter

/-! ## Runs that lose a lease -/

/-- An activity that waits for its first heartbeat while the session manager ticks. -/
structure Unrenewed (options : RuntimeOptions) (fetchedAt : Nat) (state : Heartbeats) : Prop where
  work : state.workRenewedAt = fetchedAt
  lockedUntil : state.lease.lockedUntil = timestampAfter fetchedAt options.workerLockTimeout
  lastActivityAt : state.lease.lastActivityAt = nowMillis fetchedAt

/-- A tick of the session manager leaves the columns of the work item, and the last use of the session. -/
theorem Unrenewed.tick {fetchedAt clock : Nat} (unrenewed : Unrenewed options fetchedAt state) :
    Unrenewed options fetchedAt
      ⟨state.lease.renewSessionLock options clock, clock, state.workRenewedAt, clock⟩ where
  work := unrenewed.work
  lockedUntil := (Lease.renewSessionLock_lockedUntil options clock state.lease).trans unrenewed.lockedUntil
  lastActivityAt := (Lease.renewSessionLock_lastActivityAt options clock state.lease).trans unrenewed.lastActivityAt

/-- Time passes until a tick of the session manager. -/
theorem reachable_tick (reached : (system options workInterval sessionInterval).Reachable (fun _ _ => True) state)
    (clock : Nat) (ordered : state.clock ≤ clock) (work : clock ≤ state.workRenewedAt + workInterval)
    (due : clock = state.sessionRenewedAt + sessionInterval) :
    (system options workInterval sessionInterval).Reachable (fun _ _ => True)
      ⟨state.lease.renewSessionLock options clock, clock, state.workRenewedAt, clock⟩ := by
  have waits : step options workInterval sessionInterval state (.wait clock) = some { state with clock } :=
    if_pos ⟨ordered, work, due.le⟩
  have renews : step options workInterval sessionInterval { state with clock } .renewSessionLock =
      some ⟨state.lease.renewSessionLock options clock, clock, state.workRenewedAt, clock⟩ := if_pos due
  exact .step (.step reached trivial waits) trivial renews

theorem reachable_ticks (options : RuntimeOptions) {fetchedAt tickedAt : Nat} (before : tickedAt ≤ fetchedAt) (due : fetchedAt ≤ tickedAt + sessionInterval)
    (ticks : Nat) (early : tickedAt + ticks * sessionInterval ≤ fetchedAt + workInterval) :
    ∃ state, (system options workInterval sessionInterval).Reachable (fun _ _ => True) state ∧
      Unrenewed options fetchedAt state ∧ state.sessionRenewedAt = tickedAt + ticks * sessionInterval ∧
      state.clock = max fetchedAt state.sessionRenewedAt := by
  induction ticks with
  | zero =>
    refine ⟨_, .initial ⟨fetchedAt, tickedAt, before, due, rfl⟩, ⟨rfl, rfl, rfl⟩, ?_, ?_⟩
    · simp only [fetched, Nat.zero_mul, Nat.add_zero]
    · simp only [fetched, Nat.max_eq_left before]
  | succ ticks ih =>
    rw [Nat.succ_mul] at early
    obtain ⟨state, reached, unrenewed, session, clock⟩ := ih (by omega)
    have work := unrenewed.work
    have succ : (ticks + 1) * sessionInterval = ticks * sessionInterval + sessionInterval := Nat.succ_mul ticks sessionInterval
    refine ⟨_, reachable_tick reached (tickedAt + (ticks + 1) * sessionInterval) ?_ ?_ ?_, unrenewed.tick, rfl, ?_⟩
    · omega
    · omega
    · omega
    · dsimp only
      omega

/-- The first heartbeat comes due, after as many ticks as come before it. -/
theorem reachable_workDue (options : RuntimeOptions) {fetchedAt tickedAt : Nat} (before : tickedAt ≤ fetchedAt)
    (due : fetchedAt ≤ tickedAt + sessionInterval) (ticks : Nat) (early : tickedAt + ticks * sessionInterval ≤ fetchedAt + workInterval)
    (late : fetchedAt + workInterval ≤ tickedAt + (ticks + 1) * sessionInterval) :
    ∃ state, (system options workInterval sessionInterval).Reachable (fun _ _ => True) state ∧
      Unrenewed options fetchedAt state ∧ state.sessionRenewedAt = tickedAt + ticks * sessionInterval ∧
      state.clock = fetchedAt + workInterval := by
  obtain ⟨state, reached, unrenewed, session, clock⟩ := reachable_ticks options before due ticks early
  have work := unrenewed.work
  have waits : step options workInterval sessionInterval state (.wait (fetchedAt + workInterval)) =
      some { state with clock := fetchedAt + workInterval } := by
    apply if_pos
    rw [Nat.succ_mul] at late
    unfold sessionDue workDue
    omega
  exact ⟨_, .step reached trivial waits, ⟨work, unrenewed.lockedUntil, unrenewed.lastActivityAt⟩, session, rfl⟩

/-- Time passes until a heartbeat of the activity. -/
theorem reachable_renewal (keeps : KeepLeases options workInterval sessionInterval)
    (reached : (system options workInterval sessionInterval).Reachable (fun _ _ => True) state)
    (clock : Nat) (ordered : state.clock ≤ clock) (due : clock = state.workRenewedAt + workInterval)
    (session : clock ≤ state.sessionRenewedAt + sessionInterval) :
    ∃ lease, (system options workInterval sessionInterval).Reachable (fun _ _ => True)
      ⟨lease, clock, clock, state.sessionRenewedAt⟩ ∧ lease.sessionLockedUntil = state.lease.sessionLockedUntil := by
  have waits : step options workInterval sessionInterval state (.wait clock) = some { state with clock } :=
    if_pos ⟨ordered, due.le, session⟩
  have waited := Lib.TransitionSystem.Reachable.step reached trivial waits
  obtain ⟨lease, renewed, kept⟩ : ∃ lease, state.lease.renewWorkItemLock options clock = some lease ∧
      lease.sessionLockedUntil = state.lease.sessionLockedUntil := ⟨_, if_pos (keeps.held _ waited), rfl⟩
  have renews : step options workInterval sessionInterval { state with clock } .renewWorkItemLock =
      some ⟨lease, clock, clock, state.sessionRenewedAt⟩ := by
    rw [step, if_pos (show clock = workDue workInterval { state with clock } from due), renewed, Option.map_some]
  exact ⟨lease, .step waited trivial renews, kept⟩

/-- The work item is renewed while the session waits for its first tick. -/
theorem reachable_renewals (keeps : KeepLeases options workInterval sessionInterval) (fetchedAt renewals : Nat)
    (early : renewals * workInterval ≤ sessionInterval) :
    ∃ state, (system options workInterval sessionInterval).Reachable (fun _ _ => True) state ∧
      state.sessionRenewedAt = fetchedAt ∧ state.clock = fetchedAt + renewals * workInterval ∧
      state.workRenewedAt = state.clock ∧
      state.lease.sessionLockedUntil = timestampAfter fetchedAt options.sessionLockTimeout := by
  induction renewals with
  | zero =>
    refine ⟨_, .initial ⟨fetchedAt, fetchedAt, le_refl _, Nat.le_add_right _ _, rfl⟩, rfl, ?_, rfl, rfl⟩
    simp only [fetched, Nat.zero_mul, Nat.add_zero]
  | succ renewals ih =>
    rw [Nat.succ_mul] at early
    obtain ⟨state, reached, session, clock, work, locked⟩ := ih (by omega)
    obtain ⟨lease, renewed, kept⟩ := reachable_renewal keeps reached
      (fetchedAt + (renewals + 1) * workInterval) (by rw [Nat.succ_mul]; omega) (by rw [Nat.succ_mul]; omega)
      (by rw [Nat.succ_mul]; omega)
    exact ⟨_, renewed, session, rfl, rfl, kept.trans locked⟩

/-- The first tick comes due, after as many renewals of the work item as come before it. -/
theorem reachable_sessionDue (keeps : KeepLeases options workInterval sessionInterval) (fetchedAt : Nat)
    (positive : 0 < workInterval) :
    ∃ state, (system options workInterval sessionInterval).Reachable (fun _ _ => True) state ∧
      state.clock = state.sessionDue sessionInterval ∧ state.clock = fetchedAt + sessionInterval ∧
      state.lease.sessionLockedUntil = timestampAfter fetchedAt options.sessionLockTimeout := by
  have divided := Nat.div_add_mod sessionInterval workInterval
  have less := Nat.mod_lt sessionInterval positive
  rw [Nat.mul_comm] at divided
  obtain ⟨state, reached, session, clock, work, locked⟩ :=
    reachable_renewals keeps fetchedAt (sessionInterval / workInterval) (by omega)
  have waits : step options workInterval sessionInterval state (.wait (fetchedAt + sessionInterval)) =
      some { state with clock := fetchedAt + sessionInterval } := by
    apply if_pos
    unfold sessionDue workDue
    omega
  refine ⟨_, .step reached trivial waits, ?_, rfl, locked⟩
  simp only [sessionDue, session]

/-- A clock at the end of a millisecond, after some time. -/
theorem exists_lastNanosecond (after : Nat) : ∃ clock, after ≤ clock ∧ clock % MILLISECOND = 999999 := by
  refine ⟨after * MILLISECOND + 999999, ?_, ?_⟩
  · unfold MILLISECOND
    omega
  · unfold MILLISECOND
    omega

/-- Leases that are kept in every run are a millisecond longer than the intervals. -/
theorem KeepLeases.shorter (keeps : KeepLeases options workInterval sessionInterval) (workPositive : 0 < workInterval)
    (sessionPositive : 0 < sessionInterval) : Shorter options workInterval sessionInterval := by
  obtain ⟨fetchedAt, started, last⟩ := exists_lastNanosecond sessionInterval
  -- the tick before the fetch is such that one comes due together with the first heartbeat
  have divided := Nat.div_add_mod workInterval sessionInterval
  have less := Nat.mod_lt workInterval sessionPositive
  rw [Nat.mul_comm] at divided
  have before : fetchedAt + workInterval % sessionInterval - sessionInterval ≤ fetchedAt := by omega
  have due : fetchedAt ≤ fetchedAt + workInterval % sessionInterval - sessionInterval + sessionInterval := by omega
  obtain ⟨state, reached, unrenewed, session, clock⟩ := reachable_workDue options before due (workInterval / sessionInterval)
    (show _ ≤ fetchedAt + workInterval by omega) (by rw [Nat.succ_mul]; omega)
  have held := keeps.held state reached
  have inUse := keeps.inUse state reached (by rw [clock, sessionDue, session]; omega)
  rw [Lease.held, decide_eq_true_eq, clock, unrenewed.lockedUntil] at held
  rw [Lease.sessionInUse_iff, clock, unrenewed.lastActivityAt] at inUse
  obtain ⟨other, reached, due, clock, locked⟩ := reachable_sessionDue keeps fetchedAt workPositive
  have sessionInUse := keeps.inUse other reached due
  rw [Lease.sessionInUse_iff, clock, locked] at sessionInUse
  exact ⟨within_of_nowMillis_lt last rfl held, within_of_nowMillis_lt last rfl sessionInUse.1,
    within_of_nowMillis_lt last rfl (sub_lt_iff_lt_add.mp inUse.2)⟩

end Heartbeats

/-! ## The rows behind a lease -/

namespace Provider

/-- The rows that a token locks and their session are those of a lease. -/
structure StoredLease (store : Store) (token : Nat) (sessionId ownerId : String) (lease : Lease) : Prop where
  locked : ∃ row ∈ store.workerQueue, row.lockToken = some token
  rows : ∀ row ∈ store.workerQueue, row.lockToken = some token →
    row.lockedUntil = some lease.lockedUntil ∧ row.sessionId = some sessionId
  session : store.sessions.lookup sessionId = some ⟨ownerId, lease.sessionLockedUntil, lease.lastActivityAt⟩

namespace StoredLease

variable {store : Store} {now token : Nat} {sessionId ownerId : String} {lease : Lease}

theorem holdsWork_iff (stored : StoredLease store token sessionId ownerId lease) {row : WorkerRow}
    (listed : row ∈ store.workerQueue) :
    holdsWork now token row ↔ row.lockToken = some token ∧ (now : Int) < lease.lockedUntil := by
  rw [holdsWork, Bool.and_eq_true, beq_iff_eq]
  apply and_congr_right
  intro locked
  rw [(stored.rows row listed locked).1]
  simp

/-- An expired lock is not renewed. -/
theorem renewWorkItemLock_error (stored : StoredLease store token sessionId ownerId lease)
    (expired : lease.lockedUntil ≤ now) (extendMs : Nat) :
    ∃ error, renewWorkItemLock store now token extendMs = .error error := by
  have none : store.workerQueue.find? (holdsWork now token) = none := by
    apply List.find?_eq_none.mpr
    intro row listed holds
    exact absurd ((stored.holdsWork_iff listed).mp holds).2 (Int.not_lt.mpr expired)
  exact ⟨_, by rw [renewWorkItemLock, none]⟩

/-- The rows of the token with a later expiry. -/
theorem extend (stored : StoredLease store token sessionId ownerId lease) (held : (now : Int) < lease.lockedUntil) (later : Int) :
    StoredLease (store.updateWorkerRows (holdsWork now token) fun row => { row with lockedUntil := some later })
      token sessionId ownerId { lease with lockedUntil := later } where
  locked := by
    obtain ⟨row, listed, locked⟩ := stored.locked
    refine ⟨_, List.mem_map_of_mem listed, ?_⟩
    split_ifs <;> exact locked
  rows := by
    intro changed member locked
    obtain ⟨row, listed, rfl⟩ := List.mem_map.mp member
    have lockedBefore : row.lockToken = some token := by
      split_ifs at locked <;> exact locked
    rw [if_pos ((stored.holdsWork_iff listed).mpr ⟨lockedBefore, held⟩)]
    exact ⟨rfl, (stored.rows row listed lockedBefore).2⟩
  session := stored.session

theorem touch (stored : StoredLease store token sessionId ownerId lease) (now : Nat) :
    StoredLease (touchSession store now (some sessionId)) token sessionId ownerId
      { lease with lastActivityAt := if now < lease.sessionLockedUntil then now else lease.lastActivityAt } where
  locked := stored.locked
  rows := stored.rows
  session := by
    simp only [touchSession, Lib.KeyedTable.lookup_updateWhere, stored.session, Option.map_some, beq_self_eq_true,
      Bool.true_and, decide_eq_true_eq]
    split_ifs <;> rfl

theorem renewWorkItemLock_ok (stored : StoredLease store token sessionId ownerId lease)
    (held : (now : Int) < lease.lockedUntil) (extendMs : Nat) :
    ∃ after, renewWorkItemLock store now token extendMs = .ok after ∧
      StoredLease after token sessionId ownerId
        ⟨now + extendMs, lease.sessionLockedUntil, if now < lease.sessionLockedUntil then now else lease.lastActivityAt⟩ := by
  obtain ⟨row, found⟩ : ∃ row, store.workerQueue.find? (holdsWork now token) = some row := by
    obtain ⟨row, listed, locked⟩ := stored.locked
    rw [← Option.isSome_iff_exists, List.find?_isSome]
    exact ⟨row, listed, (stored.holdsWork_iff listed).mpr ⟨locked, held⟩⟩
  have listed := List.mem_of_find?_eq_some found
  have locked := ((stored.holdsWork_iff listed).mp (List.find?_some found)).1
  refine ⟨_, ?_, (stored.extend held (now + extendMs)).touch now⟩
  rw [renewWorkItemLock, found]
  simp only [(stored.rows row listed locked).2]

/-- A session that its owner uses is renewed, and no other. -/
theorem renewSessionLock (stored : StoredLease store token sessionId ownerId lease) (now : Nat) {ownerIds : List String}
    (owner : ownerId ∈ ownerIds) (extendMs idleTimeoutMs : Nat) :
    StoredLease (renewSessionLock store now ownerIds extendMs idleTimeoutMs).2 token sessionId ownerId
      (if now < lease.sessionLockedUntil ∧ now - (idleTimeoutMs : Int) < lease.lastActivityAt then
        { lease with sessionLockedUntil := now + extendMs } else lease) := by
  have filled : ownerIds.isEmpty = false := by
    cases ownerIds with
    | nil => cases owner
    | cons first rest => rfl
  have session : (Provider.renewSessionLock store now ownerIds extendMs idleTimeoutMs).2.sessions.lookup sessionId =
      some (if now < lease.sessionLockedUntil ∧ now - (idleTimeoutMs : Int) < lease.lastActivityAt then
        ⟨ownerId, now + extendMs, lease.lastActivityAt⟩ else ⟨ownerId, lease.sessionLockedUntil, lease.lastActivityAt⟩) := by
    simp only [Provider.renewSessionLock, filled, Bool.false_eq_true, if_false, Lib.KeyedTable.lookup_updateWhere,
      stored.session, Option.map_some, owner, true_and, Bool.and_eq_true, decide_eq_true_eq]
  have others : (Provider.renewSessionLock store now ownerIds extendMs idleTimeoutMs).2.workerQueue = store.workerQueue := by
    simp only [Provider.renewSessionLock, filled, Bool.false_eq_true, if_false]
  constructor
  · rw [others]
    exact stored.locked
  · rw [others]
    intro row listed locked
    have same := stored.rows row listed locked
    split_ifs <;> exact same
  · rw [session]
    split_ifs <;> rfl

end StoredLease

/-- Fetching an item with a session under a new token locks its row and claims the session. -/
theorem storedLease_of_fetchWorkItem {store after : Store} {now lockTimeoutMs token : Nat} {config : SessionFetchConfig}
    {filter : TagFilter} {item : WorkItem × Nat} {row : WorkerRow} {sessionId : String}
    (found : store.workerQueue.find? (isAvailable store now (some config) filter) = some row)
    (bound : row.sessionId = some sessionId) (fresh : ∀ row ∈ store.workerQueue, row.lockToken ≠ some token)
    (distinct : (store.workerQueue.map (·.id)).Nodup)
    (fetched : fetchWorkItem store now lockTimeoutMs token (some config) filter = some (item, after)) :
    StoredLease after token sessionId config.ownerId ⟨now + lockTimeoutMs, now + config.lockTimeoutMs, now⟩ := by
  have listed := List.mem_of_find?_eq_some found
  simp only [fetchWorkItem, found, Option.bind_eq_bind, Option.bind_some, bound, claimItemSession] at fetched
  obtain ⟨claimed, claims, same⟩ := Option.bind_eq_some_iff.mp fetched
  cases same
  have session : after.sessions.lookup sessionId = some ⟨config.ownerId, now + config.lockTimeoutMs, now⟩ ∧
      after.workerQueue = store.workerQueue.map fun other =>
        if other.id == row.id then lockedWorkerRow now lockTimeoutMs token other else other := by
    unfold claimSession at claims
    dsimp only at claims
    split at claims
    · split_ifs at claims
      cases claims
      exact ⟨AList.lookup_insert _, rfl⟩
    · cases claims
      exact ⟨AList.lookup_insert _, rfl⟩
  constructor
  · rw [session.2]
    exact ⟨_, List.mem_map_of_mem listed, by rw [if_pos (beq_self_eq_true _)]; rfl⟩
  · rw [session.2]
    intro changed member locked
    obtain ⟨other, present, rfl⟩ := List.mem_map.mp member
    split_ifs at locked ⊢ with same
    · obtain rfl := List.inj_on_of_nodup_map distinct present listed (beq_iff_eq.mp same)
      exact ⟨rfl, bound⟩
    · exact absurd locked (fresh other present)
  · exact session.1

end Provider

/-- While the timeouts fit into 64 bits, the provider does to the rows what a heartbeat does to the lease. -/
theorem storedLease_heartbeat {options : RuntimeOptions} {store : Store} {clock token : Nat} {sessionId ownerId : String}
    {lease : Lease} (stored : Provider.StoredLease store token sessionId ownerId lease) {ownerIds : List String}
    (owner : ownerId ∈ ownerIds) (work : options.workerLockTimeout.asMillis < 2 ^ 63)
    (session : options.sessionLockTimeout.asMillis < 2 ^ 63) (idle : options.sessionIdleTimeout.asMillis < 2 ^ 63) :
    (match lease.renewWorkItemLock options clock with
      | none => ∃ error,
          Provider.renewWorkItemLock store (clock / MILLISECOND) token options.workerLockTimeout.asMillis = .error error
      | some renewed => ∃ after,
          Provider.renewWorkItemLock store (clock / MILLISECOND) token options.workerLockTimeout.asMillis = .ok after ∧
            Provider.StoredLease after token sessionId ownerId renewed) ∧
      Provider.StoredLease (Provider.renewSessionLock store (clock / MILLISECOND) ownerIds options.sessionLockTimeout.asMillis
        options.sessionIdleTimeout.asMillis).2 token sessionId ownerId (lease.renewSessionLock options clock) := by
  constructor
  · rw [Lease.renewWorkItemLock, Lease.held, timestampAfter, asI64_of_small work]
    unfold nowMillis
    rcases Decidable.em (((clock / MILLISECOND : Nat) : Int) < lease.lockedUntil) with held | expired
    · rw [decide_eq_true held, if_pos rfl]
      exact stored.renewWorkItemLock_ok held _
    · rw [decide_eq_false expired, if_neg Bool.false_ne_true]
      exact stored.renewWorkItemLock_error (Int.not_lt.mp expired) _
  · have renewed := stored.renewSessionLock (clock / MILLISECOND) owner options.sessionLockTimeout.asMillis
      options.sessionIdleTimeout.asMillis
    rw [Lease.renewSessionLock, timestampAfter, asI64_of_small session]
    simp only [Lease.sessionInUse_iff, asI64_of_small idle]
    exact renewed

/-! ## The options on which leases are kept -/

/-- The options on which every lease is kept. -/
structure RuntimeOptions.LeasesOutlastIntervals (options : RuntimeOptions) : Prop where
  orchestrator : ShorterThanTimeout options.orchestratorLockTimeout options.orchestratorLockRenewalBuffer
  worker : IntervalWithin options.workerLockTimeout options.workerLockRenewalBuffer
    ((asI64 options.workerLockTimeout.asMillis - 1) * MILLISECOND)
  session : IntervalWithin options.sessionLockTimeout options.sessionLockRenewalBuffer
    ((asI64 options.sessionLockTimeout.asMillis - 1) * MILLISECOND)
  idle : IntervalWithin options.workerLockTimeout options.workerLockRenewalBuffer
    ((asI64 options.sessionIdleTimeout.asMillis - 1) * MILLISECOND)

theorem heartbeatsKeepLeases_iff (options : RuntimeOptions) :
    options.HeartbeatsKeepLeases ↔ options.LeasesOutlastIntervals := by
  have second : 0 < SECOND := by decide
  constructor
  · rintro ⟨orchestrator, _, _, _, keeps⟩
    have shorter := keeps.shorter (second.trans_le (SECOND_le_interval _ _)) (second.trans_le (SECOND_le_interval _ _))
    exact ⟨(calculateRenewalInterval_lt_iff _ _).mp orchestrator, (calculateRenewalInterval_le_iff _ _ _).mp shorter.worker,
      (calculateRenewalInterval_le_iff _ _ _).mp shorter.session, (calculateRenewalInterval_le_iff _ _ _).mp shorter.idle⟩
  · rintro ⟨orchestrator, worker, session, idle⟩
    have shorter : Heartbeats.Shorter options options.workerRenewalInterval options.sessionRenewalInterval :=
      ⟨(calculateRenewalInterval_le_iff _ _ _).mpr worker, (calculateRenewalInterval_le_iff _ _ _).mpr session,
        (calculateRenewalInterval_le_iff _ _ _).mpr idle⟩
    exact ⟨(calculateRenewalInterval_lt_iff _ _).mpr orchestrator, lt_asNanos shorter.worker, lt_asNanos shorter.session,
      lt_asNanos shorter.idle, shorter.keepLeases⟩

/-- A short idle timeout with a long buffer passes the check, which subtracts the buffer also below 15 seconds. -/
def longBuffer : RuntimeOptions where
  orchestratorLockTimeout := ⟨5, 0, by decide, by decide⟩
  orchestratorLockRenewalBuffer := ⟨2, 0, by decide, by decide⟩
  workerLockTimeout := ⟨10, 0, by decide, by decide⟩
  workerLockRenewalBuffer := ⟨9, 0, by decide, by decide⟩
  sessionLockTimeout := ⟨30, 0, by decide, by decide⟩
  sessionLockRenewalBuffer := ⟨5, 0, by decide, by decide⟩
  sessionIdleTimeout := ⟨2, 0, by decide, by decide⟩

/-- The worker lock is renewed every 5 seconds, and its session is idle after 2. -/
theorem longBuffer_loses_session : longBuffer.accepted = true ∧ ¬ longBuffer.HeartbeatsKeepLeases := by
  refine ⟨by decide +kernel, fun keeps => ?_⟩
  have idle := keeps.idle
  have within : (longBuffer.workerRenewalInterval : Int) ≤ longBuffer.sessionIdleTimeout.asNanos - 1 := by omega
  obtain ⟨seconds, _, covers, below⟩ := ((calculateRenewalInterval_le_iff _ _ _).mp within).short (by decide +kernel)
  simp only [longBuffer, Duration.asNanos, SECOND] at covers below
  omega

end Duroxide
