import Duroxide.Proofs.QueueTables

/-! # When a timer's message becomes visible

A timer's message is stored with the time that its delay leads to: the delay in whole milliseconds, cut to 64 bits,
added to the clock with saturation and cast to a signed column. The stored time is early if a part of a millisecond
was dropped, and if the sum does not fit the column, where the cast makes it negative or the cut made it small.
-/

namespace Duroxide.TimerDelays

open Provider Execution ReplayEngine Lib.Database

variable {semver : Semver}

/-- A stored time that is not before the end of a delay, or the last one if the end does not fit the column. -/
def FiresOnTime (nowMs : Nat) (delay : Duration) (visibleAt : Int) : Prop :=
  if (nowMs * 1000000 + delay.asNanos : Int) ≤ I64_MAX * 1000000 then
    (nowMs * 1000000 + delay.asNanos : Int) ≤ visibleAt * 1000000
  else visibleAt = I64_MAX

/-- The delay is in whole milliseconds and its end fits the column, or its end does not fit and the narrowed delay ends
at the last time by chance. -/
def OnTime (nowMs : Nat) (delay : Duration) : Prop :=
  if nowMs * 1000000 + delay.asNanos ≤ (2 ^ 63 - 1) * 1000000 then delay.nanos % 1000000 = 0
  else nowMs + delay.asMillis % 2 ^ 64 = 2 ^ 63 - 1

/-- What is stored for a delay from a time. -/
def storedVisibleAt (nowMs : Nat) (delay : Duration) : Int :=
  asI64 (CtxInner.saturatingAdd nowMs (delay.asMillis % 2 ^ 64))

/-- A sum within the column is stored as it is. -/
theorem storedVisibleAt_of_fits {nowMs : Nat} {delay : Duration} (fits : nowMs + delay.asMillis < 2 ^ 63) :
    storedVisibleAt nowMs delay = nowMs + delay.asMillis := by
  have narrow : delay.asMillis % 2 ^ 64 = delay.asMillis := Nat.mod_eq_of_lt (by omega)
  have sum : CtxInner.saturatingAdd nowMs delay.asMillis = nowMs + delay.asMillis := by
    unfold CtxInner.saturatingAdd
    omega
  rw [storedVisibleAt, narrow, sum, asI64_of_small fits]
  exact Int.natCast_add ..

/-- The last time is stored for a sum that is exactly that. -/
theorem storedVisibleAt_eq_max_iff (nowMs : Nat) (delay : Duration) :
    storedVisibleAt nowMs delay = I64_MAX ↔ nowMs + delay.asMillis % 2 ^ 64 = 2 ^ 63 - 1 := by
  unfold storedVisibleAt CtxInner.saturatingAdd I64_MAX
  generalize nowMs + delay.asMillis % 2 ^ 64 = sum
  by_cases small : min sum (2 ^ 64 - 1) < 2 ^ 63
  · rw [asI64_of_small small]
    omega
  · have negative : asI64 (min sum (2 ^ 64 - 1)) < 0 := asI64_neg_of_large (by omega) (by omega)
    omega

/-- The stored time is on time exactly if nothing was dropped on the way. -/
theorem firesOnTime_storedVisibleAt (nowMs : Nat) (delay : Duration) :
    FiresOnTime nowMs delay (storedVisibleAt nowMs delay) ↔ OnTime nowMs delay := by
  have subsecond := delay.subsecond
  unfold FiresOnTime OnTime
  by_cases fits : nowMs * 1000000 + delay.asNanos ≤ (2 ^ 63 - 1) * 1000000
  · have below : nowMs + delay.asMillis < 2 ^ 63 := by
      unfold Duration.asNanos at fits
      unfold Duration.asMillis
      omega
    rw [if_pos fits, if_pos (by unfold I64_MAX; omega), storedVisibleAt_of_fits below]
    unfold Duration.asNanos Duration.asMillis
    omega
  · rw [if_neg fits, if_neg (by unfold I64_MAX; omega)]
    exact storedVisibleAt_eq_max_iff nowMs delay

/-! ## From the call to the row -/

/-- A row that an acknowledgement adds for a timer of an orchestration: the call emits an action, which gets its event
id, becomes a work item and is enqueued. -/
inductive StoredTimer (semver : Semver) (ctx : CtxInner) (delay : Duration) (row : OrchestratorRow) : Prop
  | intro (token : Nat) (action : Action) (after : CtxInner) (called : ctx.scheduleTimer delay = .ok (token, after))
      (emitted : after.emittedActions = ctx.emittedActions ++ [(token, action)])
      (instanceId : String) (executionId eventId : Nat)
      (item : orchestratorItem instanceId executionId (updateActionEventId action eventId) = some row.workItem)
      (config : ProviderConfig) (now lockToken : Nat) (request : AckRequest semver) (store : Store)
      (conn : Conn Store Statement SqlxError)
      (acked : ackOrchestrationItem config now lockToken request (Conn.open store none) = (.ok (), conn))
      (listed : row ∈ conn.committed.orchestratorQueue) (new : row ∉ store.orchestratorQueue)

/-- The message of a timer asks for the end of its delay. -/
theorem StoredTimer.workItem {ctx : CtxInner} {delay : Duration} {row : OrchestratorRow}
    (stored : StoredTimer semver ctx delay row) : ∃ instanceId executionId eventId, row.workItem =
      .timerFired instanceId executionId eventId (CtxInner.saturatingAdd ctx.nowMs (delay.asMillis % 2 ^ 64)) := by
  obtain ⟨token, action, after, called, emitted, instanceId, executionId, eventId, item⟩ := stored
  obtain ⟨rfl, rfl⟩ := Prod.mk.inj (Except.ok.inj called)
  have action_eq := List.append_cancel_left emitted
  obtain ⟨_, rfl⟩ := Prod.mk.inj (List.cons.inj action_eq).1
  exact ⟨instanceId, executionId, eventId, (Option.some.inj item).symm⟩

theorem StoredTimer.visibleAt {ctx : CtxInner} {delay : Duration} {row : OrchestratorRow}
    (stored : StoredTimer semver ctx delay row) : row.visibleAt = storedVisibleAt ctx.nowMs delay := by
  obtain ⟨_, _, _, fires⟩ := stored.workItem
  obtain ⟨_, _, _, _, _, _, _, _, _, config, now, lockToken, request, store, conn, acked, listed, new⟩ := stored
  have outcome := ackOrchestrationItem_outcome config store now lockToken request none
  rw [acked] at outcome
  obtain ⟨_, failed, _⟩ | ⟨_, _, committed⟩ := outcome
  · cases failed
  · rw [committed.queue] at listed
    rcases List.mem_append.mp listed with old | added
    · exact absurd (List.mem_of_mem_filter old) new
    · rw [(QueueSound.mem_enqueuedRows added).2.2.2.2.2.2, fires]
      rfl

/-- A timer's message is stored on time exactly if the delay is in whole milliseconds and its end fits the column, or
by chance. -/
theorem firesOnTime_iff {ctx : CtxInner} {delay : Duration} {row : OrchestratorRow}
    (stored : StoredTimer semver ctx delay row) :
    FiresOnTime ctx.nowMs delay row.visibleAt ↔ OnTime ctx.nowMs delay := by
  rw [stored.visibleAt]
  exact firesOnTime_storedVisibleAt ctx.nowMs delay

/-! Timers that an instance schedules at one second. -/

def timerCtx : CtxInner := .new 1 "i" "orch" "1.0.0" 1000

def lockedStore : Store := { instanceLocks := AList.insert "i" ⟨7, 100⟩ ∅ }

def timerRequest (delay : Duration) : AckRequest textSemver :=
  { executionId := 1, orchestratorItems := [.timerFired "i" 1 2 (CtxInner.saturatingAdd 1000 (delay.asMillis % 2 ^ 64))] }

/-- The row that an acknowledgement adds to a store that only holds the lock. -/
def timerRow (delay : Duration) : Option OrchestratorRow :=
  match ackOrchestrationItem {} 10 7 (timerRequest delay) (Conn.open lockedStore none) with
  | (.ok (), conn) => conn.committed.orchestratorQueue.head?
  | (.error _, _) => none

theorem storedTimer_of_timerRow {delay : Duration} {row : OrchestratorRow} (added : timerRow delay = some row)
    (fires : row.workItem = .timerFired "i" 1 2 (CtxInner.saturatingAdd 1000 (delay.asMillis % 2 ^ 64))) :
    StoredTimer textSemver timerCtx delay row := by
  unfold timerRow at added
  split at added
  · rename_i conn acked
    refine ⟨1, _, _, rfl, rfl, "i", 1, 2, congrArg some fires.symm, {}, 10, 7, timerRequest delay, _, conn, acked, ?_,
      List.not_mem_nil⟩
    exact List.mem_of_mem_head? added
  · cases added

/-- A timer of five seconds is stored on time. -/
theorem firesOnTime_iff_seconds : ∃ row, timerRow ⟨5, 0, by decide, by decide⟩ = some row ∧
    FiresOnTime 1000 ⟨5, 0, by decide, by decide⟩ row.visibleAt := by
  have added : (timerRow ⟨5, 0, by decide, by decide⟩).any (fun row =>
      row.workItem == .timerFired "i" 1 2 6000) = true := by
    decide +kernel
  obtain ⟨row, found, fires⟩ := (Option.any_eq_true _ _).mp added
  exact ⟨row, found, (firesOnTime_iff (storedTimer_of_timerRow found (eq_of_beq fires))).mpr (by unfold OnTime; decide)⟩

/-- The longest delay is stored as a time before the epoch, and one of 1.5 ms as the end of the first. -/
theorem timers_notOnTime :
    (∃ row, StoredTimer textSemver timerCtx ⟨2 ^ 64 - 1, 999999999, by decide, by decide⟩ row ∧ row.visibleAt = -1 ∧
      ¬ FiresOnTime 1000 ⟨2 ^ 64 - 1, 999999999, by decide, by decide⟩ row.visibleAt) ∧
    ∃ row, StoredTimer textSemver timerCtx ⟨0, 1500000, by decide, by decide⟩ row ∧ row.visibleAt = 1001 ∧
      ¬ FiresOnTime 1000 ⟨0, 1500000, by decide, by decide⟩ row.visibleAt := by
  constructor
  · have added : (timerRow ⟨2 ^ 64 - 1, 999999999, by decide, by decide⟩).any (fun row =>
        row.workItem == .timerFired "i" 1 2 (2 ^ 64 - 1) && row.visibleAt == -1) = true := by
      decide +kernel
    obtain ⟨row, found, facts⟩ := (Option.any_eq_true _ _).mp added
    simp only [Bool.and_eq_true, beq_iff_eq] at facts
    refine ⟨row, storedTimer_of_timerRow found facts.1, facts.2, ?_⟩
    rw [facts.2, FiresOnTime]
    decide
  · have added : (timerRow ⟨0, 1500000, by decide, by decide⟩).any (fun row =>
        row.workItem == .timerFired "i" 1 2 1001 && row.visibleAt == 1001) = true := by
      decide +kernel
    obtain ⟨row, found, facts⟩ := (Option.any_eq_true _ _).mp added
    simp only [Bool.and_eq_true, beq_iff_eq] at facts
    refine ⟨row, storedTimer_of_timerRow found facts.1, facts.2, ?_⟩
    rw [facts.2, FiresOnTime]
    decide

end Duroxide.TimerDelays
