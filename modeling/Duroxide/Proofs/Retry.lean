import Duroxide.Model.Retry
import Duroxide.Proofs.ContextCalls
import Mathlib.Data.List.Basic

/-! # What a call with a retry policy does

The exchanges of a call with the context, over any number of polls and with any replies, are those that its
policy allows: one attempt after the other, a pause between two of them where the policy has one, and an
end with the first success, the first deadline or the last attempt. Every sequence that the policy allows is
that of some run.
-/

namespace Duroxide

/-- A context call with its reply. -/
abbrev Exchange := (request : CtxCall) × request.Reply

/-- The exchanges of some polls in a row, from the middle of one to the middle of another. -/
inductive Runs {State : Type} (poll : State → Script State) : Script State → List Exchange → Script State → Prop
  | here (script : Script State) : Runs poll script [] script
  | exchange {request : CtxCall} {next : request.Reply → Script State} {reply : request.Reply} {trace : List Exchange}
      {last : Script State} (later : Runs poll (next reply) trace last) :
      Runs poll (.call request next) (⟨request, reply⟩ :: trace) last
  | wake {state : State} {trace : List Exchange} {last : Script State} (later : Runs poll (poll state) trace last) :
      Runs poll (.suspend state) trace last

namespace Runs

variable {State : Type} {poll : State → Script State} {trace : List Exchange} {output : Except String String}

theorem call_iff {request : CtxCall} {next : request.Reply → Script State} :
    Runs poll (.call request next) trace (.finish output) ↔
      ∃ reply rest, trace = ⟨request, reply⟩ :: rest ∧ Runs poll (next reply) rest (.finish output) := by
  constructor
  · intro ran
    cases ran with
    | exchange later => exact ⟨_, _, rfl, later⟩
  · rintro ⟨reply, rest, rfl, later⟩
    exact .exchange later

theorem suspend_iff {state : State} :
    Runs poll (.suspend state) trace (.finish output) ↔ Runs poll (poll state) trace (.finish output) := by
  constructor
  · intro ran
    cases ran with
    | wake later => exact later
  · exact .wake

theorem finish_iff {result : Except String String} :
    Runs poll (.finish result) trace (.finish output) ↔ trace = [] ∧ result = output := by
  constructor
  · intro ran
    cases ran
    exact ⟨rfl, rfl⟩
  · rintro ⟨rfl, rfl⟩
    exact .here _

end Runs

/-- Whether an exchange is a poll of a future that is not ready. -/
def Exchange.isIdle : Exchange → Bool
  | ⟨.pollFuture _, none⟩ => true
  | _ => false

/-- What is left of a trace without the polls that learned nothing. -/
def learned (trace : List Exchange) : List Exchange := trace.filter fun exchange => !exchange.isIdle

@[simp] theorem learned_nil : learned [] = [] := rfl

@[simp] theorem learned_scheduleTimer {delayMs : Nat} (token : (CtxCall.scheduleTimer delayMs).Reply)
    (rest : List Exchange) :
    learned (⟨.scheduleTimer delayMs, token⟩ :: rest) = ⟨.scheduleTimer delayMs, token⟩ :: learned rest := rfl

/-- The future of an activity is answered with results of activities. -/
def Typed (trace : List Exchange) : Prop :=
  ∀ name input sessionId activity value, ⟨.scheduleActivity name input sessionId, activity⟩ ∈ trace →
    ⟨.pollFuture activity, some value⟩ ∈ trace → (activityResult (some value)).isSome

/-- The future of one activity is answered with results of activities. -/
def TypedFor (activity : Nat) (trace : List Exchange) : Prop :=
  ∀ value, ⟨.pollFuture activity, some value⟩ ∈ trace → (activityResult (some value)).isSome

theorem TypedFor.tail {activity : Nat} {first : Exchange} {rest : List Exchange}
    (typed : TypedFor activity (first :: rest)) : TypedFor activity rest :=
  fun value polled => typed value (List.mem_cons_of_mem _ polled)

/-- What is read from an activity's future, once the polls that learned nothing are left out. -/
theorem TypedFor.cases {activity : Nat} {reply : Option CompletionResult} {rest : List Exchange}
    (typed : TypedFor activity (⟨.pollFuture activity, reply⟩ :: rest)) :
    reply = none ∨ ∃ value result, reply = some value ∧ activityResult (some value) = some result := by
  cases reply with
  | none => exact .inl rfl
  | some value =>
    obtain ⟨result, read⟩ := Option.isSome_iff_exists.mp (typed value List.mem_cons_self)
    exact .inr ⟨value, result, rfl, read⟩

/-! ## Exchanges with a context -/

namespace CtxInner

/-- A run of calls on a context; between two of them the engine tells the context about events. -/
inductive Performs : CtxInner → List Exchange → CtxInner → Prop
  | here (ctx : CtxInner) : Performs ctx [] ctx
  | exchange {ctx middle after : CtxInner} {request : CtxCall} {reply : request.Reply} {trace : List Exchange}
      (performed : ctx.perform request = .ok (reply, middle)) (later : Performs middle trace after) :
      Performs ctx (⟨request, reply⟩ :: trace) after
  | told {ctx middle after : CtxInner} {trace : List Exchange} (futures : middle.futures = ctx.futures)
      (next : middle.nextToken = ctx.nextToken) (later : Performs middle trace after) : Performs ctx trace after

/-- No future is held under a token that has not been handed out. -/
def HoldsIssued (ctx : CtxInner) : Prop := ∀ token, ctx.nextToken < token → ctx.futures token = none

/-- What a call leaves of the tokens. -/
structure KeepsKinds (ctx after : CtxInner) : Prop where
  next : ctx.nextToken ≤ after.nextToken
  held : after.HoldsIssued
  kinds : ∀ token ≤ ctx.nextToken,
    (after.futures token).map DurableFuture.kind = (ctx.futures token).map DurableFuture.kind

variable {ctx after : CtxInner} {trace : List Exchange}

theorem KeepsKinds.of_kinds (held : ctx.HoldsIssued) (next : ctx.nextToken ≤ after.nextToken)
    (kinds : ∀ token, (after.futures token).map DurableFuture.kind = (ctx.futures token).map DurableFuture.kind) :
    KeepsKinds ctx after := by
  refine ⟨next, fun token above => ?_, fun token _ => kinds token⟩
  have same := kinds token
  rw [held token (Nat.lt_of_le_of_lt next above)] at same
  exact Option.map_eq_none_iff.mp same

theorem KeepsKinds.schedule (held : ctx.HoldsIssued) {action : Action} {kind : Nat → ScheduleKind} {token : Nat}
    (scheduled : ctx.schedule action kind = (token, after)) : KeepsKinds ctx after := by
  obtain rfl : (ctx.schedule action kind).2 = after := by rw [scheduled]
  refine ⟨Nat.le_succ _, fun token above => ?_, fun token issued => ?_⟩
  · change Function.update ctx.futures (ctx.nextToken + 1) _ token = none
    have above : ctx.nextToken + 1 < token := above
    rw [Function.update_of_ne above.ne']
    exact held token (Nat.lt_of_succ_lt above)
  · change Option.map _ (Function.update ctx.futures (ctx.nextToken + 1) _ token) = _
    rw [Function.update_of_ne (Nat.lt_succ_of_le issued).ne]

theorem KeepsKinds.clearKvValues (held : ctx.HoldsIssued) (keys : List String) :
    KeepsKinds ctx (keys.foldl clearKvValue ctx) := by
  have frame : ∀ other : CtxInner, other.nextToken ≤ (keys.foldl clearKvValue other).nextToken ∧
      (keys.foldl clearKvValue other).futures = other.futures := by
    induction keys with
    | nil => exact fun other => ⟨Nat.le_refl _, rfl⟩
    | cons key rest ih =>
      intro other
      obtain ⟨next, futures⟩ := ih (other.clearKvValue key)
      exact ⟨(Nat.le_succ _).trans next, futures⟩
  obtain ⟨next, futures⟩ := frame ctx
  exact .of_kinds held next fun token => by rw [futures]

theorem KeepsKinds.perform (held : ctx.HoldsIssued) {request : CtxCall} {reply : request.Reply}
    (performed : ctx.perform request = .ok (reply, after)) : KeepsKinds ctx after := by
  cases request with
  | scheduleActivity | scheduleTimer | scheduleWait | dequeueEvent | scheduleSubOrchestration =>
    exact .schedule held (Except.ok.inj performed)
  | pollFuture token =>
    obtain ⟨futures, queue, rfl, _, kinds⟩ := perform_pollFuture performed
    exact .of_kinds held (Nat.le_refl _) kinds
  | dropFuture token =>
    obtain ⟨futures, tokens, cancelledKinds, same, kinds⟩ := dropFuture_frame ctx token
    cases performed
    rw [same]
    exact .of_kinds held (Nat.le_refl _) kinds
  | withTag token tag =>
    obtain ⟨_, rfl, _⟩ := withTag_frame performed
    exact .of_kinds held (Nat.le_refl _) fun _ => rfl
  | pruneKvValuesUpdatedBefore updatedBeforeMs =>
    cases performed
    exact .clearKvValues held _
  | getCustomStatus | getKvValue | getKvLength =>
    cases performed
    exact .of_kinds held (Nat.le_refl _) fun _ => rfl
  | _ =>
    cases performed
    exact .of_kinds held (Nat.le_succ _) fun _ => rfl

/-- A poll that is answered is one of a future of the kind of the answer. -/
theorem activityResult_of_pollFuture {token : Nat} {value : CompletionResult} {name : String}
    (polled : (ctx.pollFuture token).1 = some value)
    (kind : (ctx.futures token).map DurableFuture.kind = some (.activity name)) : (activityResult (some value)).isSome := by
  obtain ⟨future, found, same⟩ := Option.map_eq_some_iff.mp kind
  unfold pollFuture at polled
  simp only [found, same] at polled
  split_ifs at polled
  unfold readyValue at polled
  cases result : ctx.completionResults token with
  | none => simp [result] at polled
  | some completion =>
    cases completion <;> simp only [result] at polled <;> cases polled <;> rfl

theorem Performs.scheduled_above (performs : Performs ctx trace after) (held : ctx.HoldsIssued) {name input : String}
    {sessionId : Option String} {activity : Nat}
    (scheduled : ⟨.scheduleActivity name input sessionId, activity⟩ ∈ trace) : ctx.nextToken < activity := by
  induction performs with
  | here => cases scheduled
  | exchange performed _ ih =>
    have kept := KeepsKinds.perform held performed
    rcases List.mem_cons.mp scheduled with same | later
    · cases same
      cases performed
      exact Nat.lt_succ_self _
    · exact Nat.lt_of_le_of_lt kept.next (ih kept.held later)
  | told futures next _ ih =>
    rw [← next]
    exact ih (fun token above => by rw [futures]; exact held token (next ▸ above)) scheduled

theorem Performs.answered (performs : Performs ctx trace after) (held : ctx.HoldsIssued) {name : String} {activity : Nat}
    (kind : (ctx.futures activity).map DurableFuture.kind = some (.activity name)) : TypedFor activity trace := by
  induction performs with
  | here => exact fun _ polled => nomatch polled
  | @exchange ctx middle after request reply trace performed _ ih =>
    have kept := KeepsKinds.perform held performed
    have issued : activity ≤ ctx.nextToken := by
      by_contra above
      rw [held activity (Nat.lt_of_not_le above)] at kind
      cases kind
    intro value polled
    rcases List.mem_cons.mp polled with same | later
    · cases same
      exact activityResult_of_pollFuture (congrArg Prod.fst (Except.ok.inj performed)) kind
    · exact ih kept.held ((kept.kinds activity issued).trans kind) value later
  | told futures next _ ih =>
    exact ih (fun token above => by rw [futures]; exact held token (next ▸ above)) (by rw [futures]; exact kind)

/-- A context answers for the future of an activity with results of activities. -/
theorem Performs.typed (performs : Performs ctx trace after) (held : ctx.HoldsIssued) : Typed trace := by
  induction performs with
  | here => exact fun _ _ _ _ _ scheduled => nomatch scheduled
  | @exchange ctx middle after request reply trace performed later ih =>
    have kept := KeepsKinds.perform held performed
    intro name input sessionId activity value scheduled polled
    rcases List.mem_cons.mp scheduled with first | behind
    · cases first
      cases performed
      rcases List.mem_cons.mp polled with same | polled
      · cases same
      · have created : (ctx.schedule (.callActivity 0 name input sessionId none) fun _ => .activity name).2.futures
            (ctx.nextToken + 1) = some { kind := .activity name } := Function.update_self ..
        exact later.answered kept.held (congrArg (Option.map DurableFuture.kind) created) value polled
    · rcases List.mem_cons.mp polled with first | polled
      · cases first
        -- its token is handed out later, so it has no future yet
        have unknown : ctx.futures activity = none :=
          held activity (Nat.lt_of_le_of_lt kept.next (later.scheduled_above kept.held behind))
        have answer : (ctx.pollFuture activity).1 = some value := congrArg Prod.fst (Except.ok.inj performed)
        simp [pollFuture, unknown] at answer
      · exact ih kept.held name input sessionId activity value behind polled
  | told futures next _ ih =>
    exact ih fun token above => by rw [futures]; exact held token (next ▸ above)

end CtxInner

/-- The attempts that a waiting call has left. -/
def RetryState.attemptsLeft : RetryState → Nat
  | .awaiting remaining _ | .racing remaining _ _ | .backingOff remaining _ _ => remaining

namespace RetryCall

/-! ## What the policy allows -/

inductive Outcome where
  | settled (result : Except String String)
  | timedOut

/-- The exchanges of one attempt. -/
inductive Attempted (call : RetryCall) : Outcome → List Exchange → Prop
  | alone {activity : Nat} {value : CompletionResult} {result : Except String String}
      (read : activityResult (some value) = some result) :
      Attempted call (.settled result)
        [⟨.scheduleActivity call.name call.input call.sessionId, activity⟩, ⟨.pollFuture activity, some value⟩]
  /-- The activity is ready before the deadline. -/
  | won {activity deadline : Nat} {timeout : Duration} {value : CompletionResult} {result : Except String String}
      (timed : call.policy.timeout = some timeout) (read : activityResult (some value) = some result) :
      Attempted call (.settled result)
        [⟨.scheduleActivity call.name call.input call.sessionId, activity⟩,
          ⟨.scheduleTimer (timeout.asMillis % 2 ^ 64), deadline⟩, ⟨.pollFuture activity, some value⟩,
          ⟨.dropFuture deadline, ()⟩]
  /-- The deadline fires first. -/
  | lost {activity deadline : Nat} {timeout : Duration} {fired : CompletionResult}
      (timed : call.policy.timeout = some timeout) :
      Attempted call .timedOut
        [⟨.scheduleActivity call.name call.input call.sessionId, activity⟩,
          ⟨.scheduleTimer (timeout.asMillis % 2 ^ 64), deadline⟩, ⟨.pollFuture deadline, some fired⟩,
          ⟨.dropFuture activity, ()⟩]

/-- The exchanges of the pause after an attempt that failed. -/
inductive BackedOff (call : RetryCall) (attempt : Nat) : List Exchange → Prop
  | skipped (zero : (call.policy.delayForAttempt attempt).isZero) : BackedOff call attempt []
  | slept {timer : Nat} {fired : CompletionResult} (positive : ¬ (call.policy.delayForAttempt attempt).isZero) :
      BackedOff call attempt
        [⟨.scheduleTimer ((call.policy.delayForAttempt attempt).asMillis % 2 ^ 64), timer⟩,
          ⟨.pollFuture timer, some fired⟩]

/-- The exchanges from an attempt on, and what the call returns. -/
inductive Follows (call : RetryCall) : Nat → List Exchange → Except String String → Prop
  | succeeds {attempt : Nat} {events : List Exchange} {result : String}
      (tried : Attempted call (.settled (.ok result)) events) : Follows call attempt events (.ok result)
  | timesOut {attempt : Nat} {events : List Exchange} (tried : Attempted call .timedOut events) :
      Follows call attempt events (.error Duroxide.timedOut)
  | exhausted {events : List Exchange} {message : String} (tried : Attempted call (.settled (.error message)) events) :
      Follows call call.policy.maxAttempts events (.error message)
  | retries {attempt : Nat} {events pause rest : List Exchange} {message : String} {output : Except String String}
      (left : attempt < call.policy.maxAttempts) (tried : Attempted call (.settled (.error message)) events)
      (paused : BackedOff call attempt pause) (later : Follows call (attempt + 1) rest output) :
      Follows call attempt (events ++ (pause ++ rest)) output

/-! ## A run follows the policy -/

variable {call : RetryCall} {trace : List Exchange} {output : Except String String} {remaining : Nat}

/-- The rest of the loop after an attempt that has a result. -/
abbrev afterAttempt (call : RetryCall) (remaining : Nat) (result : Except String String) : Script (Option RetryState) :=
  call.settle some .finish remaining (call.attemptFrom some .finish remaining) result

theorem afterAttempt_error (call : RetryCall) (fewer : Nat) (message : String) :
    call.afterAttempt (fewer + 1) (.error message) =
      if (call.policy.delayForAttempt (call.policy.maxAttempts - (fewer + 1))).isZero then
        call.attemptFrom some .finish (fewer + 1) message
      else scheduleTimer (call.policy.delayForAttempt (call.policy.maxAttempts - (fewer + 1))) fun timer =>
        pollBackoff some (fewer + 1) message timer (call.attemptFrom some .finish (fewer + 1)) := by
  rw [afterAttempt, settle, if_pos (Nat.succ_pos fewer)]

/-- The call waits for the activity alone. -/
theorem awaiting_spec {activity : Nat}
    (ran : Runs call.handler.poll (.suspend (some (.awaiting remaining activity))) trace (.finish output))
    (typed : TypedFor activity trace) :
    ∃ value result rest, activityResult (some value) = some result ∧ rest ⊆ trace ∧
      learned trace = ⟨.pollFuture activity, some value⟩ :: learned rest ∧
      Runs call.handler.poll (call.afterAttempt remaining result) rest (.finish output) := by
  induction trace with
  | nil =>
    obtain ⟨_, _, same, _⟩ := Runs.call_iff.mp (Runs.suspend_iff.mp ran)
    cases same
  | cons exchange rest ih =>
    obtain ⟨reply, later, same, ran⟩ := Runs.call_iff.mp (Runs.suspend_iff.mp ran)
    cases same
    rcases typed.cases with rfl | ⟨value, result, rfl, read⟩
    · obtain ⟨value, result, later, read, inside, reads, ran⟩ := ih ran typed.tail
      exact ⟨value, result, later, read, fun _ listed => List.mem_cons_of_mem _ (inside listed), reads, ran⟩
    · simp only [read] at ran
      exact ⟨value, result, rest, read, List.subset_cons_self .., rfl, ran⟩

/-- The call waits for the timer of a pause. -/
theorem pollBackoff_spec {message : String} {timer : Nat}
    (ran : Runs call.handler.poll
      (pollBackoff some remaining message timer (call.attemptFrom some .finish remaining)) trace (.finish output)) :
    ∃ fired rest, rest ⊆ trace ∧ learned trace = ⟨.pollFuture timer, some fired⟩ :: learned rest ∧
      Runs call.handler.poll (call.attemptFrom some .finish remaining message) rest (.finish output) := by
  induction trace with
  | nil =>
    obtain ⟨_, _, same, _⟩ := Runs.call_iff.mp ran
    cases same
  | cons exchange rest ih =>
    obtain ⟨reply, later, same, ran⟩ := Runs.call_iff.mp ran
    cases same
    cases reply with
    | none =>
      obtain ⟨fired, later, inside, reads, ran⟩ := ih (Runs.suspend_iff.mp ran)
      exact ⟨fired, later, fun _ listed => List.mem_cons_of_mem _ (inside listed), reads, ran⟩
    | some fired => exact ⟨fired, rest, List.subset_cons_self .., rfl, ran⟩

/-- How a race ends. -/
structure Raced (call : RetryCall) (remaining activity deadline : Nat) (trace : List Exchange)
    (output : Except String String) : Prop where
  ends : (∃ fired, learned trace = [⟨.pollFuture deadline, some fired⟩, ⟨.dropFuture activity, ()⟩] ∧
      output = .error Duroxide.timedOut) ∨
    ∃ value result rest, activityResult (some value) = some result ∧ rest ⊆ trace ∧
      learned trace = ⟨.pollFuture activity, some value⟩ :: ⟨.dropFuture deadline, ()⟩ :: learned rest ∧
      Runs call.handler.poll (call.afterAttempt remaining result) rest (.finish output)

theorem Raced.idle {activity deadline token : Nat} (raced : Raced call remaining activity deadline trace output) :
    Raced call remaining activity deadline (⟨.pollFuture token, none⟩ :: trace) output := by
  rcases raced.ends with lost | ⟨value, result, rest, read, inside, reads, ran⟩
  · exact ⟨.inl lost⟩
  · exact ⟨.inr ⟨value, result, rest, read, fun _ listed => List.mem_cons_of_mem _ (inside listed), reads, ran⟩⟩

/-- Both futures are polled in turn, the activity first. -/
theorem racing_spec {activity deadline : Nat} (typed : TypedFor activity trace) :
    (Runs call.handler.poll (pollDeadline some .finish remaining activity deadline) trace (.finish output) →
        Raced call remaining activity deadline trace output) ∧
      (Runs call.handler.poll (.suspend (some (.racing remaining activity deadline))) trace (.finish output) →
        Raced call remaining activity deadline trace output) := by
  induction trace with
  | nil =>
    constructor
    · intro ran
      obtain ⟨_, _, same, _⟩ := Runs.call_iff.mp ran
      cases same
    · intro ran
      obtain ⟨_, _, same, _⟩ := Runs.call_iff.mp (Runs.suspend_iff.mp ran)
      cases same
  | cons exchange rest ih =>
    obtain ⟨fromDeadline, fromActivity⟩ := ih typed.tail
    constructor
    · intro ran
      obtain ⟨reply, later, same, ran⟩ := Runs.call_iff.mp ran
      cases same
      cases reply with
      | none => exact (fromActivity ran).idle
      | some fired =>
        obtain ⟨_, last, rfl, ended⟩ := Runs.call_iff.mp ran
        obtain ⟨rfl, rfl⟩ := Runs.finish_iff.mp ended
        exact ⟨.inl ⟨fired, rfl, rfl⟩⟩
    · intro ran
      obtain ⟨reply, later, same, ran⟩ := Runs.call_iff.mp (Runs.suspend_iff.mp ran)
      cases same
      rcases typed.cases with rfl | ⟨value, result, rfl, read⟩
      · exact (fromDeadline ran).idle
      · simp only [read] at ran
        obtain ⟨_, last, rfl, ended⟩ := Runs.call_iff.mp ran
        refine ⟨.inr ⟨value, result, last, read, ?_, rfl, ended⟩⟩
        exact fun _ listed => List.mem_cons_of_mem _ (List.mem_cons_of_mem _ listed)

theorem typed_of_subset {rest : List Exchange} (typed : Typed trace) (inside : rest ⊆ trace) : Typed rest :=
  fun name input sessionId activity value scheduled polled =>
    typed name input sessionId activity value (inside scheduled) (inside polled)

/-- After an attempt with a result the call ends, or pauses and goes on with the next attempt. -/
theorem settle_spec {events rest : List Exchange} {result : Except String String}
    (bound : remaining < call.policy.maxAttempts)
    (next : ∀ fewer message trace, remaining = fewer + 1 →
      Runs call.handler.poll (call.attemptFrom some .finish remaining message) trace (.finish output) → Typed trace →
      Follows call (call.policy.maxAttempts - fewer) (learned trace) output)
    (tried : Attempted call (.settled result) events)
    (ran : Runs call.handler.poll (call.afterAttempt remaining result) rest (.finish output)) (typed : Typed rest) :
    Follows call (call.policy.maxAttempts - remaining) (events ++ learned rest) output := by
  cases result with
  | ok value =>
    obtain ⟨rfl, rfl⟩ := Runs.finish_iff.mp ran
    rw [learned_nil, List.append_nil]
    exact .succeeds tried
  | error message =>
    cases remaining with
    | zero =>
      obtain ⟨rfl, rfl⟩ := Runs.finish_iff.mp ran
      rw [learned_nil, List.append_nil]
      exact .exhausted tried
    | succ fewer =>
      have following : call.policy.maxAttempts - (fewer + 1) + 1 = call.policy.maxAttempts - fewer := by omega
      have left : call.policy.maxAttempts - (fewer + 1) < call.policy.maxAttempts := by omega
      rw [afterAttempt_error] at ran
      split_ifs at ran with zero
      · refine .retries left tried (.skipped zero) ?_
        rw [following]
        exact next fewer message rest rfl ran typed
      · obtain ⟨timer, later, rfl, paused⟩ := Runs.call_iff.mp ran
        obtain ⟨fired, last, inside, reads, again⟩ := pollBackoff_spec paused
        rw [learned_scheduleTimer, reads]
        refine .retries left tried (.slept zero) ?_
        rw [following]
        have typedLast := typed_of_subset typed fun _ listed => List.mem_cons_of_mem _ (inside listed)
        exact next fewer message last rfl again typedLast

/-- One attempt, and the rest of the loop after it. -/
theorem attempt_spec (bound : remaining < call.policy.maxAttempts)
    (next : ∀ fewer message trace, remaining = fewer + 1 →
      Runs call.handler.poll (call.attemptFrom some .finish remaining message) trace (.finish output) → Typed trace →
      Follows call (call.policy.maxAttempts - fewer) (learned trace) output) {lastError : String}
    (ran : Runs call.handler.poll (call.attemptFrom some .finish (remaining + 1) lastError) trace (.finish output))
    (typed : Typed trace) : Follows call (call.policy.maxAttempts - remaining) (learned trace) output := by
  obtain ⟨activity, scheduled, rfl, first⟩ := Runs.call_iff.mp ran
  obtain ⟨reply, polled, rfl, second⟩ := Runs.call_iff.mp first
  have typedFor : TypedFor activity (⟨.pollFuture activity, reply⟩ :: polled) := fun value listed =>
    typed _ _ _ activity value List.mem_cons_self (List.mem_cons_of_mem _ listed)
  have typedRest : ∀ rest, rest ⊆ polled → Typed rest := fun rest inside =>
    typed_of_subset typed fun _ listed => List.mem_cons_of_mem _ (List.mem_cons_of_mem _ (inside listed))
  rcases typedFor.cases with rfl | ⟨value, result, rfl, read⟩
  · cases timed : call.policy.timeout with
    | none =>
      simp only [activityResult, timed] at second
      obtain ⟨value, result, rest, read, inside, reads, settled⟩ := awaiting_spec second typedFor.tail
      change Follows call _ (⟨.scheduleActivity call.name call.input call.sessionId, activity⟩ :: learned polled) output
      rw [reads]
      exact settle_spec bound next (.alone read) settled (typedRest rest inside)
    | some timeout =>
      simp only [activityResult, timed] at second
      obtain ⟨deadline, later, rfl, third⟩ := Runs.call_iff.mp second
      change Follows call _ (⟨.scheduleActivity call.name call.input call.sessionId, activity⟩ ::
        ⟨.scheduleTimer (timeout.asMillis % 2 ^ 64), deadline⟩ :: learned later) _
      rcases ((racing_spec typedFor.tail.tail).1 third).ends with
        ⟨fired, reads, rfl⟩ | ⟨value, result, rest, read, inside, reads, settled⟩
      · rw [reads]
        exact .timesOut (.lost timed)
      · rw [reads]
        exact settle_spec bound next (.won timed read) settled
          (typedRest rest fun _ listed => List.mem_cons_of_mem _ (inside listed))
  · simp only [read] at second
    exact settle_spec bound next (.alone read) second (typedRest polled fun _ listed => listed)

theorem attemptFrom_spec (bound : remaining < call.policy.maxAttempts) {lastError : String}
    (ran : Runs call.handler.poll (call.attemptFrom some .finish (remaining + 1) lastError) trace (.finish output))
    (typed : Typed trace) : Follows call (call.policy.maxAttempts - remaining) (learned trace) output := by
  induction remaining generalizing trace lastError with
  | zero => exact attempt_spec bound (fun _ _ _ same => nomatch same) ran typed
  | succ fewer ih =>
    refine attempt_spec bound (fun fewer message trace same ran typed => ?_) ran typed
    obtain rfl := Nat.succ.inj same
    exact ih (Nat.lt_of_succ_lt bound) ran typed

/-! ## Every sequence that the policy allows is that of a run -/

theorem run_of_attempted {events rest : List Exchange} {result : Except String String} (lastError : String)
    (tried : Attempted call (.settled result) events)
    (later : Runs call.handler.poll (call.afterAttempt remaining result) rest (.finish output)) :
    ∃ trace, Runs call.handler.poll (call.attemptFrom some .finish (remaining + 1) lastError) trace (.finish output) ∧
      learned trace = events ++ learned rest := by
  cases tried with
  | @alone activity value _ read =>
    refine ⟨⟨.scheduleActivity call.name call.input call.sessionId, activity⟩ ::
      ⟨.pollFuture activity, some value⟩ :: rest, .exchange (.exchange ?_), rfl⟩
    simp only [read]
    exact later
  | @won activity deadline timeout value _ timed read =>
    refine ⟨⟨.scheduleActivity call.name call.input call.sessionId, activity⟩ :: ⟨.pollFuture activity, none⟩ ::
      ⟨.scheduleTimer (timeout.asMillis % 2 ^ 64), deadline⟩ :: ⟨.pollFuture deadline, none⟩ ::
      ⟨.pollFuture activity, some value⟩ :: ⟨.dropFuture deadline, ()⟩ :: rest, .exchange (.exchange ?_), rfl⟩
    simp only [activityResult, timed]
    refine .exchange (.exchange (.wake (.exchange ?_)))
    simp only [read]
    exact .exchange later

theorem run_of_lost {events : List Exchange} (remaining : Nat) (lastError : String)
    (tried : Attempted call .timedOut events) :
    ∃ trace, Runs call.handler.poll (call.attemptFrom some .finish (remaining + 1) lastError) trace
      (.finish (.error Duroxide.timedOut)) ∧ learned trace = events := by
  cases tried with
  | @lost activity deadline timeout fired timed =>
    refine ⟨[⟨.scheduleActivity call.name call.input call.sessionId, activity⟩, ⟨.pollFuture activity, none⟩,
      ⟨.scheduleTimer (timeout.asMillis % 2 ^ 64), deadline⟩, ⟨.pollFuture deadline, some fired⟩,
      ⟨.dropFuture activity, ()⟩], .exchange (.exchange ?_), rfl⟩
    simp only [activityResult, timed]
    exact .exchange (.exchange (.exchange (.here _)))

theorem run_of_backedOff {pause rest : List Exchange} {fewer : Nat} {message : String}
    (paused : BackedOff call (call.policy.maxAttempts - (fewer + 1)) pause)
    (later : Runs call.handler.poll (call.attemptFrom some .finish (fewer + 1) message) rest (.finish output)) :
    ∃ trace, Runs call.handler.poll (call.afterAttempt (fewer + 1) (.error message)) trace (.finish output) ∧
      learned trace = pause ++ learned rest := by
  rw [afterAttempt_error]
  cases paused with
  | skipped zero =>
    rw [if_pos zero]
    exact ⟨rest, later, rfl⟩
  | @slept timer fired positive =>
    rw [if_neg positive]
    exact ⟨_ :: ⟨.pollFuture timer, some fired⟩ :: rest, .exchange (.exchange later), rfl⟩

theorem run_of_follows {attempt : Nat} {events : List Exchange} (follows : Follows call attempt events output)
    (remaining : Nat) (bound : attempt + remaining = call.policy.maxAttempts) (lastError : String) :
    ∃ trace, Runs call.handler.poll (call.attemptFrom some .finish (remaining + 1) lastError) trace (.finish output) ∧
      learned trace = events := by
  induction follows generalizing remaining lastError with
  | succeeds tried =>
    obtain ⟨trace, ran, reads⟩ := run_of_attempted lastError tried (.here (.finish (.ok _)))
    exact ⟨trace, ran, reads.trans (List.append_nil _)⟩
  | timesOut tried => exact run_of_lost remaining lastError tried
  | @exhausted events message tried =>
    obtain rfl : remaining = 0 := by omega
    have ended : Runs call.handler.poll (call.afterAttempt 0 (.error message)) [] (.finish (.error message)) := .here _
    obtain ⟨trace, ran, reads⟩ := run_of_attempted lastError tried ended
    exact ⟨trace, ran, reads.trans (List.append_nil _)⟩
  | @retries attempt events pause rest message output left tried paused _ ih =>
    obtain ⟨fewer, rfl⟩ := Nat.exists_eq_succ_of_ne_zero (show remaining ≠ 0 by omega)
    have number : attempt = call.policy.maxAttempts - (fewer + 1) := by omega
    obtain ⟨later, ran, reads⟩ := ih fewer (by omega) message
    obtain ⟨between, slept, learnedPause⟩ := run_of_backedOff (number ▸ paused) ran
    obtain ⟨trace, whole, learnedAll⟩ := run_of_attempted lastError tried slept
    exact ⟨trace, whole, by rw [learnedAll, learnedPause, reads]⟩

/-! ## The whole call -/

theorem handler_poll_none (same : call.policy.maxAttempts = remaining + 1) :
    call.handler.poll none = call.attemptFrom some .finish (remaining + 1) "" := by
  change call.attemptFrom some .finish call.policy.maxAttempts "" = _
  rw [same]

theorem follows_of_run (positive : 0 < call.policy.maxAttempts)
    (ran : Runs call.handler.poll (call.handler.poll none) trace (.finish output)) (typed : Typed trace) :
    Follows call 1 (learned trace) output := by
  obtain ⟨remaining, same⟩ := Nat.exists_eq_succ_of_ne_zero positive.ne'
  rw [handler_poll_none same] at ran
  have follows := attemptFrom_spec (show remaining < call.policy.maxAttempts by omega) ran typed
  rwa [show call.policy.maxAttempts - remaining = 1 by omega] at follows

/-- On a context, whatever the engine tells it meanwhile, a call that returns has followed its policy. -/
theorem follows_on_context {ctx after : CtxInner} (held : ctx.HoldsIssued) (performs : ctx.Performs trace after)
    (positive : 0 < call.policy.maxAttempts)
    (ran : Runs call.handler.poll (call.handler.poll none) trace (.finish output)) :
    Follows call 1 (learned trace) output :=
  follows_of_run positive ran (performs.typed held)

/-- A call returns a value after some exchanges, the polls of unready futures aside, exactly when its policy allows them. -/
theorem retry_follows_policy (call : RetryCall) (positive : 0 < call.policy.maxAttempts) {events : List Exchange}
    (typed : Typed events) (output : Except String String) :
    (∃ trace, Runs call.handler.poll (call.handler.poll none) trace (.finish output) ∧ learned trace = events) ↔
      Follows call 1 events output := by
  constructor
  · rintro ⟨trace, ran, rfl⟩
    refine follows_of_run positive ran ?_
    intro name input sessionId activity value scheduled polled
    exact typed name input sessionId activity value (List.mem_filter.mpr ⟨scheduled, rfl⟩)
      (List.mem_filter.mpr ⟨polled, rfl⟩)
  · intro follows
    obtain ⟨remaining, same⟩ := Nat.exists_eq_succ_of_ne_zero positive.ne'
    rw [handler_poll_none same]
    exact run_of_follows follows remaining (by omega) ""

theorem second_fits : 1 < 2 ^ 64 := by decide

theorem minute_fits : 60 < 2 ^ 64 := by decide

/-- At most two attempts of a minute each, a second apart. -/
def checkout : RetryCall :=
  scheduleActivityWithRetryOnSession "Charge" "order"
    { maxAttempts := 2
      backoff := .fixed ⟨1, 0, second_fits, Duration.zero_subsecond⟩
      timeout := some ⟨60, 0, minute_fits, Duration.zero_subsecond⟩ } "s1"

/-- The first attempt fails, the second one does not end in time. -/
def checkoutEvents : List Exchange :=
  [⟨.scheduleActivity "Charge" "order" (some "s1"), (1 : Nat)⟩, ⟨.scheduleTimer 60000, (2 : Nat)⟩,
    ⟨.pollFuture 1, some (.activityErr "busy")⟩, ⟨.dropFuture 2, ()⟩, ⟨.scheduleTimer 1000, (3 : Nat)⟩,
    ⟨.pollFuture 3, some .timerFired⟩, ⟨.scheduleActivity "Charge" "order" (some "s1"), (4 : Nat)⟩,
    ⟨.scheduleTimer 60000, (5 : Nat)⟩, ⟨.pollFuture 5, some .timerFired⟩, ⟨.dropFuture 4, ()⟩]

theorem retry_follows_policy_checkout :
    ∃ trace, Runs checkout.handler.poll (checkout.handler.poll none) trace (.finish (.error Duroxide.timedOut)) ∧
      learned trace = checkoutEvents := by
  have typed : Typed checkoutEvents := by
    intro name input sessionId activity value scheduled polled
    simp only [checkoutEvents, List.mem_cons, List.not_mem_nil, or_false] at scheduled polled
    rcases polled with same | same | same | same | same | same | same | same | same | same <;> cases same
    · rfl
    all_goals
      rcases scheduled with same | same | same | same | same | same | same | same | same | same <;> cases same
  have first : Attempted checkout (.settled (.error "busy")) (checkoutEvents.take 4) :=
    @Attempted.won checkout 1 2 _ (.activityErr "busy") _ rfl rfl
  have paused : BackedOff checkout 1 ((checkoutEvents.drop 4).take 2) :=
    @BackedOff.slept checkout 1 3 .timerFired (by decide)
  have second : Attempted checkout .timedOut (checkoutEvents.drop 6) := @Attempted.lost checkout 4 5 _ .timerFired rfl
  exact (retry_follows_policy checkout (by decide) typed _).mpr (.retries (by decide) first paused (.timesOut second))

/-! ## Unfinished calls -/

def schedulesActivity : Exchange → Bool
  | ⟨.scheduleActivity .., _⟩ => true
  | _ => false

/-- Whatever runs from here schedules at most some activities within a number of exchanges. -/
def Bounded (call : RetryCall) (exchanges bound : Nat) (script : Script (Option RetryState)) : Prop :=
  ∀ trace last, Runs call.handler.poll script trace last → trace.length ≤ exchanges →
    trace.countP schedulesActivity ≤ bound

section Bounds

variable {exchanges bound : Nat} {request : CtxCall} {next : request.Reply → Script (Option RetryState)}

theorem bounded_finish (result : Except String String) : Bounded call exchanges bound (.finish result) := by
  intro trace last ran _
  cases ran
  exact Nat.zero_le _

theorem bounded_call (free : ∀ reply, schedulesActivity ⟨request, reply⟩ = false)
    (later : ∀ reply, Bounded call exchanges bound (next reply)) :
    Bounded call (exchanges + 1) bound (.call request next) := by
  intro trace last ran short
  cases ran with
  | here => exact Nat.zero_le _
  | @exchange _ _ reply rest _ ran =>
    rw [List.countP_cons, free]
    exact later reply rest last ran (Nat.le_of_succ_le_succ short)

theorem Bounded.mono {script : Script (Option RetryState)} {fewer : Nat} (bounded : Bounded call exchanges bound script)
    (below : fewer ≤ exchanges) : Bounded call fewer bound script :=
  fun trace last ran short => bounded trace last ran (short.trans below)

/-- A call within the same number of exchanges. -/
theorem bounded_step (free : ∀ reply, schedulesActivity ⟨request, reply⟩ = false)
    (later : ∀ reply, Bounded call exchanges bound (next reply)) : Bounded call exchanges bound (.call request next) :=
  (bounded_call free later).mono (Nat.le_succ exchanges)

theorem bounded_attempt {name input : String} {sessionId : Option String}
    {next : (CtxCall.scheduleActivity name input sessionId).Reply → Script (Option RetryState)}
    (later : ∀ reply, Bounded call exchanges bound (next reply)) :
    Bounded call exchanges (bound + 1) (.call (.scheduleActivity name input sessionId) next) := by
  intro trace last ran short
  cases ran with
  | here => exact Nat.zero_le _
  | @exchange _ _ reply rest _ ran =>
    rw [List.countP_cons]
    exact Nat.add_le_add (later reply rest last ran (Nat.le_of_succ_le short)) (Nat.le_refl 1)

/-- What waits is bounded by the attempts that it has left. -/
def Waits (call : RetryCall) (exchanges : Nat) : Prop :=
  ∀ state : RetryState, Bounded call exchanges state.attemptsLeft (.suspend (some state))

theorem bounded_pollDeadline (waits : Waits call exchanges) (activity deadline : Nat) :
    Bounded call exchanges remaining (pollDeadline some .finish remaining activity deadline) := by
  refine bounded_step (fun _ => rfl) fun reply => ?_
  split_ifs
  · exact bounded_step (fun _ => rfl) fun _ => bounded_finish _
  · exact waits (.racing remaining activity deadline)

theorem bounded_afterAttempt (waits : Waits call exchanges)
    (again : ∀ message, Bounded call exchanges remaining (call.attemptFrom some .finish remaining message))
    (result : Except String String) : Bounded call exchanges remaining (call.afterAttempt remaining result) := by
  cases result with
  | ok value => exact bounded_finish _
  | error message =>
    cases remaining with
    | zero => exact bounded_finish _
    | succ fewer =>
      rw [afterAttempt_error]
      split_ifs
      · exact again message
      · refine bounded_step (fun _ => rfl) fun timer => bounded_step (fun _ => rfl) fun reply => ?_
        split_ifs
        · exact again message
        · exact waits (.backingOff (fewer + 1) message timer)

theorem bounded_attemptFrom (waits : Waits call exchanges) (remaining : Nat) (lastError : String) :
    Bounded call exchanges remaining (call.attemptFrom some .finish remaining lastError) := by
  induction remaining generalizing lastError with
  | zero => exact bounded_finish _
  | succ remaining ih =>
    refine bounded_attempt fun activity => bounded_step (fun _ => rfl) fun reply => ?_
    cases activityResult reply with
    | some result =>
      exact bounded_afterAttempt waits ih result
    | none =>
      cases call.policy.timeout with
      | none =>
        exact waits (.awaiting remaining activity)
      | some timeout =>
        exact bounded_step (fun _ => rfl) fun deadline => bounded_pollDeadline waits activity deadline

/-- By the number of exchanges: a poll that learns nothing has used one of them. -/
theorem waits (call : RetryCall) (exchanges : Nat) : Waits call exchanges := by
  induction exchanges with
  | zero =>
    intro state trace last _ short
    rw [List.length_eq_zero_iff.mp (Nat.le_zero.mp short)]
    exact Nat.zero_le _
  | succ exchanges ih =>
    intro state trace last ran short
    cases ran with
    | here => exact Nat.zero_le _
    | wake ran =>
      refine (?_ : Bounded call (exchanges + 1) state.attemptsLeft (call.handler.poll (some state))) trace last ran short
      cases state with
      | awaiting remaining activity =>
        refine bounded_call (fun _ => rfl) fun reply => ?_
        cases activityResult reply with
        | none =>
          exact ih (.awaiting remaining activity)
        | some result =>
          exact bounded_afterAttempt ih (bounded_attemptFrom ih remaining) result
      | racing remaining activity deadline =>
        refine bounded_call (fun _ => rfl) fun reply => ?_
        cases activityResult reply with
        | none =>
          exact bounded_pollDeadline ih activity deadline
        | some result =>
          exact bounded_step (fun _ => rfl) fun _ => bounded_afterAttempt ih (bounded_attemptFrom ih remaining) result
      | backingOff remaining lastError timer =>
        refine bounded_call (fun _ => rfl) fun reply => ?_
        split_ifs
        · exact bounded_attemptFrom ih remaining lastError
        · exact ih (.backingOff remaining lastError timer)

end Bounds

/-- However far a call got, and whatever it learned, it scheduled at most as many activities as its policy allows. -/
theorem retry_attempts_bounded (call : RetryCall) {trace : List Exchange} {last : Script (Option RetryState)}
    (ran : Runs call.handler.poll (call.handler.poll none) trace last) :
    trace.countP schedulesActivity ≤ call.policy.maxAttempts :=
  bounded_attemptFrom (waits call trace.length) call.policy.maxAttempts "" trace last ran (Nat.le_refl _)

theorem retry_attempts_bounded_checkout :
    (checkoutEvents.take 1).countP schedulesActivity ≤ checkout.policy.maxAttempts :=
  retry_attempts_bounded checkout (.exchange (.here _))

end RetryCall

end Duroxide
