import Duroxide.Model.Orchestration

/-! # What a context call touches

Polling, dropping and tagging a future and clearing keys are the calls with more than one outcome. Each of them
touches a few tables of the context, whatever its outcome.
-/

namespace Duroxide.CtxInner

variable {ctx after : CtxInner}

/-- The mailbox is as it was, or a message was taken from it. -/
def TakesAtMostOne (queue after : QueueEvents) : Prop := after = queue ∨ ∃ id, after = (queue.getQueueMessage id).2

/-- The readiness test touches the mailbox only. -/
theorem readyValue_frame (ctx : CtxInner) (token : Nat) (kind : ScheduleKind) :
    ∃ queue, (ctx.readyValue token kind).2 = { ctx with queue } ∧ TakesAtMostOne ctx.queue queue := by
  cases kind with
  | queueDequeue name =>
    unfold readyValue
    dsimp only
    split
    · exact ⟨_, rfl, .inr ⟨_, rfl⟩⟩
    · exact ⟨ctx.queue, rfl, .inl rfl⟩
  | _ => exact ⟨ctx.queue, rfl, .inl rfl⟩

/-- A future that is replaced by one of its kind leaves all futures their kinds. -/
theorem kinds_of_update {token : Nat} {future replaced : DurableFuture} (found : ctx.futures token = some future)
    (same : replaced.kind = future.kind) (other : Nat) :
    (Function.update ctx.futures token (some replaced) other).map DurableFuture.kind =
      (ctx.futures other).map DurableFuture.kind := by
  rcases eq_or_ne other token with rfl | differs
  · rw [Function.update_self, found, Option.map_some, Option.map_some, same]
  · rw [Function.update_of_ne differs]

/-- Polling a future touches the futures, but not their kinds, and the mailbox. -/
theorem pollFuture_frame (ctx : CtxInner) (token : Nat) :
    ∃ futures queue, (ctx.pollFuture token).2 = { ctx with futures, queue } ∧ TakesAtMostOne ctx.queue queue ∧
      ∀ other, (futures other).map DurableFuture.kind = (ctx.futures other).map DurableFuture.kind := by
  unfold pollFuture
  split
  · rename_i future found
    obtain ⟨queue, same, taken⟩ := readyValue_frame ctx token future.kind
    split_ifs
    · exact ⟨ctx.futures, ctx.queue, rfl, .inl rfl, fun _ => rfl⟩
    · generalize ctx.readyValue token future.kind = ready at same
      obtain ⟨none | value, polled⟩ := ready
      · exact ⟨ctx.futures, queue, same, taken, fun _ => rfl⟩
      · cases same
        exact ⟨_, queue, rfl, taken, kinds_of_update found rfl⟩
  · exact ⟨ctx.futures, ctx.queue, rfl, .inl rfl, fun _ => rfl⟩

theorem perform_pollFuture {token : Nat} {reply : Option CompletionResult}
    (performed : ctx.perform (.pollFuture token) = .ok (reply, after)) :
    ∃ futures queue, after = { ctx with futures, queue } ∧ TakesAtMostOne ctx.queue queue ∧
      ∀ other, (futures other).map DurableFuture.kind = (ctx.futures other).map DurableFuture.kind := by
  have polled : ctx.pollFuture token = (reply, after) := Except.ok.inj performed
  have frame := pollFuture_frame ctx token
  rwa [polled] at frame

/-- Dropping a future touches the futures, but not their kinds, and the record of the drops. -/
theorem dropFuture_frame (ctx : CtxInner) (token : Nat) :
    ∃ futures cancelledTokens cancelledTokenKinds,
      ctx.dropFuture token = { ctx with futures, cancelledTokens, cancelledTokenKinds } ∧
      ∀ other, (futures other).map DurableFuture.kind = (ctx.futures other).map DurableFuture.kind := by
  unfold dropFuture
  split
  · rename_i future found
    split_ifs
    · exact ⟨_, _, _, rfl, fun _ => rfl⟩
    · exact ⟨_, _, _, rfl, kinds_of_update found rfl⟩
    · exact ⟨_, _, _, rfl, kinds_of_update found rfl⟩
  · exact ⟨_, _, _, rfl, fun _ => rfl⟩

/-- Polling one future leaves the others as they are. -/
theorem pollFuture_others (ctx : CtxInner) {token other : Nat} (differs : other ≠ token) :
    (ctx.pollFuture token).2.futures other = ctx.futures other := by
  unfold pollFuture
  split
  · rename_i future found
    obtain ⟨queue, same, _⟩ := readyValue_frame ctx token future.kind
    split_ifs
    · rfl
    · generalize ctx.readyValue token future.kind = ready at same
      obtain ⟨none | value, polled⟩ := ready
      · cases same
        rfl
      · cases same
        exact Function.update_of_ne differs _ _
  · rfl

/-- A future is as it was, or dropped. -/
theorem dropFuture_future (ctx : CtxInner) (token other : Nat) :
    (ctx.dropFuture token).futures other = ctx.futures other ∨
      ∀ future ∈ (ctx.dropFuture token).futures other, future.dropped := by
  have updated : ∀ future : DurableFuture, future.dropped →
      Function.update ctx.futures token (some future) other = ctx.futures other ∨
        ∀ found ∈ Function.update ctx.futures token (some future) other, found.dropped := by
    intro future dropped
    rcases eq_or_ne other token with rfl | differs
    · refine .inr fun found held => ?_
      rw [Function.update_self] at held
      exact Option.some.inj held ▸ dropped
    · exact .inl (Function.update_of_ne differs _ _)
  unfold dropFuture
  split
  · split_ifs
    · exact .inl rfl
    · exact updated _ rfl
    · exact updated _ rfl
  · exact .inl rfl

/-- A routing tag touches the activities that were emitted under its token. -/
theorem withTag_frame {token : Nat} {tag : String} {reply : Unit}
    (performed : ctx.perform (.withTag token tag) = .ok (reply, after)) :
    ∃ retag : Nat × Action → Nat × Action, after = { ctx with emittedActions := ctx.emittedActions.map retag } ∧
      ∀ emitted, retag emitted = emitted ∨ ∃ id name input sessionId untagged,
        emitted = (token, .callActivity id name input sessionId untagged) ∧
        retag emitted = (token, .callActivity id name input sessionId (some tag)) := by
  unfold perform withTag at performed
  dsimp only at performed
  split at performed
  · split_ifs at performed
    · cases performed
      refine ⟨_, rfl, fun emitted => ?_⟩
      obtain ⟨own, action⟩ := emitted
      split_ifs with same
      · obtain rfl : own = token := beq_iff_eq.mp same
        cases action with
        | callActivity id name input sessionId untagged => exact .inr ⟨id, name, input, sessionId, untagged, rfl, rfl⟩
        | _ => exact .inl rfl
      · exact .inl rfl
    · cases performed
  · cases performed

/-- Clearing keys touches the key-value tables and emits one action for each key. -/
theorem clearKvValues_frame (keys : List String) (ctx : CtxInner) :
    ∃ kvState kvMetadata nextToken emitted, emitted.map Prod.snd = keys.map Action.clearKeyValue ∧
      keys.foldl clearKvValue ctx =
        { ctx with kvState, kvMetadata, nextToken, emittedActions := ctx.emittedActions ++ emitted } := by
  induction keys generalizing ctx with
  | nil => exact ⟨ctx.kvState, ctx.kvMetadata, ctx.nextToken, [], rfl, by rw [List.append_nil]; rfl⟩
  | cons key rest ih =>
    obtain ⟨kvState, kvMetadata, nextToken, emitted, actions, cleared⟩ := ih (ctx.clearKvValue key)
    refine ⟨kvState, kvMetadata, nextToken, (ctx.nextToken + 1, .clearKeyValue key) :: emitted, ?_, cleared.trans ?_⟩
    · rw [List.map_cons, List.map_cons, actions]
    · unfold clearKvValue emitAction
      simp only [List.append_assoc, List.singleton_append]

/-- No call touches what the engine has told the context, but for the mailbox. -/
theorem perform_frame {request : CtxCall} {reply : request.Reply} (performed : ctx.perform request = .ok (reply, after)) :
    ∃ nextToken emittedActions futures queue cancelledTokens cancelledTokenKinds accumulatedCustomStatus kvState kvMetadata,
      after = { ctx with
        nextToken, emittedActions, futures, queue, cancelledTokens, cancelledTokenKinds, accumulatedCustomStatus, kvState,
        kvMetadata } ∧
      TakesAtMostOne ctx.queue queue := by
  cases request with
  | pollFuture token =>
    obtain ⟨futures, queue, same, taken, _⟩ := perform_pollFuture performed
    exact ⟨_, _, futures, queue, _, _, _, _, _, same, taken⟩
  | dropFuture token =>
    obtain ⟨futures, tokens, kinds, same, _⟩ := dropFuture_frame ctx token
    cases performed
    exact ⟨_, _, futures, _, tokens, kinds, _, _, _, same, .inl rfl⟩
  | withTag token tag =>
    obtain ⟨retag, same, _⟩ := withTag_frame performed
    exact ⟨_, _, _, _, _, _, _, _, _, same, .inl rfl⟩
  | pruneKvValuesUpdatedBefore updatedBeforeMs =>
    obtain ⟨state, metadata, next, emitted, _, same⟩ := clearKvValues_frame (ctx.staleKvKeys updatedBeforeMs) ctx
    cases performed
    exact ⟨next, _, _, _, _, _, _, state, metadata, same, .inl rfl⟩
  | _ =>
    cases performed
    exact ⟨_, _, _, _, _, _, _, _, _, rfl, .inl rfl⟩

end Duroxide.CtxInner
