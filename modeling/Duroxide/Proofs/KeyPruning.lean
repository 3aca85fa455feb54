import Duroxide.Model.ReplayEngine
import Duroxide.Proofs.ContextCalls

/-! # Pruning keys at replay

Pruning compares the times of the context's keys with a bound. A key that the execution has written itself is stamped
again whenever its turns are replayed, with the clock of that process, and the keys are visited in the order of a hash
map, which is another one in every process. What a prune call clears is the same at every replay exactly if it cannot
see either: it clears nothing at all, or it finds no key that the execution has written and at most one old key.
-/

namespace Duroxide

/-- The order in which a process iterates over the entries of a hash map. -/
structure HashOrder where
  iterate : List (Sigma fun _ : String => Nat) → List (Sigma fun _ : String => Nat)
  perm : ∀ entries, (iterate entries).Perm entries

def HashOrder.inOrder : HashOrder where
  iterate entries := entries
  perm entries := .refl entries

/-- The opposite of an order. -/
def HashOrder.opposite (order : HashOrder) : HashOrder where
  iterate entries := (order.iterate entries).reverse
  perm entries := (List.reverse_perm _).trans (order.perm entries)

/-- What a context call sees of the process that it is made in. -/
structure Host where
  clock : Nat
  order : HashOrder

/-- The key of an action that clears one. -/
def Action.clearedKey : Action → Option String
  | .clearKeyValue key => some key
  | _ => none

/-- The key that a call writes. -/
def CtxCall.writtenKey : CtxCall → Option String
  | .setKvValue key _ => some key
  | _ => none

/-- The key that a call names in order to clear it. -/
def CtxCall.namedKeys : CtxCall → List String
  | .clearKvValue key => [key]
  | _ => []

namespace CtxInner

/-- The context as a process finds it. -/
def on (ctx : CtxInner) (host : Host) : CtxInner :=
  { ctx with
    nowMs := host.clock
    kvMetadata := ⟨host.order.iterate ctx.kvMetadata.entries,
      (List.perm_nodupKeys (host.order.perm _)).mpr ctx.kvMetadata.nodupKeys⟩ }

/-- Make a call in a process; one that panics changes nothing. -/
def callOn (ctx : CtxInner) (host : Host) (request : CtxCall) : CtxInner :=
  match (ctx.on host).perform request with
  | .ok (_, after) => after
  | .error _ => ctx.on host

/-- The keys of the `ClearKeyValue` actions that a call emits, in order. -/
def clearedBy (ctx : CtxInner) (host : Host) (request : CtxCall) : List String :=
  ((ctx.callOn host request).emittedActions.drop ctx.emittedActions.length).filterMap (·.2.clearedKey)

/-- The context after some calls. -/
def afterCalls (ctx : CtxInner) (calls : List (Host × CtxCall)) : CtxInner :=
  calls.foldl (fun ctx call => ctx.callOn call.1 call.2) ctx

/-- The keys that each of some calls clears. -/
def clearings (ctx : CtxInner) : List (Host × CtxCall) → List (List String)
  | [] => []
  | call :: rest => ctx.clearedBy call.1 call.2 :: (ctx.callOn call.1 call.2).clearings rest

/-- Whether pruning looks at a key. -/
def isPrunable (ctx : CtxInner) (key : String) : Bool :=
  (ctx.kvMetadata.lookup key).isSome && (ctx.kvState.lookup key).isSome

variable {ctx : CtxInner} {host : Host}

theorem lookup_on (ctx : CtxInner) (host : Host) (key : String) :
    (ctx.on host).kvMetadata.lookup key = ctx.kvMetadata.lookup key :=
  AList.perm_lookup (host.order.perm _)

theorem lookup_clearKvValues (keys : List String) (ctx : CtxInner) (key : String) :
    (keys.foldl clearKvValue ctx).kvState.lookup key = (if key ∈ keys then none else ctx.kvState.lookup key) ∧
      (keys.foldl clearKvValue ctx).kvMetadata.lookup key =
        if key ∈ keys then none else ctx.kvMetadata.lookup key := by
  induction keys generalizing ctx with
  | nil => simp only [List.foldl_nil, List.not_mem_nil, if_false, and_self]
  | cons cleared rest ih =>
    have later := ih (ctx.clearKvValue cleared)
    rw [List.foldl_cons, later.1, later.2]
    by_cases same : key = cleared
    · have state : (ctx.clearKvValue cleared).kvState.lookup key = none := by
        rw [same]
        exact AList.lookup_erase _ _
      have times : (ctx.clearKvValue cleared).kvMetadata.lookup key = none := by
        rw [same]
        exact AList.lookup_erase _ _
      rw [state, times, ite_self, ite_self, if_pos (same ▸ List.mem_cons_self), if_pos (same ▸ List.mem_cons_self)]
      exact ⟨rfl, rfl⟩
    · have state : (ctx.clearKvValue cleared).kvState.lookup key = ctx.kvState.lookup key := AList.lookup_erase_ne same
      have times : (ctx.clearKvValue cleared).kvMetadata.lookup key = ctx.kvMetadata.lookup key :=
        AList.lookup_erase_ne same
      rw [state, times]
      simp only [List.mem_cons, same, false_or, and_self]

theorem nowMs_of_perform {after : CtxInner} {request : CtxCall} {reply : request.Reply}
    (performed : ctx.perform request = .ok (reply, after)) : after.nowMs = ctx.nowMs := by
  obtain ⟨_, _, _, _, _, _, _, _, _, rfl, _⟩ := perform_frame performed
  rfl

/-- A poll makes its calls in one process, which iterates in the order of the entries. -/
theorem afterCalls_of_run {State : Type} (script : Script State) (ctx : CtxInner) :
    ∃ calls, (∀ call ∈ calls, call.1 = ⟨ctx.nowMs, .inOrder⟩) ∧ (script.run ctx).2 = ctx.afterCalls calls := by
  induction script generalizing ctx with
  | suspend | finish | panic => exact ⟨[], fun _ none => absurd none List.not_mem_nil, rfl⟩
  | call request next ih =>
    unfold Script.run
    rcases performed : ctx.perform request with message | ⟨reply, after⟩
    · exact ⟨[], fun _ none => absurd none List.not_mem_nil, rfl⟩
    · obtain ⟨calls, hosts, ran⟩ := ih reply after
      rw [nowMs_of_perform performed] at hosts
      refine ⟨(⟨ctx.nowMs, .inOrder⟩, request) :: calls, ?_, ran.trans ?_⟩
      · intro call member
        rcases List.mem_cons.mp member with rfl | later
        · rfl
        · exact hosts call later
      · have here : ctx.callOn ⟨ctx.nowMs, .inOrder⟩ request = after := by
          rw [callOn, show ctx.on ⟨ctx.nowMs, .inOrder⟩ = ctx from rfl, performed]
        change after.afterCalls calls = (ctx.callOn _ request).afterCalls calls
        rw [here]

/-! ## What is old -/

theorem mem_staleKvKeys {cutoff : Nat} {key : String} : key ∈ ctx.staleKvKeys cutoff ↔
    (∃ time ∈ ctx.kvMetadata.lookup key, time < cutoff) ∧ (ctx.kvState.lookup key).isSome := by
  unfold staleKvKeys
  simp only [List.mem_map, List.mem_filter, Bool.and_eq_true, decide_eq_true_eq]
  constructor
  · rintro ⟨⟨_, time⟩, ⟨member, old, known⟩, rfl⟩
    exact ⟨⟨time, AList.mem_lookup_iff.mpr member, old⟩, known⟩
  · rintro ⟨⟨time, found, old⟩, known⟩
    exact ⟨⟨key, time⟩, ⟨AList.mem_lookup_iff.mp found, old, known⟩, rfl⟩

theorem nodup_staleKvKeys (ctx : CtxInner) (cutoff : Nat) : (ctx.staleKvKeys cutoff).Nodup :=
  (List.filter_sublist.map Sigma.fst).nodup ctx.kvMetadata.nodupKeys

theorem staleKvKeys_zero (ctx : CtxInner) : ctx.staleKvKeys 0 = [] := by
  refine List.eq_nil_iff_forall_not_mem.mpr fun key member => ?_
  obtain ⟨⟨time, _, old⟩, _⟩ := mem_staleKvKeys.mp member
  exact Nat.not_lt_zero time old

theorem mem_staleKvKeys_on {cutoff : Nat} {key : String} :
    key ∈ (ctx.on host).staleKvKeys cutoff ↔ key ∈ ctx.staleKvKeys cutoff := by
  rw [mem_staleKvKeys, mem_staleKvKeys, lookup_on]
  rfl

/-! ## What a call clears -/

theorem clearedBy_of_emits {request : CtxCall} {new : List (Nat × Action)} {keys : List String}
    (emits : (ctx.callOn host request).emittedActions = ctx.emittedActions ++ new)
    (clears : new.filterMap (·.2.clearedKey) = keys) : ctx.clearedBy host request = keys := by
  rw [clearedBy, emits, List.drop_left, clears]

theorem clearedBy_of_kept {request : CtxCall}
    (kept : (ctx.callOn host request).emittedActions.length = ctx.emittedActions.length) :
    ctx.clearedBy host request = [] := by
  rw [clearedBy, ← kept, List.drop_length, List.filterMap_nil]

/-- A prune call clears what is old, in the order of its process. -/
theorem clearedBy_prune (ctx : CtxInner) (host : Host) (cutoff : Nat) :
    ctx.clearedBy host (.pruneKvValuesUpdatedBefore cutoff) = (ctx.on host).staleKvKeys cutoff := by
  obtain ⟨state, times, next, emitted, actions, same⟩ := clearKvValues_frame ((ctx.on host).staleKvKeys cutoff) (ctx.on host)
  have emits : (ctx.callOn host (.pruneKvValuesUpdatedBefore cutoff)).emittedActions = ctx.emittedActions ++ emitted := by
    change (((ctx.on host).staleKvKeys cutoff).foldl clearKvValue (ctx.on host)).emittedActions = _
    rw [same]
    rfl
  apply clearedBy_of_emits emits
  have keys := congrArg (List.filterMap Action.clearedKey) actions
  rw [List.filterMap_map, List.filterMap_map] at keys
  exact keys.trans List.filterMap_some

/-- Any other call clears the key that it names, if it names one. -/
theorem clearedBy_of_not_prune {request : CtxCall} (other : ∀ cutoff, request ≠ .pruneKvValuesUpdatedBefore cutoff)
    (ctx : CtxInner) (host : Host) : ctx.clearedBy host request = request.namedKeys := by
  cases request with
  | pruneKvValuesUpdatedBefore cutoff => exact absurd rfl (other cutoff)
  | getCustomStatus | getKvValue | getKvLength => exact clearedBy_of_kept (by rfl)
  | pollFuture token =>
    obtain ⟨futures, queue, same, _⟩ := pollFuture_frame (ctx.on host) token
    apply clearedBy_of_kept
    change ((ctx.on host).pollFuture token).2.emittedActions.length = _
    rw [same]
    rfl
  | dropFuture token =>
    obtain ⟨futures, tokens, kinds, same, _⟩ := dropFuture_frame (ctx.on host) token
    apply clearedBy_of_kept
    change ((ctx.on host).dropFuture token).emittedActions.length = _
    rw [same]
    rfl
  | withTag token tag =>
    apply clearedBy_of_kept
    rcases performed : (ctx.on host).perform (.withTag token tag) with message | ⟨reply, after⟩
    · rw [callOn, performed]
      rfl
    · obtain ⟨retag, same, _⟩ := withTag_frame performed
      rw [callOn, performed, same]
      exact List.length_map _
  | _ =>
    apply clearedBy_of_emits
    · rfl
    · rfl

/-! ## What a call makes of a key -/

/-- A call writes a key, erases it or keeps it. -/
inductive Fate (ctx : CtxInner) (host : Host) (request : CtxCall) (key : String) : Prop
  | written (value : String) (writes : request = .setKvValue key value)
      (state : (ctx.callOn host request).kvState.lookup key = some value)
      (time : (ctx.callOn host request).kvMetadata.lookup key = some host.clock)
  | erased (erases : request = .clearAllKvValues ∨ key ∈ ctx.clearedBy host request)
      (state : (ctx.callOn host request).kvState.lookup key = none)
      (time : (ctx.callOn host request).kvMetadata.lookup key = none)
  | kept (writesOther : request.writtenKey ≠ some key) (someLeft : request ≠ .clearAllKvValues)
      (left : key ∉ ctx.clearedBy host request)
      (state : (ctx.callOn host request).kvState.lookup key = ctx.kvState.lookup key)
      (time : (ctx.callOn host request).kvMetadata.lookup key = ctx.kvMetadata.lookup key)

theorem Fate.of_untouched {request : CtxCall} {key : String} (writesNothing : request.writtenKey = none)
    (someLeft : request ≠ .clearAllKvValues) (clearsNothing : ctx.clearedBy host request = [])
    (tables : (ctx.callOn host request).kvState = ctx.kvState ∧
      (ctx.callOn host request).kvMetadata = (ctx.on host).kvMetadata) : Fate ctx host request key := by
  refine .kept ?_ someLeft ?_ ?_ ?_
  · rw [writesNothing]
    exact fun writes => nomatch writes
  · rw [clearsNothing]
    exact List.not_mem_nil
  · rw [tables.1]
  · rw [tables.2, lookup_on]

theorem fate (ctx : CtxInner) (host : Host) (request : CtxCall) (key : String) : Fate ctx host request key := by
  have named := @clearedBy_of_not_prune request
  cases request with
  | setKvValue other value =>
    by_cases same : key = other
    · rw [same]
      exact .written value rfl (AList.lookup_insert _) (AList.lookup_insert _)
    · refine .kept (fun writes => same (Option.some.inj writes).symm) (fun nothing => nomatch nothing) ?_
        (AList.lookup_insert_ne same) ((AList.lookup_insert_ne same).trans (lookup_on ctx host key))
      rw [named (fun _ differs => nomatch differs)]
      exact List.not_mem_nil
  | clearKvValue other =>
    have cleared := named (fun _ differs => nomatch differs) ctx host
    by_cases same : key = other
    · refine .erased (.inr ?_) ?_ ?_
      · rw [cleared, same]
        exact List.mem_cons_self
      · rw [same]
        exact AList.lookup_erase _ _
      · rw [same]
        exact AList.lookup_erase _ _
    · refine .kept (fun writes => nomatch writes) (fun nothing => nomatch nothing) ?_
        (AList.lookup_erase_ne same) ((AList.lookup_erase_ne same).trans (lookup_on ctx host key))
      rw [cleared]
      exact fun member => same (List.mem_singleton.mp member)
  | clearAllKvValues => exact .erased (.inl rfl) (AList.lookup_empty _) (AList.lookup_empty _)
  | pruneKvValuesUpdatedBefore cutoff =>
    obtain ⟨state, time⟩ := lookup_clearKvValues ((ctx.on host).staleKvKeys cutoff) (ctx.on host) key
    by_cases old : key ∈ (ctx.on host).staleKvKeys cutoff
    · rw [if_pos old] at state time
      exact .erased (.inr (by rwa [clearedBy_prune])) state time
    · rw [if_neg old] at state time
      exact .kept (fun writes => nomatch writes) (fun nothing => nomatch nothing) (by rwa [clearedBy_prune]) state
        (time.trans (lookup_on ctx host key))
  | pollFuture token =>
    obtain ⟨futures, queue, same, _⟩ := pollFuture_frame (ctx.on host) token
    refine .of_untouched rfl (fun nothing => nomatch nothing) (named (fun _ differs => nomatch differs) ctx host) ?_
    change ((ctx.on host).pollFuture token).2.kvState = _ ∧ ((ctx.on host).pollFuture token).2.kvMetadata = _
    rw [same]
    exact ⟨rfl, rfl⟩
  | dropFuture token =>
    obtain ⟨futures, tokens, kinds, same, _⟩ := dropFuture_frame (ctx.on host) token
    refine .of_untouched rfl (fun nothing => nomatch nothing) (named (fun _ differs => nomatch differs) ctx host) ?_
    change ((ctx.on host).dropFuture token).kvState = _ ∧ ((ctx.on host).dropFuture token).kvMetadata = _
    rw [same]
    exact ⟨rfl, rfl⟩
  | withTag token tag =>
    refine .of_untouched rfl (fun nothing => nomatch nothing) (named (fun _ differs => nomatch differs) ctx host) ?_
    rcases performed : (ctx.on host).perform (.withTag token tag) with message | ⟨reply, after⟩
    · rw [callOn, performed]
      exact ⟨rfl, rfl⟩
    · obtain ⟨retag, same, _⟩ := withTag_frame performed
      rw [callOn, performed, same]
      exact ⟨rfl, rfl⟩
  | _ =>
    exact .of_untouched rfl (fun nothing => nomatch nothing) (named (fun _ differs => nomatch differs) ctx host) ⟨rfl, rfl⟩

/-- A call that writes a key erases none. -/
theorem not_erased_of_set (ctx : CtxInner) (host : Host) (key value other : String) :
    ¬ (CtxCall.setKvValue key value = .clearAllKvValues ∨ other ∈ ctx.clearedBy host (.setKvValue key value)) := by
  rintro (same | member)
  · cases same
  · have none := @clearedBy_of_not_prune (.setKvValue key value) (fun _ same => nomatch same) ctx host
    rw [none] at member
    exact absurd member List.not_mem_nil

/-! ## Two runs of the same calls -/

/-- Two contexts with the same keys and values, and with the same times of the keys that have not been written. -/
structure Alike (written : List String) (ctx other : CtxInner) : Prop where
  state : ∀ key, other.kvState.lookup key = ctx.kvState.lookup key
  known : ∀ key, (other.kvMetadata.lookup key).isSome = (ctx.kvMetadata.lookup key).isSome
  times : ∀ key, key ∉ written → other.kvMetadata.lookup key = ctx.kvMetadata.lookup key

/-- The keys that some calls write. -/
def writtenKeys (calls : List (Host × CtxCall)) : List String := calls.filterMap (·.2.writtenKey)

theorem writtenKeys_cons (call : Host × CtxCall) (rest : List (Host × CtxCall)) :
    writtenKeys (call :: rest) = call.2.writtenKey.toList ++ writtenKeys rest := by
  rw [writtenKeys, List.filterMap_cons]
  cases call.2.writtenKey <;> rfl

namespace Alike

variable {written : List String} {other : CtxInner} {host' : Host}

theorem refl (written : List String) (ctx : CtxInner) : Alike written ctx ctx :=
  ⟨fun _ => rfl, fun _ => rfl, fun _ _ => rfl⟩

/-- A call that clears the same keys in two processes leaves their contexts alike. -/
theorem callOn (alike : Alike written ctx other) {request : CtxCall}
    (same : other.clearedBy host' request = ctx.clearedBy host request) :
    Alike (written ++ request.writtenKey.toList) (ctx.callOn host request) (other.callOn host' request) := by
  have fates : ∀ key, (other.callOn host' request).kvState.lookup key = (ctx.callOn host request).kvState.lookup key ∧
      ((other.callOn host' request).kvMetadata.lookup key).isSome =
        ((ctx.callOn host request).kvMetadata.lookup key).isSome ∧
      (key ∉ written ++ request.writtenKey.toList →
        (other.callOn host' request).kvMetadata.lookup key = (ctx.callOn host request).kvMetadata.lookup key) := by
    intro key
    cases ctx.fate host request key with
    | written value writes state time =>
      subst writes
      rcases other.fate host' (.setKvValue key value) key with ⟨_, writes, state', time'⟩ | ⟨erases, _, _⟩ | ⟨differs, _⟩
      · cases writes
        rw [state, state', time, time']
        exact ⟨rfl, rfl, fun unwritten => absurd (List.mem_append_right _ (List.mem_singleton_self key)) unwritten⟩
      · exact absurd erases (not_erased_of_set _ _ _ _ _)
      · exact absurd rfl differs
    | erased erases state time =>
      rcases other.fate host' request key with ⟨value, rfl, _⟩ | ⟨_, state', time'⟩ | ⟨_, someLeft, left, _⟩
      · exact absurd erases (not_erased_of_set _ _ _ _ _)
      · rw [state, state', time, time']
        exact ⟨rfl, rfl, fun _ => rfl⟩
      · rw [same] at left
        exact absurd erases (not_or.mpr ⟨someLeft, left⟩)
    | kept writesOther someLeft left state time =>
      rcases other.fate host' request key with ⟨value, rfl, _⟩ | ⟨erases, _, _⟩ | ⟨_, _, _, state', time'⟩
      · exact absurd rfl writesOther
      · rw [same] at erases
        exact absurd erases (not_or.mpr ⟨someLeft, left⟩)
      · rw [state, state', time, time']
        refine ⟨alike.state key, alike.known key, fun unwritten => alike.times key fun member => ?_⟩
        exact unwritten (List.mem_append_left _ member)
  exact ⟨fun key => (fates key).1, fun key => (fates key).2.1, fun key => (fates key).2.2⟩

end Alike

theorem eq_of_perm_single {keys others : List String} (perm : keys.Perm others) (single : others.length ≤ 1) :
    keys = others := by
  rcases others with _ | ⟨key, _ | ⟨second, rest⟩⟩
  · exact perm.eq_nil
  · exact perm.eq_singleton
  · simp only [List.length_cons] at single
    omega

/-- A prune call sees neither the clock nor the order of its process: its bound is zero, or it finds no key that the
execution has written and at most one that is old. -/
def Blind (written : List String) (ctx : CtxInner) (cutoff : Nat) : Prop :=
  cutoff = 0 ∨ (∀ key ∈ written, ctx.isPrunable key = false) ∧ (ctx.staleKvKeys cutoff).length ≤ 1

theorem isPrunable_of_stale {cutoff : Nat} {key : String} (old : key ∈ ctx.staleKvKeys cutoff) : ctx.isPrunable key := by
  obtain ⟨⟨time, found, _⟩, known⟩ := mem_staleKvKeys.mp old
  rw [isPrunable, Option.mem_def.mp found, known]
  rfl

namespace Alike

variable {written : List String} {other : CtxInner} {host' : Host} {cutoff : Nat}

/-- A key that has not been written is as old in one context as in the other. -/
theorem stale_iff (alike : Alike written ctx other) {key : String} (unwritten : key ∉ written) :
    key ∈ other.staleKvKeys cutoff ↔ key ∈ ctx.staleKvKeys cutoff := by
  rw [mem_staleKvKeys, mem_staleKvKeys, alike.times key unwritten, alike.state]

theorem isPrunable (alike : Alike written ctx other) (key : String) : other.isPrunable key = ctx.isPrunable key := by
  rw [CtxInner.isPrunable, CtxInner.isPrunable, alike.known, alike.state]

/-- A blind prune call clears the same keys in every process. -/
theorem clearedBy_of_blind (alike : Alike written ctx other) (blind : Blind written ctx cutoff) :
    other.clearedBy host' (.pruneKvValuesUpdatedBefore cutoff) = ctx.clearedBy host (.pruneKvValuesUpdatedBefore cutoff) := by
  rw [clearedBy_prune, clearedBy_prune]
  rcases blind with rfl | ⟨unwritten, single⟩
  · rw [staleKvKeys_zero, staleKvKeys_zero]
  · have same : ∀ key, key ∈ (other.on host').staleKvKeys cutoff ↔ key ∈ ctx.staleKvKeys cutoff := by
      intro key
      rw [mem_staleKvKeys_on]
      by_cases member : key ∈ written
      · have kept := unwritten key member
        constructor
        · intro old
          rw [← alike.isPrunable, isPrunable_of_stale old] at kept
          cases kept
        · intro old
          rw [isPrunable_of_stale old] at kept
          cases kept
      · exact alike.stale_iff member
    have nodup := nodup_staleKvKeys ctx cutoff
    have first := (List.perm_ext_iff_of_nodup (nodup_staleKvKeys (other.on host') cutoff) nodup).mpr same
    have second := (List.perm_ext_iff_of_nodup (nodup_staleKvKeys (ctx.on host) cutoff) nodup).mpr
      fun key => mem_staleKvKeys_on
    rw [eq_of_perm_single first single, eq_of_perm_single second single]

/-- Calls that clear the same keys in two runs leave their contexts alike. -/
theorem afterCalls (alike : Alike written ctx other) {calls replay : List (Host × CtxCall)}
    (requests : replay.map Prod.snd = calls.map Prod.snd) (same : other.clearings replay = ctx.clearings calls) :
    Alike (written ++ writtenKeys calls) (ctx.afterCalls calls) (other.afterCalls replay) := by
  induction calls generalizing written ctx other replay with
  | nil =>
    obtain rfl := List.map_eq_nil_iff.mp requests
    rwa [writtenKeys, List.filterMap_nil, List.append_nil]
  | cons call rest ih =>
    obtain ⟨again, later, rfl, request, requests⟩ := List.map_eq_cons_iff.mp requests
    obtain ⟨here, later⟩ := List.cons.inj same
    rw [request] at here
    have next := ih (alike.callOn here) requests (by rwa [request] at later)
    rw [writtenKeys_cons, ← List.append_assoc]
    change Alike _ _ ((other.callOn again.1 again.2).afterCalls _)
    rwa [request]

/-- Where every prune call is blind, two runs of the same calls clear the same keys. -/
theorem clearings_of_blind (alike : Alike written ctx other) {calls replay : List (Host × CtxCall)}
    (requests : replay.map Prod.snd = calls.map Prod.snd)
    (blind : ∀ before host cutoff after, calls = before ++ (host, .pruneKvValuesUpdatedBefore cutoff) :: after →
      Blind (written ++ writtenKeys before) (ctx.afterCalls before) cutoff) :
    other.clearings replay = ctx.clearings calls := by
  induction calls generalizing written ctx other replay with
  | nil =>
    obtain rfl := List.map_eq_nil_iff.mp requests
    rfl
  | cons call rest ih =>
    obtain ⟨again, later, rfl, request, requests⟩ := List.map_eq_cons_iff.mp requests
    have here : other.clearedBy again.1 call.2 = ctx.clearedBy call.1 call.2 := by
      obtain ⟨host, asked⟩ := call
      by_cases prunes : ∃ cutoff, asked = .pruneKvValuesUpdatedBefore cutoff
      · obtain ⟨cutoff, rfl⟩ := prunes
        apply alike.clearedBy_of_blind
        have first := blind [] host cutoff rest rfl
        rwa [writtenKeys, List.filterMap_nil, List.append_nil] at first
      · have other' : ∀ cutoff, asked ≠ .pruneKvValuesUpdatedBefore cutoff := not_exists.mp prunes
        rw [clearedBy_of_not_prune other', clearedBy_of_not_prune other']
    rw [clearings, clearings, request, here]
    congr 1
    apply ih (alike.callOn here) requests
    intro before host cutoff after split
    have inner := blind (call :: before) host cutoff after (by rw [split, List.cons_append])
    rwa [writtenKeys_cons, ← List.append_assoc] at inner

end Alike

/-! ## Processes that tell the difference -/

theorem clearings_append (ctx : CtxInner) (before after : List (Host × CtxCall)) :
    ctx.clearings (before ++ after) = ctx.clearings before ++ (ctx.afterCalls before).clearings after := by
  induction before generalizing ctx with
  | nil => rfl
  | cons call rest ih =>
    rw [List.cons_append, clearings, ih, clearings, List.cons_append]
    rfl

theorem length_clearings (ctx : CtxInner) (calls : List (Host × CtxCall)) : (ctx.clearings calls).length = calls.length := by
  induction calls generalizing ctx with
  | nil => rfl
  | cons call rest ih => rw [clearings, List.length_cons, ih, List.length_cons]

/-- The same calls, made when the clock shows one time. -/
def stoppedAt (time : Nat) (calls : List (Host × CtxCall)) : List (Host × CtxCall) :=
  calls.map fun call => (⟨time, call.1.order⟩, call.2)

theorem requests_stoppedAt (time : Nat) (calls : List (Host × CtxCall)) :
    (stoppedAt time calls).map Prod.snd = calls.map Prod.snd := by
  rw [stoppedAt, List.map_map]
  rfl

/-- While the clock shows one time, it is the time of every key that is written. -/
theorem time_of_stopped {time : Nat} {written : List String} (calls : List (Host × CtxCall))
    (stamped : ∀ key ∈ written, ∀ found ∈ ctx.kvMetadata.lookup key, found = time) :
    ∀ key ∈ written ++ writtenKeys calls,
      ∀ found ∈ (ctx.afterCalls (stoppedAt time calls)).kvMetadata.lookup key, found = time := by
  induction calls generalizing written ctx with
  | nil =>
    rw [writtenKeys, List.filterMap_nil, List.append_nil]
    exact stamped
  | cons call rest ih =>
    rw [writtenKeys_cons, ← List.append_assoc]
    apply ih
    intro key member found held
    cases ctx.fate ⟨time, call.1.order⟩ call.2 key with
    | written value _ _ stamp =>
      rw [stamp] at held
      exact (Option.some.inj held).symm
    | erased _ _ gone =>
      rw [gone] at held
      cases held
    | kept writesOther _ _ _ kept =>
      rw [kept] at held
      rcases List.mem_append.mp member with before | new
      · exact stamped key before found held
      · exact absurd (Option.mem_toList.mp new) writesOther

theorem staleKvKeys_opposite (ctx : CtxInner) (host : Host) (cutoff : Nat) :
    (ctx.on ⟨host.clock, host.order.opposite⟩).staleKvKeys cutoff = ((ctx.on host).staleKvKeys cutoff).reverse := by
  unfold staleKvKeys
  rw [← List.map_reverse, ← List.filter_reverse]
  rfl

/-- A list without duplicates that reads the same in both directions has one element at most. -/
theorem single_of_reverse {keys : List String} (nodup : keys.Nodup) (same : keys.reverse = keys) : keys.length ≤ 1 := by
  rcases keys with _ | ⟨key, _ | ⟨second, rest⟩⟩
  · exact Nat.zero_le 1
  · exact Nat.le_refl 1
  · have last := congrArg List.head? same
    rw [List.head?_reverse, List.getLast?_cons_cons, List.head?_cons] at last
    have member : key ∈ second :: rest := List.mem_of_getLast? last
    exact absurd member (List.nodup_cons.mp nodup).1

end CtxInner

namespace KeyPruning

open CtxInner

/-- Whatever process replays the calls of an execution, each of them clears the keys that it cleared when it was made. -/
def ReplaysIdentically (ctx : CtxInner) (calls : List (Host × CtxCall)) : Prop :=
  ∀ replay : List (Host × CtxCall), replay.map Prod.snd = calls.map Prod.snd → ctx.clearings replay = ctx.clearings calls

/-- Every prune call sees neither the clock nor the order of its process. -/
def EveryPruneBlind (ctx : CtxInner) (calls : List (Host × CtxCall)) : Prop :=
  ∀ before host cutoff after, calls = before ++ (host, .pruneKvValuesUpdatedBefore cutoff) :: after →
    Blind (writtenKeys before) (ctx.afterCalls before) cutoff

variable {ctx : CtxInner} {before after : List (Host × CtxCall)} {host : Host} {cutoff : Nat}

/-- What identical replays say of one prune call and the calls before it. -/
theorem clearedBy_of_identical
    (identical : ReplaysIdentically ctx (before ++ (host, .pruneKvValuesUpdatedBefore cutoff) :: after))
    {replay : List (Host × CtxCall)} (requests : replay.map Prod.snd = before.map Prod.snd) (host' : Host) :
    ctx.clearings replay = ctx.clearings before ∧
      ((ctx.afterCalls replay).on host').staleKvKeys cutoff = ((ctx.afterCalls before).on host).staleKvKeys cutoff := by
  have same := identical (replay ++ (host', .pruneKvValuesUpdatedBefore cutoff) :: after) (by
    rw [List.map_append, List.map_append, requests]
    rfl)
  rw [clearings_append, clearings_append] at same
  have lengths : (ctx.clearings replay).length = (ctx.clearings before).length := by
    rw [length_clearings, length_clearings, ← List.length_map Prod.snd, requests, List.length_map]
  obtain ⟨first, last⟩ := List.append_inj same lengths
  have here := (List.cons.inj last).1
  dsimp only at here
  rw [clearedBy_prune, clearedBy_prune] at here
  exact ⟨first, here⟩

theorem blind_of_identical
    (identical : ReplaysIdentically ctx (before ++ (host, .pruneKvValuesUpdatedBefore cutoff) :: after)) :
    Blind (writtenKeys before) (ctx.afterCalls before) cutoff := by
  rcases Nat.eq_zero_or_pos cutoff with zero | positive
  · exact .inl zero
  refine .inr ⟨fun key written => ?_, ?_⟩
  · -- The written key is old where the clock shows zero, and is not where it shows the bound.
    by_contra live
    have stale_iff : ∀ time, key ∈ ((ctx.afterCalls before).on host).staleKvKeys cutoff ↔ time < cutoff := by
      intro time
      obtain ⟨first, here⟩ := clearedBy_of_identical identical (requests_stoppedAt time before) host
      have alike := (Alike.refl [] ctx).afterCalls (requests_stoppedAt time before) first
      rw [List.nil_append] at alike
      rw [← alike.isPrunable, Bool.not_eq_false, isPrunable, Bool.and_eq_true, Option.isSome_iff_exists] at live
      obtain ⟨⟨found, held⟩, known⟩ := live
      have stamp := time_of_stopped before (fun _ none => absurd none List.not_mem_nil) key written found held
      rw [← here, mem_staleKvKeys_on, mem_staleKvKeys, held]
      constructor
      · rintro ⟨⟨_, ⟨⟩, old⟩, _⟩
        rwa [stamp] at old
      · intro earlier
        exact ⟨⟨found, rfl, stamp ▸ earlier⟩, known⟩
    exact absurd ((stale_iff cutoff).mp ((stale_iff 0).mpr positive)) (Nat.lt_irrefl cutoff)
  · -- The opposite order lists the old keys backwards.
    have same := (clearedBy_of_identical identical rfl ⟨host.clock, host.order.opposite⟩).2
    rw [staleKvKeys_opposite] at same
    have single := single_of_reverse (nodup_staleKvKeys _ cutoff) same
    have all := (List.perm_ext_iff_of_nodup (nodup_staleKvKeys ((ctx.afterCalls before).on host) cutoff)
      (nodup_staleKvKeys (ctx.afterCalls before) cutoff)).mpr fun key => mem_staleKvKeys_on
    rwa [← all.length_eq]

/-- The calls of an execution clear the same keys in every process that replays them exactly if every prune call among
them finds no key that the execution has written and at most one that is old, or has a zero bound. -/
theorem replaysIdentically_iff (ctx : CtxInner) (calls : List (Host × CtxCall)) :
    ReplaysIdentically ctx calls ↔ EveryPruneBlind ctx calls := by
  constructor
  · rintro identical before host cutoff after rfl
    exact blind_of_identical identical
  · intro blind replay requests
    exact (Alike.refl [] ctx).clearings_of_blind requests blind

/-! An orchestration writes a key, prunes what is older than its bound, and schedules an activity. -/

/-- The key is written and pruned when the clock shows five; the bound is ten. -/
def earlyCalls : List (Host × CtxCall) :=
  [(⟨5, .inOrder⟩, .setKvValue "k" "v"), (⟨5, .inOrder⟩, .pruneKvValuesUpdatedBefore 10)]

def pruningHandler : OrchestrationHandler where
  State := Unit
  invoke _ := ()
  poll _ := .call (.setKvValue "k" "v") fun _ => .call (.pruneKvValuesUpdatedBefore 10) fun _ =>
    .call (.scheduleActivity "work" "" none) fun _ => .suspend ()

/-- The turn that replays what was recorded when the clock showed five, when it shows another time. -/
def replayTurn (time : Nat) : ReplayEngine :=
  let event := Event.withEventId ⟨5, "0.1.0"⟩
  .new ⟨time, "0.1.0"⟩ "i" 1
    [event 1 "i" 1 none (.orchestrationStarted "o" "1.0.0" "" none none none none),
      event 2 "i" 1 none (.keyValueSet "k" "v" 5), event 3 "i" 1 none (.keyValueCleared "k"),
      event 4 "i" 1 none (.activityScheduled "work" "" none none)]

/-- When the clock shows twenty, the key is not cleared again, and the orchestration fails as nondeterministic. -/
theorem earlyCalls_differ :
    ¬ ReplaysIdentically (.new 1 "i" "o" "1.0.0" 0) earlyCalls ∧
    ((replayTurn 5).executeOrchestration pruningHandler "" "o" "1.0.0").1 = .continue ∧
    ((replayTurn 20).executeOrchestration pruningHandler "" "o" "1.0.0").1 =
      .failed (nondeterminismError "kv clear mismatch") := by
  refine ⟨fun identical => ?_, by decide +kernel, by decide +kernel⟩
  have same := identical [(⟨20, .inOrder⟩, .setKvValue "k" "v"), (⟨20, .inOrder⟩, .pruneKvValuesUpdatedBefore 10)] rfl
  revert same
  decide +kernel

end KeyPruning

end Duroxide
