import Duroxide.Proofs.FetchQuery
import Duroxide.Proofs.WorkerCalls
import Mathlib.Data.List.Dedup
import Mathlib.Data.List.Perm.Subperm

/-! # Rows that do not decode

A fetch that selects a row which does not decode reports an error and leaves everything as it was: the row
is selected again by the next fetch, its attempts are not counted, and nothing behind it is handed out.
While no such row is selected, every fetch hands out an item, so an eligible item waits for no more fetches
than there are rows before it, besides those that hand out again what was given back.
-/

namespace Duroxide.Provider

variable {decodeError : Nat → Option String} {store : Store} {call : FetchCall} {row : WorkerRow}

/-! ## One fetch -/

theorem selects_cases (store : Store) (call : FetchCall) :
    match call.selects store with
    | some row => row ∈ store.workerQueue ∧ Eligible store call.now call.session call.filter row ∧
        ∀ other ∈ store.workerQueue, Eligible store call.now call.session call.filter other → row.id ≤ other.id
    | none => ∀ row ∈ store.workerQueue, ¬ Eligible store call.now call.session call.filter row := by
  unfold FetchCall.selects
  split_ifs with nothing
  · rw [nothing]
    exact fun row _ => not_eligible_none
  · exact nextItem_cases store call.now call.session call.filter

/-- The store after the row that a fetch selected was locked. -/
def FetchCall.locks (call : FetchCall) (store : Store) (row : WorkerRow) : Store :=
  store.updateWorkerRows (·.id == row.id) fun other =>
    { other with
      lockToken := some call.token, lockedUntil := some (call.now + call.lockTimeoutMs), attemptCount := other.attemptCount + 1 }

theorem fetchNextWorkItem_of_selects (selected : call.selects store = some row) :
    ∃ sessions, fetchNextWorkItem store call.now call.lockTimeoutMs call.token call.session call.filter =
      some ((row.workItem, asU32 (row.attemptCount + 1)), { call.locks store row with sessions }) := by
  unfold FetchCall.selects at selected
  split_ifs at selected with nothing
  exact fetchNextWorkItem_of_nextItem nothing selected call.lockTimeoutMs call.token

theorem fetchStoredWorkItem_none (unselected : call.selects store = none) :
    fetchStoredWorkItem decodeError store call = (.ok none, store) := by
  rw [fetchStoredWorkItem, unselected]

/-- A row that decodes is handed out, locked. -/
theorem fetchStoredWorkItem_decodes (selected : call.selects store = some row) (decodes : decodeError row.id = none) :
    ∃ sessions, fetchStoredWorkItem decodeError store call =
      (.ok (some (row.workItem, asU32 (row.attemptCount + 1))), { call.locks store row with sessions }) := by
  obtain ⟨sessions, fetched⟩ := fetchNextWorkItem_of_selects selected
  exact ⟨sessions, by simp only [fetchStoredWorkItem, selected, fetched, decodes]⟩

/-- A row that does not decode stays as it was. -/
theorem fetchStoredWorkItem_error {error : String} (selected : call.selects store = some row)
    (broken : decodeError row.id = some error) :
    fetchStoredWorkItem decodeError store call =
      (.error (.makePermanent "fetch_work_item" ("Deserialization error: " ++ error)), store) := by
  obtain ⟨sessions, fetched⟩ := fetchNextWorkItem_of_selects selected
  simp only [fetchStoredWorkItem, selected, fetched, broken]

theorem handedOut_of_decodes (selected : call.selects store = some row) (decodes : decodeError row.id = none) :
    handedOut decodeError (store, call) = some row.id := by
  obtain ⟨sessions, fetched⟩ := fetchStoredWorkItem_decodes selected decodes
  simp only [handedOut, selected, fetched, Option.map_some]

/-! ## The ids of a run -/

/-- No call of a worker adds a row to its queue. -/
theorem run_ids (decodeError : Nat → Option String) (store : Store) (call : WorkerCall) :
    ((call.run decodeError store).workerQueue.map (·.id)).Sublist (store.workerQueue.map (·.id)) := by
  have updated : ∀ (matching : WorkerRow → Bool) (change : WorkerRow → WorkerRow), (∀ row, (change row).id = row.id) →
      ((store.updateWorkerRows matching change).workerQueue.map (·.id)).Sublist (store.workerQueue.map (·.id)) := by
    intro matching change same
    have ids : (store.updateWorkerRows matching change).workerQueue.map (·.id) = store.workerQueue.map (·.id) := by
      simp only [Store.updateWorkerRows, List.map_map]
      apply List.map_congr_left
      intro row _
      simp only [Function.comp_apply]
      split_ifs
      · exact same row
      · rfl
    rw [ids]
  cases call with
  | fetch call =>
    simp only [WorkerCall.run]
    rcases selected : call.selects store with _ | row
    · rw [fetchStoredWorkItem_none selected]
    · rcases decodes : decodeError row.id with _ | error
      · obtain ⟨sessions, fetched⟩ := fetchStoredWorkItem_decodes selected decodes
        rw [fetched]
        exact updated _ _ fun _ => rfl
      · rw [fetchStoredWorkItem_error selected decodes]
  | ack now token completion =>
    simp only [WorkerCall.run]
    rcases acked : ackWorkItem store now token completion with error | after
    · exact List.Sublist.refl _
    · obtain ⟨row, sessions, _, rfl⟩ := ackWorkItem_spec acked
      have rows : (withCompletion { store.deleteWorkerRows (holdsWork now token) with sessions } now completion).workerQueue =
          (store.deleteWorkerRows (holdsWork now token)).workerQueue := by
        cases completion <;> rfl
      simp only [Except.toOption, Option.getD_some, rows]
      exact List.filter_sublist.map _
  | abandon now token delayMs ignoreAttempt =>
    simp only [WorkerCall.run]
    rcases released : abandonWorkItem store now token delayMs ignoreAttempt with error | after
    · exact List.Sublist.refl _
    · obtain rfl := abandonWorkItem_spec released
      exact updated _ _ fun _ => rfl

theorem fetches_ids {calls : List WorkerCall} {fetch : Store × FetchCall} (made : fetch ∈ fetches decodeError store calls) :
    (fetch.1.workerQueue.map (·.id)).Sublist (store.workerQueue.map (·.id)) := by
  induction calls generalizing store with
  | nil => cases made
  | cons call rest ih =>
    cases call with
    | fetch call =>
      rcases List.mem_cons.mp made with rfl | later
      · exact List.Sublist.refl _
      · exact (ih later).trans (run_ids decodeError store (.fetch call))
    | ack now token completion => exact (ih made).trans (run_ids decodeError store _)
    | abandon now token delayMs ignoreAttempt => exact (ih made).trans (run_ids decodeError store _)

/-! ## Whole runs -/

/-- The items that the fetches of a run hand out, by their ids. -/
def allHandedOut (decodeError : Nat → Option String) (store : Store) (calls : List WorkerCall) : List Nat :=
  (fetches decodeError store calls).filterMap (handedOut decodeError)

/-- An item that every fetch of a run finds eligible and decodes waits for no more fetches than there are rows before it,
besides those that hand out an item again; and a fetch that selects a row which does not decode raises its attempts. -/
structure Advances (decodeError : Nat → Option String) (store : Store) (calls : List WorkerCall) : Prop where
  reaches : ∀ id, decodeError id = none →
    (∀ fetch ∈ fetches decodeError store calls, ∃ row ∈ fetch.1.workerQueue, row.id = id ∧
      Eligible fetch.1 fetch.2.now fetch.2.session fetch.2.filter row) →
    id ∉ allHandedOut decodeError store calls →
    (fetches decodeError store calls).length ≤ (store.workerQueue.filter (·.id < id)).length +
      ((allHandedOut decodeError store calls).length - (allHandedOut decodeError store calls).dedup.length)
  raises : ∀ fetch ∈ fetches decodeError store calls, ∀ row error, fetch.2.selects fetch.1 = some row →
    decodeError row.id = some error →
    ∃ raised ∈ (fetchStoredWorkItem decodeError fetch.1 fetch.2).2.workerQueue,
      raised.id = row.id ∧ raised.attemptCount = row.attemptCount + 1

/-- Every fetch of a run selects a row that decodes, if it selects one. -/
def SelectsDecodable (decodeError : Nat → Option String) (store : Store) (calls : List WorkerCall) : Prop :=
  ∀ fetch ∈ fetches decodeError store calls, ∀ row, fetch.2.selects fetch.1 = some row → decodeError row.id = none

variable {calls : List WorkerCall}

/-- While an item waits, each fetch hands out one with a lower id. -/
theorem handedOut_lower (decodable : SelectsDecodable decodeError store calls) {id : Nat}
    (waits : id ∉ allHandedOut decodeError store calls) {fetch : Store × FetchCall}
    (made : fetch ∈ fetches decodeError store calls)
    (eligible : ∃ row ∈ fetch.1.workerQueue, row.id = id ∧
      Eligible fetch.1 fetch.2.now fetch.2.session fetch.2.filter row) :
    ∃ lower, handedOut decodeError fetch = some lower ∧ lower < id ∧ lower ∈ store.workerQueue.map (·.id) := by
  obtain ⟨waiting, listed, rfl, eligible⟩ := eligible
  have cases := selects_cases fetch.1 fetch.2
  rcases selected : fetch.2.selects fetch.1 with _ | row
  · rw [selected] at cases
    exact absurd eligible (cases waiting listed)
  · rw [selected] at cases
    obtain ⟨present, _, lowest⟩ := cases
    have handed := handedOut_of_decodes selected (decodable fetch made row selected)
    have other : row.id ≠ waiting.id := by
      intro same
      exact waits (List.mem_filterMap.mpr ⟨fetch, made, same ▸ handed⟩)
    have before := lowest waiting listed eligible
    exact ⟨row.id, handed, by omega, (fetches_ids made).subset (List.mem_map_of_mem present)⟩

theorem reaches_of_selectsDecodable (decodable : SelectsDecodable decodeError store calls) {id : Nat}
    (eligible : ∀ fetch ∈ fetches decodeError store calls, ∃ row ∈ fetch.1.workerQueue, row.id = id ∧
      Eligible fetch.1 fetch.2.now fetch.2.session fetch.2.filter row)
    (waits : id ∉ allHandedOut decodeError store calls) :
    (fetches decodeError store calls).length ≤ (store.workerQueue.filter (·.id < id)).length +
      ((allHandedOut decodeError store calls).length - (allHandedOut decodeError store calls).dedup.length) := by
  have all : (allHandedOut decodeError store calls).length = (fetches decodeError store calls).length := by
    apply List.filterMap_length_eq_length.mpr
    intro fetch made
    obtain ⟨lower, handed, _⟩ := handedOut_lower decodable waits made (eligible fetch made)
    rw [handed]
    rfl
  have lower : (allHandedOut decodeError store calls).dedup ⊆ (store.workerQueue.filter (·.id < id)).map (·.id) := by
    intro number listed
    obtain ⟨fetch, made, handed⟩ := List.mem_filterMap.mp (List.mem_dedup.mp listed)
    obtain ⟨lower, same, less, present⟩ := handedOut_lower decodable waits made (eligible fetch made)
    rw [handed] at same
    obtain rfl := Option.some.inj same
    obtain ⟨row, stored, rfl⟩ := List.mem_map.mp present
    exact List.mem_map_of_mem (List.mem_filter.mpr ⟨stored, decide_eq_true less⟩)
  have few := (List.subperm_of_subset (List.nodup_dedup _) lower).length_le
  rw [List.length_map] at few
  omega

/-- The queue advances in exactly those runs in which no fetch selects a row that does not decode. -/
theorem advances_iff (distinct : (store.workerQueue.map (·.id)).Nodup) :
    Advances decodeError store calls ↔ SelectsDecodable decodeError store calls := by
  constructor
  · intro advances fetch made row selected
    rcases decodes : decodeError row.id with _ | error
    · rfl
    · obtain ⟨raised, listed, same, more⟩ := advances.raises fetch made row error selected decodes
      rw [fetchStoredWorkItem_error selected decodes] at listed
      have cases := selects_cases fetch.1 fetch.2
      rw [selected] at cases
      obtain rfl := List.inj_on_of_nodup_map ((fetches_ids made).nodup distinct) listed cases.1 same
      omega
  · intro decodable
    refine ⟨fun id _ eligible waits => reaches_of_selectsDecodable decodable eligible waits, ?_⟩
    intro fetch made row error selected broken
    rw [decodable fetch made row selected] at broken
    cases broken

/-- A free item without a session. -/
def plainRow (id : Nat) : WorkerRow where
  id := id
  workItem := .activityExecute "i" 1 id "a" "" none none
  visibleAt := 0
  identity := none
  sessionId := none
  tag := none

/-- Two free items; the text of the first does not decode. -/
def blockedQueue : Store where
  workerQueue := [plainRow 1, plainRow 2]

def newerVersion (id : Nat) : Option String := if id = 1 then some "unknown variant" else none

def plainFetch : FetchCall := ⟨5, 1000, 7, none, .any⟩

/-- When every row decodes two fetches advance. -/
theorem advances_decodable : Advances (fun _ => none) blockedQueue [.fetch plainFetch, .fetch { plainFetch with token := 8 }] :=
  (advances_iff (by decide)).mpr fun _ _ _ _ => rfl

theorem eligible_plainRow (id : Nat) : Eligible blockedQueue plainFetch.now plainFetch.session plainFetch.filter (plainRow id) := by
  refine ⟨⟨show (0 : Int) ≤ 5 by decide, .inl rfl, rfl, ?_⟩, ?_⟩
  · intro sessionId bound
    cases bound
  · intro bound
    cases bound

theorem selects_blockedQueue : plainFetch.selects blockedQueue = some (plainRow 1) := by
  have cases := selects_cases blockedQueue plainFetch
  rcases selected : plainFetch.selects blockedQueue with _ | row
  · rw [selected] at cases
    exact absurd (eligible_plainRow 1) (cases _ List.mem_cons_self)
  · rw [selected] at cases
    obtain ⟨listed, _, lowest⟩ := cases
    have first := lowest (plainRow 1) List.mem_cons_self (eligible_plainRow 1)
    rcases List.mem_pair.mp listed with rfl | rfl
    · rfl
    · exact absurd first (by decide)

/-- However often the worker fetches, the second item is not handed out and the attempts of the first are not counted. -/
theorem blockedQueue_starves :
    Eligible blockedQueue plainFetch.now plainFetch.session plainFetch.filter (plainRow 2) ∧
      (∀ count, allHandedOut newerVersion blockedQueue (List.replicate count (.fetch plainFetch)) = []) ∧
      ¬ Advances newerVersion blockedQueue [.fetch plainFetch] := by
  have broken : fetchStoredWorkItem newerVersion blockedQueue plainFetch =
      (.error (.makePermanent "fetch_work_item" ("Deserialization error: " ++ "unknown variant")), blockedQueue) :=
    fetchStoredWorkItem_error selects_blockedQueue rfl
  refine ⟨eligible_plainRow 2, ?_, ?_⟩
  · intro count
    induction count with
    | zero => rfl
    | succ count ih =>
      have again : fetches newerVersion blockedQueue (List.replicate (count + 1) (.fetch plainFetch)) =
          (blockedQueue, plainFetch) :: fetches newerVersion blockedQueue (List.replicate count (.fetch plainFetch)) := by
        rw [List.replicate_succ, fetches, WorkerCall.run, broken]
      have nothing : handedOut newerVersion (blockedQueue, plainFetch) = none := by
        simp only [handedOut, selects_blockedQueue, broken, Option.map_some]
      rw [allHandedOut, again, List.filterMap_cons_none nothing]
      exact ih
  · intro advances
    obtain ⟨raised, listed, same, more⟩ := advances.raises _ List.mem_cons_self (plainRow 1) "unknown variant"
      selects_blockedQueue rfl
    rw [broken] at listed
    rcases List.mem_pair.mp listed with rfl | rfl
    · cases more
    · cases more

end Duroxide.Provider
