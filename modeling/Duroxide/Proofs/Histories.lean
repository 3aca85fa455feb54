import Duroxide.Proofs.Provenance
import Duroxide.Proofs.Turns

/-! # The recorded events of an execution

Every row of a reachable history holds an event under its own id, so a history is the list of its
events. Events that are numbered above them are appended at the end; an event id that is taken refuses
the whole append.
-/

namespace Duroxide

open Provider

/-- The events that are recorded for an execution. -/
def Store.recorded (store : Store) (instanceId : String) (executionId : Nat) : List Event :=
  (store.history instanceId executionId).rows.filterMap (·.event.toOption)

/-- The row of an event. -/
def rowOf (event : Event) : HistoryRow := ⟨event.eventId, .ok event⟩

/-- A history that consists of events, each under its own id. -/
def ExecutionHistory.Holds (history : ExecutionHistory) (events : List Event) : Prop := history.rows = events.map rowOf

namespace ExecutionHistory

variable {history after : ExecutionHistory} {events delta : List Event}

theorem holds_of_origin (rows : ∀ row ∈ history.rows, RowOrigin row) :
    history.Holds (history.rows.filterMap (·.event.toOption)) := by
  unfold Holds
  generalize history.rows = rows' at rows
  induction rows' with
  | nil => rfl
  | cons row rest ih =>
    cases rows row List.mem_cons_self with
    | intro event numbered origin =>
      exact congrArg (rowOf event :: ·) (ih fun later member => rows later (List.mem_cons_of_mem _ member))

theorem Holds.events_eq (holds : history.Holds events) : history.rows.filterMap (·.event.toOption) = events := by
  rw [holds, List.filterMap_map]
  exact List.filterMap_some

theorem Holds.ascending (holds : history.Holds events) : Ascending events := by
  have ordered := history.ordered
  rw [holds, List.pairwise_map] at ordered
  exact ordered

/-- A row above all others goes to the end. -/
theorem insertRow_above {row : HistoryRow} {rows : List HistoryRow}
    (above : ∀ other ∈ rows, other.eventId < row.eventId) : insertRow row rows = some (rows ++ [row]) := by
  induction rows with
  | nil => rfl
  | cons first rest ih =>
    have below := above first List.mem_cons_self
    rw [insertRow, if_neg (Nat.lt_asymm below), if_neg (Nat.ne_of_gt below),
      ih fun other member => above other (List.mem_cons_of_mem first member)]
    rfl

/-- A row under a taken id is refused. -/
theorem insertRow_taken {row : HistoryRow} {rows : List HistoryRow} (ordered : rows.Pairwise (·.eventId < ·.eventId))
    (taken : ∃ other ∈ rows, other.eventId = row.eventId) : insertRow row rows = none := by
  induction rows with
  | nil =>
    obtain ⟨other, none, _⟩ := taken
    exact absurd none List.not_mem_nil
  | cons first rest ih =>
    obtain ⟨above, restOrdered⟩ := List.pairwise_cons.mp ordered
    obtain ⟨other, member, same⟩ := taken
    rcases List.mem_cons.mp member with rfl | later
    · rw [insertRow, if_neg (by omega), if_pos same.symm]
    · have below := above other later
      rw [insertRow, if_neg (by omega), if_neg (by omega), ih restOrdered ⟨other, later, same⟩]
      rfl

/-- Events numbered above a history are appended to it. -/
theorem insertEvents_above (holds : history.Holds events) (ascending : Ascending (events ++ delta)) :
    ∃ after, insertEvents history delta = some after ∧ after.Holds (events ++ delta) := by
  induction delta generalizing history events with
  | nil => exact ⟨history, rfl, by rwa [List.append_nil]⟩
  | cons event rest ih =>
    have inserted : insertRow (rowOf event) history.rows = some (history.rows ++ [rowOf event]) := by
      refine insertRow_above fun other member => ?_
      rw [holds] at member
      obtain ⟨earlier, earlierMember, rfl⟩ := List.mem_map.mp member
      exact (List.pairwise_append.mp ascending).2.2 earlier earlierMember event List.mem_cons_self
    obtain ⟨middle, first, rows⟩ : ∃ middle, history.insert (rowOf event) = some middle ∧
        middle.rows = history.rows ++ [rowOf event] := by
      unfold ExecutionHistory.insert
      split
      · rename_i rows found
        rw [inserted] at found
        cases found
        exact ⟨_, rfl, rfl⟩
      · rename_i refused
        rw [inserted] at refused
        cases refused
    have middleHolds : middle.Holds (events ++ [event]) := by
      rw [Holds, rows, holds, List.map_append]
      rfl
    have regrouped : events ++ event :: rest = (events ++ [event]) ++ rest := (List.append_assoc events [event] rest).symm
    rw [regrouped] at ascending ⊢
    obtain ⟨after, later, afterHolds⟩ := ih middleHolds ascending
    refine ⟨after, ?_, afterHolds⟩
    rw [insertEvents]
    exact (congrArg (Option.bind · (insertEvents · rest)) first).trans later

/-- A first event under a taken id refuses the append. -/
theorem insertEvents_taken (holds : history.Holds events) {event : Event} {rest : List Event}
    (taken : ∃ earlier ∈ events, earlier.eventId = event.eventId) : insertEvents history (event :: rest) = none := by
  have refused : insertRow (rowOf event) history.rows = none := by
    obtain ⟨earlier, member, same⟩ := taken
    refine insertRow_taken history.ordered ⟨rowOf earlier, ?_, same⟩
    rw [holds]
    exact List.mem_map_of_mem member
  have none : history.insert (rowOf event) = .none := by
    unfold ExecutionHistory.insert
    split
    · rename_i rows found
      rw [refused] at found
      cases found
    · rfl
  rw [insertEvents]
  exact congrArg (Option.bind · (insertEvents · rest)) none

theorem mem_insertRow_iff {row other : HistoryRow} {rows result : List HistoryRow}
    (inserted : insertRow row rows = some result) : other ∈ result ↔ other = row ∨ other ∈ rows := by
  refine ⟨mem_of_insertRow inserted, ?_⟩
  induction rows generalizing result with
  | nil =>
    cases inserted
    exact fun member => member.elim (fun same => same ▸ List.mem_cons_self) fun none => absurd none List.not_mem_nil
  | cons first rest ih =>
    simp only [insertRow] at inserted
    split_ifs at inserted
    · cases inserted
      exact List.mem_cons.mpr
    · obtain ⟨tail, inner, rfl⟩ := Option.map_eq_some_iff.mp inserted
      rintro (rfl | member)
      · exact List.mem_cons_of_mem first (ih inner (.inl rfl))
      · rcases List.mem_cons.mp member with rfl | later
        · exact List.mem_cons_self
        · exact List.mem_cons_of_mem first (ih inner (.inr later))

/-- Inserting events adds their rows and keeps the others. -/
theorem mem_insertEvents_iff (inserted : insertEvents history delta = some after) {row : HistoryRow} :
    row ∈ after.rows ↔ row ∈ history.rows ∨ ∃ event ∈ delta, row = rowOf event := by
  induction delta generalizing history with
  | nil =>
    cases inserted
    simp
  | cons event rest ih =>
    obtain ⟨middle, first, later⟩ := Option.bind_eq_some_iff.mp inserted
    obtain ⟨rows, firstRows, rfl⟩ : ∃ rows, ∃ found : insertRow (rowOf event) history.rows = some rows,
        middle = ⟨rows, insertRow_ordered history.ordered found⟩ := by
      unfold ExecutionHistory.insert at first
      split at first
      · rename_i rows found
        exact ⟨rows, found, (Option.some.inj first).symm⟩
      · cases first
    rw [ih later, mem_insertRow_iff firstRows]
    simp only [List.mem_cons, exists_eq_or_imp]
    tauto

end ExecutionHistory

/-- What a query reads of an execution is what is recorded for it. -/
theorem Store.recorded_of_readHistory {store : Store} {instanceId : String} {executionId : Nat} {events : List Event}
    (read : store.readHistory instanceId executionId = .ok events) : events = store.recorded instanceId executionId := by
  have same := congrArg (List.filterMap Except.toOption) (readHistory_ok read)
  rw [List.filterMap_map, List.filterMap_map] at same
  exact List.filterMap_some.symm.trans same.symm

namespace Provenance

variable {semver : Semver} {world : World semver}

theorem holds (provenance : Provenance world) (instanceId : String) (executionId : Nat) :
    (world.store.history instanceId executionId).Holds (world.store.recorded instanceId executionId) :=
  ExecutionHistory.holds_of_origin (provenance.rows instanceId executionId)

theorem ascending (provenance : Provenance world) (instanceId : String) (executionId : Nat) :
    Ascending (world.store.recorded instanceId executionId) :=
  (provenance.holds instanceId executionId).ascending

theorem historyOrigin (provenance : Provenance world) (instanceId : String) (executionId : Nat) :
    HistoryOrigin (world.store.recorded instanceId executionId) := by
  refine .of_rows (provenance.rows instanceId executionId) ?_
  rw [provenance.holds, List.map_map]
  rfl

end Provenance

end Duroxide
