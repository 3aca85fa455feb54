import Mathlib.Data.List.AList

/-! # Deleting and updating rows of a keyed table

Association lists as tables with a primary key: `deleteWhere` and `updateWhere` act on every row that
satisfies a test, and their lookup lemmas describe the result row by row.
-/

namespace Duroxide.Lib.KeyedTable

variable {Key Row : Type*} [DecidableEq Key]

abbrev Table (Key Row : Type*) := AList fun _ : Key => Row

def deleteWhere (table : Table Key Row) (matching : Key → Row → Bool) : Table Key Row :=
  ⟨table.entries.filter fun entry => !matching entry.1 entry.2,
    List.NodupKeys.sublist List.filter_sublist table.nodupKeys⟩

/-- Apply a change to an entry if it satisfies a test. -/
def changeEntry (matching : Key → Row → Bool) (change : Row → Row) (entry : Sigma fun _ : Key => Row) :
    Sigma fun _ : Key => Row :=
  if matching entry.1 entry.2 then ⟨entry.1, change entry.2⟩ else entry

omit [DecidableEq Key] in
@[simp] theorem changeEntry_fst (matching : Key → Row → Bool) (change : Row → Row)
    (entry : Sigma fun _ : Key => Row) : (changeEntry matching change entry).1 = entry.1 := by
  unfold changeEntry
  split_ifs <;> rfl

omit [DecidableEq Key] in
theorem keys_map_changeEntry (matching : Key → Row → Bool) (change : Row → Row)
    (entries : List (Sigma fun _ : Key => Row)) : (entries.map (changeEntry matching change)).keys = entries.keys := by
  simp only [List.keys, List.map_map]
  exact List.map_congr_left fun entry _ => changeEntry_fst matching change entry

def updateWhere (table : Table Key Row) (matching : Key → Row → Bool) (change : Row → Row) : Table Key Row :=
  ⟨table.entries.map (changeEntry matching change), by
    unfold List.NodupKeys
    rw [keys_map_changeEntry]
    exact table.nodupKeys⟩

theorem mem_entries_iff {table : Table Key Row} {key : Key} {row : Row} :
    ⟨key, row⟩ ∈ table.entries ↔ table.lookup key = some row := AList.mem_lookup_iff.symm

/-- A row survives exactly if it does not satisfy the test. -/
theorem lookup_deleteWhere (table : Table Key Row) (matching : Key → Row → Bool) (key : Key) :
    (deleteWhere table matching).lookup key = (table.lookup key).filter fun row => !matching key row := by
  ext row
  have kept : (deleteWhere table matching).lookup key = some row ↔
      table.lookup key = some row ∧ matching key row = false := by
    rw [← mem_entries_iff, ← mem_entries_iff]
    simp [deleteWhere]
  simpa [Option.filter_eq_some_iff] using kept

omit [DecidableEq Key] in
theorem deleteWhere_eq_self {table : Table Key Row} {matching : Key → Row → Bool}
    (none : ∀ entry ∈ table.entries, matching entry.1 entry.2 = false) : deleteWhere table matching = table := by
  apply AList.ext
  apply List.filter_eq_self.mpr
  intro entry member
  rw [none entry member, Bool.not_false]

omit [DecidableEq Key] in
theorem deleteWhere_deleteWhere (table : Table Key Row) (first second : Key → Row → Bool) :
    deleteWhere (deleteWhere table first) second = deleteWhere table fun key row => first key row || second key row := by
  apply AList.ext
  simp only [deleteWhere, List.filter_filter, Bool.not_or]
  exact List.filter_congr fun entry _ => Bool.and_comm _ _

/-- Rows under a key that is not deleted may be inserted before or after. -/
theorem deleteWhere_insert (table : Table Key Row) {matching : Key → Row → Bool} {key : Key}
    (kept : ∀ row, matching key row = false) (row : Row) :
    deleteWhere (table.insert key row) matching = (deleteWhere table matching).insert key row := by
  have erased : ∀ entries : List (Sigma fun _ : Key => Row),
      (entries.kerase key).filter (fun entry => !matching entry.1 entry.2) =
        (entries.filter fun entry => !matching entry.1 entry.2).kerase key := by
    intro entries
    induction entries with
    | nil => rfl
    | cons entry rest ih =>
      by_cases same : key = entry.1
      · rw [List.kerase_cons_eq same, List.filter_cons_of_pos (by rw [← same, kept, Bool.not_false]),
          List.kerase_cons_eq same]
      · rw [List.kerase_cons_ne same]
        cases stays : matching entry.1 entry.2 with
        | true => simp only [List.filter_cons, stays, Bool.not_true, Bool.false_eq_true, if_false, ih]
        | false => simp only [List.filter_cons, stays, Bool.not_false, if_true, List.kerase_cons_ne same, ih]
  apply AList.ext
  simp only [deleteWhere, AList.entries_insert, List.filter_cons, kept, Bool.not_false, if_true, erased]

theorem lookup_updateWhere (table : Table Key Row) (matching : Key → Row → Bool) (change : Row → Row) (key : Key) :
    (updateWhere table matching change).lookup key =
      (table.lookup key).map fun row => if matching key row then change row else row := by
  rcases found : table.lookup key with _ | row
  · rw [AList.lookup_eq_none, AList.mem_keys] at found
    rw [Option.map_none, AList.lookup_eq_none, AList.mem_keys]
    rwa [show (updateWhere table matching change).keys = table.keys from keys_map_changeEntry _ _ _]
  · rw [← mem_entries_iff] at found
    rw [Option.map_some, ← mem_entries_iff]
    have changed := List.mem_map_of_mem (f := changeEntry matching change) found
    unfold changeEntry at changed
    split_ifs at changed ⊢ <;> exact changed

/-! ## Going through a table's rows -/

variable {Other : Type*}

/-- Going through the rows of a table, where each row changes what another table has under its own key. -/
theorem lookup_foldl (table : Table Key Row) {step : Table Key Other → (Sigma fun _ : Key => Row) → Table Key Other}
    (effect : Row → Option Other → Option Other)
    (own : ∀ result entry, (step result entry).lookup entry.1 = effect entry.2 (result.lookup entry.1))
    (others : ∀ result entry key, key ≠ entry.1 → (step result entry).lookup key = result.lookup key)
    (start : Table Key Other) (key : Key) :
    (table.entries.foldl step start).lookup key =
      match table.lookup key with
      | some row => effect row (start.lookup key)
      | none => start.lookup key := by
  induction table using AList.insertRec generalizing start with
  | H0 => rfl
  | IH first row rest fresh ih =>
    rw [AList.entries_insert_of_notMem fresh, List.foldl_cons, ih]
    by_cases same : key = first
    · subst same
      rw [AList.lookup_insert, AList.lookup_eq_none.mpr fresh]
      exact own start ⟨key, row⟩
    · rw [AList.lookup_insert_ne same, others start ⟨first, row⟩ key same]

/-- Giving a row to every listed key that has none. -/
theorem lookup_foldl_insertMissing (keys : List Key) (row : Row) (start : Table Key Row) (key : Key) :
    (keys.foldl (fun table key => if (table.lookup key).isSome then table else table.insert key row) start).lookup key =
      if (start.lookup key).isNone && key ∈ keys then some row else start.lookup key := by
  induction keys generalizing start with
  | nil => simp
  | cons first rest ih =>
    rw [List.foldl_cons, ih]
    by_cases present : (start.lookup first).isSome
    · rw [if_pos present]
      by_cases same : key = first
      · subst same
        simp [Option.isSome_iff_ne_none.mp present]
      · simp [same]
    · rw [if_neg present]
      by_cases same : key = first
      · subst same
        rw [Option.not_isSome_iff_eq_none.mp present]
        simp
      · simp [AList.lookup_insert_ne same, same]

/-- A table with the same keys and changed rows. -/
theorem lookup_toAList_map (table : Table Key Row) (change : Row → Other) (key : Key) :
    ((table.entries.map fun entry => (⟨entry.1, change entry.2⟩ : Sigma fun _ : Key => Other)).toAList).lookup key =
      (table.lookup key).map change := by
  rw [AList.lookup_to_alist]
  exact List.dlookup_map₂ (f := fun _ => change) key

end Duroxide.Lib.KeyedTable
