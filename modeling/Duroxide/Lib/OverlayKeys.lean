import Duroxide.Lib.Overlay
import Mathlib.Data.Finset.Card
import Mathlib.Data.List.Dedup

/-! # The keys of a table with an overlay

Lists of the keys in use, followed through changes. Following the keys of the base instead of those that are
read misses what the overlay added and keeps what it cleared; only where these are as many is the count right.
-/

namespace Duroxide.Lib.Overlay

variable {Key Value : Type*} [DecidableEq Key]

/-- A list holds each key of a table once. -/
structure Lists {Entry : Type*} (keys : List Key) (table : Key → Option Entry) : Prop where
  distinct : keys.Nodup
  mem_iff : ∀ key, key ∈ keys ↔ (table key).isSome

namespace Change

/-- The keys in use after a change. -/
def applyKeys : Change Key Value → List Key → List Key
  | .set key _, keys => keys.insert key
  | .clear key, keys => keys.erase key
  | .clearAll, _ => []

/-- Whether a change decides what is read under a key. -/
def touches (key : Key) : Change Key Value → Bool
  | .set other _ | .clear other => other = key
  | .clearAll => true

theorem lists_applyKeys (change : Change Key Value) {keys : List Key} {table : Table Key Value} (lists : Lists keys table) :
    Lists (change.applyKeys keys) (change.apply table) := by
  cases change with
  | set key value =>
    constructor
    · exact lists.distinct.insert
    · intro other
      simp only [applyKeys, apply, List.mem_insert_iff]
      by_cases same : other = key
      · simp [same]
      · simp [same, lists.mem_iff]
  | clear key =>
    constructor
    · exact lists.distinct.erase key
    · intro other
      simp only [applyKeys, apply, lists.distinct.mem_erase_iff]
      by_cases same : other = key
      · simp [same]
      · simp [same, lists.mem_iff]
  | clearAll =>
    constructor
    · exact List.nodup_nil
    · simp [applyKeys, apply]

theorem apply_touched {change : Change Key Value} {key : Key} (touched : change.touches key)
    (first second : Table Key Value) : change.apply first key = change.apply second key := by
  cases change with
  | set other value | clear other =>
    obtain rfl : other = key := of_decide_eq_true touched
    simp [apply]
  | clearAll => rfl

theorem apply_untouched {change : Change Key Value} {key : Key} (untouched : change.touches key = false)
    (table : Table Key Value) : change.apply table key = table key := by
  cases change with
  | set other value | clear other =>
    have differs : other ≠ key := of_decide_eq_false untouched
    exact Function.update_of_ne differs.symm ..
  | clearAll => cases untouched

end Change

/-- The keys in use after changes, in order. -/
def keysThrough (changes : List (Change Key Value)) (keys : List Key) : List Key :=
  changes.foldl (fun keys change => change.applyKeys keys) keys

/-- Whether changes decide what is read under a key. -/
def touched (changes : List (Change Key Value)) (key : Key) : Bool := changes.any (·.touches key)

theorem lists_keysThrough (changes : List (Change Key Value)) {keys : List Key} {table : Table Key Value}
    (lists : Lists keys table) : Lists (keysThrough changes keys) (applyAll changes table) := by
  induction changes generalizing keys table with
  | nil => exact lists
  | cons change rest ih => exact ih (change.lists_applyKeys lists)

theorem applyAll_touched {changes : List (Change Key Value)} {key : Key} (decided : touched changes key)
    (first second : Table Key Value) : applyAll changes first key = applyAll changes second key := by
  induction changes generalizing first second with
  | nil => cases decided
  | cons change rest ih =>
    by_cases later : touched rest key
    · exact ih later (change.apply first) (change.apply second)
    · rcases applyAll_cases rest key with ⟨value, decides⟩ | leaves
      · exact (decides (change.apply first)).trans (decides (change.apply second)).symm
      · have now : change.touches key := by
          rw [touched, List.any_cons, Bool.or_eq_true] at decided
          exact decided.resolve_right later
        refine (leaves (change.apply first)).trans (Eq.trans ?_ (leaves (change.apply second)).symm)
        exact Change.apply_touched now first second

theorem applyAll_untouched {changes : List (Change Key Value)} {key : Key} (undecided : touched changes key = false)
    (table : Table Key Value) : applyAll changes table key = table key := by
  induction changes generalizing table with
  | nil => rfl
  | cons change rest ih =>
    simp only [touched, List.any_cons, Bool.or_eq_false_iff] at undecided
    exact (ih undecided.2 (change.apply table)).trans (Change.apply_untouched undecided.1 table)

/-- Changes leave a table as it is exactly if each key that they decide ends with its value. -/
theorem applyAll_eq_self_iff {changes : List (Change Key Value)} {table : Table Key Value} :
    applyAll changes table = table ↔
      ∀ key, touched changes key → applyAll changes (fun _ => none) key = table key := by
  constructor
  · intro same key decided
    rw [applyAll_touched decided (fun _ => none) table, same]
  · intro ends
    funext key
    by_cases decided : touched changes key
    · rw [applyAll_touched decided table fun _ => none]
      exact ends key decided
    · exact applyAll_untouched (Bool.eq_false_of_not_eq_true decided) table

theorem Change.set_of_apply {change : Change Key Value} {table : Table Key Value} {key : Key} {value : Value}
    (reads : change.apply table key = some value) : change = .set key value ∨ table key = some value := by
  cases change with
  | set other written =>
    by_cases same : key = other
    · subst same
      simp only [apply, Function.update_self, Option.some.injEq] at reads
      exact .inl (congrArg _ reads)
    · simp only [apply, Function.update_of_ne same] at reads
      exact .inr reads
  | clear other =>
    by_cases same : key = other
    · subst same
      simp [apply] at reads
    · simp only [apply, Function.update_of_ne same] at reads
      exact .inr reads
  | clearAll => cases reads

/-- What is read after changes was set by one of them, or read before. -/
theorem set_of_applyAll {changes : List (Change Key Value)} {table : Table Key Value} {key : Key} {value : Value}
    (reads : applyAll changes table key = some value) : .set key value ∈ changes ∨ table key = some value := by
  induction changes generalizing table with
  | nil => exact .inr reads
  | cons change rest ih =>
    rcases ih reads with later | now
    · exact .inl (List.mem_cons_of_mem change later)
    · refine (Change.set_of_apply now).imp_left fun same => ?_
      exact same ▸ List.mem_cons_self

omit [DecidableEq Key] in
/-- Lists of the keys of one table are equally long. -/
theorem Lists.length_eq {Entry Other : Type*} {keys others : List Key} {table : Key → Option Entry}
    {other : Key → Option Other} (lists : Lists keys table) (otherLists : Lists others other)
    (same : ∀ key, (table key).isSome = (other key).isSome) : keys.length = others.length := by
  refine ((List.perm_ext_iff_of_nodup lists.distinct otherLists.distinct).mpr fun key => ?_).length_eq
  rw [lists.mem_iff, otherLists.mem_iff, same]

/-! ## Keys that the base does not know, and keys that it should have forgotten -/

/-- The written keys with a value that are new over the base and that the changes leave alone. -/
def addedKeys (base : Table Key Value) (delta : Delta Key Value) (changes : List (Change Key Value)) (written : List Key) :
    List Key :=
  written.filter fun key => !touched changes key && (delta key).any (·.isSome) && (base key).isNone

/-- The keys of the base that were cleared and that the changes leave alone. -/
def clearedKeys (base : Table Key Value) (delta : Delta Key Value) (changes : List (Change Key Value)) (written : List Key) :
    List Key :=
  written.filter fun key => !touched changes key && (delta key).any (·.isNone) && (base key).isSome

section Counting

variable {base : Table Key Value} {delta : Delta Key Value} {changes : List (Change Key Value)}
  {stored visible written : List Key}

/-- The keys that are read but not followed from the base are the added ones. -/
theorem mem_addedKeys (stores : Lists stored base) (reads : Lists visible (view base delta)) (writes : Lists written delta)
    {key : Key} :
    key ∈ addedKeys base delta changes written ↔ key ∈ keysThrough changes visible ∧ key ∉ keysThrough changes stored := by
  rw [(lists_keysThrough changes reads).mem_iff, (lists_keysThrough changes stores).mem_iff, addedKeys, List.mem_filter,
    writes.mem_iff]
  rcases decided : touched changes key with _ | _
  · rw [applyAll_untouched decided, applyAll_untouched decided]
    rcases row : delta key with _ | (_ | value)
    · simp [view_of_unwritten row, Option.isSome_iff_ne_none]
    · simp [view_of_written row]
    · simp [view_of_written row]
  · rw [applyAll_touched decided (view base delta) base]
    simp [Option.isSome_iff_ne_none]

/-- The keys that are followed from the base but not read are the cleared ones. -/
theorem mem_clearedKeys (stores : Lists stored base) (reads : Lists visible (view base delta)) (writes : Lists written delta)
    {key : Key} :
    key ∈ clearedKeys base delta changes written ↔ key ∈ keysThrough changes stored ∧ key ∉ keysThrough changes visible := by
  rw [(lists_keysThrough changes reads).mem_iff, (lists_keysThrough changes stores).mem_iff, clearedKeys, List.mem_filter,
    writes.mem_iff]
  rcases decided : touched changes key with _ | _
  · rw [applyAll_untouched decided, applyAll_untouched decided]
    rcases row : delta key with _ | (_ | value)
    · simp [view_of_unwritten row, Option.isSome_iff_ne_none]
    · simp [view_of_written row]
    · simp [view_of_written row]
  · rw [applyAll_touched decided (view base delta) base]
    simp [Option.isSome_iff_ne_none]

/-- Both counts, with what each of them misses. -/
theorem length_keysThrough (stores : Lists stored base) (reads : Lists visible (view base delta))
    (writes : Lists written delta) :
    (keysThrough changes stored).length + (addedKeys base delta changes written).length =
      (keysThrough changes visible).length + (clearedKeys base delta changes written).length := by
  have followed := (lists_keysThrough changes stores).distinct
  have read := (lists_keysThrough changes reads).distinct
  have missed : (addedKeys base delta changes written).Nodup := writes.distinct.filter _
  have kept : (clearedKeys base delta changes written).Nodup := writes.distinct.filter _
  have added : (addedKeys base delta changes written).toFinset =
      (keysThrough changes visible).toFinset \ (keysThrough changes stored).toFinset := by
    ext key
    simp [mem_addedKeys stores reads writes]
  have cleared : (clearedKeys base delta changes written).toFinset =
      (keysThrough changes stored).toFinset \ (keysThrough changes visible).toFinset := by
    ext key
    simp [mem_clearedKeys stores reads writes]
  rw [← List.toFinset_card_of_nodup followed, ← List.toFinset_card_of_nodup read,
    ← List.toFinset_card_of_nodup missed, ← List.toFinset_card_of_nodup kept, added, cleared]
  have first := Finset.card_sdiff_add_card (keysThrough changes visible).toFinset (keysThrough changes stored).toFinset
  have second := Finset.card_sdiff_add_card (keysThrough changes stored).toFinset (keysThrough changes visible).toFinset
  rw [Finset.union_comm] at second
  omega

end Counting

end Duroxide.Lib.Overlay
