import Mathlib.Logic.Function.Basic
import Mathlib.Tactic.SplitIfs

/-! # A table with an overlay

A base table under an overlay that records what was written since: values, and tombstones for what was
cleared. Reading through the overlay gives the table that the writes alone would have given, and folding the
overlay into the base changes nothing of what is read.
-/

namespace Duroxide.Lib.Overlay

variable {Key Value : Type*}

abbrev Table (Key Value : Type*) := Key → Option Value

/-- What was written over a base; a key without a value is a tombstone. -/
abbrev Delta (Key Value : Type*) := Key → Option (Option Value)

inductive Change (Key Value : Type*) where
  | set (key : Key) (value : Value)
  | clear (key : Key)
  | clearAll
deriving DecidableEq, Repr

/-- What is read through an overlay. -/
def view (base : Table Key Value) (delta : Delta Key Value) : Table Key Value :=
  fun key => (delta key).getD (base key)

/-- An overlay that nothing was written in. -/
def unwritten : Delta Key Value := fun _ => none

@[simp] theorem view_unwritten (base : Table Key Value) : view base unwritten = base := rfl

theorem view_of_written {base : Table Key Value} {delta : Delta Key Value} {key : Key} {value : Option Value}
    (written : delta key = some value) : view base delta key = value := by
  rw [view, written, Option.getD_some]

theorem view_of_unwritten {base : Table Key Value} {delta : Delta Key Value} {key : Key}
    (free : delta key = none) : view base delta key = base key := by
  rw [view, free, Option.getD_none]

variable [DecidableEq Key]

namespace Change

/-- The change of a plain table. -/
def apply : Change Key Value → Table Key Value → Table Key Value
  | .set key value, table => Function.update table key (some value)
  | .clear key, table => Function.update table key none
  | .clearAll, _ => fun _ => none

/-- The change as it is recorded in an overlay; clearing everything leaves a tombstone for every key in use. -/
def record (base : Table Key Value) : Change Key Value → Delta Key Value → Delta Key Value
  | .set key value, delta => Function.update delta key (some (some value))
  | .clear key, delta => Function.update delta key (some none)
  | .clearAll, delta => fun key => if (delta key).isSome || (base key).isSome then some none else none

/-- A recorded change is read as the change of a plain table. -/
theorem view_record (base : Table Key Value) (change : Change Key Value) (delta : Delta Key Value) :
    view base (change.record base delta) = change.apply (view base delta) := by
  funext key
  cases change with
  | set other value | clear other =>
    by_cases same : key = other
    · subst same
      simp [record, apply, view]
    · simp [record, apply, view, Function.update_of_ne same]
  | clearAll =>
    simp only [record, apply, view]
    split_ifs with used
    · rfl
    · simp only [Bool.or_eq_true, not_or, Bool.not_eq_true, Option.isSome_eq_false_iff, Option.isNone_iff_eq_none] at used
      exact used.2

/-- A change either decides what is read under a key, or leaves it alone. -/
theorem apply_cases (change : Change Key Value) (key : Key) :
    (∃ value, ∀ table, change.apply table key = value) ∨ ∀ table, change.apply table key = table key := by
  cases change with
  | set other value | clear other =>
    by_cases same : key = other
    · subst same
      exact .inl ⟨_, fun table => Function.update_self ..⟩
    · exact .inr fun table => Function.update_of_ne same ..
  | clearAll => exact .inl ⟨none, fun _ => rfl⟩

end Change

/-- Changes, in order. -/
def applyAll (changes : List (Change Key Value)) (table : Table Key Value) : Table Key Value :=
  changes.foldl (fun table change => change.apply table) table

def recordAll (base : Table Key Value) (changes : List (Change Key Value)) (delta : Delta Key Value) :
    Delta Key Value :=
  changes.foldl (fun delta change => change.record base delta) delta

@[simp] theorem applyAll_nil (table : Table Key Value) : applyAll [] table = table := rfl

theorem applyAll_append (first second : List (Change Key Value)) (table : Table Key Value) :
    applyAll (first ++ second) table = applyAll second (applyAll first table) := List.foldl_append

theorem recordAll_append (base : Table Key Value) (first second : List (Change Key Value)) (delta : Delta Key Value) :
    recordAll base (first ++ second) delta = recordAll base second (recordAll base first delta) := List.foldl_append

/-- Recorded changes are read as the changes of a plain table. -/
theorem view_recordAll (base : Table Key Value) (changes : List (Change Key Value)) (delta : Delta Key Value) :
    view base (recordAll base changes delta) = applyAll changes (view base delta) := by
  induction changes generalizing delta with
  | nil => rfl
  | cons change rest ih =>
    rw [recordAll, applyAll, List.foldl_cons, List.foldl_cons, ← change.view_record]
    exact ih _

/-- Changes either decide what is read under a key, or leave it alone. -/
theorem applyAll_cases (changes : List (Change Key Value)) (key : Key) :
    (∃ value, ∀ table, applyAll changes table key = value) ∨ ∀ table, applyAll changes table key = table key := by
  induction changes with
  | nil => exact .inr fun _ => rfl
  | cons change rest ih =>
    rcases ih with ⟨value, decides⟩ | leaves
    · exact .inl ⟨value, fun table => decides (change.apply table)⟩
    · refine (change.apply_cases key).imp ?_ ?_
      · exact fun ⟨value, decides⟩ => ⟨value, fun table => (leaves (change.apply table)).trans (decides table)⟩
      · exact fun kept table => (leaves (change.apply table)).trans (kept table)

/-- Changes that a table already went through change nothing. -/
theorem applyAll_idem (changes : List (Change Key Value)) (table : Table Key Value) :
    applyAll changes (applyAll changes table) = applyAll changes table := by
  funext key
  rcases applyAll_cases changes key with ⟨value, decides⟩ | leaves
  · rw [decides, decides]
  · exact leaves _

end Duroxide.Lib.Overlay
