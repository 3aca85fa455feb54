import Mathlib.Data.List.Basic

/-! # Registers over a log

A register that some entries of a log write. It is kept by folding the log, by reading the log from its end, or
by updating what is stored with the last write of each addition; all of them come to the last write.
-/

namespace Duroxide.Lib.Register

variable {Entry Value : Type*}

/-- The last write of a log. -/
def lastWrite (writes : Entry → Option Value) (log : List Entry) : Option Value := (log.filterMap writes).getLast?

variable {writes : Entry → Option Value}

@[simp] theorem lastWrite_nil : lastWrite writes [] = none := rfl

theorem lastWrite_append (log later : List Entry) :
    lastWrite writes (log ++ later) = (lastWrite writes later).or (lastWrite writes log) := by
  unfold lastWrite
  rw [List.filterMap_append, List.getLast?_append]

theorem lastWrite_cons (entry : Entry) (rest : List Entry) :
    lastWrite writes (entry :: rest) = (lastWrite writes rest).or (writes entry) := by
  rw [← List.singleton_append, lastWrite_append]
  cases written : writes entry <;> simp [lastWrite, written]

/-- A log without writes. -/
theorem lastWrite_eq_none {log : List Entry} : lastWrite writes log = none ↔ log.filterMap writes = [] :=
  List.getLast?_eq_none_iff

theorem lastWrite_congr {others : Entry → Option Value} {log : List Entry}
    (same : ∀ entry ∈ log, writes entry = others entry) : lastWrite writes log = lastWrite others log :=
  congrArg List.getLast? (List.filterMap_congr same)

/-- A register that takes only some of the values has the last value if it takes that. -/
theorem lastWrite_bind {Other : Type*} {taken : Value → Option Other} {log : List Entry} {value : Value} {other : Other}
    (written : lastWrite writes log = some value) (takes : taken value = some other) :
    lastWrite (fun entry => (writes entry).bind taken) log = some other := by
  induction log with
  | nil => cases written
  | cons entry rest ih =>
    rw [lastWrite_cons] at written ⊢
    cases later : lastWrite writes rest with
    | some last =>
      rw [later, Option.some_or] at written
      rw [ih (later.trans written), Option.some_or]
    | none =>
      rw [later, Option.none_or] at written
      have silent : lastWrite (fun entry => (writes entry).bind taken) rest = none := by
        rw [lastWrite_eq_none, List.filterMap_eq_nil_iff] at later ⊢
        exact fun entry member => by rw [later entry member, Option.bind_none]
      rw [silent, Option.none_or, written, Option.bind_some, takes]

/-- Folding a log writes one entry after the other. -/
theorem foldl_getD (value : Value) (log : List Entry) :
    log.foldl (fun value entry => (writes entry).getD value) value = (lastWrite writes log).getD value := by
  induction log generalizing value with
  | nil => rfl
  | cons entry rest ih =>
    rw [List.foldl_cons, ih, lastWrite_cons]
    cases lastWrite writes rest <;> simp

/-- Reading a log from its end. -/
theorem findSome?_reverse (log : List Entry) : log.reverse.findSome? writes = lastWrite writes log := by
  induction log with
  | nil => rfl
  | cons entry rest ih =>
    rw [List.reverse_cons, List.findSome?_append, ih, lastWrite_cons]
    cases written : writes entry <;> simp [written]

end Duroxide.Lib.Register
