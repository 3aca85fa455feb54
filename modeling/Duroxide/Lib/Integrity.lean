import Duroxide.Lib.Database

/-! # Integrity constraints of a database

A constraint holds of what a computation commits when it holds of what the computation starts from and
every statement keeps it. Where in the transaction an error occurs makes no difference.
-/

namespace Duroxide.Lib.Database.Db

variable {State Label DriverError Failure Value Result : Type} {constraint : State → Prop}

/-- The committed and the working state satisfy the constraint, if they did before. -/
def Upholds (constraint : State → Prop) (computation : Db State Label DriverError Failure Value) : Prop :=
  ∀ conn, constraint conn.committed → constraint conn.working →
    constraint (computation conn).2.committed ∧ constraint (computation conn).2.working

theorem upholds_pure (value : Value) :
    Upholds constraint (pure value : Db State Label DriverError Failure Value) :=
  fun _ committed working => ⟨committed, working⟩

theorem upholds_fail (error : Failure) :
    Upholds constraint (fail error : Db State Label DriverError Failure Value) :=
  fun _ committed working => ⟨committed, working⟩

theorem upholds_bind {computation : Db State Label DriverError Failure Value}
    {next : Value → Db State Label DriverError Failure Result} (first : Upholds constraint computation)
    (second : ∀ value, Upholds constraint (next value)) : Upholds constraint (computation >>= next) := by
  intro conn committed working
  obtain ⟨committed, working⟩ := first conn committed working
  rcases bind_cases computation next conn with ⟨error, after, ran, whole⟩ | ⟨value, after, ran, whole⟩
  · rw [ran] at committed working
    rw [whole]
    exact ⟨committed, working⟩
  · rw [ran] at committed working
    rw [whole]
    exact second value after committed working

theorem upholds_ignore {computation : Db State Label DriverError Failure Value} (upholds : Upholds constraint computation) :
    Upholds constraint (ignore computation : Db State Label DriverError Failure Unit) := upholds

theorem upholds_forEach {Item : Type} {body : Item → Db State Label DriverError Failure Unit}
    (each : ∀ item, Upholds constraint (body item)) (items : List Item) : Upholds constraint (forEach body items) := by
  induction items with
  | nil => exact upholds_pure ()
  | cons item rest ih => exact upholds_bind (each item) fun _ => ih

theorem upholds_ifSome {Item : Type} {body : Item → Db State Label DriverError Failure Unit} {item : Option Item}
    (each : ∀ value, item = some value → Upholds constraint (body value)) : Upholds constraint (ifSome item body) := by
  cases item with
  | none => exact upholds_pure ()
  | some value => exact each value rfl

variable {map : DriverError → Failure} {label : Label}

/-- A statement that reports an error has not run. -/
theorem upholds_execute {act : Conn State Label DriverError → Except Failure Value × Conn State Label DriverError}
    (acts : ∀ conn, constraint conn.committed → constraint conn.working →
      constraint (act conn).2.committed ∧ constraint (act conn).2.working) :
    Upholds constraint (execute map label act) := by
  intro conn committed working
  rcases due : conn.fault with _ | ⟨_ | later, error⟩
  · simp only [execute, due]
    exact acts conn committed working
  · simp only [execute, due]
    exact ⟨committed, working⟩
  · simp only [execute, due]
    exact acts _ committed working

theorem upholds_statement {effect : State → Except DriverError (Value × State)}
    (keeps : ∀ state value changed, constraint state → effect state = .ok (value, changed) → constraint changed) :
    Upholds constraint (statement map label effect : Db State Label DriverError Failure Value) := by
  apply upholds_execute
  intro conn committed working
  rcases ran : effect conn.working with error | ⟨value, changed⟩
  · simp only [applied, ran]
    exact ⟨committed, working⟩
  · simp only [applied, ran]
    exact ⟨committed, keeps conn.working value changed working ran⟩

theorem upholds_query (read : State → Value) :
    Upholds constraint (query map label read : Db State Label DriverError Failure Value) := by
  apply upholds_statement
  intro state value changed holds ran
  cases ran
  exact holds

theorem upholds_update {change : State → State} (keeps : ∀ state, constraint state → constraint (change state)) :
    Upholds constraint (update map label change : Db State Label DriverError Failure Unit) := by
  apply upholds_statement
  intro state value changed holds ran
  cases ran
  exact keeps state holds

theorem upholds_begin : Upholds constraint (begin map label : Db State Label DriverError Failure Unit) :=
  upholds_execute fun _ committed _ => ⟨committed, committed⟩

theorem upholds_commit : Upholds constraint (commit map label : Db State Label DriverError Failure Unit) :=
  upholds_execute fun _ _ working => ⟨working, working⟩

theorem upholds_rollback : Upholds constraint (rollback map label : Db State Label DriverError Failure Unit) :=
  upholds_execute fun _ committed _ => ⟨committed, committed⟩

/-- On a fresh connection the constraint carries over to what is committed. -/
theorem Upholds.committed {computation : Db State Label DriverError Failure Value} (upholds : Upholds constraint computation)
    {state : State} (holds : constraint state) (fault : Option (Nat × DriverError)) :
    constraint (computation (Conn.open state fault)).2.committed := (upholds _ holds holds).1

end Duroxide.Lib.Database.Db
