import Mathlib.Logic.Basic

/-! # Transactions over a database that may report errors

A connection holds the committed state and the state that its open transaction works on. Every
statement has a label; the connection may carry one fault, which makes a statement counted from now
report an error without running. A computation maps driver errors to errors of its own.

`Keeps`, `Strict` and `Benign` say what a computation leaves alone, that it never hides a reported
error, and that it never fails retryably by itself. `Classifies` says at which statements a reported
error is answered with a retryable error and no committed change; the bind rules compose it.
-/

namespace Duroxide.Lib.Database

structure Conn (State Label DriverError : Type) where
  committed : State
  working : State
  fault : Option (Nat × DriverError)
  reported : Option (Label × DriverError) := none

/-- A computation over a connection. -/
def Db (State Label DriverError Failure : Type) (Value : Type) :=
  Conn State Label DriverError → Except Failure Value × Conn State Label DriverError

variable {State Label DriverError Failure Value Result : Type}

/-- A connection on a database, outside of any transaction. -/
def Conn.open (state : State) (fault : Option (Nat × DriverError)) : Conn State Label DriverError :=
  ⟨state, state, fault, none⟩

namespace Db

instance : Monad (Db State Label DriverError Failure) where
  pure value := fun conn => (.ok value, conn)
  bind computation next := fun conn =>
    match computation conn with
    | (.ok value, conn) => next value conn
    | (.error error, conn) => (.error error, conn)

theorem pure_apply (value : Value) (conn : Conn State Label DriverError) :
    (pure value : Db State Label DriverError Failure Value) conn = (.ok value, conn) := rfl

theorem bind_apply (computation : Db State Label DriverError Failure Value)
    (next : Value → Db State Label DriverError Failure Result) (conn : Conn State Label DriverError) :
    (computation >>= next) conn =
      match computation conn with
      | (.ok value, conn) => next value conn
      | (.error error, conn) => (.error error, conn) := rfl

theorem bind_ok {computation : Db State Label DriverError Failure Value}
    {next : Value → Db State Label DriverError Failure Result} {conn after : Conn State Label DriverError}
    {value : Value} (ran : computation conn = (.ok value, after)) :
    (computation >>= next) conn = next value after := by
  simp only [bind_apply, ran]

theorem bind_error {computation : Db State Label DriverError Failure Value}
    {next : Value → Db State Label DriverError Failure Result} {conn after : Conn State Label DriverError}
    {error : Failure} (ran : computation conn = (.error error, after)) :
    (computation >>= next) conn = (.error error, after) := by
  simp only [bind_apply, ran]

def fail (error : Failure) : Db State Label DriverError Failure Value := fun conn => (.error error, conn)

/-- Count one statement: it reports the fault that is due, or it acts. -/
def execute (map : DriverError → Failure) (label : Label)
    (act : Conn State Label DriverError → Except Failure Value × Conn State Label DriverError) :
    Db State Label DriverError Failure Value := fun conn =>
  match conn.fault with
  | some (0, error) => (.error (map error), { conn with fault := none, reported := some (label, error) })
  | some (later + 1, error) => act { conn with fault := some (later, error) }
  | none => act conn

/-- Apply a statement's effect to the transaction's state. -/
def applied (map : DriverError → Failure) (effect : State → Except DriverError (Value × State))
    (conn : Conn State Label DriverError) : Except Failure Value × Conn State Label DriverError :=
  match effect conn.working with
  | .ok (value, working) => (.ok value, { conn with working })
  | .error error => (.error (map error), conn)

/-- Start the transaction's state afresh. -/
def restarted (conn : Conn State Label DriverError) : Except Failure Unit × Conn State Label DriverError :=
  (.ok (), { conn with working := conn.committed })

/-- Publish the transaction's state. -/
def published (conn : Conn State Label DriverError) : Except Failure Unit × Conn State Label DriverError :=
  (.ok (), { conn with committed := conn.working })

/-- A statement reads and changes the transaction's state; it may also fail by itself. -/
def statement (map : DriverError → Failure) (label : Label)
    (effect : State → Except DriverError (Value × State)) : Db State Label DriverError Failure Value :=
  execute map label (applied map effect)

/-- A statement that only reads. -/
def query (map : DriverError → Failure) (label : Label) (read : State → Value) :
    Db State Label DriverError Failure Value :=
  statement map label fun state => .ok (read state, state)

/-- A statement that only changes the state. -/
def update (map : DriverError → Failure) (label : Label) (change : State → State) :
    Db State Label DriverError Failure Unit :=
  statement map label fun state => .ok ((), change state)

def begin (map : DriverError → Failure) (label : Label) : Db State Label DriverError Failure Unit :=
  execute map label restarted

/-- A failed commit leaves the transaction uncommitted. -/
def commit (map : DriverError → Failure) (label : Label) : Db State Label DriverError Failure Unit :=
  execute map label published

def rollback (map : DriverError → Failure) (label : Label) : Db State Label DriverError Failure Unit :=
  execute map label restarted

/-- Run a computation and hand its outcome to the next one. -/
def attempt {Other : Type} (computation : Db State Label DriverError Failure Value) :
    Db State Label DriverError Other (Except Failure Value) := fun conn =>
  (.ok (computation conn).1, (computation conn).2)

/-- Run a computation and ignore whether it failed. -/
def ignore (computation : Db State Label DriverError Failure Value) : Db State Label DriverError Failure Unit :=
  fun conn => (.ok (), (computation conn).2)

/-- Run a computation; when it fails, clean up, ignoring further failures, and fail with its error. -/
def onError (computation : Db State Label DriverError Failure Value)
    (cleanup : Db State Label DriverError Failure Unit) : Db State Label DriverError Failure Value := fun conn =>
  match computation conn with
  | (.ok value, conn) => (.ok value, conn)
  | (.error error, conn) => (.error error, (cleanup conn).2)

/-- Run a computation for each item, in order. -/
def forEach {Item : Type} (body : Item → Db State Label DriverError Failure Unit) :
    List Item → Db State Label DriverError Failure Unit
  | [] => pure ()
  | item :: rest => body item >>= fun _ => forEach body rest

/-- Run a computation on a value that may be missing. -/
def ifSome {Item : Type} (item : Option Item) (body : Item → Db State Label DriverError Failure Unit) :
    Db State Label DriverError Failure Unit :=
  match item with
  | some item => body item
  | none => pure ()

/-! ## What a computation leaves alone -/

/-- The committed state is unchanged. -/
def Keeps (computation : Db State Label DriverError Failure Value) : Prop :=
  ∀ conn, (computation conn).2.committed = conn.committed

/-- A reported error always ends the computation with an error. -/
def Strict (computation : Db State Label DriverError Failure Value) : Prop :=
  ∀ conn report, conn.reported = none → (computation conn).2.reported = some report →
    ∃ error, (computation conn).1 = .error error

/-- Without a fault the computation does not fail retryably. -/
def Benign (retryable : Failure → Prop) (computation : Db State Label DriverError Failure Value) : Prop :=
  ∀ conn error, conn.fault = none → (computation conn).1 = .error error → ¬ retryable error

/-- At most one fault is reported, and nothing is reported without one. -/
structure Once (computation : Db State Label DriverError Failure Value) : Prop where
  spent : ∀ conn, conn.fault = none →
    (computation conn).2.fault = none ∧ (computation conn).2.reported = conn.reported
  consumed : ∀ conn report, conn.reported = none → (computation conn).2.reported = some report →
    (computation conn).2.fault = none

/-- The answer that a transient error calls for: a retryable failure, and nothing committed. -/
def Answered (retryable : Failure → Prop) (conn : Conn State Label DriverError)
    (outcome : Except Failure Value × Conn State Label DriverError) : Prop :=
  (∃ error, outcome.1 = .error error ∧ retryable error) ∧ outcome.2.committed = conn.committed

/-- Transient errors are answered as they should be exactly at the statements that are not lossy. -/
def Classifies (transient : DriverError → Prop) (retryable : Failure → Prop) (lossy : Label → Prop)
    (computation : Db State Label DriverError Failure Value) : Prop :=
  ∀ conn label error, conn.reported = none → (computation conn).2.reported = some (label, error) →
    transient error → (Answered retryable conn (computation conn) ↔ ¬ lossy label)

section Primitives

variable {transient : DriverError → Prop} {retryable : Failure → Prop} {lossy : Label → Prop}
  {map : DriverError → Failure} {label : Label}

theorem keeps_pure (value : Value) : Keeps (pure value : Db State Label DriverError Failure Value) :=
  fun _ => rfl

theorem once_pure (value : Value) : Once (pure value : Db State Label DriverError Failure Value) where
  spent _ noFault := ⟨noFault, rfl⟩
  consumed conn report fresh reports := by
    rw [pure_apply] at reports
    simp [fresh] at reports

theorem strict_pure (value : Value) : Strict (pure value : Db State Label DriverError Failure Value) := by
  intro conn report fresh reports
  rw [pure_apply] at reports
  simp [fresh] at reports

theorem benign_pure (value : Value) : Benign retryable (pure value : Db State Label DriverError Failure Value) := by
  intro conn error _ failed
  rw [pure_apply] at failed
  cases failed

theorem classifies_pure (value : Value) :
    Classifies transient retryable lossy (pure value : Db State Label DriverError Failure Value) := by
  intro conn label error fresh reports
  rw [pure_apply] at reports
  simp [fresh] at reports

theorem keeps_fail (error : Failure) : Keeps (fail error : Db State Label DriverError Failure Value) :=
  fun _ => rfl

theorem once_fail (error : Failure) : Once (fail error : Db State Label DriverError Failure Value) where
  spent _ noFault := ⟨noFault, rfl⟩
  consumed conn report fresh reports := by simp [fail, fresh] at reports

theorem strict_fail (error : Failure) : Strict (fail error : Db State Label DriverError Failure Value) :=
  fun _ _ _ _ => ⟨error, rfl⟩

theorem benign_fail {error : Failure} (permanent : ¬ retryable error) :
    Benign retryable (fail error : Db State Label DriverError Failure Value) := by
  intro conn failure _ failed
  cases failed
  exact permanent

theorem classifies_fail (error : Failure) :
    Classifies transient retryable lossy (fail error : Db State Label DriverError Failure Value) := by
  intro conn label driverError fresh reports
  simp [fail, fresh] at reports

variable {act : Conn State Label DriverError → Except Failure Value × Conn State Label DriverError}

/-- An action that neither touches the fault nor reports. -/
def Silent (act : Conn State Label DriverError → Except Failure Value × Conn State Label DriverError) : Prop :=
  ∀ conn, (act conn).2.fault = conn.fault ∧ (act conn).2.reported = conn.reported

/-- A statement either reports the fault that is due, or acts without reporting anything. -/
theorem execute_cases (map : DriverError → Failure) (label : Label) (silent : Silent act) (conn : Conn State Label DriverError) :
    (∃ error, execute map label act conn =
        (.error (map error), { conn with fault := none, reported := some (label, error) })) ∨
      ∃ fault, execute map label act conn = act { conn with fault } ∧
        (conn.fault = none → fault = none) ∧ (execute map label act conn).2.reported = conn.reported := by
  rcases due : conn.fault with _ | ⟨_ | later, error⟩
  · right
    refine ⟨none, ?_, fun _ => rfl, ?_⟩
    · simp only [execute, due]
      rw [← due]
    · simp only [execute, due]
      exact (silent conn).2
  · left
    exact ⟨error, by simp only [execute, due]⟩
  · right
    refine ⟨some (later, error), ?_, nofun, ?_⟩
    · simp only [execute, due]
    · simp only [execute, due]
      exact (silent _).2

theorem once_execute (silent : Silent act) : Once (execute map label act) where
  spent conn noFault := by
    simp only [execute, noFault]
    exact ⟨(silent conn).1.trans noFault, (silent conn).2⟩
  consumed conn report fresh reports := by
    rcases execute_cases map label silent conn with ⟨error, ran⟩ | ⟨fault, ran, _, unreported⟩
    · rw [ran]
    · rw [unreported, fresh] at reports
      cases reports

theorem strict_execute (silent : Silent act) : Strict (execute map label act) := by
  intro conn report fresh reports
  rcases execute_cases map label silent conn with ⟨error, ran⟩ | ⟨fault, ran, _, unreported⟩
  · exact ⟨map error, by rw [ran]⟩
  · rw [unreported, fresh] at reports
    cases reports

theorem keeps_execute (silent : Silent act) (keeps : ∀ conn, (act conn).2.committed = conn.committed) :
    Keeps (execute map label act) := by
  intro conn
  rcases execute_cases map label silent conn with ⟨error, ran⟩ | ⟨fault, ran, _, _⟩
  · rw [ran]
  · rw [ran]
    exact keeps _

/-- A statement whose error mapping keeps transient errors retryable is answered well. -/
theorem classifies_execute (silent : Silent act) (kept : ∀ error, transient error → retryable (map error))
    (recoverable : ¬ lossy label) : Classifies transient retryable lossy (execute map label act) := by
  intro conn reportedLabel error fresh reports isTransient
  rcases execute_cases map label silent conn with ⟨driverError, ran⟩ | ⟨fault, ran, _, unreported⟩
  · rw [ran] at reports ⊢
    obtain ⟨rfl, rfl⟩ : label = reportedLabel ∧ driverError = error := by simpa using reports
    exact iff_of_true ⟨⟨map driverError, rfl, kept driverError isTransient⟩, rfl⟩ recoverable
  · rw [unreported, fresh] at reports
    cases reports

/-- A statement whose error mapping makes every error permanent loses the classification. -/
theorem classifies_execute_lossy (silent : Silent act) (permanent : ∀ error, ¬ retryable (map error))
    (isLossy : lossy label) : Classifies transient retryable lossy (execute map label act) := by
  intro conn reportedLabel error fresh reports _
  rcases execute_cases map label silent conn with ⟨driverError, ran⟩ | ⟨fault, ran, _, unreported⟩
  · rw [ran] at reports ⊢
    obtain ⟨rfl, rfl⟩ : label = reportedLabel ∧ driverError = error := by simpa using reports
    refine iff_of_false ?_ (not_not_intro isLossy)
    rintro ⟨⟨failure, failed, isRetryable⟩, _⟩
    cases failed
    exact permanent driverError isRetryable
  · rw [unreported, fresh] at reports
    cases reports

theorem silent_applied (effect : State → Except DriverError (Value × State)) :
    Silent (applied map effect : Conn State Label DriverError → _) := by
  intro conn
  simp only [applied]
  split <;> exact ⟨rfl, rfl⟩

theorem silent_restarted :
    Silent (restarted : Conn State Label DriverError → Except Failure Unit × _) := fun _ => ⟨rfl, rfl⟩

theorem silent_published :
    Silent (published : Conn State Label DriverError → Except Failure Unit × _) := fun _ => ⟨rfl, rfl⟩

theorem keeps_statement (effect : State → Except DriverError (Value × State)) :
    Keeps (statement map label effect) := by
  apply keeps_execute (silent_applied effect)
  intro conn
  simp only [applied]
  split <;> rfl

theorem keeps_restarted : Keeps (execute map label restarted : Db State Label DriverError Failure Unit) :=
  keeps_execute silent_restarted fun _ => rfl

/-- A statement without errors of its own is benign. -/
theorem benign_statement {effect : State → Except DriverError (Value × State)}
    (permanent : ∀ state error, effect state = .error error → ¬ retryable (map error)) :
    Benign retryable (statement map label effect) := by
  intro conn failure noFault failed
  simp only [statement, execute, noFault, applied] at failed
  split at failed
  · cases failed
  · rename_i error same
    cases failed
    exact permanent _ error same

theorem benign_query (read : State → Value) : Benign retryable (query map label read) :=
  benign_statement nofun

theorem benign_update (change : State → State) : Benign retryable (update map label change) :=
  benign_statement nofun

theorem benign_published :
    Benign retryable (execute map label published : Db State Label DriverError Failure Unit) := by
  intro conn failure noFault failed
  simp only [execute, noFault, published] at failed
  cases failed

end Primitives

/-! ## Composition -/

section Composition

variable {transient : DriverError → Prop} {retryable : Failure → Prop} {lossy : Label → Prop}
  {computation : Db State Label DriverError Failure Value}
  {next : Value → Db State Label DriverError Failure Result}

/-- How a sequence ends: its first part fails, or hands its value to the next one. -/
theorem bind_cases (computation : Db State Label DriverError Failure Value)
    (next : Value → Db State Label DriverError Failure Result) (conn : Conn State Label DriverError) :
    (∃ error after, computation conn = (.error error, after) ∧ (computation >>= next) conn = (.error error, after)) ∨
      ∃ value after, computation conn = (.ok value, after) ∧ (computation >>= next) conn = next value after := by
  rcases ran : computation conn with ⟨error | value, after⟩
  · exact .inl ⟨error, after, rfl, bind_error ran⟩
  · exact .inr ⟨value, after, rfl, bind_ok ran⟩

theorem keeps_bind (first : Keeps computation) (second : ∀ value, Keeps (next value)) :
    Keeps (computation >>= next) := by
  intro conn
  rcases bind_cases computation next conn with ⟨error, after, ran, whole⟩ | ⟨value, after, ran, whole⟩
  · rw [whole, ← first conn, ran]
  · rw [whole, second value after, ← first conn, ran]

theorem once_bind (first : Once computation) (second : ∀ value, Once (next value)) :
    Once (computation >>= next) where
  spent conn noFault := by
    rcases bind_cases computation next conn with ⟨error, after, ran, whole⟩ | ⟨value, after, ran, whole⟩
    · have kept := first.spent conn noFault
      rw [ran] at kept
      rw [whole]
      exact kept
    · have kept := first.spent conn noFault
      rw [ran] at kept
      rw [whole, ← kept.2]
      exact (second value).spent after kept.1
  consumed conn report fresh reports := by
    rcases bind_cases computation next conn with ⟨error, after, ran, whole⟩ | ⟨value, after, ran, whole⟩
    · rw [whole] at reports ⊢
      have consumed := first.consumed conn report fresh (by rw [ran]; exact reports)
      rwa [ran] at consumed
    · rw [whole] at reports ⊢
      rcases early : after.reported with _ | earlier
      · exact (second value).consumed after report early reports
      · have empty : after.fault = none := by
          simpa only [ran] using first.consumed conn earlier fresh (by rw [ran]; exact early)
        exact ((second value).spent after empty).1

/-- What the first part reported stays reported, and the rest runs without a fault. -/
theorem Once.reported_bind (first : Once computation) {conn after : Conn State Label DriverError} {value : Value}
    {report : Label × DriverError} (fresh : conn.reported = none) (ran : computation conn = (.ok value, after))
    (early : after.reported = some report) : after.fault = none := by
  simpa only [ran] using first.consumed conn report fresh (by rw [ran]; exact early)

theorem strict_bind (first : Strict computation) (second : ∀ value, Strict (next value)) :
    Strict (computation >>= next) := by
  intro conn report fresh reports
  rcases bind_cases computation next conn with ⟨error, after, ran, whole⟩ | ⟨value, after, ran, whole⟩
  · exact ⟨error, by rw [whole]⟩
  · rw [whole] at reports ⊢
    rcases early : after.reported with _ | earlier
    · exact second value after report early reports
    · obtain ⟨error, failed⟩ := first conn earlier fresh (by rw [ran]; exact early)
      rw [ran] at failed
      cases failed

theorem benign_bind (once : Once computation) (first : Benign retryable computation)
    (second : ∀ value, Benign retryable (next value)) : Benign retryable (computation >>= next) := by
  intro conn failure noFault failed
  rcases bind_cases computation next conn with ⟨error, after, ran, whole⟩ | ⟨value, after, ran, whole⟩
  · rw [whole] at failed
    cases failed
    exact first conn _ noFault (by rw [ran])
  · rw [whole] at failed
    have kept := (once.spent conn noFault).1
    rw [ran] at kept
    exact second value after failure kept failed

/-- Classification composes when the first part never hides an error, or when the rest is benign. -/
theorem classifies_bind (once : Once computation) (nextOnce : ∀ value, Once (next value))
    (keeps : Keeps computation) (first : Classifies transient retryable lossy computation)
    (second : ∀ value, Classifies transient retryable lossy (next value))
    (hidden : Strict computation ∨ ∀ value, Benign retryable (next value)) :
    Classifies transient retryable lossy (computation >>= next) := by
  intro conn label error fresh reports isTransient
  rcases bind_cases computation next conn with ⟨failure, after, ran, whole⟩ | ⟨value, after, ran, whole⟩
  · have part := first conn label error fresh (by rw [ran, ← reports, whole]) isTransient
    rw [ran] at part
    rw [whole, ← part]
    constructor
    · rintro ⟨⟨same, failed, isRetryable⟩, kept⟩
      cases failed
      exact ⟨⟨failure, rfl, isRetryable⟩, kept⟩
    · rintro ⟨⟨same, failed, isRetryable⟩, kept⟩
      cases failed
      exact ⟨⟨failure, rfl, isRetryable⟩, kept⟩
  · have unchanged : after.committed = conn.committed := by simpa only [ran] using keeps conn
    rw [whole] at reports ⊢
    rcases early : after.reported with _ | earlier
    · simpa only [Answered, unchanged] using second value after label error early reports isTransient
    · -- The first part hid the error, so the rest runs without one.
      have empty := once.reported_bind fresh ran early
      have same : earlier = (label, error) := by
        have stays := ((nextOnce value).spent after empty).2
        rw [stays, early] at reports
        exact Option.some.inj reports
      subst same
      rcases hidden with strict | benign
      · obtain ⟨failure, failed⟩ := strict conn _ fresh (by rw [ran]; exact early)
        rw [ran] at failed
        cases failed
      · have part := first conn label error fresh (by rw [ran]; exact early) isTransient
        rw [ran] at part
        refine iff_of_false ?_ ?_
        · rintro ⟨⟨failure, failed, isRetryable⟩, _⟩
          exact benign value after failure empty failed isRetryable
        · intro recoverable
          obtain ⟨⟨failure, failed, _⟩, _⟩ := part.mpr recoverable
          cases failed

/-- Classification survives a rest that only returns a value; the first part may commit. -/
theorem classifies_bind_pure {value : Value → Result} (first : Classifies transient retryable lossy computation) :
    Classifies transient retryable lossy (computation >>= fun result => pure (value result)) := by
  intro conn label error fresh reports isTransient
  rcases bind_cases computation (fun result => pure (value result)) conn with
    ⟨failure, after, ran, whole⟩ | ⟨result, after, ran, whole⟩
  · have part := first conn label error fresh (by rw [ran, ← reports, whole]) isTransient
    rw [ran] at part
    rw [whole, ← part]
    constructor
    · rintro ⟨⟨same, failed, isRetryable⟩, kept⟩
      cases failed
      exact ⟨⟨failure, rfl, isRetryable⟩, kept⟩
    · rintro ⟨⟨same, failed, isRetryable⟩, kept⟩
      cases failed
      exact ⟨⟨failure, rfl, isRetryable⟩, kept⟩
  · rw [pure_apply] at whole
    have part := first conn label error fresh (by rw [ran, ← reports, whole]) isTransient
    rw [ran] at part
    rw [whole, ← part]
    refine iff_of_false ?_ ?_
    · rintro ⟨⟨same, failed, _⟩, _⟩
      cases failed
    · rintro ⟨⟨same, failed, _⟩, _⟩
      cases failed

/-- A computation that fails in the end never hides a reported error. -/
theorem strict_bind_fails (fails : ∀ value conn, ∃ error, (next value conn).1 = .error error) :
    Strict (computation >>= next) := by
  intro conn report fresh reports
  rcases bind_cases computation next conn with ⟨error, after, ran, whole⟩ | ⟨value, after, ran, whole⟩
  · exact ⟨error, by rw [whole]⟩
  · rw [whole]
    exact fails value after

section Hiding

variable {Other : Type} {map : DriverError → Failure} {label : Label}
  {act : Conn State Label DriverError → Except Failure Value × Conn State Label DriverError}

theorem keeps_attempt (keeps : Keeps computation) :
    Keeps (attempt computation : Db State Label DriverError Other _) := keeps

theorem once_attempt (once : Once computation) :
    Once (attempt computation : Db State Label DriverError Other _) := ⟨once.spent, once.consumed⟩

/-- The only statements that a computation can report. -/
def ReportsOnly (labels : Label → Prop) (computation : Db State Label DriverError Failure Value) : Prop :=
  ∀ conn label error, conn.reported = none → (computation conn).2.reported = some (label, error) → labels label

theorem reportsOnly_execute (silent : Silent act) {labels : Label → Prop} (listed : labels label) :
    ReportsOnly labels (execute map label act) := by
  intro conn reportedLabel error fresh reports
  rcases execute_cases map label silent conn with ⟨driverError, ran⟩ | ⟨fault, ran, _, unreported⟩
  · rw [ran] at reports
    obtain ⟨rfl, rfl⟩ : label = reportedLabel ∧ driverError = error := by simpa using reports
    exact listed
  · rw [unreported, fresh] at reports
    cases reports

theorem reportsOnly_bind {labels : Label → Prop} (once : Once computation) (nextOnce : ∀ value, Once (next value))
    (first : ReportsOnly labels computation) (second : ∀ value, ReportsOnly labels (next value)) :
    ReportsOnly labels (computation >>= next) := by
  intro conn label error fresh reports
  rcases bind_cases computation next conn with ⟨failure, after, ran, whole⟩ | ⟨value, after, ran, whole⟩
  · rw [whole] at reports
    exact first conn label error fresh (by rw [ran]; exact reports)
  · rw [whole] at reports
    rcases early : after.reported with _ | earlier
    · exact second value after label error early reports
    · have empty := once.reported_bind fresh ran early
      rw [((nextOnce value).spent after empty).2] at reports
      exact first conn label error fresh (by rw [ran]; exact reports)

/-- A computation whose outcome is handed on hides every error it reports. -/
theorem classifies_attempt {retryable : Other → Prop} (hidden : ReportsOnly lossy computation) :
    Classifies transient retryable lossy (attempt computation : Db State Label DriverError Other _) := by
  intro conn label error fresh reports _
  refine iff_of_false ?_ (not_not_intro (hidden conn label error fresh reports))
  rintro ⟨⟨failure, failed, _⟩, _⟩
  cases failed

theorem keeps_ignore (keeps : Keeps computation) : Keeps (ignore computation) := keeps

theorem once_ignore (once : Once computation) : Once (ignore computation) := ⟨once.spent, once.consumed⟩

theorem benign_ignore : Benign retryable (ignore computation) := by
  intro conn error _ failed
  cases failed

/-- A computation whose failure is ignored hides every error it reports. -/
theorem classifies_ignore (hidden : ReportsOnly lossy computation) :
    Classifies transient retryable lossy (ignore computation) := by
  intro conn label error fresh reports _
  refine iff_of_false ?_ (not_not_intro (hidden conn label error fresh reports))
  rintro ⟨⟨failure, failed, _⟩, _⟩
  cases failed

variable {cleanup : Db State Label DriverError Failure Unit}

/-- How a guarded computation ends. -/
theorem onError_cases (computation : Db State Label DriverError Failure Value)
    (cleanup : Db State Label DriverError Failure Unit) (conn : Conn State Label DriverError) :
    (∃ value after, computation conn = (.ok value, after) ∧ onError computation cleanup conn = (.ok value, after)) ∨
      ∃ error after, computation conn = (.error error, after) ∧
        onError computation cleanup conn = (.error error, (cleanup after).2) := by
  rcases ran : computation conn with ⟨error | value, after⟩
  · exact .inr ⟨error, after, rfl, by simp only [onError, ran]⟩
  · exact .inl ⟨value, after, rfl, by simp only [onError, ran]⟩

theorem keeps_onError (keeps : Keeps computation) (cleanupKeeps : Keeps cleanup) :
    Keeps (onError computation cleanup) := by
  intro conn
  rcases onError_cases computation cleanup conn with ⟨value, after, ran, whole⟩ | ⟨error, after, ran, whole⟩
  · rw [whole, ← keeps conn, ran]
  · rw [whole, ← keeps conn, ran]
    exact cleanupKeeps after

theorem once_onError (once : Once computation) (cleanupOnce : Once cleanup) :
    Once (onError computation cleanup) where
  spent conn noFault := by
    have kept := once.spent conn noFault
    rcases onError_cases computation cleanup conn with ⟨value, after, ran, whole⟩ | ⟨error, after, ran, whole⟩
    · rwa [whole, ← ran]
    · rw [ran] at kept
      rw [whole, ← kept.2]
      exact cleanupOnce.spent after kept.1
  consumed conn report fresh reports := by
    rcases onError_cases computation cleanup conn with ⟨value, after, ran, whole⟩ | ⟨error, after, ran, whole⟩
    · rw [whole, ← ran] at reports ⊢
      exact once.consumed conn report fresh reports
    · rw [whole] at reports ⊢
      rcases early : after.reported with _ | earlier
      · exact cleanupOnce.consumed after report early reports
      · have empty := once.consumed conn earlier fresh (by rw [ran]; exact early)
        rw [ran] at empty
        exact (cleanupOnce.spent after empty).1

theorem strict_onError (strict : Strict computation) : Strict (onError computation cleanup) := by
  intro conn report fresh reports
  rcases onError_cases computation cleanup conn with ⟨value, after, ran, whole⟩ | ⟨error, after, ran, whole⟩
  · rw [whole, ← ran] at reports
    obtain ⟨error, failed⟩ := strict conn report fresh reports
    rw [ran] at failed
    cases failed
  · exact ⟨error, by rw [whole]⟩

/-- Guarding a computation that only fails by a reported error does not change its classification. -/
theorem classifies_onError (once : Once computation) (cleanupOnce : Once cleanup)
    (cleanupKeeps : Keeps cleanup) (classifies : Classifies transient retryable lossy computation)
    (honest : ∀ conn error, conn.reported = none → (computation conn).1 = .error error →
      (computation conn).2.reported ≠ none) :
    Classifies transient retryable lossy (onError computation cleanup) := by
  intro conn label error fresh reports isTransient
  rcases onError_cases computation cleanup conn with ⟨value, after, ran, whole⟩ | ⟨failure, after, ran, whole⟩
  · rw [whole, ← ran] at reports ⊢
    exact classifies conn label error fresh reports isTransient
  · have early : after.reported ≠ none := by
      simpa only [ran] using honest conn failure fresh (by rw [ran])
    obtain ⟨earlier, early⟩ := Option.ne_none_iff_exists'.mp early
    have empty : after.fault = none := by
      simpa only [ran] using once.consumed conn earlier fresh (by rw [ran]; exact early)
    have kept := (cleanupOnce.spent after empty).2
    rw [whole, kept, ← show (computation conn).2 = after by rw [ran]] at reports
    have part := classifies conn label error fresh reports isTransient
    rw [ran] at part
    rw [whole, ← part]
    simp only [Answered, cleanupKeeps after]

end Hiding

end Composition

/-! ## Careful steps and answers -/

section Careful

variable (transient : DriverError → Prop) (retryable : Failure → Prop) (lossy : Label → Prop)

/-- A step inside a transaction: it commits nothing and lets every reported error through. -/
structure Careful (computation : Db State Label DriverError Failure Value) : Prop where
  once : Once computation
  keeps : Keeps computation
  strict : Strict computation
  classifies : Classifies transient retryable lossy computation

/-- A whole transaction, or its end. -/
structure Answers (computation : Db State Label DriverError Failure Value) : Prop where
  once : Once computation
  classifies : Classifies transient retryable lossy computation

variable {transient retryable lossy}
variable {computation : Db State Label DriverError Failure Value}
  {next : Value → Db State Label DriverError Failure Result} {map : DriverError → Failure} {label : Label}

theorem Careful.answers (careful : Careful transient retryable lossy computation) :
    Answers transient retryable lossy computation := ⟨careful.once, careful.classifies⟩

theorem careful_pure (value : Value) :
    Careful transient retryable lossy (pure value : Db State Label DriverError Failure Value) :=
  ⟨once_pure value, keeps_pure value, strict_pure value, classifies_pure value⟩

theorem careful_fail (error : Failure) :
    Careful transient retryable lossy (fail error : Db State Label DriverError Failure Value) :=
  ⟨once_fail error, keeps_fail error, strict_fail error, classifies_fail error⟩

theorem careful_statement (kept : ∀ error, transient error → retryable (map error)) (recoverable : ¬ lossy label)
    (effect : State → Except DriverError (Value × State)) :
    Careful transient retryable lossy (statement map label effect) :=
  ⟨once_execute (silent_applied effect), keeps_statement effect, strict_execute (silent_applied effect),
    classifies_execute (silent_applied effect) kept recoverable⟩

theorem careful_lossy_statement (permanent : ∀ error, ¬ retryable (map error)) (isLossy : lossy label)
    (effect : State → Except DriverError (Value × State)) :
    Careful transient retryable lossy (statement map label effect) :=
  ⟨once_execute (silent_applied effect), keeps_statement effect, strict_execute (silent_applied effect),
    classifies_execute_lossy (silent_applied effect) permanent isLossy⟩

theorem careful_begin (kept : ∀ error, transient error → retryable (map error)) (recoverable : ¬ lossy label) :
    Careful transient retryable lossy (begin map label : Db State Label DriverError Failure Unit) :=
  ⟨once_execute silent_restarted, keeps_restarted, strict_execute silent_restarted,
    classifies_execute silent_restarted kept recoverable⟩

theorem careful_bind (first : Careful transient retryable lossy computation)
    (second : ∀ value, Careful transient retryable lossy (next value)) :
    Careful transient retryable lossy (computation >>= next) :=
  ⟨once_bind first.once fun value => (second value).once, keeps_bind first.keeps fun value => (second value).keeps,
    strict_bind first.strict fun value => (second value).strict,
    classifies_bind first.once (fun value => (second value).once) first.keeps first.classifies
      (fun value => (second value).classifies) (.inl first.strict)⟩

theorem careful_forEach {Item : Type} {body : Item → Db State Label DriverError Failure Unit}
    (each : ∀ item, Careful transient retryable lossy (body item)) (items : List Item) :
    Careful transient retryable lossy (forEach body items) := by
  induction items with
  | nil => exact careful_pure ()
  | cons item rest ih => exact careful_bind (each item) fun _ => ih

theorem careful_ifSome {Item : Type} {body : Item → Db State Label DriverError Failure Unit}
    (each : ∀ item, Careful transient retryable lossy (body item)) (item : Option Item) :
    Careful transient retryable lossy (ifSome item body) := by
  cases item with
  | some item => exact each item
  | none => exact careful_pure ()

theorem answers_bind (first : Careful transient retryable lossy computation)
    (second : ∀ value, Answers transient retryable lossy (next value)) :
    Answers transient retryable lossy (computation >>= next) :=
  ⟨once_bind first.once fun value => (second value).once,
    classifies_bind first.once (fun value => (second value).once) first.keeps first.classifies
      (fun value => (second value).classifies) (.inl first.strict)⟩

/-- A step that may hide an error, followed by something that never fails retryably by itself. -/
theorem answers_bind_benign (once : Once computation) (keeps : Keeps computation)
    (first : Classifies transient retryable lossy computation)
    (second : ∀ value, Answers transient retryable lossy (next value))
    (benign : ∀ value, Benign retryable (next value)) :
    Answers transient retryable lossy (computation >>= next) :=
  ⟨once_bind once fun value => (second value).once,
    classifies_bind once (fun value => (second value).once) keeps first (fun value => (second value).classifies)
      (.inr benign)⟩

theorem answers_commit (kept : ∀ error, transient error → retryable (map error)) (recoverable : ¬ lossy label)
    (value : Value) :
    Answers transient retryable lossy
      (commit map label >>= fun _ => pure value : Db State Label DriverError Failure Value) :=
  ⟨once_bind (once_execute silent_published) fun _ => once_pure value,
    classifies_bind_pure (classifies_execute silent_published kept recoverable)⟩

theorem benign_commit (value : Value) :
    Benign retryable (commit map label >>= fun _ => pure value : Db State Label DriverError Failure Value) :=
  benign_bind (once_execute silent_published) benign_published fun _ => benign_pure value

/-- Give the transaction up, whether or not that can be reported, and go on without it. -/
theorem answers_abandon (isLossy : lossy label) (rest : Db State Label DriverError Failure Value)
    (answers : Answers transient retryable lossy rest) (benign : Benign retryable rest) :
    Answers transient retryable lossy (ignore (rollback map label) >>= fun _ => rest) :=
  answers_bind_benign (once_ignore (once_execute silent_restarted)) (keeps_ignore keeps_restarted)
    (classifies_ignore (reportsOnly_execute silent_restarted isLossy)) (fun _ => answers) fun _ => benign

theorem benign_abandon (rest : Db State Label DriverError Failure Value) (benign : Benign retryable rest) :
    Benign retryable (ignore (rollback map label) >>= fun _ => rest) :=
  benign_bind (once_ignore (once_execute silent_restarted)) benign_ignore fun _ => benign

end Careful

/-! ## Outcomes under any fault

`Outcome` is a weakest precondition that holds whichever statement the fault hits. It follows the
committed and the working state; the fault itself is forgotten.
-/

section Outcome

/-- Started with these states, a computation ends in the postcondition, with or without a fault. -/
def Outcome (computation : Db State Label DriverError Failure Value) (committed working : State)
    (post : Except Failure Value → State → State → Prop) : Prop :=
  ∀ conn, conn.committed = committed → conn.working = working →
    post (computation conn).1 (computation conn).2.committed (computation conn).2.working

variable {computation : Db State Label DriverError Failure Value}
  {next : Value → Db State Label DriverError Failure Result} {map : DriverError → Failure} {label : Label}
  {committed working : State} {post : Except Failure Result → State → State → Prop}

theorem Outcome.mono {weaker stronger : Except Failure Value → State → State → Prop}
    (outcome : Outcome computation committed working stronger)
    (implies : ∀ result committed working, stronger result committed working → weaker result committed working) :
    Outcome computation committed working weaker :=
  fun conn atCommitted atWorking => implies _ _ _ (outcome conn atCommitted atWorking)

theorem outcome_pure {value : Result} (holds : post (.ok value) committed working) :
    Outcome (pure value : Db State Label DriverError Failure Result) committed working post := by
  rintro conn rfl rfl
  exact holds

theorem outcome_fail {error : Failure} (holds : post (.error error) committed working) :
    Outcome (fail error : Db State Label DriverError Failure Result) committed working post := by
  rintro conn rfl rfl
  exact holds

theorem outcome_bind (first : Outcome computation committed working fun result committed working =>
      match result with
      | .ok value => Outcome (next value) committed working post
      | .error error => post (.error error) committed working) :
    Outcome (computation >>= next) committed working post := by
  intro conn atCommitted atWorking
  have part := first conn atCommitted atWorking
  rcases bind_cases computation next conn with ⟨error, after, ran, whole⟩ | ⟨value, after, ran, whole⟩
  · rw [ran] at part
    rw [whole]
    exact part
  · rw [ran] at part
    rw [whole]
    exact part after rfl rfl

/-- The statement reports an error, and then nothing changed, or it takes its effect. -/
theorem outcome_execute {act : Conn State Label DriverError → Except Failure Value × Conn State Label DriverError}
    {post : Except Failure Value → State → State → Prop} (reported : ∀ error, post (.error error) committed working)
    (acted : ∀ conn : Conn State Label DriverError, conn.committed = committed → conn.working = working →
      post (act conn).1 (act conn).2.committed (act conn).2.working) :
    Outcome (execute map label act) committed working post := by
  rintro conn rfl rfl
  rcases due : conn.fault with _ | ⟨_ | later, error⟩
  · simp only [execute, due]
    exact acted conn rfl rfl
  · simp only [execute, due]
    exact reported _
  · simp only [execute, due]
    exact acted _ rfl rfl

theorem outcome_statement {effect : State → Except DriverError (Value × State)}
    {post : Except Failure Value → State → State → Prop} (reported : ∀ error, post (.error error) committed working)
    (acted : ∀ value changed, effect working = .ok (value, changed) → post (.ok value) committed changed) :
    Outcome (statement map label effect) committed working post := by
  refine outcome_execute reported ?_
  rintro conn rfl rfl
  simp only [applied]
  split
  · rename_i value changed ran
    exact acted value changed ran
  · exact reported _

theorem outcome_query_bind {read : State → Value} (reported : ∀ error, post (.error error) committed working)
    (rest : Outcome (next (read working)) committed working post) :
    Outcome (query map label read >>= next) committed working post := by
  refine outcome_bind (outcome_statement reported ?_)
  rintro value changed ran
  cases ran
  exact rest

theorem outcome_update_bind {next : Unit → Db State Label DriverError Failure Result} {change : State → State}
    (reported : ∀ error, post (.error error) committed working)
    (rest : Outcome (next ()) committed (change working) post) :
    Outcome (update map label change >>= next) committed working post := by
  refine outcome_bind (outcome_statement reported ?_)
  rintro value changed ran
  cases ran
  exact rest

theorem outcome_begin_bind {next : Unit → Db State Label DriverError Failure Result}
    (reported : ∀ error, post (.error error) committed working)
    (rest : Outcome (next ()) committed committed post) :
    Outcome (begin map label >>= next) committed working post := by
  refine outcome_bind (outcome_execute reported ?_)
  rintro conn rfl rfl
  exact rest

theorem outcome_commit {post : Except Failure Unit → State → State → Prop}
    (reported : ∀ error, post (.error error) committed working) (holds : post (.ok ()) working working) :
    Outcome (commit map label) committed working post := by
  refine outcome_execute reported ?_
  rintro conn rfl rfl
  exact holds

theorem outcome_commit_pure {value : Result} (reported : ∀ error, post (.error error) committed working)
    (holds : post (.ok value) working working) :
    Outcome (commit map label >>= fun _ => pure value) committed working post :=
  outcome_bind (outcome_commit reported (outcome_pure holds))

/-- A computation that commits nothing, its failure ignored, leaves only the working state unknown. -/
theorem outcome_ignore_bind {next : Unit → Db State Label DriverError Failure Result} (keeps : Keeps computation)
    (rest : ∀ changed, Outcome (next ()) committed changed post) :
    Outcome (ignore computation >>= next) committed working post := by
  refine outcome_bind ?_
  rintro conn rfl rfl
  rw [show (ignore computation conn).2.committed = conn.committed from keeps conn]
  exact rest _

theorem outcome_attempt_bind {Other : Type} {next : Except Failure Value → Db State Label DriverError Other Result}
    {post : Except Other Result → State → State → Prop}
    (first : Outcome computation committed working fun result committed working =>
      Outcome (next result) committed working post) :
    Outcome (attempt computation >>= next) committed working post :=
  outcome_bind fun conn atCommitted atWorking => first conn atCommitted atWorking

theorem outcome_onError {cleanup : Db State Label DriverError Failure Unit}
    {post : Except Failure Value → State → State → Prop}
    (first : Outcome computation committed working fun result committed working =>
      match result with
      | .ok value => post (.ok value) committed working
      | .error error => ∀ changed, post (.error error) committed changed)
    (keeps : Keeps cleanup) : Outcome (onError computation cleanup) committed working post := by
  intro conn atCommitted atWorking
  have part := first conn atCommitted atWorking
  rcases onError_cases computation cleanup conn with ⟨value, after, ran, whole⟩ | ⟨error, after, ran, whole⟩
  · rw [ran] at part
    rw [whole]
    exact part
  · rw [ran] at part
    rw [whole, keeps after]
    exact part _

/-- The postcondition of a step inside a transaction: nothing is committed, and success has an effect. -/
def StepPost (committed : State) (effect : State → Prop) (result : Except Failure Unit) (after working : State) : Prop :=
  after = committed ∧ (result = .ok () → effect working)

theorem outcome_step_bind {step : Db State Label DriverError Failure Unit}
    {next : Unit → Db State Label DriverError Failure Result} {effect : State → Prop}
    (first : Outcome step committed working (StepPost committed effect))
    (reported : ∀ error changed, post (.error error) committed changed)
    (rest : ∀ changed, effect changed → Outcome (next ()) committed changed post) :
    Outcome (step >>= next) committed working post := by
  refine outcome_bind (first.mono ?_)
  rintro (error | ⟨⟩) after changed ⟨rfl, taken⟩
  · exact reported error changed
  · exact rest changed (taken rfl)

theorem outcome_step_update {change : State → State} {effect : State → Prop} (holds : effect (change working)) :
    Outcome (update map label change : Db State Label DriverError Failure Unit) committed working
      (StepPost committed effect) := by
  refine outcome_statement (fun error => ⟨rfl, nofun⟩) ?_
  rintro value changed ran
  cases ran
  exact ⟨rfl, fun _ => holds⟩

theorem outcome_step_pure {effect : State → Prop} (holds : effect working) :
    Outcome (pure () : Db State Label DriverError Failure Unit) committed working (StepPost committed effect) :=
  outcome_pure ⟨rfl, fun _ => holds⟩

theorem outcome_step_ifSome {Item : Type} {item : Option Item}
    {body : Item → Db State Label DriverError Failure Unit} {effect : State → Prop}
    (present : ∀ value, item = some value → Outcome (body value) committed working (StepPost committed effect))
    (absent : item = none → effect working) :
    Outcome (ifSome item body) committed working (StepPost committed effect) := by
  cases item with
  | some value => exact present value rfl
  | none => exact outcome_step_pure (absent rfl)

/-- A loop keeps a relation to its first working state that every iteration extends. -/
theorem outcome_forEach {Item : Type} {body : Item → Db State Label DriverError Failure Unit}
    (related : List Item → State → Prop)
    (iteration : ∀ done item working, related done working →
      Outcome (body item) committed working (StepPost committed (related (done ++ [item])))) (items done : List Item)
    (start : related done working) :
    Outcome (forEach body items) committed working (StepPost committed (related (done ++ items))) := by
  induction items generalizing done working with
  | nil => exact outcome_step_pure (by rwa [List.append_nil])
  | cons item rest ih =>
    refine outcome_step_bind (iteration done item working start) (fun error changed => ⟨rfl, nofun⟩) ?_
    intro changed extended
    simpa only [List.append_assoc, List.singleton_append] using ih (done ++ [item]) extended

end Outcome

/-! ## Running without a fault

On a connection without a fault every statement takes its effect, so a computation can be executed.
-/

section Undisturbed

variable {computation : Db State Label DriverError Failure Value} {map : DriverError → Failure} {label : Label}
  {committed working : State} {reported : Option (Label × DriverError)}

theorem begin_undisturbed : (begin map label : Db State Label DriverError Failure Unit)
    ⟨committed, working, none, reported⟩ = (.ok (), ⟨committed, committed, none, reported⟩) := rfl

theorem query_undisturbed {read : State → Value} : (query map label read : Db State Label DriverError Failure Value)
    ⟨committed, working, none, reported⟩ = (.ok (read working), ⟨committed, working, none, reported⟩) := rfl

theorem update_undisturbed {change : State → State} :
    (update map label change : Db State Label DriverError Failure Unit) ⟨committed, working, none, reported⟩ =
      (.ok (), ⟨committed, change working, none, reported⟩) := rfl

theorem statement_undisturbed {effect : State → Except DriverError (Value × State)} {value : Value} {changed : State}
    (ran : effect working = .ok (value, changed)) :
    (statement map label effect : Db State Label DriverError Failure Value) ⟨committed, working, none, reported⟩ =
      (.ok value, ⟨committed, changed, none, reported⟩) := by
  simp only [statement, execute, applied, ran]

/-- A statement that fails by itself changes nothing. -/
theorem statement_undisturbed_error {effect : State → Except DriverError (Value × State)} {error : DriverError}
    (ran : effect working = .error error) :
    (statement map label effect : Db State Label DriverError Failure Value) ⟨committed, working, none, reported⟩ =
      (.error (map error), ⟨committed, working, none, reported⟩) := by
  simp only [statement, execute, applied, ran]

theorem onError_undisturbed {cleanup : Db State Label DriverError Failure Unit} {conn after : Conn State Label DriverError}
    {value : Value} (ran : computation conn = (.ok value, after)) :
    onError computation cleanup conn = (.ok value, after) := by
  simp only [onError, ran]

theorem attempt_apply {Other : Type} {conn after : Conn State Label DriverError} {result : Except Failure Value}
    (ran : computation conn = (result, after)) :
    (attempt computation : Db State Label DriverError Other _) conn = (.ok result, after) := by
  simp only [attempt, ran]

end Undisturbed

end Db

end Duroxide.Lib.Database
