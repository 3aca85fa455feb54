import Duroxide.Lib.Database

/-! # Computations that do not see part of a database

`change` takes something away from the state. A computation is blind to it when it returns the same on
the changed database and leaves what it would have left, changed. The states it starts from satisfy
`before` and those it leaves satisfy `after`; what a read returns is known of the states it may meet.
-/

namespace Duroxide.Lib.Database

variable {State Label DriverError Failure Value Result : Type}

/-- Change both states of a connection. -/
def Conn.map (change : State → State) (conn : Conn State Label DriverError) : Conn State Label DriverError :=
  { conn with committed := change conn.committed, working := change conn.working }

namespace Db

def Blind (change : State → State) (before after : State → Prop)
    (computation : Db State Label DriverError Failure Value) : Prop :=
  ∀ conn, before conn.committed → before conn.working →
    computation (conn.map change) = ((computation conn).1, (computation conn).2.map change) ∧
      after (computation conn).2.committed ∧ after (computation conn).2.working

variable {change : State → State} {before after : State → Prop} {map : DriverError → Failure} {label : Label}
  {computation : Db State Label DriverError Failure Value} {next : Value → Db State Label DriverError Failure Result}

theorem blind_pure (value : Value) :
    Blind change after after (pure value : Db State Label DriverError Failure Value) :=
  fun _ committed working => ⟨rfl, committed, working⟩

theorem blind_fail (error : Failure) :
    Blind change after after (fail error : Db State Label DriverError Failure Value) :=
  fun _ committed working => ⟨rfl, committed, working⟩

/-- What the first part returns may tell the second one something about the state it was met in. -/
theorem blind_bind_known {middle : State → Prop} (weaker : ∀ state, middle state → after state)
    (first : Blind change before middle computation)
    (second : ∀ conn value left, before conn.working → computation conn = (.ok value, left) →
      Blind change middle after (next value)) : Blind change before after (computation >>= next) := by
  intro conn committed working
  have known := second conn
  obtain ⟨ran, leftCommitted, leftWorking⟩ := first conn committed working
  rcases bind_cases computation next conn with ⟨error, left, stops, whole⟩ | ⟨value, left, goes, whole⟩
  · rw [stops] at ran leftCommitted leftWorking
    rw [whole]
    exact ⟨bind_error ran, weaker _ leftCommitted, weaker _ leftWorking⟩
  · have rest := known value left working goes
    rw [goes] at ran leftCommitted leftWorking
    rw [whole, bind_ok ran]
    exact rest left leftCommitted leftWorking

theorem blind_bind (first : Blind change before after computation) (second : ∀ value, Blind change after after (next value)) :
    Blind change before after (computation >>= next) :=
  blind_bind_known (fun _ holds => holds) first fun _ value _ _ _ => second value

theorem blind_ignore (blind : Blind change before after computation) :
    Blind change before after (ignore computation : Db State Label DriverError Failure Unit) := by
  intro conn committed working
  obtain ⟨ran, kept⟩ := blind conn committed working
  exact ⟨by simp only [ignore, ran], kept⟩

theorem blind_attempt {Other : Type} (blind : Blind change before after computation) :
    Blind change before after (attempt computation : Db State Label DriverError Other _) := by
  intro conn committed working
  obtain ⟨ran, kept⟩ := blind conn committed working
  exact ⟨by simp only [attempt, ran], kept⟩

theorem blind_onError {cleanup : Db State Label DriverError Failure Unit} (blind : Blind change before after computation)
    (cleans : Blind change after after cleanup) : Blind change before after (onError computation cleanup) := by
  intro conn committed working
  obtain ⟨ran, committed, working⟩ := blind conn committed working
  rcases onError_cases computation cleanup conn with ⟨value, left, goes, whole⟩ | ⟨error, left, stops, whole⟩
  · rw [goes] at ran committed working
    rw [whole]
    exact ⟨by simp only [onError, ran], committed, working⟩
  · rw [stops] at ran committed working
    obtain ⟨cleaned, kept⟩ := cleans left committed working
    rw [whole]
    exact ⟨by simp only [onError, ran, cleaned], kept⟩

theorem blind_forEach {Item : Type} {body : Item → Db State Label DriverError Failure Unit}
    (each : ∀ item, Blind change after after (body item)) (items : List Item) :
    Blind change after after (forEach body items) := by
  induction items with
  | nil => exact blind_pure ()
  | cons item rest ih => exact blind_bind (each item) fun _ => ih

theorem blind_ifSome {Item : Type} {body : Item → Db State Label DriverError Failure Unit}
    (each : ∀ item, Blind change after after (body item)) (item : Option Item) :
    Blind change after after (ifSome item body) := by
  cases item with
  | none => exact blind_pure ()
  | some item => exact each item

/-! ## Statements -/

/-- A statement that reports an error has not run. -/
theorem blind_execute {act : Conn State Label DriverError → Except Failure Value × Conn State Label DriverError}
    (weaker : ∀ state, before state → after state)
    (acts : ∀ conn, before conn.committed → before conn.working →
      act (conn.map change) = ((act conn).1, (act conn).2.map change) ∧
        after (act conn).2.committed ∧ after (act conn).2.working) :
    Blind change before after (execute map label act) := by
  intro conn committed working
  rcases due : conn.fault with _ | ⟨_ | later, error⟩
  · have same : (conn.map change).fault = none := due
    simp only [execute, due, same]
    exact acts conn committed working
  · have same : (conn.map change).fault = some (0, error) := due
    simp only [execute, due, same]
    exact ⟨rfl, weaker _ committed, weaker _ working⟩
  · have same : (conn.map change).fault = some (later + 1, error) := due
    simp only [execute, due, same]
    exact acts { conn with fault := some (later, error) } committed working

theorem blind_statement {effect : State → Except DriverError (Value × State)}
    (same : ∀ state, after state → effect (change state) = (effect state).map fun left => (left.1, change left.2))
    (keeps : ∀ state value changed, after state → effect state = .ok (value, changed) → after changed) :
    Blind change after after (statement map label effect : Db State Label DriverError Failure Value) := by
  apply blind_execute fun _ holds => holds
  intro conn committed working
  have mapped := same conn.working working
  rcases ran : effect conn.working with error | ⟨value, changed⟩
  · rw [ran] at mapped
    refine ⟨?_, ?_⟩
    · simp only [applied, Conn.map, mapped, Except.map, ran]
    · simp only [applied, ran]
      exact ⟨committed, working⟩
  · rw [ran] at mapped
    refine ⟨?_, ?_⟩
    · simp only [applied, Conn.map, mapped, Except.map, ran]
    · simp only [applied, ran]
      exact ⟨committed, keeps conn.working value changed working ran⟩

theorem blind_update {effect : State → State} (same : ∀ state, after state → effect (change state) = change (effect state))
    (keeps : ∀ state, after state → after (effect state)) :
    Blind change after after (update map label effect : Db State Label DriverError Failure Unit) := by
  apply blind_statement
  · intro state holds
    rw [same state holds]
    rfl
  · intro state value changed holds ran
    cases ran
    exact keeps state holds

theorem blind_query {read : State → Value} (weaker : ∀ state, before state → after state)
    (same : ∀ state, before state → read (change state) = read state) :
    Blind change before after (query map label read : Db State Label DriverError Failure Value) := by
  apply blind_execute weaker
  intro conn committed working
  refine ⟨?_, weaker _ committed, weaker _ working⟩
  simp only [applied, Conn.map, same conn.working working]

/-- A read tells what comes after it that its value was read in such a state. -/
theorem blind_query_bind {read : State → Value} (weaker : ∀ state, before state → after state)
    (same : ∀ state, before state → read (change state) = read state)
    (rest : ∀ state, before state → Blind change after after (next (read state))) :
    Blind change before after (query map label read >>= next) := by
  refine blind_bind_known (fun _ holds => holds) (blind_query weaker same) ?_
  intro conn value left working ran
  have returned : value = read conn.working := by
    rcases due : conn.fault with _ | ⟨_ | later, error⟩
    · simp only [query, statement, execute, due, applied, Prod.mk.injEq, Except.ok.injEq] at ran
      exact ran.1.symm
    · simp only [query, statement, execute, due, Prod.mk.injEq, reduceCtorEq, false_and] at ran
    · simp only [query, statement, execute, due, applied, Prod.mk.injEq, Except.ok.injEq] at ran
      exact ran.1.symm
  rw [returned]
  exact rest conn.working working

theorem blind_begin : Blind change after after (begin map label : Db State Label DriverError Failure Unit) :=
  blind_execute (fun _ holds => holds) fun _ committed _ => ⟨rfl, committed, committed⟩

theorem blind_commit : Blind change after after (commit map label : Db State Label DriverError Failure Unit) :=
  blind_execute (fun _ holds => holds) fun _ _ working => ⟨rfl, working, working⟩

theorem blind_rollback : Blind change after after (rollback map label : Db State Label DriverError Failure Unit) :=
  blind_execute (fun _ holds => holds) fun _ committed _ => ⟨rfl, committed, committed⟩

/-- A fresh connection on the changed database. -/
theorem Blind.open (blind : Blind change before after computation) {state : State} (holds : before state)
    (fault : Option (Nat × DriverError)) :
    (computation (Conn.open (change state) fault)).1 = (computation (Conn.open state fault)).1 ∧
      (computation (Conn.open (change state) fault)).2.committed =
        change (computation (Conn.open state fault)).2.committed := by
  obtain ⟨ran, _⟩ := blind (Conn.open state fault) holds holds
  have opened : (Conn.open state fault : Conn State Label DriverError).map change = Conn.open (change state) fault := rfl
  rw [opened] at ran
  rw [ran]
  exact ⟨rfl, rfl⟩

end Db

end Duroxide.Lib.Database
