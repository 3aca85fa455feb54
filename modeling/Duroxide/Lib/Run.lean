import Mathlib.Logic.Basic

/-! # Runs of a transition system

A system has initial states and labelled steps. A run may be restricted to steps that satisfy a guard
on the state before the step and its label; whatever holds initially and is preserved by every guarded
step holds in every state that a guarded run reaches.
-/

namespace Duroxide.Lib

structure TransitionSystem (State Label : Type*) where
  initial : State → Prop
  step : State → Label → State → Prop

namespace TransitionSystem

variable {State Label : Type*} (system : TransitionSystem State Label)

/-- The states reached by runs all of whose steps satisfy the guard. -/
inductive Reachable (guard : State → Label → Prop) : State → Prop
  | initial {state : State} (start : system.initial state) : Reachable guard state
  | step {source target : State} {label : Label} (reached : Reachable guard source)
      (allowed : guard source label) (taken : system.step source label target) : Reachable guard target

variable {system} {guard : State → Label → Prop}

/-- Induction over a run, with the reached source at hand. -/
theorem Reachable.invariant {property : State → Prop} (start : ∀ state, system.initial state → property state)
    (preserved : ∀ source label target, property source → guard source label →
      system.step source label target → property target) {state : State}
    (reached : system.Reachable guard state) : property state := by
  induction reached with
  | initial start' => exact start _ start'
  | step _ allowed taken ih => exact preserved _ _ _ ih allowed taken

/-- A weaker guard reaches at least as many states. -/
theorem Reachable.mono {weaker : State → Label → Prop} (implies : ∀ state label, guard state label → weaker state label)
    {state : State} (reached : system.Reachable guard state) : system.Reachable weaker state := by
  induction reached with
  | initial start => exact .initial start
  | step _ allowed taken ih => exact .step ih (implies _ _ allowed) taken

/-- Run a list of steps that all pass a test. -/
def runTested (step : State → Label → Option State) (test : State → Label → Bool) (state : State) :
    List Label → Option State
  | [] => some state
  | label :: rest => if test state label then (step state label).bind (runTested step test · rest) else none

/-- A tested run is a guarded one. -/
theorem Reachable.of_runTested {step : State → Label → Option State} {test : State → Label → Bool}
    (steps : ∀ source label target, step source label = some target → system.step source label target)
    (sound : ∀ state label, test state label → guard state label) {labels : List Label} {state last : State}
    (reached : system.Reachable guard state) (ran : runTested step test state labels = some last) :
    system.Reachable guard last := by
  induction labels generalizing state with
  | nil =>
    cases ran
    exact reached
  | cons label rest ih =>
    rw [runTested] at ran
    split at ran
    · rename_i passes
      obtain ⟨middle, taken, later⟩ := Option.bind_eq_some_iff.mp ran
      exact ih (.step reached (sound state label passes) (steps _ _ _ taken)) later
    · cases ran

/-! ## Runs from a state -/

variable (system) in
/-- A run from one state to another, by steps that all satisfy the guard. -/
inductive Run (guard : State → Label → Prop) : State → List Label → State → Prop
  | stay (state : State) : Run guard state [] state
  | step {source middle target : State} {label : Label} {later : List Label} (allowed : guard source label)
      (taken : system.step source label middle) (rest : Run guard middle later target) :
      Run guard source (label :: later) target

theorem Run.mono {weaker : State → Label → Prop} (implies : ∀ state label, guard state label → weaker state label)
    {source target : State} {labels : List Label} (run : system.Run guard source labels target) :
    system.Run weaker source labels target := by
  induction run with
  | stay state => exact .stay state
  | step allowed taken rest ih => exact .step (implies _ _ allowed) taken ih

/-- What a run reaches from a reachable state is reachable. -/
theorem Reachable.of_run {source target : State} {labels : List Label} (reached : system.Reachable guard source)
    (run : system.Run guard source labels target) : system.Reachable guard target := by
  induction run with
  | stay state => exact reached
  | step allowed taken rest ih => exact ih (.step reached allowed taken)

/-- A tested run is a guarded one, from any state. -/
theorem Run.of_runTested {step : State → Label → Option State} {test : State → Label → Bool}
    (steps : ∀ source label target, step source label = some target → system.step source label target)
    (sound : ∀ state label, test state label → guard state label) {labels : List Label} {state last : State}
    (ran : runTested step test state labels = some last) : system.Run guard state labels last := by
  induction labels generalizing state with
  | nil =>
    cases ran
    exact .stay _
  | cons label rest ih =>
    rw [runTested] at ran
    split at ran
    · rename_i passes
      obtain ⟨middle, taken, later⟩ := Option.bind_eq_some_iff.mp ran
      exact .step (sound state label passes) (steps _ _ _ taken) (ih later)
    · cases ran

end TransitionSystem

end Duroxide.Lib
