import Mathlib.Logic.Relation
import Mathlib.Data.List.Basic

/-!
# Action systems and their runs

A component is presented by a deterministic step function.  Everything the
environment or the scheduler decides is part of the action, so a run is
determined by its start state and its list of actions.

`Run step allowed source actions target` is a finite run in which every step
satisfies `allowed` in the state it leaves.  Safety statements quantify over
runs; the two rules `Run.invariant` and `Run.history` reduce them to one
step.  `exec` evaluates a run, and `Run.of_exec` turns the evaluation of a
concrete schedule into a run.
-/

namespace Hal0.Transition

universe u v

/-- A deterministic step function; `none` means the action is not enabled. -/
abbrev StepFunction (State : Type u) (Action : Type v) :=
  State → Action → Option State

variable {State : Type u} {Action : Type v}

/-- Every step is allowed. -/
def Anything (_ : State) (_ : Action) : Prop := True

instance (state : State) (action : Action) :
    Decidable (Anything state action) :=
  inferInstanceAs (Decidable True)

/-- Finite runs whose steps all satisfy `allowed`. -/
inductive Run (step : StepFunction State Action)
    (allowed : State → Action → Prop) :
    State → List Action → State → Prop where
  | nil (state : State) : Run step allowed state [] state
  | snoc {source middle target : State} {actions : List Action}
      {action : Action}
      (prior : Run step allowed source actions middle)
      (permitted : allowed middle action)
      (moved : step middle action = some target) :
      Run step allowed source (actions ++ [action]) target

namespace Run

variable {step : StepFunction State Action}
  {allowed : State → Action → Prop}
  {source middle target : State} {actions later : List Action}

section

variable (run : Run step allowed source actions target)
include run

theorem invariant (holds : State → Prop) (start : holds source)
    (kept : ∀ state action next, holds state → allowed state action →
      step state action = some next → holds next) :
    holds target := by
  induction run with
  | nil => exact start
  | snoc prior permitted moved reached =>
    exact kept _ _ _ reached permitted moved

theorem history (holds : List Action → State → Prop) (start : holds [] source)
    (kept : ∀ past state action next, holds past state →
      allowed state action → step state action = some next →
      holds (past ++ [action]) next) :
    holds actions target := by
  induction run with
  | nil => exact start
  | snoc prior permitted moved reached =>
    exact kept _ _ _ _ reached permitted moved

theorem along (holds : State → Prop) (start : holds source)
    (kept : ∀ state action next, holds state → allowed state action →
      step state action = some next → holds next) :
    Run step (fun state action => allowed state action ∧ holds state)
      source actions target := by
  induction run with
  | nil => exact .nil _
  | snoc prior permitted moved reached =>
    exact .snoc reached ⟨permitted, prior.invariant holds start kept⟩ moved

end

theorem trans
    (first : Run step allowed source actions middle)
    (second : Run step allowed middle later target) :
    Run step allowed source (actions ++ later) target := by
  induction second with
  | nil => simpa using first
  | snoc _ permitted moved reached =>
    rw [← List.append_assoc]
    exact .snoc reached permitted moved

theorem cons {action : Action}
    (permitted : allowed source action)
    (moved : step source action = some middle)
    (rest : Run step allowed middle actions target) :
    Run step allowed source (action :: actions) target := by
  have first : Run step allowed source ([] ++ [action]) middle :=
    .snoc (.nil source) permitted moved
  exact first.trans rest

end Run

/-- Evaluate a run, failing at the first step that is disabled or excluded. -/
def exec (step : StepFunction State Action)
    (allowed : State → Action → Prop)
    [∀ state action, Decidable (allowed state action)] :
    State → List Action → Option State
  | state, [] => some state
  | state, action :: rest =>
    if allowed state action then
      match step state action with
      | some next => exec step allowed next rest
      | none => none
    else none

/-- An evaluated run is a run. -/
theorem Run.of_exec {step : StepFunction State Action}
    {allowed : State → Action → Prop}
    [∀ state action, Decidable (allowed state action)]
    {source target : State} {actions : List Action}
    (evaluated : exec step allowed source actions = some target) :
    Run step allowed source actions target := by
  induction actions generalizing source with
  | nil =>
    obtain rfl : source = target := by simpa [exec] using evaluated
    exact .nil source
  | cons action rest reached =>
    rw [exec] at evaluated
    split at evaluated
    · rename_i permitted
      split at evaluated
      · rename_i next moved
        exact .cons permitted moved (reached evaluated)
      · simp at evaluated
    · simp at evaluated

theorem Run.exists_of_exec (step : StepFunction State Action)
    (allowed : State → Action → Prop)
    [∀ state action, Decidable (allowed state action)]
    (source : State) (actions : List Action) (test : State → Bool)
    (passed : (exec step allowed source actions).any test = true) :
    ∃ target, Run step allowed source actions target ∧
      test target = true := by
  cases evaluated : exec step allowed source actions with
  | none => simp [evaluated] at passed
  | some target =>
    exact ⟨target, .of_exec evaluated, by simpa [evaluated] using passed⟩

end Hal0.Transition
