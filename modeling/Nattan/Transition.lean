/-
This file is the small library of transition systems the models below share.

A system is a partial step function: an action is either impossible in a state
or leads to exactly one state, and all nondeterminism is in the choice of the
action. A run may be restricted by a guard on the state before the step and the
action taken, so that a safety property that fails in general can be stated of
the runs that stay clear of the failing steps. Everything reachable is reached
through `Relation.ReflTransGen`, and the one induction a safety proof needs is
stated once, as `ReachableBy.invariant`.
-/

import Mathlib.Logic.Function.Basic
import Mathlib.Logic.Relation

namespace Nattan

universe u v

variable {State : Type u} {Action : Type v}

/-! ### Guarded reachability -/

/-- One step of the system by an action the guard allows in the state before it. -/
def StepBy (step : State → Action → Option State) (guard : State → Action → Prop)
    (before after : State) : Prop :=
  ∃ action, guard before action ∧ step before action = some after

/-- The states reached from `start` by steps the guard allows. -/
def ReachableBy (step : State → Action → Option State) (guard : State → Action → Prop)
    (start : State) : State → Prop :=
  Relation.ReflTransGen (StepBy step guard) start

/-- The states reached from `start` by any steps. -/
def Reachable (step : State → Action → Option State) (start : State) : State → Prop :=
  ReachableBy step (fun _ _ => True) start

/-- The induction over a run: a property of the start that every allowed step keeps holds of
every state reached. -/
theorem ReachableBy.invariant {step : State → Action → Option State}
    {guard : State → Action → Prop} {start : State} (holds : State → Prop)
    (initial : holds start)
    (preserved : ∀ before action after, holds before → guard before action →
      step before action = some after → holds after)
    {state : State} (reached : ReachableBy step guard start state) : holds state := by
  induction reached with
  | refl => exact initial
  | tail _ last inductionHypothesis =>
    obtain ⟨action, allowed, stepped⟩ := last
    exact preserved _ action _ inductionHypothesis allowed stepped

theorem Reachable.invariant {step : State → Action → Option State} {start : State}
    (holds : State → Prop) (initial : holds start)
    (preserved : ∀ before action after, holds before → step before action = some after →
      holds after)
    {state : State} (reached : Reachable step start state) : holds state :=
  ReachableBy.invariant holds initial
    (fun before action after holdsBefore _ => preserved before action after holdsBefore) reached

/-- A run that keeps to a guard is a run. -/
theorem ReachableBy.reachable {step : State → Action → Option State}
    {guard : State → Action → Prop} {start state : State}
    (reached : ReachableBy step guard start state) : Reachable step start state := by
  induction reached with
  | refl => exact Relation.ReflTransGen.refl
  | tail _ last inductionHypothesis =>
    obtain ⟨action, _, stepped⟩ := last
    exact Relation.ReflTransGen.tail inductionHypothesis ⟨action, trivial, stepped⟩

/-- What is known of a step that was possible under a condition only. -/
theorem stepped_of_guard {possible : Prop} [Decidable possible] {next after : State}
    (stepped : (if possible then some next else none) = some after) :
    possible ∧ next = after := by
  obtain ⟨holds, same⟩ := Option.ite_none_right_eq_some.mp stepped
  exact ⟨holds, Option.some.inj same⟩

/-- A function of the program counters is kept by a move that keeps it. -/
theorem read_update {Task : Type*} {Pc : Type*} {Value : Type*} [DecidableEq Task]
    (read : Pc → Value) {pc : Task → Pc} {task : Task} {next : Pc}
    (same : read next = read (pc task)) (other : Task) :
    read (Function.update pc task next other) = read (pc other) := by
  by_cases own : other = task
  · rw [own, Function.update_self, same]
  · rw [Function.update_of_ne own]

/-! ### Executing a schedule -/

/-- Execute a schedule, checking the guard before every step. -/
def runBy (step : State → Action → Option State) (guard : State → Action → Prop)
    [∀ state action, Decidable (guard state action)] : State → List Action → Option State
  | state, [] => some state
  | state, action :: rest =>
    if guard state action then
      match step state action with
      | some next => runBy step guard next rest
      | none => none
    else none

/-- Execute a schedule. -/
def run (step : State → Action → Option State) : State → List Action → Option State :=
  runBy step fun _ _ => True

/-- What a schedule executes to is reachable. -/
theorem reachableBy_of_runBy {step : State → Action → Option State}
    {guard : State → Action → Prop} [∀ state action, Decidable (guard state action)]
    {start final : State} {schedule : List Action}
    (executed : runBy step guard start schedule = some final) :
    ReachableBy step guard start final := by
  induction schedule generalizing start with
  | nil =>
    cases executed
    exact Relation.ReflTransGen.refl
  | cons action rest inductionHypothesis =>
    rw [runBy] at executed
    split at executed
    · rename_i allowed
      split at executed
      · rename_i next stepped
        exact Relation.ReflTransGen.head ⟨action, allowed, stepped⟩
          (inductionHypothesis executed)
      · cases executed
    · cases executed

theorem reachable_of_run {step : State → Action → Option State} {start final : State}
    {schedule : List Action} (executed : run step start schedule = some final) :
    Reachable step start final :=
  reachableBy_of_runBy executed

end Nattan
