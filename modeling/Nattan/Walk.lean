/-
This file is the small library of walks, the runs of a relation that has no end.

A walk that stays in a finite set comes back to a place it has been to, and a walk
that came back can go round for ever. Both are stated for an arbitrary relation; a
loop whose turns are its steps then runs for ever exactly when it comes back.
-/

import Mathlib.Data.Set.Finite.Basic
import Mathlib.Logic.Relation

namespace Nattan

universe u

variable {Place : Type u} {moves : Place → Place → Prop}

/-- Going from place to place leads from any place of a walk to any later one. -/
theorem reflTransGen_of_walk {walk : Nat → Place}
    (steps : ∀ turn, moves (walk turn) (walk (turn + 1))) (first count : Nat) :
    Relation.ReflTransGen moves (walk first) (walk (first + count)) := by
  induction count with
  | zero => exact .refl
  | succ count inductionHypothesis => exact .tail inductionHypothesis (steps _)

/-- A walk in a finite set comes back. -/
theorem exists_return_of_walk {walk : Nat → Place}
    (steps : ∀ turn, moves (walk turn) (walk (turn + 1))) {places : Set Place}
    (inside : ∀ turn, walk turn ∈ places) (finite : places.Finite) :
    ∃ turn, Relation.TransGen moves (walk turn) (walk turn) := by
  have repeats : ¬ Function.Injective walk := fun injective =>
    Set.infinite_of_injective_forall_mem injective inside finite
  simp only [Function.Injective, not_forall] at repeats
  obtain ⟨first, second, same, different⟩ := repeats
  rcases Nat.lt_or_gt_of_ne different with earlier | later
  · refine ⟨first, .head' (steps first) ?_⟩
    have round := reflTransGen_of_walk steps (first + 1) (second - (first + 1))
    rw [show first + 1 + (second - (first + 1)) = second by omega, ← same] at round
    exact round
  · refine ⟨second, .head' (steps second) ?_⟩
    have round := reflTransGen_of_walk steps (second + 1) (first - (second + 1))
    rw [show second + 1 + (first - (second + 1)) = first by omega, same] at round
    exact round

/-- From a place that comes back there is a move to a place that comes back. -/
theorem exists_move_of_return {place : Place} (returns : Relation.TransGen moves place place) :
    ∃ next, moves place next ∧ Relation.TransGen moves next next := by
  obtain ⟨next, moved, round⟩ := Relation.TransGen.head'_iff.mp returns
  exact ⟨next, moved, .tail' round moved⟩

end Nattan
