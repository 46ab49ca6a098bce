/-
This file is the small library of objects the models below share.

An object is a total step function: an operation takes a state to a new state and a
reply. Two objects are compared by the replies to the same operations, and the one
induction such a comparison needs is stated once, as `replies_eq_of_simulation`: a
relation of the two states that every operation keeps, and under which every
operation gets the same reply. As for runs of a transition system, the operations may
be restricted by a guard on the state they are applied in, so that an equivalence
that fails in general can be stated of the sequences that stay clear of the failing
operations.
-/

namespace Nattan

universe u v w x

variable {State : Type u} {Other : Type v} {Op : Type w} {Reply : Type x}

/-- The replies to consecutive operations. -/
def replies (step : State → Op → State × Reply) : State → List Op → List Reply
  | _, [] => []
  | state, op :: rest => (step state op).2 :: replies step (step state op).1 rest

/-- The state after consecutive operations. -/
def afterAll (step : State → Op → State × Reply) : State → List Op → State
  | state, [] => state
  | state, op :: rest => afterAll step (step state op).1 rest

/-- Every operation meets the guard in the state it is applied in. -/
def AllAlong (step : State → Op → State × Reply) (guard : State → Op → Prop) :
    State → List Op → Prop
  | _, [] => True
  | state, op :: rest => guard state op ∧ AllAlong step guard (step state op).1 rest

/-- Related objects give the same replies as long as the guard is met. -/
theorem replies_eq_of_simulation {step : State → Op → State × Reply}
    {other : Other → Op → Other × Reply} {guard : State → Op → Prop}
    (related : State → Other → Prop)
    (simulates : ∀ state state' op, related state state' → guard state op →
      related (step state op).1 (other state' op).1 ∧ (step state op).2 = (other state' op).2)
    {state : State} {state' : Other} (start : related state state') {ops : List Op}
    (allowed : AllAlong step guard state ops) :
    replies step state ops = replies other state' ops := by
  induction ops generalizing state state' with
  | nil => rfl
  | cons op rest inductionHypothesis =>
    obtain ⟨kept, same⟩ := simulates state state' op start allowed.1
    rw [replies, replies, same, inductionHypothesis kept allowed.2]

theorem allAlong_true {step : State → Op → State × Reply} (state : State) (ops : List Op) :
    AllAlong step (fun _ _ => True) state ops := by
  induction ops generalizing state with
  | nil => exact trivial
  | cons op rest inductionHypothesis => exact ⟨trivial, inductionHypothesis _⟩

end Nattan
