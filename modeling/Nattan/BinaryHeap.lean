/-
This file is a small library of binary heaps laid out in an array, over any elements with a
strict total order, the least of them first.

An array is a function on positions, of which those below a size count. A heap is ordered
when no element is before its parent. An element that goes up, or down, leaves the heap in
order but for one hole: going up the element at the hole may be before its parent, going
down it may be behind its children. In either case the children of the hole are not before
its parent, which is what keeps the rest in order when the hole moves.
-/

import Mathlib.Logic.Function.Basic
import Mathlib.Order.Defs.Unbundled

namespace Nattan

namespace BinaryHeap

universe u

variable {Elem : Type u}

/-! ### The order -/

section Order

variable {lt : Elem → Elem → Prop} [IsStrictTotalOrder Elem lt] {a b c : Elem}

theorem not_lt_of_lt (before : lt a b) : ¬ lt b a :=
  asymm_of lt before

theorem not_lt_trans (first : ¬ lt b a) (second : ¬ lt c b) : ¬ lt c a := by
  intro before
  rcases trichotomous_of lt a b with less | equal | more
  · exact second (trans_of lt before less)
  · exact second (equal ▸ before)
  · exact first more

end Order

/-! ### Positions -/

def parent (position : Nat) : Nat :=
  (position - 1) / 2

theorem parent_lt {position : Nat} (positive : 0 < position) : parent position < position := by
  unfold parent
  omega

theorem parent_eq_iff {position hole : Nat} (positive : 0 < position) :
    parent position = hole ↔ position = 2 * hole + 1 ∨ position = 2 * hole + 2 := by
  unfold parent
  omega

/-- The array with the elements at two positions exchanged. -/
def exchange (value : Nat → Elem) (first second : Nat) : Nat → Elem :=
  Function.update (Function.update value first (value second)) second (value first)

section Exchange

variable {value : Nat → Elem} {first second other : Nat}

theorem exchange_second : exchange value first second second = value first :=
  Function.update_self ..

theorem exchange_first : exchange value first second first = value second := by
  unfold exchange
  by_cases same : first = second
  · rw [same, Function.update_self]
  · rw [Function.update_of_ne same, Function.update_self]

theorem exchange_other (notFirst : other ≠ first) (notSecond : other ≠ second) :
    exchange value first second other = value other :=
  (Function.update_of_ne notSecond ..).trans (Function.update_of_ne notFirst ..)

end Exchange

/-! ### Heaps -/

/-- No element is before its parent. -/
def Ordered (lt : Elem → Elem → Prop) (value : Nat → Elem) (size : Nat) : Prop :=
  ∀ position, 0 < position → position < size → ¬ lt (value position) (value (parent position))

/-- In order, but that the element at the hole may be before its parent. -/
structure UpOrder (lt : Elem → Elem → Prop) (value : Nat → Elem) (size hole : Nat) : Prop where
  except : ∀ position, 0 < position → position < size → position ≠ hole →
    ¬ lt (value position) (value (parent position))
  grand : 0 < hole → ∀ position, 0 < position → position < size → parent position = hole →
    ¬ lt (value position) (value (parent hole))

/-- In order, but that the element at the hole may be behind its children. -/
structure DownOrder (lt : Elem → Elem → Prop) (value : Nat → Elem) (size hole : Nat) : Prop where
  except : ∀ position, 0 < position → position < size → parent position ≠ hole →
    ¬ lt (value position) (value (parent position))
  grand : 0 < hole → ∀ position, 0 < position → position < size → parent position = hole →
    ¬ lt (value position) (value (parent hole))

section Heaps

variable {lt : Elem → Elem → Prop} [IsStrictTotalOrder Elem lt] {value other : Nat → Elem}
  {size hole child : Nat}

omit [IsStrictTotalOrder Elem lt] in
theorem Ordered.congr (ordered : Ordered lt value size)
    (same : ∀ position, position < size → other position = value position) :
    Ordered lt other size := by
  intro position positive inside
  rw [same position inside, same _ (Nat.lt_trans (parent_lt positive) inside)]
  exact ordered position positive inside

/-- Nothing is before the first element. -/
theorem Ordered.not_lt_first (ordered : Ordered lt value size) (position : Nat)
    (inside : position < size) : ¬ lt (value position) (value 0) := by
  induction position using Nat.strongRecOn with
  | _ position inductionHypothesis =>
    by_cases first : position = 0
    · rw [first]
      exact irrefl_of lt _
    · have positive : 0 < position := Nat.pos_of_ne_zero first
      have above := parent_lt positive
      exact not_lt_trans (inductionHypothesis _ above (Nat.lt_trans above inside))
        (ordered position positive inside)

omit [IsStrictTotalOrder Elem lt] in
theorem Ordered.upOrder (ordered : Ordered lt value size) : UpOrder lt value size 0 where
  except := fun position positive inside _ => ordered position positive inside
  grand := fun impossible => absurd impossible (Nat.lt_irrefl 0)

omit [IsStrictTotalOrder Elem lt] in
/-- The hole is at the top. -/
theorem UpOrder.ordered_of_zero (order : UpOrder lt value size 0) : Ordered lt value size :=
  fun position positive inside => order.except position positive inside (Nat.ne_of_gt positive)

omit [IsStrictTotalOrder Elem lt] in
/-- The element at the hole has come to rest. -/
theorem UpOrder.ordered (order : UpOrder lt value size hole)
    (rests : ¬ lt (value hole) (value (parent hole))) : Ordered lt value size := by
  intro position positive inside
  by_cases here : position = hole
  · rw [here]
    exact rests
  · exact order.except position positive inside here

omit [IsStrictTotalOrder Elem lt] in
/-- An element at the end of a heap in order. -/
theorem Ordered.append (ordered : Ordered lt value size)
    (same : ∀ position, position < size → other position = value position) :
    UpOrder lt other (size + 1) size := by
  refine ⟨?_, ?_⟩
  · intro position positive inside different
    exact ordered.congr same position positive (by omega)
  · intro _ position positive inside above
    have below := parent_lt positive
    omega

/-- The element at the hole changes places with its parent, which it is before. -/
theorem UpOrder.exchange (order : UpOrder lt value size hole) (positive : 0 < hole)
    (inside : hole < size) (before : lt (value hole) (value (parent hole))) :
    UpOrder lt (BinaryHeap.exchange value hole (parent hole)) size (parent hole) := by
  have above := parent_lt positive
  have top : ∀ position, 0 < position → position < size → parent position = parent hole →
      position ≠ hole → ¬ lt (value position) (value (parent hole)) := by
    intro position positive' inside' same different
    have stays := order.except position positive' inside' different
    rw [same] at stays
    exact stays
  refine ⟨?_, ?_⟩
  · intro position positive' inside' different
    by_cases here : position = hole
    · rw [here, exchange_first, exchange_second]
      exact not_lt_of_lt before
    · rw [exchange_other here different]
      by_cases under : parent position = hole
      · rw [under, exchange_first]
        exact order.grand positive position positive' inside' under
      · by_cases beside : parent position = parent hole
        · rw [beside, exchange_second]
          exact not_lt_trans (not_lt_of_lt before) (top position positive' inside' beside here)
        · rw [exchange_other under beside]
          exact order.except position positive' inside' here
  · intro positive'' position positive' inside' under
    have further := parent_lt positive''
    have stays := order.except (parent hole) positive'' (by omega) (by omega)
    rw [exchange_other (show parent (parent hole) ≠ hole by omega) (by omega)]
    by_cases here : position = hole
    · rw [here, exchange_first]
      exact stays
    · have below := parent_lt positive'
      rw [exchange_other here (by omega)]
      exact not_lt_trans stays (top position positive' inside' under here)

omit [IsStrictTotalOrder Elem lt] in
/-- Whatever is at the top, a heap in order is in order below it. -/
theorem Ordered.downOrder (ordered : Ordered lt value size)
    (same : ∀ position, 0 < position → position < size → other position = value position) :
    DownOrder lt other size 0 := by
  refine ⟨?_, fun impossible => absurd impossible (Nat.lt_irrefl 0)⟩
  intro position positive inside under
  rw [same position positive inside,
    same _ (Nat.pos_of_ne_zero under) (Nat.lt_trans (parent_lt positive) inside)]
  exact ordered position positive inside

omit [IsStrictTotalOrder Elem lt] in
/-- The element at the hole has come to rest. -/
theorem DownOrder.ordered (order : DownOrder lt value size hole)
    (rests : ∀ position, 0 < position → position < size → parent position = hole →
      ¬ lt (value position) (value hole)) : Ordered lt value size := by
  intro position positive inside
  by_cases under : parent position = hole
  · rw [under]
    exact rests position positive inside under
  · exact order.except position positive inside under

/-- The element at the hole changes places with the first of its children, which is before it. -/
theorem DownOrder.exchange (order : DownOrder lt value size hole) (positive : 0 < child)
    (inside : child < size) (under : parent child = hole) (before : lt (value child) (value hole))
    (first : ∀ position, 0 < position → position < size → parent position = hole →
      ¬ lt (value position) (value child)) :
    DownOrder lt (BinaryHeap.exchange value child hole) size child := by
  have above := parent_lt positive
  rw [under] at above
  refine ⟨?_, ?_⟩
  · intro position positive' inside' notUnder
    by_cases isHole : position = hole
    · have further := parent_lt (show 0 < hole by omega)
      rw [isHole, exchange_second, exchange_other (show parent hole ≠ child by omega)
        (show parent hole ≠ hole by omega)]
      exact order.grand (isHole ▸ positive') child positive inside under
    · by_cases isChild : position = child
      · rw [isChild, exchange_first, under, exchange_second]
        exact not_lt_of_lt before
      · rw [exchange_other isChild isHole]
        by_cases beside : parent position = hole
        · rw [beside, exchange_second]
          exact first position positive' inside' beside
        · rw [exchange_other notUnder beside]
          exact order.except position positive' inside' beside
  · intro _ position positive' inside' below
    have further := parent_lt positive'
    have stays := order.except position positive' inside' (by omega)
    rw [below] at stays
    rw [under, exchange_second,
      exchange_other (show position ≠ child by omega) (show position ≠ hole by omega)]
    exact stays

end Heaps

end BinaryHeap

end Nattan
