/-
This file models `array_t`, the growing array of pointers, and says what its functions do
where they are used: elements are inserted and deleted at the end.

The elements are the cells below the size; what lies behind them is never read. Elsewhere
than at the end the array does not keep its elements: an insertion copies one cell over all
that follow it, and what a deletion does is not defined, since its loop steps the index in
the same assignment that reads it. When the array grows, its cells are copied by an `int`.
-/

import Mathlib.Algebra.Group.Nat.Defs
import Mathlib.Data.List.Basic

namespace Nattan

universe u

/-- `array_t`. The vector is null before the first insertion. -/
structure CArray (Elem : Type u) where
  vector : Option (List Elem)
  capcity : Nat
  deriving DecidableEq, Repr

namespace CArray

variable {Elem : Type u}

def array_init : CArray Elem where
  vector := none
  capcity := 0

/-- The cells below the size. -/
def cells (array : CArray Elem) : List Elem :=
  array.vector.getD []

def array_size (array : CArray Elem) : Nat :=
  array.cells.length

/-- `realloc_array`. The index of the copy is an `int`, and overflows in a larger array. -/
def realloc_array (array : CArray Elem) : Option (CArray Elem) :=
  match array.vector with
  | none =>
    some { vector := some [], capcity := if array.capcity = 0 then 256 else array.capcity }
  | some ta =>
    if ta.length < 2 ^ 31 then
      some { vector := some ta, capcity := array.capcity * 2 % 2 ^ 64 }
    else none

/-- The loop of `array_insert`, for so many cells from `loc` on. -/
def shiftLoop (elm : Elem) : Nat → Nat → List Elem → List Elem
  | 0, _, cells => cells
  | count + 1, loc, cells =>
    shiftLoop elm count (loc + 1) (cells.set (loc + 1) (cells.getD loc elm))

/-- `array_insert`, and what it returns. The new cell at the end is written before it is read. -/
def array_insert (array : CArray Elem) (idx : Nat) (elm : Elem) : Option (CArray Elem × Int) :=
  if array.array_size < idx then some (array, -1)
  else
    let grown :=
      if array.vector.isNone ∨ array.capcity ≤ array.array_size then array.realloc_array
      else some array
    grown.map fun array =>
      let shifted := shiftLoop elm (array.array_size - idx) idx (array.cells ++ [elm])
      ({ array with vector := some (shifted.set idx elm) }, 0)

def array_put (array : CArray Elem) (idx : Nat) (elm : Elem) : CArray Elem × Int :=
  if ¬ idx < array.array_size then (array, -1)
  else ({ array with vector := array.vector.map fun cells => cells.set idx elm }, 0)

variable [Inhabited Elem]

/-- `array_get`. The default element stands for the null pointer. -/
def array_get (array : CArray Elem) (idx : Nat) : Elem :=
  if array.array_size ≤ idx then default else array.cells.getD idx default

/-- `array_del`. Its loop runs for an element that is not the last, and is not defined. -/
def array_del (array : CArray Elem) (idx : Nat) : Option (CArray Elem × Elem) :=
  if array.array_size ≤ idx then some (array, default)
  else if idx < array.array_size - 1 then none
  else some ({ array with vector := array.vector.map List.dropLast }, array.cells.getD idx default)

/-! ### What they do -/

section Effects

variable {array : CArray Elem} {idx : Nat} {elm : Elem}

omit [Inhabited Elem] in
theorem cells_realloc_array (small : array.array_size < 2 ^ 31) :
    ∃ after, array.realloc_array = some after ∧ after.cells = array.cells := by
  unfold realloc_array
  cases shape : array.vector with
  | none => exact ⟨_, rfl, by rw [cells, cells, shape]; rfl⟩
  | some ta =>
    have short : ta.length < 2 ^ 31 := by
      rw [array_size, cells, shape] at small
      exact small
    exact ⟨_, if_pos short, by rw [cells, cells, shape]⟩

omit [Inhabited Elem] in
/-- An insertion at the end appends, as long as the size is an `int`. -/
theorem array_insert_end (elm : Elem) (small : array.array_size < 2 ^ 31) :
    ∃ after, array.array_insert array.array_size elm = some (after, 0) ∧
      after.cells = array.cells ++ [elm] := by
  have grown : ∃ after,
      (if array.vector.isNone ∨ array.capcity ≤ array.array_size then array.realloc_array
        else some array) = some after ∧ after.cells = array.cells := by
    split
    · exact cells_realloc_array small
    · exact ⟨array, rfl, rfl⟩
  obtain ⟨after, grows, same⟩ := grown
  have size : after.array_size = array.array_size := congrArg List.length same
  have kept : ((array.cells ++ [elm]).set array.array_size elm) = array.cells ++ [elm] := by
    rw [array_size, List.set_append_right _ _ (Nat.le_refl _), Nat.sub_self]
    rfl
  unfold array_insert
  rw [if_neg (Nat.lt_irrefl _), grows]
  refine ⟨_, rfl, ?_⟩
  show ((shiftLoop elm (after.array_size - array.array_size) array.array_size
    (after.cells ++ [elm])).set array.array_size elm) = _
  rw [size, Nat.sub_self, same]
  exact kept

omit [Inhabited Elem] in
theorem cells_array_put (array : CArray Elem) (idx : Nat) (elm : Elem) :
    (array.array_put idx elm).1.cells = array.cells.set idx elm := by
  unfold array_put
  split
  · rename_i outside
    exact (List.set_eq_of_length_le (Nat.le_of_not_lt outside)).symm
  · unfold cells
    cases array.vector with
    | none => rfl
    | some cells => rfl

theorem array_get_eq (array : CArray Elem) (idx : Nat) :
    array.array_get idx = array.cells[idx]?.getD default := by
  unfold array_get
  split
  · rename_i outside
    rw [List.getElem?_eq_none outside, Option.getD_none]
  · exact List.getD_eq_getElem?_getD

/-- A deletion at the end gives the last element. -/
theorem array_del_last (some_ : array.cells ≠ []) :
    ∃ after, array.array_del (array.array_size - 1) = some (after, array.cells.getLast some_) ∧
      after.cells = array.cells.dropLast := by
  have positive : 0 < array.array_size := List.length_pos_of_ne_nil some_
  have inside : array.cells.length - 1 < array.cells.length := Nat.sub_one_lt_of_lt positive
  have last : array.cells.getD (array.array_size - 1) default = array.cells.getLast some_ := by
    rw [List.getLast_eq_getElem, List.getD_eq_getElem?_getD, array_size,
      List.getElem?_eq_getElem inside, Option.getD_some]
  unfold array_del
  rw [if_neg (by omega), if_neg (Nat.lt_irrefl _), last]
  refine ⟨_, rfl, ?_⟩
  unfold cells
  cases array.vector with
  | none => rfl
  | some cells => rfl

end Effects

end CArray

end Nattan
