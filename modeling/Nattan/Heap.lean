/-
This file models `heap_t`, the heap behind the recycled ids, and proves that it is a priority
queue while it holds fewer than 2^31 elements.

A push puts its element at the end and then runs `heapify` at every position from the last
parent up to the first. While that loop runs, one element at most is before its parent, and
the parent is still to come. A pop puts the last element at the top and lets it sink.
`heapify` keeps the size in an `int`: with 2^31 elements the size is negative, every position
is outside, and the heap is left as it is.
-/

import Nattan.BinaryHeap
import Nattan.CArray
import Nattan.File
import Nattan.Transition

namespace Nattan

universe u

/-- `heap_t`. The comparison is true when it is not 0. -/
structure Heap (Elem : Type u) where
  array : CArray Elem
  cmp : Elem → Elem → Int

namespace Heap

variable {Elem : Type u} [Inhabited Elem]

def left_child (idx : Nat) : Nat :=
  2 * idx + 1

def right_child (idx : Nat) : Nat :=
  2 * idx + 2

omit [Inhabited Elem] in
def heap_init (comp : Elem → Elem → Int) : Heap Elem where
  array := CArray.array_init
  cmp := comp

omit [Inhabited Elem] in
def heap_size (hp : Heap Elem) : Nat :=
  hp.array.array_size

def heap_get (hp : Heap Elem) (idx : Nat) : Elem :=
  hp.array.array_get idx

omit [Inhabited Elem] in
def heap_put (hp : Heap Elem) (idx : Nat) (elm : Elem) : Heap Elem :=
  { hp with array := (hp.array.array_put idx elm).1 }

omit [Inhabited Elem] in
/-- `parent(heap_size(hp) - 1)` as an `int`. The subtraction is one of a `size_t`. -/
def lastParent (hp : Heap Elem) : Int :=
  let idx := (hp.heap_size + (2 ^ 64 - 1)) % 2 ^ 64
  intOf (if idx ≤ 0 then 0 else ((idx - 1) / 2 : Nat))

def swap (h : Heap Elem) (l r : Nat) : Heap Elem :=
  let tmp := h.heap_get l
  (h.heap_put l (h.heap_get r)).heap_put r tmp

/-- `heapify`, and the position it returns. It is called for positions up to the last parent,
whose children have an `int` for their position. -/
def heapify (hp : Heap Elem) (root : Nat) : Heap Elem × Nat :=
  let size := intOf hp.heap_size
  if ¬ root < size then (hp, 0)
  else
    let left : Int := if left_child root < size then left_child root else -1
    let right : Int := if right_child root < size then right_child root else -1
    let max :=
      if 0 < left ∧ hp.cmp (hp.heap_get left.toNat) (hp.heap_get root) ≠ 0 then left.toNat
      else root
    let max :=
      if 0 < right ∧ hp.cmp (hp.heap_get right.toNat) (hp.heap_get max) ≠ 0 then right.toNat
      else max
    (if max ≠ root then hp.swap max root else hp, max)

omit [Inhabited Elem] in
/-- The loop of `heap_fixup` around `heapify`, with so many positions to come, the last of them
first. -/
def fixupLoop (heapify : Heap Elem → Nat → Heap Elem × Nat) : Nat → Heap Elem → Heap Elem
  | 0, hp => hp
  | start + 1, hp => fixupLoop heapify start (heapify hp start).1

def heap_fixup (hp : Heap Elem) : Heap Elem :=
  fixupLoop heapify (hp.lastParent + 1).toNat hp

omit [Inhabited Elem] in
/-- The loop of `heap_fixdown` around `heapify`, for so many turns at most. -/
def fixdownLoop (heapify : Heap Elem → Nat → Heap Elem × Nat) (stop : Int) :
    Nat → Heap Elem → Nat → Option (Heap Elem)
  | 0, _, _ => none
  | turns + 1, hp, root =>
    if root ≤ stop then
      let max := heapify hp root
      if max.2 = root then some max.1 else fixdownLoop heapify stop turns max.1 max.2
    else some hp

def heap_fixdown (hp : Heap Elem) : Option (Heap Elem) :=
  fixdownLoop heapify hp.lastParent (hp.heap_size + 1) hp 0

/-- `heap_push`. It has no result where the array cannot grow. -/
def heap_push (hp : Heap Elem) (elm : Elem) : Option (Heap Elem) :=
  (hp.array.array_insert hp.heap_size elm).map fun inserted =>
    { hp with array := inserted.1 }.heap_fixup

/-- `heap_pop`, and the element it stores when it does not fail. -/
def heap_pop (hp : Heap Elem) : Option (Heap Elem × Option Elem) :=
  if hp.heap_size = 0 then some (hp, none)
  else
    let elm := hp.heap_get 0
    (hp.array.array_del (hp.heap_size - 1)).bind fun deleted =>
      ({ hp with array := deleted.1 }.heap_put 0 deleted.2).heap_fixdown.map fun fixed =>
        (fixed, some elm)

/-! ### The elements -/

omit [Inhabited Elem] in
def cells (hp : Heap Elem) : List Elem :=
  hp.array.cells

omit [Inhabited Elem] in
/-- The order of the heap. -/
def Before (cmp : Elem → Elem → Int) (l r : Elem) : Prop :=
  cmp l r ≠ 0

section Elements

variable {hp : Heap Elem} {l r : Nat}

theorem heap_get_eq (hp : Heap Elem) (idx : Nat) :
    hp.heap_get idx = hp.cells[idx]?.getD default :=
  hp.array.array_get_eq idx

omit [Inhabited Elem] in
theorem cells_heap_put (hp : Heap Elem) (idx : Nat) (elm : Elem) :
    (hp.heap_put idx elm).cells = hp.cells.set idx elm :=
  hp.array.cells_array_put idx elm

theorem cells_swap (hp : Heap Elem) (l r : Nat) :
    (hp.swap l r).cells = (hp.cells.set l (hp.heap_get r)).set r (hp.heap_get l) := by
  unfold swap
  rw [cells_heap_put, cells_heap_put]

theorem heap_size_swap (hp : Heap Elem) (l r : Nat) : (hp.swap l r).heap_size = hp.heap_size := by
  show (hp.swap l r).cells.length = hp.cells.length
  rw [cells_swap, List.length_set, List.length_set]

theorem heap_get_swap (left : l < hp.heap_size) (right : r < hp.heap_size) :
    (hp.swap l r).heap_get = BinaryHeap.exchange hp.heap_get l r := by
  funext idx
  rw [heap_get_eq, cells_swap]
  have right' : r < (hp.cells.set l (hp.heap_get r)).length := by
    rw [List.length_set]
    exact right
  have left' : l < hp.cells.length := left
  by_cases second : r = idx
  · rw [← second, List.getElem?_set_self right', BinaryHeap.exchange_second, Option.getD_some]
  · rw [List.getElem?_set_ne second]
    by_cases first : l = idx
    · rw [← first, List.getElem?_set_self left', BinaryHeap.exchange_first, Option.getD_some]
    · rw [List.getElem?_set_ne first, BinaryHeap.exchange_other (Ne.symm first) (Ne.symm second),
        heap_get_eq]

theorem heap_get_of_lt (inside : l < hp.cells.length) : hp.heap_get l = hp.cells[l] := by
  rw [heap_get_eq, List.getElem?_eq_getElem inside, Option.getD_some]

theorem cells_swap_perm (left : l < hp.heap_size) (right : r < hp.heap_size) :
    (hp.swap l r).cells.Perm hp.cells := by
  rw [cells_swap, heap_get_of_lt left, heap_get_of_lt right]
  exact List.set_set_perm left right

end Elements

/-! ### One position -/

section Heapify

variable {hp : Heap Elem} {root : Nat}

omit [Inhabited Elem] in
theorem intOf_heap_size (small : hp.heap_size < 2 ^ 31) : intOf hp.heap_size = hp.heap_size :=
  intOf_of_lt (by omega) (by omega)

/-- Nothing changes at a position whose children are not before it, and at another one the
first of the children changes places with it. -/
theorem heapify_cases (small : hp.heap_size < 2 ^ 31) (inside : root < hp.heap_size) :
    (hp.heapify root = (hp, root) ∧
      (left_child root < hp.heap_size →
        ¬ Before hp.cmp (hp.heap_get (left_child root)) (hp.heap_get root)) ∧
      (right_child root < hp.heap_size →
        ¬ Before hp.cmp (hp.heap_get (right_child root)) (hp.heap_get root))) ∨
    (left_child root < hp.heap_size ∧
      hp.heapify root = (hp.swap (left_child root) root, left_child root) ∧
      Before hp.cmp (hp.heap_get (left_child root)) (hp.heap_get root) ∧
      (right_child root < hp.heap_size →
        ¬ Before hp.cmp (hp.heap_get (right_child root)) (hp.heap_get (left_child root)))) ∨
    (right_child root < hp.heap_size ∧
      hp.heapify root = (hp.swap (right_child root) root, right_child root) ∧
      (Before hp.cmp (hp.heap_get (left_child root)) (hp.heap_get root) ∧
          Before hp.cmp (hp.heap_get (right_child root)) (hp.heap_get (left_child root)) ∨
        ¬ Before hp.cmp (hp.heap_get (left_child root)) (hp.heap_get root) ∧
          Before hp.cmp (hp.heap_get (right_child root)) (hp.heap_get root))) := by
  have below : left_child root < right_child root := Nat.lt_succ_self _
  have notLeft : left_child root ≠ root := by
    unfold left_child
    omega
  have notRight : right_child root ≠ root := by
    unfold right_child
    omega
  have leftInt : ¬ (0 : Int) < -1 := by decide
  have leftPos : (0 : Int) < left_child root := by
    unfold left_child
    omega
  have rightPos : (0 : Int) < right_child root := by
    unfold right_child
    omega
  unfold heapify Before
  simp only [intOf_heap_size small, Int.ofNat_lt, inside, not_true_eq_false, if_false]
  by_cases left : left_child root < hp.heap_size
  · by_cases right : right_child root < hp.heap_size
    · simp only [left, right, if_true, leftPos, rightPos, true_and, Int.toNat_natCast]
      by_cases first : hp.cmp (hp.heap_get (left_child root)) (hp.heap_get root) = 0
      · by_cases second : hp.cmp (hp.heap_get (right_child root)) (hp.heap_get root) = 0
        · simp [first, second]
        · simp [first, second, notRight]
      · by_cases second : hp.cmp (hp.heap_get (right_child root))
            (hp.heap_get (left_child root)) = 0
        · simp [first, second, notLeft]
        · simp [first, second, notRight]
    · simp only [left, right, if_true, if_false, leftPos, leftInt, true_and, false_and,
        Int.toNat_natCast]
      by_cases first : hp.cmp (hp.heap_get (left_child root)) (hp.heap_get root) = 0
      · simp [first]
      · simp [first, notLeft]
  · have right : ¬ right_child root < hp.heap_size := by omega
    simp [left, right]

/-- Whatever `heapify` does, it exchanges an element with a child of it or nothing. -/
theorem heapify_eq (small : hp.heap_size < 2 ^ 31) (inside : root < hp.heap_size) :
    hp.heapify root = (hp, root) ∨
      ∃ child, root < child ∧ child < hp.heap_size ∧
        hp.heapify root = (hp.swap child root, child) := by
  have left : root < left_child root := by
    unfold left_child
    omega
  have right : root < right_child root := by
    unfold right_child
    omega
  rcases heapify_cases small inside with ⟨same, _⟩ | ⟨size, same, _⟩ | ⟨size, same, _⟩
  · exact .inl same
  · exact .inr ⟨_, left, size, same⟩
  · exact .inr ⟨_, right, size, same⟩

theorem heapify_perm (small : hp.heap_size < 2 ^ 31) (inside : root < hp.heap_size) :
    (hp.heapify root).1.cells.Perm hp.cells := by
  rcases heapify_eq small inside with same | ⟨child, _, size, same⟩
  · rw [same]
  · rw [same]
    exact cells_swap_perm size inside

theorem cmp_heapify (hp : Heap Elem) (root : Nat) : (hp.heapify root).1.cmp = hp.cmp := by
  have swapped : ∀ child, (hp.swap child root).cmp = hp.cmp := fun _ => rfl
  unfold heapify
  simp only [apply_ite Prod.fst, apply_ite Heap.cmp, swapped, ite_self]

theorem heap_size_heapify (hp : Heap Elem) (root : Nat) :
    (hp.heapify root).1.heap_size = hp.heap_size := by
  unfold heapify
  simp only [apply_ite Prod.fst, apply_ite Heap.heap_size, heap_size_swap, ite_self]

/-- The child that changes places is before its parent, and the first of the children. -/
theorem heapify_child [IsStrictTotalOrder Elem (Before hp.cmp)] (small : hp.heap_size < 2 ^ 31)
    (inside : root < hp.heap_size) :
    (hp.heapify root = (hp, root) ∧
      ∀ position, 0 < position → position < hp.heap_size → BinaryHeap.parent position = root →
        ¬ Before hp.cmp (hp.heap_get position) (hp.heap_get root)) ∨
    ∃ child, 0 < child ∧ child < hp.heap_size ∧ BinaryHeap.parent child = root ∧
      Before hp.cmp (hp.heap_get child) (hp.heap_get root) ∧
      (∀ position, 0 < position → position < hp.heap_size → BinaryHeap.parent position = root →
        ¬ Before hp.cmp (hp.heap_get position) (hp.heap_get child)) ∧
      hp.heapify root = (hp.swap child root, child) := by
  have under : ∀ (other : Elem), (left_child root < hp.heap_size →
        ¬ Before hp.cmp (hp.heap_get (left_child root)) other) →
      (right_child root < hp.heap_size →
        ¬ Before hp.cmp (hp.heap_get (right_child root)) other) →
      ∀ position, 0 < position → position < hp.heap_size → BinaryHeap.parent position = root →
        ¬ Before hp.cmp (hp.heap_get position) other := by
    intro other left right position positive size above
    rcases (BinaryHeap.parent_eq_iff positive).mp above with here | here
    · subst here
      exact left size
    · subst here
      exact right size
  have leftPos : 0 < left_child root := Nat.succ_pos _
  have rightPos : 0 < right_child root := Nat.succ_pos _
  have leftUnder : BinaryHeap.parent (left_child root) = root :=
    (BinaryHeap.parent_eq_iff leftPos).mpr (.inl rfl)
  have rightUnder : BinaryHeap.parent (right_child root) = root :=
    (BinaryHeap.parent_eq_iff rightPos).mpr (.inr rfl)
  rcases heapify_cases small inside with ⟨same, left, right⟩ | ⟨size, same, before, right⟩ |
    ⟨size, same, ⟨left, before⟩ | ⟨left, before⟩⟩
  · exact .inl ⟨same, under _ left right⟩
  · exact .inr ⟨_, leftPos, size, leftUnder, before,
      under _ (fun _ => irrefl_of (Before hp.cmp) _) right, same⟩
  · exact .inr ⟨_, rightPos, size, rightUnder, trans_of _ before left,
      under _ (fun _ => BinaryHeap.not_lt_of_lt before)
        (fun _ => irrefl_of (Before hp.cmp) _), same⟩
  · exact .inr ⟨_, rightPos, size, rightUnder, before,
      under _ (fun _ impossible => left (trans_of _ impossible before))
        (fun _ => irrefl_of (Before hp.cmp) _), same⟩

end Heapify

/-! ### Going up and going down -/

omit [Inhabited Elem] in
theorem lastParent_eq {hp : Heap Elem} (small : hp.heap_size < 2 ^ 31)
    (positive : 0 < hp.heap_size) :
    hp.lastParent = (BinaryHeap.parent (hp.heap_size - 1) : Nat) := by
  have wraps : (hp.heap_size + (2 ^ 64 - 1)) % 2 ^ 64 = hp.heap_size - 1 := by omega
  unfold lastParent BinaryHeap.parent
  dsimp only
  rw [wraps, intOf_of_lt (by split <;> omega) (by split <;> omega)]
  split
  · omega
  · rfl

omit [Inhabited Elem] in
/-- In an empty heap the last parent is -1. -/
theorem lastParent_empty {hp : Heap Elem} (empty : hp.heap_size = 0) : hp.lastParent = -1 := by
  unfold lastParent
  rw [empty]
  rfl

/-- The heap is in order. -/
def InOrder (hp : Heap Elem) : Prop :=
  BinaryHeap.Ordered (Before hp.cmp) hp.heap_get hp.heap_size

/-- What the loop of `heap_fixup` keeps: one element at most is before its parent, and the
parent is still to come. -/
def Rising (hp : Heap Elem) (start : Nat) : Prop :=
  ∃ hole, hole < hp.heap_size ∧
    BinaryHeap.UpOrder (Before hp.cmp) hp.heap_get hp.heap_size hole ∧
    (hole = 0 ∨ BinaryHeap.parent hole < start)

section Loops

variable {hp : Heap Elem} {start : Nat}

theorem fixupLoop_perm (small : hp.heap_size < 2 ^ 31) (inside : start ≤ hp.heap_size) :
    (fixupLoop heapify start hp).cells.Perm hp.cells ∧
      (fixupLoop heapify start hp).cmp = hp.cmp := by
  induction start generalizing hp with
  | zero => exact ⟨.rfl, rfl⟩
  | succ start inductionHypothesis =>
    have size := hp.heap_size_heapify start
    have rest := @inductionHypothesis (hp.heapify start).1 (size.symm ▸ small)
      (size.symm ▸ Nat.le_of_succ_le inside)
    rw [fixupLoop]
    exact ⟨rest.1.trans (heapify_perm small inside), rest.2.trans (hp.cmp_heapify start)⟩

/-- One position of the loop. -/
theorem Rising.heapify [IsStrictTotalOrder Elem (Before hp.cmp)] (rising : hp.Rising (start + 1))
    (small : hp.heap_size < 2 ^ 31) (inside : start < hp.heap_size) :
    (hp.heapify start).1.Rising start := by
  obtain ⟨hole, holeInside, order, above⟩ := rising
  rcases heapify_child small inside with ⟨same, rests⟩ |
    ⟨child, positive, size, under, before, _, same⟩
  · rw [same]
    show hp.Rising start
    by_cases here : hole ≠ 0 ∧ BinaryHeap.parent hole = start
    · have ordered := order.ordered (by
        rw [here.2]
        exact rests hole (Nat.pos_of_ne_zero here.1) holeInside here.2)
      exact ⟨0, by omega, ordered.upOrder, .inl rfl⟩
    · exact ⟨hole, holeInside, order, by omega⟩
  · have isHole : child = hole := by
      by_contra different
      have stays := order.except child positive size different
      rw [under] at stays
      exact stays before
    subst isHole
    subst under
    rw [same]
    show (hp.swap child (BinaryHeap.parent child)).Rising (BinaryHeap.parent child)
    refine ⟨BinaryHeap.parent child, ?_, ?_, ?_⟩
    · rw [heap_size_swap]
      exact inside
    · rw [heap_size_swap, heap_get_swap size inside]
      exact order.exchange positive size before
    · by_cases top : BinaryHeap.parent child = 0
      · exact .inl top
      · exact .inr (BinaryHeap.parent_lt (Nat.pos_of_ne_zero top))

theorem fixupLoop_ordered [IsStrictTotalOrder Elem (Before hp.cmp)] (rising : hp.Rising start)
    (small : hp.heap_size < 2 ^ 31) (inside : start ≤ hp.heap_size) :
    (fixupLoop heapify start hp).InOrder := by
  induction start generalizing hp with
  | zero =>
    obtain ⟨hole, _, order, top | above⟩ := rising
    · subst top
      exact order.ordered_of_zero
    · cases above
  | succ start inductionHypothesis =>
    have size := hp.heap_size_heapify start
    have sameOrder : IsStrictTotalOrder Elem (Before (hp.heapify start).1.cmp) := by
      rw [cmp_heapify]
      infer_instance
    rw [fixupLoop]
    exact inductionHypothesis (rising.heapify small inside) (size.symm ▸ small)
      (size.symm ▸ Nat.le_of_succ_le inside)

/-- The loop returns: the position it is at grows. -/
theorem fixdownLoop_perm {stop : Int} {turns root : Nat} (small : hp.heap_size < 2 ^ 31)
    (last : stop < hp.heap_size) (enough : hp.heap_size < turns + root) (positive : 0 < turns) :
    ∃ after, fixdownLoop heapify stop turns hp root = some after ∧ after.cells.Perm hp.cells ∧
      after.cmp = hp.cmp := by
  induction turns generalizing hp root with
  | zero => cases positive
  | succ turns inductionHypothesis =>
    rw [fixdownLoop]
    split
    · rename_i before
      have inside : root < hp.heap_size := by omega
      have size := hp.heap_size_heapify root
      have moved := heapify_perm small inside
      have kept := hp.cmp_heapify root
      dsimp only
      split
      · exact ⟨_, rfl, moved, kept⟩
      · rename_i changed
        rcases heapify_eq small inside with same | ⟨child, below, childInside, same⟩
        · exact absurd (congrArg Prod.snd same) changed
        · have position : (hp.heapify root).2 = child := congrArg Prod.snd same
          obtain ⟨after, runs, perm, cmp⟩ := @inductionHypothesis (hp.heapify root).1
            (hp.heapify root).2 (size.symm ▸ small) (size.symm ▸ last)
            (by rw [size, position]; omega) (by omega)
          exact ⟨after, runs, perm.trans moved, cmp.trans kept⟩
    · exact ⟨hp, rfl, .rfl, rfl⟩

theorem fixdownLoop_ordered [IsStrictTotalOrder Elem (Before hp.cmp)] {turns root : Nat}
    {after : Heap Elem} (small : hp.heap_size < 2 ^ 31) (positive : 0 < hp.heap_size)
    (order : BinaryHeap.DownOrder (Before hp.cmp) hp.heap_get hp.heap_size root)
    (runs : fixdownLoop heapify (BinaryHeap.parent (hp.heap_size - 1) : Nat) turns hp root =
      some after) : after.InOrder := by
  induction turns generalizing hp root with
  | zero => cases runs
  | succ turns inductionHypothesis =>
    rw [fixdownLoop] at runs
    split at runs
    · rename_i before
      have below : root ≤ BinaryHeap.parent (hp.heap_size - 1) := Int.ofNat_le.mp before
      have inside : root < hp.heap_size := by
        unfold BinaryHeap.parent at below
        omega
      have size := hp.heap_size_heapify root
      dsimp only at runs
      rcases heapify_child small inside with ⟨same, rests⟩ |
        ⟨child, childPos, childInside, under, first, least, same⟩
      · rw [if_pos (congrArg Prod.snd same), same] at runs
        obtain rfl := Option.some.inj runs
        exact order.ordered rests
      · have moved : child ≠ root := by
          have above := BinaryHeap.parent_lt childPos
          omega
        rw [same, if_neg moved] at runs
        have swapped : (hp.swap child root).heap_size = hp.heap_size := heap_size_swap hp child root
        have sinks : BinaryHeap.DownOrder (Before hp.cmp) (hp.swap child root).heap_get
            (hp.swap child root).heap_size child := by
          rw [swapped, heap_get_swap childInside inside]
          exact order.exchange childPos childInside under first least
        have sameOrder : IsStrictTotalOrder Elem (Before (hp.swap child root).cmp) := ‹_›
        exact inductionHypothesis (swapped.symm ▸ small) (swapped.symm ▸ positive) sinks
          (by rw [swapped]; exact runs)
    · rename_i beyond
      obtain rfl := Option.some.inj runs
      refine order.ordered fun position childPos childInside under => ?_
      have below : ¬ root ≤ BinaryHeap.parent (hp.heap_size - 1) := by
        intro impossible
        exact beyond (Int.ofNat_le.mpr impossible)
      unfold BinaryHeap.parent at below under
      omega

end Loops

/-! ### Pushing and popping -/

section Operations

variable {hp : Heap Elem}

/-- A push appends its element, and then fixes the heap. -/
theorem heap_push_eq (elm : Elem) (small : hp.heap_size < 2 ^ 31) :
    ∃ inserted : Heap Elem, hp.heap_push elm = some inserted.heap_fixup ∧
      inserted.cells = hp.cells ++ [elm] ∧ inserted.cmp = hp.cmp := by
  obtain ⟨array, inserts, cells⟩ := CArray.array_insert_end elm small
  refine ⟨{ hp with array := array }, ?_, cells, rfl⟩
  show (hp.array.array_insert hp.array.array_size elm).map _ = _
  rw [inserts]
  rfl

omit [Inhabited Elem] in
theorem heap_size_append {inserted : Heap Elem} {elm : Elem}
    (cells : inserted.cells = hp.cells ++ [elm]) : inserted.heap_size = hp.heap_size + 1 :=
  (congrArg List.length cells).trans List.length_append

omit [Inhabited Elem] in
/-- The loop of `heap_fixup` begins inside the heap. -/
theorem toNat_lastParent (small : hp.heap_size < 2 ^ 31) (positive : 0 < hp.heap_size) :
    (hp.lastParent + 1).toNat = BinaryHeap.parent (hp.heap_size - 1) + 1 ∧
      BinaryHeap.parent (hp.heap_size - 1) + 1 ≤ hp.heap_size := by
  rw [lastParent_eq small positive]
  unfold BinaryHeap.parent
  omega

/-- A push adds an element. -/
theorem heap_push_perm (elm : Elem) (small : hp.heap_size + 1 < 2 ^ 31) :
    ∃ after, hp.heap_push elm = some after ∧ after.cells.Perm (elm :: hp.cells) ∧
      after.cmp = hp.cmp := by
  obtain ⟨inserted, pushes, cells, cmp⟩ := hp.heap_push_eq elm (Nat.lt_of_succ_lt small)
  have size := heap_size_append cells
  have smallAfter : inserted.heap_size < 2 ^ 31 := by omega
  obtain ⟨begins, inside⟩ := toNat_lastParent smallAfter (by omega)
  obtain ⟨perm, kept⟩ := fixupLoop_perm smallAfter (begins ▸ inside)
  refine ⟨_, pushes, perm.trans ?_, kept.trans cmp⟩
  rw [cells]
  exact List.perm_append_singleton ..

/-- A push keeps the order. -/
theorem heap_push_ordered [order : IsStrictTotalOrder Elem (Before hp.cmp)] (ordered : hp.InOrder)
    {elm : Elem} {after : Heap Elem} (small : hp.heap_size + 1 < 2 ^ 31)
    (pushed : hp.heap_push elm = some after) : after.InOrder := by
  obtain ⟨inserted, pushes, cells, cmp⟩ := hp.heap_push_eq elm (Nat.lt_of_succ_lt small)
  have size := heap_size_append cells
  have smallAfter : inserted.heap_size < 2 ^ 31 := by omega
  obtain ⟨begins, inside⟩ := toNat_lastParent smallAfter (by omega)
  obtain rfl := Option.some.inj (pushes.symm.trans pushed)
  have sameOrder : IsStrictTotalOrder Elem (Before inserted.cmp) := by
    rw [cmp]
    exact order
  have same : ∀ position, position < hp.heap_size →
      inserted.heap_get position = hp.heap_get position := by
    intro position below
    have below : position < hp.cells.length := below
    rw [heap_get_eq, heap_get_eq, cells, List.getElem?_append_left below]
  have rises : BinaryHeap.UpOrder (Before inserted.cmp) inserted.heap_get inserted.heap_size
      hp.heap_size := by
    rw [cmp, size]
    exact BinaryHeap.Ordered.append ordered same
  have above : BinaryHeap.parent hp.heap_size < (inserted.lastParent + 1).toNat := by
    rw [begins, size]
    exact Nat.lt_succ_self _
  have rising : inserted.Rising (inserted.lastParent + 1).toNat :=
    ⟨hp.heap_size, by omega, rises, .inr above⟩
  have inside : (inserted.lastParent + 1).toNat ≤ inserted.heap_size := by
    rw [begins]
    exact inside
  exact fixupLoop_ordered rising smallAfter inside

/-- What is left of the elements when the last is put at the top. -/
theorem perm_set_dropLast (cells : List Elem) (some_ : cells ≠ []) :
    (cells[0]?.getD default :: cells.dropLast.set 0 (cells.getLast some_)).Perm cells := by
  cases cells with
  | nil => exact absurd rfl some_
  | cons first rest =>
    cases rest with
    | nil => exact .rfl
    | cons second rest =>
      refine List.Perm.cons first ?_
      rw [List.dropLast_cons_cons, List.set_cons_zero, List.getLast_cons (List.cons_ne_nil _ _)]
      refine (List.perm_append_singleton ..).symm.trans ?_
      rw [List.dropLast_append_getLast]

/-- A pop puts the last element at the top, and then fixes the heap. -/
theorem heap_pop_eq (some_ : hp.cells ≠ []) :
    ∃ shrunk : Heap Elem, hp.heap_pop =
        shrunk.heap_fixdown.map (fun fixed => (fixed, some (hp.heap_get 0))) ∧
      shrunk.cells = hp.cells.dropLast.set 0 (hp.cells.getLast some_) ∧ shrunk.cmp = hp.cmp := by
  obtain ⟨array, deletes, cells⟩ := CArray.array_del_last some_
  have positive : hp.heap_size ≠ 0 := fun empty => some_ (List.eq_nil_of_length_eq_zero empty)
  refine ⟨({ hp with array := array }.heap_put 0 (hp.cells.getLast some_)), ?_, ?_, rfl⟩
  · unfold heap_pop
    rw [if_neg positive]
    show (hp.array.array_del (hp.array.array_size - 1)).bind _ = _
    rw [deletes, Option.bind_some]
    rfl
  · rw [cells_heap_put]
    unfold Heap.cells
    dsimp only
    rw [cells]

theorem heap_pop_empty (empty : hp.cells = []) : hp.heap_pop = some (hp, none) := by
  unfold heap_pop
  rw [if_pos]
  exact congrArg List.length empty

omit [Inhabited Elem] in
theorem heap_size_pop {shrunk : Heap Elem} (some_ : hp.cells ≠ [])
    (cells : shrunk.cells = hp.cells.dropLast.set 0 (hp.cells.getLast some_)) :
    shrunk.heap_size = hp.heap_size - 1 := by
  show shrunk.cells.length = hp.cells.length - 1
  rw [cells, List.length_set, List.length_dropLast]

omit [Inhabited Elem] in
theorem lastParent_lt (small : hp.heap_size < 2 ^ 31) : hp.lastParent < hp.heap_size := by
  by_cases empty : hp.heap_size = 0
  · rw [lastParent_empty empty]
    omega
  · rw [lastParent_eq small (Nat.pos_of_ne_zero empty)]
    unfold BinaryHeap.parent
    omega

/-- A pop removes the element it gives. -/
theorem heap_pop_perm (some_ : hp.cells ≠ []) (small : hp.heap_size < 2 ^ 31) :
    ∃ after, hp.heap_pop = some (after, some (hp.heap_get 0)) ∧
      (hp.heap_get 0 :: after.cells).Perm hp.cells ∧ after.cmp = hp.cmp := by
  obtain ⟨shrunk, pops, cells, cmp⟩ := heap_pop_eq some_
  have size := heap_size_pop some_ cells
  have small' : shrunk.heap_size < 2 ^ 31 := by omega
  have enough : shrunk.heap_size < shrunk.heap_size + 1 + 0 := Nat.lt_succ_self _
  obtain ⟨after, runs, perm, kept⟩ :=
    fixdownLoop_perm small' (lastParent_lt small') enough (Nat.succ_pos _)
  refine ⟨after, ?_, (perm.cons _).trans ?_, kept.trans cmp⟩
  · rw [pops, heap_fixdown, runs]
    rfl
  · rw [cells, heap_get_eq]
    exact perm_set_dropLast hp.cells some_

/-- A pop keeps the order. -/
theorem heap_pop_ordered [order : IsStrictTotalOrder Elem (Before hp.cmp)] (ordered : hp.InOrder)
    (some_ : hp.cells ≠ []) {after : Heap Elem} {elm : Option Elem}
    (small : hp.heap_size < 2 ^ 31) (popped : hp.heap_pop = some (after, elm)) :
    after.InOrder := by
  obtain ⟨shrunk, pops, cells, cmp⟩ := heap_pop_eq some_
  have size := heap_size_pop some_ cells
  have sameOrder : IsStrictTotalOrder Elem (Before shrunk.cmp) := by
    rw [cmp]
    exact order
  obtain ⟨fixed, runs, same⟩ := Option.map_eq_some_iff.mp (pops.symm.trans popped)
  obtain rfl : fixed = after := congrArg Prod.fst same
  by_cases empty : shrunk.heap_size = 0
  · rw [heap_fixdown, lastParent_empty empty, fixdownLoop, if_neg (by decide)] at runs
    obtain rfl := Option.some.inj runs
    intro position positive inside
    omega
  · have kept : ∀ position, 0 < position → position < shrunk.heap_size →
        shrunk.heap_get position = hp.heap_get position := by
      intro position positive inside
      have short : position < hp.cells.dropLast.length := by
        rw [List.length_dropLast]
        show position < hp.heap_size - 1
        omega
      rw [heap_get_eq, heap_get_eq, cells, List.getElem?_set_ne (Nat.ne_of_lt positive),
        List.getElem?_dropLast, if_pos (by rw [List.length_dropLast] at short; exact short)]
    have sinks : BinaryHeap.DownOrder (Before shrunk.cmp) shrunk.heap_get shrunk.heap_size 0 := by
      rw [cmp]
      refine BinaryHeap.Ordered.downOrder (fun position positive inside => ?_) kept
      exact ordered position positive (by omega)
    have positive := Nat.pos_of_ne_zero empty
    rw [heap_fixdown, lastParent_eq (by omega) positive] at runs
    exact fixdownLoop_ordered (by omega) positive sinks runs

/-- What a pop gives is the least element. -/
theorem heap_get_zero_least [IsStrictTotalOrder Elem (Before hp.cmp)] (ordered : hp.InOrder)
    {elm : Elem} (member : elm ∈ hp.cells) : ¬ Before hp.cmp elm (hp.heap_get 0) := by
  obtain ⟨position, inside, same⟩ := List.getElem_of_mem member
  rw [← same, ← heap_get_of_lt inside]
  exact BinaryHeap.Ordered.not_lt_first ordered position inside

end Operations

/-! ### Runs -/

inductive Operation (Elem : Type u) where
  | heap_push (elm : Elem)
  | heap_pop
  deriving DecidableEq, Repr

/-- A heap, and the elements that were pushed and popped. -/
structure Run (Elem : Type u) where
  hp : Heap Elem
  pushed : List Elem
  popped : List Elem

namespace Run

omit [Inhabited Elem] in
def start (cmp : Elem → Elem → Int) : Run Elem where
  hp := heap_init cmp
  pushed := []
  popped := []

def step (run : Run Elem) : Operation Elem → Option (Run Elem)
  | .heap_push elm =>
    (run.hp.heap_push elm).map fun hp => { run with hp := hp, pushed := elm :: run.pushed }
  | .heap_pop =>
    run.hp.heap_pop.map fun result =>
      { run with hp := result.1, popped := result.2.toList ++ run.popped }

/-- The heap is the priority queue of what was pushed and not popped. -/
structure Sound (run : Run Elem) : Prop where
  inOrder : run.hp.InOrder
  stored : (run.popped ++ run.hp.cells).Perm run.pushed
  fails : (∃ after, run.hp.heap_pop = some (after, none)) ↔ run.hp.cells = []
  least : run.hp.cells ≠ [] → ∃ after elm, run.hp.heap_pop = some (after, some elm) ∧
    elm ∈ run.hp.cells ∧ ∀ other ∈ run.hp.cells, other = elm ∨ Before run.hp.cmp elm other

/-- The heap stays below 2^31 elements. -/
def Fits (run : Run Elem) : Operation Elem → Prop
  | .heap_push _ => run.hp.heap_size + 1 < 2 ^ 31
  | .heap_pop => True

/-- What every operation keeps. -/
structure Ok (cmp : Elem → Elem → Int) (run : Run Elem) : Prop where
  cmp_eq : run.hp.cmp = cmp
  inOrder : run.hp.InOrder
  stored : (run.popped ++ run.hp.cells).Perm run.pushed
  small : run.hp.heap_size < 2 ^ 31

section Runs

variable {cmp : Elem → Elem → Int} [order : IsStrictTotalOrder Elem (Before cmp)]
  {run : Run Elem}

omit order in
theorem ok_start : (start cmp).Ok cmp where
  cmp_eq := rfl
  inOrder := fun _ _ inside => absurd inside (Nat.not_lt_zero _)
  stored := .rfl
  small := Nat.two_pow_pos 31

/-- A push that fits returns, and keeps the heap a priority queue. -/
theorem Ok.heap_push (ok : run.Ok cmp) (elm : Elem) (fits : run.hp.heap_size + 1 < 2 ^ 31) :
    ∃ after, run.step (.heap_push elm) = some after ∧ after.Ok cmp := by
  obtain ⟨cmp_eq, inOrder, stored, small⟩ := ok
  subst cmp_eq
  obtain ⟨hp, pushes, perm, kept⟩ := run.hp.heap_push_perm elm fits
  refine ⟨_, congrArg (Option.map _) pushes, ⟨kept, heap_push_ordered inOrder fits pushes, ?_, ?_⟩⟩
  · exact (perm.append_left _).trans (List.perm_middle.trans (stored.cons elm))
  · show hp.cells.length < 2 ^ 31
    rw [perm.length_eq]
    exact fits

theorem Ok.heap_pop (ok : run.Ok cmp) :
    ∃ after, run.step .heap_pop = some after ∧ after.Ok cmp := by
  obtain ⟨cmp_eq, inOrder, stored, small⟩ := ok
  subst cmp_eq
  by_cases empty : run.hp.cells = []
  · exact ⟨_, congrArg (Option.map _) (heap_pop_empty empty), ⟨rfl, inOrder, stored, small⟩⟩
  · obtain ⟨hp, pops, perm, kept⟩ := heap_pop_perm empty small
    have ordered := heap_pop_ordered inOrder empty small pops
    refine ⟨_, congrArg (Option.map _) pops, ⟨kept, ordered, ?_, ?_⟩⟩
    · exact List.perm_middle.symm.trans ((perm.append_left _).trans stored)
    · have size : hp.cells.length + 1 = run.hp.cells.length := perm.length_eq
      have small : run.hp.cells.length < 2 ^ 31 := small
      show hp.cells.length < 2 ^ 31
      omega

theorem Ok.sound (ok : run.Ok cmp) : run.Sound := by
  obtain ⟨cmp_eq, inOrder, stored, small⟩ := ok
  subst cmp_eq
  refine ⟨inOrder, stored, ⟨?_, fun empty => ⟨_, heap_pop_empty empty⟩⟩, fun some_ => ?_⟩
  · rintro ⟨after, failed⟩
    by_contra some_
    obtain ⟨hp, pops, _⟩ := heap_pop_perm some_ small
    cases pops.symm.trans failed
  · obtain ⟨hp, pops, perm, _⟩ := heap_pop_perm some_ small
    refine ⟨hp, _, pops, perm.subset List.mem_cons_self, fun other member => ?_⟩
    rcases trichotomous_of (Before run.hp.cmp) other (run.hp.heap_get 0) with less | same | more
    · exact absurd less (heap_get_zero_least inOrder member)
    · exact .inl same
    · exact .inr more

/-- While the heap stays below 2^31 elements it is a priority queue, and every operation
returns. -/
theorem priority_queue (cmp : Elem → Elem → Int) [IsStrictTotalOrder Elem (Before cmp)]
    {run : Run Elem} (reached : ReachableBy step Fits (start cmp) run) :
    run.Sound ∧ ∀ operation, run.Fits operation → ∃ after, run.step operation = some after := by
  have ok : run.Ok cmp := by
    refine reached.invariant (Ok cmp) ok_start fun before operation after ok fits stepped => ?_
    cases operation with
    | heap_push elm =>
      obtain ⟨next, steps, holds⟩ := ok.heap_push elm fits
      exact Option.some.inj (steps.symm.trans stepped) ▸ holds
    | heap_pop =>
      obtain ⟨next, steps, holds⟩ := ok.heap_pop
      exact Option.some.inj (steps.symm.trans stepped) ▸ holds
  refine ⟨ok.sound, fun operation fits => ?_⟩
  cases operation with
  | heap_push elm =>
    obtain ⟨next, steps, _⟩ := ok.heap_push elm fits
    exact ⟨next, steps⟩
  | heap_pop =>
    obtain ⟨next, steps, _⟩ := ok.heap_pop
    exact ⟨next, steps⟩

end Runs

/-- The numbers, the least first. -/
def lesser (l r : Nat) : Int :=
  if l < r then 1 else 0

theorem before_lesser {l r : Nat} : Before lesser l r ↔ l < r := by
  unfold Before lesser
  split
  · rename_i less
    exact ⟨fun _ => less, fun _ => by decide⟩
  · rename_i notLess
    exact ⟨fun zero => absurd rfl zero, fun less => absurd less notLess⟩

instance : IsStrictTotalOrder Nat (Before lesser) where
  irrefl := fun l before => Nat.lt_irrefl l (before_lesser.mp before)
  trans := fun _ _ _ first second =>
    before_lesser.mpr (Nat.lt_trans (before_lesser.mp first) (before_lesser.mp second))
  trichotomous := fun _ _ notLess notMore =>
    Nat.le_antisymm (Nat.le_of_not_lt fun more => notMore (before_lesser.mpr more))
      (Nat.le_of_not_lt fun less => notLess (before_lesser.mpr less))

instance (run : Run Elem) (operation : Operation Elem) : Decidable (run.Fits operation) :=
  match operation with
  | .heap_push _ => inferInstanceAs (Decidable (_ < _))
  | .heap_pop => inferInstanceAs (Decidable True)

/-- Of 5, 3 and 4 the least comes first. -/
theorem priority_queue_three :
    ∃ run : Run Nat, run.popped = [3] ∧ run.Sound ∧
      ∀ operation, run.Fits operation → ∃ after, run.step operation = some after := by
  have reached : ∃ run, runBy step Fits (start lesser)
      [.heap_push 5, .heap_push 3, .heap_push 4, .heap_pop] = some run ∧ run.popped = [3] :=
    ⟨_, rfl, by decide⟩
  obtain ⟨run, executed, popped⟩ := reached
  exact ⟨run, popped, priority_queue lesser (reachableBy_of_runBy executed)⟩

/-! ### A heap of 2^31 elements -/

section Full

variable {cmp : Elem → Elem → Int}

theorem heapify_full {hp : Heap Elem} (full : hp.heap_size = 2 ^ 31) (root : Nat) :
    hp.heapify root = (hp, 0) := by
  have negative : intOf hp.heap_size = -2 ^ 31 := by
    rw [full]
    decide
  unfold Heap.heapify
  rw [negative]
  exact if_pos (by omega)

theorem fixupLoop_full {hp : Heap Elem} (full : hp.heap_size = 2 ^ 31) (start : Nat) :
    fixupLoop heapify start hp = hp := by
  induction start with
  | zero => rfl
  | succ start inductionHypothesis =>
    rw [fixupLoop, heapify_full full]
    exact inductionHypothesis

theorem reachable_replicate (elm : Elem) {count : Nat} (small : count < 2 ^ 31) :
    ∃ run, Reachable step (start cmp) run ∧ run.hp.cells = List.replicate count elm ∧
      run.hp.cmp = cmp := by
  induction count with
  | zero => exact ⟨_, .refl, rfl, rfl⟩
  | succ count inductionHypothesis =>
    obtain ⟨run, reached, cells, kept⟩ := inductionHypothesis (Nat.lt_of_succ_lt small)
    have size : run.hp.heap_size = count :=
      (congrArg List.length cells).trans List.length_replicate
    obtain ⟨hp, pushes, perm, same⟩ := run.hp.heap_push_perm elm (size.symm ▸ small)
    refine ⟨_, reached.tail ⟨.heap_push elm, trivial, congrArg (Option.map _) pushes⟩, ?_,
      same.trans kept⟩
    rw [cells] at perm
    exact List.perm_replicate.mp perm

end Full

/-- The last of 2^31 pushes does not move the least element. -/
theorem not_priority_queue :
    IsStrictTotalOrder Nat (Before lesser) ∧
      ∃ run, Reachable step (start lesser) run ∧ ¬ run.Sound := by
  refine ⟨inferInstance, ?_⟩
  obtain ⟨count, enough⟩ : ∃ count, count + 1 = 2 ^ 31 := ⟨2 ^ 31 - 1, by decide⟩
  have small : count < 2 ^ 31 := by omega
  obtain ⟨run, reached, cells, kept⟩ := @reachable_replicate Nat _ lesser 1 count small
  have size : run.hp.heap_size = count :=
    (congrArg List.length cells).trans List.length_replicate
  obtain ⟨inserted, pushes, appended, same⟩ := run.hp.heap_push_eq 0 (by omega)
  have full : inserted.heap_size = 2 ^ 31 := by
    rw [heap_size_append appended, size]
    exact enough
  have unmoved : inserted.heap_fixup = inserted := fixupLoop_full full _
  rw [unmoved] at pushes
  refine ⟨_, reached.tail ⟨.heap_push 0, trivial, congrArg (Option.map _) pushes⟩, fun sound => ?_⟩
  have last : inserted.heap_get count = 0 := by
    rw [heap_get_eq, appended, cells,
      List.getElem?_append_right (Nat.le_of_eq List.length_replicate), List.length_replicate,
      Nat.sub_self]
    rfl
  have above : inserted.heap_get (BinaryHeap.parent count) = 1 := by
    have inside : BinaryHeap.parent count < count := BinaryHeap.parent_lt (by omega)
    rw [heap_get_eq, appended, cells,
      List.getElem?_append_left (show _ < (List.replicate count 1).length by
        rw [List.length_replicate]
        exact inside),
      List.getElem?_replicate_of_lt inside]
    rfl
  have stays := sound.inOrder count (by omega) (by show count < inserted.heap_size; omega)
  rw [same, kept] at stays
  refine stays (before_lesser.mpr ?_)
  show inserted.heap_get count < inserted.heap_get (BinaryHeap.parent count)
  rw [last, above]
  decide

end Run

end Heap

end Nattan
