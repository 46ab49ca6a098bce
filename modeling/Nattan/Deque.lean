/-
This file models `deque_t`, which `queue_t` and `stack_t` are other names for, over a heap
of nodes, and proves that any number of them behave as lists and that no node leaks.

A push allocates a node, and a pop takes the node off the list and frees it. The nodes of
all deques share their links, and any address that is not allocated may be the one `malloc`
returns, also one that was freed before. So the deques keep apart only because every node is
on at most one of them and a node that is freed is on none: the nodes allocated are at any
moment those that the deques hold.

A deque does not test its list but its size, which is an `int`. A push that would count it
beyond an `int` has no result, and neither has a pop that would take the head of a list for
a node.
-/

import Mathlib.Algebra.Group.Int.Defs
import Mathlib.Algebra.Group.Nat.Defs
import Nattan.LinkedList
import Nattan.Transition

namespace Nattan

namespace Deque

universe u v w

/-- The heads and the nodes of all deques. A `void*` without a value is `NULL`. -/
structure State (Head : Type u) (Cell : Type v) (Value : Type w) where
  links : Links (Node Head Cell)
  size : Head → Int
  elm : Cell → Option Value
  allocated : List Cell

variable {Head : Type u} {Cell : Type v} {Value : Type w} [DecidableEq Head] [DecidableEq Cell]

namespace State

/-- The node of a link. The head of a deque is in no node. -/
def list_to_node : Node Head Cell → Option Cell
  | .elem node => some node
  | .head _ => none

def deque_size (state : State Head Cell Value) (d : Head) : Int :=
  state.size d

def deque_empty (state : State Head Cell Value) (d : Head) : Bool :=
  state.deque_size d = 0

def deque_init (state : State Head Cell Value) (d : Head) : State Head Cell Value :=
  { state with
    links := state.links.list_init (.head d)
    size := Function.update state.size d 0 }

/-- The address is the one that `malloc` returns. -/
def new_node (state : State Head Cell Value) (n : Cell) (elm : Option Value) :
    State Head Cell Value :=
  { state with
    links := state.links.list_init (.elem n)
    elm := Function.update state.elm n elm
    allocated := n :: state.allocated }

def delete_node (state : State Head Cell Value) (n : Cell) : State Head Cell Value :=
  { state with
    links := state.links.list_delete (.elem n)
    allocated := state.allocated.erase n }

def countUp (state : State Head Cell Value) (d : Head) : Option (State Head Cell Value) :=
  if state.size d < 2 ^ 31 - 1 then
    some { state with size := Function.update state.size d (state.size d + 1) }
  else none

def countDown (state : State Head Cell Value) (d : Head) : Option (State Head Cell Value) :=
  if -2 ^ 31 < state.size d then
    some { state with size := Function.update state.size d (state.size d - 1) }
  else none

def deque_push_front (state : State Head Cell Value) (d : Head) (n : Cell) (elm : Option Value) :
    Option (State Head Cell Value) :=
  let state := state.new_node n elm
  { state with links := state.links.list_add_after (.head d) (.elem n) }.countUp d

def deque_push_back (state : State Head Cell Value) (d : Head) (n : Cell) (elm : Option Value) :
    Option (State Head Cell Value) :=
  let state := state.new_node n elm
  { state with links := state.links.list_add_before (.head d) (.elem n) }.countUp d

def deque_pop (state : State Head Cell Value) (d : Head) (op : Int) :
    Option (State Head Cell Value × Option Value) :=
  if state.deque_empty d then some (state, none)
  else
    let l := if op = 1 then state.links.next (.head d) else state.links.prev (.head d)
    (list_to_node l).bind fun n =>
      let deleted := { state with links := state.links.list_delete l }
      ((deleted.delete_node n).countDown d).map fun state => (state, deleted.elm n)

def deque_pop_front (state : State Head Cell Value) (d : Head) :
    Option (State Head Cell Value × Option Value) :=
  state.deque_pop d 1

def deque_pop_back (state : State Head Cell Value) (d : Head) :
    Option (State Head Cell Value × Option Value) :=
  state.deque_pop d 0

/-- The loop of pops while a deque is not empty, for so many turns at most. -/
def popLoop (d : Head) (op : Int) : Nat → State Head Cell Value → Option (State Head Cell Value)
  | 0, state => if state.deque_empty d then some state else none
  | turns + 1, state =>
    if state.deque_empty d then some state
    else (state.deque_pop d op).bind fun popped => popLoop d op turns popped.1

def deque_clear (state : State Head Cell Value) (d : Head) : Option (State Head Cell Value) :=
  popLoop d 1 (state.deque_size d).toNat state

/-- The loop has its test behind its body. -/
def deque_destory (state : State Head Cell Value) (d : Head) : Option (State Head Cell Value) :=
  (state.deque_pop_back d).bind fun popped =>
    popLoop d 0 (popped.1.deque_size d).toNat popped.1

end State

/-! ### What the deques hold -/

/-- The nodes on the lists carry the contents, the sizes count them, and the nodes allocated are
those on the lists. -/
structure Represents (state : State Head Cell Value) (cells : Head → List Cell)
    (contents : Head → List (Option Value)) : Prop where
  rings : Rings state.links cells
  values : ∀ d, (cells d).map state.elm = contents d
  size : ∀ d, state.size d = (contents d).length
  allocated : ∀ n, n ∈ state.allocated ↔ ∃ d, n ∈ cells d
  nodup : state.allocated.Nodup

section Operations

variable {state : State Head Cell Value} {cells : Head → List Cell}
  {contents : Head → List (Option Value)} {d : Head} {n : Cell} {elm : Option Value} {op : Int}

omit [DecidableEq Head] [DecidableEq Cell] in
theorem Represents.absent (represents : Represents state cells contents)
    (fresh : n ∉ state.allocated) : ∀ d, n ∉ cells d :=
  fun d member => fresh ((represents.allocated n).mpr ⟨d, member⟩)

omit [DecidableEq Head] [DecidableEq Cell] in
theorem Represents.length_cells (represents : Represents state cells contents) (d : Head) :
    (cells d).length = (contents d).length := by
  rw [← represents.values d, List.length_map]

omit [DecidableEq Head] [DecidableEq Cell] in
theorem Represents.deque_empty_iff (represents : Represents state cells contents) (d : Head) :
    state.deque_empty d = true ↔ contents d = [] := by
  rw [State.deque_empty, State.deque_size, decide_eq_true_eq, represents.size d]
  exact Int.natCast_eq_zero.trans List.length_eq_zero_iff

/-- A node that `malloc` has returned is put at one end of a list, the other lists are as they
were, and the deque counts one more. -/
theorem Represents.push (represents : Represents state cells contents)
    (fresh : n ∉ state.allocated) (fits : (contents d).length < 2 ^ 31 - 1)
    {links : Links (Node Head Cell)} {added : Head → List Cell} (rings : Rings links added)
    (others : ∀ other, other ≠ d → added other = cells other)
    (carries : ∀ cell, cell ∈ added d ↔ cell = n ∨ cell ∈ cells d)
    {pushed : List (Option Value)}
    (values : (added d).map (Function.update state.elm n elm) = pushed)
    (longer : pushed.length = (contents d).length + 1) :
    ∃ after, { state.new_node n elm with links }.countUp d = some after ∧
      Represents after added (Function.update contents d pushed) := by
  have absent := represents.absent fresh
  have small : state.size d < 2 ^ 31 - 1 := by
    rw [represents.size d]
    omega
  refine ⟨_, if_pos small, rings, ?_, ?_, ?_, List.nodup_cons.mpr ⟨fresh, represents.nodup⟩⟩
  · intro other
    show (added other).map (Function.update state.elm n elm) = _
    by_cases own : other = d
    · rw [own, Function.update_self, values]
    · rw [Function.update_of_ne own, others other own, ← represents.values other]
      refine List.map_congr_left fun cell member => Function.update_of_ne ?_ ..
      rintro rfl
      exact absent other member
  · intro other
    show Function.update state.size d (state.size d + 1) other = _
    by_cases own : other = d
    · rw [own, Function.update_self, Function.update_self, represents.size d, longer,
        Int.natCast_add, Int.natCast_one]
    · rw [Function.update_of_ne own, Function.update_of_ne own, represents.size other]
  · intro cell
    show cell ∈ n :: state.allocated ↔ _
    rw [List.mem_cons, represents.allocated cell]
    constructor
    · rintro (own | ⟨other, member⟩)
      · exact ⟨d, (carries cell).mpr (Or.inl own)⟩
      · by_cases own : other = d
        · exact ⟨d, (carries cell).mpr (Or.inr (own ▸ member))⟩
        · exact ⟨other, others other own ▸ member⟩
    · rintro ⟨other, member⟩
      by_cases own : other = d
      · exact ((carries cell).mp (own ▸ member)).imp_right fun inside => ⟨d, inside⟩
      · exact Or.inr ⟨other, others other own ▸ member⟩

omit [DecidableEq Head] in
/-- What the nodes before a push carry they carry behind it. -/
theorem Represents.values_update (represents : Represents state cells contents)
    (fresh : n ∉ state.allocated) (d : Head) :
    (cells d).map (Function.update state.elm n elm) = contents d := by
  rw [← represents.values d]
  refine List.map_congr_left fun cell member => Function.update_of_ne ?_ ..
  rintro rfl
  exact represents.absent fresh d member

theorem Represents.deque_push_front (represents : Represents state cells contents)
    (fresh : n ∉ state.allocated) (fits : (contents d).length < 2 ^ 31 - 1) :
    ∃ after cells, state.deque_push_front d n elm = some after ∧
      Represents after cells (Function.update contents d (elm :: contents d)) := by
  have absent := represents.absent fresh
  have rings : Rings ((state.links.list_init (.elem n)).list_add (.head d) (.elem n))
      (prepended cells d n) := (represents.rings.list_init absent).list_add absent
  have others : ∀ other, other ≠ d → prepended cells d n other = cells other :=
    fun other different => Function.update_of_ne different ..
  have values : (prepended cells d n d).map (Function.update state.elm n elm) =
      elm :: contents d := by
    rw [prepended, Function.update_self, List.map_cons, Function.update_self,
      represents.values_update fresh]
  have carries : ∀ cell, cell ∈ prepended cells d n d ↔ cell = n ∨ cell ∈ cells d := by
    intro cell
    rw [prepended, Function.update_self, List.mem_cons]
  obtain ⟨after, steps, next⟩ := represents.push fresh fits rings others carries values rfl
  exact ⟨after, _, steps, next⟩

theorem Represents.deque_push_back (represents : Represents state cells contents)
    (fresh : n ∉ state.allocated) (fits : (contents d).length < 2 ^ 31 - 1) :
    ∃ after cells, state.deque_push_back d n elm = some after ∧
      Represents after cells (Function.update contents d (contents d ++ [elm])) := by
  have absent := represents.absent fresh
  have rings : Rings ((state.links.list_init (.elem n)).list_add_before (.head d) (.elem n))
      (appended cells d n) := (represents.rings.list_init absent).list_add_before absent
  have others : ∀ other, other ≠ d → appended cells d n other = cells other :=
    fun other different => Function.update_of_ne different ..
  have values : (appended cells d n d).map (Function.update state.elm n elm) =
      contents d ++ [elm] := by
    rw [appended, Function.update_self, List.map_append, List.map_singleton, Function.update_self,
      represents.values_update fresh]
  have carries : ∀ cell, cell ∈ appended cells d n d ↔ cell = n ∨ cell ∈ cells d := by
    intro cell
    rw [appended, Function.update_self, List.mem_append, List.mem_singleton, or_comm]
  have longer : (contents d ++ [elm]).length = (contents d).length + 1 :=
    List.length_append
  obtain ⟨after, steps, next⟩ := represents.push fresh fits rings others carries values longer
  exact ⟨after, _, steps, next⟩

/-- The node that a pop finds is taken off its list and freed. -/
theorem Represents.deque_pop_node (represents : Represents state cells contents)
    (member : n ∈ cells d)
    (found : (if op = 1 then state.links.next (.head d) else state.links.prev (.head d)) =
      .elem n) {popped : List (Option Value)}
    (values : ((cells d).erase n).map state.elm = popped) :
    ∃ after cells, state.deque_pop d op = some (after, state.elm n) ∧
      Represents after cells (Function.update contents d popped) := by
  have filled : ¬ state.deque_empty d = true := by
    intro empty
    have lengths := represents.length_cells d
    rw [(represents.deque_empty_iff d).mp empty, List.length_nil] at lengths
    rw [List.length_eq_zero_iff.mp lengths] at member
    exact absurd member List.not_mem_nil
  have shorter : popped.length + 1 = (contents d).length := by
    rw [← values, List.length_map, List.length_erase_of_mem member, ← represents.length_cells d]
    have some := List.length_pos_of_mem member
    omega
  have positive : -2 ^ 31 < state.size d := by
    rw [represents.size d]
    omega
  have only : ∀ other, other ≠ d → n ∉ cells other :=
    fun other different inside => different (represents.rings.disjoint n other d inside member)
  refine ⟨{ state with
      links := state.links.list_delete (.elem n)
      size := Function.update state.size d (state.size d - 1)
      allocated := state.allocated.erase n },
    fun list => (cells list).erase n, ?_, represents.rings.list_delete n, ?_, ?_, ?_,
    represents.nodup.erase n⟩
  · rw [State.deque_pop, if_neg filled, found]
    simp only [State.list_to_node, Option.bind_some, State.delete_node, State.countDown,
      Links.list_delete_list_delete, if_pos positive, Option.map_some]
  · intro other
    show ((cells other).erase n).map state.elm = _
    by_cases own : other = d
    · rw [own, Function.update_self, values]
    · rw [Function.update_of_ne own, List.erase_of_not_mem (only other own),
        represents.values other]
  · intro other
    show Function.update state.size d (state.size d - 1) other = _
    by_cases own : other = d
    · rw [own, Function.update_self, Function.update_self, represents.size d, ← shorter]
      omega
    · rw [Function.update_of_ne own, Function.update_of_ne own, represents.size other]
  · intro cell
    show cell ∈ state.allocated.erase n ↔ _
    rw [represents.nodup.mem_erase_iff, represents.allocated cell]
    constructor
    · rintro ⟨different, other, inside⟩
      exact ⟨other, (List.mem_erase_of_ne different).mpr inside⟩
    · rintro ⟨other, inside⟩
      refine ⟨?_, other, List.mem_of_mem_erase inside⟩
      rintro rfl
      exact represents.rings.notMem_erase other inside

theorem Represents.deque_pop_empty (represents : Represents state cells contents)
    (empty : contents d = []) : state.deque_pop d op = some (state, none) :=
  if_pos ((represents.deque_empty_iff d).mpr empty)

theorem Represents.deque_pop_front (represents : Represents state cells contents) (d : Head) :
    ∃ after cells, state.deque_pop d 1 = some (after, (contents d).head?.join) ∧
      Represents after cells (Function.update contents d (contents d).tail) := by
  cases shape : cells d with
  | nil =>
    have empty : contents d = [] := by
      rw [← represents.values d, shape, List.map_nil]
    refine ⟨state, cells, ?_, ?_⟩
    · rw [represents.deque_pop_empty empty, empty]
      rfl
    · rw [empty, List.tail_nil, ← empty, Function.update_eq_self]
      exact represents
  | cons first rest =>
    have values := represents.values d
    rw [shape, List.map_cons] at values
    have found : (if (1 : Int) = 1 then state.links.next (.head d)
        else state.links.prev (.head d)) = .elem first := by
      rw [if_pos rfl, represents.rings.next_head, shape]
      rfl
    have left : ((cells d).erase first).map state.elm = (contents d).tail := by
      rw [shape, List.erase_cons_head, ← values, List.tail_cons]
    obtain ⟨after, cells', popped, next⟩ := represents.deque_pop_node
      (shape ▸ List.mem_cons_self) found left
    exact ⟨after, cells', by rw [popped, ← values]; rfl, next⟩

/-- The last node is the first one in the other direction. -/
theorem Represents.deque_pop_back (represents : Represents state cells contents) (d : Head) :
    ∃ after cells, state.deque_pop d 0 = some (after, (contents d).getLast?.join) ∧
      Represents after cells (Function.update contents d (contents d).dropLast) := by
  rcases List.eq_nil_or_concat (cells d) with shape | ⟨front, last, shape⟩
  · have empty : contents d = [] := by
      rw [← represents.values d, shape, List.map_nil]
    refine ⟨state, cells, ?_, ?_⟩
    · rw [represents.deque_pop_empty empty, empty]
      rfl
    · rw [empty, List.dropLast_nil, ← empty, Function.update_eq_self]
      exact represents
  · rw [List.concat_eq_append] at shape
    have values := represents.values d
    rw [shape, List.map_append, List.map_singleton] at values
    have found : (if (0 : Int) = 1 then state.links.next (.head d)
        else state.links.prev (.head d)) = .elem last := by
      have next : state.links.mirror.next (.head d) = _ := represents.rings.mirror.next_head
      rw [shape, List.reverse_append] at next
      rw [if_neg (by decide)]
      exact next
    have nodup := represents.rings.nodup d
    rw [shape] at nodup
    have apart : last ∉ front := fun inside =>
      (List.nodup_append.mp nodup).2.2 last inside last List.mem_cons_self rfl
    have left : ((cells d).erase last).map state.elm = (contents d).dropLast := by
      rw [shape, List.erase_append_right _ apart, List.erase_cons_head, List.append_nil, ← values,
        List.dropLast_concat]
    have member : last ∈ cells d := by
      rw [shape]
      exact List.mem_append_right _ List.mem_cons_self
    obtain ⟨after, cells', popped, next⟩ := represents.deque_pop_node member found left
    refine ⟨after, cells', ?_, next⟩
    rw [popped, ← values, List.getLast?_append, List.getLast?_singleton]
    rfl

/-- A loop of pops, from either end, takes everything out. -/
theorem Represents.popLoop (represents : Represents state cells contents) (d : Head)
    (front : op = 1 ∨ op = 0) {turns : Nat} (enough : (contents d).length ≤ turns) :
    ∃ after cells, State.popLoop d op turns state = some after ∧
      Represents after cells (Function.update contents d []) := by
  induction turns generalizing state cells contents with
  | zero =>
    have empty : contents d = [] := List.length_eq_zero_iff.mp (Nat.le_zero.mp enough)
    refine ⟨state, cells, if_pos ((represents.deque_empty_iff d).mpr empty), ?_⟩
    rw [← empty, Function.update_eq_self]
    exact represents
  | succ turns inductionHypothesis =>
    rw [State.popLoop]
    split
    · rename_i finished
      refine ⟨state, cells, rfl, ?_⟩
      rw [← (represents.deque_empty_iff d).mp finished, Function.update_eq_self]
      exact represents
    · have pops : ∃ after cells popped shorter, state.deque_pop d op = some (after, popped) ∧
          Represents after cells (Function.update contents d shorter) ∧
          shorter.length ≤ turns := by
        rcases front with rfl | rfl
        · obtain ⟨after, cells, popped, next⟩ := represents.deque_pop_front d
          exact ⟨after, cells, _, _, popped, next, by rw [List.length_tail]; omega⟩
        · obtain ⟨after, cells, popped, next⟩ := represents.deque_pop_back d
          exact ⟨after, cells, _, _, popped, next, by rw [List.length_dropLast]; omega⟩
      obtain ⟨after, cells, popped, shorter, pops, next, fewer⟩ := pops
      rw [pops]
      rw [← Function.update_self d shorter contents] at fewer
      obtain ⟨last, cells', ends, emptied⟩ := inductionHypothesis next fewer
      rw [Function.update_idem] at emptied
      exact ⟨last, cells', ends, emptied⟩

omit [DecidableEq Head] [DecidableEq Cell] in
theorem Represents.toNat_deque_size (represents : Represents state cells contents) (d : Head) :
    (contents d).length ≤ (state.deque_size d).toNat :=
  Nat.le_of_eq ((congrArg Int.toNat (represents.size d)).trans (Int.toNat_natCast _)).symm

theorem Represents.deque_clear (represents : Represents state cells contents) (d : Head) :
    ∃ after cells, state.deque_clear d = some after ∧
      Represents after cells (Function.update contents d []) :=
  represents.popLoop d (Or.inl rfl) (represents.toNat_deque_size d)

theorem Represents.deque_destory (represents : Represents state cells contents) (d : Head) :
    ∃ after cells, state.deque_destory d = some after ∧
      Represents after cells (Function.update contents d []) := by
  obtain ⟨first, cells', popped, next⟩ := represents.deque_pop_back d
  obtain ⟨after, cells'', ends, emptied⟩ :=
    next.popLoop d (Or.inr rfl) (next.toNat_deque_size d)
  rw [Function.update_idem] at emptied
  refine ⟨after, cells'', ?_, emptied⟩
  rw [State.deque_destory, State.deque_pop_back, popped]
  exact ends

end Operations

/-! ### Every sequence of operations -/

/-- The calls, with the address that `malloc` returns in a push. -/
inductive Operation (Head : Type u) (Cell : Type v) (Value : Type w) where
  | deque_push_front (d : Head) (n : Cell) (elm : Option Value)
  | deque_push_back (d : Head) (n : Cell) (elm : Option Value)
  | deque_pop_front (d : Head)
  | deque_pop_back (d : Head)
  | deque_clear (d : Head)
  | deque_destory (d : Head)
  deriving DecidableEq, Repr

/-- A call, with what a pop returns. `malloc` returns no address that is allocated. -/
def State.perform (state : State Head Cell Value) :
    Operation Head Cell Value → Option (State Head Cell Value × Option Value)
  | .deque_push_front d n elm =>
    if n ∈ state.allocated then none else (state.deque_push_front d n elm).map (·, none)
  | .deque_push_back d n elm =>
    if n ∈ state.allocated then none else (state.deque_push_back d n elm).map (·, none)
  | .deque_pop_front d => state.deque_pop_front d
  | .deque_pop_back d => state.deque_pop_back d
  | .deque_clear d => (state.deque_clear d).map (·, none)
  | .deque_destory d => (state.deque_destory d).map (·, none)

/-- What a call does to lists, and what a pop should return. -/
def onLists (contents : Head → List (Option Value)) :
    Operation Head Cell Value → (Head → List (Option Value)) × Option Value
  | .deque_push_front d _ elm => (Function.update contents d (elm :: contents d), none)
  | .deque_push_back d _ elm => (Function.update contents d (contents d ++ [elm]), none)
  | .deque_pop_front d => (Function.update contents d (contents d).tail, (contents d).head?.join)
  | .deque_pop_back d =>
    (Function.update contents d (contents d).dropLast, (contents d).getLast?.join)
  | .deque_clear d | .deque_destory d => (Function.update contents d [], none)

/-- The deques beside lists, and what the calls so far returned and should have returned. -/
structure Run (Head : Type u) (Cell : Type v) (Value : Type w) where
  state : State Head Cell Value
  contents : Head → List (Option Value)
  returned : List (Option Value)
  expected : List (Option Value)

namespace Run

/-- Every deque is initialised, and no node is allocated. -/
def start (elm : Cell → Option Value) : Run Head Cell Value where
  state := ⟨⟨id, id⟩, fun _ => 0, elm, []⟩
  contents := fun _ => []
  returned := []
  expected := []

def step (run : Run Head Cell Value) (operation : Operation Head Cell Value) :
    Option (Run Head Cell Value) :=
  (run.state.perform operation).map fun performed =>
    { state := performed.1
      contents := (onLists run.contents operation).1
      returned := run.returned ++ [performed.2]
      expected := run.expected ++ [(onLists run.contents operation).2] }

/-- A push does not count a deque beyond an `int`. -/
def Fits (run : Run Head Cell Value) : Operation Head Cell Value → Prop
  | .deque_push_front d _ _ | .deque_push_back d _ _ => (run.contents d).length < 2 ^ 31 - 1
  | _ => True

/-- `malloc` returns an address that is not allocated. -/
def Fresh (run : Run Head Cell Value) : Operation Head Cell Value → Prop
  | .deque_push_front _ n _ | .deque_push_back _ n _ => n ∉ run.state.allocated
  | _ => True

/-- The deques carry the lists, the calls returned what they should have, and the nodes that are
allocated are those on the lists. -/
structure Sound (run : Run Head Cell Value) : Prop where
  returned : run.returned = run.expected
  carries : ∃ cells, Represents run.state cells run.contents

section Runs

variable {run after : Run Head Cell Value} {operation : Operation Head Cell Value}

omit [DecidableEq Head] [DecidableEq Cell] in
theorem sound_start (elm : Cell → Option Value) : (start elm : Run Head Cell Value).Sound where
  returned := rfl
  carries := ⟨fun _ => [],
    ⟨fun _ => ⟨rfl, rfl⟩, fun _ => List.nodup_nil, fun _ _ _ member => (nomatch member),
      fun _ _ => ⟨rfl, rfl⟩⟩,
    fun _ => rfl, fun _ => rfl,
    fun _ => ⟨fun member => (nomatch member), fun ⟨_, member⟩ => (nomatch member)⟩, List.nodup_nil⟩

/-- A call that fits returns what a list returns, and leaves what a list leaves. -/
theorem perform_spec {state : State Head Cell Value} {cells : Head → List Cell}
    {contents : Head → List (Option Value)} (represents : Represents state cells contents)
    (fits : (Run.mk state contents [] []).Fits operation)
    (fresh : (Run.mk state contents [] []).Fresh operation) :
    ∃ after cells, state.perform operation = some (after, (onLists contents operation).2) ∧
      Represents after cells (onLists contents operation).1 := by
  cases operation with
  | deque_push_front d n elm =>
    obtain ⟨after, cells, pushed, next⟩ := represents.deque_push_front fresh fits
    exact ⟨after, cells, (if_neg fresh).trans (congrArg (Option.map _) pushed), next⟩
  | deque_push_back d n elm =>
    obtain ⟨after, cells, pushed, next⟩ := represents.deque_push_back fresh fits
    exact ⟨after, cells, (if_neg fresh).trans (congrArg (Option.map _) pushed), next⟩
  | deque_pop_front d => exact represents.deque_pop_front d
  | deque_pop_back d => exact represents.deque_pop_back d
  | deque_clear d =>
    obtain ⟨after, cells, cleared, next⟩ := represents.deque_clear d
    exact ⟨after, cells, congrArg (Option.map _) cleared, next⟩
  | deque_destory d =>
    obtain ⟨after, cells, cleared, next⟩ := represents.deque_destory d
    exact ⟨after, cells, congrArg (Option.map _) cleared, next⟩

theorem Sound.step (sound : run.Sound) (fits : run.Fits operation) (fresh : run.Fresh operation) :
    ∃ after, run.step operation = some after ∧ after.Sound := by
  obtain ⟨returned, cells, represents⟩ := sound
  obtain ⟨state, cells', performed, next⟩ := perform_spec represents fits fresh
  refine ⟨_, congrArg (Option.map _) performed, ?_, cells', next⟩
  show run.returned ++ [_] = run.expected ++ [_]
  rw [returned]

/-- In every sequence of pushes, pops and clears on any number of deques, none of which counts
beyond an `int`, every call returns what the same call on a list returns; the deques carry what
the lists hold, in the same order; and the nodes allocated are those on the deques, so none is
leaked and none is used when it is freed. -/
theorem deques_are_lists {elm : Cell → Option Value}
    (reached : ReachableBy step Fits (start elm) run) :
    run.Sound ∧ ∀ operation, run.Fits operation → run.Fresh operation →
      ∃ after, run.step operation = some after := by
  have sound : run.Sound := by
    refine reached.invariant Sound (sound_start elm) ?_
    intro before operation after sound fits stepped
    have fresh : before.Fresh operation := by
      cases operation with
      | deque_push_front d n elm | deque_push_back d n elm =>
        intro taken
        rw [Run.step, State.perform, if_pos taken] at stepped
        cases stepped
      | _ => trivial
    obtain ⟨next, steps, holds⟩ := sound.step fits fresh
    exact Option.some.inj (steps.symm.trans stepped) ▸ holds
  refine ⟨sound, fun operation fits fresh => ?_⟩
  obtain ⟨next, steps, _⟩ := sound.step fits fresh
  exact ⟨next, steps⟩

end Runs

instance (run : Run Head Cell Value) (operation : Operation Head Cell Value) :
    Decidable (run.Fits operation) :=
  match operation with
  | .deque_push_front _ _ _ | .deque_push_back _ _ _ => inferInstanceAs (Decidable (_ < _))
  | .deque_pop_front _ | .deque_pop_back _ | .deque_clear _ | .deque_destory _ =>
    inferInstanceAs (Decidable True)

/-- A node that was freed carries the next element of another deque. -/
theorem deques_are_lists_reused :
    ∃ run : Run Bool Nat Nat, run.returned = [none, none, some 5, none, some 6] ∧ run.Sound := by
  obtain ⟨run, executed, returned⟩ : ∃ run, runBy step Fits (start fun _ => none)
      [.deque_push_back false 0 (some 5), .deque_push_front false 1 (some 6),
        .deque_pop_back false, .deque_push_back true 0 (some 7), .deque_pop_front false] =
          some run ∧ run.returned = [none, none, some 5, none, some 6] :=
    ⟨Option.get _ (by decide +kernel), (Option.some_get _).symm, by decide +kernel⟩
  exact ⟨run, returned, (deques_are_lists (reachableBy_of_runBy executed)).1⟩

end Run

end Deque

end Nattan
