/-
This file models the circular doubly linked lists behind every queue of tasks, and
proves what its operations do to whole lists.

A list has a head, and its elements carry the links. The pointers are two functions on
nodes, and an operation stores into them as the code does. That a list is well formed
is said by walking it: from its head through its elements and back to the head, every
two neighbours point at each other. What an operation does is proved of one walk
first, by induction on it, and then of a family of lists that share the links of their
elements: every element is on at most one of them, and one that is on none points at
itself. So `list_delete` does not need to know which list an element is on, or whether
it is on one at all.
-/

import Mathlib.Data.List.Nodup
import Mathlib.Logic.Function.Basic

namespace Nattan

universe u v

/-! ### The operations -/

/-- The pointers of all nodes. -/
structure Links (Node : Type u) where
  next : Node → Node
  prev : Node → Node

namespace Links

section Operations

variable {Node : Type u} [DecidableEq Node]

def list_init (links : Links Node) (ls : Node) : Links Node where
  next := Function.update links.next ls ls
  prev := Function.update links.prev ls ls

/-- Both neighbours are loaded before anything is stored. -/
def list_add_before (links : Links Node) (ls elm : Node) : Links Node where
  next := Function.update (Function.update links.next elm ls) (links.prev ls) elm
  prev := Function.update (Function.update links.prev elm (links.prev ls)) ls elm

/-- The node behind `ls` is loaded before anything is stored. -/
def list_add_after (links : Links Node) (ls elm : Node) : Links Node where
  next := Function.update (Function.update links.next elm (links.next ls)) ls elm
  prev := Function.update (Function.update links.prev elm ls) (links.next ls) elm

def list_add (links : Links Node) (ls elm : Node) : Links Node :=
  links.list_add_after ls elm

def list_delete (links : Links Node) (elm : Node) : Links Node :=
  list_init
    { next := Function.update links.next (links.prev elm) (links.next elm)
      prev := Function.update links.prev (links.next elm) (links.prev elm) }
    elm

def list_next (links : Links Node) (ls : Node) : Node :=
  links.next ls

def list_empty (links : Links Node) (ls : Node) : Bool :=
  links.prev ls = links.next ls ∧ links.prev ls = ls

variable {links : Links Node} {elm other : Node}

theorem list_empty_iff :
    links.list_empty elm = true ↔ links.next elm = elm ∧ links.prev elm = elm := by
  rw [list_empty, decide_eq_true_eq]
  constructor
  · rintro ⟨same, self⟩
    exact ⟨same.symm.trans self, self⟩
  · rintro ⟨next, prev⟩
    exact ⟨prev.trans next.symm, prev⟩

theorem list_init_of_self (next : links.next elm = elm) (prev : links.prev elm = elm) :
    links.list_init elm = links := by
  rw [list_init, Function.update_eq_self_iff.mpr next.symm,
    Function.update_eq_self_iff.mpr prev.symm]

theorem list_delete_of_self (next : links.next elm = elm) (prev : links.prev elm = elm) :
    links.list_delete elm = links := by
  rw [list_delete, list_init, next, prev]
  simp only [Function.update_idem]
  rw [Function.update_eq_self_iff.mpr next.symm, Function.update_eq_self_iff.mpr prev.symm]

theorem next_list_delete_self : (links.list_delete elm).next elm = elm :=
  Function.update_self ..

theorem prev_list_delete_self : (links.list_delete elm).prev elm = elm :=
  Function.update_self ..

/-- An element that was deleted may be deleted again. -/
theorem list_delete_list_delete :
    (links.list_delete elm).list_delete elm = links.list_delete elm :=
  list_delete_of_self next_list_delete_self prev_list_delete_self

theorem next_list_delete_of_ne (different : other ≠ elm) (apart : other ≠ links.prev elm) :
    (links.list_delete elm).next other = links.next other := by
  rw [list_delete, list_init]
  exact (Function.update_of_ne different ..).trans (Function.update_of_ne apart ..)

theorem prev_list_delete_of_ne (different : other ≠ elm) (apart : other ≠ links.next elm) :
    (links.list_delete elm).prev other = links.prev other := by
  rw [list_delete, list_init]
  exact (Function.update_of_ne different ..).trans (Function.update_of_ne apart ..)

theorem next_list_delete_prev (different : links.prev elm ≠ elm) :
    (links.list_delete elm).next (links.prev elm) = links.next elm := by
  rw [list_delete, list_init]
  exact (Function.update_of_ne different ..).trans (Function.update_self ..)

theorem prev_list_delete_next (different : links.next elm ≠ elm) :
    (links.list_delete elm).prev (links.next elm) = links.prev elm := by
  rw [list_delete, list_init]
  exact (Function.update_of_ne different ..).trans (Function.update_self ..)

end Operations

/-! ### Walking a list -/

section Walks

variable {Node : Type u}

/-- From `first` through `between` to `last`, every two neighbours point at each other. -/
def Linked (links : Links Node) : Node → List Node → Node → Prop
  | first, [], last => links.next first = last ∧ links.prev last = first
  | first, node :: rest, last =>
    links.next first = node ∧ links.prev node = first ∧ Linked links node rest last

variable {links after : Links Node} {first last node : Node} {between front back : List Node}

/-- What is walked over from a node to the first occurrence of another is determined. -/
theorem Linked.unique {others : List Node} (linked : links.Linked first between last)
    (others_linked : links.Linked first others last) (apart : last ∉ between)
    (others_apart : last ∉ others) : others = between := by
  induction between generalizing first others with
  | nil =>
    cases others with
    | nil => rfl
    | cons other rest =>
      have same : last = other := linked.1.symm.trans others_linked.1
      exact absurd (same ▸ List.mem_cons_self) others_apart
  | cons node between inductionHypothesis =>
    cases others with
    | nil =>
      have same : last = node := others_linked.1.symm.trans linked.1
      exact absurd (same ▸ List.mem_cons_self) apart
    | cons other rest =>
      obtain rfl : other = node := others_linked.1.symm.trans linked.1
      exact congrArg _ (inductionHypothesis linked.2.2 others_linked.2.2
        (List.not_mem_of_not_mem_cons apart) (List.not_mem_of_not_mem_cons others_apart))

theorem Linked.split (linked : links.Linked first (front ++ node :: back) last) :
    links.Linked first front node ∧ links.Linked node back last := by
  induction front generalizing first with
  | nil => exact ⟨⟨linked.1, linked.2.1⟩, linked.2.2⟩
  | cons _ _ inductionHypothesis =>
    obtain ⟨next, prev, rest⟩ := linked
    obtain ⟨before, behind⟩ := inductionHypothesis rest
    exact ⟨⟨next, prev, before⟩, behind⟩

theorem Linked.append (before : links.Linked first front node)
    (behind : links.Linked node back last) : links.Linked first (front ++ node :: back) last := by
  induction front generalizing first with
  | nil => exact ⟨before.1, before.2, behind⟩
  | cons _ _ inductionHypothesis =>
    obtain ⟨next, prev, rest⟩ := before
    exact ⟨next, prev, inductionHypothesis rest⟩

/-- The same nodes in the other direction. -/
def mirror (links : Links Node) : Links Node where
  next := links.prev
  prev := links.next

theorem Linked.mirror (linked : links.Linked first between last) :
    links.mirror.Linked last between.reverse first := by
  induction between generalizing first with
  | nil => exact ⟨linked.2, linked.1⟩
  | cons node rest inductionHypothesis =>
    obtain ⟨next, prev, linkedRest⟩ := linked
    rw [List.reverse_cons]
    exact (inductionHypothesis linkedRest).append ⟨prev, next⟩

/-- A walk depends only on the pointers it follows. -/
theorem Linked.congr (linked : links.Linked first between last)
    (next : ∀ node ∈ first :: between, after.next node = links.next node)
    (prev : ∀ node, node ∈ between ∨ node = last → after.prev node = links.prev node) :
    after.Linked first between last := by
  induction between generalizing first with
  | nil =>
    refine ⟨?_, ?_⟩
    · rw [next first List.mem_cons_self]
      exact linked.1
    · rw [prev last (Or.inr rfl)]
      exact linked.2
  | cons node rest inductionHypothesis =>
    obtain ⟨nextFirst, prevNode, linkedRest⟩ := linked
    refine ⟨?_, ?_, inductionHypothesis linkedRest ?_ ?_⟩
    · rw [next first List.mem_cons_self]
      exact nextFirst
    · rw [prev node (Or.inl List.mem_cons_self)]
      exact prevNode
    · intro other member
      exact next other (List.mem_cons_of_mem first member)
    · intro other member
      exact prev other (member.imp_left (List.mem_cons_of_mem node))

theorem Linked.prev_mem (linked : links.Linked first between last) :
    links.prev last ∈ first :: between := by
  induction between generalizing first with
  | nil =>
    rw [linked.2]
    exact List.mem_cons_self
  | cons _ _ inductionHypothesis =>
    exact List.mem_cons_of_mem first (inductionHypothesis linked.2.2)

theorem Linked.next_eq (linked : links.Linked first between last) :
    links.next first = between.headD last := by
  cases between with
  | nil => exact linked.1
  | cons _ _ => exact linked.1

theorem Linked.next_mem (linked : links.Linked first between last) :
    links.next first ∈ between ∨ links.next first = last := by
  cases between with
  | nil => exact Or.inr linked.1
  | cons node rest =>
    refine Or.inl ?_
    rw [linked.1]
    exact List.mem_cons_self

variable [DecidableEq Node]

/-- Adding before the end of a walk lengthens it by the added node. -/
theorem Linked.list_add_before {elm : Node} (linked : links.Linked first between last)
    (nodup : (first :: between).Nodup) (inside : last ∉ between) (absent : elm ∉ first :: between)
    (different : elm ≠ last) :
    (links.list_add_before last elm).Linked first (between ++ [elm]) last := by
  have prevElm : (links.list_add_before last elm).prev elm = links.prev last :=
    (Function.update_of_ne different ..).trans (Function.update_self ..)
  have prevLast : (links.list_add_before last elm).prev last = elm := Function.update_self ..
  have nextPrev : (links.list_add_before last elm).next (links.prev last) = elm :=
    Function.update_self ..
  induction between generalizing first with
  | nil =>
    have distinct : elm ≠ links.prev last := by
      rw [linked.2]
      exact fun same => absent (same ▸ List.mem_cons_self)
    have nextElm : (links.list_add_before last elm).next elm = last :=
      (Function.update_of_ne distinct ..).trans (Function.update_self ..)
    rw [linked.2] at prevElm nextPrev
    exact ⟨nextPrev, prevElm, nextElm, prevLast⟩
  | cons node rest inductionHypothesis =>
    obtain ⟨next, prev, linkedRest⟩ := linked
    rw [List.nodup_cons] at nodup
    have apart : first ≠ links.prev last :=
      fun same => nodup.1 (same ▸ linkedRest.prev_mem)
    have notFirst : first ≠ elm := fun same => absent (same ▸ List.mem_cons_self)
    have notNode : node ≠ elm :=
      fun same => absent (same ▸ List.mem_cons_of_mem first List.mem_cons_self)
    have notLast : node ≠ last := fun same => inside (same ▸ List.mem_cons_self)
    refine ⟨?_, ?_, inductionHypothesis linkedRest nodup.2 ?_ ?_⟩
    · exact (Function.update_of_ne apart ..).trans ((Function.update_of_ne notFirst ..).trans next)
    · exact (Function.update_of_ne notLast ..).trans ((Function.update_of_ne notNode ..).trans prev)
    · exact fun member => inside (List.mem_cons_of_mem node member)
    · exact fun member => absent (List.mem_cons_of_mem first member)

/-- Deleting the second node of a walk leaves the walk without it. -/
theorem Linked.list_delete_second (prev : links.prev node = first)
    (behind : links.Linked node back last) (nodup : (first :: node :: back).Nodup)
    (inside : last ∉ node :: back) : (links.list_delete node).Linked first back last := by
  have notFirst : first ∉ node :: back := (List.nodup_cons.mp nodup).1
  have notNode : node ∉ back := (List.nodup_cons.mp (List.nodup_cons.mp nodup).2).1
  have apart : links.prev node ≠ node := by
    rw [prev]
    exact fun same => notFirst (same ▸ List.mem_cons_self)
  have nextFirst : (links.list_delete node).next first = links.next node := by
    rw [← prev]
    exact next_list_delete_prev apart
  have notLast : last ≠ node := fun same => inside (same ▸ List.mem_cons_self)
  have apart' : links.next node ≠ node := by
    obtain member | same := behind.next_mem
    · exact fun same => notNode (same ▸ member)
    · rw [same]
      exact notLast
  have prevNext : (links.list_delete node).prev (links.next node) = first := by
    rw [prev_list_delete_next apart', prev]
  cases back with
  | nil =>
    rw [behind.1] at nextFirst prevNext
    exact ⟨nextFirst, prevNext⟩
  | cons second rest =>
    obtain ⟨nextNode, prevSecond, linkedRest⟩ := behind
    rw [nextNode] at nextFirst prevNext
    refine ⟨nextFirst, prevNext, linkedRest.congr ?_ ?_⟩
    · intro other member
      apply next_list_delete_of_ne
      · exact fun same => notNode (same ▸ member)
      · rw [prev]
        exact fun same => notFirst (same ▸ List.mem_cons_of_mem node member)
    · intro other member
      have distinct := (List.nodup_cons.mp (List.nodup_cons.mp nodup).2).2
      rw [List.nodup_cons] at distinct
      apply prev_list_delete_of_ne
      · obtain member | same := member
        · exact fun same => notNode (same ▸ List.mem_cons_of_mem second member)
        · rw [same]
          exact notLast
      · rw [nextNode]
        obtain member | same := member
        · exact fun same => distinct.1 (same ▸ member)
        · rw [same]
          exact fun same => inside (same ▸ List.mem_cons_of_mem node List.mem_cons_self)

/-- Deleting a node inside a walk leaves the walk without it. -/
theorem Linked.list_delete (before : links.Linked first front node)
    (behind : links.Linked node back last) (nodup : (first :: front ++ node :: back).Nodup)
    (inside : last ∉ front ++ node :: back) :
    (links.list_delete node).Linked first (front ++ back) last := by
  induction front generalizing first with
  | nil => exact Linked.list_delete_second before.2 behind nodup inside
  | cons second rest inductionHypothesis =>
    obtain ⟨next, prev, linkedRest⟩ := before
    have later := (List.nodup_cons.mp nodup).2
    have notFirst := (List.nodup_cons.mp nodup).1
    have notSecond := (List.nodup_cons.mp later).1
    have nodeMem : node ∈ rest ++ node :: back :=
      List.mem_append_right rest List.mem_cons_self
    have nodeMem' : node ∈ second :: rest ++ node :: back := List.mem_cons_of_mem second nodeMem
    refine ⟨?_, ?_, inductionHypothesis linkedRest later ?_⟩
    · rw [next_list_delete_of_ne]
      · exact next
      · exact fun same => notFirst (same ▸ nodeMem')
      · exact fun same => notFirst (same ▸ List.mem_append_left (node :: back) linkedRest.prev_mem)
    · rw [prev_list_delete_of_ne]
      · exact prev
      · exact fun same => notSecond (same ▸ nodeMem)
      · obtain member | same := behind.next_mem
        · exact fun same => notSecond (same ▸ List.mem_append_right rest
            (List.mem_cons_of_mem node member))
        · rw [same]
          exact fun same => inside (same ▸ List.mem_cons_self)
    · exact fun member => inside (List.mem_cons_of_mem second member)

end Walks

end Links

/-! ### The lists of a system -/

/-- A node is the head of a list, or the link of an element. -/
inductive Node (Head : Type u) (Elem : Type v) where
  | head (head : Head)
  | elem (elem : Elem)
  deriving DecidableEq, Repr

section Rings

variable {Head : Type u} {Elem : Type v}

/-- The nodes of a list, its head first. -/
def nodes (contents : Head → List Elem) (head : Head) : List (Node Head Elem) :=
  .head head :: (contents head).map .elem

/-- The contents with an element at the front of one list. -/
def prepended [DecidableEq Head] (contents : Head → List Elem) (head : Head) (elem : Elem) :
    Head → List Elem :=
  Function.update contents head (elem :: contents head)

/-- The contents with an element at the end of one list. -/
def appended [DecidableEq Head] (contents : Head → List Elem) (head : Head) (elem : Elem) :
    Head → List Elem :=
  Function.update contents head (contents head ++ [elem])

/-- The links are those of circular lists with these contents: no element is twice on a list or on
two lists, and the elements on no list point at themselves. -/
structure Rings (links : Links (Node Head Elem)) (contents : Head → List Elem) : Prop where
  linked : ∀ head, links.Linked (.head head) ((contents head).map .elem) (.head head)
  nodup : ∀ head, (contents head).Nodup
  disjoint : ∀ elem first second, elem ∈ contents first → elem ∈ contents second → first = second
  alone : ∀ elem, (∀ head, elem ∉ contents head) →
    links.next (.elem elem) = .elem elem ∧ links.prev (.elem elem) = .elem elem

variable {links after : Links (Node Head Elem)} {contents : Head → List Elem} {head other : Head}
  {elem : Elem} {node : Node Head Elem}

theorem elem_mem_nodes : .elem elem ∈ nodes contents head ↔ elem ∈ contents head := by
  rw [nodes, List.mem_cons, List.mem_map]
  constructor
  · rintro (impossible | ⟨same, member, equal⟩)
    · cases impossible
    · cases equal
      exact member
  · intro member
    exact Or.inr ⟨elem, member, rfl⟩

theorem head_mem_nodes : .head other ∈ nodes contents head ↔ other = head := by
  rw [nodes, List.mem_cons, List.mem_map]
  constructor
  · rintro (same | ⟨_, _, impossible⟩)
    · cases same
      rfl
    · cases impossible
  · rintro rfl
    exact Or.inl rfl

theorem mem_appended [DecidableEq Head] {added : Elem} :
    elem ∈ appended contents head added other ↔
      elem ∈ contents other ∨ (elem = added ∧ other = head) := by
  by_cases same : other = head
  · subst same
    rw [appended, Function.update_self, List.mem_append, List.mem_singleton]
    exact ⟨Or.imp_right fun own => ⟨own, rfl⟩, Or.imp_right And.left⟩
  · rw [appended, Function.update_of_ne same]
    exact ⟨Or.inl, fun either => either.elim id fun both => absurd both.2 same⟩

theorem mem_prepended [DecidableEq Head] {added : Elem} :
    elem ∈ prepended contents head added other ↔
      elem ∈ contents other ∨ (elem = added ∧ other = head) := by
  by_cases same : other = head
  · subst same
    rw [prepended, Function.update_self, List.mem_cons, or_comm]
    exact ⟨Or.imp_right fun own => ⟨own, rfl⟩, Or.imp_right And.left⟩
  · rw [prepended, Function.update_of_ne same]
    exact ⟨Or.inl, fun either => either.elim id fun both => absurd both.2 same⟩

theorem head_notMem_map : Node.head other ∉ (contents head).map Node.elem := by
  rw [List.mem_map]
  rintro ⟨_, _, impossible⟩
  cases impossible

namespace Rings

theorem nodup_map (rings : Rings links contents) :
    ((contents head).map (Node.elem : Elem → Node Head Elem)).Nodup :=
  (rings.nodup head).map fun _ _ same => Node.elem.inj same

theorem nodes_disjoint (rings : Rings links contents) (different : other ≠ head)
    (member : node ∈ nodes contents other) : node ∉ nodes contents head := by
  intro member'
  cases node with
  | head same =>
    rw [head_mem_nodes] at member member'
    exact different (member.symm.trans member')
  | elem elem =>
    rw [elem_mem_nodes] at member member'
    exact different (rings.disjoint elem other head member member')

/-- The lists as they are found in the other direction. -/
theorem mirror (rings : Rings links contents) :
    Rings links.mirror fun head => (contents head).reverse := by
  refine ⟨?_, ?_, ?_, ?_⟩
  · intro head
    rw [List.map_reverse]
    exact (rings.linked head).mirror
  · exact fun head => List.nodup_reverse.mpr (rings.nodup head)
  · intro elem first second inside inside'
    exact rings.disjoint elem first second (List.mem_reverse.mp inside)
      (List.mem_reverse.mp inside')
  · intro elem away
    exact (rings.alone elem fun head inside => away head (List.mem_reverse.mpr inside)).symm

/-- The list around one of its elements. -/
theorem split (rings : Rings links contents) (member : elem ∈ contents head) :
    ∃ front back, contents head = front ++ elem :: back ∧ elem ∉ front ∧
      links.Linked (.head head) (front.map .elem) (.elem elem) ∧
      links.Linked (.elem elem) (back.map .elem) (.head head) := by
  obtain ⟨front, back, shape⟩ := List.append_of_mem member
  have linked := rings.linked head
  rw [shape, List.map_append, List.map_cons] at linked
  have nodup := rings.nodup head
  rw [shape] at nodup
  have notFront : elem ∉ front := fun inFront =>
    (List.nodup_append.mp nodup).2.2 elem inFront elem List.mem_cons_self rfl
  exact ⟨front, back, shape, notFront, linked.split⟩

theorem prev_head_mem (rings : Rings links contents) :
    links.prev (.head head) ∈ nodes contents head :=
  (rings.linked head).prev_mem

theorem prev_elem_mem (rings : Rings links contents) (member : elem ∈ contents head) :
    links.prev (.elem elem) ∈ nodes contents head := by
  obtain ⟨front, back, shape, _, before, _⟩ := rings.split member
  rw [nodes, shape, List.map_append, ← List.cons_append]
  exact List.mem_append_left _ before.prev_mem

theorem next_elem_mem (rings : Rings links contents) (member : elem ∈ contents head) :
    links.next (.elem elem) ∈ nodes contents head := by
  obtain ⟨front, back, shape, _, _, behind⟩ := rings.split member
  rw [nodes, shape, List.map_append, List.map_cons]
  obtain inBack | last := behind.next_mem
  · exact List.mem_cons_of_mem _ (List.mem_append_right _ (List.mem_cons_of_mem _ inBack))
  · rw [last]
    exact List.mem_cons_self

/-- An operation that stores only into one list and one element leaves the other lists. -/
theorem frame (rings : Rings links contents) (absent : elem ∉ contents other)
    (different : other ≠ head)
    (next : ∀ node, node ∉ nodes contents head → node ≠ .elem elem →
      after.next node = links.next node)
    (prev : ∀ node, node ∉ nodes contents head → node ≠ .elem elem →
      after.prev node = links.prev node) :
    after.Linked (.head other) ((contents other).map .elem) (.head other) := by
  have apart : ∀ node ∈ nodes contents other, node ≠ .elem elem := by
    rintro node member rfl
    exact absent (elem_mem_nodes.mp member)
  refine (rings.linked other).congr ?_ ?_
  · intro node member
    exact next node (rings.nodes_disjoint different member) (apart node member)
  · intro node member
    have inRing : node ∈ nodes contents other := by
      obtain inside | last := member
      · exact List.mem_cons_of_mem _ inside
      · rw [last]
        exact List.mem_cons_self
    exact prev node (rings.nodes_disjoint different inRing) (apart node inRing)

/-- The first node after the head, which is the head itself if the list is empty. -/
theorem next_head (rings : Rings links contents) :
    links.next (.head head) = ((contents head).map .elem).headD (.head head) :=
  (rings.linked head).next_eq

/-- The node after the first element, which is the head if there is no other element. -/
theorem next_of_cons (rings : Rings links contents) {rest : List Elem}
    (shape : contents head = elem :: rest) :
    links.next (.elem elem) = (rest.map .elem).headD (.head head) := by
  have linked := rings.linked head
  rw [shape] at linked
  exact linked.2.2.next_eq

variable [DecidableEq Head] [DecidableEq Elem]

/-- Where a whole list is replaced, an element of it need not be erased first. -/
theorem update_erase (rings : Rings links contents) (member : elem ∈ contents head)
    (list : List Elem) :
    Function.update (fun other => (contents other).erase elem) head list =
      Function.update contents head list := by
  funext other
  by_cases own : other = head
  · rw [own, Function.update_self, Function.update_self]
  · rw [Function.update_of_ne own, Function.update_of_ne own]
    exact List.erase_of_not_mem fun inside => own (rings.disjoint elem other head inside member)

theorem list_empty_head (rings : Rings links contents) :
    links.list_empty (.head head) = true ↔ contents head = [] := by
  rw [Links.list_empty_iff]
  have linked := rings.linked head
  constructor
  · rintro ⟨next, _⟩
    cases shape : contents head with
    | nil => rfl
    | cons first rest =>
      rw [shape] at linked
      cases next.symm.trans linked.1
  · intro empty
    rw [empty] at linked
    exact linked

theorem list_empty_elem (rings : Rings links contents) (member : elem ∈ contents head) :
    links.list_empty (.elem elem) = false := by
  rw [Bool.eq_false_iff, Ne, Links.list_empty_iff]
  rintro ⟨_, prev⟩
  obtain ⟨front, back, shape, notFront, before, _⟩ := rings.split member
  have inside := before.prev_mem
  rw [prev, List.mem_cons, List.mem_map] at inside
  obtain impossible | ⟨same, inFront, equal⟩ := inside
  · cases impossible
  · cases equal
    exact notFront inFront

/-- What a loop over a list sees first. It stops exactly at the end of the list. -/
theorem list_empty_next (rings : Rings links contents) :
    links.list_empty (links.list_next (.head head)) = (contents head).isEmpty := by
  rw [Links.list_next, rings.next_head]
  cases shape : contents head with
  | nil => exact rings.list_empty_head.mpr shape
  | cons first rest =>
    have member : first ∈ contents head := by
      rw [shape]
      exact List.mem_cons_self
    exact rings.list_empty_elem member

/-- `list_init` of a link that is on no list. -/
theorem list_init (rings : Rings links contents) (absent : ∀ head, elem ∉ contents head) :
    Rings (links.list_init (.elem elem)) contents := by
  have next : ∀ node, node ≠ Node.elem elem →
      (links.list_init (.elem elem)).next node = links.next node :=
    fun _ different => Function.update_of_ne different ..
  have prev : ∀ node, node ≠ Node.elem elem →
      (links.list_init (.elem elem)).prev node = links.prev node :=
    fun _ different => Function.update_of_ne different ..
  have apart : ∀ head, ∀ node ∈ nodes contents head, node ≠ .elem elem := by
    rintro head node member rfl
    exact absent head (elem_mem_nodes.mp member)
  refine ⟨fun head => (rings.linked head).congr ?_ ?_, rings.nodup, rings.disjoint, ?_⟩
  · exact fun node member => next node (apart head node member)
  · rintro node (member | rfl)
    · exact prev node (apart head node (List.mem_cons_of_mem _ member))
    · exact prev _ (by simp)
  · intro other away
    by_cases same : other = elem
    · subst same
      exact ⟨Function.update_self .., Function.update_self ..⟩
    · have different : Node.elem other ≠ (Node.elem elem : Node Head Elem) :=
        fun equal => same (Node.elem.inj equal)
      rw [next _ different, prev _ different]
      exact rings.alone other away

/-- `list_add_before` of the head puts an element that is on no list at the end. -/
theorem list_add_before (rings : Rings links contents) (absent : ∀ head, elem ∉ contents head) :
    Rings (links.list_add_before (.head head) (.elem elem))
      (appended contents head elem) := by
  have apartHead : Node.elem elem ≠ (Node.head head : Node Head Elem) := by simp
  have next : ∀ node, node ∉ nodes contents head → node ≠ .elem elem →
      (links.list_add_before (.head head) (.elem elem)).next node = links.next node := by
    intro node outside different
    have apart : node ≠ links.prev (.head head) :=
      fun same => outside (same ▸ rings.prev_head_mem)
    exact (Function.update_of_ne apart ..).trans (Function.update_of_ne different ..)
  have prev : ∀ node, node ∉ nodes contents head → node ≠ .elem elem →
      (links.list_add_before (.head head) (.elem elem)).prev node = links.prev node := by
    intro node outside different
    have apart : node ≠ .head head := fun same => outside (same ▸ List.mem_cons_self)
    exact (Function.update_of_ne apart ..).trans (Function.update_of_ne different ..)
  refine ⟨?_, ?_, ?_, ?_⟩
  · intro list
    by_cases same : list = head
    · subst same
      rw [appended, Function.update_self, List.map_append]
      refine (rings.linked list).list_add_before ?_ head_notMem_map ?_ apartHead
      · exact List.nodup_cons.mpr ⟨head_notMem_map, rings.nodup_map⟩
      · exact fun member => absent list (elem_mem_nodes.mp member)
    · rw [appended, Function.update_of_ne same]
      exact rings.frame (absent list) same next prev
  · intro list
    by_cases same : list = head
    · subst same
      rw [appended, Function.update_self, List.nodup_append]
      refine ⟨rings.nodup list, List.nodup_singleton elem, ?_⟩
      intro other inside last own equal
      rw [List.mem_singleton] at own
      rw [equal, own] at inside
      exact absent list inside
    · rw [appended, Function.update_of_ne same]
      exact rings.nodup list
  · intro other first second member member'
    obtain inside | ⟨own, list⟩ := mem_appended.mp member
    · obtain inside' | ⟨own', list'⟩ := mem_appended.mp member'
      · exact rings.disjoint other first second inside inside'
      · exact absurd (own' ▸ inside) (absent first)
    · obtain inside' | ⟨own', list'⟩ := mem_appended.mp member'
      · exact absurd (own ▸ inside') (absent second)
      · exact list.trans list'.symm
  · intro other away
    have before : ∀ list, other ∉ contents list :=
      fun list member => away list (mem_appended.mpr (Or.inl member))
    have different : Node.elem other ≠ (Node.elem elem : Node Head Elem) :=
      fun equal => away head (mem_appended.mpr (Or.inr ⟨Node.elem.inj equal, rfl⟩))
    have outside : Node.elem other ∉ nodes contents head :=
      fun member => before head (elem_mem_nodes.mp member)
    rw [next _ outside different, prev _ outside different]
    exact rings.alone other before

/-- `list_add` to the head puts an element that is on no list at the front. It is
`list_add_before` of the same lists in the other direction. -/
theorem list_add (rings : Rings links contents) (absent : ∀ head, elem ∉ contents head) :
    Rings (links.list_add (.head head) (.elem elem)) (prepended contents head elem) := by
  have mirrored : Rings (links.list_add (.head head) (.elem elem))
      fun list => (appended (fun head => (contents head).reverse) head elem list).reverse :=
    (rings.mirror.list_add_before fun list inside =>
      absent list (List.mem_reverse.mp inside)).mirror
  have same : (fun list =>
      (appended (fun head => (contents head).reverse) head elem list).reverse) =
        prepended contents head elem := by
    funext list
    by_cases own : list = head
    · subst own
      rw [appended, prepended, Function.update_self, Function.update_self, List.reverse_append,
        List.reverse_reverse]
      rfl
    · rw [appended, prepended, Function.update_of_ne own, Function.update_of_ne own,
        List.reverse_reverse]
  rw [← same]
  exact mirrored

/-- The list an element is deleted from. -/
theorem list_delete_linked (rings : Rings links contents) (member : elem ∈ contents head) :
    (links.list_delete (.elem elem)).Linked (.head head) (((contents head).erase elem).map .elem)
      (.head head) := by
  obtain ⟨front, back, shape, notFront, before, behind⟩ := rings.split member
  have erased : (contents head).erase elem = front ++ back := by
    rw [shape, List.erase_append_right _ notFront, List.erase_cons_head]
  have whole : (contents head).map (Node.elem : Elem → Node Head Elem) =
      front.map .elem ++ .elem elem :: back.map .elem := by
    rw [shape, List.map_append, List.map_cons]
  rw [erased, List.map_append]
  refine before.list_delete behind ?_ ?_
  · rw [List.cons_append, ← whole]
    exact List.nodup_cons.mpr ⟨head_notMem_map, rings.nodup_map⟩
  · rw [← whole]
    exact head_notMem_map

/-- `list_delete` takes an element off the list it is on, if it is on one. -/
theorem list_delete (rings : Rings links contents) (elem : Elem) :
    Rings (links.list_delete (.elem elem)) fun list => (contents list).erase elem := by
  by_cases absent : ∀ list, elem ∉ contents list
  · obtain ⟨next, prev⟩ := rings.alone elem absent
    rw [Links.list_delete_of_self next prev]
    have same : (fun list => (contents list).erase elem) = contents :=
      funext fun list => List.erase_of_not_mem (absent list)
    rw [same]
    exact rings
  · simp only [not_forall, not_not] at absent
    obtain ⟨head, member⟩ := absent
    have only : ∀ list, list ≠ head → elem ∉ contents list :=
      fun list different inside => different (rings.disjoint elem list head inside member)
    have next : ∀ node, node ∉ nodes contents head → node ≠ .elem elem →
        (links.list_delete (.elem elem)).next node = links.next node := by
      intro node outside different
      exact Links.next_list_delete_of_ne different
        fun same => outside (same ▸ rings.prev_elem_mem member)
    have prev : ∀ node, node ∉ nodes contents head → node ≠ .elem elem →
        (links.list_delete (.elem elem)).prev node = links.prev node := by
      intro node outside different
      exact Links.prev_list_delete_of_ne different
        fun same => outside (same ▸ rings.next_elem_mem member)
    refine ⟨?_, fun list => (rings.nodup list).erase elem, ?_, ?_⟩
    · intro list
      by_cases same : list = head
      · subst same
        exact rings.list_delete_linked member
      · rw [List.erase_of_not_mem (only list same)]
        exact rings.frame (only list same) same next prev
    · intro other first second inside inside'
      exact rings.disjoint other first second (List.mem_of_mem_erase inside)
        (List.mem_of_mem_erase inside')
    · intro other away
      by_cases same : other = elem
      · subst same
        exact ⟨Links.next_list_delete_self, Links.prev_list_delete_self⟩
      · have before : ∀ list, other ∉ contents list :=
          fun list inside => away list ((List.mem_erase_of_ne same).mpr inside)
        have different : Node.elem other ≠ (Node.elem elem : Node Head Elem) :=
          fun equal => same (Node.elem.inj equal)
        have outside : Node.elem other ∉ nodes contents head :=
          fun inside => before head (elem_mem_nodes.mp inside)
        rw [next _ outside different, prev _ outside different]
        exact rings.alone other before

omit [DecidableEq Head] [DecidableEq Elem] in
/-- The links determine what is on a list. -/
theorem eq_contents (rings : Rings links contents) {between : List Elem}
    (linked : links.Linked (.head head) (between.map .elem) (.head head)) :
    between = contents head := by
  have notMem : Node.head head ∉ between.map (Node.elem : Elem → Node Head Elem) := by
    rw [List.mem_map]
    rintro ⟨_, _, impossible⟩
    cases impossible
  exact List.map_injective_iff.mpr (fun _ _ same => Node.elem.inj same)
    ((rings.linked head).unique linked head_notMem_map notMem)

omit [DecidableEq Head] in
/-- An element that was deleted is on no list. -/
theorem notMem_erase (rings : Rings links contents) (head : Head) :
    elem ∉ (contents head).erase elem :=
  (rings.nodup head).not_mem_erase

end Rings

end Rings

end Nattan
