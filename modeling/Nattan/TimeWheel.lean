/-
This file models the timer wheel and the task that turns it, and proves exactly when
every element is fired on time.

A slot of the wheel is a list, and the hand is the number of the slot that was fired last.
An element that is to wait for `t` further rotations goes to the slot `t + 1` places ahead,
counted modulo the number of slots. There is no count of full turns. So an element with a
timeout of at least the size of the wheel is fired too early, after the remainder of the
timeout.

The wheel is proved against lists first: what the pointers do to the lists of the slots,
the loop that fires a slot and unlinks it included. The lists are then proved against what
has been asked for: an element is in the slot that the hand reaches when the remainder of
its timeout has passed. This holds of every run, and from it follows when the remainder is
the timeout itself.
-/

import Mathlib.Algebra.Group.Nat.Defs
import Mathlib.Data.List.Induction
import Mathlib.Data.Nat.ModEq
import Nattan.CoPoll
import Nattan.LinkedList

namespace Nattan.Wheel

open CoPoll (IETIMEOUT)

universe u

/-! ### The wheel -/

def MIN_TIME_WHEEL_SIZE : Nat := 60

/-- A wheel with `size` slots, whose heads have the numbers of the slots. The elements are the
links in the `inner_fd` of the descriptors. The slots were counted in an `int`. -/
structure TimeWheel (size : Nat) (Elem : Type u) where
  loc : Fin size
  links : Links (Node (Fin size) Elem)
  size_lt : size < 2 ^ 31

/-- The size of a new wheel. -/
def wheelSize (size : Nat) : Nat :=
  if MIN_TIME_WHEEL_SIZE < size then size else MIN_TIME_WHEEL_SIZE

theorem wheelSize_pos (size : Nat) : 0 < wheelSize size := by
  rw [wheelSize, MIN_TIME_WHEEL_SIZE]
  split
  · omega
  · omega

section Code

variable {size : Nat} {Elem : Type u}

/-- A new wheel. `list_init` has been called for every slot here, and for the link of every element
by `new_inner_fd`. The counter of the loop is an `int`, which a larger size overflows. -/
def new_time_wheel (size : Nat) : Option (TimeWheel (wheelSize size) Elem) :=
  if small : wheelSize size < 2 ^ 31 then
    some { loc := ⟨0, wheelSize_pos size⟩, links := { next := id, prev := id }, size_lt := small }
  else none

def wheel_rotate (tw : TimeWheel size Elem) : TimeWheel size Elem :=
  { tw with loc := ⟨(tw.loc + 1) % size, Nat.mod_lt _ (Nat.zero_lt_of_lt tw.loc.isLt)⟩ }

variable [DecidableEq Elem]

def wheel_delete_element (tw : TimeWheel size Elem) (elm : Elem) : TimeWheel size Elem :=
  { tw with links := tw.links.list_delete (.elem elm) }

/-- The slot of an element. The sum is an `unsigned long`. -/
def slotOf (tw : TimeWheel size Elem) (timeout : BitVec 32) : Fin size :=
  ⟨(tw.loc + timeout.toNat + 1) % 2 ^ 64 % size, Nat.mod_lt _ (Nat.zero_lt_of_lt tw.loc.isLt)⟩

def wheel_update_element (tw : TimeWheel size Elem) (elm : Elem) (timeout : BitVec 32) :
    TimeWheel size Elem :=
  if timeout.toInt < 0 then tw
  else
    let tv := slotOf tw timeout
    let tw := wheel_delete_element tw elm
    { tw with links := tw.links.list_add (.head tv) (.elem elm) }

def wheel_timeout_list (tw : TimeWheel size Elem) : Node (Fin size) Elem :=
  .head tw.loc

/-! ### The task that turns it -/

/-- A wheel, and the `error` of the `inner_fd` of every element. -/
structure Timer (size : Nat) (Elem : Type u) where
  wheel : TimeWheel size Elem
  error : Elem → BitVec 32

/-- The inner loop of `_timeout_task`, and the elements whose tasks it has resumed. A task that is
resumed is put into the run queue and runs later. A head is not part of an `inner_fd`. -/
def timeoutLoop : Nat → Timer size Elem → Node (Fin size) Elem → List Elem →
    Option (Timer size Elem × List Elem)
  | 0, _, _, _ => none
  | fuel + 1, timer, ls, resumed =>
    if timer.wheel.links.list_empty ls then some (timer, resumed)
    else
      match ls with
      | .head _ => none
      | .elem ifd =>
        let error := Function.update timer.error ifd (timer.error ifd ||| IETIMEOUT)
        let next := timer.wheel.links.list_next ls
        let wheel := wheel_delete_element timer.wheel ifd
        timeoutLoop fuel { wheel, error } next (resumed ++ [ifd])

/-- A turn of the outer loop of `_timeout_task`, and the elements it fires. -/
def timeoutTask (fuel : Nat) (timer : Timer size Elem) : Option (Timer size Elem × List Elem) :=
  let timer := { timer with wheel := wheel_rotate timer.wheel }
  let timeout_list := wheel_timeout_list timer.wheel
  let ls := timer.wheel.links.list_next timeout_list
  timeoutLoop fuel timer ls []

/-- What can happen to a wheel. -/
inductive Event (Elem : Type u) where
  | rotate
  | update (elm : Elem) (timeout : BitVec 32)
  | delete (elm : Elem)
  deriving DecidableEq, Repr

def step (fuel : Nat) (timer : Timer size Elem) : Event Elem → Option (Timer size Elem)
  | .rotate => (timeoutTask fuel timer).map Prod.fst
  | .update elm timeout => some { timer with wheel := wheel_update_element timer.wheel elm timeout }
  | .delete elm => some { timer with wheel := wheel_delete_element timer.wheel elm }

def run (fuel : Nat) : Timer size Elem → List (Event Elem) → Option (Timer size Elem)
  | timer, [] => some timer
  | timer, event :: events => (step fuel timer event).bind fun timer => run fuel timer events

end Code

/-! ### What is asked for -/

section Demands

variable {Elem : Type u} [DecidableEq Elem]

/-- The timeouts of the elements that were updated and not deleted since, with the numbers of
rotations since. A negative timeout is no update. -/
abbrev Demands (Elem : Type u) := Elem → Option (Nat × Nat)

def demand (demands : Demands Elem) : Event Elem → Demands Elem
  | .rotate => fun elm => (demands elm).map fun (timeout, passed) => (timeout, passed + 1)
  | .update elm timeout =>
    if timeout.toInt < 0 then demands
    else Function.update demands elm (some (timeout.toNat, 0))
  | .delete elm => Function.update demands elm none

/-- What is asked for after these events, of which the first is the oldest. -/
def since (events : List (Event Elem)) : Demands Elem :=
  events.foldl demand fun _ => none

/-- In a run of a new wheel, every rotation fires exactly the elements for which as many rotations
as their timeout says have passed before, and each of them once. -/
def OnTime (size : Nat) (error : Elem → BitVec 32) (events : List (Event Elem)) : Prop :=
  ∃ wheel : TimeWheel (wheelSize size) Elem, new_time_wheel size = some wheel ∧
    ∀ fuel, events.length < fuel → ∀ before behind, events = before ++ .rotate :: behind →
      ∃ timer next resumed, run fuel { wheel, error } before = some timer ∧
        timeoutTask fuel timer = some (next, resumed) ∧ resumed.Nodup ∧
        ∀ elm, elm ∈ resumed ↔ ∃ timeout, since before elm = some (timeout, timeout)

/-- No element whose timeout is at least the size is left in the wheel until the remainder of its
timeout has passed. -/
def InTime (size : Nat) (events : List (Event Elem)) : Prop :=
  ∀ before behind, events = before ++ .rotate :: behind →
    ∀ elm timeout, since before elm = some (timeout, timeout % size) → timeout < size

end Demands

/-! ### The pointers and the lists -/

section Lists

variable {size : Nat} {Elem : Type u} [DecidableEq Elem] {timer : Timer size Elem}
  {contents : Fin size → List Elem} {elm : Elem}

/-- The loop empties the list it starts with, in order, and marks its elements. -/
theorem timeoutLoop_eq {head : Fin size} {fuel : Nat} {list : List Elem}
    (rings : Rings timer.wheel.links contents) (shape : contents head = list)
    (enough : list.length < fuel) (resumed : List Elem) :
    ∃ next, timeoutLoop fuel timer ((list.map .elem).headD (.head head)) resumed =
        some (next, resumed ++ list) ∧
      next.wheel.loc = timer.wheel.loc ∧
      Rings next.wheel.links (Function.update contents head []) ∧
      ∀ ifd, next.error ifd =
        if ifd ∈ list then timer.error ifd ||| IETIMEOUT else timer.error ifd := by
  induction list generalizing timer contents fuel resumed with
  | nil =>
    obtain ⟨fuel, rfl⟩ := Nat.exists_eq_succ_of_ne_zero (Nat.ne_of_gt enough)
    refine ⟨timer, ?_, rfl, ?_, fun ifd => (if_neg List.not_mem_nil).symm⟩
    · rw [List.map_nil, List.headD_nil, timeoutLoop, if_pos (rings.list_empty_head.mpr shape),
        List.append_nil]
    · rw [← shape, Function.update_eq_self]
      exact rings
  | cons first rest inductionHypothesis =>
    obtain ⟨fuel, rfl⟩ := Nat.exists_eq_succ_of_ne_zero (Nat.ne_of_gt (Nat.zero_lt_of_lt enough))
    have member : first ∈ contents head := by
      rw [shape]
      exact List.mem_cons_self
    have notRest : first ∉ rest := (List.nodup_cons.mp (shape ▸ rings.nodup head)).1
    have erased : (contents head).erase first = rest := by
      rw [shape, List.erase_cons_head]
    obtain ⟨after, looped, loc, cleared, marked⟩ := @inductionHypothesis
      ⟨wheel_delete_element timer.wheel first,
        Function.update timer.error first (timer.error first ||| IETIMEOUT)⟩ _ _
      (rings.list_delete first) erased (Nat.lt_of_succ_lt_succ enough) (resumed ++ [first])
    refine ⟨after, ?_, loc, ?_, ?_⟩
    · rw [List.append_assoc] at looped
      rw [List.map_cons, List.headD_cons, timeoutLoop,
        if_neg (Bool.eq_false_iff.mp (rings.list_empty_elem member)), Links.list_next,
        rings.next_of_cons shape]
      exact looped
    · rw [← rings.update_erase member]
      exact cleared
    · intro ifd
      by_cases own : ifd = first
      · rw [own, if_pos List.mem_cons_self]
        exact (marked first).trans ((if_neg notRest).trans (Function.update_self ..))
      · have kept : Function.update timer.error first (timer.error first ||| IETIMEOUT) ifd =
            timer.error ifd := Function.update_of_ne own ..
        refine (marked ifd).trans ?_
        simp only [kept, List.mem_cons, own, false_or]

/-- A turn empties the slot that follows, and fires what was in it. -/
theorem timeoutTask_eq {fuel : Nat} (rings : Rings timer.wheel.links contents)
    (enough : (contents (wheel_rotate timer.wheel).loc).length < fuel) :
    ∃ next, timeoutTask fuel timer = some (next, contents (wheel_rotate timer.wheel).loc) ∧
      next.wheel.loc = (wheel_rotate timer.wheel).loc ∧
      Rings next.wheel.links (Function.update contents (wheel_rotate timer.wheel).loc []) ∧
      ∀ ifd, next.error ifd =
        if ifd ∈ contents (wheel_rotate timer.wheel).loc then timer.error ifd ||| IETIMEOUT
        else timer.error ifd := by
  have turning : Rings (Timer.mk (wheel_rotate timer.wheel) timer.error).wheel.links contents :=
    rings
  have turned := timeoutLoop_eq turning rfl enough []
  rw [← rings.next_head] at turned
  exact turned

/-- Nothing changes for a negative timeout, and otherwise the element moves to the front of its
slot. -/
theorem wheel_update_element_rings (rings : Rings timer.wheel.links contents)
    {timeout : BitVec 32} (some : ¬ timeout.toInt < 0) :
    Rings (wheel_update_element timer.wheel elm timeout).links
      (prepended (fun slot => (contents slot).erase elm) (slotOf timer.wheel timeout) elm) := by
  rw [wheel_update_element, if_neg some]
  exact (rings.list_delete elm).list_add rings.notMem_erase

end Lists

/-! ### Where an element is -/

section Places

/-- The slot that the hand at `loc` will reach when the remainder of the timeout has passed, as long
as it has not. -/
def Awaits {size : Nat} (loc slot : Fin size) (asked : Option (Nat × Nat)) : Prop :=
  ∃ timeout passed, asked = some (timeout, passed) ∧ passed ≤ timeout % size ∧
    (slot : Nat) = (loc + (timeout % size - passed) + 1) % size

variable {size : Nat} {Elem : Type u} {tw : TimeWheel size Elem}

theorem ahead_mod_eq_iff {loc ahead : Nat} (within : ahead < size) :
    (loc + ahead + 1) % size = (loc + 1) % size ↔ ahead = 0 := by
  constructor
  · intro same
    rw [Nat.add_right_comm] at same
    have zero : ahead ≡ 0 [MOD size] := Nat.ModEq.add_left_cancel' (loc + 1) same
    rw [Nat.ModEq, Nat.zero_mod, Nat.mod_eq_of_lt within] at zero
    exact zero
  · intro zero
    rw [zero, Nat.add_zero]

/-- The slot that follows is awaited when exactly the remainder has passed. -/
theorem awaits_rotate_iff (asked : Option (Nat × Nat)) :
    Awaits tw.loc (wheel_rotate tw).loc asked ↔
      ∃ timeout, asked = some (timeout, timeout % size) := by
  have positive : 0 < size := Nat.zero_lt_of_lt tw.loc.isLt
  constructor
  · rintro ⟨timeout, passed, same, within, place⟩
    have below := Nat.mod_lt timeout positive
    have none := (ahead_mod_eq_iff (show timeout % size - passed < size by omega)).mp place.symm
    have passed_eq : passed = timeout % size := by omega
    exact ⟨timeout, passed_eq ▸ same⟩
  · rintro ⟨timeout, same⟩
    refine ⟨timeout, timeout % size, same, Nat.le_refl _, ?_⟩
    rw [Nat.sub_self, Nat.add_zero]
    rfl

/-- Turning the wheel keeps the places of the elements that have not been fired. -/
theorem awaits_demand_rotate [DecidableEq Elem] (slot : Fin size) (demands : Demands Elem)
    (elm : Elem) :
    Awaits (wheel_rotate tw).loc slot (demand demands .rotate elm) ↔
      slot ≠ (wheel_rotate tw).loc ∧ Awaits tw.loc slot (demands elm) := by
  have positive : 0 < size := Nat.zero_lt_of_lt tw.loc.isLt
  constructor
  · rintro ⟨timeout, later, same, within, place⟩
    obtain ⟨⟨timeout', passed⟩, before, equal⟩ := Option.map_eq_some_iff.mp same
    cases equal
    have below := Nat.mod_lt timeout positive
    have place : (slot : Nat) = (tw.loc + (timeout % size - passed) + 1) % size := by
      rw [place]
      show ((tw.loc + 1) % size + (timeout % size - (passed + 1)) + 1) % size = _
      rw [Nat.add_assoc, Nat.mod_add_mod]
      congr 1
      omega
    refine ⟨fun own => ?_, timeout, passed, before, Nat.le_of_succ_le within, place⟩
    rw [own] at place
    have none := (ahead_mod_eq_iff (show timeout % size - passed < size by omega)).mp place.symm
    omega
  · rintro ⟨other, timeout, passed, before, within, place⟩
    have more : passed ≠ timeout % size := by
      rintro rfl
      refine other (Fin.ext ?_)
      rw [place, Nat.sub_self, Nat.add_zero]
      rfl
    refine ⟨timeout, passed + 1, ?_, by omega, ?_⟩
    · exact congrArg (Option.map _) before
    · rw [place]
      show _ = ((tw.loc + 1) % size + (timeout % size - (passed + 1)) + 1) % size
      rw [Nat.add_assoc ((tw.loc + 1) % size), Nat.mod_add_mod]
      congr 1
      omega

/-- An update puts an element where it awaits its turn. -/
theorem awaits_update_iff (slot : Fin size) (timeout : BitVec 32) :
    Awaits tw.loc slot (some (timeout.toNat, 0)) ↔ slot = slotOf tw timeout := by
  have small : (tw.loc + timeout.toNat + 1) % 2 ^ 64 = tw.loc + timeout.toNat + 1 := by
    have below := tw.loc.isLt
    have short := tw.size_lt
    have word := timeout.isLt
    omega
  have place : (tw.loc + timeout.toNat % size + 1) % size = slotOf tw timeout := by
    show _ = (tw.loc + timeout.toNat + 1) % 2 ^ 64 % size
    rw [small, Nat.add_right_comm, Nat.add_mod_mod, Nat.add_right_comm]
  constructor
  · rintro ⟨_, _, same, _, slot_eq⟩
    cases same
    rw [Nat.sub_zero, place] at slot_eq
    exact Fin.ext slot_eq
  · rintro rfl
    exact ⟨_, _, rfl, Nat.zero_le _, place.symm⟩

end Places

/-! ### Runs -/

section Runs

variable {size : Nat} {Elem : Type u} [DecidableEq Elem]

/-- Every element is in the slot where it awaits its turn, and in no other. No slot has more than
`count` elements. -/
structure Placed (timer : Timer size Elem) (demands : Demands Elem) (count : Nat)
    (contents : Fin size → List Elem) : Prop where
  rings : Rings timer.wheel.links contents
  placed : ∀ slot elm, elm ∈ contents slot ↔ Awaits timer.wheel.loc slot (demands elm)
  few : ∀ slot, (contents slot).length ≤ count

variable {timer : Timer size Elem} {demands : Demands Elem} {count fuel : Nat}
  {contents : Fin size → List Elem}

omit [DecidableEq Elem] in
theorem Placed.mono {larger : Nat} (state : Placed timer demands count contents)
    (le : count ≤ larger) : Placed timer demands larger contents :=
  ⟨state.rings, state.placed, fun slot => Nat.le_trans (state.few slot) le⟩

/-- A rotation fires exactly the elements for which the remainder of the timeout has passed. -/
theorem Placed.rotate (state : Placed timer demands count contents) (enough : count < fuel) :
    ∃ next resumed, timeoutTask fuel timer = some (next, resumed) ∧ resumed.Nodup ∧
      (∀ elm, elm ∈ resumed ↔ ∃ timeout, demands elm = some (timeout, timeout % size)) ∧
      Placed next (demand demands .rotate) count
        (Function.update contents (wheel_rotate timer.wheel).loc []) := by
  obtain ⟨next, turned, loc, rings, _⟩ := timeoutTask_eq state.rings
    (Nat.lt_of_le_of_lt (state.few (wheel_rotate timer.wheel).loc) enough)
  refine ⟨next, _, turned, state.rings.nodup _, ?_, rings, ?_, ?_⟩
  · intro elm
    rw [state.placed, awaits_rotate_iff]
  · intro slot elm
    rw [loc, awaits_demand_rotate, ← state.placed]
    by_cases own : slot = (wheel_rotate timer.wheel).loc
    · rw [own, Function.update_self]
      exact ⟨fun inside => absurd inside List.not_mem_nil, fun other => absurd rfl other.1⟩
    · rw [Function.update_of_ne own]
      exact (and_iff_right own).symm
  · intro slot
    by_cases own : slot = (wheel_rotate timer.wheel).loc
    · rw [own, Function.update_self]
      exact Nat.zero_le _
    · rw [Function.update_of_ne own]
      exact state.few slot

theorem Placed.delete (state : Placed timer demands count contents) (elm : Elem) :
    Placed { timer with wheel := wheel_delete_element timer.wheel elm }
      (demand demands (.delete elm)) count fun slot => (contents slot).erase elm := by
  refine ⟨state.rings.list_delete elm, ?_, ?_⟩
  · intro slot other
    rw [(state.rings.nodup slot).mem_erase_iff, state.placed, demand]
    by_cases own : other = elm
    · rw [own, Function.update_self]
      exact ⟨fun both => absurd rfl both.1, fun ⟨_, _, impossible, _⟩ => nomatch impossible⟩
    · rw [Function.update_of_ne own]
      exact and_iff_right own
  · exact fun slot => Nat.le_trans List.length_erase_le (state.few slot)

theorem Placed.update (state : Placed timer demands count contents) (elm : Elem)
    {timeout : BitVec 32} (some : ¬ timeout.toInt < 0) :
    Placed { timer with wheel := wheel_update_element timer.wheel elm timeout }
      (demand demands (.update elm timeout)) (count + 1)
      (prepended (fun slot => (contents slot).erase elm) (slotOf timer.wheel timeout) elm) := by
  have loc : (wheel_update_element timer.wheel elm timeout).loc = timer.wheel.loc := by
    rw [wheel_update_element, if_neg some]
    rfl
  refine ⟨wheel_update_element_rings state.rings some, ?_, ?_⟩
  · intro slot other
    have without := (state.delete elm).placed slot other
    rw [mem_prepended, loc, demand, if_neg some]
    by_cases own : other = elm
    · subst own
      rw [Function.update_self, awaits_update_iff]
      have absent : other ∉ (contents slot).erase other := (state.rings.nodup slot).not_mem_erase
      exact ⟨fun either => (either.resolve_left absent).2, fun same => Or.inr ⟨rfl, same⟩⟩
    · rw [demand, Function.update_of_ne own] at without
      rw [Function.update_of_ne own]
      exact ⟨fun either => without.mp (either.resolve_right fun both => own both.1),
        fun awaits => Or.inl (without.mpr awaits)⟩
  · intro slot
    have fewer := (state.delete elm).few slot
    rw [prepended]
    by_cases own : slot = slotOf timer.wheel timeout
    · rw [← own, Function.update_self, List.length_cons]
      exact Nat.succ_le_succ fewer
    · rw [Function.update_of_ne own]
      exact Nat.le_succ_of_le fewer

theorem Placed.step (state : Placed timer demands count contents) (enough : count < fuel)
    (event : Event Elem) :
    ∃ next contents', step fuel timer event = some next ∧
      Placed next (demand demands event) (count + 1) contents' := by
  cases event with
  | rotate =>
    obtain ⟨next, resumed, turned, _, _, kept⟩ := state.rotate enough
    exact ⟨next, _, congrArg (Option.map Prod.fst) turned, kept.mono (Nat.le_succ count)⟩
  | update elm timeout =>
    by_cases negative : timeout.toInt < 0
    · refine ⟨_, contents, rfl, ?_⟩
      rw [wheel_update_element, if_pos negative, demand, if_pos negative]
      exact state.mono (Nat.le_succ count)
    · exact ⟨_, _, rfl, state.update elm negative⟩
  | delete elm => exact ⟨_, _, rfl, (state.delete elm).mono (Nat.le_succ count)⟩

theorem Placed.run (state : Placed timer demands count contents) (events : List (Event Elem))
    (enough : count + events.length ≤ fuel) :
    ∃ next contents', run fuel timer events = some next ∧
      Placed next (events.foldl demand demands) (count + events.length) contents' := by
  induction events generalizing timer demands count contents with
  | nil => exact ⟨timer, contents, rfl, state⟩
  | cons event rest inductionHypothesis =>
    rw [List.length_cons] at enough
    obtain ⟨next, contents', stepped, kept⟩ := state.step (show count < fuel by omega) event
    obtain ⟨reached, contents'', ran, final⟩ := inductionHypothesis kept (by omega)
    refine ⟨reached, contents'', ?_, ?_⟩
    · rw [Wheel.run, stepped]
      exact ran
    · rw [List.length_cons, Nat.add_comm rest.length, ← Nat.add_assoc]
      exact final

theorem placed_new (wheel : TimeWheel (wheelSize size) Elem) (error : Elem → BitVec 32)
    (made : new_time_wheel size = some wheel) :
    Placed { wheel, error } (since []) 0 fun _ => [] := by
  rw [new_time_wheel] at made
  split at made
  · cases made
    refine ⟨⟨fun _ => ⟨rfl, rfl⟩, fun _ => List.nodup_nil, ?_, fun _ _ => ⟨rfl, rfl⟩⟩, ?_, ?_⟩
    · exact fun _ _ _ member => absurd member List.not_mem_nil
    · exact fun _ _ => ⟨fun member => absurd member List.not_mem_nil,
        fun ⟨_, _, impossible, _⟩ => nomatch impossible⟩
    · exact fun _ => Nat.le_refl 0
  · cases made

/-- What every rotation fires, in every run. -/
theorem fired_iff {wheel : TimeWheel (wheelSize size) Elem} (error : Elem → BitVec 32)
    (made : new_time_wheel size = some wheel) (events : List (Event Elem))
    (enough : events.length < fuel) :
    ∃ timer next resumed, run fuel { wheel, error } events = some timer ∧
      timeoutTask fuel timer = some (next, resumed) ∧ resumed.Nodup ∧
      ∀ elm, elm ∈ resumed ↔
        ∃ timeout, since events elm = some (timeout, timeout % wheelSize size) := by
  obtain ⟨timer, contents, ran, state⟩ := (placed_new wheel error made).run events
    (show 0 + events.length ≤ fuel by omega)
  rw [Nat.zero_add] at state
  obtain ⟨next, resumed, turned, nodup, fired, _⟩ := state.rotate enough
  exact ⟨timer, next, resumed, ran, turned, nodup, fired⟩

/-- What is fired on time in a run, compared with what should be. -/
theorem onTime_iff_demands (error : Elem → BitVec 32) (events : List (Event Elem)) :
    OnTime size error events ↔
      size < 2 ^ 31 ∧ ∀ before behind, events = before ++ .rotate :: behind → ∀ elm,
        (∃ timeout, since before elm = some (timeout, timeout % wheelSize size)) ↔
          ∃ timeout, since before elm = some (timeout, timeout) := by
  have bound : size < 2 ^ 31 ↔ wheelSize size < 2 ^ 31 := by
    rw [wheelSize, MIN_TIME_WHEEL_SIZE]
    split
    · exact Iff.rfl
    · omega
  constructor
  · rintro ⟨wheel, made, fires⟩
    refine ⟨bound.mpr wheel.size_lt, fun before behind split elm => ?_⟩
    obtain ⟨timer, next, resumed, ran, turned, _, onTime⟩ :=
      fires (events.length + 1) (Nat.lt_succ_self _) before behind split
    have shorter : before.length < events.length + 1 := by
      rw [split, List.length_append]
      omega
    obtain ⟨timer', next', resumed', ran', turned', _, remainders⟩ :=
      fired_iff error made before shorter
    cases ran.symm.trans ran'
    cases turned.symm.trans turned'
    exact (remainders elm).symm.trans (onTime elm)
  · rintro ⟨small, same⟩
    refine ⟨_, dif_pos (bound.mp small), fun fuel enough before behind split => ?_⟩
    have shorter : before.length < fuel := by
      rw [split, List.length_append] at enough
      omega
    obtain ⟨timer, next, resumed, ran, turned, nodup, remainders⟩ :=
      fired_iff error (dif_pos (bound.mp small)) before shorter
    exact ⟨timer, next, resumed, ran, turned, nodup,
      fun elm => (remainders elm).trans (same before behind split elm)⟩

/-- Before an element had waited for `passed` rotations, it had waited for fewer. -/
theorem since_earlier {events : List (Event Elem)} {elm : Elem} {timeout passed fewer : Nat}
    (asked : since events elm = some (timeout, passed)) (less : fewer < passed) :
    ∃ before behind, events = before ++ .rotate :: behind ∧
      since before elm = some (timeout, fewer) := by
  induction events using List.reverseRecOn generalizing passed with
  | nil => cases asked
  | append_singleton events event inductionHypothesis =>
    have later : ∀ {passed}, since events elm = some (timeout, passed) → fewer < passed →
        ∃ before behind, events ++ [event] = before ++ .rotate :: behind ∧
          since before elm = some (timeout, fewer) := by
      intro passed asked less
      obtain ⟨before, behind, split, earlier⟩ := inductionHypothesis asked less
      refine ⟨before, behind ++ [event], ?_, earlier⟩
      rw [split, List.append_assoc, List.cons_append]
    rw [since, List.foldl_concat] at asked
    cases event with
    | rotate =>
      obtain ⟨⟨timeout', passed'⟩, asked', equal⟩ := Option.map_eq_some_iff.mp asked
      cases equal
      obtain less | same := Nat.lt_succ_iff_lt_or_eq.mp less
      · exact later asked' less
      · exact ⟨events, [], rfl, same ▸ asked'⟩
    | update other timeout' =>
      rw [demand] at asked
      split at asked
      · exact later asked less
      · by_cases own : elm = other
        · rw [own, Function.update_self] at asked
          cases asked
          exact absurd less (Nat.not_lt_zero _)
        · rw [Function.update_of_ne own] at asked
          exact later asked less
    | delete other =>
      rw [demand] at asked
      by_cases own : elm = other
      · rw [own, Function.update_self] at asked
        cases asked
      · rw [Function.update_of_ne own] at asked
        exact later asked less

/-- A wheel fires on time if and only if no element with a timeout of at least its size is left in
it until the remainder has passed. -/
theorem onTime_iff (size : Nat) (error : Elem → BitVec 32) (events : List (Event Elem)) :
    OnTime size error events ↔ size < 2 ^ 31 ∧ InTime (wheelSize size) events := by
  rw [onTime_iff_demands]
  refine and_congr_right fun _ => ⟨fun same before behind split elm timeout asked => ?_,
    fun inTime before behind split elm => ⟨?_, ?_⟩⟩
  · obtain ⟨whole, asked'⟩ := (same before behind split elm).mp ⟨timeout, asked⟩
    obtain ⟨left, right⟩ := Prod.mk.inj (Option.some.inj (asked.symm.trans asked'))
    rw [left, ← right]
    exact Nat.mod_lt timeout (wheelSize_pos size)
  · rintro ⟨timeout, asked⟩
    have below := inTime before behind split elm timeout asked
    rw [Nat.mod_eq_of_lt below] at asked
    exact ⟨timeout, asked⟩
  · rintro ⟨timeout, asked⟩
    have below : timeout < wheelSize size := by
      by_contra large
      have less : timeout % wheelSize size < timeout :=
        Nat.lt_of_lt_of_le (Nat.mod_lt timeout (wheelSize_pos size)) (Nat.not_lt.mp large)
      obtain ⟨earlier, later, split', asked'⟩ := since_earlier asked less
      refine large (inTime earlier (later ++ .rotate :: behind) ?_ elm timeout asked')
      rw [split, split', List.append_assoc, List.cons_append]
    refine ⟨timeout, ?_⟩
    rw [Nat.mod_eq_of_lt below]
    exact asked

/-- A timeout of one full turn: the element is fired by the first rotation instead of the 61st. -/
theorem not_onTime_fullTurn :
    ¬ OnTime 60 (fun _ : Unit => CoPoll.IENONE) [.update () 60, .rotate] := by
  intro onTime
  have same := ((onTime_iff_demands _ _).mp onTime).2 [.update () 60] [] rfl ()
  obtain ⟨timeout, asked⟩ := same.mp ⟨60, rfl⟩
  have full : since [.update () 60] () = some (60, 0) := rfl
  cases full.symm.trans asked

end Runs

end Nattan.Wheel
