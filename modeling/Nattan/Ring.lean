/-
This file is the library of ring buffers of a fixed capacity.

A ring keeps its elements in `capacity` slots, a put index, a take index and a
count; both indices advance by one and wrap to zero at the capacity. Its
contents are the `count` slots from the take index on. Under the representation
invariant `Ring.Wf` an enqueue below the capacity appends to the contents and a
dequeue of a non-empty ring removes their head, so the ring is a bounded FIFO
queue. `Ring.Represents` adds the history of the ring: the elements put in so
far are the elements taken out so far followed by the contents.
-/

import Mathlib.Data.List.Basic
import Mathlib.Logic.Function.Basic
import Mathlib.Data.Nat.ModEq

namespace Nattan

universe u

/-- A ring buffer. The slots are total; only those below `capacity` are ever used. -/
structure Ring (Element : Type u) where
  capacity : Nat
  slots : Nat → Element
  putIndex : Nat
  takeIndex : Nat
  count : Nat

namespace Ring

variable {Element : Type u}

/-- The ring no element has been put in. -/
def empty [Inhabited Element] (capacity : Nat) : Ring Element where
  capacity := capacity
  slots := fun _ => default
  putIndex := 0
  takeIndex := 0
  count := 0

/-- The index after `index`, wrapping at the capacity. -/
def advance (ring : Ring Element) (index : Nat) : Nat :=
  if index + 1 = ring.capacity then 0 else index + 1

def isFull (ring : Ring Element) : Bool := ring.count == ring.capacity

def isEmpty (ring : Ring Element) : Bool := ring.count == 0

/-- Store an element at the put index. -/
def enqueue (ring : Ring Element) (element : Element) : Ring Element :=
  { ring with
    slots := Function.update ring.slots ring.putIndex element
    putIndex := ring.advance ring.putIndex
    count := ring.count + 1 }

/-- Release the slot at the take index. -/
def release (ring : Ring Element) : Ring Element :=
  { ring with
    takeIndex := ring.advance ring.takeIndex
    count := ring.count - 1 }

/-- Release the slot at the take index and hand out what that slot still holds. -/
def dequeue (ring : Ring Element) : Element × Ring Element :=
  (ring.release.slots ring.takeIndex, ring.release)

/-- The slot of the element `offset` places behind the oldest. -/
def slotOf (ring : Ring Element) (offset : Nat) : Nat :=
  (ring.takeIndex + offset) % ring.capacity

/-- The live elements, oldest first. -/
def contents (ring : Ring Element) : List Element :=
  (List.range ring.count).map fun offset => ring.slots (ring.slotOf offset)

/-- The representation invariant: both indices are inside the slots and lie `count` apart. -/
structure Wf (ring : Ring Element) : Prop where
  take_lt : ring.takeIndex < ring.capacity
  count_le : ring.count ≤ ring.capacity
  put_eq : ring.putIndex = (ring.takeIndex + ring.count) % ring.capacity

/-! ### The representation invariant -/

@[simp] theorem release_count (ring : Ring Element) : ring.release.count = ring.count - 1 := rfl

@[simp] theorem contents_length (ring : Ring Element) : ring.contents.length = ring.count := by
  simp [contents]

theorem contents_eq_nil_iff (ring : Ring Element) : ring.contents = [] ↔ ring.count = 0 := by
  rw [← List.length_eq_zero_iff, contents_length]

theorem isFull_iff (ring : Ring Element) : ring.isFull = true ↔ ring.count = ring.capacity := by
  simp [isFull]

theorem isEmpty_iff (ring : Ring Element) : ring.isEmpty = true ↔ ring.count = 0 := by
  simp [isEmpty]

theorem count_pos {ring : Ring Element} (nonempty : ring.isEmpty = false) : 0 < ring.count := by
  have notEmpty : ring.count ≠ 0 := by simpa [isEmpty] using nonempty
  exact Nat.pos_of_ne_zero notEmpty

theorem wf_empty [Inhabited Element] (capacity : Nat) (positive : 0 < capacity) :
    (empty capacity : Ring Element).Wf where
  take_lt := positive
  count_le := Nat.zero_le _
  put_eq := by simp [empty]

/-- Advancing an index that is inside the slots is adding one modulo the capacity. -/
theorem advance_eq_mod (ring : Ring Element) (index : Nat) (inside : index < ring.capacity) :
    ring.advance index = (index + 1) % ring.capacity := by
  unfold advance
  split
  · rename_i wraps
    rw [wraps, Nat.mod_self]
  · rw [Nat.mod_eq_of_lt (by omega)]

/-- Two offsets below the capacity that share a slot are the same offset. -/
theorem slotOf_injective (ring : Ring Element) {first second : Nat}
    (firstLt : first < ring.capacity) (secondLt : second < ring.capacity)
    (same : ring.slotOf first = ring.slotOf second) : first = second := by
  have congruent : first ≡ second [MOD ring.capacity] := Nat.ModEq.add_left_cancel' _ same
  exact Nat.ModEq.eq_of_lt_of_lt congruent firstLt secondLt

namespace Wf

variable {ring : Ring Element}

theorem capacity_pos (wf : ring.Wf) : 0 < ring.capacity := Nat.zero_lt_of_lt wf.take_lt

theorem count_lt (wf : ring.Wf) (space : ring.isFull = false) : ring.count < ring.capacity := by
  have notFull : ring.count ≠ ring.capacity := by simpa [isFull] using space
  exact lt_of_le_of_ne wf.count_le notFull

theorem put_lt (wf : ring.Wf) : ring.putIndex < ring.capacity := by
  rw [wf.put_eq]
  exact Nat.mod_lt _ wf.capacity_pos

theorem advance_put (wf : ring.Wf) :
    ring.advance ring.putIndex = (ring.takeIndex + (ring.count + 1)) % ring.capacity := by
  rw [advance_eq_mod ring _ wf.put_lt, wf.put_eq, Nat.mod_add_mod, Nat.add_assoc]

theorem enqueue (wf : ring.Wf) (space : ring.count < ring.capacity) (element : Element) :
    (ring.enqueue element).Wf where
  take_lt := wf.take_lt
  count_le := space
  put_eq := wf.advance_put

theorem release (wf : ring.Wf) (nonempty : 0 < ring.count) : ring.release.Wf where
  take_lt := by
    show ring.advance ring.takeIndex < ring.capacity
    rw [advance_eq_mod ring _ wf.take_lt]
    exact Nat.mod_lt _ wf.capacity_pos
  count_le := le_trans (Nat.sub_le _ _) wf.count_le
  put_eq := by
    show ring.putIndex = (ring.advance ring.takeIndex + (ring.count - 1)) % ring.capacity
    rw [advance_eq_mod ring _ wf.take_lt, wf.put_eq, Nat.mod_add_mod]
    congr 1
    omega

/-- Below the capacity an enqueue appends to the contents: the put index is none of the live
slots, so nothing that is still to be taken is overwritten. -/
theorem contents_enqueue (wf : ring.Wf) (space : ring.count < ring.capacity)
    (element : Element) : (ring.enqueue element).contents = ring.contents ++ [element] := by
  have putSlot : ring.putIndex = ring.slotOf ring.count := wf.put_eq
  have last : (ring.enqueue element).slots (ring.slotOf ring.count) = element := by
    rw [← putSlot]
    exact Function.update_self _ _ _
  have live : ∀ offset ∈ List.range ring.count,
      (ring.enqueue element).slots (ring.slotOf offset) = ring.slots (ring.slotOf offset) := by
    intro offset member
    have offsetLt : offset < ring.count := List.mem_range.mp member
    refine Function.update_of_ne (fun same => ?_) _ _
    have equal := ring.slotOf_injective (lt_trans offsetLt space) space (same.trans putSlot)
    omega
  show (List.range (ring.count + 1)).map
      (fun offset => (ring.enqueue element).slots (ring.slotOf offset)) = _
  rw [List.range_succ, List.map_append, List.map_congr_left live, List.map_singleton, last]
  rfl

/-- A dequeue of a non-empty ring takes the head off the contents. -/
theorem contents_dequeue (wf : ring.Wf) (nonempty : 0 < ring.count) :
    ring.contents = ring.dequeue.1 :: ring.dequeue.2.contents := by
  obtain ⟨rest, count⟩ : ∃ rest, ring.count = rest + 1 := ⟨ring.count - 1, by omega⟩
  have head : ring.slotOf 0 = ring.takeIndex := Nat.mod_eq_of_lt wf.take_lt
  have tail : ∀ offset, ring.slotOf (offset + 1) = ring.release.slotOf offset := by
    intro offset
    show (ring.takeIndex + (offset + 1)) % ring.capacity =
      (ring.advance ring.takeIndex + offset) % ring.capacity
    rw [advance_eq_mod ring _ wf.take_lt, Nat.mod_add_mod]
    congr 1
    omega
  have released : ring.release.count = rest := by rw [release_count, count]; rfl
  show (List.range ring.count).map (fun offset => ring.slots (ring.slotOf offset)) =
    ring.slots ring.takeIndex ::
      (List.range ring.release.count).map fun offset => ring.slots (ring.release.slotOf offset)
  rw [count, released, List.range_succ_eq_map, List.map_cons, List.map_map, head]
  refine congrArg _ (List.map_congr_left fun offset _ => ?_)
  rw [Function.comp_apply, tail]

end Wf

/-! ### The bounded FIFO queue -/

/-- One step of the FIFO queue of the given capacity: nothing, an element in at the back while
there is room, or the front element out. -/
inductive FifoStep (capacity : Nat) : List Element → List Element → Prop
  | stutter (queue : List Element) : FifoStep capacity queue queue
  | send (queue : List Element) (element : Element) (room : queue.length < capacity) :
      FifoStep capacity queue (queue ++ [element])
  | receive (element : Element) (queue : List Element) : FifoStep capacity (element :: queue) queue

theorem Wf.fifoStep_enqueue {ring : Ring Element} (wf : ring.Wf)
    (space : ring.count < ring.capacity) (element : Element) :
    FifoStep ring.capacity ring.contents (ring.enqueue element).contents := by
  rw [wf.contents_enqueue space element]
  exact .send _ _ (by rwa [contents_length])

theorem Wf.fifoStep_dequeue {ring : Ring Element} (wf : ring.Wf) (nonempty : 0 < ring.count) :
    FifoStep ring.capacity ring.contents ring.dequeue.2.contents := by
  rw [wf.contents_dequeue nonempty]
  exact .receive _ _

/-! ### The history of a ring -/

/-- The ring is a bounded FIFO queue through which `sent` has been put and `received` taken:
the representation invariant holds, and what was sent is what was received followed by the
live elements. -/
structure Represents (ring : Ring Element) (sent received : List Element) : Prop where
  wf : ring.Wf
  history : sent = received ++ ring.contents

namespace Represents

variable {ring : Ring Element} {sent received : List Element}

theorem empty [Inhabited Element] (capacity : Nat) (positive : 0 < capacity) :
    (Ring.empty capacity : Ring Element).Represents [] [] where
  wf := wf_empty capacity positive
  history := rfl

theorem enqueue (represents : ring.Represents sent received)
    (space : ring.count < ring.capacity) (element : Element) :
    (ring.enqueue element).Represents (sent ++ [element]) received where
  wf := represents.wf.enqueue space element
  history := by
    rw [represents.wf.contents_enqueue space element, represents.history, List.append_assoc]

theorem dequeue (represents : ring.Represents sent received) (nonempty : 0 < ring.count) :
    ring.dequeue.2.Represents sent (received ++ [ring.dequeue.1]) where
  wf := represents.wf.release nonempty
  history := by
    rw [represents.history, represents.wf.contents_dequeue nonempty, List.append_assoc,
      List.singleton_append]

/-- The live slot `offset` places behind the oldest holds the element sent that many places
after the last one received. -/
theorem live_slot (represents : ring.Represents sent received) {offset : Nat}
    (live : offset < ring.count) :
    sent[received.length + offset]? = some (ring.slots (ring.slotOf offset)) := by
  rw [represents.history, List.getElem?_append_right (Nat.le_add_right _ _),
    Nat.add_sub_cancel_left, contents, List.getElem?_map, List.getElem?_range live]
  rfl

end Represents

end Ring

end Nattan
