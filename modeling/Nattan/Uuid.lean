/-
This file models `UUID::get`, and proves in which runs it never returns the same value
twice.

A value is made of three fields: the time in milliseconds from bit 22 on, the thread id
from bit 12 on, and a sequence number below. The pair of time and sequence number is
never used twice: the sequence number starts again with every new millisecond, and when
it wraps around the call waits for the next one. So the values are distinct as long as
the fields do not run into each other. But they do. The sequence number has 13 bits and
the field has 12, so from the 4097th call in a millisecond on it sets a bit of the
thread id. And the thread id has 10 bits of its own, while the kernel gives ids up to
2^22; the upper bits of a larger one are those of the time, and a thread gets the value
that another thread gets in a later millisecond.
-/

import Mathlib.Algebra.Group.Nat.Defs
import Mathlib.Data.List.Nodup
import Nattan.Transition

namespace Nattan

namespace UUID

/-! ### The values -/

/-- `SEQUENCE_MASK`. -/
def SEQUENCE_MASK : Nat := 2 ^ 13 - 1

/-- What a value is made of. -/
structure Stamp where
  current : Nat
  tid : Nat
  sequence : Nat
  deriving DecidableEq, Repr

/-- `(current << 22) | (tid() << 12) | SEQUENCE`. The thread id is an `int`: it is shifted as one
and then converted to a `long`. -/
def Stamp.value (stamp : Stamp) : BitVec 64 :=
  (BitVec.ofNat 64 stamp.current <<< 22) ||| (BitVec.ofNat 32 stamp.tid <<< 12).signExtend 64 |||
    BitVec.ofNat 64 stamp.sequence

/-- The two variables `get` keeps between calls, the time that the clock has reached, and the
stamps of the values returned. -/
structure State where
  clock : Nat
  LAST_TIME_STAMP : Int
  SEQUENCE : Nat
  returned : List Stamp
  deriving DecidableEq, Repr

def initial : State where
  clock := 0
  LAST_TIME_STAMP := -1
  SEQUENCE := 0
  returned := []

/-- A call of `get` by the thread `tid`. The clock shows `now`; `later` is what it shows when
`tillNextMillis` ends, if it is called. -/
structure Call where
  tid : Nat
  now : Nat
  later : Nat
  deriving DecidableEq, Repr

/-- The state after a call that returns this stamp. -/
def State.stamped (state : State) (stamp : Stamp) : State where
  clock := stamp.current
  LAST_TIME_STAMP := stamp.current
  SEQUENCE := stamp.sequence
  returned := stamp :: state.returned

/-- The sequence number of a call in a millisecond in which there was a call already. -/
def State.next (state : State) : Nat :=
  (state.SEQUENCE + 1) &&& SEQUENCE_MASK

/-- `get`, under a clock that does not go backwards. -/
def get (state : State) (call : Call) : Option State :=
  if call.now < state.clock then none
  else if (call.now : Int) = state.LAST_TIME_STAMP then
    if state.next = 0 then
      if call.later ≤ call.now then none
      else some (state.stamped ⟨call.later, call.tid, state.next⟩)
    else some (state.stamped ⟨call.now, call.tid, state.next⟩)
  else some (state.stamped ⟨call.now, call.tid, 0⟩)

/-! ### The fields -/

/-- The fields do not run into each other. If all thread ids are even, the lowest bit of the field
of the thread id is left to the sequence number. -/
structure Stamp.Apart (evenIds : Bool) (stamp : Stamp) : Prop where
  current : stamp.current < 2 ^ 42
  tid : stamp.tid < 2 ^ 10
  sequence : if evenIds then stamp.tid % 2 = 0 ∧ stamp.sequence < 2 ^ 13
    else stamp.sequence < 2 ^ 12

theorem toNat_shifted_tid {tid : Nat} (small : tid < 2 ^ 10) :
    ((BitVec.ofNat 32 tid <<< 12).signExtend 64).toNat = tid * 2 ^ 12 := by
  have shifted : (BitVec.ofNat 32 tid <<< 12).toNat = tid * 2 ^ 12 := by
    rw [BitVec.toNat_shiftLeft, BitVec.toNat_ofNat, Nat.shiftLeft_eq,
      Nat.mod_eq_of_lt (by omega), Nat.mod_eq_of_lt (by omega)]
  have positive : (BitVec.ofNat 32 tid <<< 12).msb = false := by
    rw [BitVec.msb_eq_false_iff_two_mul_lt, shifted]
    omega
  rw [BitVec.signExtend_eq_setWidth_of_msb_false positive, BitVec.toNat_setWidth, shifted,
    Nat.mod_eq_of_lt (by omega)]

/-- The lower two fields of a stamp are added up. -/
theorem Stamp.Apart.or_sequence {evenIds : Bool} {stamp : Stamp} (apart : stamp.Apart evenIds) :
    2 ^ 12 * stamp.tid ||| stamp.sequence = 2 ^ 12 * stamp.tid + stamp.sequence := by
  have sequence := apart.sequence
  split at sequence
  · obtain ⟨even, bound⟩ := sequence
    have wider : 2 ^ 12 * stamp.tid = 2 ^ 13 * (stamp.tid / 2) := by omega
    rw [wider, ← Nat.two_pow_add_eq_or_of_lt bound]
  · rw [← Nat.two_pow_add_eq_or_of_lt sequence]

theorem Stamp.Apart.low_lt {evenIds : Bool} {stamp : Stamp} (apart : stamp.Apart evenIds) :
    2 ^ 12 * stamp.tid + stamp.sequence < 2 ^ 22 := by
  have tid := apart.tid
  have sequence := apart.sequence
  split at sequence
  · omega
  · omega

/-- Fields that are apart are added up. -/
theorem Stamp.Apart.toNat_value {evenIds : Bool} {stamp : Stamp} (apart : stamp.Apart evenIds) :
    stamp.value.toNat = 2 ^ 22 * stamp.current + (2 ^ 12 * stamp.tid + stamp.sequence) := by
  have currentField : (BitVec.ofNat 64 stamp.current <<< 22).toNat = 2 ^ 22 * stamp.current := by
    have bound := apart.current
    rw [BitVec.toNat_shiftLeft, BitVec.toNat_ofNat, Nat.shiftLeft_eq,
      Nat.mod_eq_of_lt (by omega), Nat.mod_eq_of_lt (by omega), Nat.mul_comm]
  have tidField : ((BitVec.ofNat 32 stamp.tid <<< 12).signExtend 64).toNat =
      2 ^ 12 * stamp.tid := by
    rw [toNat_shifted_tid apart.tid, Nat.mul_comm]
  have sequenceField : (BitVec.ofNat 64 stamp.sequence).toNat = stamp.sequence := by
    have bound := apart.low_lt
    rw [BitVec.toNat_ofNat, Nat.mod_eq_of_lt (by omega)]
  rw [Stamp.value, BitVec.toNat_or, BitVec.toNat_or, currentField, tidField, sequenceField,
    Nat.or_assoc, apart.or_sequence, ← Nat.two_pow_add_eq_or_of_lt apart.low_lt]

/-- Stamps that are apart and have the same value are of the same time and sequence number. -/
theorem Stamp.Apart.value_inj {evenIds : Bool} {first second : Stamp}
    (firstApart : first.Apart evenIds) (secondApart : second.Apart evenIds)
    (same : first.value = second.value) :
    first.current = second.current ∧ first.sequence = second.sequence := by
  have sums := congrArg BitVec.toNat same
  rw [firstApart.toNat_value, secondApart.toNat_value] at sums
  have firstLow := firstApart.low_lt
  have secondLow := secondApart.low_lt
  have firstSequence := firstApart.sequence
  have secondSequence := secondApart.sequence
  cases evenIds with
  | true =>
    obtain ⟨firstEven, firstBound⟩ := firstSequence
    obtain ⟨secondEven, secondBound⟩ := secondSequence
    omega
  | false =>
    have firstBound : first.sequence < 2 ^ 12 := firstSequence
    have secondBound : second.sequence < 2 ^ 12 := secondSequence
    omega

/-! ### What a call does -/

/-- The calls that keep the fields apart: the thread id is below 2^10, the clock below 2^42, and
either all thread ids are even or the call is not the 4097th of its millisecond. -/
def FieldsApart (evenIds : Bool) (state : State) (call : Call) : Prop :=
  call.tid < 2 ^ 10 ∧ call.now < 2 ^ 42 ∧ call.later < 2 ^ 42 ∧
    if evenIds then call.tid % 2 = 0
    else (call.now : Int) = state.LAST_TIME_STAMP → state.SEQUENCE + 1 < 2 ^ 12

instance (evenIds : Bool) (state : State) (call : Call) :
    Decidable (FieldsApart evenIds state call) :=
  inferInstanceAs (Decidable (_ ∧ _ ∧ _ ∧ _))

theorem next_eq_mod (state : State) : state.next = (state.SEQUENCE + 1) % 2 ^ 13 :=
  Nat.and_two_pow_sub_one_eq_mod _ 13

/-- A call returns a stamp of its thread, with the time of one of its readings of the clock. Either
the time is later than that of all calls before and the sequence number zero, or the time is the
same and the sequence number the next one. -/
theorem stamped_of_get {before after : State} {call : Call}
    (bounded : before.LAST_TIME_STAMP ≤ before.clock) (stepped : get before call = some after) :
    ∃ stamp, after = before.stamped stamp ∧ stamp.tid = call.tid ∧
      (stamp.current = call.now ∨ stamp.current = call.later) ∧
      ((before.LAST_TIME_STAMP < stamp.current ∧ stamp.sequence = 0) ∨
        ((call.now : Int) = before.LAST_TIME_STAMP ∧ stamp.current = call.now ∧
          stamp.sequence = before.next ∧ before.next ≠ 0)) := by
  unfold get at stepped
  split at stepped
  · cases stepped
  · rename_i onward
    split at stepped
    · rename_i same
      split at stepped
      · rename_i wrapped
        split at stepped
        · cases stepped
        · rename_i waited
          cases stepped
          exact ⟨_, rfl, rfl, Or.inr rfl, Or.inl ⟨by simp only; omega, wrapped⟩⟩
      · rename_i further
        cases stepped
        exact ⟨_, rfl, rfl, Or.inl rfl, Or.inr ⟨same, rfl, rfl, further⟩⟩
    · rename_i different
      cases stepped
      exact ⟨_, rfl, rfl, Or.inl rfl, Or.inl ⟨by simp only; omega, rfl⟩⟩

/-! ### No value is returned twice -/

/-- The stamps returned are apart and not later than the last one, and their values are
distinct. -/
structure Invariant (evenIds : Bool) (state : State) : Prop where
  clock : state.LAST_TIME_STAMP ≤ state.clock
  sequence : state.SEQUENCE < 2 ^ 13
  earlier : ∀ stamp ∈ state.returned, (stamp.current : Int) < state.LAST_TIME_STAMP ∨
    ((stamp.current : Int) = state.LAST_TIME_STAMP ∧ stamp.sequence ≤ state.SEQUENCE)
  apart : ∀ stamp ∈ state.returned, stamp.Apart evenIds
  distinct : (state.returned.map Stamp.value).Nodup

theorem invariant_initial (evenIds : Bool) : Invariant evenIds initial where
  clock := by decide
  sequence := by decide
  earlier := fun _ member => absurd member List.not_mem_nil
  apart := fun _ member => absurd member List.not_mem_nil
  distinct := List.nodup_nil

/-- A stamp of another time or sequence number than all before it has another value. -/
theorem Invariant.stamped {evenIds : Bool} {state : State} (invariant : Invariant evenIds state)
    {stamp : Stamp} (apart : stamp.Apart evenIds) (bound : stamp.sequence < 2 ^ 13)
    (later : state.LAST_TIME_STAMP < stamp.current ∨
      (state.LAST_TIME_STAMP = stamp.current ∧ state.SEQUENCE < stamp.sequence)) :
    Invariant evenIds (state.stamped stamp) where
  clock := Int.le_refl _
  sequence := bound
  earlier := fun other member => by
    obtain rfl | before := List.mem_cons.mp member
    · exact Or.inr ⟨rfl, Nat.le_refl _⟩
    · have earlier := invariant.earlier other before
      simp only [State.stamped]
      omega
  apart := fun other member => by
    obtain rfl | before := List.mem_cons.mp member
    · exact apart
    · exact invariant.apart other before
  distinct := by
    refine List.nodup_cons.mpr ⟨fun member => ?_, invariant.distinct⟩
    obtain ⟨other, before, same⟩ := List.mem_map.mp member
    have earlier := invariant.earlier other before
    obtain ⟨sameTime, sameSequence⟩ := (invariant.apart other before).value_inj apart same
    omega

theorem Invariant.get {evenIds : Bool} {before after : State} {call : Call}
    (invariant : Invariant evenIds before) (apart : FieldsApart evenIds before call)
    (stepped : get before call = some after) : Invariant evenIds after := by
  obtain ⟨tidBound, nowBound, laterBound, sequenceBound⟩ := apart
  obtain ⟨stamp, rfl, tid, time, fresh⟩ := stamped_of_get invariant.clock stepped
  have next := next_eq_mod before
  have current := invariant.sequence
  have bound : stamp.sequence < 2 ^ 13 := by omega
  refine invariant.stamped ⟨by omega, by omega, ?_⟩ bound (by omega)
  cases evenIds with
  | true =>
    have even : call.tid % 2 = 0 := sequenceBound
    rw [if_pos rfl, tid]
    exact ⟨even, bound⟩
  | false =>
    have small : (call.now : Int) = before.LAST_TIME_STAMP → before.SEQUENCE + 1 < 2 ^ 12 :=
      sequenceBound
    rw [if_neg Bool.false_ne_true]
    omega

/-- In every run whose calls keep the fields apart, all values returned are distinct. -/
theorem get_never_repeats (evenIds : Bool) {state : State}
    (reached : ReachableBy get (FieldsApart evenIds) initial state) :
    (state.returned.map Stamp.value).Nodup :=
  (ReachableBy.invariant (Invariant evenIds) (invariant_initial evenIds)
    (fun _ _ _ invariant apart stepped => invariant.get apart stepped) reached).distinct

/-- Three calls of two threads, two of them in one millisecond. -/
def threeCalls : List Call :=
  [⟨1000, 1700000000000, 0⟩, ⟨1001, 1700000000000, 0⟩, ⟨1000, 1700000000001, 0⟩]

theorem get_never_repeats_threeCalls :
    ∃ state, ReachableBy get (FieldsApart false) initial state ∧ state.returned.length = 3 ∧
      (state.returned.map Stamp.value).Nodup := by
  have executed : ∃ state, runBy get (FieldsApart false) initial threeCalls = some state ∧
      state.returned.length = 3 :=
    ⟨Option.get _ (by decide +kernel), (Option.some_get _).symm, by decide +kernel⟩
  obtain ⟨state, executed, length⟩ := executed
  have reached := reachableBy_of_runBy executed
  exact ⟨state, reached, length, get_never_repeats false reached⟩

/-- A thread with an id above 2^10, and in the next millisecond one whose id has the same lower
bits. -/
def overlappingCalls : List Call :=
  [⟨1029, 1700000000000, 0⟩, ⟨5, 1700000000001, 0⟩]

theorem get_repeats :
    ∃ state, Reachable get initial state ∧ (∀ stamp ∈ state.returned, 0 < stamp.tid ∧
      stamp.tid < 2 ^ 22) ∧ ¬ (state.returned.map Stamp.value).Nodup := by
  have executed : ∃ state, run get initial overlappingCalls = some state ∧
      (∀ stamp ∈ state.returned, 0 < stamp.tid ∧ stamp.tid < 2 ^ 22) ∧
      ¬ (state.returned.map Stamp.value).Nodup :=
    ⟨Option.get _ (by decide +kernel), (Option.some_get _).symm, by decide +kernel,
      by decide +kernel⟩
  obtain ⟨state, executed, ids, repeated⟩ := executed
  exact ⟨state, reachable_of_run executed, ids, repeated⟩

end UUID

end Nattan
