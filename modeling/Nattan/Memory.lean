/-
This file is the small library of checked memory the byte-level models share.

A buffer is a list of bytes, an address is an offset from its start, and the
offset is an integer because a cursor moved by a signed length can go below the
start. A load outside the buffer is a fault that ends the computation, so that
"no load is out of bounds" is a statement about the result. Every read comes with
the two facts its callers need: what it returns when it is inside the buffer, and
that it faults when it is not.
-/

import Mathlib.Algebra.Group.Int.Defs
import Mathlib.Algebra.Group.Nat.Defs
import Mathlib.Data.List.Basic

namespace Nattan

universe u v

/-- Why a computation ended without a result: a load or a store outside the memory, an
exception for an impossible length, or a loop that had not ended when the fuel did. -/
inductive Fault where
  | outOfBounds (index : Int)
  | lengthError
  | outOfFuel
  deriving DecidableEq, Repr

/-- The computation ended with an access outside the memory. -/
def OutOfBounds {Value : Type u} (result : Except Fault Value) : Prop :=
  ∃ index, result = .error (.outOfBounds index)

theorem OutOfBounds.bind {Value : Type u} {Next : Type u} {result : Except Fault Value}
    (faulty : OutOfBounds result) (next : Value → Except Fault Next) :
    OutOfBounds (result >>= next) := by
  obtain ⟨index, rfl⟩ := faulty
  exact ⟨index, rfl⟩

theorem outOfBounds_map_iff {Value : Type u} {Next : Type v} {result : Except Fault Value}
    {next : Value → Next} : OutOfBounds (result.map next) ↔ OutOfBounds result := by
  cases result with
  | ok value => exact iff_of_false (by rintro ⟨_, ⟨⟩⟩) (by rintro ⟨_, ⟨⟩⟩)
  | error fault => simp [OutOfBounds, Except.map]

theorem ok_bind {Value : Type u} {Next : Type u} (value : Value)
    (next : Value → Except Fault Next) : (Except.ok value >>= next) = next value :=
  rfl

theorem not_outOfBounds_ok {Value : Type u} (value : Value) :
    ¬ OutOfBounds (Except.ok value : Except Fault Value) := by
  rintro ⟨index, impossible⟩
  cases impossible

/-! ### Loads -/

/-- The `count` bytes from `index` on are inside the memory. No bytes are inside anywhere. -/
def Within (memory : List UInt8) (index : Int) (count : Nat) : Prop :=
  count = 0 ∨ (0 ≤ index ∧ index + count ≤ memory.length)

instance (memory : List UInt8) (index : Int) (count : Nat) :
    Decidable (Within memory index count) :=
  inferInstanceAs (Decidable (_ ∨ _))

/-- The byte at an offset, zero outside the memory. -/
def byteAt (memory : List UInt8) (index : Int) : UInt8 :=
  memory.getD index.toNat 0

/-- The 16-bit word at an offset, in the order of a little-endian host. -/
def shortAt (memory : List UInt8) (index : Int) : Nat :=
  (byteAt memory index).toNat + 256 * (byteAt memory (index + 1)).toNat

/-- Load one byte. -/
def load (memory : List UInt8) (index : Int) : Except Fault UInt8 :=
  if Within memory index 1 then .ok (byteAt memory index) else .error (.outOfBounds index)

/-- Load a 16-bit word in host order. -/
def loadShort (memory : List UInt8) (index : Int) : Except Fault Nat := do
  let low ← load memory index
  let high ← load memory (index + 1)
  return low.toNat + 256 * high.toNat

/-- Load `count` bytes. -/
def loadBytes (memory : List UInt8) (index : Int) : Nat → Except Fault (List UInt8)
  | 0 => .ok []
  | count + 1 => do
    let byte ← load memory index
    let rest ← loadBytes memory (index + 1) count
    return byte :: rest

/-- Store a 16-bit word in host order at an offset the memory has. -/
def storeShort (memory : List UInt8) (index : Nat) (word : Nat) : List UInt8 :=
  (memory.set index (UInt8.ofNat word)).set (index + 1) (UInt8.ofNat (word / 256))

@[simp]
theorem length_storeShort (memory : List UInt8) (index word : Nat) :
    (storeShort memory index word).length = memory.length := by
  rw [storeShort, List.length_set, List.length_set]

theorem byteAt_storeShort_of_ne {memory : List UInt8} {index word other : Nat}
    (first : other ≠ index) (second : other ≠ index + 1) :
    byteAt (storeShort memory index word) other = byteAt memory other := by
  simp only [byteAt, storeShort, List.getD_eq_getElem?_getD, Int.toNat_natCast]
  rw [List.getElem?_set_ne (Ne.symm second), List.getElem?_set_ne (Ne.symm first)]

theorem shortAt_storeShort_of_disjoint {memory : List UInt8} {index word other : Nat}
    (disjoint : other + 2 ≤ index ∨ index + 2 ≤ other) :
    shortAt (storeShort memory index word) other = shortAt memory other := by
  have next : ((other : Int) + 1) = ((other + 1 : Nat) : Int) := rfl
  rw [shortAt, shortAt, next, byteAt_storeShort_of_ne (by omega) (by omega),
    byteAt_storeShort_of_ne (by omega) (by omega)]

theorem byteAt_storeShort_low {memory : List UInt8} {index word : Nat}
    (inside : index + 2 ≤ memory.length) :
    byteAt (storeShort memory index word) index = UInt8.ofNat word := by
  simp only [byteAt, storeShort, List.getD_eq_getElem?_getD, Int.toNat_natCast]
  rw [List.getElem?_set_ne (by omega), List.getElem?_set_self (by omega)]
  rfl

theorem byteAt_storeShort_high {memory : List UInt8} {index word : Nat}
    (inside : index + 2 ≤ memory.length) :
    byteAt (storeShort memory index word) ((index + 1 : Nat) : Int) = UInt8.ofNat (word / 256) := by
  simp only [byteAt, storeShort, List.getD_eq_getElem?_getD, Int.toNat_natCast]
  rw [List.getElem?_set_self (by rw [List.length_set]; omega)]
  rfl

theorem shortAt_storeShort_self {memory : List UInt8} {index word : Nat}
    (inside : index + 2 ≤ memory.length) (small : word < 0x10000) :
    shortAt (storeShort memory index word) index = word := by
  have next : ((index : Int) + 1) = ((index + 1 : Nat) : Int) := rfl
  rw [shortAt, next, byteAt_storeShort_low inside, byteAt_storeShort_high inside,
    UInt8.toNat_ofNat', UInt8.toNat_ofNat']
  omega

/-- Storing the bytes that are there changes nothing. -/
theorem storeShort_self {memory : List UInt8} {index word : Nat}
    (inside : index + 2 ≤ memory.length) (low : UInt8.ofNat word = byteAt memory index)
    (high : UInt8.ofNat (word / 256) = byteAt memory ((index + 1 : Nat) : Int)) :
    storeShort memory index word = memory := by
  have here : byteAt memory index = memory[index] := by
    rw [byteAt, Int.toNat_natCast, List.getD_eq_getElem?_getD,
      List.getElem?_eq_getElem (by omega)]
    rfl
  have next : byteAt memory ((index + 1 : Nat) : Int) = memory[index + 1] := by
    rw [byteAt, Int.toNat_natCast, List.getD_eq_getElem?_getD,
      List.getElem?_eq_getElem (by omega)]
    rfl
  rw [storeShort, low, here, List.set_getElem_self, high, next, List.set_getElem_self]

theorem within_succ {memory : List UInt8} {index : Int} {count : Nat} :
    Within memory index (count + 1) ↔ Within memory index 1 ∧ Within memory (index + 1) count := by
  unfold Within
  omega

theorem within_add {memory : List UInt8} {index : Int} {first second : Nat} :
    Within memory index (first + second) ↔
      Within memory index first ∧ Within memory (index + first) second := by
  unfold Within
  omega

theorem load_of_within {memory : List UInt8} {index : Int} (within : Within memory index 1) :
    load memory index = .ok (byteAt memory index) :=
  if_pos within

theorem load_of_not_within {memory : List UInt8} {index : Int}
    (outside : ¬ Within memory index 1) : OutOfBounds (load memory index) :=
  ⟨index, if_neg outside⟩

theorem loadShort_of_within {memory : List UInt8} {index : Int}
    (within : Within memory index 2) : loadShort memory index = .ok (shortAt memory index) := by
  obtain ⟨low, high⟩ := within_succ.mp within
  rw [loadShort, load_of_within low, load_of_within high]
  rfl

theorem loadShort_of_not_within {memory : List UInt8} {index : Int}
    (outside : ¬ Within memory index 2) : OutOfBounds (loadShort memory index) := by
  rw [loadShort]
  by_cases low : Within memory index 1
  · rw [load_of_within low]
    have high : ¬ Within memory (index + 1) 1 := fun high => outside (within_succ.mpr ⟨low, high⟩)
    exact (load_of_not_within high).bind _
  · exact (load_of_not_within low).bind _

theorem loadBytes_of_within {memory : List UInt8} {index : Int} {count : Nat}
    (within : Within memory index count) :
    ∃ bytes, loadBytes memory index count = .ok bytes := by
  induction count generalizing index with
  | zero => exact ⟨[], rfl⟩
  | succ count inductionHypothesis =>
    obtain ⟨first, rest⟩ := within_succ.mp within
    obtain ⟨bytes, loaded⟩ := inductionHypothesis rest
    refine ⟨byteAt memory index :: bytes, ?_⟩
    rw [loadBytes, load_of_within first, loaded]
    rfl

theorem loadBytes_of_not_within {memory : List UInt8} {index : Int} {count : Nat}
    (outside : ¬ Within memory index count) : OutOfBounds (loadBytes memory index count) := by
  induction count generalizing index with
  | zero => exact absurd (Or.inl rfl) outside
  | succ count inductionHypothesis =>
    rw [loadBytes]
    by_cases first : Within memory index 1
    · rw [load_of_within first]
      have rest : ¬ Within memory (index + 1) count :=
        fun rest => outside (within_succ.mpr ⟨first, rest⟩)
      exact (inductionHypothesis rest).bind _
    · exact (load_of_not_within first).bind _

/-! ### Blocks of bytes -/

/-- The `count` bytes from `index` on, fewer where the memory ends. -/
def slice (memory : List UInt8) (index count : Nat) : List UInt8 :=
  (memory.drop index).take count

/-- Copy a block out of the memory. -/
def copyOut (memory : List UInt8) (index count : Nat) : Except Fault (List UInt8) :=
  if Within memory index count then .ok (slice memory index count)
  else .error (.outOfBounds index)

/-- Copy a block into the memory. -/
def copyIn (memory : List UInt8) (index : Nat) (bytes : List UInt8) : Except Fault (List UInt8) :=
  if Within memory index bytes.length then
    .ok (memory.take index ++ (bytes ++ memory.drop (index + bytes.length)))
  else .error (.outOfBounds index)

/-- Move a block towards the start, byte by byte. -/
def moveDown (memory : List UInt8) (target source : Nat) : Nat → Except Fault (List UInt8)
  | 0 => .ok memory
  | count + 1 => do
    let byte ← load memory source
    if target < memory.length then moveDown (memory.set target byte) (target + 1) (source + 1) count
    else .error (.outOfBounds target)

/-- Cut the memory to a size, or extend it by zeros. -/
def resized (memory : List UInt8) (size : Nat) : List UInt8 :=
  memory.take size ++ List.replicate (size - memory.length) 0

@[simp]
theorem length_resized (memory : List UInt8) (size : Nat) :
    (resized memory size).length = size := by
  rw [resized, List.length_append, List.length_take, List.length_replicate]
  omega

theorem length_slice {memory : List UInt8} {index count : Nat}
    (inside : index + count ≤ memory.length) : (slice memory index count).length = count := by
  rw [slice, List.length_take, List.length_drop]
  omega

theorem copyOut_of_le {memory : List UInt8} {index count : Nat}
    (inside : index + count ≤ memory.length) :
    copyOut memory index count = .ok (slice memory index count) :=
  if_pos (Or.inr ⟨by omega, by omega⟩)

/-- A slice that stays is not changed by a resize. -/
theorem slice_resized {memory : List UInt8} {index count size : Nat}
    (inside : index + count ≤ memory.length) (stays : index + count ≤ size) :
    slice (resized memory size) index count = slice memory index count := by
  apply List.ext_getElem?
  intro offset
  simp only [slice, resized, List.getElem?_take, List.getElem?_drop]
  split
  · rw [List.getElem?_append_left (by rw [List.length_take]; omega),
      List.getElem?_take_of_lt (by omega)]
  · rfl

/-- A block inserted behind a slice extends it. -/
theorem slice_insert {memory : List UInt8} (bytes : List UInt8) {start index : Nat}
    (ordered : start ≤ index) (inside : index ≤ memory.length) :
    slice (memory.take index ++ (bytes ++ memory.drop index)) start
      (index - start + bytes.length) = slice memory start (index - start) ++ bytes := by
  have front : (memory.take index).length = index := by
    rw [List.length_take]
    omega
  rw [slice, List.drop_append_of_le_length (by omega), List.take_append,
    List.take_of_length_le (by rw [List.length_drop]; omega), List.length_drop, front,
    Nat.add_sub_cancel_left, List.take_left, slice, List.drop_take]

/-- A block copied behind a slice extends it. -/
theorem copyIn_of_le {memory bytes : List UInt8} {index : Nat}
    (inside : index + bytes.length ≤ memory.length) :
    ∃ after, copyIn memory index bytes = .ok after ∧ after.length = memory.length ∧
      ∀ start, start ≤ index → slice after start (index - start + bytes.length) =
        slice memory start (index - start) ++ bytes := by
  refine ⟨_, if_pos (Or.inr ⟨by omega, by omega⟩), ?_, fun start before => ?_⟩
  · rw [List.length_append, List.length_append, List.length_take, List.length_drop]
    omega
  · have front : (memory.take index).length = index := by
      rw [List.length_take]
      omega
    rw [slice, List.drop_append_of_le_length (by omega), List.take_append,
      List.take_of_length_le (by rw [List.length_drop]; omega), List.length_drop, front,
      Nat.add_sub_cancel_left, List.take_left, slice, List.drop_take]

theorem moveDown_of_le {memory : List UInt8} {target source count : Nat} (down : target ≤ source)
    (inside : source + count ≤ memory.length) :
    moveDown memory target source count =
      .ok (memory.take target ++ (slice memory source count ++ memory.drop (target + count))) := by
  induction count generalizing memory target source with
  | zero => simp [moveDown, slice]
  | succ count inductionHypothesis =>
    have here : source < memory.length := by omega
    have loaded : load memory source = .ok (memory[source]) := by
      rw [load_of_within (Or.inr ⟨by omega, by omega⟩), byteAt, Int.toNat_natCast,
        List.getD_eq_getElem?_getD, List.getElem?_eq_getElem here]
      rfl
    have later : (memory.set target memory[source]).drop (source + 1) = memory.drop (source + 1) :=
      List.drop_set_of_lt (by omega)
    have behind : (memory.set target memory[source]).drop (target + 1 + count) =
        memory.drop (target + (count + 1)) := by
      rw [List.drop_set_of_lt (by omega)]
      congr 1
      omega
    have front : (memory.set target memory[source]).take (target + 1) =
        memory.take target ++ [memory[source]] := by
      rw [List.take_succ_eq_append_getElem (by rw [List.length_set]; omega),
        List.getElem_set_self, List.take_set_of_le Nat.le.refl]
    have block : slice memory source (count + 1) =
        memory[source] :: (memory.drop (source + 1)).take count := by
      rw [slice, List.drop_eq_getElem_cons here, List.take_succ_cons]
    rw [moveDown, loaded, ok_bind, if_pos (by omega),
      inductionHypothesis (by omega) (by rw [List.length_set]; omega), slice, later, behind, front,
      block, List.append_assoc]
    rfl

/-- A block that was moved had its place in the memory, and the size of the memory is the same. -/
theorem moveDown_eq_ok {memory after : List UInt8} {target source count : Nat}
    (moved : moveDown memory target source count = .ok after) :
    after.length = memory.length ∧ (count = 0 ∨ target + count ≤ memory.length) := by
  induction count generalizing memory target source with
  | zero =>
    cases moved
    exact ⟨rfl, Or.inl rfl⟩
  | succ count inductionHypothesis =>
    rw [moveDown] at moved
    by_cases within : Within memory source 1
    case neg =>
      obtain ⟨index, outside⟩ := load_of_not_within within
      rw [outside] at moved
      cases moved
    rw [load_of_within within, ok_bind] at moved
    split at moved
    · obtain ⟨same, fits⟩ := inductionHypothesis moved
      rw [List.length_set] at same fits
      exact ⟨same, Or.inr (by omega)⟩
    · cases moved

/-- A block can be moved, up or down, when both its places are in the memory. -/
theorem moveDown_of_inside {memory : List UInt8} {target source count : Nat}
    (inside : source + count ≤ memory.length) (room : target + count ≤ memory.length) :
    ∃ after, moveDown memory target source count = .ok after := by
  induction count generalizing memory target source with
  | zero => exact ⟨memory, rfl⟩
  | succ count inductionHypothesis =>
    have within : Within memory source 1 := Or.inr ⟨by omega, by omega⟩
    rw [moveDown, load_of_within within, ok_bind, if_pos (by omega)]
    exact inductionHypothesis (by rw [List.length_set]; omega) (by rw [List.length_set]; omega)

/-- The moved block is found at its new place. -/
theorem slice_moveDown {memory : List UInt8} {target source count : Nat} (down : target ≤ source)
    (inside : source + count ≤ memory.length) :
    ∃ after, moveDown memory target source count = .ok after ∧ after.length = memory.length ∧
      slice after target count = slice memory source count := by
  have front : (memory.take target).length = target := by
    rw [List.length_take]
    omega
  refine ⟨_, moveDown_of_le down inside, ?_, ?_⟩
  · rw [List.length_append, List.length_append, length_slice inside, front, List.length_drop]
    omega
  · rw [slice, List.drop_left' front, List.take_left' (length_slice inside)]

/-! ### Loads of a buffer given by its parts -/

section Parts

variable {before after : List UInt8} {index : Int}

theorem load_append (byte : UInt8) (here : index = before.length) :
    load (before ++ byte :: after) index = .ok byte := by
  subst here
  have within : Within (before ++ byte :: after) before.length 1 := by
    refine Or.inr ⟨by omega, ?_⟩
    rw [List.length_append, List.length_cons]
    omega
  rw [load_of_within within, byteAt, Int.toNat_natCast]
  simp

theorem loadShort_append (low high : UInt8) (here : index = before.length) :
    loadShort (before ++ low :: high :: after) index = .ok (low.toNat + 256 * high.toNat) := by
  have second : load (before ++ low :: high :: after) (index + 1) = .ok high := by
    rw [List.append_cons]
    exact load_append high (by simp [here])
  rw [loadShort, load_append low here, second]
  rfl

theorem loadBytes_append (bytes : List UInt8) (here : index = before.length) :
    loadBytes (before ++ (bytes ++ after)) index bytes.length = .ok bytes := by
  induction bytes generalizing before index with
  | nil => rfl
  | cons byte rest inductionHypothesis =>
    have tail : loadBytes (before ++ (byte :: rest ++ after)) (index + 1) rest.length =
        .ok rest := by
      rw [List.cons_append, List.append_cons]
      exact inductionHypothesis (by simp [here])
    rw [List.length_cons, loadBytes, tail, List.cons_append, load_append byte here]
    rfl

end Parts

/-! ### Loads of a memory that goes on -/

section Prefix

variable {memory longer : List UInt8} {index : Int}

theorem byteAt_of_isPrefix (goesOn : memory <+: longer) (within : Within memory index 1) :
    byteAt longer index = byteAt memory index := by
  obtain ⟨rest, rfl⟩ := goesOn
  unfold Within at within
  rw [byteAt, byteAt, List.getD_eq_getElem?_getD, List.getD_eq_getElem?_getD,
    List.getElem?_append_left (by omega)]

theorem shortAt_of_isPrefix (goesOn : memory <+: longer) (within : Within memory index 2) :
    shortAt longer index = shortAt memory index := by
  obtain ⟨low, high⟩ := within_succ.mp within
  rw [shortAt, shortAt, byteAt_of_isPrefix goesOn low, byteAt_of_isPrefix goesOn high]

theorem Within.of_isPrefix {count : Nat} (within : Within memory index count)
    (goesOn : memory <+: longer) : Within longer index count := by
  have longerLength := goesOn.length_le
  unfold Within at within ⊢
  omega

theorem load_of_isPrefix {byte : UInt8} (goesOn : memory <+: longer)
    (loaded : load memory index = .ok byte) : load longer index = .ok byte := by
  by_cases within : Within memory index 1
  · rw [load_of_within within] at loaded
    rw [load_of_within (Within.of_isPrefix within goesOn), byteAt_of_isPrefix goesOn within, loaded]
  · obtain ⟨outside, faulty⟩ := load_of_not_within within
    rw [faulty] at loaded
    cases loaded

theorem loadBytes_of_isPrefix {count : Nat} {bytes : List UInt8} (goesOn : memory <+: longer)
    (loaded : loadBytes memory index count = .ok bytes) :
    loadBytes longer index count = .ok bytes := by
  induction count generalizing index bytes with
  | zero => exact loaded
  | succ count inductionHypothesis =>
    rw [loadBytes] at loaded ⊢
    cases first : load memory index with
    | error fault =>
      rw [first] at loaded
      cases loaded
    | ok byte =>
      rw [first, ok_bind] at loaded
      rw [load_of_isPrefix goesOn first, ok_bind]
      cases others : loadBytes memory (index + 1) count with
      | error fault =>
        rw [others] at loaded
        cases loaded
      | ok rest =>
        rw [others] at loaded
        rw [inductionHypothesis others]
        exact loaded

end Prefix

end Nattan
