/-
This file models `Buffer` and gives each of its operations a specification.

The bytes live in one vector between the read and the write index. All indices and
sizes are `size_t`, so the differences `right()`, `left()` and `length()` are taken
modulo `2 ^ 64`; `capacity()` is eight less than the size of the vector, and
`makeSpace` grows the vector by resizing it to a multiple of `capacity()`. A read or
a write outside the vector, and a loop of `makeSpace` that does not end, are faults.

The fill test of `tryArrange` divides doubles. Whether the content is moved to the
front then changes no result, so the test is a parameter here and everything holds
for any function in its place.
-/

import Nattan.Memory
import Mathlib.Order.Basic

namespace Nattan

/-! ### `size_t` -/

namespace SizeT

def add (first second : Nat) : Nat :=
  (first + second) % 2 ^ 64

def sub (first second : Nat) : Nat :=
  (first + (2 ^ 64 - second % 2 ^ 64)) % 2 ^ 64

theorem add_of_lt {first second : Nat} (small : first + second < 2 ^ 64) :
    add first second = first + second :=
  Nat.mod_eq_of_lt small

theorem sub_of_le {first second : Nat} (ordered : second ≤ first) (small : first < 2 ^ 64) :
    sub first second = first - second := by
  unfold sub
  omega

end SizeT

/-- The members of a `Buffer`. -/
structure Buffer where
  fData : List UInt8
  fReadIdx : Nat
  fWriteIdx : Nat
  deriving DecidableEq, Repr

/-- What a caller of an operation gets: the bytes handed out and the value returned. -/
structure Reply where
  bytes : List UInt8
  value : Nat
  deriving DecidableEq, Repr

namespace Buffer

def kBufferPrefixed : Nat := 8

/-- `Buffer(init_size)`. -/
def new (init_size : UInt32) : Buffer where
  fData := List.replicate (if kBufferPrefixed < init_size.toNat then init_size.toNat else 1024) 0
  fReadIdx := kBufferPrefixed
  fWriteIdx := kBufferPrefixed

section Sizes

variable (buffer : Buffer)

def capacity : Nat :=
  SizeT.sub buffer.fData.length kBufferPrefixed

def length : Nat :=
  SizeT.sub buffer.fWriteIdx buffer.fReadIdx

def right : Nat :=
  SizeT.sub buffer.capacity buffer.fWriteIdx

def left : Nat :=
  SizeT.sub buffer.fReadIdx kBufferPrefixed

end Sizes

/-! ### The operations -/

/-- Move the content to the front. -/
def arrange (buffer : Buffer) : Except Fault Buffer := do
  let count := buffer.fWriteIdx - buffer.fReadIdx
  let fData ← moveDown buffer.fData kBufferPrefixed buffer.fReadIdx count
  return { fData, fReadIdx := kBufferPrefixed, fWriteIdx := kBufferPrefixed + count }

/-- `tryArrange`. `fills` is the test whether the read index is beyond 0.88 of the capacity. -/
def tryArrange (fills : Nat → Nat → Bool) (buffer : Buffer) : Except Fault Buffer :=
  if buffer.fReadIdx = buffer.fWriteIdx then
    .ok { buffer with fReadIdx := kBufferPrefixed, fWriteIdx := kBufferPrefixed }
  else if fills buffer.fReadIdx buffer.capacity then buffer.arrange
  else .ok buffer

def read (fills : Nat → Nat → Bool) (buffer : Buffer) (buf_len : Nat) :
    Except Fault (Buffer × Reply) :=
  let len := min buf_len buffer.length
  if len = 0 then .ok (buffer, ⟨[], 0⟩)
  else do
    let bytes ← copyOut buffer.fData buffer.fReadIdx len
    let buffer ← tryArrange fills { buffer with fReadIdx := SizeT.add buffer.fReadIdx len }
    return (buffer, ⟨bytes, len⟩)

def peek (buffer : Buffer) (buf_len : Nat) : Except Fault (Buffer × Reply) :=
  let len := min buf_len buffer.length
  if len = 0 then .ok (buffer, ⟨[], 0⟩)
  else do
    let bytes ← copyOut buffer.fData buffer.fReadIdx len
    return (buffer, ⟨bytes, len⟩)

/-- The value of a `size_t` converted to an `int`. -/
def toInt (size : Nat) : Int :=
  if size % 2 ^ 32 < 2 ^ 31 then (size % 2 ^ 32 : Nat) else ((size % 2 ^ 32 : Nat) : Int) - 2 ^ 32

/-- `shrink`. The number of bytes to drop goes through an `int`. -/
def shrink (fills : Nat → Nat → Bool) (buffer : Buffer) (len : Nat) :
    Except Fault (Buffer × Reply) := do
  let l := toInt (min buffer.length len)
  let fReadIdx := ((buffer.fReadIdx + l) % (2 ^ 64 : Int)).toNat
  let buffer ← tryArrange fills { buffer with fReadIdx }
  return (buffer, ⟨[], (l % (2 ^ 64 : Int)).toNat⟩)

def clear (buffer : Buffer) : Buffer :=
  { buffer with fReadIdx := kBufferPrefixed, fWriteIdx := kBufferPrefixed }

def resize (buffer : Buffer) (size : Nat) : Buffer :=
  { buffer with fData := resized buffer.fData size }

/-- The doubling loop of `makeSpace`, `while(rz - length() < len) rz <<= 1`. After 64 turns `rz`
is zero and does not change any more. -/
def double (length len : Nat) : Nat → Nat → Except Fault Nat
  | 0, _ => .error .outOfFuel
  | turns + 1, rz =>
    if SizeT.sub rz length < len then double length len turns (2 * rz % 2 ^ 64) else .ok rz

/-- `makeSpace`, with fuel for its outer loop. -/
def makeSpace (len : Nat) : Nat → Buffer → Except Fault Buffer
  | 0, _ => .error .outOfFuel
  | fuel + 1, buffer =>
    if buffer.right ≤ len then
      if len < SizeT.add buffer.right buffer.left then do
        let buffer ← buffer.arrange
        makeSpace len fuel buffer
      else do
        let rz ← double buffer.length len 65 buffer.capacity
        makeSpace len fuel (buffer.resize rz)
    else .ok buffer

def write (fuel : Nat) (buffer : Buffer) (bytes : List UInt8) : Except Fault (Buffer × Reply) := do
  let buffer ← makeSpace bytes.length fuel buffer
  let fData ← copyIn buffer.fData buffer.fWriteIdx bytes
  return ({ buffer with fData, fWriteIdx := SizeT.add buffer.fWriteIdx bytes.length },
    ⟨[], bytes.length⟩)

/-- The private `fill(c, len)`; `c` is a null pointer when the caller has stored the bytes. -/
def fillWith (buffer : Buffer) (c : Option UInt8) (len : Nat) : Except Fault (Buffer × Reply) := do
  let buffer := if buffer.right < len then buffer.resize (SizeT.add buffer.length len) else buffer
  let fData ← match c with
    | none => .ok buffer.fData
    | some c =>
      if buffer.fWriteIdx ≤ buffer.fData.length then
        .ok (buffer.fData.take buffer.fWriteIdx ++
          (List.replicate len c ++ buffer.fData.drop buffer.fWriteIdx))
      else .error (.outOfBounds buffer.fWriteIdx)
  return ({ buffer with fData, fWriteIdx := SizeT.add buffer.fWriteIdx len }, ⟨[], len⟩)

def fill (buffer : Buffer) (len : Nat) : Except Fault (Buffer × Reply) :=
  buffer.fillWith none len

/-- The operations of a caller. `fill bytes` stands for storing the bytes at `end()` and calling
`fill` with their number. -/
inductive Op where
  | write (bytes : List UInt8)
  | read (buf_len : Nat)
  | peek (buf_len : Nat)
  | shrink (len : Nat)
  | fill (bytes : List UInt8)
  | clear
  deriving DecidableEq, Repr

def apply (fills : Nat → Nat → Bool) (fuel : Nat) (buffer : Buffer) :
    Op → Except Fault (Buffer × Reply)
  | .write bytes => buffer.write fuel bytes
  | .read buf_len => buffer.read fills buf_len
  | .peek buf_len => buffer.peek buf_len
  | .shrink len => buffer.shrink fills len
  | .fill bytes => do
    let fData ← copyIn buffer.fData buffer.fWriteIdx bytes
    fill { buffer with fData } bytes.length
  | .clear => .ok (buffer.clear, ⟨[], 0⟩)

/-! ### Well-formed buffers -/

/-- The unread bytes. -/
def content (buffer : Buffer) : List UInt8 :=
  slice buffer.fData buffer.fReadIdx (buffer.fWriteIdx - buffer.fReadIdx)

/-- The indices are in order, behind the prefix and eight bytes in front of the end. -/
structure Wf (buffer : Buffer) : Prop where
  prefixed : kBufferPrefixed ≤ buffer.fReadIdx
  ordered : buffer.fReadIdx ≤ buffer.fWriteIdx
  room : buffer.fWriteIdx + kBufferPrefixed ≤ buffer.fData.length

/-- The indices are in order, behind the prefix and inside the vector, and numbers of type
`size_t`. -/
structure Consistent (buffer : Buffer) : Prop where
  prefixed : kBufferPrefixed ≤ buffer.fReadIdx
  ordered : buffer.fReadIdx ≤ buffer.fWriteIdx
  inside : buffer.fWriteIdx ≤ buffer.fData.length
  representable : buffer.fWriteIdx < 2 ^ 64

/-- A well-formed buffer whose vector has a size that a vector can have. -/
structure Sized (buffer : Buffer) : Prop extends Wf buffer where
  bounded : buffer.fData.length < 2 ^ 63

namespace Consistent

variable {buffer : Buffer}

theorem length_eq (consistent : Consistent buffer) :
    buffer.length = buffer.fWriteIdx - buffer.fReadIdx :=
  SizeT.sub_of_le consistent.ordered consistent.representable

theorem length_content (consistent : Consistent buffer) :
    buffer.content.length = buffer.length := by
  have ordered := consistent.ordered
  have inside := consistent.inside
  rw [content, length_slice (by omega), consistent.length_eq]

/-- Dropping bytes at the front. -/
theorem drop (consistent : Consistent buffer) {count : Nat} (some : count ≤ buffer.length) :
    Consistent { buffer with fReadIdx := buffer.fReadIdx + count } ∧
      content { buffer with fReadIdx := buffer.fReadIdx + count } = buffer.content.drop count := by
  have prefixed := consistent.prefixed
  have ordered := consistent.ordered
  rw [consistent.length_eq] at some
  refine ⟨⟨?_, ?_, consistent.inside, consistent.representable⟩, ?_⟩
  · show kBufferPrefixed ≤ buffer.fReadIdx + count
    omega
  · show buffer.fReadIdx + count ≤ buffer.fWriteIdx
    omega
  · simp only [content, slice]
    rw [List.drop_take, List.drop_drop]
    congr 1
    omega

end Consistent

namespace Sized

variable {buffer : Buffer}

theorem consistent (sized : Sized buffer) : Consistent buffer := by
  have room := sized.room
  have bounded := sized.bounded
  exact ⟨sized.prefixed, sized.ordered, by omega, by omega⟩

/-- Moving the write index down leaves a sized buffer sized. -/
theorem of_consistent {after : Buffer} (sized : Sized buffer) (consistent : Consistent after)
    (size : after.fData.length = buffer.fData.length)
    (lower : after.fWriteIdx ≤ buffer.fWriteIdx) : Sized after := by
  have room := sized.room
  have bounded := sized.bounded
  exact ⟨⟨consistent.prefixed, consistent.ordered, by omega⟩, by omega⟩

theorem length_eq (sized : Sized buffer) :
    buffer.length = buffer.fWriteIdx - buffer.fReadIdx :=
  sized.consistent.length_eq

theorem length_content (sized : Sized buffer) : buffer.content.length = buffer.length :=
  sized.consistent.length_content

theorem capacity_eq (sized : Sized buffer) : buffer.capacity = buffer.fData.length - 8 := by
  have bounded := sized.bounded
  have room := sized.room
  have prefixed : 8 ≤ buffer.fReadIdx := sized.prefixed
  have ordered := sized.ordered
  exact SizeT.sub_of_le (by rw [kBufferPrefixed]; omega) (by omega)

theorem right_eq (sized : Sized buffer) :
    buffer.right = buffer.fData.length - 8 - buffer.fWriteIdx := by
  have bounded := sized.bounded
  have room : buffer.fWriteIdx + 8 ≤ buffer.fData.length := sized.room
  rw [right, sized.capacity_eq]
  exact SizeT.sub_of_le (by omega) (by omega)

theorem left_eq (sized : Sized buffer) : buffer.left = buffer.fReadIdx - 8 := by
  have bounded := sized.bounded
  have room := sized.room
  have ordered := sized.ordered
  exact SizeT.sub_of_le sized.prefixed (by omega)

end Sized

/-! ### What the consuming operations do -/

section Consuming

variable {fills : Nat → Nat → Bool} {buffer : Buffer}

/-- `arrange` keeps the content and the size and leaves nothing on the left. -/
theorem arrange_consistent (consistent : Consistent buffer) :
    ∃ after, buffer.arrange = .ok after ∧ Consistent after ∧ after.content = buffer.content ∧
      after.fData.length = buffer.fData.length ∧ after.fReadIdx = kBufferPrefixed ∧
      after.fWriteIdx = kBufferPrefixed + buffer.length := by
  have prefixed := consistent.prefixed
  have ordered := consistent.ordered
  have inside := consistent.inside
  have representable := consistent.representable
  obtain ⟨fData, moved, same, block⟩ := slice_moveDown prefixed
    (show buffer.fReadIdx + (buffer.fWriteIdx - buffer.fReadIdx) ≤ buffer.fData.length by omega)
  refine ⟨_, by rw [arrange, moved, ok_bind]; rfl,
    ⟨Nat.le_refl _, Nat.le_add_right _ _, ?_, ?_⟩, ?_,
    same, rfl, by rw [consistent.length_eq]⟩
  · show kBufferPrefixed + (buffer.fWriteIdx - buffer.fReadIdx) ≤ fData.length
    omega
  · show kBufferPrefixed + (buffer.fWriteIdx - buffer.fReadIdx) < 2 ^ 64
    omega
  · simp only [content, Nat.add_sub_cancel_left]
    exact block

/-- `tryArrange` keeps the content, whatever the fill test says, and does not move the write
index up. -/
theorem tryArrange_consistent (fills : Nat → Nat → Bool) (consistent : Consistent buffer) :
    ∃ after, tryArrange fills buffer = .ok after ∧ Consistent after ∧
      after.content = buffer.content ∧ after.fData.length = buffer.fData.length ∧
      after.fWriteIdx ≤ buffer.fWriteIdx := by
  have prefixed := consistent.prefixed
  have ordered := consistent.ordered
  have inside := consistent.inside
  have representable := consistent.representable
  unfold tryArrange
  split
  · rename_i empty
    refine ⟨_, rfl, ⟨Nat.le_refl _, Nat.le_refl _, ?_, ?_⟩, ?_, rfl, ?_⟩
    · show kBufferPrefixed ≤ buffer.fData.length
      omega
    · show kBufferPrefixed < 2 ^ 64
      omega
    · simp [content, slice, empty]
    · show kBufferPrefixed ≤ buffer.fWriteIdx
      omega
  · split
    · obtain ⟨after, arranged, consistentAfter, same, size, -, writeIdx⟩ :=
        arrange_consistent consistent
      refine ⟨after, arranged, consistentAfter, same, size, ?_⟩
      rw [writeIdx, consistent.length_eq]
      omega
    · exact ⟨buffer, rfl, consistent, rfl, rfl, Nat.le_refl _⟩

theorem copyOut_content (consistent : Consistent buffer) {count : Nat}
    (some : count ≤ buffer.length) :
    copyOut buffer.fData buffer.fReadIdx count = .ok (buffer.content.take count) := by
  have ordered := consistent.ordered
  have inside := consistent.inside
  rw [consistent.length_eq] at some
  rw [copyOut_of_le (by omega), content, slice, slice, List.take_take, Nat.min_eq_left some]

theorem take_min_length (consistent : Consistent buffer) (buf_len : Nat) :
    buffer.content.take (min buf_len buffer.length) = buffer.content.take buf_len := by
  rw [← consistent.length_content, List.take_eq_take_iff]
  omega

theorem drop_min_length (consistent : Consistent buffer) (buf_len : Nat) :
    buffer.content.drop (min buf_len buffer.length) = buffer.content.drop buf_len := by
  rw [← consistent.length_content, List.drop_eq_drop_iff]
  omega

/-- `read` hands out the first bytes of the content and drops them. -/
theorem read_consistent (consistent : Consistent buffer) (buf_len : Nat) :
    ∃ after, read fills buffer buf_len =
        .ok (after, ⟨buffer.content.take buf_len, min buf_len buffer.content.length⟩) ∧
      Consistent after ∧ after.content = buffer.content.drop buf_len ∧
      after.fData.length = buffer.fData.length ∧ after.fWriteIdx ≤ buffer.fWriteIdx := by
  have ordered := consistent.ordered
  have representable := consistent.representable
  have whole := consistent.length_eq
  have some : min buf_len buffer.length ≤ buffer.length := Nat.min_le_right _ _
  rw [read, consistent.length_content, ← take_min_length consistent,
    ← drop_min_length consistent]
  by_cases nothing : min buf_len buffer.length = 0
  · refine ⟨buffer, ?_, consistent, ?_, rfl, Nat.le_refl _⟩
    · rw [if_pos nothing, nothing]
      rfl
    · rw [nothing]
      rfl
  · obtain ⟨consistentDropped, dropped⟩ := consistent.drop some
    obtain ⟨after, arranged, consistentAfter, same, size, lower⟩ :=
      tryArrange_consistent fills consistentDropped
    refine ⟨after, ?_, consistentAfter, same.trans dropped, size, lower⟩
    rw [if_neg nothing, copyOut_content consistent some, ok_bind, SizeT.add_of_lt (by omega),
      arranged]
    rfl

/-- `peek` hands out the first bytes of the content and changes nothing. -/
theorem peek_consistent (consistent : Consistent buffer) (buf_len : Nat) :
    peek buffer buf_len =
      .ok (buffer, ⟨buffer.content.take buf_len, min buf_len buffer.content.length⟩) := by
  have some : min buf_len buffer.length ≤ buffer.length := Nat.min_le_right _ _
  rw [peek, consistent.length_content, ← take_min_length consistent]
  by_cases nothing : min buf_len buffer.length = 0
  · rw [if_pos nothing, nothing]
    rfl
  · rw [if_neg nothing, copyOut_content consistent some]
    rfl

theorem toInt_of_lt {size : Nat} (small : size < 2 ^ 31) : toInt size = size := by
  unfold toInt
  omega

/-- `shrink` drops the first bytes of the content, as long as their number is an `int`. -/
theorem shrink_consistent (consistent : Consistent buffer) {len : Nat}
    (small : min buffer.content.length len < 2 ^ 31) :
    ∃ after, shrink fills buffer len =
        .ok (after, ⟨[], min buffer.content.length len⟩) ∧
      Consistent after ∧ after.content = buffer.content.drop len ∧
      after.fData.length = buffer.fData.length ∧ after.fWriteIdx ≤ buffer.fWriteIdx := by
  have ordered := consistent.ordered
  have representable := consistent.representable
  have whole := consistent.length_eq
  rw [consistent.length_content] at small ⊢
  have some : min buffer.length len ≤ buffer.length := Nat.min_le_left _ _
  obtain ⟨consistentDropped, dropped⟩ := consistent.drop some
  obtain ⟨after, arranged, consistentAfter, same, size, lower⟩ :=
    tryArrange_consistent fills consistentDropped
  have index : ((buffer.fReadIdx + ((min buffer.length len : Nat) : Int)) % (2 ^ 64 : Int)).toNat =
      buffer.fReadIdx + min buffer.length len := by
    omega
  have value : (((min buffer.length len : Nat) : Int) % (2 ^ 64 : Int)).toNat =
      min buffer.length len := by
    omega
  refine ⟨after, ?_, consistentAfter, ?_, size, lower⟩
  · rw [shrink, toInt_of_lt small, index, value, arranged]
    rfl
  · rw [same, dropped, Nat.min_comm, drop_min_length consistent]

/-- `clear` leaves nothing. -/
theorem clear_consistent (consistent : Consistent buffer) :
    Consistent buffer.clear ∧ buffer.clear.content = [] := by
  have prefixed := consistent.prefixed
  have ordered := consistent.ordered
  have inside := consistent.inside
  refine ⟨⟨Nat.le_refl _, Nat.le_refl _, ?_, ?_⟩, ?_⟩
  · show kBufferPrefixed ≤ buffer.fData.length
    omega
  · show kBufferPrefixed < 2 ^ 64
    decide
  · simp [clear, content, slice]

/-- The state condition of the consuming side: a consistent buffer whose number of unread bytes is
an `int`. -/
structure Consumable (buffer : Buffer) : Prop extends Consistent buffer where
  few : buffer.fWriteIdx - buffer.fReadIdx < 2 ^ 31

theorem Consistent.consumable (consistent : Consistent buffer)
    (few : buffer.content.length < 2 ^ 31) : Consumable buffer := by
  refine ⟨consistent, ?_⟩
  rw [← consistent.length_eq, ← consistent.length_content]
  exact few

theorem Consumable.few_content (consumable : Consumable buffer) :
    buffer.content.length < 2 ^ 31 := by
  rw [consumable.length_content, consumable.length_eq]
  exact consumable.few

/-- The operation ended in a state that satisfies the condition again and holds these bytes. -/
def Leaves (result : Except Fault Buffer) (bytes : List UInt8) : Prop :=
  ∃ after, result = .ok after ∧ Consumable after ∧ after.content = bytes

/-- The operation gave this reply and left these bytes. -/
def Answers (result : Except Fault (Buffer × Reply)) (reply : Reply) (bytes : List UInt8) : Prop :=
  ∃ after, result = .ok (after, reply) ∧ Leaves (.ok after) bytes

/-- From any state that satisfies the condition, and whatever the fill test says, `read` hands out
the first bytes and leaves the others, `peek` hands them out and changes nothing, `shrink` drops
them, `tryArrange` and `arrange` change no content, `clear` leaves nothing, and the condition holds
again. -/
theorem consuming_exact (fills : Nat → Nat → Bool) (consumable : Consumable buffer) :
    (∀ buf_len, Answers (read fills buffer buf_len)
      ⟨buffer.content.take buf_len, min buf_len buffer.content.length⟩
      (buffer.content.drop buf_len)) ∧
    (∀ buf_len, peek buffer buf_len =
      .ok (buffer, ⟨buffer.content.take buf_len, min buf_len buffer.content.length⟩)) ∧
    (∀ len, Answers (shrink fills buffer len) ⟨[], min buffer.content.length len⟩
      (buffer.content.drop len)) ∧
    Leaves (tryArrange fills buffer) buffer.content ∧
    Leaves buffer.arrange buffer.content ∧
    Leaves (.ok buffer.clear) [] := by
  have few := consumable.few_content
  have consistent := consumable.toConsistent
  have again {after : Buffer} {bytes : List UInt8} (holds : Consistent after)
      (same : after.content = bytes) (fewer : bytes.length ≤ buffer.content.length) :
      Leaves (.ok after) bytes := by
    refine ⟨after, rfl, holds.consumable ?_, same⟩
    rw [same]
    omega
  have rest (count : Nat) :
      (buffer.content.drop count).length ≤ buffer.content.length := by
    rw [List.length_drop]
    omega
  refine ⟨fun buf_len => ?_, peek_consistent consistent, fun len => ?_, ?_, ?_, ?_⟩
  · obtain ⟨after, handed, holds, same, -⟩ := read_consistent consistent buf_len
    exact ⟨after, handed, again holds same (rest buf_len)⟩
  · obtain ⟨after, shrunk, holds, same, -⟩ :=
      shrink_consistent consistent (Nat.lt_of_le_of_lt (Nat.min_le_left _ len) few)
    exact ⟨after, shrunk, again holds same (rest len)⟩
  · obtain ⟨after, arranged, holds, same, -⟩ := tryArrange_consistent fills consistent
    rw [arranged]
    exact again holds same (Nat.le_refl _)
  · obtain ⟨after, arranged, holds, same, -⟩ := arrange_consistent consistent
    rw [arranged]
    exact again holds same (Nat.le_refl _)
  · obtain ⟨holds, empty⟩ := clear_consistent consistent
    exact again holds empty (Nat.zero_le _)

/-- A full vector, read to its middle. -/
def halfRead : Buffer where
  fData := List.replicate 12 0 ++ [1, 2, 3, 4]
  fReadIdx := 12
  fWriteIdx := 16

theorem consuming_exact_halfRead :
    (∀ buf_len, Answers (read (fun _ _ => true) halfRead buf_len)
      ⟨halfRead.content.take buf_len, min buf_len halfRead.content.length⟩
      (halfRead.content.drop buf_len)) ∧
    Leaves halfRead.arrange [1, 2, 3, 4] := by
  have exactly := @consuming_exact halfRead (fun _ _ => true)
    ⟨⟨by decide, by decide, by decide, by decide⟩, by decide⟩
  exact ⟨exactly.1, exactly.2.2.2.2.1⟩

end Consuming

/-! ### What the operations do in a sized buffer -/

section Operations

variable {fills : Nat → Nat → Bool} {buffer : Buffer}

/-- `arrange` keeps the content and the size and leaves nothing on the left. -/
theorem arrange_spec (sized : Sized buffer) :
    ∃ after, buffer.arrange = .ok after ∧ Sized after ∧ after.content = buffer.content ∧
      after.fData.length = buffer.fData.length ∧ after.fReadIdx = kBufferPrefixed ∧
      after.fWriteIdx = kBufferPrefixed + buffer.length := by
  have prefixed := sized.prefixed
  have ordered := sized.ordered
  obtain ⟨after, arranged, consistent, same, size, readIdx, writeIdx⟩ :=
    arrange_consistent sized.consistent
  refine ⟨after, arranged, sized.of_consistent consistent size ?_, same, size, readIdx, writeIdx⟩
  rw [writeIdx, sized.length_eq]
  omega

/-- `read` hands out the first bytes of the content and drops them. -/
theorem read_spec (sized : Sized buffer) (buf_len : Nat) :
    ∃ after, read fills buffer buf_len =
        .ok (after, ⟨buffer.content.take buf_len, min buf_len buffer.content.length⟩) ∧
      Sized after ∧ after.content = buffer.content.drop buf_len := by
  obtain ⟨after, handed, consistent, rest, size, lower⟩ :=
    read_consistent sized.consistent buf_len
  exact ⟨after, handed, sized.of_consistent consistent size lower, rest⟩

/-- `peek` hands out the first bytes of the content and changes nothing. -/
theorem peek_spec (sized : Sized buffer) (buf_len : Nat) :
    peek buffer buf_len =
      .ok (buffer, ⟨buffer.content.take buf_len, min buf_len buffer.content.length⟩) :=
  peek_consistent sized.consistent buf_len

/-- `shrink` drops the first bytes of the content, as long as their number is an `int`. -/
theorem shrink_spec (sized : Sized buffer) {len : Nat}
    (small : min buffer.content.length len < 2 ^ 31) :
    ∃ after, shrink fills buffer len =
        .ok (after, ⟨[], min buffer.content.length len⟩) ∧
      Sized after ∧ after.content = buffer.content.drop len := by
  obtain ⟨after, shrunk, consistent, rest, size, lower⟩ :=
    shrink_consistent sized.consistent small
  exact ⟨after, shrunk, sized.of_consistent consistent size lower, rest⟩

/-- `shrink` of the whole content is `clear`. -/
theorem shrink_all (fills : Nat → Nat → Bool) (sized : Sized buffer)
    (small : buffer.content.length < 2 ^ 31) :
    shrink fills buffer buffer.content.length =
      .ok (buffer.clear, ⟨[], buffer.content.length⟩) := by
  have bounded := sized.bounded
  have ordered := sized.ordered
  have room := sized.room
  have whole := sized.length_eq
  rw [sized.length_content] at small ⊢
  have index : ((buffer.fReadIdx + (buffer.length : Int)) % (2 ^ 64 : Int)).toNat =
      buffer.fWriteIdx := by
    omega
  have value : ((buffer.length : Int) % (2 ^ 64 : Int)).toNat = buffer.length := by
    omega
  rw [shrink, Nat.min_self, toInt_of_lt small, index, value, tryArrange, if_pos rfl]
  rfl

/-- `clear` leaves nothing. -/
theorem clear_spec (sized : Sized buffer) : Sized buffer.clear ∧ buffer.clear.content = [] := by
  have prefixed := sized.prefixed
  have ordered := sized.ordered
  obtain ⟨consistent, empty⟩ := clear_consistent sized.consistent
  exact ⟨sized.of_consistent consistent rfl (show kBufferPrefixed ≤ buffer.fWriteIdx by omega),
    empty⟩

/-- A resize that leaves the write index its room keeps the content. -/
theorem resize_spec (sized : Sized buffer) {size : Nat} (room : buffer.fWriteIdx + 8 ≤ size)
    (small : size < 2 ^ 63) :
    Sized (buffer.resize size) ∧ (buffer.resize size).content = buffer.content := by
  have ordered := sized.ordered
  have inside := sized.room
  refine ⟨⟨⟨sized.prefixed, sized.ordered, ?_⟩, ?_⟩, ?_⟩
  · rw [resize, length_resized]
    exact room
  · rw [resize, length_resized]
    exact small
  · show slice (resized buffer.fData size) buffer.fReadIdx
      (buffer.fWriteIdx - buffer.fReadIdx) = buffer.content
    exact slice_resized (by omega) (by omega)

/-- Bytes stored at `end()` become content when the write index moves behind them. -/
theorem append_spec (sized : Sized buffer) {bytes : List UInt8}
    (fits : bytes.length ≤ buffer.right) :
    ∃ fData, copyIn buffer.fData buffer.fWriteIdx bytes = .ok fData ∧
      fData.length = buffer.fData.length ∧
      Sized { buffer with fData, fWriteIdx := buffer.fWriteIdx + bytes.length } ∧
      content { buffer with fData, fWriteIdx := buffer.fWriteIdx + bytes.length } =
        buffer.content ++ bytes := by
  have bounded := sized.bounded
  have ordered := sized.ordered
  have room : buffer.fWriteIdx + 8 ≤ buffer.fData.length := sized.room
  rw [sized.right_eq] at fits
  obtain ⟨fData, copied, same, block⟩ := copyIn_of_le
    (show buffer.fWriteIdx + bytes.length ≤ buffer.fData.length by omega)
  refine ⟨fData, copied, same, ⟨⟨sized.prefixed, ?_, ?_⟩, ?_⟩, ?_⟩
  · show buffer.fReadIdx ≤ buffer.fWriteIdx + bytes.length
    omega
  · show buffer.fWriteIdx + bytes.length + 8 ≤ fData.length
    omega
  · show fData.length < 2 ^ 63
    omega
  · rw [content, content, ← block _ ordered]
    congr 1
    show buffer.fWriteIdx + bytes.length - buffer.fReadIdx = _
    omega

/-- `fill` makes the bytes that the caller stored part of the content. -/
theorem fill_spec (sized : Sized buffer) {bytes : List UInt8} (fits : bytes.length ≤ buffer.right) :
    ∃ after, (do
        let fData ← copyIn buffer.fData buffer.fWriteIdx bytes
        fill { buffer with fData } bytes.length) = .ok (after, ⟨[], bytes.length⟩) ∧
      Sized after ∧ after.content = buffer.content ++ bytes ∧
      after.fData.length = buffer.fData.length := by
  have bounded := sized.bounded
  have room : buffer.fWriteIdx + 8 ≤ buffer.fData.length := sized.room
  obtain ⟨fData, copied, same, sizedAfter, appended⟩ := append_spec sized fits
  have sameRight : right { buffer with fData } = buffer.right := by
    rw [right, right, capacity, capacity, same]
  refine ⟨_, ?_, sizedAfter, appended, same⟩
  rw [sized.right_eq] at fits
  rw [copied, ok_bind, fill, fillWith, if_neg (by rw [sameRight, sized.right_eq]; omega), ok_bind,
    SizeT.add_of_lt (show buffer.fWriteIdx + bytes.length < 2 ^ 64 by omega)]
  rfl

end Operations

end Buffer

end Nattan
