/-
This file proves for which buffers and lengths the loop of `makeSpace` ends.

Each turn of the loop replaces the size of the vector by `nextSize` of it, which
depends only on the size and on the number of bytes to hold. The loop goes on while
the size stays between the room that the write index needs, below which `right()`
wraps, and the size with enough free bytes. Above 32 bytes to hold some doubling
always goes beyond that range. At most 32 bytes leave few sizes in the range, and
with some of them the sizes go round in a circle, as in 16, 8, 16 for a buffer of 16
bytes and 16 bytes to write.

Not every reachable buffer is well formed: `shrink` puts the number of bytes through
an `int`, so with 2 GiB of content the read index can be moved below the prefix or
behind the write index. Such a buffer is too large for the small sizes, and its loop
ends as well.
-/

import Nattan.BufferRefinement
import Mathlib.Data.List.Iterate

namespace Nattan

namespace Buffer

/-! ### Runs of the calls -/

/-- A call that returns, with the fuel its loops take. The vector is never longer than a vector can
be. -/
def call (fills : Nat → Nat → Bool) (buffer : Buffer) : Nat × Op → Option Buffer
  | (fuel, op) =>
    match buffer.apply fills fuel op with
    | .ok (after, _) => if after.fData.length < 2 ^ 63 then some after else none
    | .error _ => none

/-- The calls are `write`, `read`, `shrink` and `clear`. -/
def Basic (_ : Buffer) : Nat × Op → Prop
  | (_, .write _) | (_, .read _) | (_, .shrink _) | (_, .clear) => True
  | (_, .peek _) | (_, .fill _) => False

instance (buffer : Buffer) (call : Nat × Op) : Decidable (Basic buffer call) :=
  match call with
  | (_, .write _) | (_, .read _) | (_, .shrink _) | (_, .clear) => inferInstanceAs (Decidable True)
  | (_, .peek _) | (_, .fill _) => inferInstanceAs (Decidable False)

/-- What is left of the order of the indices in every run: it can be lost only with 2 GiB of
content. -/
structure Placed (buffer : Buffer) : Prop where
  ordered : (kBufferPrefixed ≤ buffer.fReadIdx ∧ buffer.fReadIdx ≤ buffer.fWriteIdx) ∨
    2 ^ 31 ≤ buffer.fWriteIdx
  readIdx : buffer.fReadIdx < 2 ^ 64
  writeIdx : buffer.fWriteIdx < 2 ^ 64

section Calls

variable {fills : Nat → Nat → Bool} {buffer after : Buffer}

theorem placed_of_prefixed (readIdx : buffer.fReadIdx = kBufferPrefixed)
    (ordered : kBufferPrefixed ≤ buffer.fWriteIdx) (small : buffer.fWriteIdx < 2 ^ 64) :
    Placed buffer := by
  refine ⟨Or.inl ⟨?_, ?_⟩, ?_, small⟩
  · omega
  · omega
  · rw [readIdx]
    decide

theorem arrange_eq_ok (arranged : buffer.arrange = .ok after) :
    after.fData.length = buffer.fData.length ∧ after.fReadIdx = 8 ∧
      after.fWriteIdx = 8 + (buffer.fWriteIdx - buffer.fReadIdx) ∧
      (buffer.fWriteIdx - buffer.fReadIdx = 0 ∨ after.fWriteIdx ≤ buffer.fData.length) := by
  rw [arrange] at arranged
  cases moved : moveDown buffer.fData kBufferPrefixed buffer.fReadIdx
      (buffer.fWriteIdx - buffer.fReadIdx) with
  | error fault =>
    rw [moved] at arranged
    cases arranged
  | ok fData =>
    rw [moved] at arranged
    cases arranged
    obtain ⟨same, fits⟩ := moveDown_eq_ok moved
    exact ⟨same, rfl, rfl, fits⟩

theorem placed_of_arrange (bounded : buffer.fData.length < 2 ^ 64)
    (arranged : buffer.arrange = .ok after) :
    Placed after ∧ after.fData.length = buffer.fData.length := by
  obtain ⟨same, readIdx, writeIdx, fits⟩ := arrange_eq_ok arranged
  refine ⟨placed_of_prefixed readIdx ?_ ?_, same⟩
  · rw [kBufferPrefixed]
    omega
  · omega

theorem placed_of_tryArrange (placed : Placed buffer) (bounded : buffer.fData.length < 2 ^ 64)
    (arranged : tryArrange fills buffer = .ok after) : Placed after := by
  unfold tryArrange at arranged
  split at arranged
  · cases arranged
    exact placed_of_prefixed rfl (Nat.le_refl _) (show kBufferPrefixed < 2 ^ 64 by decide)
  · split at arranged
    · exact (placed_of_arrange bounded arranged).1
    · cases arranged
      exact placed

theorem double_lt {length len turns rz size : Nat} (small : rz < 2 ^ 64)
    (doubled : double length len turns rz = .ok size) : size < 2 ^ 64 := by
  induction turns generalizing rz with
  | zero => cases doubled
  | succ turns inductionHypothesis =>
    rw [double] at doubled
    split at doubled
    · exact inductionHypothesis (by omega) doubled
    · cases doubled
      exact small

theorem placed_of_makeSpace {len fuel : Nat} (placed : Placed buffer)
    (bounded : buffer.fData.length < 2 ^ 64) (made : makeSpace len fuel buffer = .ok after) :
    Placed after ∧ after.fData.length < 2 ^ 64 := by
  induction fuel generalizing buffer with
  | zero => cases made
  | succ fuel inductionHypothesis =>
    rw [makeSpace] at made
    split at made
    · split at made
      · cases arranged : buffer.arrange with
        | error fault =>
          rw [arranged] at made
          cases made
        | ok moved =>
          rw [arranged] at made
          obtain ⟨placedMoved, same⟩ := placed_of_arrange bounded arranged
          exact inductionHypothesis placedMoved (by omega) made
      · cases grown : double buffer.length len 65 buffer.capacity with
        | error fault =>
          rw [grown] at made
          cases made
        | ok rz =>
          rw [grown] at made
          refine @inductionHypothesis (buffer.resize rz)
            ⟨placed.ordered, placed.readIdx, placed.writeIdx⟩ ?_ made
          show (resized buffer.fData rz).length < 2 ^ 64
          rw [length_resized]
          exact double_lt (Nat.mod_lt _ (by decide)) grown
    · cases made
      exact ⟨placed, bounded⟩

theorem placed_of_write {fuel : Nat} {bytes : List UInt8} {reply : Reply} (placed : Placed buffer)
    (bounded : buffer.fData.length < 2 ^ 64)
    (written : buffer.write fuel bytes = .ok (after, reply)) : Placed after := by
  rw [write] at written
  cases made : makeSpace bytes.length fuel buffer with
  | error fault =>
    rw [made] at written
    cases written
  | ok spaced =>
    obtain ⟨placedSpaced, size⟩ := placed_of_makeSpace placed bounded made
    have ordered := placedSpaced.ordered
    have writeIdx := placedSpaced.writeIdx
    rw [made, ok_bind] at written
    by_cases within : Within spaced.fData spaced.fWriteIdx bytes.length
    · rw [copyIn, if_pos within, ok_bind] at written
      have sum : SizeT.add spaced.fWriteIdx bytes.length = spaced.fWriteIdx + bytes.length := by
        refine SizeT.add_of_lt ?_
        rcases within with empty | ⟨-, fits⟩ <;> omega
      cases written
      refine ⟨?_, placedSpaced.readIdx, Nat.mod_lt _ (by decide)⟩
      show (kBufferPrefixed ≤ spaced.fReadIdx ∧
          spaced.fReadIdx ≤ SizeT.add spaced.fWriteIdx bytes.length) ∨
        2 ^ 31 ≤ SizeT.add spaced.fWriteIdx bytes.length
      omega
    · rw [copyIn, if_neg within] at written
      cases written

theorem placed_of_read {buf_len : Nat} {reply : Reply} (placed : Placed buffer)
    (bounded : buffer.fData.length < 2 ^ 64)
    (handed : buffer.read fills buf_len = .ok (after, reply)) : Placed after := by
  rw [read] at handed
  split at handed
  · cases handed
    exact placed
  · by_cases within : Within buffer.fData buffer.fReadIdx (min buf_len buffer.length)
    · rw [copyOut, if_pos within, ok_bind] at handed
      cases arranged : tryArrange fills { buffer with
          fReadIdx := SizeT.add buffer.fReadIdx (min buf_len buffer.length) } with
      | error fault =>
        rw [arranged] at handed
        cases handed
      | ok dropped =>
        rw [arranged] at handed
        cases handed
        refine placed_of_tryArrange ?_ (by exact bounded) arranged
        refine ⟨?_, Nat.mod_lt _ (by decide), placed.writeIdx⟩
        have ordered := placed.ordered
        have readIdx := placed.readIdx
        have writeIdx := placed.writeIdx
        rcases ordered with ⟨prefixed, ordered⟩ | many
        · have whole : buffer.length = buffer.fWriteIdx - buffer.fReadIdx :=
            SizeT.sub_of_le ordered writeIdx
          have sum : SizeT.add buffer.fReadIdx (min buf_len buffer.length) =
              buffer.fReadIdx + min buf_len buffer.length := SizeT.add_of_lt (by omega)
          refine Or.inl ?_
          show kBufferPrefixed ≤ SizeT.add buffer.fReadIdx (min buf_len buffer.length) ∧
            SizeT.add buffer.fReadIdx (min buf_len buffer.length) ≤ buffer.fWriteIdx
          rw [sum]
          omega
        · exact Or.inr many
    · rw [copyOut, if_neg within] at handed
      cases handed

theorem placed_of_shrink {len : Nat} {reply : Reply} (placed : Placed buffer)
    (bounded : buffer.fData.length < 2 ^ 64)
    (shrunk : buffer.shrink fills len = .ok (after, reply)) : Placed after := by
  rw [shrink] at shrunk
  cases arranged : tryArrange fills { buffer with
      fReadIdx := ((buffer.fReadIdx + toInt (min buffer.length len)) % (2 ^ 64 : Int)).toNat } with
  | error fault =>
    simp only [arranged] at shrunk
    cases shrunk
  | ok dropped =>
    simp only [arranged] at shrunk
    cases shrunk
    refine placed_of_tryArrange ?_ (by exact bounded) arranged
    refine ⟨?_, ?_, placed.writeIdx⟩
    · have ordered := placed.ordered
      have writeIdx := placed.writeIdx
      rcases ordered with ⟨prefixed, ordered⟩ | many
      · have whole : buffer.length = buffer.fWriteIdx - buffer.fReadIdx :=
          SizeT.sub_of_le ordered writeIdx
        by_cases few : min buffer.length len < 2 ^ 31
        · refine Or.inl ?_
          rw [toInt_of_lt few]
          show kBufferPrefixed ≤ ((buffer.fReadIdx + ((min buffer.length len : Nat) : Int)) %
              (2 ^ 64 : Int)).toNat ∧
            ((buffer.fReadIdx + ((min buffer.length len : Nat) : Int)) % (2 ^ 64 : Int)).toNat ≤
              buffer.fWriteIdx
          omega
        · refine Or.inr ?_
          show 2 ^ 31 ≤ buffer.fWriteIdx
          omega
      · exact Or.inr many
    · show ((buffer.fReadIdx + toInt (min buffer.length len)) % (2 ^ 64 : Int)).toNat < 2 ^ 64
      omega

/-- The indices of every reachable buffer are in place. -/
theorem placed_of_reachable {init_size : UInt32}
    (reached : ReachableBy (call fills) Basic (Buffer.new init_size) buffer) :
    Placed buffer ∧ buffer.fData.length < 2 ^ 63 := by
  refine reached.invariant (fun buffer => Placed buffer ∧ buffer.fData.length < 2 ^ 63) ?_ ?_
  · refine ⟨placed_of_prefixed rfl (Nat.le_refl _)
      (show kBufferPrefixed < 2 ^ 64 by decide), ?_⟩
    have small := init_size.toNat_lt
    rw [Buffer.new, List.length_replicate]
    split <;> omega
  · rintro before ⟨fuel, op⟩ after ⟨placed, bounded⟩ basic called
    rw [call] at called
    split at called
    case h_2 => cases called
    rename_i result reply applied
    split at called
    case isFalse => cases called
    rename_i small
    cases called
    refine ⟨?_, small⟩
    cases op with
    | write bytes => exact placed_of_write placed (by omega) applied
    | read buf_len => exact placed_of_read placed (by omega) applied
    | shrink len => exact placed_of_shrink placed (by omega) applied
    | clear =>
      cases applied
      exact placed_of_prefixed rfl (Nat.le_refl _) (show kBufferPrefixed < 2 ^ 64 by decide)
    | peek buf_len => exact absurd basic id
    | fill bytes => exact absurd basic id

end Calls

/-! ### The sizes a growth passes through -/

/-- One of the first sizes of a growth is below the room of the write index or large enough. -/
def Escapes (fWriteIdx total turns size : Nat) : Prop :=
  ∃ passed ∈ List.iterate (nextSize total) size turns,
    passed < fWriteIdx + kBufferPrefixed ∨ total + 2 * kBufferPrefixed < passed

instance (fWriteIdx total turns size : Nat) : Decidable (Escapes fWriteIdx total turns size) :=
  inferInstanceAs (Decidable (∃ passed ∈ List.iterate (nextSize total) size turns, _ ∨ _))

section Escapes

variable {fWriteIdx total size turns : Nat}

theorem escapes_of_large (large : total + 16 < size) :
    Escapes fWriteIdx total (turns + 1) size :=
  ⟨size, List.mem_cons_self, Or.inr large⟩

theorem escapes_of_next (later : Escapes fWriteIdx total turns (nextSize total size)) :
    Escapes fWriteIdx total (turns + 1) size := by
  obtain ⟨passed, member, beyond⟩ := later
  exact ⟨passed, List.mem_cons_of_mem _ member, beyond⟩

/-- Where the size is in the range, a later size leaves it. -/
theorem next_of_escapes (escapes : Escapes fWriteIdx total (turns + 1) size)
    (room : fWriteIdx + 8 ≤ size) (tight : size ≤ total + 16) :
    Escapes fWriteIdx total turns (nextSize total size) := by
  obtain ⟨passed, member, beyond⟩ := escapes
  rcases List.mem_cons.mp member with rfl | later
  · rw [kBufferPrefixed] at beyond
    omega
  · exact ⟨passed, later, beyond⟩

/-- A size just above the total is doubled to one that is large enough. -/
theorem escapes_of_lt (total_gt : 32 < total) (total_lt : total < 2 ^ 62) (above : total ≤ size)
    (below : size < total + 8) : Escapes fWriteIdx total (turns + 2) size := by
  have grown := nextSize_of_lt total_lt (by omega) below
  exact escapes_of_next (escapes_of_large (by omega))

/-- From a size above the total at most two shortenings lead to such a size. -/
theorem escapes_of_le (total_gt : 32 < total) (total_lt : total < 2 ^ 62) (above : total ≤ size) :
    Escapes fWriteIdx total (turns + 4) size := by
  by_cases large : total + 16 < size
  · exact escapes_of_large large
  by_cases below : size < total + 8
  · exact escapes_of_lt total_gt total_lt above below
  refine escapes_of_next ?_
  rw [nextSize_of_le (by omega)]
  by_cases exactly : size = total + 16
  · refine escapes_of_next ?_
    rw [nextSize_of_le (by omega)]
    exact escapes_of_lt total_gt total_lt (by omega) (by omega)
  · exact escapes_of_lt total_gt total_lt (by omega) (by omega)

/-- More than 32 bytes to hold make every growth end. -/
theorem escapes_of_many (total_gt : 32 < total) (total_lt : total < 2 ^ 62) (start : 16 ≤ size) :
    Escapes fWriteIdx total 12 size := by
  by_cases above : total ≤ size
  · exact escapes_of_le total_gt total_lt above
  · have grown := nextSize_of_lt total_lt start (show size < total + 8 by omega)
    exact escapes_of_next (escapes_of_le total_gt total_lt grown.1)

/-- A vector of more than 48 bytes makes every growth end. -/
theorem escapes_of_size (total_lt : total < 2 ^ 62) (start : 48 < size) :
    Escapes fWriteIdx total 12 size := by
  by_cases many : 32 < total
  · exact escapes_of_many many total_lt (by omega)
  · exact escapes_of_large (by omega)

/-- The sizes of a growth that does not leave the range in twelve turns come back. -/
theorem nextSize_mem : ∀ total < 33, ∀ size < 49, ¬ Escapes kBufferPrefixed total 12 size →
    ∀ passed ∈ List.iterate (nextSize total) size 12,
      nextSize total passed ∈ List.iterate (nextSize total) size 12 := by
  decide +kernel

end Escapes

/-! ### The loop of `makeSpace` -/

/-- `makeSpace` ends after finitely many turns. -/
def Returns (len : Nat) (buffer : Buffer) : Prop :=
  ∃ fuel after, makeSpace len fuel buffer = .ok after

section Loop

variable {len rz : Nat} {buffer moved : Buffer}

theorem capacity_of_le (prefixed : 8 ≤ buffer.fData.length)
    (bounded : buffer.fData.length < 2 ^ 63) : buffer.capacity = buffer.fData.length - 8 :=
  SizeT.sub_of_le prefixed (by omega)

theorem right_of_room (room : buffer.fWriteIdx + 8 ≤ buffer.fData.length)
    (bounded : buffer.fData.length < 2 ^ 63) :
    buffer.right = buffer.fData.length - 8 - buffer.fWriteIdx := by
  rw [right, capacity_of_le (by omega) bounded]
  exact SizeT.sub_of_le (by omega) (by omega)

/-- The free bytes on the right, as a number modulo `2 ^ 64`. -/
theorem right_eq_mod (prefixed : 8 ≤ buffer.fData.length) (bounded : buffer.fData.length < 2 ^ 63)
    (writeIdx : buffer.fWriteIdx < 2 ^ 64) :
    buffer.right = (buffer.fData.length - 8 + (2 ^ 64 - buffer.fWriteIdx)) % 2 ^ 64 := by
  rw [right, capacity_of_le prefixed bounded, SizeT.sub, Nat.mod_eq_of_lt writeIdx]

theorem returns_of_spacious (spacious : len < buffer.right) : Returns len buffer :=
  ⟨1, buffer, by rw [makeSpace, if_neg (by omega)]⟩

/-- A vector that was cut below the room of the write index ends the loop: `right()` wraps. -/
theorem returns_of_cut (prefixed : 8 ≤ buffer.fData.length)
    (cut : buffer.fData.length < buffer.fWriteIdx + 8) (small : buffer.fWriteIdx < 2 ^ 63)
    (few : len < 2 ^ 63) : Returns len buffer := by
  refine returns_of_spacious ?_
  rw [right, capacity, SizeT.sub, SizeT.sub, kBufferPrefixed]
  omega

theorem returns_of_arranged (movable : len < SizeT.add buffer.right buffer.left)
    (arranged : buffer.arrange = .ok moved) (returns : Returns len moved) :
    Returns len buffer := by
  by_cases tight : buffer.right ≤ len
  · obtain ⟨fuel, after, made⟩ := returns
    refine ⟨fuel + 1, after, ?_⟩
    rw [makeSpace, if_pos tight, if_pos movable, arranged, ok_bind, made]
  · exact returns_of_spacious (by omega)

theorem returns_of_grown (fixed : ¬ len < SizeT.add buffer.right buffer.left)
    (grown : double buffer.length len 65 buffer.capacity = .ok rz)
    (returns : Returns len (buffer.resize rz)) : Returns len buffer := by
  by_cases tight : buffer.right ≤ len
  · obtain ⟨fuel, after, made⟩ := returns
    refine ⟨fuel + 1, after, ?_⟩
    rw [makeSpace, if_pos tight, if_neg fixed, grown, ok_bind, made]
  · exact returns_of_spacious (by omega)

/-- A turn that cannot move the content grows the vector to the next size. -/
theorem double_of_fixed (room : buffer.fWriteIdx + 8 ≤ buffer.fData.length)
    (prefixed : 8 ≤ buffer.fWriteIdx) (bounded : buffer.fData.length < 2 ^ 63)
    (readIdx : buffer.fReadIdx < 2 ^ 64) (large : buffer.length + len < 2 ^ 62)
    (fixed : ¬ len < SizeT.add buffer.right buffer.left) :
    double buffer.length len 65 buffer.capacity =
        .ok (nextSize (buffer.length + len) buffer.fData.length) ∧
      buffer.fData.length ≤ buffer.length + len + 16 := by
  have capacity := capacity_of_le (show 8 ≤ buffer.fData.length by omega) bounded
  have right := right_of_room room bounded
  have left : buffer.left = (buffer.fReadIdx + (2 ^ 64 - 8)) % 2 ^ 64 := rfl
  have length : buffer.length = (buffer.fWriteIdx + (2 ^ 64 - buffer.fReadIdx)) % 2 ^ 64 := by
    rw [Buffer.length, SizeT.sub, Nat.mod_eq_of_lt readIdx]
  have sum : SizeT.add buffer.right buffer.left = (buffer.right + buffer.left) % 2 ^ 64 := rfl
  rw [sum, right, left] at fixed
  refine ⟨?_, by omega⟩
  rw [capacity]
  exact double_eq (by omega) large (by omega) (by omega)

/-- A growth whose sizes escape ends, if it ends where the content can be moved. -/
theorem returns_of_escapes {turns : Nat} (room : buffer.fWriteIdx + 8 ≤ buffer.fData.length)
    (prefixed : 8 ≤ buffer.fWriteIdx) (bounded : buffer.fData.length < 2 ^ 63)
    (readIdx : buffer.fReadIdx < 2 ^ 64) (large : buffer.length + len < 2 ^ 62)
    (moves : ∀ fData : List UInt8, buffer.fWriteIdx + 8 ≤ fData.length → fData.length < 2 ^ 63 →
      len < SizeT.add (right { buffer with fData }) buffer.left → Returns len { buffer with fData })
    (escapes : Escapes buffer.fWriteIdx (buffer.length + len) turns buffer.fData.length) :
    Returns len buffer := by
  induction turns generalizing buffer with
  | zero =>
    obtain ⟨passed, member, -⟩ := escapes
    cases member
  | succ turns inductionHypothesis =>
    by_cases movable : len < SizeT.add buffer.right buffer.left
    · exact moves buffer.fData room bounded movable
    obtain ⟨grown, tight⟩ := double_of_fixed room prefixed bounded readIdx large movable
    refine returns_of_grown movable grown ?_
    have size : (buffer.resize (nextSize (buffer.length + len) buffer.fData.length)).fData.length =
        nextSize (buffer.length + len) buffer.fData.length := length_resized _ _
    have small : nextSize (buffer.length + len) buffer.fData.length < 2 ^ 63 :=
      nextSize_lt (by omega) (by omega) bounded
    by_cases roomy : buffer.fWriteIdx + 8 ≤ nextSize (buffer.length + len) buffer.fData.length
    · refine inductionHypothesis (by rw [size]; exact roomy) prefixed (by rw [size]; exact small)
        readIdx large moves ?_
      rw [size]
      exact next_of_escapes escapes room tight
    · have above : buffer.fData.length - 8 ≤
          nextSize (buffer.length + len) buffer.fData.length := by
        by_cases fits : buffer.length + len + 8 ≤ buffer.fData.length
        · rw [nextSize_of_le fits]
        · have doubles := (nextSize_of_lt (show buffer.length + len < 2 ^ 62 by omega)
            (show 16 ≤ buffer.fData.length by omega) (by omega)).2.1
          omega
      refine returns_of_cut (by rw [size]; omega) ?_
        (show buffer.fWriteIdx < 2 ^ 63 by omega) (by omega)
      rw [size]
      exact Nat.lt_of_not_le roomy

/-- Where the indices are in order, moving the content ends the loop. -/
theorem returns_of_ordered (ordered : buffer.fReadIdx ≤ buffer.fWriteIdx)
    (room : buffer.fWriteIdx + 8 ≤ buffer.fData.length) (prefixed : 8 ≤ buffer.fWriteIdx)
    (bounded : buffer.fData.length < 2 ^ 63) (large : buffer.length + len < 2 ^ 62)
    (escapes : Escapes buffer.fWriteIdx (buffer.length + len) 12 buffer.fData.length) :
    Returns len buffer := by
  refine returns_of_escapes room prefixed bounded (by omega) large ?_ escapes
  intro fData room bounded movable
  obtain ⟨moved, arranged⟩ : ∃ moved, arrange { buffer with fData } = .ok moved := by
    obtain ⟨after, done⟩ := moveDown_of_inside
      (show buffer.fReadIdx + (buffer.fWriteIdx - buffer.fReadIdx) ≤ fData.length by omega)
      (show kBufferPrefixed + (buffer.fWriteIdx - buffer.fReadIdx) ≤ fData.length by
        rw [kBufferPrefixed]
        omega)
    exact ⟨_, by rw [arrange, done]; rfl⟩
  obtain ⟨size, readIdx, writeIdx, -⟩ := arrange_eq_ok arranged
  refine returns_of_arranged movable arranged (returns_of_spacious ?_)
  have spaceBefore : right { buffer with fData } = fData.length - 8 - buffer.fWriteIdx :=
    right_of_room room bounded
  have sum : SizeT.add (fData.length - 8 - buffer.fWriteIdx) buffer.left =
      (fData.length - 8 - buffer.fWriteIdx + (buffer.fReadIdx + (2 ^ 64 - 8)) % 2 ^ 64) % 2 ^ 64 :=
    rfl
  have sameSize : moved.fData.length = fData.length := size
  have placedAt : moved.fWriteIdx = 8 + (buffer.fWriteIdx - buffer.fReadIdx) := writeIdx
  have spaceAfter := right_eq_mod (show 8 ≤ moved.fData.length by omega)
    (show moved.fData.length < 2 ^ 63 by omega) (show moved.fWriteIdx < 2 ^ 64 by omega)
  rw [spaceBefore, sum] at movable
  rw [spaceAfter, sameSize, placedAt]
  omega

/-- Where the read index is behind the write index, moving the content drops it. -/
theorem returns_of_disordered (disordered : buffer.fWriteIdx < buffer.fReadIdx)
    (room : buffer.fWriteIdx + 8 ≤ buffer.fData.length) (many : 2 ^ 31 ≤ buffer.fWriteIdx)
    (bounded : buffer.fData.length < 2 ^ 63) (readIdx : buffer.fReadIdx < 2 ^ 64)
    (large : buffer.length + len < 2 ^ 62) : Returns len buffer := by
  refine returns_of_escapes room (by omega) bounded readIdx large ?_
    (escapes_of_size large (by omega))
  intro fData room bounded movable
  have none : buffer.fWriteIdx - buffer.fReadIdx = 0 := by omega
  have arranged : arrange { buffer with fData } =
      .ok { fData, fReadIdx := kBufferPrefixed, fWriteIdx := kBufferPrefixed + 0 } := by
    simp only [arrange, none]
    rfl
  refine returns_of_arranged movable arranged (returns_of_ordered (Nat.le_refl _) ?_
    (Nat.le_refl _) bounded ?_ (escapes_of_size ?_ ?_))
  · show kBufferPrefixed + 8 ≤ fData.length
    rw [kBufferPrefixed]
    omega
  · show SizeT.sub kBufferPrefixed kBufferPrefixed + len < 2 ^ 62
    rw [SizeT.sub_of_le (Nat.le_refl _) (by decide)]
    omega
  · show SizeT.sub kBufferPrefixed kBufferPrefixed + len < 2 ^ 62
    rw [SizeT.sub_of_le (Nat.le_refl _) (by decide)]
    omega
  · show 48 < fData.length
    omega

/-- A growth whose sizes come back never ends. -/
theorem outOfFuel_of_not_escapes (ordered : buffer.fReadIdx ≤ buffer.fWriteIdx)
    (prefixed : 8 ≤ buffer.fReadIdx) (few : buffer.length + len ≤ 32)
    (small : buffer.fData.length ≤ 48)
    (stays : ¬ Escapes buffer.fWriteIdx (buffer.length + len) 12 buffer.fData.length)
    (fuel : Nat) : makeSpace len fuel buffer = .error .outOfFuel := by
  have inRange : ∀ passed ∈ List.iterate (nextSize (buffer.length + len)) buffer.fData.length 12,
      buffer.fWriteIdx + 8 ≤ passed ∧ passed ≤ buffer.length + len + 16 := by
    intro passed member
    by_contra beyond
    refine stays ⟨passed, member, ?_⟩
    rw [kBufferPrefixed]
    omega
  have closed := nextSize_mem (buffer.length + len) (by omega) buffer.fData.length (by omega) (by
    rintro ⟨passed, member, beyond⟩
    have range := inRange passed member
    rw [kBufferPrefixed] at beyond
    omega)
  have circles : ∀ fuel, ∀ fData : List UInt8,
      fData.length ∈ List.iterate (nextSize (buffer.length + len)) buffer.fData.length 12 →
      makeSpace len fuel { buffer with fData } = .error .outOfFuel := by
    intro fuel
    induction fuel with
    | zero => exact fun _ _ => rfl
    | succ fuel inductionHypothesis =>
      intro fData member
      obtain ⟨room, tight⟩ := inRange _ member
      have sized : Sized { buffer with fData } := ⟨⟨prefixed, ordered, room⟩, by
        show fData.length < 2 ^ 63
        omega⟩
      have length : buffer.length = buffer.fWriteIdx - buffer.fReadIdx := sized.length_eq
      have right : right { buffer with fData } = fData.length - 8 - buffer.fWriteIdx :=
        sized.right_eq
      have left : left { buffer with fData } = buffer.fReadIdx - 8 := sized.left_eq
      have fixed : ¬ len < SizeT.add (Buffer.right { buffer with fData })
          (Buffer.left { buffer with fData }) := by
        rw [right, left, SizeT.add_of_lt (by omega)]
        omega
      obtain ⟨grown, -⟩ := @double_of_fixed len { buffer with fData } room
        (by show 8 ≤ buffer.fWriteIdx; omega) sized.bounded
        (by show buffer.fReadIdx < 2 ^ 64; omega) (by show buffer.length + len < 2 ^ 62; omega)
        fixed
      rw [makeSpace, if_pos (by rw [right]; omega), if_neg fixed, grown, ok_bind]
      refine inductionHypothesis _ ?_
      rw [length_resized]
      exact closed _ member
  exact circles fuel buffer.fData List.mem_cons_self

end Loop

/-- In every state that `write`, `read`, `shrink` and `clear` reach and in which the write index
has its room, `makeSpace` ends exactly when one of the first twelve sizes of the growth escapes
from the range between the room of the write index and the size that is large enough. -/
theorem makeSpace_returns_iff {fills : Nat → Nat → Bool} {init_size : UInt32} {buffer : Buffer}
    {len : Nat} (reached : ReachableBy (call fills) Basic (Buffer.new init_size) buffer)
    (room : buffer.fWriteIdx + kBufferPrefixed ≤ buffer.fData.length)
    (large : len + buffer.length < 2 ^ 62) :
    Returns len buffer ↔
      Escapes buffer.fWriteIdx (buffer.length + len) 12 buffer.fData.length := by
  obtain ⟨⟨ordered, readIdx, -⟩, bounded⟩ := placed_of_reachable reached
  rw [kBufferPrefixed] at room ordered
  rw [Nat.add_comm] at large
  constructor
  · rintro ⟨fuel, after, made⟩
    by_contra stays
    have few : buffer.length + len ≤ 32 := by
      by_contra many
      exact stays (escapes_of_many (by omega) large (by omega))
    have small : buffer.fData.length ≤ 48 := by
      by_contra many
      exact stays (escapes_of_size large (by omega))
    obtain ⟨prefixed, inOrder⟩ := ordered.resolve_right (by omega)
    rw [outOfFuel_of_not_escapes inOrder prefixed few small stays fuel] at made
    cases made
  · intro escapes
    by_cases inOrder : buffer.fReadIdx ≤ buffer.fWriteIdx
    · exact returns_of_ordered inOrder room (by omega) bounded large escapes
    · exact returns_of_disordered (by omega) room (ordered.resolve_left (by omega)) bounded readIdx
        large

/-- After 20 bytes were written and 18 read, room is made for 100 more. -/
theorem makeSpace_returns_iff_afterRead :
    ∃ buffer, runBy (call fun _ _ => false) Basic (Buffer.new 48)
        [(17, .write (List.replicate 20 1)), (17, .read 18)] = some buffer ∧
      Returns 100 buffer := by
  have final : ((runBy (call fun _ _ => false) Basic (Buffer.new 48)
      [(17, .write (List.replicate 20 1)), (17, .read 18)]).map
      fun buffer => (buffer.fReadIdx, buffer.fWriteIdx, buffer.fData.length)) =
        some (26, 28, 48) := by
    decide +kernel
  obtain ⟨buffer, executed, same⟩ := Option.map_eq_some_iff.mp final
  obtain ⟨readIdx, rest⟩ := Prod.mk.inj same
  obtain ⟨writeIdx, size⟩ := Prod.mk.inj rest
  have length : buffer.length = 2 := by
    rw [Buffer.length, readIdx, writeIdx]
    decide
  refine ⟨buffer, executed, (makeSpace_returns_iff (reachableBy_of_runBy executed) ?_ ?_).mpr ?_⟩
  · rw [writeIdx, size]
    decide
  · rw [length]
    decide
  · rw [writeIdx, size, length]
    decide +kernel

/-- A buffer of 16 bytes makes no room for 16 bytes: its sizes are 16, 8, 16 and so on. -/
theorem not_returns_of_sixteen :
    ¬ ∀ (fills : Nat → Nat → Bool) (init_size : UInt32) (buffer : Buffer) (len : Nat),
      ReachableBy (call fills) Basic (Buffer.new init_size) buffer →
      buffer.fWriteIdx + kBufferPrefixed ≤ buffer.fData.length →
      len + buffer.length < 2 ^ 62 → Returns len buffer := by
  intro returns
  obtain ⟨fuel, after, made⟩ := returns (fun _ _ => false) 16 (Buffer.new 16) 16
    Relation.ReflTransGen.refl (by decide) (by decide)
  rw [outOfFuel_of_not_escapes (by decide) (by decide) (by decide) (by decide) (by decide +kernel)
    fuel] at made
  cases made

end Buffer

end Nattan
