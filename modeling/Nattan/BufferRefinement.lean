/-
This file proves in which runs `Buffer` is a FIFO queue of bytes, and that it is not
one in every run.

The only operation whose correctness is in question is the growth in `makeSpace`. It
does not look at the write index: it resizes the vector to `capacity()`, which is
eight less than its size, doubled until the content and the new bytes fit. When they
fit without doubling, the vector becomes eight bytes shorter, and a write index less
than eight bytes in front of the old limit is then behind the new one: `right()`
wraps, the loop ends, and the bytes are copied behind the end of the vector. What a
growth does to the size depends only on the size and on the number of bytes to hold,
so the analysis is about these two numbers and the write index (`settles`); above 32
bytes it has the closed form `settles_of_roomy`.
-/

import Nattan.Buffer
import Nattan.Transition

namespace Nattan

namespace Buffer

/-! ### The sizes of a growth -/

/-- The doubling loop on unbounded numbers. -/
def doubled (total : Nat) : Nat → Nat → Nat
  | 0, size => size
  | turns + 1, size => if size < total then doubled total turns (2 * size) else size

/-- The size of the vector after one growth that has to hold `total` bytes. -/
def nextSize (total size : Nat) : Nat :=
  doubled total 64 (size - kBufferPrefixed)

/-- Growing from `size` reaches a size that is large enough within the given turns, and no size
on the way is too small for the write index. -/
def settles (fWriteIdx total : Nat) : Nat → Nat → Bool
  | 0, _ => false
  | turns + 1, size =>
    decide (fWriteIdx + kBufferPrefixed ≤ size) &&
      (decide (total + 2 * kBufferPrefixed < size) ||
        settles fWriteIdx total turns (nextSize total size))

/-- Doubling up to `total` at least doubles, and stops below twice the total. -/
theorem doubled_of_lt {total turns size : Nat} (small : size < total)
    (enough : total ≤ size * 2 ^ turns) :
    total ≤ doubled total turns size ∧ 2 * size ≤ doubled total turns size ∧
      doubled total turns size < 2 * total := by
  induction turns generalizing size with
  | zero => omega
  | succ turns inductionHypothesis =>
    rw [doubled, if_pos small]
    by_cases again : 2 * size < total
    · obtain ⟨reaches, doubles, bounded⟩ := inductionHypothesis again (by
        rw [Nat.pow_succ] at enough
        rw [Nat.mul_comm 2 size, Nat.mul_assoc, Nat.mul_comm 2]
        exact enough)
      exact ⟨reaches, by omega, bounded⟩
    · have stops : doubled total turns (2 * size) = 2 * size := by
        cases turns with
        | zero => rfl
        | succ turns => rw [doubled, if_neg again]
      rw [stops]
      omega

theorem doubled_of_le {total turns size : Nat} (fits : total ≤ size) :
    doubled total turns size = size := by
  cases turns with
  | zero => rfl
  | succ turns => rw [doubled, if_neg (by omega)]

/-- The loop of the source computes `doubled`, as long as nothing overflows. -/
theorem double_eq {length len turns rz : Nat} (holds : length ≤ rz) (large : length + len < 2 ^ 62)
    (small : rz < 2 ^ 63) (enough : length + len ≤ rz * 2 ^ turns) :
    double length len (turns + 1) rz = .ok (doubled (length + len) turns rz) := by
  induction turns generalizing rz with
  | zero =>
    have stops : ¬ SizeT.sub rz length < len := by
      rw [SizeT.sub_of_le holds (by omega)]
      omega
    rw [double, if_neg stops]
    rfl
  | succ turns inductionHypothesis =>
    rw [double, doubled]
    by_cases again : rz < length + len
    · have goesOn : SizeT.sub rz length < len := by
        rw [SizeT.sub_of_le holds (by omega)]
        omega
      rw [if_pos goesOn, if_pos again, Nat.mod_eq_of_lt (by omega)]
      refine inductionHypothesis (by omega) (by omega) ?_
      rw [Nat.pow_succ] at enough
      rw [Nat.mul_comm 2 rz, Nat.mul_assoc, Nat.mul_comm 2]
      exact enough
    · have stops : ¬ SizeT.sub rz length < len := by
        rw [SizeT.sub_of_le holds (by omega)]
        omega
      rw [if_neg stops, if_neg again]

theorem nextSize_of_le {total size : Nat} (fits : total + 8 ≤ size) :
    nextSize total size = size - 8 :=
  doubled_of_le (by rw [kBufferPrefixed]; omega)

theorem nextSize_of_lt {total size : Nat} (large : total < 2 ^ 62) (start : 16 ≤ size)
    (small : size < total + 8) :
    total ≤ nextSize total size ∧ 2 * (size - 8) ≤ nextSize total size ∧
      nextSize total size < 2 * total :=
  doubled_of_lt (by rw [kBufferPrefixed]; omega) (by rw [kBufferPrefixed]; omega)

theorem nextSize_lt {total size : Nat} (large : total < 2 ^ 62) (start : 16 ≤ size)
    (bounded : size < 2 ^ 63) : nextSize total size < 2 ^ 63 := by
  by_cases fits : total + 8 ≤ size
  · rw [nextSize_of_le fits]
    omega
  · have grown := nextSize_of_lt large start (by omega)
    omega

section Settles

variable {fWriteIdx total size turns : Nat}

theorem room_of_settles (settled : settles fWriteIdx total turns size = true) :
    fWriteIdx + 8 ≤ size := by
  cases turns with
  | zero => cases settled
  | succ turns =>
    rw [settles, Bool.and_eq_true, decide_eq_true_eq] at settled
    exact settled.1

theorem settles_of_large (room : fWriteIdx + 8 ≤ size) (large : total + 16 < size) :
    settles fWriteIdx total (turns + 1) size = true := by
  rw [settles, Bool.and_eq_true, Bool.or_eq_true, decide_eq_true_eq, decide_eq_true_eq]
  exact ⟨room, Or.inl large⟩

theorem settles_of_next (room : fWriteIdx + 8 ≤ size)
    (later : settles fWriteIdx total turns (nextSize total size) = true) :
    settles fWriteIdx total (turns + 1) size = true := by
  rw [settles, Bool.and_eq_true, Bool.or_eq_true, decide_eq_true_eq]
  exact ⟨room, Or.inr later⟩

/-- A size just above the total is doubled to one that is large enough. -/
theorem settles_of_lt (total_gt : 32 < total) (total_lt : total < 2 ^ 62)
    (room : fWriteIdx + 8 ≤ size) (above : total ≤ size) (below : size < total + 8) :
    settles fWriteIdx total (turns + 2) size = true := by
  have grown := nextSize_of_lt total_lt (by omega) below
  exact settles_of_next room (settles_of_large (by omega) (by omega))

/-- A growth ends well from any size above the total whose first, and if need be second,
shortening by eight bytes leaves room behind the write index. -/
theorem settles_of_slack (total_gt : 32 < total) (total_lt : total < 2 ^ 62)
    (room : fWriteIdx + 8 ≤ size) (above : total ≤ size)
    (once : total + 8 ≤ size → size ≤ total + 16 → fWriteIdx + 16 ≤ size)
    (twice : size = total + 16 → fWriteIdx + 24 ≤ size) :
    settles fWriteIdx total (turns + 4) size = true := by
  by_cases large : total + 16 < size
  · exact settles_of_large room large
  by_cases below : size < total + 8
  · exact settles_of_lt total_gt total_lt room above below
  have first := once (by omega) (by omega)
  have shorter : nextSize total size = size - 8 := nextSize_of_le (by omega)
  refine settles_of_next room ?_
  rw [shorter]
  by_cases exactly : size = total + 16
  · have second := twice exactly
    have shortest : nextSize total (size - 8) = size - 8 - 8 := nextSize_of_le (by omega)
    refine settles_of_next (by omega) ?_
    rw [shortest]
    exact settles_of_lt total_gt total_lt (by omega) (by omega) (by omega)
  · exact settles_of_lt total_gt total_lt (by omega) (by omega) (by omega)

/-- Above 32 bytes only the shortenings of the first growth can go wrong: once the size has
been doubled there is slack enough. -/
theorem settles_of_roomy (total_gt : 32 < total) (total_lt : total < 2 ^ 62)
    (prefixed : 8 ≤ fWriteIdx) (room : fWriteIdx + 8 ≤ size)
    (once : total + 8 ≤ size → size ≤ total + 16 → fWriteIdx + 16 ≤ size)
    (twice : size = total + 16 → fWriteIdx + 24 ≤ size) :
    settles fWriteIdx total (turns + 5) size = true := by
  by_cases above : total ≤ size
  · exact settles_of_slack total_gt total_lt room above once twice
  · have grown := nextSize_of_lt total_lt (by omega) (show size < total + 8 by omega)
    refine settles_of_next room (settles_of_slack total_gt total_lt ?_ grown.1 ?_ ?_)
    all_goals omega

end Settles

/-! ### `makeSpace` -/

/-- A vector that settles is grown without losing the content, and then has room. -/
theorem makeSpace_of_settles {len turns : Nat} {buffer : Buffer} (sized : Sized buffer)
    (large : buffer.length + len < 2 ^ 62)
    (settled : settles buffer.fWriteIdx (buffer.length + len) turns buffer.fData.length = true)
    {fuel : Nat} (enough : turns < fuel) :
    ∃ after, makeSpace len fuel buffer = .ok after ∧ Sized after ∧
      after.content = buffer.content ∧ len < after.right := by
  induction turns generalizing buffer fuel with
  | zero => cases settled
  | succ turns inductionHypothesis =>
    obtain ⟨fuel, rfl⟩ := Nat.exists_eq_add_one_of_ne_zero (Nat.ne_of_gt (Nat.zero_lt_of_lt enough))
    have bounded := sized.bounded
    have prefixed : 8 ≤ buffer.fReadIdx := sized.prefixed
    have ordered := sized.ordered
    have room : buffer.fWriteIdx + 8 ≤ buffer.fData.length := sized.room
    have whole := sized.length_eq
    have space := sized.right_eq
    have free := sized.left_eq
    rw [makeSpace]
    by_cases tight : buffer.right ≤ len
    case neg =>
      rw [if_neg tight]
      exact ⟨buffer, rfl, sized, rfl, by omega⟩
    rw [if_pos tight, SizeT.add_of_lt (by omega)]
    by_cases movable : len < buffer.right + buffer.left
    · rw [if_pos movable]
      obtain ⟨after, arranged, sizedAfter, same, size, readIdx, writeIdx⟩ := arrange_spec sized
      have spaceAfter : len < after.right := by
        rw [sizedAfter.right_eq, size, writeIdx, kBufferPrefixed]
        omega
      obtain ⟨fuel, rfl⟩ := Nat.exists_eq_add_one_of_ne_zero (show fuel ≠ 0 by omega)
      refine ⟨after, ?_, sizedAfter, same, spaceAfter⟩
      rw [arranged, ok_bind, makeSpace, if_neg (by omega)]
    · rw [if_neg movable]
      have later : settles buffer.fWriteIdx (buffer.length + len) turns
          (nextSize (buffer.length + len) buffer.fData.length) = true := by
        rw [settles, Bool.and_eq_true, Bool.or_eq_true, decide_eq_true_eq, decide_eq_true_eq,
          kBufferPrefixed] at settled
        exact settled.2.resolve_left (by omega)
      have grown : double buffer.length len 65 buffer.capacity =
          .ok (nextSize (buffer.length + len) buffer.fData.length) := by
        rw [sized.capacity_eq]
        exact double_eq (by omega) large (by omega) (by omega)
      obtain ⟨sizedAfter, same⟩ := resize_spec sized (room_of_settles later)
        (nextSize_lt large (by omega) bounded)
      obtain ⟨after, made, sizedEnd, kept, spaceAfter⟩ := inductionHypothesis sizedAfter large
        (by rw [resize, length_resized]; exact later) (show turns < fuel by omega)
      refine ⟨after, ?_, sizedEnd, kept.trans same, spaceAfter⟩
      rw [grown, ok_bind]
      exact made

/-- `write` appends, when `makeSpace` does its work. -/
theorem write_of_settles {bytes : List UInt8} {turns : Nat} {buffer : Buffer} (sized : Sized buffer)
    (large : buffer.length + bytes.length < 2 ^ 62)
    (settled : settles buffer.fWriteIdx (buffer.length + bytes.length) turns
      buffer.fData.length = true) {fuel : Nat} (enough : turns < fuel) :
    ∃ after, buffer.write fuel bytes = .ok (after, ⟨[], bytes.length⟩) ∧ Sized after ∧
      after.content = buffer.content ++ bytes := by
  obtain ⟨made, spaced, sizedMade, same, space⟩ := makeSpace_of_settles sized large settled enough
  obtain ⟨fData, copied, -, sizedAfter, appended⟩ := append_spec sizedMade (Nat.le_of_lt space)
  have bounded := sizedMade.bounded
  have room : made.fWriteIdx + 8 ≤ made.fData.length := sizedMade.room
  rw [sizedMade.right_eq] at space
  refine ⟨_, ?_, sizedAfter, appended.trans (by rw [same])⟩
  rw [write, spaced, ok_bind, copied, ok_bind, SizeT.add_of_lt (by omega)]
  rfl

/-! ### Runs against the queue -/

/-- What an unbounded queue of bytes does. -/
def fifo (queue : List UInt8) : Op → List UInt8 × Reply
  | .write bytes => (queue ++ bytes, ⟨[], bytes.length⟩)
  | .read buf_len => (queue.drop buf_len, ⟨queue.take buf_len, min buf_len queue.length⟩)
  | .peek buf_len => (queue, ⟨queue.take buf_len, min buf_len queue.length⟩)
  | .shrink len => (queue.drop len, ⟨[], min queue.length len⟩)
  | .fill bytes => (queue ++ bytes, ⟨[], bytes.length⟩)
  | .clear => ([], ⟨[], 0⟩)

/-- A run of a buffer beside the queue: whether an operation ended in a fault, and whether every
reply was the queue's. -/
structure Run where
  buffer : Buffer
  queue : List UInt8
  faults : Bool
  exact : Bool
  deriving DecidableEq, Repr

def Run.new (init_size : UInt32) : Run where
  buffer := Buffer.new init_size
  queue := []
  faults := false
  exact := true

def step (fills : Nat → Nat → Bool) (fuel : Nat) (run : Run) (op : Op) : Option Run :=
  match run.buffer.apply fills fuel op with
  | .error _ => some { run with faults := true }
  | .ok (buffer, reply) =>
    some { run with
      buffer
      queue := (fifo run.queue op).1
      exact := run.exact && decide (reply = (fifo run.queue op).2) }

/-- The indices are in order, the content is the queue's, no access was outside the vector, no
loop failed to end, and every reply was the queue's. -/
structure Run.Refines (run : Run) : Prop where
  wf : Wf run.buffer
  content : run.buffer.content = run.queue
  noFault : run.faults = false
  exact : run.exact = true

/-- A caller fills only what fits. -/
def Allowed (run : Run) : Op → Prop
  | .fill bytes => bytes.length ≤ run.buffer.right
  | .write _ | .read _ | .peek _ | .shrink _ | .clear => True

/-- A growth for `len` bytes shortens the vector below the room of the write index before it
doubles the size. -/
def shortens (buffer : Buffer) (len : Nat) : Prop :=
  (buffer.right < 8 ∧ buffer.left + buffer.right ≤ len ∧ len ≤ buffer.left + buffer.right + 8) ∨
    (buffer.right < 16 ∧ len = buffer.left + buffer.right)

/-- `makeSpace(len)` does its work: there is room already, or more than 32 bytes have to be held
and the growth does not begin with a shortening, or at most 32 bytes have to be held and the
sizes of the growth settle. -/
def RoomFor (buffer : Buffer) (len : Nat) : Prop :=
  len < buffer.left + buffer.right ∨
    (32 < buffer.length + len ∧ ¬ buffer.shortens len) ∨
    (buffer.length + len ≤ 32 ∧
      settles buffer.fWriteIdx (buffer.length + len) 16 buffer.fData.length = true)

/-- The operation is one that the source gets right in the state of the buffer. -/
def Safe (run : Run) : Op → Prop
  | .write bytes => run.buffer.RoomFor bytes.length ∧ run.buffer.length + bytes.length < 2 ^ 62
  | .shrink len => min run.buffer.length len < 2 ^ 31
  | .fill bytes => bytes.length ≤ run.buffer.right
  | .read _ | .peek _ | .clear => True

instance (buffer : Buffer) (len : Nat) : Decidable (buffer.RoomFor len) :=
  inferInstanceAs (Decidable (_ ∨ (_ ∧ ¬ ((_ ∧ _ ∧ _) ∨ (_ ∧ _))) ∨ (_ ∧ _)))

instance (run : Run) (op : Op) : Decidable (Allowed run op) :=
  match op with
  | .fill bytes => inferInstanceAs (Decidable (bytes.length ≤ run.buffer.right))
  | .write _ | .read _ | .peek _ | .shrink _ | .clear => inferInstanceAs (Decidable True)

instance (run : Run) (op : Op) : Decidable (Safe run op) :=
  match op with
  | .write bytes => inferInstanceAs (Decidable (run.buffer.RoomFor bytes.length ∧ _))
  | .shrink len => inferInstanceAs (Decidable (min run.buffer.length len < 2 ^ 31))
  | .fill bytes => inferInstanceAs (Decidable (bytes.length ≤ run.buffer.right))
  | .read _ | .peek _ | .clear => inferInstanceAs (Decidable True)

/-- Where there is room by `RoomFor`, the growth settles. -/
theorem settles_of_roomFor {buffer : Buffer} {len : Nat} (sized : Sized buffer)
    (large : buffer.length + len < 2 ^ 62) (room : buffer.RoomFor len) :
    settles buffer.fWriteIdx (buffer.length + len) 16 buffer.fData.length = true := by
  have prefixed : 8 ≤ buffer.fReadIdx := sized.prefixed
  have ordered := sized.ordered
  have inside : buffer.fWriteIdx + 8 ≤ buffer.fData.length := sized.room
  have whole := sized.length_eq
  have space := sized.right_eq
  have free := sized.left_eq
  rcases room with spacious | ⟨many, notShort⟩ | ⟨-, settled⟩
  · exact settles_of_large inside (by omega)
  · simp only [shortens, not_or, not_and, Nat.not_le] at notShort
    obtain ⟨once, twice⟩ := notShort
    exact settles_of_roomy many large (by omega) inside (by omega) (by omega)
  · exact settled

/-- Every operation that the guard allows does what the queue does. -/
theorem apply_spec (fills : Nat → Nat → Bool) {fuel : Nat} (enough : 16 < fuel) {run : Run}
    (sized : Sized run.buffer) (same : run.buffer.content = run.queue) {op : Op}
    (safe : Safe run op) :
    ∃ after, run.buffer.apply fills fuel op = .ok (after, (fifo run.queue op).2) ∧
      Sized after ∧ after.content = (fifo run.queue op).1 := by
  rw [← same]
  cases op with
  | write bytes =>
    exact write_of_settles sized safe.2 (settles_of_roomFor sized safe.2 safe.1) enough
  | read buf_len => exact read_spec sized buf_len
  | peek buf_len => exact ⟨run.buffer, peek_spec sized buf_len, sized, rfl⟩
  | shrink len =>
    refine shrink_spec sized ?_
    rw [sized.length_content]
    exact safe
  | fill bytes =>
    obtain ⟨after, filled, sizedAfter, appended, -⟩ := fill_spec sized safe
    exact ⟨after, filled, sizedAfter, appended⟩
  | clear =>
    obtain ⟨sizedAfter, empty⟩ := clear_spec sized
    exact ⟨run.buffer.clear, rfl, sizedAfter, empty⟩

theorem sized_new {init_size : UInt32} (size : init_size.toNat ≤ 8 ∨ 16 ≤ init_size.toNat) :
    Sized (Buffer.new init_size) := by
  have small := init_size.toNat_lt
  have length : (Buffer.new init_size).fData.length =
      if kBufferPrefixed < init_size.toNat then init_size.toNat else 1024 := List.length_replicate
  rw [kBufferPrefixed] at length
  refine ⟨⟨Nat.le_refl _, Nat.le_refl _, ?_⟩, ?_⟩
  · rw [length]
    show 16 ≤ _
    split <;> omega
  · rw [length]
    split <;> omega

/-- In every run whose operations the guard allows, a buffer whose initial size leaves room for
prefix and limit is a FIFO queue of bytes. -/
theorem refines_fifo (fills : Nat → Nat → Bool) (fuel : Nat) (enough : 16 < fuel)
    (init_size : UInt32) (size : init_size.toNat ≤ 8 ∨ 16 ≤ init_size.toNat) (run : Run)
    (reached : ReachableBy (step fills fuel) Safe (Run.new init_size) run) : run.Refines := by
  have invariant : Sized run.buffer ∧ run.Refines := by
    refine reached.invariant (fun run => Sized run.buffer ∧ run.Refines) ?_ ?_
    · have sized := sized_new size
      exact ⟨sized, sized.toWf, by simp [content, slice, Run.new, Buffer.new], rfl, rfl⟩
    · rintro before op after ⟨sized, refines⟩ safe stepped
      obtain ⟨buffer, applied, sizedAfter, same⟩ :=
        apply_spec fills enough sized refines.content safe
      rw [step, applied] at stepped
      cases stepped
      refine ⟨sizedAfter, sizedAfter.toWf, same, refines.noFault, ?_⟩
      simp [refines.exact]
  exact invariant.2

/-- The fill test in exact arithmetic. -/
def fillsExactly (fReadIdx capacity : Nat) : Bool :=
  88 * capacity < 100 * fReadIdx

/-- A small buffer is written, read, grown by a factor of four and read to its end. -/
def growingOps : List Op :=
  [.write (List.replicate 20 1), .read 18, .write (List.replicate 100 2), .peek 3, .shrink 101,
    .read 5]

theorem refines_fifo_growingOps :
    ∃ run, runBy (step fillsExactly 17) Safe (Run.new 48) growingOps = some run ∧
      run.buffer.fData.length = 160 ∧ run.queue = [] ∧ run.Refines := by
  have final : (runBy (step fillsExactly 17) Safe (Run.new 48) growingOps).map
      (fun run => (run.buffer.fData.length, run.queue)) = some (160, []) := by
    decide +kernel
  obtain ⟨run, executed, same⟩ := Option.map_eq_some_iff.mp final
  obtain ⟨size, empty⟩ := Prod.mk.inj same
  exact ⟨run, executed, size, empty, refines_fifo fillsExactly 17 (by decide) 48 (by decide) run
    (reachableBy_of_runBy executed)⟩

/-- Seven bytes are written to a buffer that has seven free bytes left. -/
def shorteningOps : List Op :=
  [.write (List.replicate 41 1), .write (List.replicate 7 2)]

/-- The second write shortens the vector of 64 bytes to 56, and its bytes end at the new end:
`right()` has wrapped. -/
theorem not_refines_shorteningOps :
    ¬ ∀ (fills : Nat → Nat → Bool) (fuel : Nat), 16 < fuel → ∀ (init_size : UInt32) (run : Run),
      ReachableBy (step fills fuel) Allowed (Run.new init_size) run → run.Refines := by
  intro refines
  have final : (runBy (step fillsExactly 17) Allowed (Run.new 64) shorteningOps).map
      (fun run => (run.buffer.fWriteIdx, run.buffer.fData.length)) = some (56, 56) := by
    decide +kernel
  obtain ⟨run, executed, same⟩ := Option.map_eq_some_iff.mp final
  obtain ⟨writeIdx, size⟩ := Prod.mk.inj same
  have room := (refines fillsExactly 17 (by decide) 64 run (reachableBy_of_runBy executed)).wf.room
  rw [writeIdx, size] at room
  exact absurd room (by decide)

end Buffer

end Nattan
