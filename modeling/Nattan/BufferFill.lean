/-
This file proves when `fill(c, n)` appends `n` copies of a byte.

`fill` grows the vector by a rule of its own: when `n` bytes do not fit on the right,
it resizes the vector to `length() + n`. That size counts neither the prefix nor the
bytes that were read already, so unless at least as many bytes are filled as lie in
front of the read index, the vector is cut below the write index, and the insertion
is behind its end. A vector that would become longer than a vector can be is an
exception.
-/

import Nattan.Buffer

namespace Nattan

namespace Buffer

/-- The largest size of a vector of `char`. -/
def maxSize : Nat := 2 ^ 63 - 1

/-- The vector when `fill` inserts into it. -/
def grown (buffer : Buffer) (len : Nat) : Buffer :=
  if buffer.right < len then buffer.resize (SizeT.add buffer.length len) else buffer

/-- `fill(c, len)`, with the exception of a vector that is asked to become too long. -/
def fillChar (buffer : Buffer) (c : UInt8) (len : Nat) : Except Fault (Buffer × Reply) :=
  if maxSize < (buffer.grown len).fData.length + len then .error .lengthError
  else buffer.fillWith (some c) len

/-- `fill(c, len)` inserts inside the vector, appends `len` copies of `c` to the content, and
leaves the write index inside the vector. -/
def FillsAsWritten (buffer : Buffer) (c : UInt8) (len : Nat) : Prop :=
  buffer.fWriteIdx ≤ (buffer.grown len).fData.length ∧
    ∃ after, buffer.fillChar c len = .ok (after, ⟨[], len⟩) ∧
      after.content = buffer.content ++ List.replicate len c ∧
      after.fWriteIdx ≤ after.fData.length

/-- The bytes fit on the right, or they are at least as many as lie in front of the read index, and
the vector does not become too long. -/
def FillRoom (buffer : Buffer) (len : Nat) : Prop :=
  (len ≤ buffer.right ∧ buffer.fData.length + len ≤ maxSize) ∨
    (buffer.right < len ∧ buffer.fReadIdx ≤ len ∧ buffer.length + 2 * len ≤ maxSize)

instance (buffer : Buffer) (len : Nat) : Decidable (buffer.FillRoom len) :=
  inferInstanceAs (Decidable ((_ ∧ _) ∨ (_ ∧ _ ∧ _)))

section Fill

variable {buffer : Buffer} {c : UInt8} {len : Nat}

theorem grown_of_le (fits : len ≤ buffer.right) : buffer.grown len = buffer :=
  if_neg (by omega)

theorem grown_of_lt (tight : buffer.right < len) :
    buffer.grown len = buffer.resize (SizeT.add buffer.length len) :=
  if_pos tight

/-- The size after the growth of `fill`. -/
theorem length_grown_of_lt (tight : buffer.right < len) (small : buffer.length + len < 2 ^ 64) :
    (buffer.grown len).fData.length = buffer.length + len := by
  rw [grown_of_lt tight, resize, length_resized, SizeT.add_of_lt small]

/-- The indices do not depend on the growth. -/
theorem grown_indices (buffer : Buffer) (len : Nat) :
    (buffer.grown len).fReadIdx = buffer.fReadIdx ∧
      (buffer.grown len).fWriteIdx = buffer.fWriteIdx := by
  rw [grown]
  split <;> exact ⟨rfl, rfl⟩

/-- The copies are inserted at the write index. -/
def inserted (buffer : Buffer) (c : UInt8) (len : Nat) : List UInt8 :=
  (buffer.grown len).fData.take buffer.fWriteIdx ++
    (List.replicate len c ++ (buffer.grown len).fData.drop buffer.fWriteIdx)

theorem fillWith_some_of_le (inside : buffer.fWriteIdx ≤ (buffer.grown len).fData.length) :
    buffer.fillWith (some c) len = .ok ({ buffer with
      fData := buffer.inserted c len
      fWriteIdx := SizeT.add buffer.fWriteIdx len }, ⟨[], len⟩) := by
  obtain ⟨readIdx, writeIdx⟩ := grown_indices buffer len
  have whole : buffer.fillWith (some c) len = (do
      let fData ← if (buffer.grown len).fWriteIdx ≤ (buffer.grown len).fData.length then
          .ok ((buffer.grown len).fData.take (buffer.grown len).fWriteIdx ++
            (List.replicate len c ++ (buffer.grown len).fData.drop (buffer.grown len).fWriteIdx))
        else .error (.outOfBounds (buffer.grown len).fWriteIdx)
      return ({
        fData
        fReadIdx := (buffer.grown len).fReadIdx
        fWriteIdx := SizeT.add (buffer.grown len).fWriteIdx len }, ⟨[], len⟩)) := rfl
  rw [whole, writeIdx, if_pos inside, ok_bind, readIdx]
  rfl

/-- An insertion inside the vector appends. -/
theorem fillWith_of_le (sized : Sized buffer)
    (inside : buffer.fWriteIdx ≤ (buffer.grown len).fData.length)
    (kept : (buffer.grown len).content = buffer.content) (small : buffer.fWriteIdx + len < 2 ^ 64) :
    ∃ after, buffer.fillWith (some c) len = .ok (after, ⟨[], len⟩) ∧
      after.content = buffer.content ++ List.replicate len c ∧
      after.fWriteIdx = buffer.fWriteIdx + len ∧
      after.fData.length = (buffer.grown len).fData.length + len := by
  obtain ⟨readIdx, writeIdx⟩ := grown_indices buffer len
  have ordered := sized.ordered
  refine ⟨_, fillWith_some_of_le inside, ?_, SizeT.add_of_lt small, ?_⟩
  · have appended := slice_insert (List.replicate len c) ordered inside
    rw [List.length_replicate] at appended
    rw [← kept, content, content, readIdx, writeIdx, ← appended, SizeT.add_of_lt small]
    congr 1
    show buffer.fWriteIdx + len - buffer.fReadIdx = _
    omega
  · show (buffer.inserted c len).length = _
    rw [inserted, List.length_append, List.length_append, List.length_take, List.length_drop,
      List.length_replicate]
    omega

/-- A growth that is long enough for the write index keeps the content. -/
theorem content_grown (sized : Sized buffer)
    (inside : buffer.fWriteIdx ≤ (buffer.grown len).fData.length) :
    (buffer.grown len).content = buffer.content := by
  by_cases fits : len ≤ buffer.right
  · rw [grown_of_le fits]
  · have ordered := sized.ordered
    have room := sized.room
    rw [grown_of_lt (by omega)] at inside ⊢
    rw [resize, length_resized] at inside
    show slice (resized buffer.fData (SizeT.add buffer.length len)) buffer.fReadIdx
      (buffer.fWriteIdx - buffer.fReadIdx) = buffer.content
    exact slice_resized (by omega) (by omega)

/-- `fill(c, len)` appends `len` copies of `c` exactly when they fit on the right or are at least
as many as the bytes in front of the read index, and the vector does not become too long. -/
theorem fillsAsWritten_iff (sized : Sized buffer) (c : UInt8) (len : Nat) :
    FillsAsWritten buffer c len ↔ FillRoom buffer len := by
  have prefixed := sized.prefixed
  have ordered := sized.ordered
  have room := sized.room
  have bounded := sized.bounded
  have whole := sized.length_eq
  have limit : maxSize = 2 ^ 63 - 1 := rfl
  constructor
  · rintro ⟨inside, after, filled, -⟩
    have short : (buffer.grown len).fData.length + len ≤ maxSize := by
      by_contra long
      rw [fillChar, if_pos (by omega)] at filled
      cases filled
    by_cases fits : len ≤ buffer.right
    · rw [grown_of_le fits] at short
      exact Or.inl ⟨fits, short⟩
    · rw [length_grown_of_lt (by omega) (by omega)] at inside short
      exact Or.inr ⟨by omega, by omega, by omega⟩
  · intro fillRoom
    have size : buffer.fWriteIdx ≤ (buffer.grown len).fData.length ∧
        (buffer.grown len).fData.length + len ≤ maxSize := by
      rcases fillRoom with ⟨fits, short⟩ | ⟨tight, enough, short⟩
      · rw [grown_of_le fits]
        exact ⟨by omega, short⟩
      · rw [length_grown_of_lt tight (by omega)]
        exact ⟨by omega, by omega⟩
    obtain ⟨inside, short⟩ := size
    obtain ⟨after, filled, appended, writeIdx, sizeAfter⟩ :=
      fillWith_of_le sized inside (content_grown sized inside) (by omega)
    refine ⟨inside, after, ?_, appended, by omega⟩
    rw [fillChar, if_neg (by omega), filled]

end Fill

/-- A buffer of 64 bytes, 40 bytes written and 38 of them read. -/
def nearlyRead : Buffer where
  fData := List.replicate 64 0
  fReadIdx := 46
  fWriteIdx := 48

/-- 46 bytes, as many as lie in front of the read index, are appended. -/
theorem fillsAsWritten_iff_nearlyRead : FillsAsWritten nearlyRead 7 46 :=
  (fillsAsWritten_iff ⟨⟨by decide, by decide, by decide⟩, by decide⟩ 7 46).mpr (by decide)

/-- 20 bytes do not fit on the right; the vector is cut to 22 bytes, and the insertion at 48 is
behind its end. -/
theorem not_fillsAsWritten_nearlyRead :
    ¬ ∀ (buffer : Buffer) (c : UInt8) (len : Nat), Sized buffer → FillsAsWritten buffer c len := by
  intro fills
  obtain ⟨inside, -⟩ := fills nearlyRead 7 20 ⟨⟨by decide, by decide, by decide⟩, by decide⟩
  exact absurd inside (by decide)

end Buffer

end Nattan
