/-
This file models `Writeable`, the two ways content is sent to one, and `File`.

A `Writeable` is what its `write` returns: a function of how many calls were made and
of the number of bytes offered. The bytes it accepted are kept beside it, in a
`Sink`. Both senders, `Buffer::sendTo` and `File::sendTo`, store the answer in an
`int`. The first ends with the first answer that is not positive and returns it; the
second ends with a negative answer only, and offers the same bytes again after a
zero. A writer that answers zero for ever keeps it in its loop, so the loop is given
a number of turns, and has no result when they are used up.

A `File` is seen through its two descriptors, which stay open: the content of the
inode, the offset of the reading descriptor, and whether the name still leads to the
inode. Reading moves the offset, writing appends, and `length()` goes by the name.
-/

import Nattan.Buffer

namespace Nattan

/-- The value of a `ssize_t` converted to an `int`. -/
def intOf (value : Int) : Int :=
  value.bmod (2 ^ 32)

theorem intOf_of_lt {value : Int} (low : -2 ^ 31 ≤ value) (high : value < 2 ^ 31) :
    intOf value = value :=
  Int.bmod_eq_of_le (by omega) (by omega)

theorem intOf_le {value : Int} (positive : 0 ≤ value) : intOf value ≤ value := by
  rw [intOf, Int.bmod_def]
  split
  · omega
  · omega

/-! ### `Writeable` -/

/-- A `Writeable`. `answer call n` is what call number `call` of `write` returns when it is
offered `n` bytes: at most `n`. -/
structure Writeable where
  answer : Nat → Nat → Int
  answer_le : ∀ call n, answer call n ≤ n

/-- What has been done to a `Writeable`: the number of calls and the bytes it accepted. -/
structure Sink where
  calls : Nat
  accepted : List UInt8
  deriving DecidableEq, Repr

def Sink.new : Sink where
  calls := 0
  accepted := []

def Writeable.write (writer : Writeable) (sink : Sink) (bytes : List UInt8) : Sink × Int :=
  let res := writer.answer sink.calls bytes.length
  (⟨sink.calls + 1, sink.accepted ++ bytes.take res.toNat⟩, res)

/-- A `Writeable` that takes all it is offered. -/
def Writeable.ideal : Writeable where
  answer := fun _ n => n
  answer_le := fun _ n => Int.le_refl n

/-- The loop of `Buffer::sendTo`, from the position `it` on. It returns an answer that ended
it. The number of turns is the number of bytes, since every turn but the last sends one. -/
def Buffer.sendLoop (writer : Writeable) : Nat → List UInt8 → Sink → Sink × Option Int
  | 0, _, sink => (sink, none)
  | turns + 1, it, sink =>
    if it = [] then (sink, none)
    else
      let written := writer.write sink it
      let res := intOf written.2
      if res ≤ 0 then (written.1, some res)
      else Buffer.sendLoop writer turns (it.drop res.toNat) written.1

/-- `Buffer::sendTo` on the content of the buffer. -/
def Buffer.sendTo (writer : Writeable) (content : List UInt8) (sink : Sink) : Sink × Int :=
  match Buffer.sendLoop writer content.length content sink with
  | (sink, some res) => (sink, res)
  | (sink, none) => (sink, content.length)

/-! ### `File` -/

def kFileBufferSize : Nat := 4096

/-- The content of the inode the descriptors are open on, the offset of the reading one, and
whether the name exists. -/
structure File where
  content : List UInt8
  offset : Nat
  named : Bool
  deriving DecidableEq, Repr

namespace File

/-- A file that `openRead` and `openWrite` created. -/
def new : File where
  content := []
  offset := 0
  named := true

/-- What is left to read. -/
def unread (file : File) : List UInt8 :=
  file.content.drop file.offset

/-- `length()`, the size of what the name leads to. -/
def length (file : File) : Nat :=
  if file.named then file.content.length else 0

def read (file : File) (buf_len : Nat) : File × List UInt8 :=
  let bytes := file.unread.take buf_len
  ({ file with offset := file.offset + bytes.length }, bytes)

/-- `write`, which is `append`, with the `int` it returns. -/
def write (file : File) (bytes : List UInt8) : File × Int :=
  ({ file with content := file.content ++ bytes }, intOf bytes.length)

def unlink (file : File) : File :=
  { file with named := false }

/-- The two loops of `sendTo`: `piece` is what is left of the bytes in `buf`, and `len` counts
the bytes read. A turn is a read or a write. -/
def sendLoop (writer : Writeable) :
    Nat → File → List UInt8 → Nat → Sink → File × Sink × Option Int
  | 0, file, _, _, sink => (file, sink, none)
  | turns + 1, file, piece, len, sink =>
    if piece = [] then
      let buf := file.read kFileBufferSize
      if buf.2 = [] then (buf.1, sink, some (intOf len))
      else sendLoop writer turns buf.1 buf.2 (len + buf.2.length) sink
    else
      let written := writer.write sink piece
      let res := intOf written.2
      if res < 0 then (file, written.1, some (-1))
      else sendLoop writer turns file (piece.drop res.toNat) len written.1

def sendTo (writer : Writeable) (turns : Nat) (file : File) (sink : Sink) :
    File × Sink × Option Int :=
  sendLoop writer turns file [] 0 sink

/-! ### What is left to read -/

/-- The offset is not behind the end. -/
def Wf (file : File) : Prop :=
  file.offset ≤ file.content.length

theorem wf_new : File.new.Wf :=
  Nat.le_refl 0

theorem wf_read {file : File} (wf : file.Wf) (buf_len : Nat) : (file.read buf_len).1.Wf := by
  have taken : (file.unread.take buf_len).length ≤ file.content.length - file.offset := by
    rw [List.length_take, unread, List.length_drop]
    exact Nat.min_le_right _ _
  have bounded : file.offset ≤ file.content.length := wf
  show file.offset + (file.unread.take buf_len).length ≤ file.content.length
  omega

theorem wf_write {file : File} (wf : file.Wf) (bytes : List UInt8) : (file.write bytes).1.Wf := by
  have bounded : file.offset ≤ file.content.length := wf
  show file.offset ≤ (file.content ++ bytes).length
  rw [List.length_append]
  omega

/-- Reading takes from the front of what is left. -/
theorem unread_read (file : File) (buf_len : Nat) :
    (file.read buf_len).1.unread = file.unread.drop buf_len := by
  show file.content.drop (file.offset + (file.unread.take buf_len).length) = _
  rw [← List.drop_drop, List.length_take]
  show file.unread.drop (min buf_len file.unread.length) = _
  by_cases short : buf_len ≤ file.unread.length
  · rw [Nat.min_eq_left short]
  · rw [Nat.min_eq_right (by omega), List.drop_length, List.drop_of_length_le (by omega)]

/-- Writing appends to what is left. -/
theorem unread_write {file : File} (wf : file.Wf) (bytes : List UInt8) :
    (file.write bytes).1.unread = file.unread ++ bytes :=
  List.drop_append_of_le_length wf

theorem value_write (file : File) (bytes : List UInt8) :
    (file.write bytes).2 = intOf bytes.length := by
  rw [write]

theorem length_unread {file : File} : file.unread.length = file.content.length - file.offset := by
  rw [unread, List.length_drop]

/-- Reading and sending change neither the content nor the name, and keep the offset within the
content. -/
theorem sendLoop_frame (writer : Writeable) (turns : Nat) {file : File} (wf : file.Wf)
    (piece : List UInt8) (len : Nat) (sink : Sink) :
    (sendLoop writer turns file piece len sink).1.content = file.content ∧
      (sendLoop writer turns file piece len sink).1.named = file.named ∧
      (sendLoop writer turns file piece len sink).1.Wf := by
  induction turns generalizing file piece len sink with
  | zero => exact ⟨rfl, rfl, wf⟩
  | succ turns inductionHypothesis =>
    rw [sendLoop]
    dsimp only
    split
    · split
      · exact ⟨rfl, rfl, wf_read wf _⟩
      · exact inductionHypothesis (wf_read wf _) _ _ _
    · split
      · exact ⟨rfl, rfl, wf⟩
      · exact inductionHypothesis wf _ _ _

end File

end Nattan
