/-
This file models `TempFile` and proves that its reader does not see where it keeps
its bytes.

A `TempFile` starts in memory and moves to a file when a write does not fit its
limit any more, or when it is told to. What is in the buffer at that moment goes to
the file in pieces; from then on reads go through the offset of the reading
descriptor and writes append. The bytes that are still to be read are the buffer in
one mode and what is left of the file in the other, and the two never both have
some.

`Buffer` is taken as the queue of bytes it is meant to be (`Buffer.fifo`); in which
runs it is one is the subject of `Nattan/BufferRefinement.lean`.
-/

import Nattan.BufferRefinement
import Nattan.File
import Nattan.Replies

namespace Nattan

/-- `TEMPFILE_MODE`. -/
inductive TempFileMode where
  | buffer
  | file
  deriving DecidableEq, Repr

structure TempFile where
  fMode : TempFileMode
  fBuf : List UInt8
  fFile : File
  kMemoryLimit : Nat
  deriving DecidableEq, Repr

namespace TempFile

def new (limit : Nat) : TempFile where
  fMode := .buffer
  fBuf := []
  fFile := File.new
  kMemoryLimit := limit

/-- The loop of `dumpToFile`. The buffer is empty after at most as many turns as it has
bytes. -/
def dumpLoop : Nat → List UInt8 → File → List UInt8 × File
  | 0, fBuf, fFile => (fBuf, fFile)
  | turns + 1, fBuf, fFile =>
    if 0 < fBuf.length then
      let piece := Buffer.fifo fBuf (.read 4096)
      dumpLoop turns piece.1 (fFile.write piece.2.bytes).1
    else (fBuf, fFile)

def dumpToFile (temp : TempFile) : TempFile :=
  let dumped := dumpLoop temp.fBuf.length temp.fBuf temp.fFile
  { temp with fMode := .file, fBuf := dumped.1, fFile := dumped.2 }

def setDiskMode (temp : TempFile) : TempFile :=
  temp.dumpToFile

def length (temp : TempFile) : Nat :=
  match temp.fMode with
  | .buffer => temp.fBuf.length
  | .file => temp.fFile.length

def read (temp : TempFile) (buf_len : Nat) : TempFile × List UInt8 :=
  match temp.fMode with
  | .buffer =>
    let bytes := Buffer.fifo temp.fBuf (.read buf_len)
    ({ temp with fBuf := bytes.1 }, bytes.2.bytes)
  | .file =>
    let bytes := temp.fFile.read buf_len
    ({ temp with fFile := bytes.1 }, bytes.2)

/-- The turn of the loop of `write` in file mode. -/
def writeFile (temp : TempFile) (bytes : List UInt8) : TempFile × Int :=
  let written := temp.fFile.write bytes
  ({ temp with fFile := written.1 }, written.2)

/-- `write`. The loop is taken again only after `dumpToFile`, then in file mode. -/
def write (temp : TempFile) (bytes : List UInt8) : TempFile × Int :=
  match temp.fMode with
  | .buffer =>
    if temp.kMemoryLimit < temp.fBuf.length + bytes.length then
      temp.dumpToFile.writeFile bytes
    else
      let written := Buffer.fifo temp.fBuf (.write bytes)
      ({ temp with fBuf := written.1 }, written.2.value)
  | .file => temp.writeFile bytes

def sendTo (turns : Nat) (temp : TempFile) (writer : Writeable) (sink : Sink) :
    TempFile × Sink × Option Int :=
  match temp.fMode with
  | .buffer =>
    let sent := Buffer.sendTo writer temp.fBuf sink
    (temp, sent.1, some sent.2)
  | .file =>
    let sent := temp.fFile.sendTo writer turns sink
    ({ temp with fFile := sent.1 }, sent.2)

def clear (temp : TempFile) : TempFile :=
  { temp with
    fFile := temp.fFile.unlink
    fBuf := (Buffer.fifo temp.fBuf .clear).1
    fMode := .buffer }

/-! ### The bytes that are still to be read -/

/-- What is left to read, in either mode. -/
def unread (temp : TempFile) : List UInt8 :=
  match temp.fMode with
  | .buffer => temp.fBuf
  | .file => temp.fFile.unread

/-- The offset of the file is within it; in memory mode nothing is left in the file, and in file
mode nothing is left in the buffer. -/
structure Wf (temp : TempFile) : Prop where
  fFile : temp.fFile.Wf
  buffer : temp.fMode = .buffer → temp.fFile.unread = []
  file : temp.fMode = .file → temp.fBuf = []

theorem unread_of_buffer {temp : TempFile} (inBuffer : temp.fMode = .buffer) :
    temp.unread = temp.fBuf := by
  rw [unread, inBuffer]

theorem write_of_spills {temp : TempFile} {bytes : List UInt8} (inBuffer : temp.fMode = .buffer)
    (spills : temp.kMemoryLimit < temp.fBuf.length + bytes.length) :
    temp.write bytes = temp.dumpToFile.writeFile bytes := by
  rw [write, inBuffer]
  exact if_pos spills

theorem write_of_fits {temp : TempFile} {bytes : List UInt8} (inBuffer : temp.fMode = .buffer)
    (fits : ¬ temp.kMemoryLimit < temp.fBuf.length + bytes.length) :
    temp.write bytes =
      ({ temp with fMode := .buffer, fBuf := temp.fBuf ++ bytes }, (bytes.length : Int)) := by
  obtain ⟨fMode, fBuf, fFile, kMemoryLimit⟩ := temp
  cases inBuffer
  exact if_neg fits

theorem write_of_file {temp : TempFile} {bytes : List UInt8} (inFile : temp.fMode = .file) :
    temp.write bytes = temp.writeFile bytes := by
  rw [write, inFile]

theorem wf_new (limit : Nat) : (TempFile.new limit).Wf :=
  ⟨File.wf_new, fun _ => rfl, fun inFile => by cases inFile⟩

/-- The loop moves the whole buffer to the end of the file. -/
theorem dumpLoop_eq {turns : Nat} {fBuf : List UInt8} (enough : fBuf.length ≤ turns)
    (fFile : File) : dumpLoop turns fBuf fFile = ([], (fFile.write fBuf).1) := by
  induction turns generalizing fBuf fFile with
  | zero =>
    have empty : fBuf = [] := List.length_eq_zero_iff.mp (by omega)
    rw [empty, dumpLoop]
    exact Prod.ext rfl (by simp [File.write])
  | succ turns inductionHypothesis =>
    rw [dumpLoop]
    split
    · have shorter : (Buffer.fifo fBuf (.read 4096)).1.length ≤ turns := by
        show (fBuf.drop 4096).length ≤ turns
        rw [List.length_drop]
        omega
      rw [inductionHypothesis shorter]
      show ([], _) = _
      simp only [File.write, Buffer.fifo, List.length_take, List.append_assoc,
        List.take_append_drop, List.length_drop]
    · have empty : fBuf = [] := List.length_eq_zero_iff.mp (by omega)
      rw [empty]
      exact Prod.ext rfl (by simp [File.write])

theorem dumpToFile_eq (temp : TempFile) :
    temp.dumpToFile =
      { temp with fMode := .file, fBuf := [], fFile := (temp.fFile.write temp.fBuf).1 } := by
  rw [dumpToFile, dumpLoop_eq (Nat.le_refl _)]

/-- Moving to the file changes nothing of what is left to read. -/
theorem unread_dumpToFile {temp : TempFile} (wf : temp.Wf) :
    temp.dumpToFile.Wf ∧ temp.dumpToFile.unread = temp.unread := by
  rw [dumpToFile_eq]
  refine ⟨⟨File.wf_write wf.fFile _, fun inBuffer => (by cases inBuffer), fun _ => rfl⟩, ?_⟩
  show (temp.fFile.write temp.fBuf).1.unread = temp.unread
  rw [File.unread_write wf.fFile, unread]
  cases inMode : temp.fMode with
  | buffer =>
    rw [wf.buffer inMode, List.nil_append]
  | file =>
    rw [wf.file inMode, List.append_nil]

theorem unread_writeFile {temp : TempFile} (wf : temp.Wf) (inFile : temp.fMode = .file)
    (bytes : List UInt8) :
    (temp.writeFile bytes).1.Wf ∧ (temp.writeFile bytes).1.unread = temp.unread ++ bytes := by
  obtain ⟨fMode, fBuf, fFile, kMemoryLimit⟩ := temp
  cases inFile
  exact ⟨⟨File.wf_write wf.fFile _, fun inBuffer => (by cases inBuffer), wf.file⟩,
    File.unread_write wf.fFile bytes⟩

theorem unread_write {temp : TempFile} (wf : temp.Wf) (bytes : List UInt8) :
    (temp.write bytes).1.Wf ∧ (temp.write bytes).1.unread = temp.unread ++ bytes := by
  cases inMode : temp.fMode with
  | buffer =>
    by_cases spills : temp.kMemoryLimit < temp.fBuf.length + bytes.length
    · obtain ⟨wfDumped, same⟩ := unread_dumpToFile wf
      rw [write_of_spills inMode spills, ← same]
      exact unread_writeFile wfDumped rfl bytes
    · rw [write_of_fits inMode spills]
      exact ⟨⟨wf.fFile, fun _ => wf.buffer inMode, fun inFile => (by cases inFile)⟩,
        by rw [unread_of_buffer inMode]; rfl⟩
  | file =>
    rw [write_of_file inMode]
    exact unread_writeFile wf inMode bytes

/-- A read returns the front of what is left to read, and leaves the rest. -/
theorem read_spec {temp : TempFile} (wf : temp.Wf) (buf_len : Nat) :
    (temp.read buf_len).1.Wf ∧ (temp.read buf_len).1.unread = temp.unread.drop buf_len ∧
      (temp.read buf_len).2 = temp.unread.take buf_len := by
  obtain ⟨fMode, fBuf, fFile, kMemoryLimit⟩ := temp
  cases fMode with
  | buffer => exact ⟨⟨wf.fFile, wf.buffer, fun inFile => (by cases inFile)⟩, rfl, rfl⟩
  | file =>
    exact ⟨⟨File.wf_read wf.fFile _, fun inBuffer => (by cases inBuffer), wf.file⟩,
      File.unread_read fFile buf_len, rfl⟩

/-! ### What else the operations change -/

theorem named_read (temp : TempFile) (buf_len : Nat) :
    (temp.read buf_len).1.fFile.named = temp.fFile.named := by
  obtain ⟨fMode, fBuf, fFile, kMemoryLimit⟩ := temp
  cases fMode with
  | buffer => rfl
  | file => rfl

theorem named_write (temp : TempFile) (bytes : List UInt8) :
    (temp.write bytes).1.fFile.named = temp.fFile.named := by
  cases inMode : temp.fMode with
  | buffer =>
    by_cases spills : temp.kMemoryLimit < temp.fBuf.length + bytes.length
    · rw [write_of_spills inMode spills, dumpToFile_eq]
      rfl
    · rw [write_of_fits inMode spills]
  | file =>
    rw [write_of_file inMode]
    rfl

theorem value_writeFile (temp : TempFile) (bytes : List UInt8) :
    (temp.writeFile bytes).2 = intOf bytes.length := by
  rw [writeFile, File.value_write]

/-- A write returns the number of bytes, unless it goes to the file and has more bytes than an
`int` can count. -/
theorem write_value {temp : TempFile} {bytes : List UInt8}
    (small : temp.fMode = .file ∨ temp.kMemoryLimit < temp.fBuf.length + bytes.length →
      bytes.length < 2 ^ 31) : (temp.write bytes).2 = bytes.length := by
  have counted : bytes.length < 2 ^ 31 → intOf bytes.length = bytes.length :=
    fun few => intOf_of_lt (by omega) (by omega)
  cases inMode : temp.fMode with
  | buffer =>
    by_cases spills : temp.kMemoryLimit < temp.fBuf.length + bytes.length
    · rw [write_of_spills inMode spills, value_writeFile]
      exact counted (small (Or.inr spills))
    · rw [write_of_fits inMode spills]
  | file =>
    rw [write_of_file inMode, value_writeFile]
    exact counted (small (Or.inl inMode))

/-! ### Spilling is transparent -/

/-- What a writer and a reader do. -/
inductive Access where
  | write (bytes : List UInt8)
  | read (buf_len : Nat)
  | setDiskMode
  deriving DecidableEq, Repr

/-- An access, with the bytes a read returns. -/
def access (temp : TempFile) : Access → TempFile × Option (List UInt8)
  | .write bytes => ((temp.write bytes).1, none)
  | .read buf_len => ((temp.read buf_len).1, some (temp.read buf_len).2)
  | .setDiskMode => (temp.setDiskMode, none)

/-- The same accesses on an unbounded queue in memory, which knows no disk. -/
def accessQueue (queue : List UInt8) : Access → List UInt8 × Option (List UInt8)
  | .write bytes => ((Buffer.fifo queue (.write bytes)).1, none)
  | .read buf_len =>
    ((Buffer.fifo queue (.read buf_len)).1, some (Buffer.fifo queue (.read buf_len)).2.bytes)
  | .setDiskMode => (queue, none)

theorem access_simulates {temp : TempFile} {queue : List UInt8}
    (related : temp.Wf ∧ temp.unread = queue) (step : Access) :
    ((temp.access step).1.Wf ∧ (temp.access step).1.unread = (accessQueue queue step).1) ∧
      (temp.access step).2 = (accessQueue queue step).2 := by
  obtain ⟨wf, rfl⟩ := related
  cases step with
  | write bytes => exact ⟨unread_write wf bytes, rfl⟩
  | read buf_len =>
    obtain ⟨wfAfter, rest, taken⟩ := read_spec wf buf_len
    exact ⟨⟨wfAfter, rest⟩, congrArg some taken⟩
  | setDiskMode => exact ⟨unread_dumpToFile wf, rfl⟩

/-- Whatever the limit, and wherever the content moves to disk, the reads of a new `TempFile`
return what the reads of an unbounded queue in memory return. -/
theorem reads_eq_queue_reads (limit : Nat) (steps : List Access) :
    replies access (TempFile.new limit) steps = replies accessQueue [] steps :=
  replies_eq_of_simulation (fun temp queue => temp.Wf ∧ temp.unread = queue)
    (fun _ _ step related _ => access_simulates related step) ⟨wf_new limit, rfl⟩
    (allAlong_true _ _)

example : replies access (TempFile.new 2)
    [.write [1, 2], .read 1, .write [3, 4], .read 2, .write [5], .read 9] =
      [none, some [1], none, some [2, 3], none, some [4, 5]] := by
  decide

end TempFile

end Nattan
