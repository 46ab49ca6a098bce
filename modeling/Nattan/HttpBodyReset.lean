/-
This file proves after which histories, and for which later calls, a cleared
`TempFile` and a reset `HttpBody` are as good as new, and that they are not always.

`clear()` empties the buffer and unlinks the file, but the descriptors stay open on
the inode, with the offset where it was. So content that goes to disk later is
appended behind what was not read of the content before, and is read after it. And
since the name is gone, `length()` of what is on disk is zero from then on, so an
`HttpBody` that is on disk again sends nothing. What is kept in memory is not
touched by any of this. In file mode reads, and `TempFile::sendTo`, are right if
nothing was left to read in the file when it was unlinked.
-/

import Nattan.HttpBody

namespace Nattan

/-! ### Sending depends on what is left to read -/

namespace File

theorem read_congr {file other : File} (same : file.unread = other.unread) (buf_len : Nat) :
    (file.read buf_len).1.unread = (other.read buf_len).1.unread ∧
      (file.read buf_len).2 = (other.read buf_len).2 := by
  rw [unread_read, unread_read, same]
  refine ⟨rfl, ?_⟩
  show file.unread.take buf_len = other.unread.take buf_len
  rw [same]

/-- Two files with the same bytes left to read are sent alike. -/
theorem sendLoop_congr (writer : Writeable) (turns : Nat) {file other : File}
    (same : file.unread = other.unread) (piece : List UInt8) (len : Nat) (sink : Sink) :
    (sendLoop writer turns file piece len sink).1.unread =
        (sendLoop writer turns other piece len sink).1.unread ∧
      (sendLoop writer turns file piece len sink).2 =
        (sendLoop writer turns other piece len sink).2 := by
  induction turns generalizing file other piece len sink with
  | zero => exact ⟨same, rfl⟩
  | succ turns inductionHypothesis =>
    obtain ⟨sameRest, sameRead⟩ := read_congr same kFileBufferSize
    rw [sendLoop, sendLoop]
    dsimp only
    split
    · rw [sameRead]
      split
      · exact ⟨sameRest, rfl⟩
      · exact inductionHypothesis sameRest _ _ _
    · split
      · exact ⟨same, rfl⟩
      · exact inductionHypothesis same _ _ _

end File

/-! ### A cleared `TempFile` beside a new one -/

namespace TempFile

inductive Op where
  | write (bytes : List UInt8)
  | read (buf_len : Nat)
  | length
  | sendTo (writer : Writeable)

def apply (turns : Nat) (temp : TempFile) : Op → TempFile × HttpBody.Reply
  | .write bytes => ((temp.write bytes).1, .written (temp.write bytes).2)
  | .read buf_len => ((temp.read buf_len).1, .bytes (temp.read buf_len).2)
  | .length => (temp, .size temp.length)
  | .sendTo writer =>
    let sent := temp.sendTo turns writer Sink.new
    (sent.1, .sent sent.2.1 sent.2.2)

/-- The two objects differ only in the file: in front of what the new one has left to read, the
cleared one has what was left of the earlier content. -/
structure AsNew (earlier : List UInt8) (temp fresh : TempFile) : Prop where
  fMode : temp.fMode = fresh.fMode
  fBuf : temp.fBuf = fresh.fBuf
  kMemoryLimit : temp.kMemoryLimit = fresh.kMemoryLimit
  wf : temp.fFile.Wf
  wfFresh : fresh.fFile.Wf
  unread : temp.fFile.unread = earlier ++ fresh.fFile.unread

/-- The operation does not see the earlier content: in file mode bytes are taken out only if
nothing of it was left, and the length is asked for in memory mode only. -/
def Clean (earlier : List UInt8) (temp : TempFile) : Op → Prop
  | .write _ => True
  | .read _ | .sendTo _ => temp.fMode = .file → earlier = []
  | .length => temp.fMode = .buffer

section AsNew

variable {earlier : List UInt8} {temp fresh : TempFile}

theorem AsNew.file_write (asNew : AsNew earlier temp fresh) (bytes : List UInt8) :
    (temp.fFile.write bytes).1.unread = earlier ++ (fresh.fFile.write bytes).1.unread := by
  rw [File.unread_write asNew.wf, File.unread_write asNew.wfFresh, asNew.unread,
    List.append_assoc]

theorem AsNew.writeFile (asNew : AsNew earlier temp fresh) (bytes : List UInt8) :
    AsNew earlier (temp.writeFile bytes).1 (fresh.writeFile bytes).1 ∧
      (temp.writeFile bytes).2 = (fresh.writeFile bytes).2 := by
  refine ⟨⟨asNew.fMode, asNew.fBuf, asNew.kMemoryLimit, File.wf_write asNew.wf _,
    File.wf_write asNew.wfFresh _, asNew.file_write bytes⟩, ?_⟩
  rw [value_writeFile, value_writeFile]

theorem AsNew.dumpToFile (asNew : AsNew earlier temp fresh) :
    AsNew earlier temp.dumpToFile fresh.dumpToFile := by
  rw [dumpToFile_eq, dumpToFile_eq, asNew.fBuf]
  exact ⟨rfl, rfl, asNew.kMemoryLimit, File.wf_write asNew.wf _, File.wf_write asNew.wfFresh _,
    asNew.file_write fresh.fBuf⟩

theorem AsNew.write (asNew : AsNew earlier temp fresh) (bytes : List UInt8) :
    AsNew earlier (temp.write bytes).1 (fresh.write bytes).1 ∧
      (temp.write bytes).2 = (fresh.write bytes).2 := by
  cases inMode : temp.fMode with
  | buffer =>
    have inModeFresh : fresh.fMode = .buffer := asNew.fMode.symm.trans inMode
    by_cases spills : temp.kMemoryLimit < temp.fBuf.length + bytes.length
    · rw [write_of_spills inMode spills, write_of_spills inModeFresh
        (by rw [← asNew.fBuf, ← asNew.kMemoryLimit]; exact spills)]
      exact asNew.dumpToFile.writeFile bytes
    · rw [write_of_fits inMode spills, write_of_fits inModeFresh
        (by rw [← asNew.fBuf, ← asNew.kMemoryLimit]; exact spills), asNew.fBuf]
      exact ⟨⟨rfl, rfl, asNew.kMemoryLimit, asNew.wf, asNew.wfFresh, asNew.unread⟩, rfl⟩
  | file =>
    rw [write_of_file inMode, write_of_file (asNew.fMode.symm.trans inMode)]
    exact asNew.writeFile bytes

theorem AsNew.read (asNew : AsNew earlier temp fresh) {buf_len : Nat}
    (clean : Clean earlier temp (.read buf_len)) :
    AsNew earlier (temp.read buf_len).1 (fresh.read buf_len).1 ∧
      (temp.read buf_len).2 = (fresh.read buf_len).2 := by
  obtain ⟨fMode, fBuf, fFile, kMemoryLimit⟩ := temp
  obtain ⟨freshMode, freshBuf, freshFile, freshLimit⟩ := fresh
  obtain ⟨rfl, rfl, rfl, wf, wfFresh, unread⟩ := asNew
  cases fMode with
  | buffer => exact ⟨⟨rfl, rfl, rfl, wf, wfFresh, unread⟩, rfl⟩
  | file =>
    cases clean rfl
    obtain ⟨sameRest, sameRead⟩ := File.read_congr unread buf_len
    exact ⟨⟨rfl, rfl, rfl, File.wf_read wf _, File.wf_read wfFresh _, sameRest⟩, sameRead⟩

theorem AsNew.sendTo (asNew : AsNew earlier temp fresh) (turns : Nat) {writer : Writeable}
    (clean : Clean earlier temp (.sendTo writer)) (sink : Sink) :
    AsNew earlier (temp.sendTo turns writer sink).1 (fresh.sendTo turns writer sink).1 ∧
      (temp.sendTo turns writer sink).2 = (fresh.sendTo turns writer sink).2 := by
  obtain ⟨fMode, fBuf, fFile, kMemoryLimit⟩ := temp
  obtain ⟨freshMode, freshBuf, freshFile, freshLimit⟩ := fresh
  obtain ⟨rfl, rfl, rfl, wf, wfFresh, unread⟩ := asNew
  cases fMode with
  | buffer => exact ⟨⟨rfl, rfl, rfl, wf, wfFresh, unread⟩, rfl⟩
  | file =>
    cases clean rfl
    obtain ⟨sameRest, sameSent⟩ := File.sendLoop_congr writer turns unread [] 0 sink
    exact ⟨⟨rfl, rfl, rfl, (File.sendLoop_frame writer turns wf _ _ _).2.2,
      (File.sendLoop_frame writer turns wfFresh _ _ _).2.2, sameRest⟩, sameSent⟩

theorem AsNew.length (asNew : AsNew earlier temp fresh) (clean : Clean earlier temp .length) :
    temp.length = fresh.length := by
  obtain ⟨fMode, fBuf, fFile, kMemoryLimit⟩ := temp
  obtain ⟨freshMode, freshBuf, freshFile, freshLimit⟩ := fresh
  obtain ⟨rfl, rfl, rfl, wf, wfFresh, unread⟩ := asNew
  cases clean
  rfl

theorem AsNew.apply (asNew : AsNew earlier temp fresh) (turns : Nat) (op : Op)
    (clean : Clean earlier temp op) :
    AsNew earlier (temp.apply turns op).1 (fresh.apply turns op).1 ∧
      (temp.apply turns op).2 = (fresh.apply turns op).2 := by
  cases op with
  | write bytes =>
    obtain ⟨asNewAfter, value⟩ := asNew.write bytes
    exact ⟨asNewAfter, congrArg HttpBody.Reply.written value⟩
  | read buf_len =>
    obtain ⟨asNewAfter, taken⟩ := asNew.read clean
    exact ⟨asNewAfter, congrArg HttpBody.Reply.bytes taken⟩
  | length => exact ⟨asNew, congrArg HttpBody.Reply.size (asNew.length clean)⟩
  | sendTo writer =>
    obtain ⟨asNewAfter, sent⟩ := asNew.sendTo turns clean Sink.new
    refine ⟨asNewAfter, ?_⟩
    rw [TempFile.apply, TempFile.apply]
    dsimp only
    rw [sent]

end AsNew

end TempFile

/-! ### A reset `HttpBody` beside a new one -/

namespace HttpBody

/-- The operations `HttpBody` shares with `TempFile`. -/
def applyData (turns : Nat) (body : HttpBody) : TempFile.Op → HttpBody × Reply
  | .write bytes => body.apply turns (.write bytes)
  | .read buf_len => body.apply turns (.read buf_len)
  | .length => body.apply turns .length
  | .sendTo writer => body.apply turns (.sendTo writer)

/-- The operation does not see the earlier content. Other than `TempFile::sendTo`, the one of a
body asks for the length. -/
def Clean (earlier : List UInt8) (body : HttpBody) : TempFile.Op → Prop
  | .write _ => True
  | .read _ => body.fData.fMode = .file → earlier = []
  | .length | .sendTo _ => body.fData.fMode = .buffer

structure AsNew (earlier : List UInt8) (body fresh : HttpBody) : Prop where
  pFile : body.pFile = none
  pFileFresh : fresh.pFile = none
  fData : TempFile.AsNew earlier body.fData fresh.fData

theorem AsNew.applyData {earlier : List UInt8} {body fresh : HttpBody}
    (asNew : AsNew earlier body fresh) (turns : Nat) (op : TempFile.Op)
    (clean : Clean earlier body op) :
    AsNew earlier (body.applyData turns op).1 (fresh.applyData turns op).1 ∧
      (body.applyData turns op).2 = (fresh.applyData turns op).2 := by
  obtain ⟨fData, pFile⟩ := body
  obtain ⟨freshData, freshFile⟩ := fresh
  obtain ⟨rfl, rfl, asNewData⟩ := asNew
  cases op with
  | write bytes =>
    obtain ⟨asNewAfter, value⟩ := asNewData.write bytes
    exact ⟨⟨rfl, rfl, asNewAfter⟩, congrArg Reply.written value⟩
  | read buf_len =>
    obtain ⟨asNewAfter, taken⟩ := asNewData.read clean
    exact ⟨⟨rfl, rfl, asNewAfter⟩, congrArg Reply.bytes taken⟩
  | length => exact ⟨⟨rfl, rfl, asNewData⟩, congrArg Reply.size (asNewData.length clean)⟩
  | sendTo writer =>
    have inBuffer : fData.fMode = .buffer := clean
    obtain ⟨asNewAfter, sent⟩ := asNewData.sendTo turns
      (show TempFile.Clean earlier fData (.sendTo writer) from fun inFile => by
        rw [inBuffer] at inFile
        cases inFile) Sink.new
    have sameLength : (⟨fData, none⟩ : HttpBody).length = (⟨freshData, none⟩ : HttpBody).length :=
      asNewData.length inBuffer
    rw [HttpBody.applyData, HttpBody.applyData, HttpBody.apply, HttpBody.apply, sendTo, sendTo,
      sameLength]
    dsimp only
    split
    · exact ⟨⟨rfl, rfl, asNewData⟩, rfl⟩
    · refine ⟨⟨rfl, rfl, asNewAfter⟩, ?_⟩
      show Reply.sent (sendEnd writer (fData.sendTo turns writer Sink.new).2).1
          (sendEnd writer (fData.sendTo turns writer Sink.new).2).2 =
        Reply.sent (sendEnd writer (freshData.sendTo turns writer Sink.new).2).1
          (sendEnd writer (freshData.sendTo turns writer Sink.new).2).2
      rw [sent]

end HttpBody

/-! ### Starting from nothing -/

/-- A `TempFile` that is cleared after a history. -/
def TempFile.cleared (turns limit : Nat) (history : List TempFile.Op) : TempFile :=
  (afterAll (TempFile.apply turns) (TempFile.new limit) history).clear

/-- A body that is reset after a history. -/
def HttpBody.cleared (turns limit : Nat) (history : List TempFile.Op) : HttpBody :=
  (afterAll (HttpBody.applyData turns) (HttpBody.new limit) history).reset

end Nattan
