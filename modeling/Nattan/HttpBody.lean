/-
This file models `HttpBody` and proves for which sequences of calls it behaves the
same in memory and on disk, and that it does not for all.

Three observers go by the file and not by what is left to read of it. `length()` is
the size of the file, and reading does not make a file smaller, so it is right only
while nothing has been read from the file. `dumpAsFile` returns that length. And
`sendTo` reads the file through to its end, while in memory it leaves the content
where it is. So a body on disk shows what one in memory shows as long as nothing is sent
from the file, and `length()` and `dumpAsFile` are called only before the first byte is
read from it. It is what an unbounded queue would show, but for one thing: behind a
content that is not empty `sendTo` writes an end of line, which is no part of the body.
-/

import Nattan.TempFile

namespace Nattan

/-- A body. `pFile` is the file in the mode `HTTPBODY_DISK`, which only `useFile` sets. -/
structure HttpBody where
  fData : TempFile
  pFile : Option File
  deriving DecidableEq, Repr

namespace HttpBody

/-- The two bytes written after a body. -/
def crlf : List UInt8 :=
  [13, 10]

def new (memory_limit : Nat) : HttpBody where
  fData := TempFile.new memory_limit
  pFile := none

def length (body : HttpBody) : Nat :=
  match body.pFile with
  | some file => file.length
  | none => body.fData.length

def read (body : HttpBody) (buf_len : Nat) : HttpBody × List UInt8 :=
  match body.pFile with
  | some file => ({ body with pFile := some (file.read buf_len).1 }, (file.read buf_len).2)
  | none =>
    ({ body with fData := (body.fData.read buf_len).1 }, (body.fData.read buf_len).2)

def write (body : HttpBody) (bytes : List UInt8) : HttpBody × Int :=
  match body.pFile with
  | some file => ({ body with pFile := some (file.write bytes).1 }, (file.write bytes).2)
  | none => ({ body with fData := (body.fData.write bytes).1 }, (body.fData.write bytes).2)

/-- The content, before the end of line. -/
def sendContent (turns : Nat) (body : HttpBody) (writer : Writeable) (sink : Sink) :
    HttpBody × Sink × Option Int :=
  match body.pFile with
  | some file =>
    let sent := file.sendTo writer turns sink
    ({ body with pFile := some sent.1 }, sent.2)
  | none =>
    let sent := body.fData.sendTo turns writer sink
    ({ body with fData := sent.1 }, sent.2)

/-- The end of line, once the content is sent. -/
def sendEnd (writer : Writeable) : Sink × Option Int → Sink × Option Int
  | (sink, none) => (sink, none)
  | (sink, some ret) =>
    if ret < 0 then (sink, some ret)
    else
      let written := writer.write sink crlf
      if written.2 < 0 then (written.1, some (-1)) else (written.1, some ret)

def sendTo (turns : Nat) (body : HttpBody) (writer : Writeable) (sink : Sink) :
    HttpBody × Sink × Option Int :=
  if body.length = 0 then (body, sink, some 0)
  else
    let sent := body.sendContent turns writer sink
    (sent.1, sendEnd writer sent.2)

/-- The inner loop of `dumpAsFile`, with whether it was ended by a negative result. The number
of turns is the number of bytes. -/
def copyLoop : Nat → List UInt8 → File → File × Bool
  | 0, _, file => (file, false)
  | turns + 1, p, file =>
    if p = [] then (file, false)
    else
      let written := file.write p
      if 0 < written.2 then copyLoop turns (p.drop written.2.toNat) written.1
      else (written.1, decide (written.2 < 0))

/-- The outer loop of `dumpAsFile`, with whether it was ended by a failure. -/
def dumpLoop : Nat → HttpBody → File → HttpBody × File × Bool
  | 0, body, file => (body, file, false)
  | turns + 1, body, file =>
    let buf := body.read 65536
    if buf.2 = [] then (buf.1, file, false)
    else
      let copied := copyLoop buf.2.length buf.2 file
      if copied.2 then (buf.1, copied.1, true) else dumpLoop turns buf.1 copied.1

/-- What is left to read. -/
def unread (body : HttpBody) : List UInt8 :=
  match body.pFile with
  | some file => file.unread
  | none => body.fData.unread

/-- `dumpAsFile`. Every turn of its loop but the last takes a byte of what is left to read. -/
def dumpAsFile (body : HttpBody) (file : File) : HttpBody × File × Int :=
  let dumped := dumpLoop (body.unread.length + 1) body file
  (dumped.1, dumped.2.1, if dumped.2.2 then -1 else (body.length : Int))

def useFile (body : HttpBody) (file : File) : HttpBody :=
  { body with pFile := some file }

def reset (body : HttpBody) : HttpBody where
  pFile := none
  fData := body.fData.clear

/-! ### The body and the queue it stands for -/

inductive Op where
  | write (bytes : List UInt8)
  | read (buf_len : Nat)
  | length
  | sendTo (writer : Writeable)
  | dumpAsFile (file : File)

/-- What a caller sees of an operation: the result, the bytes read, what a `Writeable` was sent,
and the file that was written. -/
inductive Reply where
  | written (count : Int)
  | bytes (taken : List UInt8)
  | size (length : Nat)
  | sent (sink : Sink) (result : Option Int)
  | dumped (file : File) (result : Int)
  deriving DecidableEq, Repr

def apply (turns : Nat) (body : HttpBody) : Op → HttpBody × Reply
  | .write bytes => ((body.write bytes).1, .written (body.write bytes).2)
  | .read buf_len => ((body.read buf_len).1, .bytes (body.read buf_len).2)
  | .length => (body, .size body.length)
  | .sendTo writer =>
    let sent := body.sendTo turns writer Sink.new
    (sent.1, .sent sent.2.1 sent.2.2)
  | .dumpAsFile file =>
    let dumped := body.dumpAsFile file
    (dumped.1, .dumped dumped.2.1 dumped.2.2)

/-- What a body that is a queue sends: nothing when it is empty, and else the bytes it holds. -/
def sendUnread (writer : Writeable) (queue : List UInt8) : Sink × Option Int :=
  if queue = [] then (Sink.new, some 0)
  else
    let sent := Buffer.sendTo writer queue Sink.new
    (sent.1, some sent.2)

/-- The same with the end of line that the code writes behind a content that is not empty. -/
def sendLine (writer : Writeable) (queue : List UInt8) : Sink × Option Int :=
  if queue = [] then (Sink.new, some 0)
  else
    let sent := Buffer.sendTo writer queue Sink.new
    sendEnd writer (sent.1, some sent.2)

/-- The same operations on an unbounded queue in memory. Its length is what was written less
what was read, sending leaves it as it is, and dumping appends all of it to the file. -/
def applyQueue (sends : Writeable → List UInt8 → Sink × Option Int) (queue : List UInt8) :
    Op → List UInt8 × Reply
  | .write bytes => (queue ++ bytes, .written bytes.length)
  | .read buf_len => (queue.drop buf_len, .bytes (queue.take buf_len))
  | .length => (queue, .size queue.length)
  | .sendTo writer => (queue, .sent (sends writer queue).1 (sends writer queue).2)
  | .dumpAsFile file =>
    ([], .dumped { file with content := file.content ++ queue } queue.length)

/-- The operation does not see whether the body is in memory or on disk. On disk nothing is
sent, the length is asked for only while nothing has been read from the file, and a write is
shorter than an `int` can count. -/
def Uniform (body : HttpBody) : Op → Prop
  | .write bytes =>
    body.fData.fMode = .file ∨ body.fData.kMemoryLimit < body.fData.fBuf.length + bytes.length →
      bytes.length < 2 ^ 31
  | .read _ => True
  | .length | .dumpAsFile _ => body.fData.fMode = .file → body.fData.fFile.offset = 0
  | .sendTo _ => body.fData.fMode = .buffer ∨ body.length = 0

/-- The operation shows what the queue shows, which writes no end of line: moreover a body is sent
only when its `length()` is 0. -/
def Plain (body : HttpBody) (op : Op) : Prop :=
  Uniform body op ∧ ∀ writer, op = .sendTo writer → body.length = 0

/-! ### Every operation alone -/

/-- The body is on its own storage, whose name exists, and what is left to read is the queue. -/
structure Holds (body : HttpBody) (queue : List UInt8) : Prop where
  pFile : body.pFile = none
  fData : body.fData.Wf
  unread : body.fData.unread = queue
  named : body.fData.fFile.named = true

theorem holds_new (memory_limit : Nat) : Holds (HttpBody.new memory_limit) [] :=
  ⟨rfl, TempFile.wf_new memory_limit, rfl, rfl⟩

section Operations

variable {body : HttpBody} {queue : List UInt8}

theorem read_spec (holds : Holds body queue) (buf_len : Nat) :
    Holds (body.read buf_len).1 (queue.drop buf_len) ∧
      (body.read buf_len).2 = queue.take buf_len := by
  obtain ⟨fData, pFile⟩ := body
  obtain ⟨rfl, wf, rfl, named⟩ := holds
  obtain ⟨wfAfter, rest, taken⟩ := TempFile.read_spec wf buf_len
  exact ⟨⟨rfl, wfAfter, rest, (fData.named_read buf_len).trans named⟩, taken⟩

theorem write_spec (holds : Holds body queue) {bytes : List UInt8}
    (uniform : Uniform body (.write bytes)) :
    Holds (body.write bytes).1 (queue ++ bytes) ∧ (body.write bytes).2 = bytes.length := by
  obtain ⟨fData, pFile⟩ := body
  obtain ⟨rfl, wf, rfl, named⟩ := holds
  obtain ⟨wfAfter, appended⟩ := TempFile.unread_write wf bytes
  exact ⟨⟨rfl, wfAfter, appended, (fData.named_write bytes).trans named⟩,
    TempFile.write_value uniform⟩

theorem length_spec (holds : Holds body queue) (uniform : Uniform body .length) :
    body.length = queue.length := by
  obtain ⟨fData, pFile⟩ := body
  obtain ⟨rfl, wf, rfl, named⟩ := holds
  show fData.length = fData.unread.length
  obtain ⟨fMode, fBuf, fFile, kMemoryLimit⟩ := fData
  cases fMode with
  | buffer => rfl
  | file =>
    show fFile.length = fFile.unread.length
    rw [File.length, if_pos named, File.length_unread, show fFile.offset = 0 from uniform rfl]
    rfl

/-- A body of length 0 has nothing left to read: a file is at least as long as what is left of
it. -/
theorem queue_eq_nil_of_length (holds : Holds body queue) (empty : body.length = 0) :
    queue = [] := by
  obtain ⟨⟨fMode, fBuf, fFile, kMemoryLimit⟩, pFile⟩ := body
  obtain ⟨rfl, wf, rfl, named⟩ := holds
  cases fMode with
  | buffer => exact List.length_eq_zero_iff.mp empty
  | file =>
    have none : fFile.length = 0 := empty
    rw [File.length, if_pos named] at none
    refine List.length_eq_zero_iff.mp ?_
    show fFile.unread.length = 0
    rw [File.length_unread, none, Nat.zero_sub]

theorem sendTo_of_empty (turns : Nat) (empty : body.length = 0) (writer : Writeable) :
    body.sendTo turns writer Sink.new = (body, Sink.new, some 0) := by
  rw [sendTo, if_pos empty]

theorem sendTo_spec (turns : Nat) (holds : Holds body queue) {writer : Writeable}
    (uniform : Uniform body (.sendTo writer)) :
    body.sendTo turns writer Sink.new = (body, sendLine writer queue) := by
  by_cases none : body.length = 0
  · rw [sendTo_of_empty turns none, queue_eq_nil_of_length holds none, sendLine, if_pos rfl]
  · have inMemory : body.fData.fMode = .buffer := uniform.resolve_right none
    obtain ⟨⟨fMode, fBuf, fFile, kMemoryLimit⟩, pFile⟩ := body
    obtain ⟨rfl, wf, rfl, named⟩ := holds
    cases inMemory
    have some : fBuf ≠ [] := fun empty => none (List.length_eq_zero_iff.mpr empty)
    rw [sendTo, if_neg none]
    show _ = (_, if fBuf = [] then _ else _)
    rw [if_neg some]
    rfl

/-- The inner loop of `dumpAsFile` appends its piece. -/
theorem copyLoop_eq {p : List UInt8} (some : p ≠ []) (small : p.length ≤ 65536) (file : File) :
    copyLoop p.length p file = ((file.write p).1, false) := by
  have value : (file.write p).2 = (p.length : Int) := by
    rw [File.value_write, intOf_of_lt (by omega) (by omega)]
  have positive : 0 < p.length := List.length_pos_iff.mpr some
  obtain ⟨turns, count⟩ : ∃ turns, p.length = turns + 1 := ⟨p.length - 1, by omega⟩
  rw [count, copyLoop, if_neg some]
  dsimp only
  rw [value, if_pos (by omega), Int.toNat_natCast, List.drop_length]
  cases turns with
  | zero => rfl
  | succ turns => rw [copyLoop, if_pos rfl]

/-- The outer loop of `dumpAsFile` appends everything that is left to read. -/
theorem dumpLoop_spec {turns : Nat} (holds : Holds body queue) (enough : queue.length < turns)
    (file : File) :
    Holds (dumpLoop turns body file).1 [] ∧
      (dumpLoop turns body file).2 =
        ({ file with content := file.content ++ queue }, false) := by
  induction turns generalizing body queue file with
  | zero => omega
  | succ turns inductionHypothesis =>
    obtain ⟨holdsAfter, taken⟩ := read_spec holds 65536
    rw [dumpLoop]
    dsimp only
    rw [taken]
    by_cases empty : queue.take 65536 = []
    · have nothing : queue = [] := by
        rw [List.take_eq_nil_iff] at empty
        exact empty.resolve_left (by omega)
      rw [if_pos empty, nothing, List.append_nil]
      rw [nothing, List.drop_nil] at holdsAfter
      exact ⟨holdsAfter, rfl⟩
    · rw [if_neg empty, copyLoop_eq empty (List.length_take_le _ _)]
      have shorter : (queue.drop 65536).length < turns := by
        have some : queue ≠ [] := by
          intro nothing
          exact empty (by rw [nothing, List.take_nil])
        have positive : 0 < queue.length := List.length_pos_iff.mpr some
        rw [List.length_drop]
        omega
      obtain ⟨holdsLast, written⟩ := inductionHypothesis holdsAfter shorter
        (file.write (queue.take 65536)).1
      refine ⟨holdsLast, ?_⟩
      show (dumpLoop turns (body.read 65536).1 (file.write (queue.take 65536)).1).2 = _
      rw [written]
      simp [File.write]

theorem dumpAsFile_spec (holds : Holds body queue) {file : File}
    (uniform : Uniform body (.dumpAsFile file)) :
    Holds (body.dumpAsFile file).1 [] ∧
      (body.dumpAsFile file).2 =
        ({ file with content := file.content ++ queue }, (queue.length : Int)) := by
  have same : body.unread = queue := by
    rw [unread, holds.pFile]
    exact holds.unread
  obtain ⟨holdsAfter, dumped⟩ :=
    dumpLoop_spec holds (Nat.lt_succ_self queue.length) file
  rw [dumpAsFile, same]
  refine ⟨holdsAfter, ?_⟩
  dsimp only
  rw [dumped, length_spec holds uniform]
  rfl

end Operations

theorem apply_spec (turns : Nat) {body : HttpBody} {queue : List UInt8}
    (holds : Holds body queue) (op : Op) (uniform : Uniform body op) :
    Holds (body.apply turns op).1 (applyQueue sendLine queue op).1 ∧
      (body.apply turns op).2 = (applyQueue sendLine queue op).2 := by
  cases op with
  | write bytes =>
    obtain ⟨holdsAfter, value⟩ := write_spec holds uniform
    exact ⟨holdsAfter, congrArg Reply.written value⟩
  | read buf_len =>
    obtain ⟨holdsAfter, taken⟩ := read_spec holds buf_len
    exact ⟨holdsAfter, congrArg Reply.bytes taken⟩
  | length => exact ⟨holds, congrArg Reply.size (length_spec holds uniform)⟩
  | sendTo writer =>
    rw [apply, sendTo_spec turns holds uniform]
    exact ⟨holds, rfl⟩
  | dumpAsFile file =>
    obtain ⟨holdsAfter, dumped⟩ := dumpAsFile_spec holds uniform
    rw [apply, dumped]
    exact ⟨holdsAfter, rfl⟩

/-- The two queues differ in what they send when they are not empty. -/
theorem applyQueue_eq {queue : List UInt8} {op : Op}
    (quiet : ∀ writer, op = .sendTo writer → queue = []) :
    applyQueue sendLine queue op = applyQueue sendUnread queue op := by
  cases op with
  | sendTo writer =>
    rw [quiet writer rfl]
    rfl
  | _ => rfl

theorem apply_plain (turns : Nat) {body : HttpBody} {queue : List UInt8}
    (holds : Holds body queue) (op : Op) (plain : Plain body op) :
    Holds (body.apply turns op).1 (applyQueue sendUnread queue op).1 ∧
      (body.apply turns op).2 = (applyQueue sendUnread queue op).2 := by
  rw [← applyQueue_eq fun writer sends => queue_eq_nil_of_length holds (plain.2 writer sends)]
  exact apply_spec turns holds op plain.1

/-! ### Whole sequences of operations -/

/-- What the queue sends to a `Writeable` that takes all it is offered: the bytes it holds. -/
theorem sendUnread_ideal {queue : List UInt8} (small : queue.length < 2 ^ 31) :
    (sendUnread Writeable.ideal queue).1.accepted = queue ∧
      (sendUnread Writeable.ideal queue).2 = some (queue.length : Int) := by
  by_cases empty : queue = []
  · rw [sendUnread, if_pos empty, empty]
    exact ⟨rfl, rfl⟩
  · have positive : 0 < queue.length := List.length_pos_iff.mpr empty
    have sent : Buffer.sendTo Writeable.ideal queue Sink.new =
        ((⟨1, queue⟩ : Sink), (queue.length : Int)) := by
      obtain ⟨turns, count⟩ : ∃ turns, queue.length = turns + 1 := ⟨queue.length - 1, by omega⟩
      have written : Writeable.ideal.write Sink.new queue =
          ((⟨1, queue⟩ : Sink), (queue.length : Int)) := by
        simp [Writeable.ideal, Writeable.write, Sink.new]
      have loop : Buffer.sendLoop Writeable.ideal queue.length queue Sink.new =
          (⟨1, queue⟩, none) := by
        rw [count, Buffer.sendLoop, if_neg empty]
        dsimp only
        rw [written, intOf_of_lt (by omega) (by omega), if_neg (by omega), Int.toNat_natCast,
          List.drop_length]
        cases turns with
        | zero => rfl
        | succ turns => rw [Buffer.sendLoop, if_pos rfl]
      rw [Buffer.sendTo, loop]
    rw [sendUnread, if_neg empty, sent]
    exact ⟨rfl, rfl⟩

/-- As long as nothing is sent from the file, and its length is asked for only before the first
read from it, bodies of any two limits show the same: what a queue shows that writes an end of line
behind what it sends. -/
theorem replies_eq_of_uniform (turns first second : Nat) (ops : List Op)
    (uniformFirst : AllAlong (apply turns) Uniform (HttpBody.new first) ops)
    (uniformSecond : AllAlong (apply turns) Uniform (HttpBody.new second) ops) :
    replies (apply turns) (HttpBody.new first) ops =
        replies (apply turns) (HttpBody.new second) ops ∧
      replies (apply turns) (HttpBody.new first) ops = replies (applyQueue sendLine) [] ops := by
  have asQueue : ∀ limit, AllAlong (apply turns) Uniform (HttpBody.new limit) ops →
      replies (apply turns) (HttpBody.new limit) ops = replies (applyQueue sendLine) [] ops := by
    intro limit uniform
    exact replies_eq_of_simulation Holds
      (fun _ _ op holds allowed => apply_spec turns holds op allowed) (holds_new limit) uniform
  refine ⟨?_, asQueue first uniformFirst⟩
  rw [asQueue first uniformFirst, asQueue second uniformSecond]

/-- If moreover nothing is sent but the content of empty bodies, bodies of any two limits show what
the queue shows: the length is what was written less what was read, the bytes sent are those left
to read, and a dump returns the number of bytes it appended. -/
theorem replies_eq_queue (turns first second : Nat) (ops : List Op)
    (plainFirst : AllAlong (apply turns) Plain (HttpBody.new first) ops)
    (plainSecond : AllAlong (apply turns) Plain (HttpBody.new second) ops) :
    replies (apply turns) (HttpBody.new first) ops =
        replies (apply turns) (HttpBody.new second) ops ∧
      replies (apply turns) (HttpBody.new first) ops = replies (applyQueue sendUnread) [] ops ∧
      ∀ queue : List UInt8, queue.length < 2 ^ 31 →
        (sendUnread Writeable.ideal queue).1.accepted = queue := by
  have asQueue : ∀ limit, AllAlong (apply turns) Plain (HttpBody.new limit) ops →
      replies (apply turns) (HttpBody.new limit) ops = replies (applyQueue sendUnread) [] ops := by
    intro limit plain
    exact replies_eq_of_simulation Holds
      (fun _ _ op holds allowed => apply_plain turns holds op allowed) (holds_new limit) plain
  refine ⟨?_, asQueue first plainFirst, fun queue small => (sendUnread_ideal small).1⟩
  rw [asQueue first plainFirst, asQueue second plainSecond]

/-- A body that went to disk and is asked for its length before it is read, beside one that
stays in memory. Both are sent while they are still empty. -/
theorem replies_eq_queue_at_one_and_nine :
    AllAlong (apply 0) Plain (HttpBody.new 1)
        [.sendTo Writeable.ideal, .write [1, 2], .length, .read 1] ∧
      AllAlong (apply 0) Plain (HttpBody.new 9)
        [.sendTo Writeable.ideal, .write [1, 2], .length, .read 1] ∧
      replies (apply 0) (HttpBody.new 1)
          [.sendTo Writeable.ideal, .write [1, 2], .length, .read 1] =
        [.sent ⟨0, []⟩ (some 0), .written 2, .size 2, .bytes [1]] := by
  have first : AllAlong (apply 0) Plain (HttpBody.new 1)
      [.sendTo Writeable.ideal, .write [1, 2], .length, .read 1] :=
    ⟨⟨.inl rfl, fun _ _ => rfl⟩, ⟨fun _ => by decide, fun _ sends => by cases sends⟩,
      ⟨fun _ => rfl, fun _ sends => by cases sends⟩, ⟨trivial, fun _ sends => by cases sends⟩,
      trivial⟩
  have second : AllAlong (apply 0) Plain (HttpBody.new 9)
      [.sendTo Writeable.ideal, .write [1, 2], .length, .read 1] :=
    ⟨⟨.inl rfl, fun _ _ => rfl⟩, ⟨fun _ => by decide, fun _ sends => by cases sends⟩,
      ⟨fun _ => rfl, fun _ sends => by cases sends⟩, ⟨trivial, fun _ sends => by cases sends⟩,
      trivial⟩
  refine ⟨first, second, ?_⟩
  rw [(replies_eq_queue 0 1 9 _ first second).2.1]
  rfl

/-- Two bytes that went to disk, of which one is read: the length is still two. Sent twice: the
second time only the end of line is sent. Dumped after a read: one byte is appended and two is
returned. In memory none of this is so, but there too one byte is sent as three, with the result
one. -/
theorem replies_differ_on_disk :
    (replies (apply 4) (HttpBody.new 1) [.write [1, 2], .read 1, .length] =
          [.written 2, .bytes [1], .size 2] ∧
        replies (apply 4) (HttpBody.new 9) [.write [1, 2], .read 1, .length] =
          [.written 2, .bytes [1], .size 1]) ∧
      (replies (apply 4) (HttpBody.new 1)
            [.write [1, 2], .sendTo Writeable.ideal, .sendTo Writeable.ideal] =
          [.written 2, .sent ⟨2, [1, 2, 13, 10]⟩ (some 2), .sent ⟨1, [13, 10]⟩ (some 0)] ∧
        replies (apply 4) (HttpBody.new 9)
            [.write [1, 2], .sendTo Writeable.ideal, .sendTo Writeable.ideal] =
          [.written 2, .sent ⟨2, [1, 2, 13, 10]⟩ (some 2),
            .sent ⟨2, [1, 2, 13, 10]⟩ (some 2)]) ∧
      (replies (apply 4) (HttpBody.new 1) [.write [1, 2], .read 1, .dumpAsFile File.new] =
          [.written 2, .bytes [1], .dumped ⟨[2], 0, true⟩ 2] ∧
        replies (apply 4) (HttpBody.new 9) [.write [1, 2], .read 1, .dumpAsFile File.new] =
          [.written 2, .bytes [1], .dumped ⟨[2], 0, true⟩ 1]) ∧
      (replies (apply 4) (HttpBody.new 9) [.write [7], .sendTo Writeable.ideal] =
          [.written 1, .sent ⟨2, [7, 13, 10]⟩ (some 1)] ∧
        replies (applyQueue sendUnread) [] [.write [7], .sendTo Writeable.ideal] =
          [.written 1, .sent ⟨1, [7]⟩ (some 1)]) := by
  decide +kernel

end HttpBody

end Nattan
