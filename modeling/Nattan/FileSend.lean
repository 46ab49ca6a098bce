/-
This file models both overloads of `File::sendTo` and proves exactly when they report
what they sent.

The overload with a length counts what it read in the `int` `all`, and returns the
length it was given, whether the file had that many bytes or not. So a file that is
shorter than its label is reported as sent in full. Once `all` is past the largest
`int` the difference `len - all` is never zero again, and the loop sends the rest of
the file as well. The overload without a length counts in an `int` what it returns, and
from `2 ^ 32` bytes on that may be a small number again.

What a writer takes of a number of bytes offered in pieces is `Writeable.offerPieces`.
Both overloads offer the same pieces; they differ in the number of bytes they offer.
Both keep an answer in an `int`, so a negative one below `-2 ^ 31` may be taken for a
number of bytes. What is proved is for every writer whose first negative answer is heard
as one (`Writeable.Hears`).
-/

import Nattan.HttpSend

namespace Nattan

/-! ### The two overloads -/

/-- A file with its label. Sizes are `off_t` and labels `ssize_t`. -/
structure LabelledFile where
  file : File
  fLabelLength : Int
  size_lt : file.content.length < 2 ^ 63
  label_lt : fLabelLength < 2 ^ 63

/-- A call of one of the overloads. The length is a `size_t`. -/
inductive SendCall where
  | sendTo
  | sendToLen (len : Nat) (len_lt : len < 2 ^ 64)

/-- The value of a `size_t` as the `ssize_t` that is returned. -/
def ssizeOf (len : Nat) : Int :=
  (len : Int).bmod (2 ^ 64)

namespace File

/-- `std::min(len - all, kFileBufferSize)`, where `all` is an `int` that counted `count` bytes and
the difference is a `size_t`. -/
def want (len count : Nat) : Nat :=
  min (((len - intOf count) % 2 ^ 64 : Int)).toNat kFileBufferSize

/-- The number of bytes of the piece that `sendTo(w, len)` reads of a file that had `rest` bytes
left, when it has read `count` of them. -/
def wantedAt (len rest count : Nat) : Nat :=
  min (want len count) (rest - count)

/-- The two loops of `sendTo(w, len)`: `piece` is what is left of the bytes in `buf`, `cnt` the
counter of the inner loop, and `count` counts the bytes read. A turn is a read or a write. -/
def sendLenLoop (writer : Writeable) (len : Nat) :
    Nat → File → List UInt8 → Int → Nat → Sink → File × Sink × Option Int
  | 0, file, _, _, _, sink => (file, sink, none)
  | turns + 1, file, piece, cnt, count, sink =>
    if 0 < cnt then
      let written := writer.write sink piece
      let res := intOf written.2
      if res < 0 then (file, written.1, some (-1))
      else sendLenLoop writer len turns file (piece.drop res.toNat) (cnt - res) count written.1
    else if want len count = 0 then
      (file, sink, some (if cnt < 0 then -1 else ssizeOf len))
    else
      let buf := file.read (want len count)
      if buf.2 = [] then (buf.1, sink, some (ssizeOf len))
      else sendLenLoop writer len turns buf.1 buf.2 buf.2.length (count + buf.2.length) sink

/-- `sendTo(w, len)`. -/
def sendToLen (writer : Writeable) (turns : Nat) (len : Nat) (file : File) (sink : Sink) :
    File × Sink × Option Int :=
  sendLenLoop writer len turns file [] 0 0 sink

end File

namespace LabelledFile

def setLabelLength (file : LabelledFile) (len : Int) (len_lt : len < 2 ^ 63) : LabelledFile :=
  { file with fLabelLength := len, label_lt := len_lt }

/-- The length a call is limited to, if it is. -/
def limit (file : LabelledFile) : SendCall → Option Nat
  | .sendTo => if 0 < file.fLabelLength then some file.fLabelLength.toNat else none
  | .sendToLen len _ => some len

/-- Either overload. The one without a length calls the other if there is a label. -/
def send (writer : Writeable) (turns : Nat) (file : LabelledFile) (call : SendCall)
    (sink : Sink) : File × Sink × Option Int :=
  match call with
  | .sendTo =>
    if 0 < file.fLabelLength then
      File.sendToLen writer turns file.fLabelLength.toNat file.file sink
    else file.file.sendTo writer turns sink
  | .sendToLen len _ => File.sendToLen writer turns len file.file sink

/-- The bytes that are asked for. -/
def asked (file : LabelledFile) (call : SendCall) : List UInt8 :=
  match file.limit call with
  | some len => file.file.unread.take len
  | none => file.file.unread

end LabelledFile

/-- The bytes accepted are a prefix of those asked for, and a result that is not negative is the
number of bytes accepted, which then are all of them. -/
structure Reported (asked : List UInt8) (before after : Sink) (result : Option Int) : Prop where
  accepted : ∃ bytes, bytes <+: asked ∧ after.accepted = before.accepted ++ bytes
  whole : ∀ value, result = some value → 0 ≤ value →
    after.accepted = before.accepted ++ asked ∧ value = asked.length

/-- With enough turns the run returns, and what it did with any number of turns is reported. -/
def ReportsBy (asked : List UInt8) (sink : Sink) (run : Nat → File × Sink × Option Int) : Prop :=
  (∃ turns value, (run turns).2.2 = some value) ∧
    ∀ turns, Reported asked sink (run turns).2.1 (run turns).2.2

/-- The call returns and reports what it sent. -/
def LabelledFile.Reports (writer : Writeable) (file : LabelledFile) (call : SendCall)
    (sink : Sink) : Prop :=
  ReportsBy (file.asked call) sink fun turns => file.send writer turns call sink

/-- The writer answers an offer with a number of bytes or a negative number. -/
def Writeable.Answers (writer : Writeable) : Prop :=
  ∀ call n, 0 < n → writer.answer call n ≠ 0

/-- Offered `rest` bytes in pieces from a call on, the writer refuses before it has taken more
than `len` of them. -/
def Writeable.Refuses (writer : Writeable) (rest len calls : Nat) : Prop :=
  ∃ turns, (writer.offerPieces turns 0 rest calls).ending = .negative ∧
    (writer.offerPieces turns 0 rest calls).taken ≤ len

/-- Either the writer refuses in time, or the sizes are right. Without a length the number of bytes
is an `int`, or one that is negative as an `int`. With one, the file has as many bytes and no
more, or it has more and the length is an `int`; a length that is negative as a `ssize_t` promises
nothing. -/
def LabelledFile.Fits (writer : Writeable) (file : LabelledFile) (call : SendCall)
    (calls : Nat) : Prop :=
  let rest := file.file.unread.length
  match file.limit call with
  | none => rest < 2 ^ 31 ∨ 2 ^ 31 ≤ rest % 2 ^ 32 ∨ writer.Refuses rest rest calls
  | some len => 2 ^ 63 ≤ len ∨ len = rest ∨ (len < rest ∧ len < 2 ^ 31) ∨
    writer.Refuses rest len calls

/-- The number of bytes of the piece that a call reads when it has read `count` bytes. -/
def LabelledFile.pieceAt (file : LabelledFile) (call : SendCall) (count : Nat) : Nat :=
  match file.limit call with
  | none => min kFileBufferSize (file.file.unread.length - count)
  | some len => File.wantedAt len file.file.unread.length count

/-- The first negative answer that a call meets, if it meets one, is negative as an `int`. -/
def LabelledFile.Heard (writer : Writeable) (file : LabelledFile) (call : SendCall)
    (calls : Nat) : Prop :=
  ∀ turns, writer.Hears (file.pieceAt call) turns 0 0 calls

/-! ### Offers in pieces -/

section Offers

variable {writer : Writeable}

/-- Pieces are offered again after a zero. -/
theorem offerPieces_ne_zero (turns piece rest calls : Nat) :
    (writer.offerPieces turns piece rest calls).ending ≠ .zero := by
  induction turns generalizing piece rest calls with
  | zero => exact Ending.noConfusion
  | succ turns inductionHypothesis =>
    rw [Writeable.offerPieces]
    split
    · split
      · exact Ending.noConfusion
      · exact inductionHypothesis _ _ _
    · split
      · exact Ending.noConfusion
      · exact inductionHypothesis _ _ _

theorem offerPieces_taken_le (turns piece rest calls : Nat) :
    (writer.offerPieces turns piece rest calls).taken ≤ piece + rest := by
  induction turns generalizing piece rest calls with
  | zero => exact Nat.zero_le _
  | succ turns inductionHypothesis =>
    rw [Writeable.offerPieces]
    split
    · split
      · exact Nat.zero_le _
      · have bounded := inductionHypothesis (min kFileBufferSize rest) (rest - kFileBufferSize)
          calls
        omega
    · split
      · exact Nat.zero_le _
      · have bounded := inductionHypothesis (piece - (writer.answer calls piece).toNat) rest
          (calls + 1)
        have small := toNat_answer_le writer calls piece
        rw [taken_more]
        omega

/-- More turns change nothing once the offers ended, and until then add to what is taken. -/
theorem offerPieces_add (turns later piece rest calls : Nat) :
    ((writer.offerPieces turns piece rest calls).ending ≠ .pending →
        writer.offerPieces (turns + later) piece rest calls =
          writer.offerPieces turns piece rest calls) ∧
      (writer.offerPieces turns piece rest calls).taken ≤
        (writer.offerPieces (turns + later) piece rest calls).taken := by
  induction turns generalizing piece rest calls with
  | zero => exact ⟨fun ended => absurd rfl ended, Nat.zero_le _⟩
  | succ turns inductionHypothesis =>
    rw [Nat.add_right_comm, Writeable.offerPieces, Writeable.offerPieces]
    split
    · split
      · exact ⟨fun _ => rfl, Nat.le_refl _⟩
      · exact inductionHypothesis _ _ _
    · split
      · exact ⟨fun _ => rfl, Nat.le_refl _⟩
      · obtain ⟨same, grows⟩ := inductionHypothesis
          (piece - (writer.answer calls piece).toNat) rest (calls + 1)
        exact ⟨fun ended => by rw [same ended], Nat.add_le_add_left grows _⟩

/-- A writer that never answers zero comes to an end: every turn takes a byte, or moves bytes from
the rest to the piece. -/
theorem offerPieces_ends (answers : writer.Answers) {turns piece rest : Nat}
    (enough : piece + 2 * rest < turns) (calls : Nat) :
    (writer.offerPieces turns piece rest calls).ending ≠ .pending := by
  induction turns generalizing piece rest calls with
  | zero => omega
  | succ turns inductionHypothesis =>
    rw [Writeable.offerPieces]
    split
    · split
      · exact Ending.noConfusion
      · refine inductionHypothesis ?_ calls
        rw [kFileBufferSize]
        omega
    · split
      · exact Ending.noConfusion
      · rename_i some notNegative
        have nonzero := answers calls piece (by omega)
        refine inductionHypothesis ?_ (calls + 1)
        omega

/-- A writer that refuses in time never takes more, and never takes all. -/
theorem Writeable.Refuses.always {rest len calls : Nat} (refuses : writer.Refuses rest len calls)
    (turns : Nat) :
    (writer.offerPieces turns 0 rest calls).taken ≤ len ∧
      (writer.offerPieces turns 0 rest calls).ending ≠ .all := by
  obtain ⟨refused, negative, inTime⟩ := refuses
  have ended : (writer.offerPieces refused 0 rest calls).ending ≠ .pending := by
    rw [negative]
    exact Ending.noConfusion
  rcases Nat.le_total turns refused with earlier | later
  · obtain ⟨same, grows⟩ := @offerPieces_add writer turns (refused - turns) 0 rest calls
    rw [Nat.add_sub_cancel' earlier] at same grows
    refine ⟨Nat.le_trans grows inTime, fun all => ?_⟩
    have kept := same (by rw [all]; exact Ending.noConfusion)
    rw [← kept, negative] at all
    cases all
  · obtain ⟨same, -⟩ := @offerPieces_add writer refused (turns - refused) 0 rest calls
    rw [Nat.add_sub_cancel' later] at same
    rw [same ended, negative]
    exact ⟨inTime, Ending.noConfusion⟩

end Offers

namespace File

/-! ### What is read -/

/-- How many of the bytes that are left are going to be read, when `count` were read. -/
def ahead (len count rest : Nat) : Nat :=
  if len < 2 ^ 31 then min (len - count) rest else rest

/-- No more was read than the length, or, when that is no `int`, only full pieces before the end
of the file. -/
def Counted (len count rest : Nat) : Prop :=
  if len < 2 ^ 31 then count ≤ len else rest = 0 ∨ kFileBufferSize ∣ count

theorem counted_zero (len rest : Nat) : Counted len 0 rest := by
  rw [Counted]
  split
  · exact Nat.zero_le len
  · exact Or.inr (Nat.dvd_zero _)

theorem intOf_eq (count : Nat) :
    intOf count = (count % 2 ^ 32 : Nat) ∧ count % 2 ^ 32 < 2 ^ 31 ∨
      intOf count = (count % 2 ^ 32 : Nat) - 2 ^ 32 ∧ 2 ^ 31 ≤ count % 2 ^ 32 := by
  rw [intOf, Int.bmod_def]
  split
  · left
    omega
  · right
    omega

/-- Where the difference does not wrap, it is what is wanted, up to a piece. -/
theorem want_of_nonneg {len count : Nat} (len_lt : len < 2 ^ 63)
    (nonneg : 0 ≤ (len - intOf count : Int)) :
    want len count = min (len - intOf count : Int).toNat kFileBufferSize := by
  have low : -2 ^ 31 ≤ intOf count := @Int.le_bmod _ (2 ^ 32) (by decide)
  rw [want, Int.emod_eq_of_lt nonneg (by omega)]

/-- What is wanted is as much of what is ahead as a piece holds. -/
theorem min_want {len count rest : Nat} (len_lt : len < 2 ^ 63)
    (counted : Counted len count rest) :
    min (want len count) rest = min kFileBufferSize (ahead len count rest) := by
  rw [Counted] at counted
  rw [ahead]
  split
  · rename_i small
    rw [if_pos small] at counted
    have value : intOf count = count := intOf_of_lt (by omega) (by omega)
    rw [want_of_nonneg len_lt (by omega), value, ← Int.natCast_sub counted, Int.toNat_natCast]
    omega
  · rename_i large
    rw [if_neg large] at counted
    rcases counted with nothing | ⟨pieces, rfl⟩
    · omega
    · have value := intOf_eq (kFileBufferSize * pieces)
      rw [kFileBufferSize] at value ⊢
      rw [want_of_nonneg len_lt (by omega), kFileBufferSize]
      omega

theorem counted_read {len count rest : Nat} (counted : Counted len count rest) :
    Counted len (count + min kFileBufferSize (ahead len count rest))
      (rest - min kFileBufferSize (ahead len count rest)) := by
  rw [Counted] at counted ⊢
  rw [ahead]
  split
  · rename_i small
    rw [if_pos small] at counted
    omega
  · rename_i large
    rw [if_neg large] at counted
    rw [kFileBufferSize] at *
    omega

theorem ahead_read {len count rest : Nat} (counted : Counted len count rest) :
    ahead len (count + min kFileBufferSize (ahead len count rest))
        (rest - min kFileBufferSize (ahead len count rest)) =
      ahead len count rest - kFileBufferSize := by
  rw [Counted] at counted
  rw [ahead, ahead]
  split
  · rename_i small
    rw [if_pos small] at counted
    omega
  · omega

theorem ahead_le (len count rest : Nat) : ahead len count rest ≤ rest := by
  rw [ahead]
  split
  · exact Nat.min_le_right _ _
  · exact Nat.le_refl _

theorem read_snd (file : File) (size : Nat) : (file.read size).2 = file.unread.take size :=
  rfl

/-- What is read and what is left to read are what was left. -/
theorem read_append (file : File) (size : Nat) :
    (file.read size).2 ++ (file.read size).1.unread = file.unread := by
  rw [read_snd, unread_read, List.take_append_drop]

theorem length_read_want (file : File) (len count : Nat) :
    (file.read (want len count)).2.length ≤ kFileBufferSize := by
  rw [read_snd, List.length_take, want]
  exact Nat.le_trans (Nat.min_le_left _ _) (Nat.min_le_right _ _)

/-- Reading depends on the bytes that are read only. -/
theorem read_of_min {file : File} {size other : Nat}
    (same : min size file.unread.length = min other file.unread.length) :
    file.read size = file.read other := by
  have bytes : file.unread.take size = file.unread.take other := by
    rw [List.take_eq_take_min, same, ← List.take_eq_take_min]
  rw [read, read, bytes]

/-! ### The turns of the loop -/

section Turns

variable {writer : Writeable} {file : File} {piece : List UInt8} {count : Nat} {sink : Sink}

/-- The turn that finds nothing more to read, or nothing more to want. -/
theorem sendLenLoop_done (len turns : Nat) (nothing : (file.read (want len count)).2 = []) :
    (sendLenLoop writer len (turns + 1) file [] 0 count sink).2 = (sink, some (ssizeOf len)) := by
  rw [sendLenLoop, if_neg (Int.lt_irrefl 0), if_neg (Int.lt_irrefl 0)]
  dsimp only
  rw [if_pos nothing]
  by_cases wanted : want len count = 0
  · rw [if_pos wanted]
  · rw [if_neg wanted]

/-- A turn that reads. -/
theorem sendLenLoop_read (len turns : Nat) (something : (file.read (want len count)).2 ≠ []) :
    sendLenLoop writer len (turns + 1) file [] 0 count sink =
      sendLenLoop writer len turns (file.read (want len count)).1
        (file.read (want len count)).2 (file.read (want len count)).2.length
        (count + (file.read (want len count)).2.length) sink := by
  have wanted : want len count ≠ 0 := by
    intro zero
    rw [zero] at something
    exact something rfl
  rw [sendLenLoop, if_neg (Int.lt_irrefl 0), if_neg wanted, if_neg something]

/-- A turn that writes and hears a refusal. -/
theorem sendLenLoop_refused (some : piece ≠ []) (len turns : Nat)
    (negative : writer.answer sink.calls piece.length < 0)
    (heard : intOf (writer.answer sink.calls piece.length) < 0) :
    (sendLenLoop writer len (turns + 1) file piece piece.length count sink).2 =
      (⟨sink.calls + 1, sink.accepted⟩, Option.some (-1)) := by
  have positive : (0 : Int) < piece.length := Int.natCast_pos.mpr (List.length_pos_iff.mpr some)
  rw [sendLenLoop, if_pos positive]
  show (if intOf (writer.answer sink.calls piece.length) < 0 then _ else _ :
    File × Sink × Option Int).2 = _
  rw [if_pos heard]
  show ((⟨sink.calls + 1, sink.accepted ++ _⟩ : Sink), _) = _
  rw [Int.toNat_of_nonpos (Int.le_of_lt negative), List.take_zero, List.append_nil]

/-- A turn that writes and is answered with a number of bytes. -/
theorem sendLenLoop_taken (some : piece ≠ []) (small : piece.length ≤ kFileBufferSize)
    (len turns : Nat) (taken : ¬ writer.answer sink.calls piece.length < 0) :
    sendLenLoop writer len (turns + 1) file piece piece.length count sink =
      sendLenLoop writer len turns file
        (piece.drop (writer.answer sink.calls piece.length).toNat)
        (piece.drop (writer.answer sink.calls piece.length).toNat).length count
        ⟨sink.calls + 1, sink.accepted ++
          piece.take (writer.answer sink.calls piece.length).toNat⟩ := by
  have positive : (0 : Int) < piece.length := Int.natCast_pos.mpr (List.length_pos_iff.mpr some)
  have value := intOf_taken small taken
  have bounded := writer.answer_le sink.calls piece.length
  have left : (piece.length : Int) - writer.answer sink.calls piece.length =
      (piece.drop (writer.answer sink.calls piece.length).toNat).length := by
    rw [List.length_drop]
    omega
  rw [sendLenLoop, if_pos positive]
  show (if intOf (writer.answer sink.calls piece.length) < 0 then _ else
    sendLenLoop writer len turns file
      (piece.drop (intOf (writer.answer sink.calls piece.length)).toNat)
      (piece.length - intOf (writer.answer sink.calls piece.length)) count _) = _
  rw [value, if_neg taken, left]
  rfl

end Turns

/-! ### Whole runs -/

section Runs

variable {writer : Writeable}

theorem length_read_wanted {len rest count : Nat} {file : File}
    (left : file.unread.length = rest - count) :
    (file.read (want len count)).2.length = wantedAt len rest count := by
  rw [read_snd, List.length_take, left, wantedAt]

theorem left_of_read {len rest count : Nat} {file : File}
    (left : file.unread.length = rest - count) :
    (file.read (want len count)).1.unread.length =
      rest - (count + (file.read (want len count)).2.length) := by
  rw [length_read_wanted left, unread_read, List.length_drop, left, wantedAt]
  omega

/-- What is heard after a turn that reads. -/
theorem hears_of_read {len rest count turns calls : Nat} {file : File}
    (left : file.unread.length = rest - count) (something : (file.read (want len count)).2 ≠ [])
    (heard : wantedAt len rest count ≠ 0 →
      writer.Hears (wantedAt len rest) turns (wantedAt len rest count)
        (count + wantedAt len rest count) calls) :
    writer.Hears (wantedAt len rest) turns (file.read (want len count)).2.length
      (count + (file.read (want len count)).2.length) calls := by
  have size := @length_read_wanted len rest count file left
  have wanted : wantedAt len rest count ≠ 0 := by
    rw [← size]
    exact fun zero => something (List.length_eq_zero_iff.mp zero)
  rw [size]
  exact heard wanted

/-- As long as the length is no negative `ssize_t`, the overload offers what is ahead, in pieces,
and returns the length when all of it was taken. -/
theorem sendLenLoop_sends {len : Nat} (len_lt : len < 2 ^ 63) {rest turns : Nat} {file : File}
    {piece : List UInt8} (small : piece.length ≤ kFileBufferSize) {count : Nat}
    (left : file.unread.length = rest - count)
    (counted : Counted len count file.unread.length) (sink : Sink)
    (heard : writer.Hears (wantedAt len rest) turns piece.length count sink.calls) :
    Sends (piece ++ file.unread.take (ahead len count file.unread.length)) (ssizeOf len)
      (writer.offerPieces turns piece.length (ahead len count file.unread.length) sink.calls) sink
      (sendLenLoop writer len turns file piece piece.length count sink).2.1
      (sendLenLoop writer len turns file piece piece.length count sink).2.2 := by
  induction turns generalizing file piece count sink with
  | zero =>
    exact sends_nothing Ending.noConfusion Ending.noConfusion Ending.noConfusion fun _ => rfl
  | succ turns inductionHypothesis =>
    by_cases empty : piece = []
    · subst empty
      rw [List.nil_append, List.length_nil, Int.natCast_zero]
      have size := min_want len_lt counted
      have length : (file.read (want len count)).2.length =
          min kFileBufferSize (ahead len count file.unread.length) := by
        rw [read_snd, List.length_take, size]
      by_cases nothing : ahead len count file.unread.length = 0
      · have none : (file.read (want len count)).2 = [] := by
          rw [← List.length_eq_zero_iff, length, nothing]
          rfl
        rw [sendLenLoop_done len turns none, nothing, List.take_zero]
        exact sends_done
      · have within := ahead_le len count file.unread.length
        have same : file.read (want len count) =
            file.read (min kFileBufferSize (ahead len count file.unread.length)) :=
          read_of_min (by omega)
        have something : (file.read (want len count)).2 ≠ [] := by
          rw [← List.length_pos_iff, length, kFileBufferSize]
          omega
        have behind : ahead len (count + (file.read (want len count)).2.length)
            (file.read (want len count)).1.unread.length =
            ahead len count file.unread.length - kFileBufferSize := by
          rw [length, same, unread_read, List.length_drop]
          exact ahead_read counted
        have content : (file.read (want len count)).2 ++ (file.read (want len count)).1.unread.take
            (ahead len count file.unread.length - kFileBufferSize) =
            file.unread.take (ahead len count file.unread.length) := by
          have together : min kFileBufferSize (ahead len count file.unread.length) +
              (ahead len count file.unread.length - kFileBufferSize) =
              ahead len count file.unread.length := by omega
          rw [same, read_snd, unread_read, ← List.take_add, together]
        have countedLater : Counted len (count + (file.read (want len count)).2.length)
            (file.read (want len count)).1.unread.length := by
          rw [length, same, unread_read, List.length_drop]
          exact counted_read counted
        have later := inductionHypothesis (length_read_want file len count) (left_of_read left)
          countedLater sink (hears_of_read left something (hears_read heard))
        rw [behind, content] at later
        rw [sendLenLoop_read len turns something, Writeable.offerPieces, if_pos rfl, if_neg nothing,
          ← length]
        exact later
    · by_cases negative : writer.answer sink.calls piece.length < 0
      · rw [sendLenLoop_refused empty len turns negative (hears_refused heard empty negative)]
        exact sends_refused empty negative
      · rw [sendLenLoop_taken empty small len turns negative]
        refine sends_taken empty negative ?_
        have shorter :=
          (List.drop_sublist (writer.answer sink.calls piece.length).toNat piece).length_le
        exact @inductionHypothesis file _ (Nat.le_trans shorter small) count left counted
          ⟨sink.calls + 1, _⟩ (hears_taken heard empty negative)

theorem accepts_nothing (sink : Sink) (content : List UInt8) :
    ∃ bytes, bytes <+: content ∧ sink.accepted = sink.accepted ++ bytes :=
  ⟨[], List.nil_prefix, (List.append_nil _).symm⟩

/-- Whatever the length, what is accepted is a prefix of what is left to read, and a result is
either `-1` or the length. -/
theorem sendLenLoop_accepted (len : Nat) {rest turns : Nat} {file : File} {piece : List UInt8}
    (small : piece.length ≤ kFileBufferSize) {count : Nat}
    (left : file.unread.length = rest - count) (sink : Sink)
    (heard : writer.Hears (wantedAt len rest) turns piece.length count sink.calls) :
    (∃ bytes, bytes <+: piece ++ file.unread ∧
      (sendLenLoop writer len turns file piece piece.length count sink).2.1.accepted =
        sink.accepted ++ bytes) ∧
      ∀ value, (sendLenLoop writer len turns file piece piece.length count sink).2.2 =
        some value → value = -1 ∨ value = ssizeOf len := by
  induction turns generalizing file piece count sink with
  | zero => exact ⟨accepts_nothing sink _, fun value impossible => by cases impossible⟩
  | succ turns inductionHypothesis =>
    by_cases empty : piece = []
    · subst empty
      rw [List.length_nil, Int.natCast_zero]
      by_cases none : (file.read (want len count)).2 = []
      · rw [sendLenLoop_done len turns none]
        exact ⟨accepts_nothing sink _, fun value same => Or.inr (Option.some.inj same).symm⟩
      · have later := inductionHypothesis (length_read_want file len count) (left_of_read left) sink
          (hears_of_read left none (hears_read heard))
        rw [read_append] at later
        rw [sendLenLoop_read len turns none, List.nil_append]
        exact later
    · by_cases negative : writer.answer sink.calls piece.length < 0
      · rw [sendLenLoop_refused empty len turns negative (hears_refused heard empty negative)]
        exact ⟨accepts_nothing sink _, fun value same => Or.inl (Option.some.inj same).symm⟩
      · have heardLater := hears_taken heard empty negative
        rw [sendLenLoop_taken empty small len turns negative]
        generalize (writer.answer sink.calls piece.length).toNat = taken at *
        have shorter := (List.drop_sublist taken piece).length_le
        obtain ⟨⟨bytes, inRest, accepted⟩, results⟩ :=
          @inductionHypothesis file (piece.drop taken) (Nat.le_trans shorter small) count left
            ⟨sink.calls + 1, sink.accepted ++ piece.take taken⟩ heardLater
        refine ⟨⟨piece.take taken ++ bytes, ?_, ?_⟩, results⟩
        · have whole := (List.prefix_append_right_inj (piece.take taken)).mpr inRest
          rw [← List.append_assoc, List.take_append_drop] at whole
          exact whole
        · rw [accepted, List.append_assoc]

/-- Whatever the length, a writer that never answers zero brings the loop to its end. -/
theorem sendLenLoop_ends (answers : writer.Answers) (len : Nat) {rest turns : Nat} {file : File}
    {piece : List UInt8} (small : piece.length ≤ kFileBufferSize) {count : Nat}
    (left : file.unread.length = rest - count)
    (enough : piece.length + 2 * file.unread.length < turns) (sink : Sink)
    (heard : writer.Hears (wantedAt len rest) turns piece.length count sink.calls) :
    ∃ value, (sendLenLoop writer len turns file piece piece.length count sink).2.2 =
      some value := by
  induction turns generalizing file piece count sink with
  | zero => omega
  | succ turns inductionHypothesis =>
    by_cases empty : piece = []
    · subst empty
      rw [List.length_nil] at enough ⊢
      rw [Int.natCast_zero]
      by_cases none : (file.read (want len count)).2 = []
      · rw [sendLenLoop_done len turns none]
        exact ⟨ssizeOf len, rfl⟩
      · rw [sendLenLoop_read len turns none]
        refine inductionHypothesis (length_read_want file len count) (left_of_read left) ?_ sink
          (hears_of_read left none (hears_read heard))
        have some := List.length_pos_iff.mpr none
        rw [read_snd, List.length_take] at some ⊢
        rw [unread_read, List.length_drop]
        omega
    · by_cases negative : writer.answer sink.calls piece.length < 0
      · rw [sendLenLoop_refused empty len turns negative (hears_refused heard empty negative)]
        exact ⟨-1, rfl⟩
      · have nonzero := answers sink.calls piece.length (List.length_pos_iff.mpr empty)
        have positive := List.length_pos_iff.mpr empty
        have shorter : (piece.drop (writer.answer sink.calls piece.length).toNat).length <
            piece.length := by
          rw [List.length_drop]
          omega
        rw [sendLenLoop_taken empty small len turns negative]
        exact @inductionHypothesis file _ (by omega) count left (by omega) ⟨sink.calls + 1, _⟩
          (hears_taken heard empty negative)

end Runs

end File

/-! ### What is reported -/

section Reports

variable {writer : Writeable} {sink : Sink} {content asked : List UInt8} {total : Int}
  {run : Nat → File × Sink × Option Int}

/-- With enough turns the offers end, and they end with all or with a refusal. -/
theorem offerPieces_done (answers : writer.Answers) (rest calls : Nat) :
    ∃ turns, (writer.offerPieces turns 0 rest calls).ending = .all ∨
      (writer.offerPieces turns 0 rest calls).ending = .negative := by
  have ended := @offerPieces_ends writer answers (2 * rest + 1) 0 rest (by omega) calls
  have notZero := @offerPieces_ne_zero writer (2 * rest + 1) 0 rest calls
  refine ⟨2 * rest + 1, ?_⟩
  generalize (writer.offerPieces (2 * rest + 1) 0 rest calls).ending = ending at *
  cases ending with
  | all => exact Or.inl rfl
  | negative => exact Or.inr rfl
  | zero => exact absurd rfl notZero
  | pending => exact absurd rfl ended

/-- What a run of a sender accepted is what the offers say. -/
theorem accepted_of_sends {delivery : Delivery} {after : Sink} {result : Option Int}
    (sends : Sends content total delivery sink after result) :
    after.accepted = sink.accepted ++ content.take delivery.taken := by
  rw [sends.sink]

/-- A sender returns, with its total or a failure. -/
theorem returns_of_sends (answers : writer.Answers)
    (sends : ∀ turns, Sends content total (writer.offerPieces turns 0 content.length sink.calls)
      sink (run turns).2.1 (run turns).2.2) :
    ∃ turns value, (run turns).2.2 = some value := by
  obtain ⟨turns, all | negative⟩ := offerPieces_done answers content.length sink.calls
  · exact ⟨turns, total, ((sends turns).all all).2⟩
  · obtain ⟨value, result, -⟩ := (sends turns).negative negative
    exact ⟨turns, value, result⟩

/-- What a sender accepted is part of what was asked for: its content is, or the writer refuses in
time. -/
theorem accepted_of_condition
    (sends : ∀ turns, Sends content total (writer.offerPieces turns 0 content.length sink.calls)
      sink (run turns).2.1 (run turns).2.2)
    (comparable : content <+: asked ∨ asked <+: content)
    (condition : content <+: asked ∨ writer.Refuses content.length asked.length sink.calls)
    (turns : Nat) :
    ∃ bytes, bytes <+: asked ∧ (run turns).2.1.accepted = sink.accepted ++ bytes := by
  refine ⟨_, ?_, accepted_of_sends (sends turns)⟩
  rcases condition with inAsked | refuses
  · exact (List.take_prefix _ _).trans inAsked
  rcases comparable with inAsked | ⟨behind, same⟩
  · exact (List.take_prefix _ _).trans inAsked
  · have inTime := (refuses.always turns).1
    rw [← same] at inTime ⊢
    rw [List.take_append_of_le_length inTime]
    exact List.take_prefix _ _

/-- A sender whose total is that of its content and of what was asked for, or negative, reports
what it sent; another one only to a writer that refuses in time. -/
theorem reportsBy_iff_of_sends (answers : writer.Answers)
    (sends : ∀ turns, Sends content total (writer.offerPieces turns 0 content.length sink.calls)
      sink (run turns).2.1 (run turns).2.2)
    (comparable : content <+: asked ∨ asked <+: content) :
    ReportsBy asked sink run ↔
      (content <+: asked ∧ (total < 0 ∨ content = asked ∧ total = asked.length)) ∨
        writer.Refuses content.length asked.length sink.calls := by
  constructor
  · rintro ⟨-, reported⟩
    obtain ⟨turns, ends⟩ := offerPieces_done answers content.length sink.calls
    have accepted := accepted_of_sends (sends turns)
    obtain ⟨bytes, inAsked, same⟩ := (reported turns).accepted
    have bytes_eq := List.append_cancel_left (accepted.symm.trans same)
    rcases ends with all | negative
    · left
      obtain ⟨whole, result⟩ := (sends turns).all all
      rw [whole] at bytes_eq accepted
      refine ⟨bytes_eq ▸ inAsked, ?_⟩
      by_cases low : total < 0
      · exact Or.inl low
      · obtain ⟨acceptedAll, value⟩ := (reported turns).whole total result (by omega)
        exact Or.inr ⟨List.append_cancel_left (accepted.symm.trans acceptedAll), value⟩
    · right
      have bounded := @offerPieces_taken_le writer turns 0 content.length sink.calls
      have size := inAsked.length_le
      rw [← bytes_eq, List.length_take] at size
      exact ⟨turns, negative, by omega⟩
  · intro condition
    refine ⟨returns_of_sends answers sends, fun turns =>
      ⟨accepted_of_condition sends comparable (condition.imp_left And.left) turns, ?_⟩⟩
    intro value result positive
    cases ending : (writer.offerPieces turns 0 content.length sink.calls).ending with
    | all =>
      obtain ⟨whole, returned⟩ := (sends turns).all ending
      cases returned.symm.trans result
      rcases condition with ⟨-, low | ⟨content_eq, total_eq⟩⟩ | refuses
      · omega
      · rw [accepted_of_sends (sends turns), whole]
        exact ⟨congrArg _ content_eq, total_eq⟩
      · exact absurd ending (refuses.always turns).2
    | negative =>
      obtain ⟨answer, returned, negative⟩ := (sends turns).negative ending
      cases returned.symm.trans result
      omega
    | zero => exact absurd ending (offerPieces_ne_zero turns 0 _ _)
    | pending => cases ((sends turns).pending ending).symm.trans result

end Reports

namespace File

variable {writer : Writeable} {sink : Sink}

/-- The overload without a length. -/
theorem sendTo_reportsBy_iff (answers : writer.Answers) (file : File)
    (heard : ∀ turns, writer.Hears (fun count => min kFileBufferSize (file.unread.length - count))
      turns 0 0 sink.calls) :
    ReportsBy file.unread sink (fun turns => file.sendTo writer turns sink) ↔
      file.unread.length < 2 ^ 31 ∨ 2 ^ 31 ≤ file.unread.length % 2 ^ 32 ∨
        writer.Refuses file.unread.length file.unread.length sink.calls := by
  rw [reportsBy_iff_of_sends answers (fun turns => file_sends file sink (heard turns))
    (Or.inl (List.prefix_refl _))]
  have value := intOf_eq file.unread.length
  constructor
  · rintro (⟨-, low | ⟨-, same⟩⟩ | refuses)
    · exact Or.inr (Or.inl (by omega))
    · exact Or.inl (by omega)
    · exact Or.inr (Or.inr refuses)
  · rintro (small | wraps | refuses)
    · exact Or.inl ⟨List.prefix_refl _, Or.inr ⟨rfl, by omega⟩⟩
    · exact Or.inl ⟨List.prefix_refl _, Or.inl (by omega)⟩
    · exact Or.inr refuses

/-- The overload with a length that is negative as a `ssize_t`. It is more than any file has, and
the result is negative. -/
theorem sendToLen_reportsBy_of_large (answers : writer.Answers) {file : File}
    (size_lt : file.content.length < 2 ^ 63) {len : Nat} (large : 2 ^ 63 ≤ len)
    (len_lt : len < 2 ^ 64)
    (heard : ∀ turns, writer.Hears (wantedAt len file.unread.length) turns 0 0 sink.calls) :
    ReportsBy (file.unread.take len) sink fun turns => file.sendToLen writer turns len sink := by
  have size := @length_unread file
  have value : ssizeOf len = _ := Int.bmod_def len (2 ^ 64)
  have negative : ssizeOf len < 0 := by
    split at value
    · omega
    · omega
  have whole : file.unread.take len = file.unread := List.take_of_length_le (by omega)
  rw [whole]
  refine ⟨⟨2 * file.unread.length + 1, ?_⟩, fun turns => ?_⟩
  · exact @sendLenLoop_ends writer answers len _ _ file [] (Nat.zero_le _) 0 rfl
      (by rw [List.length_nil]; omega) sink (heard _)
  · obtain ⟨accepted, results⟩ :=
      @sendLenLoop_accepted writer len _ turns file [] (Nat.zero_le _) 0 rfl sink (heard turns)
    refine ⟨accepted, fun value result positive => ?_⟩
    rcases results value result with failed | returned
    · omega
    · omega

/-- The overload with a length that is a `ssize_t`. -/
theorem sendToLen_reportsBy_iff (answers : writer.Answers) (file : File) {len : Nat}
    (len_lt : len < 2 ^ 63)
    (heard : ∀ turns, writer.Hears (wantedAt len file.unread.length) turns 0 0 sink.calls) :
    ReportsBy (file.unread.take len) sink (fun turns => file.sendToLen writer turns len sink) ↔
      len = file.unread.length ∨ (len < file.unread.length ∧ len < 2 ^ 31) ∨
        writer.Refuses file.unread.length len sink.calls := by
  have total : ssizeOf len = len := Int.bmod_eq_of_le (by omega) (by omega)
  have within := ahead_le len 0 file.unread.length
  have length : (file.unread.take (ahead len 0 file.unread.length)).length =
      ahead len 0 file.unread.length := by
    rw [List.length_take]
    omega
  have sends : ∀ turns, Sends (file.unread.take (ahead len 0 file.unread.length)) len
      (writer.offerPieces turns 0 (file.unread.take (ahead len 0 file.unread.length)).length
        sink.calls) sink
      (file.sendToLen writer turns len sink).2.1 (file.sendToLen writer turns len sink).2.2 := by
    intro turns
    rw [length, ← total]
    exact @sendLenLoop_sends writer len len_lt _ turns file [] (Nat.zero_le _) 0 rfl
      (counted_zero len _) sink (heard turns)
  have limited : len < 2 ^ 31 ∧ ahead len 0 file.unread.length = min len file.unread.length ∨
      2 ^ 31 ≤ len ∧ ahead len 0 file.unread.length = file.unread.length := by
    rw [ahead, Nat.sub_zero]
    split <;> omega
  have comparable : file.unread.take (ahead len 0 file.unread.length) <+: file.unread.take len ∨
      file.unread.take len <+: file.unread.take (ahead len 0 file.unread.length) := by
    rcases Nat.le_total (ahead len 0 file.unread.length) len with fewer | more
    · exact Or.inl (List.take_prefix_take_left fewer)
    · exact Or.inr (List.take_prefix_take_left more)
  rw [reportsBy_iff_of_sends answers sends comparable, length, List.length_take]
  constructor
  · rintro (⟨-, low | ⟨same, total_eq⟩⟩ | ⟨turns, negative, inTime⟩)
    · omega
    · have sizes := congrArg List.length same
      rw [length, List.length_take] at sizes
      omega
    · rcases limited with ⟨small, offered⟩ | ⟨large, offered⟩
      · by_cases more : len ≤ file.unread.length
        · omega
        · rw [offered, Nat.min_eq_right (by omega)] at negative inTime
          exact Or.inr (Or.inr ⟨turns, negative, by omega⟩)
      · rw [offered] at negative inTime
        exact Or.inr (Or.inr ⟨turns, negative, by omega⟩)
  · intro condition
    by_cases exactly : ahead len 0 file.unread.length = len
    · rw [exactly]
      exact Or.inl ⟨List.prefix_refl _, Or.inr ⟨rfl, by omega⟩⟩
    · right
      have offered : ahead len 0 file.unread.length = file.unread.length := by omega
      obtain ⟨turns, negative, inTime⟩ : writer.Refuses file.unread.length len sink.calls := by
        rcases condition with same | more | refuses
        · omega
        · omega
        · exact refuses
      have bounded := @offerPieces_taken_le writer turns 0 file.unread.length sink.calls
      rw [offered]
      exact ⟨turns, negative, by omega⟩

end File

theorem LabelledFile.pieceAt_of_limited {file : LabelledFile} {call : SendCall} {len : Nat}
    (limited : file.limit call = some len) :
    file.pieceAt call = File.wantedAt len file.file.unread.length := by
  funext count
  rw [pieceAt, limited]

theorem LabelledFile.pieceAt_of_unlimited {file : LabelledFile} {call : SendCall}
    (unlimited : file.limit call = none) :
    file.pieceAt call = fun count => min kFileBufferSize (file.file.unread.length - count) := by
  funext count
  rw [pieceAt, unlimited]

/-- For every file, label and length, and for every writer that answers with a number of bytes or a
negative number, the first of which is heard as one: what was sent is reported exactly when the
writer refuses in time or the sizes are right. -/
theorem LabelledFile.send_reports_iff {writer : Writeable} (answers : writer.Answers)
    (file : LabelledFile) (call : SendCall) (sink : Sink)
    (heard : file.Heard writer call sink.calls) :
    file.Reports writer call sink ↔ file.Fits writer call sink.calls := by
  have limited : ∀ len, len < 2 ^ 64 →
      (∀ turns, writer.Hears (File.wantedAt len file.file.unread.length) turns 0 0 sink.calls) →
      (ReportsBy (file.file.unread.take len) sink
          (fun turns => file.file.sendToLen writer turns len sink) ↔
        2 ^ 63 ≤ len ∨ len = file.file.unread.length ∨
          (len < file.file.unread.length ∧ len < 2 ^ 31) ∨
          writer.Refuses file.file.unread.length len sink.calls) := by
    intro len len_lt heard
    by_cases large : 2 ^ 63 ≤ len
    · exact iff_of_true
        (File.sendToLen_reportsBy_of_large answers file.size_lt large len_lt heard) (Or.inl large)
    · rw [or_iff_right large]
      exact File.sendToLen_reportsBy_iff answers file.file (by omega) heard
  cases call with
  | sendTo =>
    by_cases labelled : 0 < file.fLabelLength
    · have label := file.label_lt
      have limit_eq : file.limit .sendTo = some file.fLabelLength.toNat := if_pos labelled
      rw [Heard, pieceAt_of_limited limit_eq] at heard
      have result := limited file.fLabelLength.toNat (by omega) heard
      simp only [Reports, asked, send, Fits, limit_eq, if_pos labelled]
      exact result
    · have limit_eq : file.limit .sendTo = none := if_neg labelled
      rw [Heard, pieceAt_of_unlimited limit_eq] at heard
      simp only [Reports, asked, send, Fits, limit_eq, if_neg labelled]
      exact File.sendTo_reportsBy_iff answers file.file heard
  | sendToLen len len_lt => exact limited len len_lt heard

/-- A writer that never refuses is always heard. -/
theorem hears_of_nonneg {writer : Writeable} (nonneg : ∀ call n, 0 ≤ writer.answer call n)
    (pieceAt : Nat → Nat) (turns piece count calls : Nat) :
    writer.Hears pieceAt turns piece count calls := by
  induction turns generalizing piece count calls with
  | zero => exact trivial
  | succ turns inductionHypothesis =>
    rw [Writeable.Hears]
    split
    · exact fun _ => inductionHypothesis _ _ _
    · rw [if_neg (Int.not_lt.mpr (nonneg calls piece))]
      exact inductionHypothesis _ _ _

theorem answers_ideal : Writeable.ideal.Answers := by
  intro call n some
  show (n : Int) ≠ 0
  omega

/-- A file with three bytes, all of them unread, and no label. -/
def threeBytes : LabelledFile where
  file := { content := [1, 2, 3], offset := 0, named := true }
  fLabelLength := -1
  size_lt := by decide
  label_lt := by decide

/-- Two of three bytes are sent as labelled. -/
theorem send_reports_threeBytes :
    (threeBytes.setLabelLength 2 (by decide)).Reports Writeable.ideal .sendTo Sink.new :=
  (LabelledFile.send_reports_iff answers_ideal (threeBytes.setLabelLength 2 (by decide)) .sendTo
      Sink.new fun turns => hears_of_nonneg (fun _ n => Int.natCast_nonneg n) _ turns 0 0 0).mpr
    (Or.inr (Or.inr (Or.inl (by decide))))

/-- Five of three bytes are reported as sent. -/
theorem not_reports_threeBytes :
    ¬ ∀ (writer : Writeable) (file : LabelledFile) (call : SendCall) (sink : Sink),
      writer.Answers → file.Reports writer call sink := by
  intro reports
  obtain ⟨-, reported⟩ := reports Writeable.ideal (threeBytes.setLabelLength 5 (by decide))
    .sendTo Sink.new answers_ideal
  have returned : ((threeBytes.setLabelLength 5 (by decide)).send Writeable.ideal 4 .sendTo
      Sink.new).2.2 = some 5 := by decide +kernel
  have value := ((reported 4).whole 5 returned (by decide)).2
  exact absurd value (by decide)

end Nattan
