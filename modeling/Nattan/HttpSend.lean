/-
This file models `HttpParser::sendTo` and proves exactly when it sends one message as
the header promises it, or reports a failure.

Three things are in its way. A header that meets an answer of zero is taken as sent,
and the body follows a part of the header; a body in memory that meets an answer of
zero is taken as sent too. And after every body that is not empty an end of line is
written, which belongs to no message and which `Content-Length` does not count.

Whether any of this shows depends on the lengths and on how the writer answers. That
is described first, without bytes: `offer` says how a loop that offers a number of
bytes from some call on ends, and how many were taken by then.
-/

import Nattan.HttpBody
import Nattan.HttpHeader

namespace Nattan

/-! ### Sending -/

/-- `HttpHeader::sendTo`. -/
def HttpHeader.sendTo (names : HttpNames) (keys : List (List UInt8)) (header : HttpHeader)
    (writer : Writeable) (sink : Sink) : Option (HttpHeader × Sink × Int) :=
  (header.dumpToBuffer names keys).map fun dumped =>
    (dumped.1, Buffer.sendTo writer dumped.2 sink)

/-- The body, after a header that was sent with the result `res`. -/
def HttpBody.sendAfter (turns : Nat) (body : HttpBody) (writer : Writeable) (sink : Sink)
    (res : Int) : HttpBody × Sink × Option Int :=
  if res < 0 then (body, sink, some res)
  else
    let sent := body.sendTo turns writer sink
    (sent.1, sent.2.1, sent.2.2.map fun ret => if ret < 0 then ret else res + ret)

/-- `HttpParser::sendTo`, on the two members it sends. The result is missing as long as the
writer keeps `File::sendTo` in its loop. -/
def HttpParser.sendTo (turns : Nat) (names : HttpNames) (keys : List (List UInt8))
    (header : HttpHeader) (body : HttpBody) (writer : Writeable) :
    Option ((HttpHeader × HttpBody) × Sink × Option Int) :=
  (header.sendTo names keys writer Sink.new).map fun sent =>
    let after := body.sendAfter turns writer sent.2.1 sent.2.2
    ((sent.1, after.1), after.2)

/-- One correctly framed message, or a failure: the bytes accepted are a prefix of the header
block and the body, and all of it when the result is not negative, which then is its length. -/
structure Framed (message : List UInt8) (sink : Sink) (result : Option Int) : Prop where
  accepted : sink.accepted <+: message
  complete : ∀ value, result = some value → 0 ≤ value →
    sink.accepted = message ∧ value = message.length

/-! ### How a writer takes what it is offered -/

/-- How a loop of offers ends. -/
inductive Ending where
  | all
  | zero
  | negative
  | pending
  deriving DecidableEq, Repr

/-- How a loop of offers ended, how many bytes were taken, and the number of the next call. -/
structure Delivery where
  ending : Ending
  taken : Nat
  calls : Nat
  deriving DecidableEq, Repr

def Delivery.more (delivery : Delivery) (count : Nat) : Delivery :=
  { delivery with taken := count + delivery.taken }

/-- Offering `left` bytes at once, then those not taken, until an answer is not positive. -/
def Writeable.offer (writer : Writeable) : Nat → Nat → Nat → Delivery
  | 0, _, calls => ⟨.all, 0, calls⟩
  | turns + 1, left, calls =>
    if left = 0 then ⟨.all, 0, calls⟩
    else if writer.answer calls left < 0 then ⟨.negative, 0, calls + 1⟩
    else if writer.answer calls left = 0 then ⟨.zero, 0, calls + 1⟩
    else (writer.offer turns (left - (writer.answer calls left).toNat) (calls + 1)).more
      (writer.answer calls left).toNat

/-- Offering bytes in pieces, each until it is taken, until an answer is negative. -/
def Writeable.offerPieces (writer : Writeable) : Nat → Nat → Nat → Nat → Delivery
  | 0, _, _, calls => ⟨.pending, 0, calls⟩
  | turns + 1, piece, rest, calls =>
    if piece = 0 then
      if rest = 0 then ⟨.all, 0, calls⟩
      else writer.offerPieces turns (min kFileBufferSize rest) (rest - kFileBufferSize) calls
    else if writer.answer calls piece < 0 then ⟨.negative, 0, calls + 1⟩
    else (writer.offerPieces turns (piece - (writer.answer calls piece).toNat) rest
      (calls + 1)).more (writer.answer calls piece).toNat

/-- Offering what is left to read of a body: at once from memory, in pieces from a file. -/
def HttpBody.offer (turns : Nat) (body : HttpBody) (writer : Writeable) (calls : Nat) :
    Delivery :=
  match body.pFile, body.fData.fMode with
  | none, .buffer => writer.offer body.unread.length body.unread.length calls
  | none, .file | some _, _ => writer.offerPieces turns 0 body.unread.length calls

/-- The length a body reports when all of it was taken. A file counts in an `int`. -/
def HttpBody.reported (body : HttpBody) : Int :=
  match body.pFile, body.fData.fMode with
  | none, .buffer => body.unread.length
  | none, .file | some _, _ => intOf body.unread.length

/-- The answers of the writer are such that no defect shows. Either the header is taken whole;
then nothing is left to read of a body of length zero, and after another the end of line is not
taken, and refused if the body was given up at a zero or reports a length that is not its own. Or
the header meets a failure. Or it is given up at a zero; then the body is not of length zero, what
is taken of it happens to be what follows in the header, and the body or the end of line meets a
failure. A negative length, of a file that is too long, is taken for a failure. -/
def Frames (turns : Nat) (writer : Writeable) (block : List UInt8) (body : HttpBody) : Prop :=
  let header := writer.offer block.length block.length 0
  let content := body.offer turns writer header.calls
  match header.ending with
  | .negative | .pending => True
  | .all =>
    if body.length = 0 then body.unread = []
    else
      match content.ending with
      | .negative | .pending => True
      | .zero => writer.answer content.calls 2 < 0
      | .all =>
        0 ≤ body.reported →
          writer.answer content.calls 2 < 0 ∨
            writer.answer content.calls 2 = 0 ∧ body.reported = body.unread.length
  | .zero =>
    body.length ≠ 0 ∧ body.unread.take content.taken <+: block.drop header.taken ++ body.unread ∧
      match content.ending with
      | .negative | .pending => True
      | .zero => writer.answer content.calls 2 < 0
      | .all => 0 ≤ body.reported → writer.answer content.calls 2 < 0

/-! ### The senders -/

/-- The answers to the calls of `offer` fit in an `int`. -/
def Writeable.Ints (writer : Writeable) : Nat → Nat → Nat → Prop
  | 0, _, _ => True
  | turns + 1, left, calls =>
    left ≠ 0 → (-2 ^ 31 ≤ writer.answer calls left ∧ writer.answer calls left < 2 ^ 31) ∧
      (0 < writer.answer calls left →
        writer.Ints turns (left - (writer.answer calls left).toNat) (calls + 1))

/-- Offering pieces, of which the one behind `count` bytes has `pieceAt count` bytes: the first
negative answer, if there is one, is negative as an `int`. -/
def Writeable.Hears (writer : Writeable) (pieceAt : Nat → Nat) : Nat → Nat → Nat → Nat → Prop
  | 0, _, _, _ => True
  | turns + 1, piece, count, calls =>
    if piece = 0 then
      pieceAt count ≠ 0 → writer.Hears pieceAt turns (pieceAt count) (count + pieceAt count) calls
    else if writer.answer calls piece < 0 then intOf (writer.answer calls piece) < 0
    else writer.Hears pieceAt turns (piece - (writer.answer calls piece).toNat) count (calls + 1)

/-- The writer is heard when what is left to read of a body is offered: from memory every answer
fits in an `int`, and from a file a negative answer is negative as an `int`. -/
def HttpBody.Hears (turns : Nat) (body : HttpBody) (writer : Writeable) (calls : Nat) : Prop :=
  match body.pFile, body.fData.fMode with
  | none, .buffer => writer.Ints body.unread.length body.unread.length calls
  | none, .file | some _, _ =>
    writer.Hears (fun count => min kFileBufferSize (body.unread.length - count)) turns 0 0 calls

/-- The answers to the calls that are made are heard: those to the offers of the header, and if
these do not end with a failure and there is a body to send, those to the offers of the body. -/
structure Heard (turns : Nat) (writer : Writeable) (block : List UInt8) (body : HttpBody) :
    Prop where
  header : writer.Ints block.length block.length 0
  content : (writer.offer block.length block.length 0).ending ≠ .negative → body.length ≠ 0 →
    body.Hears turns writer (writer.offer block.length block.length 0).calls

/-- What a sender, which reports `total` for all of `content`, did when the delivery went as
described. -/
structure Sends (content : List UInt8) (total : Int) (delivery : Delivery) (before after : Sink)
    (result : Option Int) : Prop where
  sink : after = ⟨delivery.calls, before.accepted ++ content.take delivery.taken⟩
  all : delivery.ending = .all → content.take delivery.taken = content ∧ result = some total
  zero : delivery.ending = .zero → delivery.taken < content.length ∧ result = some 0
  negative : delivery.ending = .negative → ∃ value, result = some value ∧ value < 0
  pending : delivery.ending = .pending → result = none

section Senders

variable {writer : Writeable}

/-- What is taken of a piece is an `int`. -/
theorem intOf_taken {left : Nat} (small : left ≤ kFileBufferSize) {calls : Nat}
    (taken : ¬ writer.answer calls left < 0) :
    intOf (writer.answer calls left) = writer.answer calls left := by
  have bounded := writer.answer_le calls left
  rw [kFileBufferSize] at small
  exact intOf_of_lt (by omega) (by omega)

theorem toNat_answer_le (writer : Writeable) (calls left : Nat) :
    (writer.answer calls left).toNat ≤ left := by
  have high := writer.answer_le calls left
  omega

theorem taken_more (delivery : Delivery) (count : Nat) :
    (delivery.more count).taken = count + delivery.taken :=
  rfl

/-- Nothing was taken yet. -/
theorem sends_nothing {content : List UInt8} {total : Int} {ending : Ending} {sink : Sink}
    {result : Option Int} {calls : Nat} (all : ending = .all → content = [] ∧ result = some total)
    (zero : ending = .zero → 0 < content.length ∧ result = some 0)
    (negative : ending = .negative → ∃ value, result = some value ∧ value < 0)
    (pending : ending = .pending → result = none) :
    Sends content total ⟨ending, 0, calls⟩ sink ⟨calls, sink.accepted⟩ result where
  sink := by
    rw [List.take_zero, List.append_nil]
  all := fun ended => ⟨(all ended).1 ▸ rfl, (all ended).2⟩
  zero := zero
  negative := negative
  pending := pending

/-- The bytes taken by an answer, and then by the offers that follow it. -/
theorem Sends.more {content : List UInt8} {total : Int} {delivery : Delivery}
    {before after : Sink} {result : Option Int} {taken calls : Nat} (part : taken ≤ content.length)
    (sends : Sends (content.drop taken) total delivery
      ⟨calls, before.accepted ++ content.take taken⟩ after result) :
    Sends content total (delivery.more taken) before after result where
  sink := by
    rw [sends.sink, taken_more, List.take_add, List.append_assoc]
    rfl
  all := fun ending => by
    obtain ⟨whole, result⟩ := sends.all ending
    rw [taken_more, List.take_add, whole]
    exact ⟨List.take_append_drop _ _, result⟩
  zero := fun ending => by
    obtain ⟨short, result⟩ := sends.zero ending
    rw [List.length_drop] at short
    rw [taken_more]
    exact ⟨by omega, result⟩
  negative := sends.negative
  pending := sends.pending

/-- The loop of `Buffer::sendTo` goes as `offer` says. -/
theorem sendLoop_sends {turns : Nat} {it : List UInt8} (enough : it.length ≤ turns) (total : Int)
    (sink : Sink) (ints : writer.Ints turns it.length sink.calls) :
    Sends it total (writer.offer turns it.length sink.calls) sink
      (Buffer.sendLoop writer turns it sink).1
      (some ((Buffer.sendLoop writer turns it sink).2.getD total)) := by
  induction turns generalizing it sink with
  | zero =>
    have empty : it = [] := List.length_eq_zero_iff.mp (by omega)
    exact sends_nothing (fun _ => ⟨empty, rfl⟩) Ending.noConfusion Ending.noConfusion
      Ending.noConfusion
  | succ turns inductionHypothesis =>
    rw [Writeable.offer, Buffer.sendLoop]
    dsimp only
    by_cases empty : it = []
    · rw [if_pos empty, if_pos (List.length_eq_zero_iff.mpr empty)]
      exact sends_nothing (fun _ => ⟨empty, rfl⟩) Ending.noConfusion Ending.noConfusion
        Ending.noConfusion
    have positive : 0 < it.length := List.length_pos_iff.mpr empty
    obtain ⟨⟨low, high⟩, heard⟩ := ints (by omega)
    rw [if_neg empty, if_neg (by omega : ¬ it.length = 0)]
    simp only [Writeable.write, intOf_of_lt low high]
    have bound := toNat_answer_le writer sink.calls it.length
    by_cases negative : writer.answer sink.calls it.length < 0
    · rw [if_pos negative, if_pos (by omega), Int.toNat_of_nonpos (by omega), List.take_zero,
        List.append_nil]
      exact sends_nothing Ending.noConfusion Ending.noConfusion (fun _ => ⟨_, rfl, negative⟩)
        Ending.noConfusion
    rw [if_neg negative]
    by_cases zero : writer.answer sink.calls it.length = 0
    · rw [if_pos zero, if_pos (by omega), zero, Int.toNat_zero, List.take_zero, List.append_nil]
      exact sends_nothing Ending.noConfusion (fun _ => ⟨positive, rfl⟩) Ending.noConfusion
        Ending.noConfusion
    · rw [if_neg zero, if_neg (by omega)]
      have heard := heard (by omega)
      generalize taken : (writer.answer sink.calls it.length).toNat = count at *
      have shorter : (it.drop count).length ≤ turns := by
        rw [List.length_drop]
        omega
      rw [← List.length_drop] at heard
      have later := inductionHypothesis shorter ⟨sink.calls + 1, sink.accepted ++ it.take count⟩
        heard
      rw [List.length_drop] at later
      exact later.more bound

/-- `Buffer::sendTo` sends what a writer takes that is offered all at once. -/
theorem buffer_sends (content : List UInt8) (sink : Sink)
    (ints : writer.Ints content.length content.length sink.calls) :
    Sends content content.length (writer.offer content.length content.length sink.calls) sink
      (Buffer.sendTo writer content sink).1 (some (Buffer.sendTo writer content sink).2) := by
  have sends := sendLoop_sends (Nat.le_refl content.length) content.length sink ints
  rw [Buffer.sendTo]
  generalize Buffer.sendLoop writer content.length content sink = sent at *
  obtain ⟨after, result⟩ := sent
  cases result with
  | none => exact sends
  | some value => exact sends

/-- A turn of the loop of `File::sendTo` that writes, and hears a refusal. -/
theorem file_sendLoop_refused {turns : Nat} {file : File} {piece : List UInt8} {len : Nat}
    {sink : Sink} (some : piece ≠ []) (negative : writer.answer sink.calls piece.length < 0)
    (heard : intOf (writer.answer sink.calls piece.length) < 0) :
    (File.sendLoop writer (turns + 1) file piece len sink).2 =
      (⟨sink.calls + 1, sink.accepted⟩, Option.some (-1)) := by
  rw [File.sendLoop, if_neg some]
  show (if intOf (writer.answer sink.calls piece.length) < 0 then _ else _ :
    File × Sink × Option Int).2 = _
  rw [if_pos heard]
  show ((⟨sink.calls + 1, sink.accepted ++ _⟩ : Sink), _) = _
  rw [Int.toNat_of_nonpos (Int.le_of_lt negative), List.take_zero, List.append_nil]

/-- A turn of the loop of `File::sendTo` that writes, and is answered with a number of bytes. -/
theorem file_sendLoop_taken {turns : Nat} {file : File} {piece : List UInt8} {len : Nat}
    {sink : Sink} (some : piece ≠ []) (small : piece.length ≤ kFileBufferSize)
    (taken : ¬ writer.answer sink.calls piece.length < 0) :
    File.sendLoop writer (turns + 1) file piece len sink =
      File.sendLoop writer turns file
        (piece.drop (writer.answer sink.calls piece.length).toNat) len
        ⟨sink.calls + 1,
          sink.accepted ++ piece.take (writer.answer sink.calls piece.length).toNat⟩ := by
  have value := intOf_taken small taken
  rw [File.sendLoop, if_neg some]
  show (if intOf (writer.answer sink.calls piece.length) < 0 then _ else
    File.sendLoop writer turns file
      (piece.drop (intOf (writer.answer sink.calls piece.length)).toNat) len _) = _
  rw [value, if_neg taken]
  rfl

/-! A turn of a loop that offers pieces either reads the next piece or offers what is left of one,
and an offer is refused or taken. -/

section Turns

variable {pieceAt : Nat → Nat} {content piece later : List UInt8} {total : Int} {sink after : Sink}
  {result : Option Int} {turns rest count calls : Nat}

theorem hears_read (heard : writer.Hears pieceAt (turns + 1) 0 count calls)
    (something : pieceAt count ≠ 0) :
    writer.Hears pieceAt turns (pieceAt count) (count + pieceAt count) calls := by
  rw [Writeable.Hears, if_pos rfl] at heard
  exact heard something

theorem hears_refused (heard : writer.Hears pieceAt (turns + 1) piece.length count calls)
    (some : piece ≠ []) (negative : writer.answer calls piece.length < 0) :
    intOf (writer.answer calls piece.length) < 0 := by
  have nonzero : piece.length ≠ 0 := fun zero => some (List.length_eq_zero_iff.mp zero)
  rw [Writeable.Hears, if_neg nonzero, if_pos negative] at heard
  exact heard

theorem hears_taken (heard : writer.Hears pieceAt (turns + 1) piece.length count calls)
    (some : piece ≠ []) (taken : ¬ writer.answer calls piece.length < 0) :
    writer.Hears pieceAt turns (piece.drop (writer.answer calls piece.length).toNat).length count
      (calls + 1) := by
  have nonzero : piece.length ≠ 0 := fun zero => some (List.length_eq_zero_iff.mp zero)
  rw [Writeable.Hears, if_neg nonzero, if_neg taken] at heard
  rw [List.length_drop]
  exact heard

theorem sends_done : Sends [] total (writer.offerPieces (turns + 1) 0 0 sink.calls) sink sink
    (some total) :=
  sends_nothing (fun _ => ⟨rfl, rfl⟩) Ending.noConfusion Ending.noConfusion Ending.noConfusion

theorem sends_refused (some : piece ≠ [])
    (negative : writer.answer sink.calls piece.length < 0) :
    Sends content total (writer.offerPieces (turns + 1) piece.length rest sink.calls) sink
      ⟨sink.calls + 1, sink.accepted⟩ (Option.some (-1)) := by
  have nonzero : piece.length ≠ 0 := fun zero => some (List.length_eq_zero_iff.mp zero)
  rw [Writeable.offerPieces, if_neg nonzero, if_pos negative]
  exact sends_nothing Ending.noConfusion Ending.noConfusion (fun _ => ⟨-1, rfl, by decide⟩)
    Ending.noConfusion

theorem sends_taken (some : piece ≠ []) (taken : ¬ writer.answer sink.calls piece.length < 0)
    (sends : Sends (piece.drop (writer.answer sink.calls piece.length).toNat ++ later) total
      (writer.offerPieces turns
        (piece.drop (writer.answer sink.calls piece.length).toNat).length rest (sink.calls + 1))
      ⟨sink.calls + 1, sink.accepted ++
        piece.take (writer.answer sink.calls piece.length).toNat⟩ after result) :
    Sends (piece ++ later) total (writer.offerPieces (turns + 1) piece.length rest sink.calls) sink
      after result := by
  have nonzero : piece.length ≠ 0 := fun zero => some (List.length_eq_zero_iff.mp zero)
  have bound := toNat_answer_le writer sink.calls piece.length
  rw [Writeable.offerPieces, if_neg nonzero, if_neg taken, ← List.length_drop]
  generalize (writer.answer sink.calls piece.length).toNat = part at *
  have inside : part ≤ (piece ++ later).length := by
    rw [List.length_append]
    omega
  refine @Sends.more _ _ _ _ _ _ _ (sink.calls + 1) inside ?_
  rw [List.take_append_of_le_length bound, List.drop_append_of_le_length bound]
  exact sends

end Turns

/-- The loop of `File::sendTo` goes as `offerPieces` says. -/
theorem file_sendLoop_sends {total turns : Nat} {file : File} {piece : List UInt8}
    (small : piece.length ≤ kFileBufferSize) {len : Nat}
    (left : file.unread.length = total - len) (sink : Sink)
    (heard : writer.Hears (fun count => min kFileBufferSize (total - count)) turns piece.length len
      sink.calls) :
    Sends (piece ++ file.unread) (intOf ((len + file.unread.length : Nat) : Int))
      (writer.offerPieces turns piece.length file.unread.length sink.calls) sink
      (File.sendLoop writer turns file piece len sink).2.1
      (File.sendLoop writer turns file piece len sink).2.2 := by
  induction turns generalizing file piece len sink with
  | zero =>
    exact sends_nothing Ending.noConfusion Ending.noConfusion Ending.noConfusion fun _ => rfl
  | succ turns inductionHypothesis =>
    by_cases empty : piece = []
    · subst empty
      rw [File.sendLoop, if_pos rfl, List.length_nil]
      dsimp only
      have taken : (file.read kFileBufferSize).2 = file.unread.take kFileBufferSize := rfl
      have size : (file.unread.take kFileBufferSize).length =
          min kFileBufferSize (total - len) := by
        rw [List.length_take, left]
      by_cases nothing : file.unread = []
      · rw [taken, nothing, List.take_nil, if_pos rfl]
        exact sends_done
      · have some : file.unread.length ≠ 0 :=
          fun count => nothing (List.length_eq_zero_iff.mp count)
        have nonempty : file.unread.take kFileBufferSize ≠ [] := by
          rw [Ne, List.take_eq_nil_iff, not_or]
          exact ⟨by decide, nothing⟩
        have count : len + (file.unread.take kFileBufferSize).length +
            (file.unread.length - kFileBufferSize) = len + file.unread.length := by
          rw [List.length_take]
          omega
        have behind : file.unread.length - kFileBufferSize =
            total - (len + (file.unread.take kFileBufferSize).length) := by
          rw [List.length_take]
          omega
        have heardLater := hears_read heard (by
          rw [← size]
          exact fun zero => nonempty (List.length_eq_zero_iff.mp zero))
        rw [← size] at heardLater
        have later := @inductionHypothesis (file.read kFileBufferSize).1
          (file.unread.take kFileBufferSize) (List.length_take_le _ _)
          (len + (file.unread.take kFileBufferSize).length)
          (by rw [File.unread_read, List.length_drop]; exact behind) sink heardLater
        rw [File.unread_read, List.take_append_drop, List.length_drop, count] at later
        rw [taken, if_neg nonempty, Writeable.offerPieces, if_pos rfl, if_neg some,
          ← List.length_take]
        exact later
    · by_cases negative : writer.answer sink.calls piece.length < 0
      · rw [file_sendLoop_refused empty negative (hears_refused heard empty negative)]
        exact sends_refused empty negative
      · rw [file_sendLoop_taken empty small negative]
        refine sends_taken empty negative ?_
        have shorter :=
          (List.drop_sublist (writer.answer sink.calls piece.length).toNat piece).length_le
        exact @inductionHypothesis file _ (Nat.le_trans shorter small) len left
          ⟨sink.calls + 1, _⟩ (hears_taken heard empty negative)

/-- `File::sendTo` sends what a writer takes that is offered pieces. -/
theorem file_sends (file : File) (sink : Sink) {turns : Nat}
    (heard : writer.Hears (fun count => min kFileBufferSize (file.unread.length - count)) turns 0 0
      sink.calls) :
    Sends file.unread (intOf file.unread.length)
      (writer.offerPieces turns 0 file.unread.length sink.calls) sink
      (file.sendTo writer turns sink).2.1 (file.sendTo writer turns sink).2.2 := by
  have sends := @file_sendLoop_sends writer file.unread.length turns file [] (Nat.zero_le _) 0 rfl
    sink heard
  rw [Nat.zero_add] at sends
  exact sends

/-- No more is reported than there is. -/
theorem HttpBody.reported_le (body : HttpBody) : body.reported ≤ body.unread.length := by
  obtain ⟨⟨fMode, fBuf, fFile, kMemoryLimit⟩, pFile⟩ := body
  cases pFile with
  | some file => exact intOf_le (Int.natCast_nonneg _)
  | none =>
    cases fMode with
    | buffer => exact Int.le_refl _
    | file => exact intOf_le (Int.natCast_nonneg _)

/-- A body sends what is left to read of it as `HttpBody.offer` says. -/
theorem body_sends (turns : Nat) (body : HttpBody) (sink : Sink)
    (heard : body.Hears turns writer sink.calls) :
    Sends body.unread body.reported (body.offer turns writer sink.calls) sink
      (body.sendContent turns writer sink).2.1 (body.sendContent turns writer sink).2.2 := by
  obtain ⟨⟨fMode, fBuf, fFile, kMemoryLimit⟩, pFile⟩ := body
  cases pFile with
  | some file => exact file_sends file sink heard
  | none =>
    cases fMode with
    | buffer => exact buffer_sends fBuf sink heard
    | file => exact file_sends fFile sink heard

/-- A failure is framed exactly when what was accepted is a prefix. -/
theorem framed_iff_of_negative {message : List UInt8} {sink : Sink} {result : Option Int}
    (negative : ∀ value, result = some value → value < 0) :
    Framed message sink result ↔ sink.accepted <+: message := by
  refine ⟨fun framed => framed.accepted, fun accepted => ⟨accepted, fun value same positive => ?_⟩⟩
  have below := negative value same
  omega

/-- The end of line after a content that was not refused: it is refused, or some of it is
taken. -/
theorem sendEnd_some {sink : Sink} {ret : Int} (positive : 0 ≤ ret) :
    HttpBody.sendEnd writer (sink, some ret) =
      if writer.answer sink.calls 2 < 0 then (⟨sink.calls + 1, sink.accepted⟩, some (-1))
      else (⟨sink.calls + 1,
        sink.accepted ++ HttpBody.crlf.take (writer.answer sink.calls 2).toNat⟩, some ret) := by
  rw [HttpBody.sendEnd, if_neg (by omega)]
  show (if writer.answer sink.calls 2 < 0 then _ else _) = _
  by_cases negative : writer.answer sink.calls 2 < 0
  · rw [if_pos negative, if_pos negative]
    simp [Writeable.write, HttpBody.crlf, Int.toNat_of_nonpos (Int.le_of_lt negative)]
  · rw [if_neg negative, if_neg negative]
    rfl

end Senders

/-! ### Exactly one message -/

section Message

variable {writer : Writeable} {block : List UInt8} {body : HttpBody}

/-- A body of another length than zero, by the way its content went. -/
theorem sendTo_of_delivery (turns : Nat) (some : body.length ≠ 0) {sink : Sink}
    (heard : body.Hears turns writer sink.calls) :
    let content := body.offer turns writer sink.calls
    let sent := body.sendTo turns writer sink
    let accepted := sink.accepted ++ body.unread.take content.taken
    match content.ending with
    | .negative | .pending =>
      sent.2.1.accepted = accepted ∧ ∀ value, sent.2.2 = .some value → value < 0
    | .zero =>
      content.taken < body.unread.length ∧
        if writer.answer content.calls 2 < 0 then
          sent.2.1.accepted = accepted ∧ sent.2.2 = .some (-1)
        else sent.2.2 = .some 0
    | .all =>
      accepted = sink.accepted ++ body.unread ∧
        if body.reported < 0 ∨ writer.answer content.calls 2 < 0 then
          sent.2.1.accepted = accepted ∧ ∀ value, sent.2.2 = .some value → value < 0
        else
          sent.2.1.accepted =
              accepted ++ HttpBody.crlf.take (writer.answer content.calls 2).toNat ∧
            sent.2.2 = .some body.reported := by
  have sends := body_sends turns body sink heard
  dsimp only
  rw [HttpBody.sendTo, if_neg some]
  dsimp only
  generalize body.offer turns writer sink.calls = content at *
  generalize body.sendContent turns writer sink = sent at *
  obtain ⟨after, sinkAfter, result⟩ := sent
  obtain ⟨rfl, all, zero, negative, pending⟩ := sends
  cases ending : content.ending with
  | negative =>
    obtain ⟨value, rfl, below⟩ := negative ending
    rw [HttpBody.sendEnd, if_pos below]
    refine ⟨rfl, fun other same => ?_⟩
    cases same
    exact below
  | pending =>
    rw [show result = none from pending ending]
    exact ⟨rfl, fun value same => by cases same⟩
  | zero =>
    obtain ⟨part, result_eq⟩ := zero ending
    rw [show result = .some 0 from result_eq, sendEnd_some (Int.le_refl 0)]
    refine ⟨part, ?_⟩
    by_cases refused : writer.answer content.calls 2 < 0
    · rw [if_pos refused, if_pos refused]
      exact ⟨rfl, rfl⟩
    · rw [if_neg refused, if_neg refused]
  | all =>
    obtain ⟨whole, result_eq⟩ := all ending
    rw [show result = _ from result_eq]
    refine ⟨by rw [whole], ?_⟩
    by_cases below : body.reported < 0
    · rw [if_pos (Or.inl below), HttpBody.sendEnd, if_pos below]
      refine ⟨rfl, fun value same => ?_⟩
      cases same
      exact below
    · rw [sendEnd_some (Int.not_lt.mp below)]
      by_cases refused : writer.answer content.calls 2 < 0
      · rw [if_pos (Or.inr refused), if_pos refused]
        refine ⟨rfl, fun value same => ?_⟩
        cases same
        decide
      · rw [if_neg (not_or.mpr ⟨below, refused⟩), if_neg refused]
        exact ⟨rfl, rfl⟩

/-- A body that fails makes the whole call fail. -/
theorem framed_map_iff_of_negative {message : List UInt8} {sink : Sink} {result : Option Int}
    {res : Int} (negative : ∀ value, result = some value → value < 0) :
    Framed message sink (result.map fun ret => if ret < 0 then ret else res + ret) ↔
      sink.accepted <+: message := by
  apply framed_iff_of_negative
  intro value same
  obtain ⟨ret, result_eq, mapped⟩ := Option.map_eq_some_iff.mp same
  have below := negative ret result_eq
  rw [if_pos below] at mapped
  omega

/-- A result that is not negative has to be the length of the message. -/
theorem not_framed_map_of_lt {message : List UInt8} {sink : Sink} {result : Option Int}
    {res value : Int} (same : result = some value) (positive : 0 ≤ value) (nonneg : 0 ≤ res)
    (short : res + value < message.length) :
    ¬ Framed message sink (result.map fun ret => if ret < 0 then ret else res + ret) := by
  intro framed
  have result_eq : (result.map fun ret => if ret < 0 then ret else res + ret) =
      some (res + value) := by
    rw [same, Option.map_some, if_neg (by omega)]
  have length_eq := (framed.complete (res + value) result_eq (by omega)).2
  omega

/-- After a header that was taken whole, a body of length zero is not sent. -/
theorem sendAfter_framed_iff_of_length_zero (turns : Nat) {sink : Sink}
    (whole : sink.accepted = block) (nothing : body.length = 0) :
    let sent := body.sendAfter turns writer sink block.length
    Framed (block ++ body.unread) sent.2.1 sent.2.2 ↔ body.unread = [] := by
  dsimp only
  rw [HttpBody.sendAfter, if_neg (by omega)]
  dsimp only
  rw [HttpBody.sendTo, if_pos nothing]
  constructor
  · intro framed
    obtain ⟨accepted, -⟩ := framed.complete _ rfl (by simp)
    rw [whole] at accepted
    exact List.self_eq_append_right.mp accepted
  · intro empty
    rw [empty, List.append_nil]
    refine ⟨by simp only [whole, List.prefix_refl], ?_⟩
    intro value same _
    refine ⟨whole, ?_⟩
    simpa using same.symm

/-- After a message that was taken whole, the end of line must not be taken, and the length that
is reported must be that of the message. -/
theorem framed_with_end_iff {message : List UInt8} {sink : Sink} {result : Option Int}
    {res ret answer : Int} (positive : 0 ≤ ret) (nonneg : 0 ≤ res)
    (accepted : sink.accepted = message ++ HttpBody.crlf.take answer.toNat)
    (same : result = some ret) :
    Framed message sink (result.map fun ret => if ret < 0 then ret else res + ret) ↔
      answer ≤ 0 ∧ res + ret = message.length := by
  rw [same, Option.map_some, if_neg (by omega)]
  constructor
  · intro framed
    have short := framed.accepted.length_le
    rw [accepted] at short
    simp only [List.length_append, List.length_take, HttpBody.crlf, List.length_cons,
      List.length_nil] at short
    exact ⟨by omega, (framed.complete (res + ret) rfl (by omega)).2⟩
  · rintro ⟨untaken, whole⟩
    rw [Int.toNat_of_nonpos untaken, List.take_zero, List.append_nil] at accepted
    refine ⟨by simp only [accepted, List.prefix_refl], ?_⟩
    intro value mapped _
    rw [Option.some.injEq] at mapped
    exact ⟨accepted, mapped.symm.trans whole⟩

/-- After a header that was taken whole. -/
theorem sendAfter_framed_iff_of_all (turns : Nat) {sink : Sink} (whole : sink.accepted = block)
    (heard : body.length ≠ 0 → body.Hears turns writer sink.calls) :
    let sent := body.sendAfter turns writer sink block.length
    let content := body.offer turns writer sink.calls
    Framed (block ++ body.unread) sent.2.1 sent.2.2 ↔
      if body.length = 0 then body.unread = []
      else
        match content.ending with
        | .negative | .pending => True
        | .zero => writer.answer content.calls 2 < 0
        | .all =>
          0 ≤ body.reported →
            writer.answer content.calls 2 < 0 ∨
              writer.answer content.calls 2 = 0 ∧ body.reported = body.unread.length := by
  dsimp only
  by_cases nothing : body.length = 0
  · rw [if_pos nothing]
    exact sendAfter_framed_iff_of_length_zero turns whole nothing
  · rw [if_neg nothing, HttpBody.sendAfter, if_neg (by omega)]
    dsimp only
    have sent := sendTo_of_delivery turns nothing (heard nothing)
    dsimp only at sent
    generalize body.sendTo turns writer sink = result at *
    generalize body.offer turns writer sink.calls = content at *
    rw [whole] at sent
    have part : block ++ body.unread.take content.taken <+: block ++ body.unread :=
      (List.prefix_append_right_inj block).mpr (List.take_prefix _ _)
    cases ending : content.ending with
    | negative =>
      rw [ending] at sent
      rw [framed_map_iff_of_negative sent.2, sent.1]
      exact iff_true_intro part
    | pending =>
      rw [ending] at sent
      rw [framed_map_iff_of_negative sent.2, sent.1]
      exact iff_true_intro part
    | zero =>
      rw [ending] at sent
      obtain ⟨short, sent⟩ := sent
      by_cases refused : writer.answer content.calls 2 < 0
      · rw [if_pos refused] at sent
        rw [framed_map_iff_of_negative (by simp [sent.2]), sent.1]
        exact iff_of_true part refused
      · rw [if_neg refused] at sent
        refine iff_of_false (not_framed_map_of_lt sent (Int.le_refl 0) (by omega) ?_) refused
        rw [List.length_append]
        omega
    | all =>
      rw [ending] at sent
      obtain ⟨complete, sent⟩ := sent
      rw [complete] at sent
      by_cases fails : body.reported < 0 ∨ writer.answer content.calls 2 < 0
      · rw [if_pos fails] at sent
        rw [framed_map_iff_of_negative sent.2, sent.1]
        refine iff_of_true (List.prefix_refl _) fun positive => ?_
        exact Or.inl (fails.resolve_left (Int.not_lt.mpr positive))
      · rw [if_neg fails] at sent
        rw [framed_with_end_iff (by omega) (Int.natCast_nonneg _) sent.1 sent.2,
          List.length_append]
        omega

/-- After a header that was given up at a zero. -/
theorem sendAfter_framed_iff_of_zero (turns : Nat) {sink : Sink} {taken : Nat}
    (short : taken < block.length) (part : sink.accepted = block.take taken)
    (heard : body.length ≠ 0 → body.Hears turns writer sink.calls) :
    let sent := body.sendAfter turns writer sink 0
    let content := body.offer turns writer sink.calls
    Framed (block ++ body.unread) sent.2.1 sent.2.2 ↔
      body.length ≠ 0 ∧ body.unread.take content.taken <+: block.drop taken ++ body.unread ∧
        match content.ending with
        | .negative | .pending => True
        | .zero => writer.answer content.calls 2 < 0
        | .all => 0 ≤ body.reported → writer.answer content.calls 2 < 0 := by
  dsimp only
  rw [HttpBody.sendAfter, if_neg (by omega)]
  dsimp only
  by_cases nothing : body.length = 0
  · rw [HttpBody.sendTo, if_pos nothing]
    refine iff_of_false (fun framed => ?_) (fun both => both.1 nothing)
    have value := (framed.complete 0 (by simp) (by omega)).2
    rw [List.length_append] at value
    omega
  · have sent := sendTo_of_delivery turns nothing (heard nothing)
    dsimp only at sent
    generalize body.sendTo turns writer sink = result at *
    generalize body.offer turns writer sink.calls = content at *
    rw [part] at sent
    have prefix_iff : block.take taken ++ body.unread.take content.taken <+:
        block ++ body.unread ↔
          body.unread.take content.taken <+: block.drop taken ++ body.unread := by
      conv_lhs => rw [← List.take_append_drop taken block, List.take_left' (by simp; omega)]
      rw [List.append_assoc, List.prefix_append_right_inj]
    have failed : result.2.1.accepted = block.take taken ++ body.unread.take content.taken →
        (∀ value, result.2.2 = some value → value < 0) →
        (Framed (block ++ body.unread) result.2.1
            (result.2.2.map fun ret => if ret < 0 then ret else 0 + ret) ↔
          body.unread.take content.taken <+: block.drop taken ++ body.unread) := by
      intro accepted negative
      rw [framed_map_iff_of_negative negative, accepted, prefix_iff]
    have passed : ∀ value : Int, 0 ≤ value → value ≤ body.unread.length →
        result.2.2 = some value → ¬ Framed (block ++ body.unread) result.2.1
          (result.2.2.map fun ret => if ret < 0 then ret else 0 + ret) := by
      intro value positive below same
      refine not_framed_map_of_lt same positive (Int.le_refl 0) ?_
      rw [List.length_append]
      omega
    cases ending : content.ending with
    | negative =>
      rw [ending] at sent
      rw [failed sent.1 sent.2]
      exact ⟨fun continues => ⟨nothing, continues, trivial⟩, fun both => both.2.1⟩
    | pending =>
      rw [ending] at sent
      rw [failed sent.1 sent.2]
      exact ⟨fun continues => ⟨nothing, continues, trivial⟩, fun both => both.2.1⟩
    | zero =>
      rw [ending] at sent
      obtain ⟨-, sent⟩ := sent
      by_cases refused : writer.answer content.calls 2 < 0
      · rw [if_pos refused] at sent
        rw [failed sent.1 (by simp [sent.2])]
        exact ⟨fun continues => ⟨nothing, continues, refused⟩, fun both => both.2.1⟩
      · rw [if_neg refused] at sent
        exact iff_of_false (passed 0 (Int.le_refl 0) (by omega) sent)
          (fun both => refused both.2.2)
    | all =>
      rw [ending] at sent
      obtain ⟨-, sent⟩ := sent
      by_cases fails : body.reported < 0 ∨ writer.answer content.calls 2 < 0
      · rw [if_pos fails] at sent
        rw [failed sent.1 sent.2]
        refine ⟨fun continues => ⟨nothing, continues, fun positive => ?_⟩, fun both => both.2.1⟩
        exact fails.resolve_left (Int.not_lt.mpr positive)
      · rw [if_neg fails] at sent
        rw [not_or, Int.not_lt] at fails
        exact iff_of_false (passed _ fails.1 body.reported_le sent.2)
          (fun both => fails.2 (both.2.2 fails.1))

/-- `HttpParser::sendTo` sends one framed message or reports a failure exactly when the answers
of the writer are as `Frames` says, for every header, every body and every writer whose answers
to the calls that are made fit in an `int`. -/
theorem sendTo_framed_iff (turns : Nat) (names : HttpNames) (keys : List (List UInt8))
    (header : HttpHeader) (body : HttpBody) (writer : Writeable) {left : HttpHeader}
    {block : List UInt8} (dumped : header.dumpToBuffer names keys = some (left, block))
    (heard : Heard turns writer block body) :
    ∃ after sink result,
      HttpParser.sendTo turns names keys header body writer = some (after, sink, result) ∧
        (Framed (block ++ body.unread) sink result ↔ Frames turns writer block body) := by
  obtain ⟨ints, heard⟩ := heard
  have sends := buffer_sends block Sink.new ints
  refine ⟨_, _, _, by rw [HttpParser.sendTo, HttpHeader.sendTo, dumped]; rfl, ?_⟩
  rw [Frames]
  dsimp only
  generalize Buffer.sendTo writer block Sink.new = sent at *
  obtain ⟨sink, res⟩ := sent
  have calls : (Sink.new).calls = 0 := rfl
  rw [calls] at sends
  generalize writer.offer block.length block.length 0 = offered at *
  obtain ⟨rfl, all, zero, negative, pending⟩ := sends
  cases ending : offered.ending with
  | negative =>
    obtain ⟨value, result, below⟩ := negative ending
    cases result
    rw [HttpBody.sendAfter, if_pos below]
    refine iff_true_intro ((framed_iff_of_negative ?_).mpr ?_)
    · intro value same
      cases same
      exact below
    · exact (List.take_prefix _ _).trans (List.prefix_append _ _)
  | pending => cases pending ending
  | all =>
    obtain ⟨whole, result⟩ := all ending
    cases result
    exact sendAfter_framed_iff_of_all turns whole (heard (by rw [ending]; decide))
  | zero =>
    obtain ⟨short, result⟩ := zero ending
    cases result
    exact sendAfter_framed_iff_of_zero turns short rfl (heard (by rw [ending]; decide))

/-- A writer that takes what it is offered, but not more at once than `write` does on Linux. -/
def Writeable.system : Writeable where
  answer := fun _ n => min n 0x7ffff000
  answer_le := fun _ n => Int.min_le_left n 0x7ffff000

/-- A request without a body, to a writer that takes what it is offered. -/
theorem sendTo_framed_without_body :
    ∃ after sink result,
      HttpParser.sendTo 9 fewNames [] { HttpHeader.new .request with method := some 1, uri := [47] }
          (HttpBody.new (1024 * 1024)) Writeable.system = some (after, sink, result) ∧
        Framed (bytesOf "GET / HTTP/1.1\r\n\r\n" ++ []) sink result := by
  have heard : Heard 9 Writeable.system (bytesOf "GET / HTTP/1.1\r\n\r\n")
      (HttpBody.new (1024 * 1024)) :=
    ⟨fun _ => ⟨by decide, fun _ _ => by contradiction⟩, fun _ some => absurd rfl some⟩
  obtain ⟨after, sink, result, sent, framed_iff⟩ :=
    sendTo_framed_iff 9 fewNames [] { HttpHeader.new .request with method := some 1, uri := [47] }
      (HttpBody.new (1024 * 1024)) Writeable.system
      (show HttpHeader.dumpToBuffer fewNames [] _ = some (_, bytesOf "GET / HTTP/1.1\r\n\r\n") from
        rfl) heard
  exact ⟨after, sink, result, sent, framed_iff.mpr rfl⟩

/-- A writer that takes all it is offered, but nothing at one call. -/
def Writeable.zeroAt (unlucky : Nat) : Writeable where
  answer := fun call n => if call = unlucky then 0 else n
  answer_le := by
    intro call n
    split
    · exact Int.natCast_nonneg n
    · exact Int.le_refl _

/-- A request with one byte of body. To a writer that takes all it is offered, two bytes too many
are sent. A zero for the header sends the body without it, and a zero for the body the header
alone; both are reported as sent. -/
theorem sendTo_not_framed :
    let request := { HttpHeader.new .request with method := some 1, uri := [47] }
    let body := ((HttpBody.new (1024 * 1024)).write [7]).1
    let block := bytesOf "GET / HTTP/1.1\r\n\r\n"
    let sent := fun writer => (HttpParser.sendTo 9 fewNames [] request body writer).map
      fun sent => (sent.2.1.accepted, sent.2.2)
    (request.dumpToBuffer fewNames []).map Prod.snd = some block ∧ body.unread = [7] ∧
      (sent Writeable.ideal = some (block ++ [7, 13, 10], some 19) ∧
        ¬ block ++ [7, 13, 10] <+: block ++ [7]) ∧
      (sent (Writeable.zeroAt 0) = some ([7, 13, 10], some 1) ∧ ¬ [7, 13, 10] <+: block ++ [7]) ∧
      (sent (Writeable.zeroAt 1) = some (block ++ [13, 10], some 18) ∧
        ¬ block ++ [13, 10] <+: block ++ [7]) := by
  decide +kernel

end Message

end Nattan
