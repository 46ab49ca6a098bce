/-
This file models `Buffer::sendTo` on the vector, with its pointer and its counter, and
proves for which writers it delivers the content.

The loop keeps a pointer into the vector and the number of bytes that are left, and
moves both by the answer of the writer, which it stores in an `int`. What it should do
is described on the writer alone: `deliver` offers a number of bytes, then those not
taken, until one answer is not positive. A negative answer that is no `int` becomes
another number on its way, and the loop goes on as if bytes had been taken, or returns
what the writer did not answer.
-/

import Nattan.File

namespace Nattan

/-! ### What a writer takes -/

/-- What a writer takes: the number of bytes, the number of the next call, and the first answer
that is not positive. -/
structure Delivered where
  taken : Nat
  calls : Nat
  stop : Option Int
  deriving DecidableEq, Repr

/-- Offering `left` bytes, then those not taken, until one answer is not positive. Every turn takes
a byte at least. -/
def Writeable.deliver (writer : Writeable) : Nat → Nat → Nat → Delivered
  | 0, _, calls => ⟨0, calls, none⟩
  | turns + 1, left, calls =>
    if left = 0 then ⟨0, calls, none⟩
    else
      let answer := writer.answer calls left
      if answer ≤ 0 then ⟨0, calls + 1, some answer⟩
      else
        let later := writer.deliver turns (left - answer.toNat) (calls + 1)
        { later with taken := answer.toNat + later.taken }

/-- The answer that stops the delivery, if there is one, is an `int`. -/
def Writeable.StopsInRange (writer : Writeable) (left calls : Nat) : Prop :=
  ∀ answer, (writer.deliver left left calls).stop = some answer → -2 ^ 31 ≤ answer

namespace Buffer

/-! ### `sendTo` -/

/-- The loop of `sendTo`, with the pointer `it` as an offset into the vector. It returns an answer
that ended it. -/
def sendDataLoop (writer : Writeable) (buffer : Buffer) :
    Nat → Nat → Nat → Sink → Except Fault (Sink × Option Int)
  | 0, _, _, _ => .error .outOfFuel
  | turns + 1, it, left, sink =>
    if it = buffer.fWriteIdx then .ok (sink, none)
    else do
      let bytes ← copyOut buffer.fData it left
      let written := writer.write sink bytes
      let res := intOf written.2
      if res ≤ 0 then return (written.1, some res)
      else sendDataLoop writer buffer turns (it + res.toNat) (SizeT.sub left res.toNat) written.1

/-- `Buffer::sendTo` on the vector, with the buffer after it. -/
def sendData (writer : Writeable) (turns : Nat) (buffer : Buffer) (sink : Sink) :
    Except Fault (Buffer × Sink × Int) :=
  if buffer.length = 0 then .ok (buffer, sink, 0)
  else do
    let (sink, res) ← sendDataLoop writer buffer turns buffer.fReadIdx buffer.length sink
    return (buffer, sink, res.getD buffer.length)

/-- `sendTo` ends; the writer accepted the bytes that a writer with its answers takes, which are
the first ones of the content; the result is the length when it took all, and otherwise the answer
that is not positive; and the buffer is as it was. -/
def Delivers (writer : Writeable) (buffer : Buffer) (sink : Sink) : Prop :=
  let delivered := writer.deliver buffer.content.length buffer.content.length sink.calls
  ∃ turns after, sendData writer turns buffer sink =
      .ok (buffer, after, delivered.stop.getD buffer.content.length) ∧
    after.accepted = sink.accepted ++ buffer.content.take delivered.taken ∧
    (delivered.stop = none ↔ buffer.content.take delivered.taken = buffer.content)

section Send

variable {writer : Writeable} {buffer : Buffer}

/-- A delivery takes all exactly when no answer stops it. -/
theorem deliver_taken (writer : Writeable) {turns left : Nat} (enough : left ≤ turns)
    (calls : Nat) :
    (writer.deliver turns left calls).taken ≤ left ∧
      ((writer.deliver turns left calls).stop = none ↔
        (writer.deliver turns left calls).taken = left) := by
  induction turns generalizing left calls with
  | zero =>
    obtain rfl : left = 0 := by omega
    exact ⟨Nat.le_refl 0, iff_of_true rfl rfl⟩
  | succ turns inductionHypothesis =>
    rw [Writeable.deliver]
    dsimp only
    split
    · rename_i nothing
      exact ⟨Nat.zero_le _, iff_of_true rfl nothing.symm⟩
    · rename_i some
      have few := writer.answer_le calls left
      split
      · refine ⟨Nat.zero_le _, iff_of_false (by simp) ?_⟩
        show ¬ 0 = left
        omega
      · rename_i positive
        obtain ⟨bounded, all⟩ :=
          @inductionHypothesis (left - (writer.answer calls left).toNat) (by omega) (calls + 1)
        refine ⟨?_, all.trans ?_⟩
        · show (writer.answer calls left).toNat + _ ≤ left
          omega
        · show _ ↔ (writer.answer calls left).toNat + _ = left
          omega

/-- What is left of the content, from the pointer on. -/
theorem copyOut_left (consistent : Consistent buffer) {it left : Nat}
    (here : it + left = buffer.fWriteIdx) (front : buffer.fReadIdx ≤ it) :
    copyOut buffer.fData it left = .ok (buffer.content.drop (it - buffer.fReadIdx)) ∧
      (buffer.content.drop (it - buffer.fReadIdx)).length = left := by
  have inside := consistent.inside
  have ordered := consistent.ordered
  have whole : buffer.content.drop (it - buffer.fReadIdx) = slice buffer.fData it left := by
    rw [content, slice, slice, List.drop_take, List.drop_drop]
    congr 1
    · omega
    · congr 1
      omega
  rw [whole]
  exact ⟨copyOut_of_le (by omega), length_slice (by omega)⟩

/-- A turn that offers what is left, when an answer that stops it is an `int`. -/
theorem sendDataLoop_offer (consistent : Consistent buffer)
    (few : buffer.fWriteIdx - buffer.fReadIdx < 2 ^ 31) {it left : Nat} (some : left ≠ 0)
    (here : it + left = buffer.fWriteIdx) (front : buffer.fReadIdx ≤ it) (turns : Nat)
    {sink : Sink} (inRange : writer.answer sink.calls left ≤ 0 →
      -2 ^ 31 ≤ writer.answer sink.calls left) :
    let taken := (writer.answer sink.calls left).toNat
    let after : Sink := ⟨sink.calls + 1, sink.accepted ++
      (buffer.content.drop (it - buffer.fReadIdx)).take taken⟩
    sendDataLoop writer buffer (turns + 1) it left sink =
      if writer.answer sink.calls left ≤ 0 then
        .ok (after, Option.some (writer.answer sink.calls left))
      else sendDataLoop writer buffer turns (it + taken) (left - taken) after := by
  have representable := consistent.representable
  obtain ⟨copied, size⟩ := copyOut_left consistent here front
  have bounded := writer.answer_le sink.calls left
  have same : intOf (writer.answer sink.calls left) = writer.answer sink.calls left := by
    by_cases stops : writer.answer sink.calls left ≤ 0
    · exact intOf_of_lt (inRange stops) (by omega)
    · exact intOf_of_lt (by omega) (by omega)
  rw [sendDataLoop, if_neg (by omega), copied, ok_bind]
  simp only [Writeable.write, size, same]
  rw [SizeT.sub_of_le (by omega) (by omega)]
  rfl

/-- The loop does what the delivery describes, as long as the answer that stops it is an `int`. -/
theorem sendDataLoop_of_deliver (consistent : Consistent buffer)
    (few : buffer.fWriteIdx - buffer.fReadIdx < 2 ^ 31) {turns it left : Nat}
    (enough : left ≤ turns) (here : it + left = buffer.fWriteIdx)
    (front : buffer.fReadIdx ≤ it) (sink : Sink)
    (inRange : ∀ answer, (writer.deliver turns left sink.calls).stop = some answer →
      -2 ^ 31 ≤ answer) :
    ∃ after, sendDataLoop writer buffer (turns + 1) it left sink =
        .ok (after, (writer.deliver turns left sink.calls).stop) ∧
      after.accepted = sink.accepted ++ (buffer.content.drop (it - buffer.fReadIdx)).take
        (writer.deliver turns left sink.calls).taken := by
  induction turns generalizing it left sink with
  | zero =>
    obtain rfl : left = 0 := by omega
    refine ⟨sink, ?_, ?_⟩
    · rw [sendDataLoop, if_pos (by omega)]
      rfl
    · rw [Writeable.deliver, List.take_zero, List.append_nil]
  | succ turns inductionHypothesis =>
    rw [Writeable.deliver] at *
    by_cases nothing : left = 0
    · rw [if_pos nothing, sendDataLoop, if_pos (by omega)]
      exact ⟨sink, rfl, by rw [List.take_zero, List.append_nil]⟩
    rw [if_neg nothing] at inRange ⊢
    have bounded := writer.answer_le sink.calls left
    by_cases stops : writer.answer sink.calls left ≤ 0
    · simp only [if_pos stops] at inRange ⊢
      rw [sendDataLoop_offer consistent few nothing here front _ fun _ => inRange _ rfl,
        if_pos stops]
      refine ⟨_, rfl, ?_⟩
      show sink.accepted ++ _ = sink.accepted ++ _
      rw [show (writer.answer sink.calls left).toNat = 0 by omega]
    · simp only [if_neg stops] at inRange ⊢
      rw [sendDataLoop_offer consistent few nothing here front _ fun zero => absurd zero stops,
        if_neg stops]
      obtain ⟨after, sent, accepted⟩ := @inductionHypothesis
        (it + (writer.answer sink.calls left).toNat) (left - (writer.answer sink.calls left).toNat)
        (by omega) (by omega) (by omega)
        ⟨sink.calls + 1, sink.accepted ++ (buffer.content.drop (it - buffer.fReadIdx)).take
          (writer.answer sink.calls left).toNat⟩ inRange
      refine ⟨after, sent, accepted.trans ?_⟩
      show sink.accepted ++ _ ++ _ = sink.accepted ++ List.take (_ + _) _
      rw [List.append_assoc, List.take_add, List.drop_drop]
      congr 4
      omega

/-- On the content alone the loop does the same. -/
theorem sendLoop_of_deliver {turns : Nat} {it : List UInt8} (enough : it.length ≤ turns)
    (few : it.length < 2 ^ 31) (sink : Sink)
    (inRange : ∀ answer, (writer.deliver turns it.length sink.calls).stop = some answer →
      -2 ^ 31 ≤ answer) :
    (sendLoop writer turns it sink).2 = (writer.deliver turns it.length sink.calls).stop ∧
      (sendLoop writer turns it sink).1.accepted =
        sink.accepted ++ it.take (writer.deliver turns it.length sink.calls).taken := by
  induction turns generalizing it sink with
  | zero => exact ⟨rfl, by rw [Writeable.deliver, List.take_zero, List.append_nil]; rfl⟩
  | succ turns inductionHypothesis =>
    rw [sendLoop, Writeable.deliver] at *
    by_cases nothing : it = []
    · subst nothing
      rw [if_pos rfl, if_pos List.length_nil]
      exact ⟨rfl, by rw [List.take_zero, List.append_nil]⟩
    have some : it.length ≠ 0 := fun empty => nothing (List.length_eq_zero_iff.mp empty)
    rw [if_neg some] at inRange ⊢
    rw [if_neg nothing]
    have bounded := writer.answer_le sink.calls it.length
    have written : (writer.write sink it).2 = writer.answer sink.calls it.length := rfl
    dsimp only at inRange ⊢
    by_cases stops : writer.answer sink.calls it.length ≤ 0
    · rw [if_pos stops] at inRange ⊢
      rw [written, intOf_of_lt (inRange _ rfl) (by omega), if_pos stops]
      refine ⟨rfl, ?_⟩
      show sink.accepted ++ _ = sink.accepted ++ _
      rw [show (writer.answer sink.calls it.length).toNat = 0 by omega]
    · rw [if_neg stops] at inRange ⊢
      rw [written, intOf_of_lt (by omega) (by omega), if_neg stops]
      have left : (it.drop (writer.answer sink.calls it.length).toNat).length =
          it.length - (writer.answer sink.calls it.length).toNat := List.length_drop
      rw [← left] at inRange ⊢
      obtain ⟨same, accepted⟩ := @inductionHypothesis
        (it.drop (writer.answer sink.calls it.length).toNat) (by omega) (by omega)
        (writer.write sink it).1 inRange
      refine ⟨same, accepted.trans ?_⟩
      show sink.accepted ++ _ ++ _ = sink.accepted ++ List.take (_ + _) _
      rw [List.append_assoc, List.take_add]
      rfl

/-- `sendTo` on the vector and `sendTo` on the content give the same result and the same accepted
bytes. -/
theorem sendTo_of_delivers (few : buffer.content.length < 2 ^ 31) {sink : Sink}
    (inRange : writer.StopsInRange buffer.content.length sink.calls)
    (delivers : Delivers writer buffer sink) :
    ∃ turns after, sendData writer turns buffer sink =
        .ok (buffer, after, (sendTo writer buffer.content sink).2) ∧
      after.accepted = (sendTo writer buffer.content sink).1.accepted := by
  obtain ⟨turns, after, sent, accepted, -⟩ := delivers
  obtain ⟨same, took⟩ := sendLoop_of_deliver (Nat.le_refl _) few sink inRange
  refine ⟨turns, after, ?_, ?_⟩
  · rw [sent, ← same, sendTo]
    split <;> rename_i result <;> rw [result] <;> rfl
  · rw [accepted, ← took, sendTo]
    split <;> rename_i result <;> rw [result]

/-- The loop returns nothing below the least `int`. -/
theorem sendDataLoop_result {turns it left : Nat} {sink after : Sink} {res : Int}
    (sent : sendDataLoop writer buffer turns it left sink = .ok (after, some res)) :
    -2 ^ 31 ≤ res := by
  induction turns generalizing it left sink with
  | zero => cases sent
  | succ turns inductionHypothesis =>
    rw [sendDataLoop] at sent
    split at sent
    · cases sent
    cases copied : copyOut buffer.fData it left with
    | error fault =>
      rw [copied] at sent
      cases sent
    | ok bytes =>
      rw [copied, ok_bind] at sent
      dsimp only at sent
      split at sent
      · cases sent
        exact @Int.le_bmod _ (2 ^ 32) (by decide)
      · exact inductionHypothesis sent

theorem sendData_result {turns : Nat} {sink after : Sink} {res : Int}
    (sent : sendData writer turns buffer sink = .ok (buffer, after, res)) : -2 ^ 31 ≤ res := by
  rw [sendData] at sent
  split at sent
  · cases sent
    decide
  cases looped : sendDataLoop writer buffer turns buffer.fReadIdx buffer.length sink with
  | error fault =>
    rw [looped] at sent
    cases sent
  | ok result =>
    obtain ⟨sinkAfter, value⟩ := result
    rw [looped] at sent
    cases sent
    cases value with
    | none =>
      show (-2 ^ 31 : Int) ≤ ((buffer.length : Nat) : Int)
      omega
    | some value => exact sendDataLoop_result looped

/-- From any consistent buffer with fewer than `2 ^ 31` bytes, but not none, `sendTo` delivers the
content exactly when the answer that stops the writer, if there is one, is an `int`. -/
theorem sendData_delivers_iff (consistent : Consistent buffer) (some : buffer.content ≠ [])
    (few : buffer.content.length < 2 ^ 31) (sink : Sink) :
    Delivers writer buffer sink ↔ writer.StopsInRange buffer.content.length sink.calls := by
  have whole := consistent.length_content
  have size := consistent.length_eq
  have ordered := consistent.ordered
  have notEmpty : buffer.length ≠ 0 := by
    rw [← whole]
    exact fun empty => some (List.length_eq_zero_iff.mp empty)
  constructor
  · rintro ⟨turns, after, sent, -⟩ answer stop
    rw [stop] at sent
    exact sendData_result sent
  · intro inRange
    obtain ⟨bounded, all⟩ := deliver_taken writer (Nat.le_refl buffer.content.length) sink.calls
    obtain ⟨after, sent, accepted⟩ := @sendDataLoop_of_deliver writer buffer consistent (by omega)
      buffer.content.length buffer.fReadIdx buffer.content.length (Nat.le_refl _) (by omega)
      (Nat.le_refl _) sink inRange
    refine ⟨buffer.content.length + 1, after, ?_, ?_, all.trans ?_⟩
    · rw [sendData, if_neg notEmpty, ← whole, sent]
      rfl
    · rw [accepted, Nat.sub_self, List.drop_zero]
    · constructor
      · intro taken
        rw [taken, List.take_length]
      · intro same
        have length := congrArg List.length same
        rw [List.length_take] at length
        omega

end Send

/-- A writer that takes one byte at a time and then fails with a given answer. -/
def bytewise (failure : Nat) : Writeable where
  answer := fun call n => if call < 2 then min 1 n else -failure
  answer_le := fun call n => by split <;> omega

theorem sendData_delivers_iff_halfRead : Delivers (bytewise 1) halfRead Sink.new :=
  (sendData_delivers_iff ⟨by decide, by decide, by decide, by decide⟩ (by decide) (by decide)
    Sink.new).mpr fun answer stop => by
      have failure : ((bytewise 1).deliver 4 4 0).stop = some (-1) := by decide
      cases failure.symm.trans stop
      decide

/-- The answer `1 - 2 ^ 32` is the `int` 1: the third byte is skipped as if it had been taken. -/
theorem not_delivers_halfRead :
    ¬ ∀ (writer : Writeable) (buffer : Buffer) (sink : Sink), Consistent buffer →
      buffer.content ≠ [] → buffer.content.length < 2 ^ 31 → Delivers writer buffer sink := by
  intro delivers
  obtain ⟨turns, after, sent, -⟩ := delivers (bytewise (2 ^ 32 - 1)) halfRead Sink.new
    ⟨by decide, by decide, by decide, by decide⟩ (by decide) (by decide)
  exact absurd (sendData_result sent) (by decide +kernel)

end Buffer

end Nattan
