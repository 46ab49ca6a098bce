/-
This file models the hooked `sendmsg`, and proves exactly when it delivers the message
once.

The loops are those of the other sending calls, but the `msghdr` is handed to the kernel
as it is, time after time. After a short send the kernel is offered the whole message
again, so what has been accepted when the call returns is a sequence of beginnings of
the message, and is the message only where the message repeats itself at just these
places. The length is summed up in an `int` besides, so for a message of 2^31 bytes or
more the call ends after another number of bytes, or is a plain call.
-/

import Mathlib.Algebra.GroupWithZero.Nat
import Nattan.SysHook

namespace Nattan

namespace SysHook

section Message

variable {Byte : Type}

/-! ### The call -/

/-- `get_msg_len`. -/
def get_msg_len : Option (List (List Byte)) → Int
  | none => -1
  | some msg_iov => msg_iov.foldl (fun len iov => intOf (len + iov.length)) 0

/-- `sendmsg`. -/
def sendmsg (mode : Mode) (msg_iov : List (List Byte)) (answers : List Answer)
    (waits : List Wait) : Outcome Byte :=
  if mode.co_hooked = false then plainSend msg_iov.flatten answers
  else if mode.nonblock ≠ some true then plainSend msg_iov.flatten answers
  else
    let n := get_msg_len (some msg_iov)
    if n < 0 then plainSend msg_iov.flatten answers
    else sendLoop (fun len => decide (len < n)) (fun _ => msg_iov.flatten) answers waits 0

/-- Converting to `int` after every addition is converting the sum. -/
theorem intOf_add_intOf (before count : Nat) :
    intOf (intOf before + count) = intOf (before + count : Nat) := by
  rw [intOf, intOf, Int.bmod_add_bmod, intOf, Int.natCast_add]

theorem intOf_zero : intOf (0 : Nat) = 0 :=
  intOf_of_lt (by omega) (by omega)

theorem foldl_intOf_length (msg_iov : List (List Byte)) (before : Nat) :
    msg_iov.foldl (fun len iov => intOf (len + iov.length)) (intOf before) =
      intOf (before + msg_iov.flatten.length : Nat) := by
  induction msg_iov generalizing before with
  | nil => rw [List.foldl_nil, List.flatten_nil, List.length_nil, Nat.add_zero]
  | cons iov msg_iov inductionHypothesis =>
    rw [List.foldl_cons, intOf_add_intOf, inductionHypothesis, List.flatten_cons,
      List.length_append, Nat.add_assoc]

/-- The `int` that is summed up is the length of the message, converted. -/
theorem get_msg_len_some (msg_iov : List (List Byte)) :
    get_msg_len (some msg_iov) = intOf msg_iov.flatten.length := by
  have summed := foldl_intOf_length msg_iov 0
  rw [intOf_zero, Nat.zero_add] at summed
  exact summed

/-- A length that is negative as an `int` is too large for it. -/
theorem length_of_get_msg_len_neg {msg_iov : List (List Byte)}
    (negative : get_msg_len (some msg_iov) < 0) : ¬ msg_iov.flatten.length < 2 ^ 31 := by
  intro small
  rw [get_msg_len_some, intOf_of_lt (by omega) (by omega)] at negative
  omega

/-! ### What the kernel is given -/

/-- A message is delivered once: if a value is returned that is not negative, it is the length of
the message and the kernel has accepted exactly the message. -/
def MessageDelivered (message : List Byte) (outcome : Outcome Byte) : Prop :=
  ∀ value, outcome.returned = some value → 0 ≤ value →
    outcome.accepted = message ∧ value = message.length

/-- The numbers of bytes taken by the answers to offers of `total` bytes. -/
def counts (total : Nat) : List Answer → List Nat
  | [] => []
  | .accept room :: answers => taken room total :: counts total answers
  | .error _ :: answers => counts total answers

/-- The answers are no errors but `EAGAIN`, and the waits these lead to do not fail. -/
def Undisturbed : List Answer → List Wait → Prop
  | [], _ => True
  | .accept _ :: answers, waits => Undisturbed answers waits
  | .error _ :: _, [] => False
  | .error errno :: answers, wait :: waits =>
    errno = .EAGAIN ∧ (event_poll wait).1 = 0 ∧ Undisturbed answers waits

/-- With `before` bytes taken already, the counts of these answers come to `n` with the last of
them, and not before. -/
def ReachesFrom (n : Int) (total before : Nat) (answers : List Answer) : Prop :=
  n ≤ intOf (before + (counts total answers).sum : Nat) ∧
    ∀ shorter, shorter <+: answers → shorter ≠ answers →
      intOf (before + (counts total shorter).sum : Nat) < n

/-- The answers that complete a call that has `n` for the length of `total` bytes. -/
def Completes (n : Int) (total : Nat) (answers : List Answer) : Prop :=
  if n < 0 then ∃ room, answers = [.accept room] else ReachesFrom n total 0 answers

/-- The message has the same bytes at its beginning as behind the first `done` bytes, for as long
as the next count, and so on, to the end of the message. -/
def Repeats (message : List Byte) : Nat → List Nat → Prop
  | done, [] => done = message.length
  | done, count :: counts =>
    (message.drop done).take count = message.take count ∧
      Repeats message (done + count) counts

theorem counts_le {total count : Nat} {answers : List Answer}
    (member : count ∈ counts total answers) : count ≤ total := by
  induction answers with
  | nil => exact absurd member List.not_mem_nil
  | cons answer answers inductionHypothesis =>
    cases answer with
    | accept room =>
      obtain rfl | later := List.mem_cons.mp member
      · rw [taken]
        omega
      · exact inductionHypothesis later
    | error errno => exact inductionHypothesis member

/-- Beginnings of the message put one behind the other give the rest of the message exactly when
it repeats itself there. -/
theorem flatten_take_eq_drop (message : List Byte) {counts : List Nat} {done : Nat}
    (bounded : ∀ count ∈ counts, count ≤ message.length) (inside : done ≤ message.length) :
    (counts.map message.take).flatten = message.drop done ↔ Repeats message done counts := by
  induction counts generalizing done with
  | nil =>
    rw [List.map_nil, List.flatten_nil, Repeats, eq_comm, List.drop_eq_nil_iff]
    omega
  | cons count counts inductionHypothesis =>
    have size : (message.take count).length = count := by
      rw [List.length_take]
      exact Nat.min_eq_left (bounded count List.mem_cons_self)
    have later : ∀ other ∈ counts, other ≤ message.length :=
      fun other member => bounded other (List.mem_cons_of_mem _ member)
    have split : message.drop done =
        (message.drop done).take count ++ message.drop (done + count) := by
      rw [← List.drop_drop, List.take_append_drop]
    have fits : (message.drop done).take count = message.take count →
        done + count ≤ message.length := by
      intro same
      have lengths := congrArg List.length same
      rw [size, List.length_take, List.length_drop] at lengths
      omega
    rw [List.map_cons, List.flatten_cons, Repeats]
    constructor
    · intro equal
      have same : (message.drop done).take count = message.take count := by
        rw [← equal, List.take_append_of_le_length (by omega), List.take_of_length_le (by omega)]
      refine ⟨same, (inductionHypothesis later (fits same)).mp ?_⟩
      rw [split, same] at equal
      exact List.append_cancel_left equal
    · rintro ⟨same, repeats⟩
      rw [split, same, (inductionHypothesis later (fits same)).mpr repeats]

/-! ### Running the loops -/

/-- The loops of `sendmsg`. -/
abbrev messageLoop (message : List Byte) (n : Int) (answers : List Answer) (waits : List Wait)
    (len : Int) : Outcome Byte :=
  sendLoop (fun len => decide (len < n)) (fun _ => message) answers waits len

theorem reachesFrom_nil {n : Int} {total before : Nat} (reached : n ≤ intOf before) :
    ReachesFrom n total before [] :=
  ⟨reached, fun _ shorter different => absurd (List.prefix_nil.mp shorter) different⟩

/-- What reaches `n` after an answer reaches it with the answer before it. -/
theorem reachesFrom_cons {n : Int} {total before count : Nat} {answer : Answer}
    {answers : List Answer}
    (counted : ∀ answers, (counts total (answer :: answers)).sum =
      count + (counts total answers).sum)
    (notYet : intOf before < n) :
    ReachesFrom n total before (answer :: answers) ↔
      ReachesFrom n total (before + count) answers := by
  have moved : ∀ answers, before + (counts total (answer :: answers)).sum =
      before + count + (counts total answers).sum := by
    intro answers
    rw [counted, Nat.add_assoc]
  rw [ReachesFrom, ReachesFrom, moved]
  constructor
  · rintro ⟨reached, minimal⟩
    refine ⟨reached, fun shorter begins different => ?_⟩
    rw [← moved]
    exact minimal (answer :: shorter) ((List.prefix_cons_inj answer).mpr begins)
      (fun same => different (List.cons.inj same).2)
  · rintro ⟨reached, minimal⟩
    refine ⟨reached, fun shorter begins different => ?_⟩
    cases shorter with
    | nil => exact notYet
    | cons first shorter =>
      obtain ⟨rfl, inner⟩ := List.cons_prefix_cons.mp begins
      rw [moved]
      exact minimal shorter inner (fun same => different (by rw [same]))

theorem reachesFrom_accept {n : Int} {total before : Nat} (room : Nat) {answers : List Answer}
    (notYet : intOf before < n) :
    ReachesFrom n total before (.accept room :: answers) ↔
      ReachesFrom n total (before + taken room total) answers :=
  reachesFrom_cons (fun _ => List.sum_cons) notYet

theorem reachesFrom_error {n : Int} {total before : Nat} (errno : Errno)
    {answers : List Answer} (notYet : intOf before < n) :
    ReachesFrom n total before (.error errno :: answers) ↔
      ReachesFrom n total before answers := by
  have passed : ReachesFrom n total before (.error errno :: answers) ↔
      ReachesFrom n total (before + 0) answers :=
    reachesFrom_cons (fun _ => (Nat.zero_add _).symm) notYet
  rw [Nat.add_zero] at passed
  exact passed

/-- Answers that reach `n` without a failure make the loops return, with the beginnings of the
message that were counted. -/
theorem messageLoop_of_reaches {message : List Byte} {n : Int} {used : List Answer}
    (rest : List Answer) {waits : List Wait} {before : Nat} (undisturbed : Undisturbed used waits)
    (reaches : ReachesFrom n message.length before used) :
    (messageLoop message n (used ++ rest) waits (intOf before)).accepted =
        ((counts message.length used).map message.take).flatten ∧
      (messageLoop message n (used ++ rest) waits (intOf before)).returned =
        some (intOf (before + (counts message.length used).sum : Nat)) := by
  induction used generalizing waits before with
  | nil =>
    have finished : ¬ decide (intOf before < n) = true := by
      rw [decide_eq_true_iff]
      exact Int.not_lt.mpr reaches.1
    rw [messageLoop, sendLoop_of_finished finished]
    exact ⟨rfl, rfl⟩
  | cons answer used inductionHypothesis =>
    have notYet : intOf before < n := reaches.2 [] List.nil_prefix (List.cons_ne_nil _ _).symm
    have inside : decide (intOf before < n) = true := decide_eq_true notYet
    cases answer with
    | accept room =>
      obtain ⟨accepted, returned⟩ := inductionHypothesis undisturbed
        ((reachesFrom_accept room notYet).mp reaches)
      rw [messageLoop, List.cons_append, sendLoop_accept inside, intOf_add_intOf]
      constructor
      · exact congrArg (message.take (taken room message.length) ++ ·) accepted
      · rw [counts, List.sum_cons, ← Nat.add_assoc]
        exact returned
    | error errno =>
      cases waits with
      | nil => exact undisturbed.elim
      | cons wait waits =>
        obtain ⟨rfl, success, further⟩ := undisturbed
        rw [messageLoop, List.cons_append, sendLoop_wait inside _ _ success]
        exact inductionHypothesis further ((reachesFrom_error _ notYet).mp reaches)

/-- The loops return a value that is not negative only after answers that reach `n`. -/
theorem reaches_of_messageLoop {message : List Byte} {n : Int} {answers : List Answer}
    {waits : List Wait} {before : Nat} {value : Int}
    (returned : (messageLoop message n answers waits (intOf before)).returned = some value)
    (positive : 0 ≤ value) :
    ∃ used, used <+: answers ∧ Undisturbed used waits ∧
      ReachesFrom n message.length before used := by
  induction answers generalizing waits before with
  | nil =>
    by_cases notYet : intOf before < n
    · rw [messageLoop, sendLoop, if_pos (decide_eq_true notYet)] at returned
      cases returned
    · exact ⟨[], List.nil_prefix, trivial, reachesFrom_nil (Int.not_lt.mp notYet)⟩
  | cons answer answers inductionHypothesis =>
    by_cases notYet : intOf before < n
    · have inside : decide (intOf before < n) = true := decide_eq_true notYet
      cases answer with
      | accept room =>
        rw [messageLoop, sendLoop_accept inside, intOf_add_intOf] at returned
        obtain ⟨used, begins, undisturbed, reaches⟩ := inductionHypothesis returned
        exact ⟨.accept room :: used, (List.prefix_cons_inj _).mpr begins, undisturbed,
          (reachesFrom_accept room notYet).mpr reaches⟩
      | error errno =>
        simp only [messageLoop, sendLoop, if_pos inside] at returned
        split at returned
        · rename_i again
          cases waits with
          | nil => cases returned
          | cons wait waits =>
            simp only at returned
            split at returned
            · cases returned
              omega
            · rename_i success
              obtain ⟨used, begins, undisturbed, reaches⟩ := inductionHypothesis returned
              exact ⟨.error errno :: used, (List.prefix_cons_inj _).mpr begins,
                ⟨again, not_not.mp success, undisturbed⟩,
                (reachesFrom_error _ notYet).mpr reaches⟩
        · cases returned
          omega
    · exact ⟨[], List.nil_prefix, trivial, reachesFrom_nil (Int.not_lt.mp notYet)⟩

/-! ### When the message is delivered once -/

theorem length_flatten_take (message : List Byte) {counts : List Nat}
    (bounded : ∀ count ∈ counts, count ≤ message.length) :
    (counts.map message.take).flatten.length = counts.sum := by
  induction counts with
  | nil => rfl
  | cons count counts inductionHypothesis =>
    have first : count ≤ message.length := bounded count List.mem_cons_self
    rw [List.map_cons, List.flatten_cons, List.length_append, List.length_take,
      Nat.min_eq_left first, List.sum_cons,
      inductionHypothesis (fun other member => bounded other (List.mem_cons_of_mem _ member))]

theorem intOf_lt (value : Int) : intOf value < 2 ^ 31 := by
  rw [intOf, Int.bmod_def]
  split
  · omega
  · omega

/-- A plain call does not deliver a message of 2^31 bytes or more. -/
theorem plainSend_delivered_iff {message : List Byte} (large : ¬ message.length < 2 ^ 31)
    (answers : List Answer) :
    MessageDelivered message (plainSend message answers) ↔
      ∀ room, ¬ [.accept room] <+: answers := by
  constructor
  · rintro delivered room ⟨rest, rfl⟩
    have same := (delivered _ rfl (Int.natCast_nonneg _)).2
    rw [taken] at same
    omega
  · intro none value returned positive
    cases answers with
    | nil => cases returned
    | cons answer answers =>
      cases answer with
      | accept room => exact absurd (List.prefix_append [.accept room] answers) (none room)
      | error errno =>
        cases returned
        omega

/-- The loops deliver the message exactly when it is shorter than 2^31 bytes and repeats itself
wherever an undisturbed sequence of answers that completes the call takes up again. -/
theorem messageLoop_delivered_iff {message : List Byte} {n : Int} (positive : 0 ≤ n)
    (answers : List Answer) (waits : List Wait) :
    MessageDelivered message (messageLoop message n answers waits 0) ↔
      ∀ used, used <+: answers → Undisturbed used waits →
        ReachesFrom n message.length 0 used →
        message.length < 2 ^ 31 ∧ Repeats message 0 (counts message.length used) := by
  rw [← intOf_zero]
  have repeated : ∀ used, ((counts message.length used).map message.take).flatten = message ↔
      Repeats message 0 (counts message.length used) := fun used =>
    flatten_take_eq_drop message (fun _ => counts_le) (Nat.zero_le _)
  constructor
  · rintro delivered used ⟨rest, rfl⟩ undisturbed reaches
    obtain ⟨accepted, returned⟩ := messageLoop_of_reaches rest undisturbed reaches
    obtain ⟨whole, value⟩ := delivered _ returned (Int.le_trans positive reaches.1)
    refine ⟨?_, (repeated used).mp (accepted.symm.trans whole)⟩
    have small := intOf_lt (0 + (counts message.length used).sum : Nat)
    omega
  · intro condition value returned notNegative
    obtain ⟨used, begins, undisturbed, reaches⟩ := reaches_of_messageLoop returned notNegative
    obtain ⟨small, repeats⟩ := condition used begins undisturbed reaches
    obtain ⟨rest, rfl⟩ := begins
    obtain ⟨accepted, reachedValue⟩ := messageLoop_of_reaches rest undisturbed reaches
    have whole := (repeated used).mpr repeats
    have sum : (counts message.length used).sum = message.length := by
      rw [← length_flatten_take message (fun _ => counts_le), whole]
    rw [returned, Nat.zero_add, sum, intOf_of_lt (by omega) (by omega)] at reachedValue
    exact ⟨accepted.trans whole, Option.some.inj reachedValue⟩

/-- The hooked `sendmsg` delivers a message once exactly when every undisturbed sequence of answers
that completes the call comes to a message shorter than 2^31 bytes that repeats itself wherever the
kernel takes up again. -/
theorem sendmsg_delivered_iff (msg_iov : List (List Byte)) (answers : List Answer)
    (waits : List Wait) :
    MessageDelivered msg_iov.flatten (sendmsg .hooked msg_iov answers waits) ↔
      ∀ used, used <+: answers → Undisturbed used waits →
        Completes (get_msg_len (some msg_iov)) msg_iov.flatten.length used →
        msg_iov.flatten.length < 2 ^ 31 ∧
          Repeats msg_iov.flatten 0 (counts msg_iov.flatten.length used) := by
  have call : sendmsg .hooked msg_iov answers waits =
      if get_msg_len (some msg_iov) < 0 then plainSend msg_iov.flatten answers
      else messageLoop msg_iov.flatten (get_msg_len (some msg_iov)) answers waits 0 := rfl
  rw [call]
  unfold Completes
  split
  · rename_i negative
    have large := length_of_get_msg_len_neg negative
    rw [plainSend_delivered_iff large]
    constructor
    · rintro none used begins - ⟨room, rfl⟩
      exact absurd begins (none room)
    · intro condition room begins
      exact large (condition _ begins trivial ⟨room, rfl⟩).1
  · rename_i positive
    exact messageLoop_delivered_iff (Int.not_lt.mp positive) answers waits

/-- A message in two pieces of which the kernel takes one byte at a time: the first byte is sent
twice and the second is not sent. -/
theorem sendmsg_resends :
    ¬ MessageDelivered ([[1], [2]] : List (List UInt8)).flatten
        (sendmsg .hooked [[1], [2]] [.accept 0, .accept 0] []) ∧
      (sendmsg .hooked ([[1], [2]] : List (List UInt8)) [.accept 0, .accept 0] []).accepted =
        [1, 1] ∧
      (sendmsg .hooked ([[1], [2]] : List (List UInt8)) [.accept 0, .accept 0] []).returned =
        some 2 := by
  have accepted : (sendmsg .hooked ([[1], [2]] : List (List UInt8)) [.accept 0, .accept 0]
      []).accepted = [1, 1] := by decide +kernel
  have returned : (sendmsg .hooked ([[1], [2]] : List (List UInt8)) [.accept 0, .accept 0]
      []).returned = some 2 := by decide +kernel
  refine ⟨fun delivered => ?_, accepted, returned⟩
  have whole := (delivered 2 returned (by decide)).1
  rw [accepted] at whole
  exact absurd whole (by decide)

end Message

end SysHook

end Nattan
