/-
This file models `event_poll`, and the hooked `write`, `send` and `sendto` that wait
with it, and proves when these deliver every byte once.

A hooked call runs in a task. Where a plain call on a non-blocking descriptor would
report `EAGAIN`, it hands the descriptor to the event loop of the thread and yields,
and goes on when the loop resumes the task. What the kernel answers and what the
waits come to is not decided by the code, so a call is a function of two lists: the
answers of the kernel, in the order of the calls, and the waits. A call that has used
up a list has not returned yet.

The sending calls go on until the whole buffer is sent. They keep the number of bytes
sent in an `int`, compare it with a `size_t`, and offer the kernel what lies behind
it. As long as the buffer is shorter than 2^31 bytes that number is the length of what
the kernel has accepted, so the next offer starts where the last one ended. `send` and
`sendto` return it as a `ssize_t`. `write` is defined with the result `int`, where its
callers know it from `unistd.h` with the result `ssize_t`: the -1 of a failure reaches
them as 4294967295, a number of bytes.
-/

import Nattan.CoPoll
import Nattan.File

namespace Nattan

namespace SysHook

open CoPoll

/-! ### Waiting for a descriptor -/

/-- The values of `errno` the code names, and the others. `EWOULDBLOCK` is `EAGAIN`. -/
inductive Errno where
  | EAGAIN
  | EEXIST
  | ENOENT
  | ETIME
  | ENETDOWN
  | other (code : Nat)
  deriving DecidableEq, Repr

/-- One wait in `event_poll`, as it looks from there: how the kernel answers when the descriptor
is added, modified and deleted, the `error` the task finds in the `inner_fd` when it is resumed,
and the `errno` that the other tasks of the thread have left. -/
structure Wait where
  added : Option Errno
  modified : Option Errno
  deleted : Option Errno
  error : BitVec 32
  errno : Errno
  deriving DecidableEq, Repr

/-- `add_events`. -/
def add_events (wait : Wait) : Option Errno :=
  if wait.added = some .EEXIST then wait.modified else wait.added

/-- `delete_events`. A descriptor that is not there any more is not an error. -/
def delete_events (wait : Wait) : Option Errno :=
  if wait.deleted = some .ENOENT then none else wait.deleted

/-- `event_poll`: the value returned and `errno`. -/
def event_poll (wait : Wait) : Int × Errno :=
  match add_events wait with
  | some errno => (-1, wait.deleted.getD errno)
  | none =>
    match delete_events wait with
    | some errno => (-1, errno)
    | none =>
      if wait.error &&& IETIMEOUT ≠ 0 then (-1, .ETIME)
      else if wait.error &&& IEERR ≠ 0 then (-1, .ENETDOWN)
      else if wait.error &&& IEHUP ≠ 0 then (-1, .ENETDOWN)
      else (0, wait.deleted.getD wait.errno)

/-- What a hooked call looks at before anything else: whether the calls of the task are hooked,
and whether the descriptor has an `inner_fd` and it is non-blocking. -/
structure Mode where
  co_hooked : Bool
  nonblock : Option Bool
  deriving DecidableEq, Repr

/-- The mode in which a call is not handed to the kernel as it is. -/
def Mode.hooked : Mode where
  co_hooked := true
  nonblock := some true

/-! ### Sending -/

/-- An answer of the kernel to an offer of bytes. It takes at least one byte and at most what it
is offered, so it is given by what it would take beyond the first byte. -/
inductive Answer where
  | accept (room : Nat)
  | error (errno : Errno)
  deriving DecidableEq, Repr

/-- How many of `offered` bytes are taken. No call of the kernel transfers more than `INT_MAX`. -/
def taken (room offered : Nat) : Nat :=
  min (room + 1) (min offered (2 ^ 31 - 1))

/-- What has become of a sending call: the bytes the kernel accepted, the value the caller finds,
if the call has returned, and how many answers and waits it used. -/
structure Outcome (Byte : Type) where
  accepted : List Byte
  returned : Option Int
  answers : Nat
  waits : Nat
  deriving DecidableEq, Repr

section Calls

variable {Byte : Type}

/-- The outcome of a call that begins with an accepted slice. -/
def Outcome.after (slice : List Byte) (outcome : Outcome Byte) : Outcome Byte :=
  { outcome with accepted := slice ++ outcome.accepted, answers := outcome.answers + 1 }

/-- The outcome of a call that begins with a wait. -/
def Outcome.waited (outcome : Outcome Byte) : Outcome Byte :=
  { outcome with answers := outcome.answers + 1, waits := outcome.waits + 1 }

/-- What a caller that expects a `ssize_t` finds of an `int`: the register holds the `int`, and
nothing above it. -/
def asSsize (value : Int) : Int :=
  value % 2 ^ 32

/-- The outcome of a call that returns an `int` to callers that expect a `ssize_t`. -/
def Outcome.narrowed (outcome : Outcome Byte) : Outcome Byte :=
  { outcome with returned := outcome.returned.map asSsize }

/-- The call of the kernel that a call outside the hooked mode is. -/
def plainSend (offered : List Byte) : List Answer → Outcome Byte
  | [] => ⟨[], none, 0, 0⟩
  | .error _ :: _ => ⟨[], some (-1), 1, 0⟩
  | .accept room :: _ =>
    ⟨offered.take (taken room offered.length), some (taken room offered.length), 1, 0⟩

/-- The two nested loops of a sending call from the value `len` on. `more` is the condition of the
inner loop and `offer` are the bytes handed to the kernel. The inner loop is left with `more` true
only for a wait, after which it is entered again. -/
def sendLoop (more : Int → Bool) (offer : Int → List Byte) :
    List Answer → List Wait → Int → Outcome Byte
  | [], _, len => ⟨[], if more len then none else some len, 0, 0⟩
  | .error errno :: answers, waits, len =>
    if more len then
      if errno = .EAGAIN then
        match waits with
        | [] => ⟨[], none, 1, 0⟩
        | wait :: waits =>
          if (event_poll wait).1 ≠ 0 then ⟨[], some (-1), 1, 1⟩
          else (sendLoop more offer answers waits len).waited
      else ⟨[], some (-1), 1, 0⟩
    else ⟨[], some len, 0, 0⟩
  | .accept room :: answers, waits, len =>
    if more len then
      let ret := taken room (offer len).length
      (sendLoop more offer answers waits (intOf (len + ret))).after ((offer len).take ret)
    else ⟨[], some len, 0, 0⟩

/-- `len < n` for an `int` and a `size_t`: the `int` is converted. -/
def lessSizeT (n : Nat) (len : Int) : Bool :=
  decide (len % 2 ^ 64 < n)

/-- The hooked call that `send` and `sendto` are, each with its own call of the kernel. -/
def hookedSend (mode : Mode) (buffer : List Byte) (answers : List Answer) (waits : List Wait) :
    Outcome Byte :=
  if mode.co_hooked = false then plainSend buffer answers
  else if mode.nonblock ≠ some true then plainSend buffer answers
  else sendLoop (lessSizeT buffer.length) (fun len => buffer.drop len.toNat) answers waits 0

/-- `write`. Its result is an `int`. What the kernel returns outside the hooked mode stays in the
register as it is. -/
def write (mode : Mode) (buffer : List Byte) (answers : List Answer) (waits : List Wait) :
    Outcome Byte :=
  if mode.co_hooked = false then plainSend buffer answers
  else if mode.nonblock ≠ some true then plainSend buffer answers
  else (sendLoop (lessSizeT buffer.length) (fun len => buffer.drop len.toNat) answers waits
    0).narrowed

/-- `send`. The flags are handed to the kernel with every offer. -/
def send (mode : Mode) (buffer : List Byte) (answers : List Answer) (waits : List Wait) :
    Outcome Byte :=
  hookedSend mode buffer answers waits

/-- `sendto`. The flags and the address are handed to the kernel with every offer. -/
def sendto (mode : Mode) (buffer : List Byte) (answers : List Answer) (waits : List Wait) :
    Outcome Byte :=
  hookedSend mode buffer answers waits

/-! ### Every byte is delivered once -/

/-- What the answer takes of an offer that is long enough. -/
def Answer.wants : Answer → Nat
  | .accept room => room + 1
  | .error _ => 0

/-- What the answers take of a buffer that is long enough. -/
def wanted : List Answer → Nat
  | [] => 0
  | answer :: rest => answer.wants + wanted rest

@[simp] theorem wanted_accept (room : Nat) (answers : List Answer) :
    wanted (.accept room :: answers) = room + 1 + wanted answers := rfl

@[simp] theorem wanted_error (errno : Errno) (answers : List Answer) :
    wanted (.error errno :: answers) = wanted answers :=
  Nat.zero_add _

/-- A sending call of a buffer of `length` bytes of which `due` are still to be sent: what the
kernel accepts is the beginning of what is due, and as much of it as its answers take, the length
is returned only when all of it is accepted and no other value that is not negative is returned, a
negative value is -1 and returned only after an answer that is an error or after a wait that
failed, and a call that has not returned has bytes left and waits for an answer or for the
descriptor. -/
structure Delivers (length : Nat) (due : List Byte) (answers : List Answer) (waits : List Wait)
    (outcome : Outcome Byte) : Prop where
  inOrder : outcome.accepted <+: due
  taken : outcome.accepted = due.take (wanted (answers.take outcome.answers))
  whole : outcome.returned = some (length : Int) → outcome.accepted = due
  onlyLength : ∀ value, outcome.returned = some value → 0 ≤ value → value = length
  onlyAfterFailure : ∀ value, outcome.returned = some value → value < 0 →
    (∃ errno, (answers.take outcome.answers).getLast? = some (.error errno) ∧
      errno ≠ .EAGAIN) ∨
    (∃ wait, (waits.take outcome.waits).getLast? = some wait ∧ (event_poll wait).1 ≠ 0)
  minusOne : ∀ value, outcome.returned = some value → value < 0 → value = -1
  pending : outcome.returned = none → outcome.accepted ≠ due ∧
    (outcome.answers = answers.length ∨
      (answers.take outcome.answers).getLast? = some (.error .EAGAIN) ∧
        outcome.waits = waits.length)

theorem getLast?_take_cons {Item : Type} {item last : Item} {items : List Item} {number : Nat}
    (found : (items.take number).getLast? = some last) :
    ((item :: items).take (number + 1)).getLast? = some last := by
  rw [List.take_succ_cons, List.getLast?_cons, found, Option.getD_some]

/-- A call that waits for an answer or for the descriptor. -/
theorem delivers_pending (length : Nat) {due : List Byte} (left : due ≠ []) {answers : List Answer}
    {waits : List Wait} {used : Nat} (nothing : wanted (answers.take used) = 0)
    (waiting : used = answers.length ∨
      (answers.take used).getLast? = some (.error .EAGAIN) ∧ 0 = waits.length) :
    Delivers length due answers waits ⟨[], none, used, 0⟩ where
  inOrder := List.nil_prefix
  taken := by rw [nothing, List.take_zero]
  whole := fun returned => by cases returned
  onlyLength := fun _ returned => by cases returned
  onlyAfterFailure := fun _ returned => by cases returned
  minusOne := fun _ returned => by cases returned
  pending := fun _ => ⟨left.symm, waiting⟩

/-- Nothing is due when the length is returned. -/
theorem delivers_length (length : Nat) (answers : List Answer) (waits : List Wait) :
    Delivers length ([] : List Byte) answers waits ⟨[], some length, 0, 0⟩ where
  inOrder := List.prefix_rfl
  taken := rfl
  whole := fun _ => rfl
  onlyLength := fun value returned _ => (Option.some.inj returned).symm
  onlyAfterFailure := fun value returned negative => by
    have same : (length : Int) = value := Option.some.inj returned
    omega
  minusOne := fun value returned negative => by
    have same : (length : Int) = value := Option.some.inj returned
    omega
  pending := fun returned => by cases returned

/-- The answer or the wait that has failed is the last one used. -/
theorem delivers_failure {length : Nat} {due : List Byte} {answers : List Answer}
    {waits : List Wait} {usedAnswers usedWaits : Nat}
    (nothing : wanted (answers.take usedAnswers) = 0)
    (failed : (∃ errno, (answers.take usedAnswers).getLast? = some (.error errno) ∧
      errno ≠ .EAGAIN) ∨
      (∃ wait, (waits.take usedWaits).getLast? = some wait ∧ (event_poll wait).1 ≠ 0)) :
    Delivers length due answers waits ⟨[], some (-1), usedAnswers, usedWaits⟩ where
  inOrder := List.nil_prefix
  taken := by rw [nothing, List.take_zero]
  whole := fun returned => by
    have same : (-1 : Int) = length := Option.some.inj returned
    omega
  onlyLength := fun value returned positive => by
    have same : (-1 : Int) = value := Option.some.inj returned
    omega
  onlyAfterFailure := fun _ _ _ => failed
  minusOne := fun _ returned _ => (Option.some.inj returned).symm
  pending := fun returned => by cases returned

/-- What an offer loses to an answer, and what the answers after it take of the rest. -/
theorem take_min_append (due : List Byte) (room further : Nat) :
    due.take (min room due.length) ++ (due.drop (min room due.length)).take further =
      due.take (room + further) := by
  rw [← List.take_add]
  by_cases fits : room ≤ due.length
  · rw [Nat.min_eq_left fits]
  · rw [Nat.min_eq_right (by omega), List.take_of_length_le (by omega),
      List.take_of_length_le (by omega)]

/-- The step of the inner loop: a slice is accepted, and the rest is due. -/
theorem Delivers.after {length : Nat} {due : List Byte} {answers : List Answer}
    {waits : List Wait} {outcome : Outcome Byte} {count room : Nat}
    (counted : count = min (room + 1) due.length)
    (delivers : Delivers length (due.drop count) answers waits outcome) :
    Delivers length due (.accept room :: answers) waits (outcome.after (due.take count)) where
  inOrder := by
    obtain ⟨rest, split⟩ := delivers.inOrder
    refine ⟨rest, ?_⟩
    rw [Outcome.after, List.append_assoc, split, List.take_append_drop]
  taken := by
    show due.take count ++ outcome.accepted =
      due.take (wanted (.accept room :: answers.take outcome.answers))
    rw [wanted_accept, delivers.taken, counted, take_min_append]
  whole := fun returned => by
    rw [Outcome.after, delivers.whole returned, List.take_append_drop]
  onlyLength := delivers.onlyLength
  onlyAfterFailure := fun value returned negative => by
    obtain ⟨errno, last, different⟩ | failed := delivers.onlyAfterFailure value returned negative
    · exact Or.inl ⟨errno, getLast?_take_cons last, different⟩
    · exact Or.inr failed
  minusOne := delivers.minusOne
  pending := fun returned => by
    obtain ⟨left, waiting⟩ := delivers.pending returned
    refine ⟨fun whole => left ?_, ?_⟩
    · have joined : due.take count ++ outcome.accepted = due.take count ++ due.drop count := by
        rw [List.take_append_drop]
        exact whole
      exact List.append_cancel_left joined
    · obtain all | ⟨last, none⟩ := waiting
      · exact Or.inl (congrArg (· + 1) all)
      · exact Or.inr ⟨getLast?_take_cons last, none⟩

/-- The step of the outer loop: a wait that has not failed. -/
theorem Delivers.waited {length : Nat} {due : List Byte} {answers : List Answer}
    {waits : List Wait} {outcome : Outcome Byte} (errno : Errno) (wait : Wait)
    (delivers : Delivers length due answers waits outcome) :
    Delivers length due (.error errno :: answers) (wait :: waits) outcome.waited where
  inOrder := delivers.inOrder
  taken := by
    show outcome.accepted = due.take (wanted (.error errno :: answers.take outcome.answers))
    rw [wanted_error]
    exact delivers.taken
  whole := delivers.whole
  onlyLength := delivers.onlyLength
  onlyAfterFailure := fun value returned negative => by
    obtain ⟨failure, last, different⟩ | ⟨lastWait, last, failed⟩ :=
      delivers.onlyAfterFailure value returned negative
    · exact Or.inl ⟨failure, getLast?_take_cons last, different⟩
    · exact Or.inr ⟨lastWait, getLast?_take_cons last, failed⟩
  minusOne := delivers.minusOne
  pending := fun returned => by
    obtain ⟨left, all | ⟨last, none⟩⟩ := delivers.pending returned
    · exact ⟨left, Or.inl (congrArg (· + 1) all)⟩
    · exact ⟨left, Or.inr ⟨getLast?_take_cons last, congrArg (· + 1) none⟩⟩

/-- The comparison is that of the numbers as long as the `int` counts bytes of the buffer. -/
theorem lessSizeT_eq_true {n sent : Nat} (small : sent < 2 ^ 31) :
    lessSizeT n sent = true ↔ sent < n := by
  have same : (sent : Int) % 2 ^ 64 = sent := Int.emod_eq_of_lt (by omega) (by omega)
  rw [lessSizeT, decide_eq_true_iff, same]
  exact Int.ofNat_lt

/-- The loops are left when nothing more is to be sent. -/
theorem sendLoop_of_finished {more : Int → Bool} {offer : Int → List Byte} {len : Int}
    (finished : ¬ more len = true) (answers : List Answer) (waits : List Wait) :
    sendLoop more offer answers waits len = ⟨[], some len, 0, 0⟩ := by
  unfold sendLoop
  split
  · rw [if_neg finished]
  · rw [if_neg finished]
  · rw [if_neg finished]

/-- The step of the inner loop. -/
theorem sendLoop_accept {more : Int → Bool} {offer : Int → List Byte} {len : Int}
    (inside : more len = true) (room : Nat) (answers : List Answer) (waits : List Wait) :
    sendLoop more offer (.accept room :: answers) waits len =
      (sendLoop more offer answers waits (intOf (len + taken room (offer len).length))).after
        ((offer len).take (taken room (offer len).length)) := by
  rw [sendLoop, if_pos inside]

/-- The step of the outer loop. -/
theorem sendLoop_wait {more : Int → Bool} {offer : Int → List Byte} {len : Int}
    (inside : more len = true) (answers : List Answer) {wait : Wait} (waits : List Wait)
    (success : (event_poll wait).1 = 0) :
    sendLoop more offer (.error .EAGAIN :: answers) (wait :: waits) len =
      (sendLoop more offer answers waits len).waited := by
  simp only [sendLoop, if_pos inside, success, ne_eq, not_true_eq_false, if_false, if_true]

theorem delivers_finished {buffer : List Byte} (short : buffer.length < 2 ^ 31)
    (answers : List Answer) (waits : List Wait) {sent : Nat} (bounded : sent ≤ buffer.length)
    (finished : ¬ lessSizeT buffer.length sent = true) :
    Delivers buffer.length (buffer.drop sent) answers waits
      (sendLoop (lessSizeT buffer.length) (fun len => buffer.drop len.toNat) answers waits
        sent) := by
  have reached : ¬ sent < buffer.length :=
    fun left => finished ((lessSizeT_eq_true (by omega)).mpr left)
  obtain rfl : sent = buffer.length := by omega
  rw [sendLoop_of_finished finished, List.drop_length]
  exact delivers_length _ _ _

theorem taken_of_lt {offered : Nat} (short : offered < 2 ^ 31) (room : Nat) :
    taken room offered = min (room + 1) offered := by
  rw [taken]
  omega

/-- The invariant of the loops: with `sent` bytes in `len`, what lies behind them is due. -/
theorem sendLoop_delivers (buffer : List Byte) (short : buffer.length < 2 ^ 31)
    (answers : List Answer) (waits : List Wait) (sent : Nat) (bounded : sent ≤ buffer.length) :
    Delivers buffer.length (buffer.drop sent) answers waits
      (sendLoop (lessSizeT buffer.length) (fun len => buffer.drop len.toNat) answers waits
        sent) := by
  induction answers generalizing waits sent with
  | nil =>
    by_cases more : lessSizeT buffer.length sent = true
    · have left : buffer.drop sent ≠ [] := by
        have fewer := (lessSizeT_eq_true (by omega)).mp more
        rw [ne_eq, List.drop_eq_nil_iff]
        omega
      rw [sendLoop, if_pos more]
      exact delivers_pending _ left rfl (Or.inl rfl)
    · exact delivers_finished short _ _ bounded more
  | cons answer answers inductionHypothesis =>
    by_cases more : lessSizeT buffer.length sent = true
    · have fewer : sent < buffer.length := (lessSizeT_eq_true (by omega)).mp more
      have left : buffer.drop sent ≠ [] := by
        rw [ne_eq, List.drop_eq_nil_iff]
        omega
      cases answer with
      | accept room =>
        have count : taken room (buffer.drop sent).length =
            min (room + 1) (buffer.drop sent).length :=
          taken_of_lt (by rw [List.length_drop]; omega) room
        have within : taken room (buffer.drop sent).length ≤ buffer.length - sent := by
          rw [count, List.length_drop]
          omega
        have carried : intOf ((sent : Int) + taken room (buffer.drop sent).length) =
            (sent + taken room (buffer.drop sent).length : Nat) := by
          rw [intOf_of_lt (by omega) (by omega), Int.natCast_add]
        have further := inductionHypothesis waits
          (sent + taken room (buffer.drop sent).length) (by omega)
        rw [← List.drop_drop] at further
        rw [sendLoop_accept more]
        simp only [Int.toNat_natCast, carried]
        exact further.after count
      | error errno =>
        simp only [sendLoop, if_pos more]
        split
        · rename_i again
          cases waits with
          | nil =>
            subst again
            exact delivers_pending _ left rfl (Or.inr ⟨rfl, rfl⟩)
          | cons wait waits =>
            simp only
            split
            · rename_i failed
              exact delivers_failure rfl (Or.inr ⟨wait, rfl, failed⟩)
            · exact (inductionHypothesis waits sent bounded).waited errno wait
        · rename_i different
          exact delivers_failure rfl (Or.inl ⟨errno, rfl, different⟩)
    · exact delivers_finished short _ _ bounded more

/-! ### When a call fails -/

/-- How many of the answers ask to wait. -/
def asked (answers : List Answer) : Nat :=
  answers.count (.error .EAGAIN)

/-- Before `length` bytes are accepted the call comes to an answer that is an error other than
`EAGAIN`, or to a wait that fails. -/
def Fails (length : Nat) (answers : List Answer) (waits : List Wait) : Prop :=
  ∃ before errno after, answers = before ++ .error errno :: after ∧ wanted before < length ∧
    asked before ≤ waits.length ∧
    (errno = .EAGAIN → ∃ wait, waits[asked before]? = some wait ∧ (event_poll wait).1 ≠ 0)

theorem not_fails_zero (answers : List Answer) (waits : List Wait) : ¬ Fails 0 answers waits := by
  rintro ⟨before, errno, after, -, short, -⟩
  exact Nat.not_lt_zero _ short

theorem not_fails_nil (length : Nat) (waits : List Wait) : ¬ Fails length [] waits := by
  rintro ⟨before, errno, after, split, -⟩
  simp at split

theorem fails_accept {length room : Nat} {answers : List Answer} {waits : List Wait} :
    Fails length (.accept room :: answers) waits ↔ Fails (length - (room + 1)) answers waits := by
  constructor
  · rintro ⟨before, errno, after, split, short, waited, failed⟩
    cases before with
    | nil =>
      rw [List.nil_append, List.cons_eq_cons] at split
      cases split.1
    | cons first before =>
      rw [List.cons_append, List.cons_eq_cons] at split
      obtain ⟨rfl, rfl⟩ := split
      rw [wanted_accept] at short
      exact ⟨before, errno, after, rfl, by omega, waited, failed⟩
  · rintro ⟨before, errno, after, rfl, short, waited, failed⟩
    exact ⟨.accept room :: before, errno, after, rfl, by rw [wanted_accept]; omega, waited, failed⟩

theorem fails_error {length : Nat} (left : 0 < length) {errno : Errno} (different : errno ≠ .EAGAIN)
    (answers : List Answer) (waits : List Wait) : Fails length (.error errno :: answers) waits :=
  ⟨[], errno, answers, rfl, left, Nat.zero_le _, fun again => absurd again different⟩

theorem asked_again (answers : List Answer) :
    asked (.error .EAGAIN :: answers) = asked answers + 1 :=
  List.count_cons_self

theorem not_fails_again (length : Nat) (answers : List Answer) :
    ¬ Fails length (.error .EAGAIN :: answers) [] := by
  rintro ⟨before, errno, after, split, -, waited, failed⟩
  cases before with
  | nil =>
    rw [List.nil_append, List.cons_eq_cons, Answer.error.injEq] at split
    obtain ⟨wait, found, -⟩ := failed split.1.symm
    cases found
  | cons first before =>
    rw [List.cons_append, List.cons_eq_cons] at split
    rw [← split.1, asked_again] at waited
    exact absurd waited (Nat.not_succ_le_zero _)

theorem fails_of_wait {length : Nat} (left : 0 < length) (answers : List Answer) {wait : Wait}
    (waits : List Wait) (failed : (event_poll wait).1 ≠ 0) :
    Fails length (.error .EAGAIN :: answers) (wait :: waits) :=
  ⟨[], .EAGAIN, answers, rfl, left, Nat.zero_le _, fun _ => ⟨wait, rfl, failed⟩⟩

theorem fails_again {length : Nat} {answers : List Answer} {wait : Wait} {waits : List Wait}
    (success : (event_poll wait).1 = 0) :
    Fails length (.error .EAGAIN :: answers) (wait :: waits) ↔ Fails length answers waits := by
  constructor
  · rintro ⟨before, errno, after, split, short, waited, failed⟩
    cases before with
    | nil =>
      rw [List.nil_append, List.cons_eq_cons, Answer.error.injEq] at split
      obtain ⟨first, found, fails⟩ := failed split.1.symm
      obtain rfl : wait = first := Option.some.inj found
      exact absurd success fails
    | cons first before =>
      rw [List.cons_append, List.cons_eq_cons] at split
      obtain ⟨rfl, rfl⟩ := split
      rw [wanted_error] at short
      rw [asked_again] at waited failed
      exact ⟨before, errno, after, rfl, short, Nat.le_of_succ_le_succ waited, failed⟩
  · rintro ⟨before, errno, after, rfl, short, waited, failed⟩
    refine ⟨.error .EAGAIN :: before, errno, after, rfl, short.trans_eq' ?_, ?_, ?_⟩
    · rw [wanted_error]
    · rw [asked_again]
      exact Nat.succ_le_succ waited
    · rw [asked_again]
      exact failed

/-- A failure is returned as -1 by the loops, and nothing else is. -/
theorem sendLoop_returned_iff (buffer : List Byte) (short : buffer.length < 2 ^ 31)
    (answers : List Answer) (waits : List Wait) (sent : Nat) (bounded : sent ≤ buffer.length) :
    (sendLoop (lessSizeT buffer.length) (fun len => buffer.drop len.toNat) answers waits
        sent).returned = some (-1) ↔ Fails (buffer.length - sent) answers waits := by
  induction answers generalizing waits sent with
  | nil =>
    refine iff_of_false ?_ (not_fails_nil _ _)
    rw [sendLoop]
    split_ifs
    · simp
    · simp only [Option.some_inj]
      omega
  | cons answer answers inductionHypothesis =>
    by_cases more : lessSizeT buffer.length sent = true
    · have fewer : sent < buffer.length := (lessSizeT_eq_true (by omega)).mp more
      have left : 0 < buffer.length - sent := by omega
      cases answer with
      | accept room =>
        have count : taken room (buffer.drop sent).length =
            min (room + 1) (buffer.length - sent) := by
          rw [← List.length_drop]
          exact taken_of_lt (by rw [List.length_drop]; omega) room
        have carried : intOf ((sent : Int) + taken room (buffer.drop sent).length) =
            (sent + taken room (buffer.drop sent).length : Nat) := by
          rw [intOf_of_lt (by omega) (by omega), Int.natCast_add]
        have further := inductionHypothesis waits
          (sent + taken room (buffer.drop sent).length) (by omega)
        have rest : buffer.length - (sent + taken room (buffer.drop sent).length) =
            buffer.length - sent - (room + 1) := by
          omega
        rw [rest] at further
        rw [sendLoop_accept more, fails_accept, ← further]
        simp only [Int.toNat_natCast, carried]
        exact Iff.rfl
      | error errno =>
        by_cases again : errno = .EAGAIN
        · subst again
          cases waits with
          | nil =>
            refine iff_of_false ?_ (not_fails_again _ _)
            simp [sendLoop, more]
          | cons wait waits =>
            by_cases success : (event_poll wait).1 = 0
            · rw [sendLoop_wait more _ _ success, fails_again success]
              exact inductionHypothesis waits sent bounded
            · refine iff_of_true ?_ (fails_of_wait left _ _ success)
              simp [sendLoop, more, success]
        · refine iff_of_true ?_ (fails_error left again _ _)
          simp [sendLoop, more, again]
    · have reached : buffer.length - sent = 0 := by
        have fewer : ¬ sent < buffer.length :=
          fun less => more ((lessSizeT_eq_true (by omega)).mpr less)
        omega
      rw [sendLoop_of_finished more, reached]
      refine iff_of_false ?_ (not_fails_zero _ _)
      simp only [Option.some_inj]
      omega

/-- A call that has not failed returns the same value to every caller. -/
theorem Delivers.narrowed {length : Nat} (short : length < 2 ^ 31) {due : List Byte}
    {answers : List Answer} {waits : List Wait} {outcome : Outcome Byte}
    (delivers : Delivers length due answers waits outcome)
    (success : ∀ value, outcome.returned = some value → 0 ≤ value) :
    Delivers length due answers waits outcome.narrowed := by
  have same : outcome.narrowed = outcome := by
    cases returned : outcome.returned with
    | none => rw [Outcome.narrowed, returned, Option.map_none, ← returned]
    | some value =>
      have whole : value = length := delivers.onlyLength value returned (success value returned)
      have fits : asSsize value = value := Int.emod_eq_of_lt (by omega) (by omega)
      rw [Outcome.narrowed, returned, Option.map_some, fits, ← returned]
  rw [same]
  exact delivers

/-- In the hooked mode `send` and `sendto` deliver every byte of the buffer once, whatever the
kernel answers and whatever the waits come to. And all three calls do exactly when the call does
not come to an error or to a wait that fails before the buffer is accepted. -/
theorem hooked_sends_deliver_iff (buffer : List Byte) (short : buffer.length < 2 ^ 31)
    (answers : List Answer) (waits : List Wait) :
    (∀ call ∈ [@send Byte, @sendto Byte],
      Delivers buffer.length buffer answers waits (call .hooked buffer answers waits)) ∧
    ((∀ call ∈ [@write Byte, @send Byte, @sendto Byte],
      Delivers buffer.length buffer answers waits (call .hooked buffer answers waits)) ↔
        ¬ Fails buffer.length answers waits) := by
  have delivers : Delivers buffer.length buffer answers waits
      (hookedSend .hooked buffer answers waits) :=
    sendLoop_delivers buffer short answers waits 0 (Nat.zero_le _)
  have failed_iff : (hookedSend .hooked buffer answers waits).returned = some (-1) ↔
      Fails buffer.length answers waits :=
    sendLoop_returned_iff buffer short answers waits 0 (Nat.zero_le _)
  have narrow : write .hooked buffer answers waits =
      (hookedSend .hooked buffer answers waits).narrowed := rfl
  refine ⟨?_, ?_, ?_⟩
  · intro call member
    simp only [List.mem_cons, List.not_mem_nil, or_false] at member
    obtain rfl | rfl := member
    · exact delivers
    · exact delivers
  · intro all fails
    have written := all (@write Byte) List.mem_cons_self
    rw [narrow] at written
    have returned : (hookedSend .hooked buffer answers waits).narrowed.returned =
        some 4294967295 := by
      rw [Outcome.narrowed, failed_iff.mpr fails]
      rfl
    have length := written.onlyLength _ returned (by decide)
    omega
  · intro success call member
    simp only [List.mem_cons, List.not_mem_nil, or_false] at member
    obtain rfl | rfl | rfl := member
    · rw [narrow]
      refine delivers.narrowed short fun value returned => ?_
      by_contra below
      have failure : value = -1 := delivers.minusOne value returned (by omega)
      exact success (failed_iff.mp (failure ▸ returned))
    · exact delivers
    · exact delivers

end Calls

/-- A wait that ends with the descriptor ready. The event loop has deleted it already. -/
def Wait.ready (error : BitVec 32) : Wait where
  added := none
  modified := none
  deleted := some .ENOENT
  error := error
  errno := .EAGAIN

/-- Four bytes, of which the kernel takes one, asks to wait, and takes the others. -/
theorem hooked_sends_deliver_four :
    ([1, 2, 3, 4] : List UInt8).length < 2 ^ 31 ∧
      (Delivers 4 ([1, 2, 3, 4] : List UInt8) [.accept 0, .error .EAGAIN, .accept 7]
        [.ready IEWRITE] ⟨[1, 2, 3, 4], some 4, 3, 1⟩) ∧
      sendto .hooked ([1, 2, 3, 4] : List UInt8) [.accept 0, .error .EAGAIN, .accept 7]
        [.ready IEWRITE] = ⟨[1, 2, 3, 4], some 4, 3, 1⟩ :=
  ⟨by decide, (hooked_sends_deliver_iff ([1, 2, 3, 4] : List UInt8) (by decide)
      [.accept 0, .error .EAGAIN, .accept 7] [.ready IEWRITE]).1 send List.mem_cons_self,
    by decide +kernel⟩

/-- A connection that is broken: to a caller of `write` it looks as if more bytes were sent than
it had. -/
theorem write_reports_length_on_error :
    write .hooked ([1, 2, 3, 4] : List UInt8) [.error (.other 32)] [] =
        ⟨[], some 4294967295, 1, 0⟩ ∧
      ¬ Delivers 4 ([1, 2, 3, 4] : List UInt8) [.error (.other 32)] []
        ⟨[], some 4294967295, 1, 0⟩ := by
  refine ⟨by decide +kernel, fun delivers => ?_⟩
  exact absurd (delivers.onlyLength 4294967295 rfl (by decide)) (by decide)

end SysHook

end Nattan
