/-
This file models the hooked `read`, `recv` and `recvfrom`, and proves exactly when they
look like blocking calls.

A blocking call returns the first answer of the kernel that is not `EAGAIN`. The hooked
calls ask the kernel, wait once if the answer is `EAGAIN`, and return what the kernel
answers then. So a second `EAGAIN` reaches the caller. A wait that ends with an error or
a hang-up is reported as `ENETDOWN` and the kernel is not asked again, though there may
be data or an end of stream to read. And an end of stream that is found after a wait
that saw the other side close its half is reported as a failure, with the `errno` that
the wait has left, while the same end of stream is reported as such when it is there at
once. And `read` is defined with the result `int`, as `write` is: its failures reach a
caller that knows it from `unistd.h` as 4294967295 bytes.
-/

import Nattan.SysHook

namespace Nattan

namespace SysHook

open CoPoll

/-! ### The calls -/

/-- An answer of the kernel to a request for bytes: a number of bytes, never more than `INT_MAX`,
with zero for the end of the stream, or an error. -/
inductive Received where
  | count (bytes : Fin (2 ^ 31))
  | error (errno : Errno)
  deriving DecidableEq, Repr

/-- The answer that there is nothing to read yet. -/
def Received.again : Received :=
  .error .EAGAIN

/-- What the caller finds: the value returned, and the `errno` of an error. -/
structure Returned where
  value : Int
  errno : Option Errno
  deriving DecidableEq, Repr

/-- The answer as a call of the kernel returns it. -/
def Received.returned : Received → Returned
  | .count bytes => ⟨bytes.val, none⟩
  | .error errno => ⟨-1, some errno⟩

/-- What a caller that expects a `ssize_t` finds when the call returns an `int`. -/
def Returned.narrowed (returned : Returned) : Returned :=
  { returned with value := asSsize returned.value }

/-- The hooked call that `read`, `recv` and `recvfrom` are, each with its own call of the kernel.
`answers` are what the kernel answers, time after time. -/
def hookedReceive (answers : Nat → Received) (wait : Wait) : Received :=
  if answers 0 = .again then
    if (event_poll wait).1 ≠ 0 then .error (event_poll wait).2
    else if answers 1 = .count 0 ∧ wait.error &&& IERDHUP ≠ 0 then .error (event_poll wait).2
    else answers 1
  else answers 0

/-- `read`. Its result is an `int`. What the kernel returns outside the hooked mode stays in the
register as it is. -/
def read (mode : Mode) (answers : Nat → Received) (wait : Wait) : Returned :=
  if mode.co_hooked = false then (answers 0).returned
  else if mode.nonblock ≠ some true then (answers 0).returned
  else (hookedReceive answers wait).returned.narrowed

/-- `recv`. The flags are handed to the kernel. -/
def recv (mode : Mode) (answers : Nat → Received) (wait : Wait) : Returned :=
  if mode.co_hooked = false then (answers 0).returned
  else if mode.nonblock ≠ some true then (answers 0).returned
  else (hookedReceive answers wait).returned

/-- `recvfrom`. The flags and the place for the address are handed to the kernel. -/
def recvfrom (mode : Mode) (answers : Nat → Received) (wait : Wait) : Returned :=
  if mode.co_hooked = false then (answers 0).returned
  else if mode.nonblock ≠ some true then (answers 0).returned
  else (hookedReceive answers wait).returned

/-! ### What a blocking call returns -/

/-- The first answer of the kernel that is not `EAGAIN`. -/
def FirstAnswer (answers : Nat → Received) (answer : Received) : Prop :=
  ∃ number, answers number = answer ∧ answer ≠ .again ∧
    ∀ earlier < number, answers earlier = .again

/-- The wait took place and ended because its time was over. -/
def TimedOut (wait : Wait) : Prop :=
  add_events wait = none ∧ delete_events wait = none ∧ wait.error &&& IETIMEOUT ≠ 0

/-- A call that returned `returned` looks like a blocking call: it returned the first answer of
the kernel that is not `EAGAIN`, unless it had to wait and the wait timed out; and it never
returned `EAGAIN`. -/
def LooksBlocking (answers : Nat → Received) (wait : Wait) (returned : Returned) : Prop :=
  returned.errno ≠ some .EAGAIN ∧
    (answers 0 = .again ∧ TimedOut wait ∨
      ∃ answer, FirstAnswer answers answer ∧ returned = answer.returned)

/-- The condition under which `recv` and `recvfrom` look like blocking calls. -/
def Faithful (answers : Nat → Received) (wait : Wait) : Prop :=
  answers 0 ≠ .again ∨ TimedOut wait ∨
    ((event_poll wait).1 = 0 ∧ answers 1 ≠ .again ∧
      ¬ (answers 1 = .count 0 ∧ wait.error &&& IERDHUP ≠ 0)) ∨
    ((event_poll wait).1 ≠ 0 ∧ FirstAnswer answers (.error (event_poll wait).2))

theorem returned_injective : Function.Injective Received.returned := by
  intro first second same
  cases first <;> cases second <;> simp only [Received.returned, Returned.mk.injEq] at same
  · obtain ⟨values, -⟩ := same
    exact congrArg Received.count (Fin.ext (Int.ofNat_inj.mp values))
  · cases same.2
  · cases same.2
  · exact congrArg Received.error (Option.some.inj same.2)

theorem errno_returned_iff {answer : Received} :
    answer.returned.errno = some .EAGAIN ↔ answer = .again := by
  cases answer <;> simp [Received.returned, Received.again]

theorem event_poll_of_timedOut {wait : Wait} (timedOut : TimedOut wait) :
    event_poll wait = (-1, .ETIME) := by
  obtain ⟨added, deleted, mask⟩ := timedOut
  rw [event_poll, added]
  simp only [deleted, if_pos mask]

theorem firstAnswer_zero {answers : Nat → Received} (ready : answers 0 ≠ .again) :
    FirstAnswer answers (answers 0) :=
  ⟨0, rfl, ready, fun _ earlier => absurd earlier (Nat.not_lt_zero _)⟩

/-- The second answer is the first that is not `EAGAIN` if only the first is. -/
theorem firstAnswer_one {answers : Nat → Received} {answer : Received} (again : answers 0 = .again)
    (ready : answers 1 ≠ .again) : FirstAnswer answers answer ↔ answer = answers 1 := by
  constructor
  · rintro ⟨number, rfl, different, before⟩
    match number with
    | 0 => exact absurd again different
    | 1 => rfl
    | later + 2 => exact absurd (before 1 (by omega)) ready
  · rintro rfl
    refine ⟨1, rfl, ready, fun earlier smaller => ?_⟩
    obtain rfl : earlier = 0 := by omega
    exact again

/-- There is one first answer. -/
theorem firstAnswer_unique {answers : Nat → Received} {first second : Received}
    (one : FirstAnswer answers first) (two : FirstAnswer answers second) : first = second := by
  obtain ⟨number, rfl, ready, before⟩ := one
  obtain ⟨other, rfl, otherReady, otherBefore⟩ := two
  obtain less | rfl | greater := Nat.lt_trichotomy number other
  · exact absurd (otherBefore number less) ready
  · rfl
  · exact absurd (before other greater) otherReady

/-- Without a wait the answer is the first that is not `EAGAIN`. -/
theorem hookedReceive_of_ready {answers : Nat → Received} (wait : Wait)
    (ready : answers 0 ≠ .again) : hookedReceive answers wait = answers 0 :=
  if_neg ready

theorem hookedReceive_of_failed {answers : Nat → Received} {wait : Wait}
    (again : answers 0 = .again) (failed : (event_poll wait).1 ≠ 0) :
    hookedReceive answers wait = .error (event_poll wait).2 :=
  (if_pos again).trans (if_pos failed)

theorem hookedReceive_of_closed {answers : Nat → Received} {wait : Wait}
    (again : answers 0 = .again) (success : (event_poll wait).1 = 0)
    (closed : answers 1 = .count 0 ∧ wait.error &&& IERDHUP ≠ 0) :
    hookedReceive answers wait = .error (event_poll wait).2 :=
  (if_pos again).trans ((if_neg (not_not.mpr success)).trans (if_pos closed))

theorem hookedReceive_of_retried {answers : Nat → Received} {wait : Wait}
    (again : answers 0 = .again) (success : (event_poll wait).1 = 0)
    (stays : ¬ (answers 1 = .count 0 ∧ wait.error &&& IERDHUP ≠ 0)) :
    hookedReceive answers wait = answers 1 :=
  (if_pos again).trans ((if_neg (not_not.mpr success)).trans (if_neg stays))

/-! ### When the calls look like blocking calls -/

theorem looksBlocking_of_firstAnswer {answers : Nat → Received} {answer : Received} (wait : Wait)
    (first : FirstAnswer answers answer) : LooksBlocking answers wait answer.returned := by
  refine ⟨fun again => ?_, Or.inr ⟨answer, first, rfl⟩⟩
  obtain ⟨number, -, different, -⟩ := first
  exact different (errno_returned_iff.mp again)

/-- A call that had to wait, in a wait that did not time out. -/
theorem looksBlocking_iff_firstAnswer {answers : Nat → Received} {wait : Wait}
    {answer : Received} (inTime : ¬ TimedOut wait) :
    LooksBlocking answers wait answer.returned ↔ FirstAnswer answers answer := by
  constructor
  · rintro ⟨-, ⟨-, timedOut⟩ | ⟨other, first, same⟩⟩
    · exact absurd timedOut inTime
    · exact returned_injective same ▸ first
  · exact looksBlocking_of_firstAnswer wait

theorem faithful_iff_of_again {answers : Nat → Received} {wait : Wait}
    (again : answers 0 = .again) (inTime : ¬ TimedOut wait) :
    Faithful answers wait ↔
      ((event_poll wait).1 = 0 ∧ answers 1 ≠ .again ∧
        ¬ (answers 1 = .count 0 ∧ wait.error &&& IERDHUP ≠ 0)) ∨
      ((event_poll wait).1 ≠ 0 ∧ FirstAnswer answers (.error (event_poll wait).2)) := by
  rw [Faithful, or_iff_right (not_not.mpr again), or_iff_right inTime]

theorem hookedReceive_looksBlocking_iff (answers : Nat → Received) (wait : Wait) :
    LooksBlocking answers wait (hookedReceive answers wait).returned ↔ Faithful answers wait := by
  by_cases again : answers 0 = .again
  · by_cases timedOut : TimedOut wait
    · have polled := event_poll_of_timedOut timedOut
      have failed : (event_poll wait).1 ≠ 0 := by
        rw [polled]
        decide
      rw [hookedReceive_of_failed again failed, polled]
      exact iff_of_true ⟨by decide, Or.inl ⟨again, timedOut⟩⟩ (Or.inr (Or.inl timedOut))
    · rw [looksBlocking_iff_firstAnswer timedOut, faithful_iff_of_again again timedOut]
      by_cases success : (event_poll wait).1 = 0
      · rw [and_iff_right success, or_iff_left (fun failed => failed.1 success)]
        by_cases closed : answers 1 = .count 0 ∧ wait.error &&& IERDHUP ≠ 0
        · have ready : answers 1 ≠ .again := by
            rw [closed.1]
            decide
          rw [hookedReceive_of_closed again success closed, firstAnswer_one again ready, closed.1]
          exact iff_of_false (fun same => by cases same)
            (fun faithful => faithful.2 ⟨rfl, closed.2⟩)
        · rw [hookedReceive_of_retried again success closed, and_iff_left closed]
          constructor
          · rintro ⟨-, -, different, -⟩
            exact different
          · intro ready
            exact (firstAnswer_one again ready).mpr rfl
      · rw [hookedReceive_of_failed again success, and_iff_right success,
          or_iff_right (fun polled => success polled.1)]
  · rw [hookedReceive_of_ready wait again]
    exact iff_of_true (looksBlocking_of_firstAnswer wait (firstAnswer_zero again)) (Or.inl again)

/-- `read` looks like a blocking call when `recv` does, and when it has no error to report. -/
theorem read_looksBlocking_iff (answers : Nat → Received) (wait : Wait) :
    LooksBlocking answers wait (hookedReceive answers wait).returned.narrowed ↔
      Faithful answers wait ∧
        (answers 0 = .again ∧ TimedOut wait ∨ ∃ bytes, FirstAnswer answers (.count bytes)) := by
  rw [← hookedReceive_looksBlocking_iff]
  cases hookedReceive answers wait with
  | count bytes =>
    have same : (Received.count bytes).returned.narrowed = (Received.count bytes).returned := by
      have fits : asSsize bytes.val = bytes.val :=
        Int.emod_eq_of_lt (Int.natCast_nonneg _) (by have := bytes.isLt; omega)
      rw [Received.returned, Returned.narrowed, fits]
    rw [same]
    refine ⟨fun looks => ⟨looks, ?_⟩, fun both => both.1⟩
    obtain ⟨-, timedOut | ⟨answer, first, returned⟩⟩ := looks
    · exact Or.inl timedOut
    · exact Or.inr ⟨bytes, returned_injective returned ▸ first⟩
  | error errno =>
    constructor
    · rintro ⟨different, timedOut | ⟨answer, -, returned⟩⟩
      · exact ⟨⟨different, Or.inl timedOut⟩, Or.inl timedOut⟩
      · have value := congrArg Returned.value returned
        cases answer with
        | count bytes =>
          have same : (4294967295 : Int) = bytes.val := value
          have := bytes.isLt
          omega
        | error other =>
          have same : (4294967295 : Int) = -1 := value
          omega
    · rintro ⟨⟨different, looks⟩, timedOut | ⟨bytes, first⟩⟩
      · exact ⟨different, Or.inl timedOut⟩
      · obtain timedOut | ⟨answer, other, returned⟩ := looks
        · exact ⟨different, Or.inl timedOut⟩
        · have unique := firstAnswer_unique first (returned_injective returned ▸ other)
          cases unique

/-- `recv` and `recvfrom` look like blocking calls exactly when the first answer is not `EAGAIN`,
or the wait times out, or it succeeds and the second answer is neither `EAGAIN` nor an end of
stream after the other side has closed its half, or it fails with the error that the kernel would
have answered next. And all three calls do exactly when moreover the call times out or the first
answer is a number of bytes. -/
theorem hooked_receives_look_blocking_iff (answers : Nat → Received) (wait : Wait) :
    (∀ call ∈ [recv, recvfrom],
      (LooksBlocking answers wait (call .hooked answers wait) ↔ Faithful answers wait)) ∧
    ((∀ call ∈ [read, recv, recvfrom], LooksBlocking answers wait (call .hooked answers wait)) ↔
      Faithful answers wait ∧
        (answers 0 = .again ∧ TimedOut wait ∨ ∃ bytes, FirstAnswer answers (.count bytes))) := by
  have exactly := hookedReceive_looksBlocking_iff answers wait
  have narrow := read_looksBlocking_iff answers wait
  refine ⟨?_, ?_, ?_⟩
  · intro call member
    simp only [List.mem_cons, List.not_mem_nil, or_false] at member
    obtain rfl | rfl := member
    · exact exactly
    · exact exactly
  · intro all
    exact narrow.mp (all read List.mem_cons_self)
  · intro both call member
    simp only [List.mem_cons, List.not_mem_nil, or_false] at member
    obtain rfl | rfl | rfl := member
    · exact narrow.mpr both
    · exact exactly.mpr both.1
    · exact exactly.mpr both.1

/-- Five bytes that come after there was nothing to read at first. -/
def arrivesWhileWaiting : Nat → Received
  | 0 => .again
  | _ => .count 5

theorem hooked_receives_look_blocking_five :
    recvfrom .hooked arrivesWhileWaiting (.ready IEREAD) = ⟨5, none⟩ ∧
      LooksBlocking arrivesWhileWaiting (.ready IEREAD)
        (recvfrom .hooked arrivesWhileWaiting (.ready IEREAD)) :=
  ⟨by decide +kernel,
    ((hooked_receives_look_blocking_iff arrivesWhileWaiting (.ready IEREAD)).1 recvfrom
      (List.mem_cons_of_mem _ List.mem_cons_self)).mpr
      (Or.inr (Or.inr (Or.inl ⟨by decide, by decide, by decide⟩)))⟩

/-- A stream that ends after there was nothing to read at first. -/
def closedWhileWaiting : Nat → Received
  | 0 => .again
  | _ => .count 0

/-- The other side closes its half while the call waits: the end of the stream is reported as the
error that the deletion of the descriptor has left. And an error that is there at once is reported
by `read` as a number of bytes. -/
theorem end_of_stream_reported_as_error :
    (∀ call ∈ [recv, recvfrom],
      call .hooked closedWhileWaiting (.ready (IEREAD ||| IERDHUP)) = ⟨-1, some .ENOENT⟩ ∧
      ¬ LooksBlocking closedWhileWaiting (.ready (IEREAD ||| IERDHUP))
        (call .hooked closedWhileWaiting (.ready (IEREAD ||| IERDHUP)))) ∧
    read .hooked (fun _ => .error (.other 104)) (.ready IEREAD) =
        ⟨4294967295, some (.other 104)⟩ ∧
      ¬ LooksBlocking (fun _ => .error (.other 104)) (.ready IEREAD)
        (read .hooked (fun _ => .error (.other 104)) (.ready IEREAD)) := by
  have closed : hookedReceive closedWhileWaiting (.ready (IEREAD ||| IERDHUP)) =
      .error .ENOENT := by decide +kernel
  have inTime : ¬ TimedOut (.ready (IEREAD ||| IERDHUP)) :=
    fun timedOut => absurd timedOut.2.2 (by decide)
  have hidden : ¬ LooksBlocking closedWhileWaiting (.ready (IEREAD ||| IERDHUP))
      (hookedReceive closedWhileWaiting (.ready (IEREAD ||| IERDHUP))).returned := by
    rw [looksBlocking_iff_firstAnswer inTime, closed,
      @firstAnswer_one closedWhileWaiting _ rfl (by decide)]
    exact fun same => by cases same
  refine ⟨?_, by decide +kernel, ?_⟩
  · intro call member
    simp only [List.mem_cons, List.not_mem_nil, or_false] at member
    obtain rfl | rfl := member
    · exact ⟨congrArg Received.returned closed, hidden⟩
    · exact ⟨congrArg Received.returned closed, hidden⟩
  · rintro ⟨-, ⟨again, -⟩ | ⟨answer, first, returned⟩⟩
    · cases again
    · obtain ⟨number, rfl, -⟩ := first
      have value : (4294967295 : Int) = -1 := congrArg Returned.value returned
      omega

end SysHook

end Nattan
