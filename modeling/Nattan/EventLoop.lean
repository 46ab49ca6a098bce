/-
This file models the event loop of a scheduler: the tasks that wait for descriptors in
`event_poll`, the reports of `event_wait` and the timer task, and proves what a task that
waits may rely on.

A waiting task is found by its descriptor alone: by the interest list of the kernel and the
wheel, and then by the `task` of the `inner_fd`. So a descriptor serves one task at a time,
and is not closed meanwhile. In every run that keeps to this, whoever waits is registered
and will be found, whoever is found waits, and nothing is left behind when a call returns. A
call with a timeout is over when the wheel has turned often enough.

A report and an expiry may both come before the task runs. A report erases an expiry that
came before it, and an expiry behind a report is added to it, and wins.

The model has the tasks of one scheduler. They run until they yield, so a call of
`event_poll` up to its yield is one step, and so is the rest of it. What was reported, what
has expired and what the wheel was asked for is recorded; the program does not record it.
-/

import Mathlib.Data.Fintype.Card
import Nattan.TimeWheel
import Nattan.Transition

namespace Nattan

namespace EventLoop

open CoPoll (IENONE IETIMEOUT IEREAD IEWRITE IERDHUP IEERR IEHUP)
open Wheel (Timer Demands demand Placed)

universe u

/-- A `fd` that `is_fd_valid` accepts. -/
abbrev Fd := Fin 102400

def FD_TIMEOUT : BitVec 64 := 3

def EPOLLIN : BitVec 32 := 0x1
def EPOLLOUT : BitVec 32 := 0x4
def EPOLLERR : BitVec 32 := 0x8
def EPOLLHUP : BitVec 32 := 0x10
def EPOLLRDHUP : BitVec 32 := 0x2000

/-- An `inner_fd`. Its `link` and its `error` are in the timer. -/
structure Entry (Task : Type u) where
  task : Option Task
  timeout : BitVec 64
  deriving DecidableEq, Repr

/-- How a call of `event_poll` returns. -/
inductive Result where
  | ready
  | etime
  | enetdown
  | refused
  deriving DecidableEq, Repr

/-- Where a task stands. One that was resumed is on the run list, and has not run yet. -/
inductive Pc where
  | outside (last : Option Result)
  | polling (fd : Fd) (events timeout : BitVec 32)
  | resumed (fd : Fd) (events timeout : BitVec 32)
  deriving DecidableEq, Repr

/-- The descriptor a task is inside of `event_poll` for. -/
def Pc.on : Pc → Option Fd
  | outside _ => none
  | polling fd _ _ | resumed fd _ _ => some fd

/-- The table of descriptors, the wheel, the interest list, and the tasks. -/
structure State (size : Nat) (Task : Type u) where
  table : Fd → Option (Entry Task)
  timer : Timer size Fd
  interest : Fd → Option (BitVec 32)
  pc : Task → Pc
  reported : Fd → Option (BitVec 32)
  expired : Fd → Bool
  asked : Demands Fd

variable {size : Nat} {Task : Type u} [DecidableEq Task]

/-- `sched_create` and `init_epoll_timer`, with a new wheel. -/
def new_epoll (wheel : Wheel.TimeWheel size Fd) : State size Task where
  table := fun _ => none
  timer := { wheel, error := fun _ => IENONE }
  interest := fun _ => none
  pc := fun _ => .outside none
  reported := fun _ => none
  expired := fun _ => false
  asked := fun _ => none

def events_to_error (events : BitVec 32) : BitVec 32 :=
  let error := IENONE
  let error := if events &&& EPOLLIN ≠ 0 then error ||| IEREAD else error
  let error := if events &&& EPOLLOUT ≠ 0 then error ||| IEWRITE else error
  let error := if events &&& EPOLLERR ≠ 0 then error ||| IEERR else error
  let error := if events &&& EPOLLRDHUP ≠ 0 then error ||| IERDHUP else error
  if events &&& EPOLLHUP ≠ 0 then error ||| IEHUP else error

/-- What `event_poll` answers at its end. -/
def resultOf (error : BitVec 32) : Result :=
  if error &&& IETIMEOUT ≠ 0 then .etime
  else if error &&& IEERR ≠ 0 then .enetdown
  else if error &&& IEHUP ≠ 0 then .enetdown
  else .ready

namespace State

def goto (state : State size Task) (task : Task) (pc : Pc) : State size Task :=
  { state with pc := Function.update state.pc task pc }

def setEntry (state : State size Task) (fd : Fd) (entry : Option (Entry Task)) :
    State size Task :=
  { state with table := Function.update state.table fd entry }

def setError (state : State size Task) (fd : Fd) (error : BitVec 32) : State size Task :=
  { state with timer := { state.timer with error := Function.update state.timer.error fd error } }

/-- `add_events` that succeeds, by an `EPOLL_CTL_ADD` or an `EPOLL_CTL_MOD`. -/
def add_events (state : State size Task) (fd : Fd) (events : BitVec 32) : State size Task :=
  { state with interest := Function.update state.interest fd (some events) }

/-- It does no harm if the descriptor is not in the list. -/
def delete_events (state : State size Task) (fd : Fd) : State size Task :=
  { state with interest := Function.update state.interest fd none }

def wheel_update_element (state : State size Task) (fd : Fd) (timeout : BitVec 32) :
    State size Task :=
  { state with
    timer := { state.timer with wheel := Wheel.wheel_update_element state.timer.wheel fd timeout }
    asked := demand state.asked (.update fd timeout) }

def wheel_delete_element (state : State size Task) (fd : Fd) : State size Task :=
  { state with
    timer := { state.timer with wheel := Wheel.wheel_delete_element state.timer.wheel fd }
    asked := demand state.asked (.delete fd) }

/-- `co_resume` of a task that waits in `event_poll`, or was resumed already. Another one would be
run where it does not expect it. -/
def co_resume (state : State size Task) (task : Task) : Option (State size Task) :=
  match state.pc task with
  | .outside _ => none
  | .polling fd events timeout | .resumed fd events timeout =>
    some (state.goto task (.resumed fd events timeout))

/-- `new_inner_fd`. -/
def new_inner_fd (state : State size Task) (fd : Fd) : Option (State size Task) :=
  match state.table fd with
  | some _ => none
  | none =>
    let state := state.setEntry fd (some ⟨none, FD_TIMEOUT⟩)
    let state := state.setError fd IENONE
    let links := state.timer.wheel.links.list_init (.elem fd)
    some { state with timer := { state.timer with wheel := { state.timer.wheel with links } } }

/-- The hooked `close`: the descriptor leaves the wheel, the table and the interest list. -/
def close (state : State size Task) (fd : Fd) : State size Task :=
  match state.table fd with
  | none => state.delete_events fd
  | some _ => ((state.wheel_delete_element fd).setEntry fd none).delete_events fd

/-- `event_poll` up to its yield. Without an `inner_fd` it panics. The timeout is a `time_t` that
is passed as an `int`. -/
def event_poll (state : State size Task) (self : Task) (fd : Fd) (events : BitVec 32)
    (added : Bool) : Option (State size Task) :=
  match state.table fd with
  | none => none
  | some entry =>
    let state := (state.setError fd IENONE).setEntry fd (some { entry with task := some self })
    if added then
      let state := state.add_events fd events
      let timeout := entry.timeout.setWidth 32
      let state := state.wheel_update_element fd timeout
      some { state.goto self (.polling fd events timeout) with
        reported := Function.update state.reported fd none
        expired := Function.update state.expired fd false }
    else some ((state.delete_events fd).goto self (.outside (some .refused)))

/-- `event_poll` behind its yield. -/
def event_poll_resumed (state : State size Task) (task : Task) : Option (State size Task) :=
  match state.pc task with
  | .resumed fd _ _ =>
    let state := (state.wheel_delete_element fd).delete_events fd
    some (state.goto task (.outside (some (resultOf (state.timer.error fd)))))
  | _ => none

/-- The first half of the loop of `event_wait`: what is reported is taken down, and the descriptor
leaves the interest list. -/
def takeDown (state : State size Task) (fd : Fd) (events : BitVec 32) : State size Task :=
  { (state.setError fd (events_to_error events)).delete_events fd with
    reported := Function.update state.reported fd (some events)
    expired := Function.update state.expired fd false }

/-- The loop of `event_wait` over what the kernel reports. A descriptor without an `inner_fd` would
be a null pointer. -/
def event_wait (state : State size Task) : List (Fd × BitVec 32) → Option (State size Task)
  | [] => some state
  | (fd, events) :: rest =>
    match state.table fd with
    | none => none
    | some ifd =>
      let state := state.takeDown fd events
      match ifd.task with
      | none => state.event_wait rest
      | some task => (state.co_resume task).bind fun state => state.event_wait rest

/-- The tasks of the descriptors that the timer has fired are resumed. -/
def resumeFired (state : State size Task) : List Fd → Option (State size Task)
  | [] => some state
  | fd :: rest =>
    match (state.table fd).bind Entry.task with
    | none => none
    | some task =>
      (state.co_resume task).bind fun state => state.resumeFired rest

/-- A turn of `_timeout_task`. No slot has more descriptors than there are. -/
def _timeout_task (state : State size Task) : Option (State size Task) :=
  match Wheel.timeoutTask (102400 + 1) state.timer with
  | none => none
  | some (timer, fired) =>
    State.resumeFired { state with
      timer
      asked := demand state.asked .rotate
      expired := fun fd => decide (fd ∈ fired) || state.expired fd } fired

end State

/-- The events were asked for, or are always reported. -/
def Allowed (asked : Option (BitVec 32)) (report : BitVec 32) : Prop :=
  ∃ events ∈ asked, report &&& ~~~(events ||| EPOLLERR ||| EPOLLHUP) = 0

instance (asked : Option (BitVec 32)) (report : BitVec 32) : Decidable (Allowed asked report) :=
  Option.decidableExistsMem asked

/-- What the kernel may report: descriptors of the interest list, each once. -/
def MayReport (state : State size Task) (ready : List (Fd × BitVec 32)) : Prop :=
  (ready.map Prod.fst).Nodup ∧
    ∀ report ∈ ready, report.2 ≠ 0 ∧ Allowed (state.interest report.1) report.2

instance (state : State size Task) (ready : List (Fd × BitVec 32)) :
    Decidable (MayReport state ready) :=
  @instDecidableAnd _ _ (List.nodupDecidable _) (List.decidableBAll _ _)

inductive Action (Task : Type u) where
  | new_inner_fd (fd : Fd)
  | close (fd : Fd)
  | set_timeout (fd : Fd) (timeout : BitVec 64)
  | event_poll (task : Task) (fd : Fd) (events : BitVec 32) (added : Bool)
  | event_wait (ready : List (Fd × BitVec 32))
  | timer
  | run (task : Task)
  deriving DecidableEq, Repr

def step (state : State size Task) : Action Task → Option (State size Task)
  | .new_inner_fd fd => state.new_inner_fd fd
  | .close fd => some (state.close fd)
  | .set_timeout fd timeout =>
    (state.table fd).map fun entry => state.setEntry fd (some { entry with timeout })
  | .event_poll task fd events added =>
    match state.pc task with
    | .outside _ => state.event_poll task fd events added
    | _ => none
  | .event_wait ready => if MayReport state ready then state.event_wait ready else none
  | .timer => state._timeout_task
  | .run task => state.event_poll_resumed task

/-- A descriptor is polled by one task at a time, and not closed meanwhile. -/
def Exclusive (state : State size Task) : Action Task → Prop
  | .event_poll _ fd _ _ | .close fd => ∀ other, (state.pc other).on ≠ some fd
  | _ => True

instance [Fintype Task] (state : State size Task) (action : Action Task) :
    Decidable (Exclusive state action) :=
  match action with
  | .event_poll _ _ _ _ | .close _ => inferInstanceAs (Decidable (∀ _, _))
  | .new_inner_fd _ | .set_timeout _ _ | .event_wait _ | .timer | .run _ =>
    inferInstanceAs (Decidable True)

/-! ### The invariant -/

/-- The `error` of a descriptor, by what was reported and whether it has expired since. -/
def errorOf (reported : Option (BitVec 32)) (expired : Bool) : BitVec 32 :=
  reported.elim IENONE events_to_error ||| if expired then IETIMEOUT else IENONE

/-- The call of `event_poll` that a task is inside of. -/
def Pc.call : Pc → Option (Fd × BitVec 32 × BitVec 32)
  | outside _ => none
  | polling fd events timeout | resumed fd events timeout => some (fd, events, timeout)

/-- What holds of a call from its beginning to its end. The wheel was asked for its timeout, if it
has one, and the `error` says what was reported, which may be reported, and what has expired. -/
structure Inside (state : State size Task) (task : Task) (fd : Fd) (events timeout : BitVec 32) :
    Prop where
  entry : (state.table fd).bind Entry.task = some task
  error : state.timer.error fd = errorOf (state.reported fd) (state.expired fd)
  legal : ∀ report ∈ state.reported fd, report ≠ 0 ∧
    report &&& ~~~(events ||| EPOLLERR ||| EPOLLHUP) = 0
  never : timeout.toInt < 0 → state.asked fd = none
  asked : ¬ timeout.toInt < 0 → ∃ passed, state.asked fd = some (timeout.toNat, passed)
  late : state.expired fd = true → ∃ passed, state.asked fd = some (timeout.toNat, passed) ∧
    timeout.toNat % size < passed

/-- What holds of a call that waits. Nothing has come yet, and both the kernel and, if there is a
timeout, the wheel know of it. -/
structure Waits (state : State size Task) (fd : Fd) (events : BitVec 32) : Prop where
  interest : state.interest fd = some events
  reported : state.reported fd = none
  expired : state.expired fd = false
  soon : ∀ timeout passed, state.asked fd = some (timeout, passed) → passed ≤ timeout % size

/-- What holds of a descriptor. The tasks of those that are due have yet to be resumed. -/
structure At (due : Prop) (state : State size Task) (fd : Fd) : Prop where
  alone : ∀ task other, (state.pc task).on = some fd → (state.pc other).on = some fd →
    other = task
  inside : ∀ task events timeout, (state.pc task).call = some (fd, events, timeout) →
    Inside state task fd events timeout
  waits : ¬ due → ∀ task events timeout, state.pc task = .polling fd events timeout →
    Waits state fd events
  woken : ∀ task events timeout, state.pc task = .resumed fd events timeout →
    state.reported fd ≠ none ∨ state.expired fd = true
  interest : ∀ events ∈ state.interest fd,
    ∃ task timeout, (state.pc task).call = some (fd, events, timeout)
  asked : state.asked fd ≠ none → ∃ task, (state.pc task).on = some fd

/-- The invariant of the event loop. -/
structure Inv (due : Fd → Prop) (state : State size Task) : Prop where
  placed : ∃ count contents, Placed state.timer state.asked count contents
  all : ∀ fd, At (due fd) state fd

section Steps

variable {state after : State size Task} {task : Task} {fd : Fd} {events timeout : BitVec 32}
  {due : Prop}

omit [DecidableEq Task] in
theorem Pc.on_of_call {pc : Pc} (call : pc.call = some (fd, events, timeout)) :
    pc.on = some fd := by
  cases pc <;> cases call <;> rfl

theorem Pc.call_of_on {pc : Pc} (on : pc.on = some fd) :
    ∃ events timeout, pc.call = some (fd, events, timeout) := by
  cases pc <;> cases on <;> exact ⟨_, _, rfl⟩

/-- Everything the states say of a descriptor is the same. -/
structure SameAt (state after : State size Task) (fd : Fd) : Prop where
  table : after.table fd = state.table fd
  error : after.timer.error fd = state.timer.error fd
  interest : after.interest fd = state.interest fd
  reported : after.reported fd = state.reported fd
  expired : after.expired fd = state.expired fd
  asked : after.asked fd = state.asked fd

omit [DecidableEq Task] in
theorem Inside.congr (inside : Inside state task fd events timeout)
    (same : SameAt state after fd) : Inside after task fd events timeout := by
  refine ⟨?_, ?_, ?_, ?_, ?_, ?_⟩
  · rw [same.table]
    exact inside.entry
  · rw [same.error, same.reported, same.expired]
    exact inside.error
  · rw [same.reported]
    exact inside.legal
  · rw [same.asked]
    exact inside.never
  · rw [same.asked]
    exact inside.asked
  · rw [same.expired, same.asked]
    exact inside.late

omit [DecidableEq Task] in
theorem Waits.congr (waits : Waits state fd events) (same : SameAt state after fd) :
    Waits after fd events :=
  ⟨same.interest.trans waits.interest, same.reported.trans waits.reported,
    same.expired.trans waits.expired, same.asked ▸ waits.soon⟩

omit [DecidableEq Task] in
/-- A step that is about another descriptor. -/
theorem At.congr (here : At due state fd) (same : SameAt state after fd)
    (still : ∀ task, (after.pc task).on = some fd ∨ (state.pc task).on = some fd →
      after.pc task = state.pc task) : At due after fd := by
  have back : ∀ task, (after.pc task).on = some fd → (state.pc task).on = some fd :=
    fun task on => still task (Or.inl on) ▸ on
  refine ⟨fun task other on on' => here.alone task other (back task on) (back other on'),
    fun task events timeout call => ?_, fun notDue task events timeout polls => ?_,
    fun task events timeout resumed => ?_, fun events asked => ?_, fun asked => ?_⟩
  · rw [still task (Or.inl (Pc.on_of_call call))] at call
    exact (here.inside task events timeout call).congr same
  · rw [still task (Or.inl (congrArg Pc.on polls))] at polls
    exact (here.waits notDue task events timeout polls).congr same
  · rw [still task (Or.inl (congrArg Pc.on resumed))] at resumed
    rw [same.reported, same.expired]
    exact here.woken task events timeout resumed
  · rw [same.interest] at asked
    obtain ⟨task, timeout, call⟩ := here.interest events asked
    exact ⟨task, timeout, still task (Or.inr (Pc.on_of_call call)) ▸ call⟩
  · rw [same.asked] at asked
    obtain ⟨task, on⟩ := here.asked asked
    exact ⟨task, still task (Or.inr on) ▸ on⟩

omit [DecidableEq Task] in
/-- A descriptor that nobody is inside of a call for, and that nothing is left of. -/
theorem At.nobody (nobody : ∀ task, (state.pc task).on ≠ some fd)
    (interest : state.interest fd = none) (asked : state.asked fd = none) : At due state fd where
  alone := fun task _ on => absurd on (nobody task)
  inside := fun task _ _ call => absurd (Pc.on_of_call call) (nobody task)
  waits := fun _ task _ _ polls => absurd (congrArg Pc.on polls) (nobody task)
  woken := fun task _ _ resumed => absurd (congrArg Pc.on resumed) (nobody task)
  interest := fun _ member => nomatch interest.symm.trans member
  asked := fun some => absurd asked some

omit [DecidableEq Task] in
/-- A descriptor that one task is inside of a call for. -/
theorem At.only (only : ∀ other, (state.pc other).on = some fd → other = task)
    (call : (state.pc task).call = some (fd, events, timeout))
    (inside : Inside state task fd events timeout)
    (waits : ¬ due → state.pc task = .polling fd events timeout → Waits state fd events)
    (woken : state.pc task = .resumed fd events timeout →
      state.reported fd ≠ none ∨ state.expired fd = true)
    (interest : ∀ asked ∈ state.interest fd, asked = events) : At due state fd := by
  have same : ∀ {other events' timeout'}, (state.pc other).call = some (fd, events', timeout') →
      other = task ∧ events' = events ∧ timeout' = timeout := by
    intro other events' timeout' call'
    obtain rfl := only other (Pc.on_of_call call')
    cases call.symm.trans call'
    exact ⟨rfl, rfl, rfl⟩
  refine ⟨fun first second on on' => (only second on').trans (only first on).symm,
    fun other events' timeout' call' => ?_, fun notDue other events' timeout' polls => ?_,
    fun other events' timeout' resumed => ?_, fun asked member => ?_,
    fun _ => ⟨task, Pc.on_of_call call⟩⟩
  · obtain ⟨rfl, rfl, rfl⟩ := same call'
    exact inside
  · obtain ⟨rfl, rfl, rfl⟩ := same (congrArg Pc.call polls)
    exact waits notDue polls
  · obtain ⟨rfl, rfl, rfl⟩ := same (congrArg Pc.call resumed)
    exact woken resumed
  · exact ⟨task, timeout, interest asked member ▸ call⟩

omit [DecidableEq Task] in
/-- When nobody is inside of a call for a descriptor, nothing is left of one. -/
theorem At.clean (here : At due state fd) (nobody : ∀ task, (state.pc task).on ≠ some fd) :
    state.interest fd = none ∧ state.asked fd = none := by
  constructor
  · cases interest : state.interest fd with
    | none => rfl
    | some events =>
      obtain ⟨task, _, call⟩ := here.interest events interest
      exact absurd (Pc.on_of_call call) (nobody task)
  · by_contra some
    obtain ⟨task, on⟩ := here.asked some
    exact nobody task on

/-- A task that moves is not inside of a call for another descriptor. -/
theorem still_update {pcs : Task → Pc} (pc : Pc) (before : (pcs task).on ≠ some fd)
    (behind : pc.on ≠ some fd) (other : Task)
    (on : (Function.update pcs task pc other).on = some fd ∨ (pcs other).on = some fd) :
    Function.update pcs task pc other = pcs other := by
  refine Function.update_of_ne ?_ ..
  rintro rfl
  rw [Function.update_self] at on
  exact on.elim behind before

omit [DecidableEq Task] in
theorem Inv.new_inner_fd {due : Fd → Prop} (inv : Inv due state)
    (opened : state.new_inner_fd fd = some after) : Inv due after := by
  unfold State.new_inner_fd at opened
  cases absent : state.table fd with
  | some entry => rw [absent] at opened; cases opened
  | none =>
    rw [absent] at opened
    cases opened
    have nobody : ∀ task, (state.pc task).on ≠ some fd := by
      intro task on
      obtain ⟨events, timeout, call⟩ := Pc.call_of_on on
      have entry := ((inv.all fd).inside task events timeout call).entry
      rw [absent] at entry
      cases entry
    obtain ⟨interest, asked⟩ := (inv.all fd).clean nobody
    refine ⟨?_, fun other => ?_⟩
    · obtain ⟨count, contents, placed⟩ := inv.placed
      refine ⟨count, contents, placed.rings.list_init fun slot member => ?_, placed.placed,
        placed.few⟩
      obtain ⟨_, _, some, _⟩ := (placed.placed slot fd).mp member
      cases asked.symm.trans some
    · by_cases own : other = fd
      · subst own
        exact .nobody nobody interest asked
      · exact (inv.all other).congr
          ⟨Function.update_of_ne own .., Function.update_of_ne own .., rfl, rfl, rfl, rfl⟩
          fun _ _ => rfl

theorem demand_delete_self (demands : Demands Fd) : demand demands (.delete fd) fd = none :=
  Function.update_self ..

theorem demand_delete_of_ne {other : Fd} (different : other ≠ fd) (demands : Demands Fd) :
    demand demands (.delete fd) other = demands other :=
  Function.update_of_ne different ..

omit [DecidableEq Task] in
theorem Inv.close {due : Fd → Prop} (inv : Inv due state)
    (nobody : ∀ task, (state.pc task).on ≠ some fd) : Inv due (state.close fd) := by
  obtain ⟨-, asked⟩ := (inv.all fd).clean nobody
  unfold State.close
  split
  · refine ⟨inv.placed, fun other => ?_⟩
    by_cases own : other = fd
    · subst own
      exact .nobody nobody (Function.update_self ..) asked
    · exact (inv.all other).congr ⟨rfl, rfl, Function.update_of_ne own .., rfl, rfl, rfl⟩
        fun _ _ => rfl
  · refine ⟨?_, fun other => ?_⟩
    · obtain ⟨count, contents, placed⟩ := inv.placed
      exact ⟨count, _, placed.delete fd⟩
    · by_cases own : other = fd
      · subst own
        exact .nobody nobody (Function.update_self ..) (demand_delete_self _)
      · exact (inv.all other).congr ⟨Function.update_of_ne own .., rfl,
          Function.update_of_ne own .., rfl, rfl, demand_delete_of_ne own _⟩ fun _ _ => rfl

omit [DecidableEq Task] in
theorem Inv.set_timeout {due : Fd → Prop} (inv : Inv due state) {entry : Entry Task}
    (found : state.table fd = some entry) (timeout : BitVec 64) :
    Inv due (state.setEntry fd (some { entry with timeout })) := by
  refine ⟨inv.placed, fun other => ?_⟩
  by_cases own : other = fd
  · subst own
    have here := inv.all other
    have task : ((state.setEntry other (some { entry with timeout })).table other).bind Entry.task =
        (state.table other).bind Entry.task := by
      have own : (state.setEntry other (some { entry with timeout })).table other =
          some { entry with timeout } := Function.update_self ..
      rw [found, own]
      rfl
    refine ⟨here.alone, fun task' events timeout' call => ?_,
      fun notDue task' events timeout' polls => ?_, here.woken, here.interest, here.asked⟩
    · have inside := here.inside task' events timeout' call
      exact ⟨task.trans inside.entry, inside.error, inside.legal, inside.never, inside.asked,
        inside.late⟩
    · have waits := here.waits notDue task' events timeout' polls
      exact ⟨waits.interest, waits.reported, waits.expired, waits.soon⟩
  · exact (inv.all other).congr ⟨Function.update_of_ne own .., rfl, rfl, rfl, rfl, rfl⟩
      fun _ _ => rfl

theorem demand_update_of_ne {other : Fd} (different : other ≠ fd) (demands : Demands Fd) :
    demand demands (.update fd timeout) other = demands other := by
  rw [demand]
  split
  · rfl
  · exact Function.update_of_ne different ..

theorem demand_update_self (demands : Demands Fd) (never : demands fd = none)
    (timeout : BitVec 32) :
    demand demands (.update fd timeout) fd =
      if timeout.toInt < 0 then none else some (timeout.toNat, 0) := by
  rw [demand]
  split
  · exact never
  · exact Function.update_self ..

theorem placed_update {timer : Timer size Fd} {demands : Demands Fd}
    (placed : ∃ count contents, Placed timer demands count contents) (timeout : BitVec 32) :
    ∃ count contents, Placed
      { timer with wheel := Wheel.wheel_update_element timer.wheel fd timeout }
      (demand demands (.update fd timeout)) count contents := by
  obtain ⟨count, contents, placed⟩ := placed
  by_cases negative : timeout.toInt < 0
  · rw [Wheel.wheel_update_element, if_pos negative, demand, if_pos negative]
    exact ⟨count, contents, placed⟩
  · exact ⟨_, _, placed.update fd negative⟩

omit [DecidableEq Task] in
theorem placed_error {timer : Timer size Fd} {demands : Demands Fd} {error : Fd → BitVec 32}
    (placed : ∃ count contents, Placed timer demands count contents) :
    ∃ count contents, Placed { timer with error } demands count contents := by
  obtain ⟨count, contents, placed⟩ := placed
  exact ⟨count, contents, placed.rings, placed.placed, placed.few⟩

/-- A task begins to wait for a descriptor that nobody waits for. -/
theorem Inv.event_poll {due : Fd → Prop} (inv : Inv due state) {added : Bool}
    (nobody : ∀ task, (state.pc task).on ≠ some fd) (outside : (state.pc task).on = none)
    (polled : state.event_poll task fd events added = some after) : Inv due after := by
  obtain ⟨interest, asked⟩ := (inv.all fd).clean nobody
  unfold State.event_poll at polled
  cases found : state.table fd with
  | none => rw [found] at polled; cases polled
  | some entry =>
    rw [found] at polled
    have away : ∀ other, (state.pc task).on ≠ some other := by
      rw [outside]
      exact fun _ impossible => nomatch impossible
    cases added with
    | false =>
      cases polled
      refine ⟨placed_error inv.placed, fun other => ?_⟩
      have leaves : (Pc.outside (some .refused)).on ≠ some other := fun impossible =>
        nomatch impossible
      have still := still_update _ (away other) leaves
      by_cases own : other = fd
      · subst own
        refine .nobody (fun task' on => ?_) (Function.update_self ..) asked
        exact nobody task' (still task' (Or.inl on) ▸ on)
      · exact (inv.all other).congr ⟨Function.update_of_ne own .., Function.update_of_ne own ..,
          Function.update_of_ne own .., rfl, rfl, rfl⟩ still
    | true =>
      cases polled
      refine ⟨placed_update (placed_error inv.placed) _, fun other => ?_⟩
      by_cases own : other = fd
      · subst own
        have moved : Function.update state.pc task
            (.polling other events (entry.timeout.setWidth 32)) task =
            .polling other events (entry.timeout.setWidth 32) := Function.update_self ..
        have demanded := demand_update_self _ asked (entry.timeout.setWidth 32)
        refine .only (fun first on => ?_) (congrArg Pc.call moved :
            _ = some (_, events, entry.timeout.setWidth 32))
          ⟨?_, ?_, ?_, ?_, ?_, ?_⟩ (fun _ _ => ?_)
          (fun resumed => nomatch moved.symm.trans resumed) ?_
        · by_contra different
          refine nobody first (Eq.trans (congrArg Pc.on ?_) on)
          exact (Function.update_of_ne different ..).symm
        · show (Function.update state.table other (some { entry with task := some task })
            other).bind Entry.task = some task
          rw [Function.update_self]
          rfl
        · show Function.update state.timer.error other IENONE other =
            errorOf (Function.update state.reported other none other)
              (Function.update state.expired other false other)
          rw [Function.update_self, Function.update_self, Function.update_self]
          rfl
        · intro report member
          have none : Function.update state.reported other none other = none :=
            Function.update_self ..
          cases none.symm.trans member
        · exact fun negative => demanded.trans (if_pos negative)
        · exact fun some => ⟨0, demanded.trans (if_neg some)⟩
        · intro late
          have not : Function.update state.expired other false other = false :=
            Function.update_self ..
          cases not.symm.trans late
        · refine ⟨Function.update_self .., Function.update_self .., Function.update_self .., ?_⟩
          intro timeout passed some
          have zero := demanded.symm.trans some
          split at zero
          · cases zero
          · cases zero
            exact Nat.zero_le _
        · intro asked member
          have own : Function.update state.interest other (some events) other = some events :=
            Function.update_self ..
          exact (Option.some.inj (own.symm.trans member)).symm
      · have different : (some fd : Option Fd) ≠ some other :=
          fun same => own (Option.some.inj same).symm
        exact (inv.all other).congr ⟨Function.update_of_ne own .., Function.update_of_ne own ..,
          Function.update_of_ne own .., Function.update_of_ne own ..,
          Function.update_of_ne own .., demand_update_of_ne own _⟩
          (still_update _ (away other) different)

omit [DecidableEq Task] in
theorem At.mono {due' : Prop} (here : At due state fd) (imp : due → due') : At due' state fd :=
  ⟨here.alone, here.inside, fun not => here.waits fun yes => not (imp yes), here.woken,
    here.interest, here.asked⟩

/-- A task inside of a call is resumed. Its descriptor has been found. -/
theorem Inv.co_resume {due : Fd → Prop} (inv : Inv due state)
    (call : (state.pc task).call = some (fd, events, timeout))
    (woken : state.reported fd ≠ none ∨ state.expired fd = true) :
    state.co_resume task = some (state.goto task (.resumed fd events timeout)) ∧
      Inv (fun other => due other ∧ other ≠ fd) (state.goto task (.resumed fd events timeout)) := by
  have here := inv.all fd
  have on := Pc.on_of_call call
  constructor
  · unfold State.co_resume
    cases pc : state.pc task <;> rw [pc] at call <;> cases call <;> rfl
  · have moved : Function.update state.pc task (.resumed fd events timeout) task =
        .resumed fd events timeout := Function.update_self ..
    refine ⟨inv.placed, fun other => ?_⟩
    by_cases own : other = fd
    · subst own
      have inside := here.inside task events timeout call
      refine .only (fun first on' => ?_) (congrArg Pc.call moved)
        ⟨inside.entry, inside.error, inside.legal, inside.never, inside.asked, inside.late⟩
        (fun _ polls => nomatch moved.symm.trans polls) (fun _ => woken) fun asked member => ?_
      · by_contra different
        refine different (here.alone task first on (Eq.trans (congrArg Pc.on ?_) on'))
        exact (Function.update_of_ne different ..).symm
      · obtain ⟨first, _, call'⟩ := here.interest asked member
        obtain rfl := here.alone task first on (Pc.on_of_call call')
        cases call.symm.trans call'
        rfl
    · have apart : (state.pc task).on ≠ some other := by
        rw [on]
        exact fun same => own (Option.some.inj same).symm
      have behind : (Pc.resumed fd events timeout).on ≠ some other :=
        fun same => own (Option.some.inj same).symm
      have kept : At (due other) (state.goto task (.resumed fd events timeout)) other :=
        (inv.all other).congr ⟨rfl, rfl, rfl, rfl, rfl, rfl⟩ (still_update _ apart behind)
      exact kept.mono fun due => ⟨due, own⟩

omit [DecidableEq Task] in
/-- A report is taken down. The task has yet to be resumed. -/
theorem Inv.takeDown (inv : Inv (fun _ => False) state) {asked : BitVec 32}
    (listed : state.interest fd = some asked) (report : events ≠ 0)
    (legal : events &&& ~~~(asked ||| EPOLLERR ||| EPOLLHUP) = 0) :
    Inv (· = fd) (state.takeDown fd events) := by
  refine ⟨placed_error inv.placed, fun other => ?_⟩
  by_cases own : other = fd
  · subst own
    have here := inv.all other
    obtain ⟨task, timeout, call⟩ := here.interest asked listed
    have inside := here.inside task asked timeout call
    have reported : Function.update state.reported other (some events) other = some events :=
      Function.update_self ..
    have expired : Function.update state.expired other false other = false :=
      Function.update_self ..
    refine .only (fun first on => here.alone task first (Pc.on_of_call call) on)
      call ⟨inside.entry, ?_, ?_, inside.never, inside.asked, ?_⟩ (fun not => absurd rfl not)
      (fun _ => Or.inl fun none => nomatch reported.symm.trans none) ?_
    · show Function.update state.timer.error other (events_to_error events) other = errorOf
        (Function.update state.reported other (some events) other)
        (Function.update state.expired other false other)
      rw [Function.update_self, reported, expired]
      exact (BitVec.or_zero ..).symm
    · intro report' member
      cases reported.symm.trans member
      exact ⟨report, legal⟩
    · exact fun late => nomatch expired.symm.trans late
    · intro asked' member
      have none : Function.update state.interest other none other = none :=
        Function.update_self ..
      cases none.symm.trans member
  · refine At.mono (At.congr (inv.all other) ⟨rfl, Function.update_of_ne own ..,
      Function.update_of_ne own .., Function.update_of_ne own .., Function.update_of_ne own ..,
      rfl⟩ fun _ _ => rfl) False.elim

/-- A report resumes the task that waits for it. -/
theorem Inv.event_wait_cons (inv : Inv (fun _ => False) state) {asked : BitVec 32}
    (listed : state.interest fd = some asked) (report : events ≠ 0)
    (legal : events &&& ~~~(asked ||| EPOLLERR ||| EPOLLHUP) = 0) :
    ∃ task timeout, (state.pc task).call = some (fd, asked, timeout) ∧
      Inv (fun _ => False) ((state.takeDown fd events).goto task (.resumed fd asked timeout)) ∧
      ∀ rest, state.event_wait ((fd, events) :: rest) =
        ((state.takeDown fd events).goto task (.resumed fd asked timeout)).event_wait rest := by
  obtain ⟨task, timeout, call⟩ := (inv.all fd).interest asked listed
  have entry := ((inv.all fd).inside task asked timeout call).entry
  have woken : (state.takeDown fd events).reported fd ≠ none := by
    show Function.update state.reported fd (some events) fd ≠ none
    rw [Function.update_self]
    exact Option.some_ne_none _
  obtain ⟨resumes, resumed⟩ := (inv.takeDown listed report legal).co_resume call (Or.inl woken)
  refine ⟨task, timeout, call, ⟨resumed.placed, fun other =>
    (resumed.all other).mono fun both => both.2 both.1⟩, fun rest => ?_⟩
  obtain ⟨ifd, found, own⟩ := Option.bind_eq_some_iff.mp entry
  rw [State.event_wait]
  simp only [found, own, resumes, Option.bind_some]

/-- A task inside of a call is resumed. -/
def Resumes (before behind : Pc) : Prop :=
  ∃ fd events timeout, before.call = some (fd, events, timeout) ∧
    behind = .resumed fd events timeout

/-- The tasks of these descriptors are resumed, each descriptor has one, and no other task is. -/
structure Wakes (before behind : Task → Pc) (fds : List Fd) : Prop where
  resumed : ∀ fd ∈ fds, ∀ task, (before task).on = some fd →
    Resumes (before task) (behind task)
  found : ∀ fd ∈ fds, ∃ task, (before task).on = some fd
  kept : ∀ task, (∀ fd ∈ fds, (before task).on ≠ some fd) → behind task = before task

theorem Wakes.cons {before behind : Task → Pc} {fds : List Fd}
    (call : (before task).call = some (fd, events, timeout))
    (alone : ∀ other, (before other).on = some fd → other = task)
    (wakes : Wakes (Function.update before task (.resumed fd events timeout)) behind fds) :
    Wakes before behind (fd :: fds) := by
  have on : (before task).on = some fd := Pc.on_of_call call
  have moved : Function.update before task (.resumed fd events timeout) task =
      .resumed fd events timeout := Function.update_self ..
  have still : ∀ other, other ≠ task →
      Function.update before task (.resumed fd events timeout) other = before other :=
    fun _ different => Function.update_of_ne different ..
  have places : ∀ other, (Function.update before task (.resumed fd events timeout) other).on =
      (before other).on := by
    intro other
    by_cases same : other = task
    · rw [same, moved, on]
      rfl
    · rw [still other same]
  have own : Resumes (before task) (behind task) := by
    refine ⟨fd, events, timeout, call, ?_⟩
    by_cases again : fd ∈ fds
    · obtain ⟨_, _, _, again, resumed⟩ := wakes.resumed fd again task ((places task).trans on)
      cases (congrArg Pc.call moved).symm.trans again
      exact resumed
    · refine (wakes.kept task fun fd' member on' => again ?_).trans moved
      cases on.symm.trans ((places task).symm.trans on')
      exact member
  refine ⟨fun fd' member other on' => ?_, fun fd' member => ?_, fun other none => ?_⟩
  · by_cases same : other = task
    · exact same ▸ own
    · have rest : fd' ∈ fds := (List.mem_cons.mp member).resolve_left fun first =>
        same (alone other (first ▸ on'))
      rw [← still other same]
      exact wakes.resumed fd' rest other ((places other).trans on')
  · rcases List.mem_cons.mp member with rfl | rest
    · exact ⟨task, on⟩
    · obtain ⟨other, on'⟩ := wakes.found fd' rest
      exact ⟨other, (places other).symm.trans on'⟩
  · have different : other ≠ task := by
      rintro rfl
      exact none fd List.mem_cons_self on
    rw [← still other different]
    refine wakes.kept other fun fd' member on' => ?_
    exact none fd' (List.mem_cons_of_mem _ member) ((places other).symm.trans on')

omit [DecidableEq Task] in
theorem Wakes.nil (pcs : Task → Pc) : Wakes pcs pcs [] :=
  ⟨fun _ member => absurd member List.not_mem_nil, fun _ member => absurd member List.not_mem_nil,
    fun _ _ => rfl⟩

omit [DecidableEq Task] in
/-- A task that is resumed was on one of the descriptors, and any other is as it was. -/
theorem Wakes.resumes_or_same {before behind : Task → Pc} {fds : List Fd}
    (wakes : Wakes before behind fds) (task : Task) :
    Resumes (before task) (behind task) ∨ behind task = before task := by
  by_cases on : ∃ fd ∈ fds, (before task).on = some fd
  · obtain ⟨fd, member, on⟩ := on
    exact Or.inl (wakes.resumed fd member task on)
  · exact Or.inr (wakes.kept task fun fd member here => on ⟨fd, member, here⟩)

/-- What the kernel may report is taken down, and the tasks it is about are resumed. -/
theorem Inv.event_wait {ready : List (Fd × BitVec 32)} (inv : Inv (fun _ => False) state)
    (legal : MayReport state ready) :
    ∃ after, state.event_wait ready = some after ∧ Inv (fun _ => False) after ∧
      after.asked = state.asked ∧ Wakes state.pc after.pc (ready.map Prod.fst) := by
  induction ready generalizing state with
  | nil => exact ⟨state, rfl, inv, rfl, .nil state.pc⟩
  | cons report rest inductionHypothesis =>
    obtain ⟨fd, events⟩ := report
    obtain ⟨nodup, each⟩ := legal
    obtain ⟨notRest, nodup⟩ := List.nodup_cons.mp nodup
    obtain ⟨some, asked, listed, allowed⟩ := each (fd, events) List.mem_cons_self
    obtain ⟨task, timeout, call, clear, waits⟩ := inv.event_wait_cons listed some allowed
    have later : MayReport ((state.takeDown fd events).goto task (.resumed fd asked timeout))
        rest := by
      refine ⟨nodup, fun report member => ?_⟩
      obtain ⟨some, asked, listed, allowed⟩ := each report (List.mem_cons_of_mem _ member)
      have apart : report.1 ≠ fd :=
        fun same => notRest (List.mem_map.mpr ⟨report, member, same⟩)
      exact ⟨some, asked, (Function.update_of_ne apart ..).trans listed, allowed⟩
    obtain ⟨after, waited, inv', asked', wakes⟩ := inductionHypothesis clear later
    exact ⟨after, (waits rest).trans waited, inv', asked', wakes.cons call fun other on =>
      (inv.all fd).alone task other (Pc.on_of_call call) on⟩

omit [DecidableEq Task] in
theorem errorOf_expired (reported : Option (BitVec 32)) (expired : Bool) :
    errorOf reported expired ||| IETIMEOUT = errorOf reported true := by
  unfold errorOf
  rw [BitVec.or_assoc]
  cases expired <;> rfl

omit [DecidableEq Task] in
/-- Every slot is short, as its descriptors are different. -/
theorem placed_short {timer : Timer size Fd} {demands : Demands Fd}
    (placed : ∃ count contents, Placed timer demands count contents) :
    ∃ contents, Placed timer demands 102400 contents := by
  obtain ⟨_, contents, placed⟩ := placed
  refine ⟨contents, placed.rings, placed.placed, fun slot => ?_⟩
  exact (List.Nodup.length_le_card (placed.rings.nodup slot)).trans_eq (Fintype.card_fin _)

omit [DecidableEq Task] in
/-- A turn of the wheel fires the descriptors whose time has come, and marks them. -/
theorem Inv.turns (inv : Inv (fun _ => False) state) :
    ∃ timer fired, Wheel.timeoutTask (102400 + 1) state.timer = some (timer, fired) ∧
      (∀ fd, fd ∈ fired ↔ ∃ timeout, state.asked fd = some (timeout, timeout % size)) ∧
      Inv (· ∈ fired) { state with
        timer
        asked := demand state.asked .rotate
        expired := fun fd => decide (fd ∈ fired) || state.expired fd } := by
  obtain ⟨contents, placed⟩ := placed_short inv.placed
  obtain ⟨timer, fired, turned, nodup, due, kept⟩ := placed.rotate (Nat.lt_succ_self 102400)
  obtain ⟨timer', turned', _, _, errors⟩ := Wheel.timeoutTask_eq placed.rings
    (Nat.lt_succ_of_le (placed.few (Wheel.wheel_rotate state.timer.wheel).loc))
  cases turned.symm.trans turned'
  refine ⟨_, _, turned, due, ⟨_, _, kept⟩, fun fd => ?_⟩
  have here := inv.all fd
  have asked : ∀ {timeout passed}, state.asked fd = some (timeout, passed) →
      demand state.asked .rotate fd = some (timeout, passed + 1) :=
    fun some => congrArg (Option.map _) some
  refine ⟨here.alone, fun task events timeout call => ?_,
    fun notDue task events timeout polls => ?_, fun task events timeout resumed => ?_,
    here.interest, fun some => here.asked fun none => ?_⟩
  · have inside := here.inside task events timeout call
    refine ⟨inside.entry, ?_, inside.legal, fun negative => ?_, fun positive => ?_, fun late => ?_⟩
    · rw [errors fd]
      show _ = errorOf (state.reported fd) (decide _ || state.expired fd)
      by_cases fires : fd ∈ contents (Wheel.wheel_rotate state.timer.wheel).loc
      · rw [if_pos fires, decide_eq_true fires, Bool.true_or, inside.error, errorOf_expired]
      · rw [if_neg fires, decide_eq_false fires, Bool.false_or, inside.error]
    · exact congrArg (Option.map _) (inside.never negative)
    · obtain ⟨passed, some⟩ := inside.asked positive
      exact ⟨passed + 1, asked some⟩
    · rcases (Bool.or_eq_true ..).mp late with fires | late
      · obtain ⟨whole, some⟩ := (due fd).mp (of_decide_eq_true fires)
        have positive : ¬ timeout.toInt < 0 :=
          fun negative => nomatch (inside.never negative).symm.trans some
        obtain ⟨passed, same⟩ := inside.asked positive
        cases some.symm.trans same
        exact ⟨_, asked some, Nat.lt_succ_self _⟩
      · obtain ⟨passed, some, less⟩ := inside.late late
        exact ⟨passed + 1, asked some, Nat.lt_succ_of_lt less⟩
  · have waits := here.waits (fun not => not) task events timeout polls
    refine ⟨waits.interest, waits.reported, ?_, fun timeout passed some => ?_⟩
    · show (decide _ || state.expired fd) = false
      rw [decide_eq_false notDue, waits.expired]
      rfl
    · obtain ⟨⟨timeout', passed'⟩, before, same⟩ := Option.map_eq_some_iff.mp some
      cases same
      have soon := waits.soon timeout passed' before
      have more : passed' ≠ timeout % size := by
        rintro rfl
        exact notDue ((due fd).mpr ⟨timeout, before⟩)
      exact Nat.lt_of_le_of_ne soon more
  · exact (here.woken task events timeout resumed).imp_right fun expired => by
      show (decide _ || state.expired fd) = true
      rw [expired, Bool.or_true]
  · exact some (congrArg (Option.map _) none)

/-- The tasks of the descriptors that have expired are resumed. -/
theorem Inv.resumeFired {fired : List Fd} (inv : Inv (· ∈ fired) state)
    (expired : ∀ fd ∈ fired, state.expired fd = true ∧ ∃ task, (state.pc task).on = some fd) :
    ∃ after, state.resumeFired fired = some after ∧ Inv (fun _ => False) after ∧
      after.asked = state.asked ∧ Wakes state.pc after.pc fired := by
  induction fired generalizing state with
  | nil =>
    exact ⟨state, rfl, ⟨inv.placed, fun fd => (inv.all fd).mono (nomatch ·)⟩, rfl, .nil state.pc⟩
  | cons fd rest inductionHypothesis =>
    obtain ⟨late, task, on⟩ := expired fd List.mem_cons_self
    obtain ⟨events, timeout, call⟩ := Pc.call_of_on on
    have entry := ((inv.all fd).inside task events timeout call).entry
    obtain ⟨resumes, resumed⟩ := inv.co_resume call (Or.inr late)
    have fewer : Inv (· ∈ rest) (state.goto task (.resumed fd events timeout)) :=
      ⟨resumed.placed, fun other =>
        (resumed.all other).mono fun both => (List.mem_cons.mp both.1).resolve_left both.2⟩
    have later : ∀ fd' ∈ rest, state.expired fd' = true ∧
        ∃ other, ((state.goto task (.resumed fd events timeout)).pc other).on = some fd' := by
      intro fd' member
      obtain ⟨late, other, on'⟩ := expired fd' (List.mem_cons_of_mem _ member)
      refine ⟨late, other, ?_⟩
      show (Function.update state.pc task (.resumed fd events timeout) other).on = some fd'
      have same : (Pc.resumed fd events timeout).on = (state.pc task).on := on.symm
      rw [read_update Pc.on same]
      exact on'
    obtain ⟨after, ran, inv', asked, wakes⟩ := inductionHypothesis fewer later
    refine ⟨after, ?_, inv', asked, wakes.cons call fun other on' =>
      (inv.all fd).alone task other on on'⟩
    rw [State.resumeFired, entry]
    simp only [resumes, Option.bind_some]
    exact ran

/-- A turn of the timer task resumes the tasks whose time has come. -/
theorem Inv.timeout_task (inv : Inv (fun _ => False) state) :
    ∃ after fired, state._timeout_task = some after ∧ Inv (fun _ => False) after ∧
      after.asked = demand state.asked .rotate ∧ Wakes state.pc after.pc fired ∧
      ∀ fd, fd ∈ fired ↔ ∃ timeout, state.asked fd = some (timeout, timeout % size) := by
  obtain ⟨timer, fired, turned, due, inv'⟩ := inv.turns
  obtain ⟨after, ran, inv'', asked, wakes⟩ := inv'.resumeFired fun fd member => by
    obtain ⟨timeout, some⟩ := (due fd).mp member
    have expired : (decide (fd ∈ fired) || state.expired fd) = true := by
      rw [decide_eq_true member, Bool.true_or]
    exact ⟨expired, (inv.all fd).asked (some ▸ Option.some_ne_none _)⟩
  refine ⟨after, fired, ?_, inv'', asked, wakes, due⟩
  rw [State._timeout_task, turned]
  exact ran

/-- A call returns. Nothing is left of it. -/
theorem Inv.event_poll_resumed (inv : Inv (fun _ => False) state)
    (here : state.pc task = .resumed fd events timeout) :
    ∃ after, state.event_poll_resumed task = some after ∧ Inv (fun _ => False) after ∧
      after.pc = Function.update state.pc task
        (.outside (some (resultOf (errorOf (state.reported fd) (state.expired fd))))) ∧
      after.asked = demand state.asked (.delete fd) := by
  have inside := (inv.all fd).inside task events timeout (congrArg Pc.call here)
  refine ⟨_, by rw [State.event_poll_resumed, here], ⟨?_, fun other => ?_⟩, ?_, rfl⟩
  · obtain ⟨count, contents, placed⟩ := inv.placed
    exact ⟨count, _, placed.delete fd⟩
  · by_cases own : other = fd
    · subst own
      refine .nobody (fun first => ?_) (Function.update_self ..) (demand_delete_self _)
      show (Function.update state.pc task _ first).on ≠ some other
      by_cases same : first = task
      · rw [same, Function.update_self]
        exact fun impossible => nomatch impossible
      · rw [Function.update_of_ne same]
        exact fun on => same ((inv.all other).alone task first (congrArg Pc.on here) on)
    · have before : (state.pc task).on ≠ some other := by
        rw [here]
        exact fun same => own (Option.some.inj same).symm
      exact (inv.all other).congr ⟨rfl, rfl, Function.update_of_ne own .., rfl, rfl,
        demand_delete_of_ne own _⟩ (still_update _ before fun impossible => nomatch impossible)
  · rw [← inside.error]
    rfl

/-- Only a task that is outside calls `event_poll`. -/
theorem event_poll_of_step {added : Bool}
    (stepped : step state (.event_poll task fd events added) = some after) :
    (state.pc task).on = none ∧ state.event_poll task fd events added = some after := by
  unfold step at stepped
  cases here : state.pc task with
  | outside last =>
    simp only [here] at stepped
    exact ⟨rfl, stepped⟩
  | _ =>
    simp only [here] at stepped
    cases stepped

theorem Inv.step {action : Action Task} (inv : Inv (fun _ => False) state)
    (exclusive : Exclusive state action) (stepped : step state action = some after) :
    Inv (fun _ => False) after := by
  cases action with
  | new_inner_fd fd => exact inv.new_inner_fd stepped
  | close fd =>
    cases stepped
    exact inv.close exclusive
  | set_timeout fd timeout =>
    obtain ⟨entry, found, rfl⟩ := Option.map_eq_some_iff.mp stepped
    exact inv.set_timeout found timeout
  | event_poll task fd events added =>
    obtain ⟨outside, polled⟩ := event_poll_of_step stepped
    exact inv.event_poll exclusive outside polled
  | event_wait ready =>
    obtain ⟨legal, stepped⟩ := Option.ite_none_right_eq_some.mp stepped
    obtain ⟨after', waited, inv', -⟩ := inv.event_wait legal
    cases stepped.symm.trans waited
    exact inv'
  | timer =>
    obtain ⟨after', _, ran, inv', -⟩ := inv.timeout_task
    cases stepped.symm.trans ran
    exact inv'
  | run task =>
    cases here : state.pc task with
    | resumed fd events timeout =>
      obtain ⟨after', ran, inv', -⟩ := inv.event_poll_resumed here
      cases stepped.symm.trans ran
      exact inv'
    | _ =>
      have ran : state.event_poll_resumed task = some after := stepped
      rw [State.event_poll_resumed, here] at ran
      cases ran

/-- A turn of the timer task. -/
def turnsOf : Action Task → Nat
  | .timer => 1
  | _ => 0

/-- What a step does to a task that waits: it is resumed, or waits on, and the wheel has counted the
turn if it was one. -/
theorem Inv.stays {action : Action Task} {whole passed : Nat} (inv : Inv (fun _ => False) state)
    (here : state.pc task = .polling fd events timeout)
    (asked : state.asked fd = some (whole, passed)) (exclusive : Exclusive state action)
    (stepped : EventLoop.step state action = some after) :
    after.pc task = .resumed fd events timeout ∨
      after.pc task = .polling fd events timeout ∧
        after.asked fd = some (whole, passed + turnsOf action) := by
  have on : (state.pc task).on = some fd := congrArg Pc.on here
  have woke : ∀ {fds}, Wakes state.pc after.pc fds →
      after.pc task = .resumed fd events timeout ∨ after.pc task = .polling fd events timeout := by
    intro fds wakes
    rcases wakes.resumes_or_same task with ⟨_, _, _, call, resumed⟩ | same
    · cases (congrArg Pc.call here).symm.trans call
      exact Or.inl resumed
    · exact Or.inr (same.trans here)
  cases action with
  | new_inner_fd other =>
    have opened : state.new_inner_fd other = some after := stepped
    unfold State.new_inner_fd at opened
    split at opened
    · cases opened
    · cases opened
      exact Or.inr ⟨here, asked⟩
  | close other =>
    cases stepped
    have different : fd ≠ other := fun same => exclusive task (same ▸ on)
    unfold State.close
    split
    · exact Or.inr ⟨here, asked⟩
    · exact Or.inr ⟨here, (demand_delete_of_ne different _).trans asked⟩
  | set_timeout other timeout =>
    obtain ⟨entry, found, rfl⟩ := Option.map_eq_some_iff.mp stepped
    exact Or.inr ⟨here, asked⟩
  | event_poll self other events' added =>
    obtain ⟨outside, polled⟩ := event_poll_of_step stepped
    have apart : task ≠ self := by
      rintro rfl
      cases outside.symm.trans on
    have different : fd ≠ other := fun same => exclusive task (same ▸ on)
    have still : ∀ {pc : Pc}, Function.update state.pc self pc task = .polling fd events timeout :=
      (Function.update_of_ne apart ..).trans here
    unfold State.event_poll at polled
    split at polled
    · cases polled
    · cases added with
      | false =>
        cases polled
        exact Or.inr ⟨still, asked⟩
      | true =>
        cases polled
        exact Or.inr ⟨still, (demand_update_of_ne different _).trans asked⟩
  | event_wait ready =>
    obtain ⟨legal, stepped⟩ := Option.ite_none_right_eq_some.mp stepped
    obtain ⟨after', waited, -, same, wakes⟩ := inv.event_wait legal
    cases stepped.symm.trans waited
    exact (woke wakes).imp_right fun polls => ⟨polls, (congrFun same fd).trans asked⟩
  | timer =>
    obtain ⟨after', fired, ran, -, same, wakes, due⟩ := inv.timeout_task
    cases stepped.symm.trans ran
    refine (woke wakes).imp_right fun polls => ⟨polls, ?_⟩
    exact (congrFun same fd).trans (congrArg (Option.map _) asked)
  | run other =>
    cases there : state.pc other with
    | resumed fd' events' timeout' =>
      obtain ⟨after', ran, -, pcs, same⟩ := inv.event_poll_resumed there
      cases stepped.symm.trans ran
      have apart : task ≠ other := by
        rintro rfl
        cases here.symm.trans there
      have different : fd ≠ fd' := by
        rintro rfl
        exact apart ((inv.all fd).alone other task (congrArg Pc.on there) on)
      refine Or.inr ⟨?_, ?_⟩
      · exact (congrFun pcs task).trans ((Function.update_of_ne apart ..).trans here)
      · exact (congrFun same fd).trans ((demand_delete_of_ne different _).trans asked)
    | _ =>
      have ran : state.event_poll_resumed other = some after := stepped
      rw [State.event_poll_resumed, there] at ran
      cases ran

/-- A turn of the wheel does not leave a task waiting whose time has come. -/
theorem Inv.stays_soon {action : Action Task} {whole passed : Nat}
    (inv : Inv (fun _ => False) state) (exclusive : Exclusive state action)
    (stepped : EventLoop.step state action = some after)
    (polls : after.pc task = .polling fd events timeout)
    (asked : after.asked fd = some (whole, passed)) : passed ≤ whole % size :=
  (((inv.step exclusive stepped).all fd).waits (fun not => not) task events timeout polls).soon
    whole passed asked

end Steps

/-! ### What a waiting task may rely on -/

section Results

variable {slots : Nat} {wheel : Wheel.TimeWheel (Wheel.wheelSize slots) Fd}
  {state : State (Wheel.wheelSize slots) Task}

omit [DecidableEq Task] in
theorem inv_new_epoll (made : Wheel.new_time_wheel slots = some wheel) :
    Inv (fun _ => False) (new_epoll wheel : State (Wheel.wheelSize slots) Task) where
  placed := ⟨_, _, Wheel.placed_new wheel _ made⟩
  all := fun _ => .nobody (fun _ impossible => nomatch impossible) rfl rfl

theorem inv_of_exclusive (made : Wheel.new_time_wheel slots = some wheel)
    (reached : ReachableBy step Exclusive (new_epoll wheel) state) :
    Inv (fun _ => False) state :=
  ReachableBy.invariant (Inv fun _ => False) (inv_new_epoll made)
    (fun _ _ _ inv exclusive stepped => inv.step exclusive stepped) reached

omit [DecidableEq Task] in
/-- A descriptor is linked into the wheel as long as the wheel has yet to reach it. -/
theorem Inv.linked_iff {due : Fd → Prop} (inv : Inv due state) (fd : Fd) :
    state.timer.wheel.links.list_empty (.elem fd) = false ↔
      ∃ timeout passed, state.asked fd = some (timeout, passed) ∧
        passed ≤ timeout % Wheel.wheelSize slots := by
  obtain ⟨count, contents, placed⟩ := inv.placed
  constructor
  · intro linked
    by_cases absent : ∀ slot, fd ∉ contents slot
    · have alone := Links.list_empty_iff.mpr (placed.rings.alone fd absent)
      cases linked.symm.trans alone
    · simp only [not_forall, not_not] at absent
      obtain ⟨slot, member⟩ := absent
      obtain ⟨timeout, passed, asked, soon, _⟩ := (placed.placed slot fd).mp member
      exact ⟨timeout, passed, asked, soon⟩
  · rintro ⟨timeout, passed, asked, soon⟩
    have positive := Wheel.wheelSize_pos slots
    exact placed.rings.list_empty_elem ((placed.placed
      ⟨(state.timer.wheel.loc + (timeout % Wheel.wheelSize slots - passed) + 1) %
        Wheel.wheelSize slots, Nat.mod_lt _ positive⟩ fd).mpr ⟨timeout, passed, asked, soon, rfl⟩)

/-- Whoever waits will be found: the descriptor is in the interest list, and on the wheel if the
call has a timeout, and names the task. Whatever is in the interest list or on the wheel belongs
to a call that has not returned. What the kernel may report, and a turn of the wheel, resumes
the tasks whose descriptors it is about and never a task that is not inside of such a call, and
never meets a descriptor without an `inner_fd` or an `inner_fd` without a task. -/
theorem registered (made : Wheel.new_time_wheel slots = some wheel)
    (reached : ReachableBy step Exclusive (new_epoll wheel) state) :
    (∀ task fd events timeout, state.pc task = .polling fd events timeout →
      (state.table fd).bind Entry.task = some task ∧ state.interest fd = some events ∧
        (0 ≤ timeout.toInt → state.timer.wheel.links.list_empty (.elem fd) = false)) ∧
    (∀ fd, state.interest fd ≠ none ∨ state.timer.wheel.links.list_empty (.elem fd) = false →
      ∃ task, (state.pc task).on = some fd) ∧
    (∀ ready, MayReport state ready → ∃ after, state.event_wait ready = some after ∧
      Wakes state.pc after.pc (ready.map Prod.fst)) ∧
    ∃ after fired, state._timeout_task = some after ∧ Wakes state.pc after.pc fired ∧
      ∀ fd, fd ∈ fired ↔
        ∃ timeout, state.asked fd = some (timeout, timeout % Wheel.wheelSize slots) := by
  have inv := inv_of_exclusive made reached
  refine ⟨fun task fd events timeout polls => ?_, fun fd some => ?_, fun ready legal => ?_, ?_⟩
  · have inside := (inv.all fd).inside task events timeout (congrArg Pc.call polls)
    have waits := (inv.all fd).waits (fun not => not) task events timeout polls
    refine ⟨inside.entry, waits.interest, fun positive => ?_⟩
    obtain ⟨passed, asked⟩ := inside.asked (by omega)
    exact (inv.linked_iff fd).mpr ⟨_, passed, asked, waits.soon _ passed asked⟩
  · rcases some with listed | linked
    · obtain ⟨events, listed⟩ := Option.ne_none_iff_exists'.mp listed
      obtain ⟨task, timeout, call⟩ := (inv.all fd).interest events listed
      exact ⟨task, Pc.on_of_call call⟩
    · obtain ⟨timeout, passed, asked, _⟩ := (inv.linked_iff fd).mp linked
      exact (inv.all fd).asked (asked ▸ Option.some_ne_none _)
  · obtain ⟨after, waited, _, _, wakes⟩ := inv.event_wait legal
    exact ⟨after, waited, wakes⟩
  · obtain ⟨after, fired, ran, _, _, wakes, due⟩ := inv.timeout_task
    exact ⟨after, fired, ran, wakes, due⟩

omit [DecidableEq Task] in
theorem reports_failure_iff (report : BitVec 32) :
    report &&& (EPOLLERR ||| EPOLLHUP) ≠ 0 ↔
      report &&& EPOLLERR ≠ 0 ∨ report &&& EPOLLHUP ≠ 0 := by
  rw [BitVec.and_or_distrib_left]
  exact (not_congr BitVec.or_eq_zero_iff).trans not_and_or

/-- One of two tasks waits to read from a new descriptor. -/
def pollSchedule : List (Action Bool) :=
  [.new_inner_fd 5, .event_poll true 5 EPOLLIN true]

theorem registered_poll : ∃ (wheel : Wheel.TimeWheel (Wheel.wheelSize 600) Fd)
    (state : State (Wheel.wheelSize 600) Bool),
    runBy step Exclusive (new_epoll wheel) pollSchedule = some state ∧
      state.interest 5 = some EPOLLIN ∧
        state.timer.wheel.links.list_empty (.elem 5) = false := by
  obtain ⟨wheel, made, state, ran, polls⟩ : ∃ wheel : Wheel.TimeWheel (Wheel.wheelSize 600) Fd,
      Wheel.new_time_wheel 600 = some wheel ∧ ∃ state : State (Wheel.wheelSize 600) Bool,
        runBy step Exclusive (new_epoll wheel) pollSchedule = some state ∧
          state.pc true = .polling 5 EPOLLIN 3 :=
    ⟨Option.get _ (by decide +kernel), (Option.some_get _).symm,
      Option.get _ (by decide +kernel), (Option.some_get _).symm, by decide +kernel⟩
  obtain ⟨-, interest, linked⟩ :=
    (registered made (reachableBy_of_runBy ran)).1 true 5 EPOLLIN 3 polls
  exact ⟨wheel, state, ran, interest, linked (by decide)⟩

/-- What `event_poll` answers: an expiry first, then a failure. -/
theorem resultOf_errorOf (reported : Option (BitVec 32)) (expired : Bool) :
    resultOf (errorOf reported expired) =
      if expired then .etime
      else if reported.any fun report => report &&& (EPOLLERR ||| EPOLLHUP) ≠ 0 then .enetdown
      else .ready := by
  cases reported with
  | none => cases expired <;> decide
  | some report =>
    simp only [Option.any_some, reports_failure_iff, decide_eq_true_eq]
    unfold errorOf events_to_error
    simp only [Option.elim_some]
    generalize report &&& EPOLLIN = read, report &&& EPOLLOUT = write, report &&& EPOLLERR = err,
      report &&& EPOLLRDHUP = rdhup, report &&& EPOLLHUP = hup
    by_cases isRead : read = 0 <;> by_cases isWrite : write = 0 <;> by_cases isErr : err = 0 <;>
      by_cases isRdhup : rdhup = 0 <;> by_cases isHup : hup = 0 <;> cases expired <;>
      simp only [isRead, isWrite, isErr, isRdhup, isHup, ne_eq, not_true_eq_false,
        not_false_eq_true, if_true, if_false] <;> decide

omit [DecidableEq Task] in
/-- A report without a failure has an event that was asked for. -/
theorem asked_of_legal {report events : BitVec 32} (some : report ≠ 0)
    (legal : report &&& ~~~(events ||| EPOLLERR ||| EPOLLHUP) = 0)
    (works : report &&& (EPOLLERR ||| EPOLLHUP) = 0) : report &&& events ≠ 0 := by
  intro none
  refine some ?_
  have whole : report = report &&& events ||| report &&& (EPOLLERR ||| EPOLLHUP) |||
      report &&& ~~~(events ||| EPOLLERR ||| EPOLLHUP) := by
    rw [← BitVec.and_or_distrib_left, ← BitVec.or_assoc, ← BitVec.and_or_distrib_left,
      BitVec.or_not_self, BitVec.and_allOnes]
  rw [whole, none, works, legal]
  rfl

/-- How a call of `event_poll` returns. It fails with `ETIME` exactly if its timeout has passed and
nothing was reported since, and otherwise with what was reported last: with `ENETDOWN` if there is
an error or a hang-up in it, and else as ready, with an event that was asked for. -/
theorem answers (made : Wheel.new_time_wheel slots = some wheel)
    (reached : ReachableBy step Exclusive (new_epoll wheel) state) {task : Task} {fd : Fd}
    {events timeout : BitVec 32} (here : state.pc task = .resumed fd events timeout) :
    ∃ after result, step state (.run task) = some after ∧
      after.pc task = .outside (some result) ∧
      (result = .etime ↔ state.expired fd = true) ∧
      (result = .enetdown ↔ state.expired fd = false ∧
        ∃ report ∈ state.reported fd, report &&& (EPOLLERR ||| EPOLLHUP) ≠ 0) ∧
      (result = .ready ↔ state.expired fd = false ∧
        ∃ report ∈ state.reported fd, report &&& events ≠ 0 ∧
          report &&& (EPOLLERR ||| EPOLLHUP) = 0) ∧
      (state.expired fd = true → 0 ≤ timeout.toInt ∧ ∃ passed,
        state.asked fd = some (timeout.toNat, passed) ∧
          timeout.toNat % Wheel.wheelSize slots < passed) := by
  have inv := inv_of_exclusive made reached
  have inside := (inv.all fd).inside task events timeout (congrArg Pc.call here)
  have woken := (inv.all fd).woken task events timeout here
  obtain ⟨after, ran, -, pcs, -⟩ := inv.event_poll_resumed here
  refine ⟨after, _, ran, (congrFun pcs task).trans (Function.update_self ..), ?_⟩
  rw [resultOf_errorOf]
  cases expired : state.expired fd with
  | true =>
    obtain ⟨passed, asked, less⟩ := inside.late expired
    have positive : ¬ timeout.toInt < 0 :=
      fun negative => nomatch (inside.never negative).symm.trans asked
    rw [if_pos rfl]
    refine ⟨iff_of_true rfl rfl, iff_of_false (fun same => nomatch same) ?_,
      iff_of_false (fun same => nomatch same) ?_, fun _ => ⟨by omega, passed, asked, less⟩⟩
    · exact fun not => Bool.false_ne_true not.1.symm
    · exact fun not => Bool.false_ne_true not.1.symm
  | false =>
    have some := woken.resolve_right fun late => nomatch expired.symm.trans late
    obtain ⟨report, reported⟩ := Option.ne_none_iff_exists'.mp some
    obtain ⟨some, legal⟩ := inside.legal report reported
    rw [reported, Option.any_some, if_neg Bool.false_ne_true]
    by_cases works : report &&& (EPOLLERR ||| EPOLLHUP) = 0
    · rw [decide_eq_false (not_not.mpr works), if_neg Bool.false_ne_true]
      refine ⟨iff_of_false (fun same => nomatch same) Bool.false_ne_true,
        iff_of_false (fun same => nomatch same) ?_,
        iff_of_true rfl ⟨rfl, report, rfl, asked_of_legal some legal works, works⟩,
        fun late => nomatch late⟩
      rintro ⟨-, _, same, fails⟩
      cases same
      exact fails works
    · rw [decide_eq_true works, if_pos rfl]
      refine ⟨iff_of_false (fun same => nomatch same) Bool.false_ne_true,
        iff_of_true rfl ⟨rfl, report, rfl, works⟩, iff_of_false (fun same => nomatch same) ?_,
        fun late => nomatch late⟩
      rintro ⟨-, _, same, -, fine⟩
      cases same
      exact works fine

/-- The descriptor becomes readable. -/
theorem answers_readable : ∃ (wheel : Wheel.TimeWheel (Wheel.wheelSize 600) Fd)
    (state after : State (Wheel.wheelSize 600) Bool),
    runBy step Exclusive (new_epoll wheel) (pollSchedule ++ [.event_wait [(5, EPOLLIN)]]) =
      some state ∧ step state (.run true) = some after ∧
        after.pc true = .outside (some .ready) := by
  obtain ⟨wheel, made, state, ran, resumed, reported, expired⟩ :
      ∃ wheel : Wheel.TimeWheel (Wheel.wheelSize 600) Fd,
        Wheel.new_time_wheel 600 = some wheel ∧ ∃ state : State (Wheel.wheelSize 600) Bool,
          runBy step Exclusive (new_epoll wheel) (pollSchedule ++ [.event_wait [(5, EPOLLIN)]]) =
            some state ∧ state.pc true = .resumed 5 EPOLLIN 3 ∧
              state.reported 5 = some EPOLLIN ∧ state.expired 5 = false :=
    ⟨Option.get _ (by decide +kernel), (Option.some_get _).symm,
      Option.get _ (by decide +kernel), (Option.some_get _).symm, by decide +kernel,
      by decide +kernel, by decide +kernel⟩
  obtain ⟨after, result, stepped, returned, -, -, ready, -⟩ :=
    answers made (reachableBy_of_runBy ran) resumed
  have same := ready.mpr ⟨expired, EPOLLIN, reported, by decide, by decide⟩
  exact ⟨wheel, state, after, ran, stepped, same ▸ returned⟩

/-- A task that waits with a timeout is resumed before the wheel has turned more often than the
remainder of the timeout says, whatever else happens meanwhile. -/
theorem wakes_in_time [∀ (state : State (Wheel.wheelSize slots) Task) action,
      Decidable (Exclusive state action)] (made : Wheel.new_time_wheel slots = some wheel)
    (reached : ReachableBy step Exclusive (new_epoll wheel) state) {task : Task} {fd : Fd}
    {events timeout : BitVec 32} (here : state.pc task = .polling fd events timeout)
    (limited : 0 ≤ timeout.toInt) {actions : List (Action Task)}
    {after : State (Wheel.wheelSize slots) Task}
    (executed : runBy step Exclusive state actions = some after)
    (turned : timeout.toNat % Wheel.wheelSize slots < actions.count .timer) :
    ∃ front between, front <+: actions ∧ runBy step Exclusive state front = some between ∧
      between.pc task = .resumed fd events timeout := by
  have inv := inv_of_exclusive made reached
  obtain ⟨passed, asked⟩ :=
    ((inv.all fd).inside task events timeout (congrArg Pc.call here)).asked (by omega)
  have soon := ((inv.all fd).waits (fun not => not) task events timeout here).soon _ _ asked
  have left : timeout.toNat % Wheel.wheelSize slots < passed + actions.count .timer := by omega
  clear reached turned
  induction actions generalizing state passed with
  | nil =>
    rw [List.count_nil] at left
    omega
  | cons action rest inductionHypothesis =>
    rw [runBy] at executed
    split at executed
    case isFalse => cases executed
    rename_i exclusive
    cases stepped : step state action with
    | none =>
      rw [stepped] at executed
      cases executed
    | some next =>
      rw [stepped] at executed
      have runs : ∀ front, runBy step Exclusive next front =
          runBy step Exclusive state (action :: front) := by
        intro front
        rw [runBy, if_pos exclusive, stepped]
      rcases inv.stays here asked exclusive stepped with resumed | ⟨polls, counted⟩
      · exact ⟨[action], next, List.prefix_append [action] rest, (runs []).symm, resumed⟩
      · have within := inv.stays_soon exclusive stepped polls counted
        rw [← List.singleton_append, List.count_append] at left
        have one : [action].count .timer = turnsOf action := by
          cases action <;> rfl
        obtain ⟨front, between, inside, ran, resumed⟩ := inductionHypothesis polls executed
          (inv.step exclusive stepped) _ counted within (by omega)
        exact ⟨action :: front, between, (List.prefix_cons_inj action).mpr inside,
          (runs front).symm.trans ran, resumed⟩

/-- With a timeout of three the task is resumed by the fourth turn. -/
theorem wakes_in_time_three : ∃ (wheel : Wheel.TimeWheel (Wheel.wheelSize 600) Fd)
    (state : State (Wheel.wheelSize 600) Bool),
    runBy step Exclusive (new_epoll wheel) pollSchedule = some state ∧
      ∃ front between, front <+: [.timer, .timer, .timer, .timer] ∧
        runBy step Exclusive state front = some between ∧
          between.pc true = .resumed 5 EPOLLIN 3 := by
  obtain ⟨wheel, made, state, ran, polls, after, turned⟩ :
      ∃ wheel : Wheel.TimeWheel (Wheel.wheelSize 600) Fd,
        Wheel.new_time_wheel 600 = some wheel ∧ ∃ state : State (Wheel.wheelSize 600) Bool,
          runBy step Exclusive (new_epoll wheel) pollSchedule = some state ∧
            state.pc true = .polling 5 EPOLLIN 3 ∧
              ∃ after, runBy step Exclusive state [.timer, .timer, .timer, .timer] = some after :=
    ⟨Option.get _ (by decide +kernel), (Option.some_get _).symm,
      Option.get _ (by decide +kernel), (Option.some_get _).symm, by decide +kernel,
      Option.get _ (by decide +kernel), (Option.some_get _).symm⟩
  exact ⟨wheel, state, ran, wakes_in_time made (reachableBy_of_runBy ran) polls (by decide) turned
    (by decide)⟩

end Results

end EventLoop

end Nattan
