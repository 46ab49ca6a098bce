/-
This file models the scheduler of one thread and everything that moves its tasks, and
proves that every task is on at most one list and that none is lost.

A task has one link. The link is on the run list while the task waits for its turn,
and on the list of a mutex or of a condition while it waits there. Whoever resumes a
task does not know which of these it is: a task that waits for a condition with a
time limit is resumed by a signal or by its timer, and a task may be woken while it is
already on the run list. `RR_enqueue` deletes the link first, and that alone has to
keep all lists apart.

A task runs until it yields, so an operation between two yields is one step; what the
scheduler does with a task that has yielded belongs to that step too. A task that runs
again inside `co_mutex_lock`, or after `co_cond_wait`, tries the mutex by a step of its
own. A list walk that takes the head of a list for a task, or that does not end, has no
result; that this never happens is part of what is proved.
-/

import Mathlib.Data.List.Perm.Subperm
import Nattan.LinkedList
import Nattan.Transition

namespace Nattan

namespace Scheduler

universe u v w

/-! ### The state of a scheduler thread -/

/-- `task_status_t`. -/
inductive Status where
  | READY
  | RUNNABLE
  | IO_BLOCK
  | SYS_BLOCK
  | SLEEP
  | KILLED
  | DEAD
  deriving DecidableEq, Repr

/-- The lists a task may be on. -/
inductive Queue (Mutex : Type v) (Cond : Type w) where
  | run_list
  | mutex_wait_list (mutex : Mutex)
  | cond_wait_list (cond : Cond)
  deriving DecidableEq, Repr

variable {Task : Type u} {Mutex : Type v} {Cond : Type w}
  [DecidableEq Task] [DecidableEq Mutex] [DecidableEq Cond]

/-- The links of the tasks and of the heads of the lists, the tasks that were created and are not
destroyed, the task that runs, and who locked each mutex. -/
structure State (Task : Type u) (Mutex : Type v) (Cond : Type w) where
  links : Links (Node (Queue Mutex Cond) Task)
  status : Task → Status
  live : List Task
  current : Option Task
  lock : Mutex → Option Task

/-- Every list is initialised, and there is no task. -/
def initial : State Task Mutex Cond where
  links := ⟨id, id⟩
  status := fun _ => .DEAD
  live := []
  current := none
  lock := fun _ => none

/-- `list_to_task`. The head of a list is in no task. -/
def list_to_task : Node (Queue Mutex Cond) Task → Option Task
  | .elem t => some t
  | .head _ => none

namespace State

def setStatus (state : State Task Mutex Cond) (t : Task) (status : Status) :
    State Task Mutex Cond :=
  { state with status := Function.update state.status t status }

def list_delete (state : State Task Mutex Cond) (t : Task) : State Task Mutex Cond :=
  { state with links := state.links.list_delete (.elem t) }

def list_add_before (state : State Task Mutex Cond) (queue : Queue Mutex Cond) (t : Task) :
    State Task Mutex Cond :=
  { state with links := state.links.list_add_before (.head queue) (.elem t) }

/-! ### The run list and the scheduler -/

def RR_enqueue (state : State Task Mutex Cond) (t : Task) : State Task Mutex Cond :=
  (state.list_delete t).list_add_before .run_list t

def RR_dequeue (state : State Task Mutex Cond) (t : Task) : State Task Mutex Cond :=
  state.list_delete t

/-- The node `RR_picknext` looks at. It waits for events while the node is an empty list. -/
def RR_picknext (state : State Task Mutex Cond) : Node (Queue Mutex Cond) Task :=
  state.links.list_next (.head .run_list)

/-- `sched_rq_enqueue`, which is `co_resume`. The task belongs to the scheduler of this thread. -/
def sched_rq_enqueue (state : State Task Mutex Cond) (t : Task) : State Task Mutex Cond :=
  (state.setStatus t .RUNNABLE).RR_enqueue t

def task_create (state : State Task Mutex Cond) (t : Task) : State Task Mutex Cond :=
  { state with
    links := state.links.list_init (.elem t)
    status := Function.update state.status t .READY
    live := t :: state.live }

def co_create (state : State Task Mutex Cond) (t : Task) : State Task Mutex Cond :=
  (state.task_create t).sched_rq_enqueue t

def task_destory (state : State Task Mutex Cond) (t : Task) : State Task Mutex Cond :=
  { state.list_delete t with live := state.live.filter (· ≠ t) }

/-- The first half of the loop in `schedule`: what becomes of the task that has yielded. -/
def schedulePrevious (state : State Task Mutex Cond) (prev_task : Task) :
    State Task Mutex Cond :=
  match state.status prev_task with
  | .RUNNABLE => { state with current := none }.sched_rq_enqueue prev_task
  | .KILLED => { state with current := none }.task_destory prev_task
  | _ => { state with current := none }

/-- The second half of the loop: the next task is taken off the run list and runs. -/
def scheduleNext (state : State Task Mutex Cond) : Option (State Task Mutex Cond) :=
  (list_to_task state.RR_picknext).map fun next_task =>
    { (state.RR_dequeue next_task).setStatus next_task .RUNNABLE with current := some next_task }

/-- `co_yield`, up to the next turn of the loop in `schedule`. -/
def co_yield (state : State Task Mutex Cond) (self : Task) : State Task Mutex Cond :=
  state.schedulePrevious self

def co_io_yield (state : State Task Mutex Cond) (self : Task) : State Task Mutex Cond :=
  (state.setStatus self .IO_BLOCK).co_yield self

/-- `co_sync_yield`, which `co_sys_yield` is a second name for. -/
def co_sync_yield (state : State Task Mutex Cond) (self : Task) : State Task Mutex Cond :=
  (state.setStatus self .SYS_BLOCK).co_yield self

def task_exit (state : State Task Mutex Cond) (self : Task) : State Task Mutex Cond :=
  (state.setStatus self .KILLED).co_yield self

/-! ### Mutexes, conditions and wake-ups -/

def task_wait_mutex (state : State Task Mutex Cond) (mutex : Mutex) (t : Task) :
    State Task Mutex Cond :=
  if state.lock mutex = none then state
  else (state.list_add_before (.mutex_wait_list mutex) t).co_sync_yield t

def mutex_wakeup_task (state : State Task Mutex Cond) (mutex : Mutex) :
    Option (State Task Mutex Cond) :=
  if state.lock mutex ≠ none then some state
  else
    let ls := state.links.list_next (.head (.mutex_wait_list mutex))
    if state.links.list_empty ls then some state
    else (list_to_task ls).map fun t => (state.list_delete t).sched_rq_enqueue t

/-- One turn of the loop in `co_mutex_lock`. -/
def co_mutex_lock (state : State Task Mutex Cond) (self : Task) (mutex : Mutex) :
    State Task Mutex Cond :=
  if state.lock mutex = none then
    { state with lock := Function.update state.lock mutex (some self) }
  else state.task_wait_mutex mutex self

def co_mutex_unlock (state : State Task Mutex Cond) (mutex : Mutex) :
    Option (State Task Mutex Cond) :=
  { state with lock := Function.update state.lock mutex none }.mutex_wakeup_task mutex

/-- `co_cond_wait`, up to its yield. -/
def co_cond_wait (state : State Task Mutex Cond) (self : Task) (cond : Cond) (lock : Mutex) :
    Option (State Task Mutex Cond) :=
  ((state.list_add_before (.cond_wait_list cond) self).co_mutex_unlock lock).map
    fun state => state.co_sync_yield self

/-- `co_cond_wait_till`, up to its yield. The timer it arms may resume the task at any time. -/
def co_cond_wait_till (state : State Task Mutex Cond) (self : Task) (cond : Cond) (lock : Mutex) :
    Option (State Task Mutex Cond) :=
  state.co_cond_wait self cond lock

/-- The loop of `_co_cond_signal_all`, for at most so many turns. The next node is read before the
task is taken off the list. -/
def signalLoop (all : Bool) : Nat → Node (Queue Mutex Cond) Task → State Task Mutex Cond →
    Option (State Task Mutex Cond)
  | 0, _, _ => none
  | turns + 1, ls, state =>
    if state.links.list_empty ls then some state
    else
      (list_to_task ls).bind fun t =>
        let resumed := (state.list_delete t).sched_rq_enqueue t
        if all then signalLoop all turns (state.links.list_next ls) resumed else some resumed

/-- `_co_cond_signal_all`. There are not more tasks on a list than there are tasks. -/
def co_cond_signal_all (state : State Task Mutex Cond) (cond : Cond) (all : Bool) :
    Option (State Task Mutex Cond) :=
  signalLoop all (state.live.length + 1) (state.links.list_next (.head (.cond_wait_list cond)))
    state

/-- `Task::wakeup`. It does not set the status. -/
def wakeup (state : State Task Mutex Cond) (self handle : Task) : State Task Mutex Cond :=
  if self = handle then state else state.RR_enqueue handle

end State

/-! ### The steps -/

/-- What the tasks and the scheduler do. -/
inductive Action (Task : Type u) (Mutex : Type v) (Cond : Type w) where
  | co_create (t : Task)
  | schedule
  | co_yield (self : Task)
  | co_io_yield (self : Task)
  | co_sys_yield (self : Task)
  | task_exit (self : Task)
  | co_mutex_lock (self : Task) (mutex : Mutex)
  | co_mutex_unlock (self : Task) (mutex : Mutex)
  | co_cond_wait (self : Task) (cond : Cond) (lock : Mutex)
  | co_cond_wait_till (self : Task) (cond : Cond) (lock : Mutex)
  | co_cond_signal (cond : Cond)
  | co_cond_broadcast (cond : Cond)
  | wakeup (self handle : Task)
  | event (t : Task)
  | timeout (self t : Task)
  deriving DecidableEq, Repr

/-- When an action is possible. A task acts while it runs; locking a mutex one has, or unlocking or
waiting with one that one has not, is a panic. Events are handled while no task runs. The time
wheel is turned by a task whose own descriptor is not on the wheel, since it never times out. -/
def allowed (state : State Task Mutex Cond) : Action Task Mutex Cond → Prop
  | .co_create t => t ∉ state.live
  | .schedule => state.current = none ∧ state.links.list_empty state.RR_picknext = false
  | .co_yield self | .co_io_yield self | .co_sys_yield self | .task_exit self =>
    state.current = some self
  | .co_mutex_lock self mutex => state.current = some self ∧ state.lock mutex ≠ some self
  | .co_mutex_unlock self mutex => state.current = some self ∧ state.lock mutex = some self
  | .co_cond_wait self _ lock | .co_cond_wait_till self _ lock =>
    state.current = some self ∧ state.lock lock = some self
  | .co_cond_signal _ | .co_cond_broadcast _ => True
  | .wakeup self handle => state.current = some self ∧ handle ∈ state.live
  | .event t => state.current = none ∧ t ∈ state.live
  | .timeout self t => state.current = some self ∧ t ≠ self ∧ t ∈ state.live

instance (state : State Task Mutex Cond) (action : Action Task Mutex Cond) :
    Decidable (allowed state action) :=
  match action with
  | .co_create _ => inferInstanceAs (Decidable (_ ∉ _))
  | .schedule => inferInstanceAs (Decidable (_ ∧ _))
  | .co_yield _ | .co_io_yield _ | .co_sys_yield _ | .task_exit _ =>
    inferInstanceAs (Decidable (_ = _))
  | .co_mutex_lock _ _ => inferInstanceAs (Decidable (_ ∧ _ ≠ _))
  | .co_mutex_unlock _ _ => inferInstanceAs (Decidable (_ ∧ _))
  | .co_cond_wait _ _ _ | .co_cond_wait_till _ _ _ => inferInstanceAs (Decidable (_ ∧ _))
  | .co_cond_signal _ | .co_cond_broadcast _ => inferInstanceAs (Decidable True)
  | .wakeup _ _ => inferInstanceAs (Decidable (_ ∧ _))
  | .event _ => inferInstanceAs (Decidable (_ ∧ _))
  | .timeout _ _ => inferInstanceAs (Decidable (_ ∧ _ ≠ _ ∧ _))

/-- What an action does, if every list walk in it comes to its end. -/
def execute (state : State Task Mutex Cond) :
    Action Task Mutex Cond → Option (State Task Mutex Cond)
  | .co_create t => some (state.co_create t)
  | .schedule => state.scheduleNext
  | .co_yield self => some (state.co_yield self)
  | .co_io_yield self => some (state.co_io_yield self)
  | .co_sys_yield self => some (state.co_sync_yield self)
  | .task_exit self => some (state.task_exit self)
  | .co_mutex_lock self mutex => some (state.co_mutex_lock self mutex)
  | .co_mutex_unlock _ mutex => state.co_mutex_unlock mutex
  | .co_cond_wait self cond lock => state.co_cond_wait self cond lock
  | .co_cond_wait_till self cond lock => state.co_cond_wait_till self cond lock
  | .co_cond_signal cond => state.co_cond_signal_all cond false
  | .co_cond_broadcast cond => state.co_cond_signal_all cond true
  | .wakeup self handle => some (state.wakeup self handle)
  | .event t => some (state.sched_rq_enqueue t)
  | .timeout _ t => some (state.sched_rq_enqueue t)

def step (state : State Task Mutex Cond) (action : Action Task Mutex Cond) :
    Option (State Task Mutex Cond) :=
  if allowed state action then execute state action else none

end Scheduler

end Nattan
