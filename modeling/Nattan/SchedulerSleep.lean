/-
This file models how a scheduler goes to sleep and how other threads wake it, and proves
that it does not sleep while it has work.

A scheduler without a runnable task blocks in `epoll_wait`. Another thread that puts a task
on its run list therefore writes a byte into a pipe behind it, and the active task of the
scheduler waits to read from the pipe, so that `epoll_wait` returns. The scheduler looks at
its run list before it decides to block, and decides before it looks again: a task that
comes in between is run while the timeout still says to block, and the next `epoll_wait`
finds a task on the list. What keeps it from sleeping then is the byte that follows the task.

The operations on the run list are single steps. This is an assumption about the program: the
insertion of `RR_enqueue` holds the lock of the run queue, but its `list_delete` and `RR_dequeue`
do not, so that two of them that overlap can damage the list, which is not part of the model. A
thread that has put a task on the list writes its byte later.
-/

import Mathlib.Data.List.Basic
import Nattan.Transition

namespace Nattan

namespace SchedulerSleep

universe u

/-- What is on a run list: the active task, or another task. -/
inductive Job (Task : Type u) where
  | active
  | user (task : Task)
  deriving DecidableEq, Repr

/-- Where the scheduler stands: before `event_wait`, behind it with the number it returned, at the
end of the loop of `RR_picknext`, or away in a task. -/
inductive Pc (Task : Type u) where
  | event_wait
  | waited (num : Nat)
  | again
  | runs (job : Job Task)
  deriving DecidableEq, Repr

/-- The task that runs, if it is another one than the active task. -/
def Pc.self {Task : Type u} : Pc Task → Option Task
  | runs (.user task) => some task
  | _ => none

/-- Where the active task stands: before its first run, in `event_poll` for the pipe, resumed from
it, in its loop, or at its end. -/
inductive Active where
  | created
  | polling
  | resumed
  | reading
  | ended
  deriving DecidableEq, Repr

/-- One scheduler. The timeout of its `epoll` is zero or a minute. The pipe is there when the active
task has run, and `pending` threads have put a task on the run list and not written yet. -/
structure State (Task : Type u) where
  pc : Pc Task
  run_list : List (Job Task)
  blocks : Bool
  active : Active
  pipe : Option Nat
  pending : Nat
  deriving DecidableEq, Repr

variable {Task : Type u} [DecidableEq Task]

/-- What `current_sched` makes, and the tasks the thread has created before it calls `schedule`. -/
def current_sched (timer : Task) (created : List Task) : State Task where
  pc := .event_wait
  run_list := .user timer :: .active :: created.map .user
  blocks := false
  active := .created
  pipe := none
  pending := 0

namespace State

/-- `RR_enqueue`: the task leaves the list it is on and goes to the end of the run list. -/
def RR_enqueue (state : State Task) (job : Job Task) : State Task :=
  { state with run_list := state.run_list.erase job ++ [job] }

/-- The read end of the pipe is in the interest list, and readable. -/
def readable (state : State Task) : Bool :=
  state.active = .polling ∧ 0 < state.pipe.getD 0

/-- `event_wait`: the tasks of other descriptors, and the active task if the pipe is readable, are
resumed. It returns with nothing when nothing is ready, at once or after the timeout. -/
def event_wait (state : State Task) (others : List Task) (activated : Bool) :
    Option (State Task) :=
  let resumed := others.foldl (fun state task => state.RR_enqueue (.user task)) state
  if activated then
    if state.readable then
      some { resumed.RR_enqueue .active with
        active := .resumed
        pc := .waited (others.length + 1) }
    else none
  else if others = [] ∧ state.readable then none
  else some { resumed with pc := .waited others.length }

/-- The two decisions of the loop of `RR_picknext`. -/
def RR_picknext (state : State Task) : Option (State Task) :=
  match state.pc with
  | .waited num => some { state with blocks := num = 0 ∧ state.run_list = [], pc := .again }
  | .again =>
    match state.run_list with
    | [] => some { state with pc := .event_wait }
    | job :: rest => some { state with run_list := rest, pc := .runs job }
  | _ => none

/-- The hooked `read` of `_active_task`, of up to 256 bytes. With nothing to read it waits in
`event_poll` the first time, and fails behind that, which ends the task and closes the pipe. -/
def _active_task (state : State Task) : Option (State Task) :=
  match state.active, state.pipe with
  | .created, _ => some { state with active := .reading, pipe := some 0 }
  | .reading, some 0 => some { state with active := .polling, pc := .event_wait }
  | .resumed, some 0 => some { state with active := .ended, pipe := none, pc := .event_wait }
  | .reading, some bytes | .resumed, some bytes =>
    some { state with active := .reading, pipe := some (bytes - 256) }
  | _, _ => none

/-- `sched_active_event` of another thread. A full pipe takes no more. -/
def sched_active_event (state : State Task) : State Task :=
  { state with pipe := state.pipe.map fun bytes => if bytes < 65536 then bytes + 1 else bytes }

end State

inductive Action (Task : Type u) where
  | event_wait (others : List Task) (activated : Bool)
  | RR_picknext
  | _active_task
  | co_resume (task : Task)
  | co_yield
  | block
  | enqueue (task : Task)
  | sched_active_event
  deriving DecidableEq, Repr

/-- A step of the scheduler, of the task it runs, or of another thread. -/
def step (state : State Task) : Action Task → Option (State Task)
  | .event_wait others activated =>
    if state.pc = .event_wait then state.event_wait others activated else none
  | .RR_picknext => state.RR_picknext
  | ._active_task => if state.pc = .runs .active then state._active_task else none
  | .co_resume task => state.pc.self.map fun _ => state.RR_enqueue (.user task)
  | .co_yield => state.pc.self.map fun self =>
    { state.RR_enqueue (.user self) with pc := .event_wait }
  | .block => state.pc.self.map fun _ => { state with pc := .event_wait }
  | .enqueue task =>
    some { state.RR_enqueue (.user task) with pending := state.pending + 1 }
  | .sched_active_event =>
    if 0 < state.pending then
      some { state.sched_active_event with pending := state.pending - 1 }
    else none

/-! ### The invariant -/

/-- How often the active task is on the run list or runs. -/
def State.places (state : State Task) : Nat :=
  state.run_list.count .active + if state.pc = .runs .active then 1 else 0

/-- `event_wait` has returned with something. -/
def Pc.busy : Pc Task → Bool
  | waited num => num ≠ 0
  | _ => false

/-- A byte is in the pipe or will be. -/
def State.noticed (state : State Task) : Prop :=
  0 < state.pending ∨ 0 < state.pipe.getD 0

/-- The active task waits for the pipe, or it is in one place. It has something to read when it was
resumed. As long as the timeout says to block the active task waits, and a task that is on the
run list or runs has been noticed. -/
structure Inv (state : State Task) : Prop where
  placed : state.places = if state.active = .polling then 0 else 1
  alive : state.active ≠ .ended
  opened : state.active ≠ .created → state.pipe ≠ none
  reads : state.active = .reading → state.pc = .runs .active
  resumed : state.active = .resumed → 0 < state.pipe.getD 0
  blocked : state.blocks = true → state.active = .polling ∨ state.pc.busy = true
  noticed : state.blocks = true → state.pc.busy = true ∨ state.noticed ∨
    state.run_list = [] ∧ ∀ job, state.pc ≠ .runs job

section Steps

variable {state after : State Task} {task : Task}

theorem inv_current_sched (timer : Task) (created : List Task) :
    Inv (current_sched timer created) where
  placed := by
    have none : (created.map Job.user).count .active = 0 := by
      refine List.count_eq_zero.mpr fun member => ?_
      obtain ⟨_, _, impossible⟩ := List.mem_map.mp member
      cases impossible
    show List.count Job.active (.user timer :: .active :: created.map .user) + 0 = 1
    rw [List.count_cons_of_ne (show Job.user timer ≠ .active from fun same => nomatch same),
      List.count_cons_self, none]
  alive := fun impossible => nomatch impossible
  opened := fun not => absurd rfl not
  reads := fun impossible => nomatch impossible
  resumed := fun impossible => nomatch impossible
  blocked := fun impossible => nomatch impossible
  noticed := fun impossible => nomatch impossible

/-- Another task on the run list is no place for the active task. -/
theorem count_RR_enqueue (state : State Task) (task : Task) :
    (state.RR_enqueue (.user task)).run_list.count .active = state.run_list.count .active := by
  have different : Job.active ≠ .user task := fun same => nomatch same
  show List.count Job.active (state.run_list.erase (.user task) ++ [.user task]) = _
  rw [List.count_append, List.count_erase_of_ne different, List.count_singleton,
    if_neg (by simp), Nat.add_zero]

theorem foldl_RR_enqueue (others : List Task) (state : State Task) :
    ∃ run_list, others.foldl (fun state task => state.RR_enqueue (.user task)) state =
        { state with run_list } ∧
      run_list.count .active = state.run_list.count .active ∧
      (others = [] → run_list = state.run_list) := by
  induction others generalizing state with
  | nil => exact ⟨state.run_list, rfl, rfl, fun _ => rfl⟩
  | cons task rest inductionHypothesis =>
    obtain ⟨run_list, same, count, _⟩ := inductionHypothesis (state.RR_enqueue (.user task))
    exact ⟨run_list, same, count.trans (count_RR_enqueue state task), fun impossible =>
      nomatch impossible⟩

theorem Inv.event_wait (inv : Inv state) (here : state.pc = .event_wait) {others : List Task}
    {activated : Bool} (waited : state.event_wait others activated = some after) : Inv after := by
  obtain ⟨run_list, same, count, still⟩ := foldl_RR_enqueue others state
  have placed := inv.placed
  rw [State.places, here, if_neg (fun impossible => nomatch impossible), Nat.add_zero] at placed
  have away : state.active ≠ .reading := fun reading => nomatch here.symm.trans (inv.reads reading)
  unfold State.event_wait at waited
  simp only [same] at waited
  split at waited
  · split at waited
    · rename_i readable
      obtain ⟨polls, some⟩ := of_decide_eq_true readable
      cases waited
      rw [if_pos polls] at placed
      have absent : Job.active ∉ run_list :=
        List.count_eq_zero.mp (count.trans placed)
      refine ⟨?_, (nomatch ·), fun _ => inv.opened ?_, (nomatch ·), fun _ => some,
        fun _ => Or.inr rfl, fun _ => Or.inl rfl⟩
      · show List.count Job.active (run_list.erase .active ++ [.active]) + 0 = 1
        rw [List.erase_of_not_mem absent, List.count_append, List.count_eq_zero.mpr absent]
        rfl
      · rw [polls]
        exact fun impossible => nomatch impossible
    · cases waited
  · split at waited
    · cases waited
    · cases waited
      refine ⟨?_, inv.alive, inv.opened, fun reading => absurd reading away, inv.resumed,
        fun blocks => ?_, fun blocks => ?_⟩
      · show run_list.count .active + 0 = _
        exact count.trans placed
      · refine (inv.blocked blocks).imp_right fun busy => ?_
        rw [here] at busy
        cases busy
      · cases others with
        | cons first rest => exact Or.inl rfl
        | nil =>
          refine Or.inr ?_
          have noticed := (inv.noticed blocks).resolve_left fun busy => by
            rw [here] at busy
            cases busy
          exact noticed.imp_right fun idle =>
            ⟨(still rfl).trans idle.1, fun _ impossible => nomatch impossible⟩

theorem Inv.RR_picknext (inv : Inv state) (ran : state.RR_picknext = some after) : Inv after := by
  unfold State.RR_picknext at ran
  cases here : state.pc with
  | event_wait => rw [here] at ran; cases ran
  | runs job => rw [here] at ran; cases ran
  | waited num =>
    rw [here] at ran
    cases ran
    have placed := inv.placed
    rw [State.places, here, if_neg (fun impossible => nomatch impossible), Nat.add_zero] at placed
    refine ⟨placed, inv.alive, inv.opened, fun reading => ?_, inv.resumed, fun blocks => ?_,
      fun blocks => ?_⟩
    · exact nomatch here.symm.trans (inv.reads reading)
    · obtain ⟨-, none⟩ := of_decide_eq_true blocks
      by_contra other
      rw [none, if_neg fun polls => other (Or.inl polls)] at placed
      cases placed
    · obtain ⟨-, none⟩ := of_decide_eq_true blocks
      exact Or.inr (Or.inr ⟨none, fun _ impossible => nomatch impossible⟩)
  | again =>
    rw [here] at ran
    have placed := inv.placed
    rw [State.places, here, if_neg (fun impossible => nomatch impossible), Nat.add_zero] at placed
    have away : state.active ≠ .reading :=
      fun reading => nomatch here.symm.trans (inv.reads reading)
    have idle : state.pc.busy ≠ true := by
      rw [here]
      exact Bool.false_ne_true
    cases shape : state.run_list with
    | nil =>
      simp only [shape] at ran
      cases ran
      refine ⟨?_, inv.alive, inv.opened, fun reading => absurd reading away, inv.resumed,
        fun blocks => (inv.blocked blocks).imp_right fun busy => absurd busy idle,
        fun _ => Or.inr (Or.inr ⟨rfl, fun _ impossible => nomatch impossible⟩)⟩
      rw [shape] at placed
      exact placed
    | cons job rest =>
      simp only [shape] at ran
      cases ran
      refine ⟨?_, inv.alive, inv.opened, fun reading => absurd reading away, inv.resumed,
        fun blocks => (inv.blocked blocks).imp_right fun busy => absurd busy idle,
        fun blocks => Or.inr (Or.inl ?_)⟩
      · rw [shape, List.count_cons] at placed
        rw [← placed]
        show rest.count .active + (if Pc.runs job = .runs .active then 1 else 0) = _
        simp only [Pc.runs.injEq, beq_iff_eq]
      · refine ((inv.noticed blocks).resolve_left idle).resolve_right fun none => ?_
        rw [shape] at none
        cases none.1

/-- The active task reads what there is, and waits when there is nothing more. -/
theorem Inv.active_task (inv : Inv state) (here : state.pc = .runs .active)
    (ran : state._active_task = some after) : Inv after := by
  have placed := inv.placed
  rw [State.places, here, if_pos rfl] at placed
  have awake : state.active ≠ .polling := by
    intro polls
    rw [if_pos polls] at placed
    cases placed
  have last : state.run_list.count .active = 0 := by
    rw [if_neg awake] at placed
    exact Nat.succ.inj placed
  have zero : state.blocks ≠ true := by
    intro blocks
    rcases inv.blocked blocks with polls | busy
    · exact awake polls
    · rw [here] at busy
      cases busy
  have reads : ∀ {pipe : Nat}, Inv { state with active := .reading, pipe := some pipe } := by
    intro pipe
    refine ⟨?_, (nomatch ·), fun _ => Option.some_ne_none _, fun _ => here, (nomatch ·),
      fun blocks => absurd blocks zero, fun blocks => absurd blocks zero⟩
    show state.run_list.count .active + (if state.pc = .runs .active then 1 else 0) = 1
    rw [last, if_pos here]
  unfold State._active_task at ran
  split at ran
  · cases ran
    exact reads
  · rename_i reading none
    cases ran
    refine ⟨last, (nomatch ·), fun _ => inv.opened ?_, (nomatch ·), (nomatch ·),
      fun blocks => absurd blocks zero, fun blocks => absurd blocks zero⟩
    rw [reading]
    exact fun impossible => nomatch impossible
  · rename_i resumed none
    have some := inv.resumed resumed
    rw [none] at some
    exact absurd some (Nat.lt_irrefl 0)
  · cases ran
    exact reads
  · cases ran
    exact reads
  · cases ran

/-- Another task is put on the run list, and has been noticed. -/
theorem Inv.enqueue {pc : Pc Task} {pending : Nat} (inv : Inv state)
    (place : (if pc = .runs .active then 1 else 0) = if state.pc = .runs .active then 1 else 0)
    (reads : state.active = .reading → pc = .runs .active)
    (busy : state.pc.busy = true → pc.busy = true)
    (noticed : state.blocks = true → pc.busy = true ∨ 0 < pending ∨ 0 < state.pipe.getD 0) :
    Inv { state.RR_enqueue (.user task) with pc, pending } := by
  refine ⟨?_, inv.alive, inv.opened, reads, inv.resumed,
    fun blocks => (inv.blocked blocks).imp_right busy,
    fun blocks => (noticed blocks).imp_right Or.inl⟩
  show (state.RR_enqueue (.user task)).run_list.count .active +
    (if pc = .runs .active then 1 else 0) = _
  rw [count_RR_enqueue, place]
  exact inv.placed

/-- While a task runs, what the timeout says has been noticed. -/
theorem Inv.noticed_of_runs (inv : Inv state) {job : Job Task} (here : state.pc = .runs job)
    (blocks : state.blocks = true) : state.noticed := by
  rcases inv.noticed blocks with busy | noticed | idle
  · rw [here] at busy
    cases busy
  · exact noticed
  · exact absurd here (idle.2 job)

/-- A task leaves the processor to the scheduler. -/
theorem Inv.leaves (inv : Inv state) (here : state.pc = .runs (.user task)) :
    Inv { state with pc := .event_wait } := by
  have placed := inv.placed
  rw [State.places, here, if_neg (fun impossible => nomatch impossible)] at placed
  refine ⟨placed, inv.alive, inv.opened,
    fun reading => (nomatch here.symm.trans (inv.reads reading)), inv.resumed,
    fun blocks => ?_, fun blocks => Or.inr (Or.inl (inv.noticed_of_runs here blocks))⟩
  refine (inv.blocked blocks).imp_right fun busy => ?_
  rw [here] at busy
  cases busy

/-- A byte is written behind a task that was put on the run list. -/
theorem Inv.sched_active_event (inv : Inv state) :
    Inv { state.sched_active_event with pending := state.pending - 1 } := by
  have more : ∀ bytes, state.pipe = some bytes → 0 < state.sched_active_event.pipe.getD 0 := by
    intro bytes some
    show 0 < (state.pipe.map fun bytes => if bytes < 65536 then bytes + 1 else bytes).getD 0
    rw [some, Option.map_some, Option.getD_some]
    split
    · exact Nat.succ_pos _
    · omega
  refine ⟨inv.placed, inv.alive, fun created none => inv.opened created ?_, inv.reads,
    fun resumed => ?_, inv.blocked, fun blocks => ?_⟩
  · exact Option.map_eq_none_iff.mp none
  · obtain ⟨bytes, some⟩ := Option.ne_none_iff_exists'.mp
      (inv.opened fun created => nomatch resumed.symm.trans created)
    exact more bytes some
  · rcases inv.blocked blocks with polls | busy
    · obtain ⟨bytes, some⟩ := Option.ne_none_iff_exists'.mp
        (inv.opened fun created => nomatch polls.symm.trans created)
      exact Or.inr (Or.inl (Or.inr (more bytes some)))
    · exact Or.inl busy

omit [DecidableEq Task] in
theorem runs_of_self {pc : Pc Task} (self : pc.self = some task) : pc = .runs (.user task) := by
  unfold Pc.self at self
  split at self
  · exact congrArg _ (congrArg _ (Option.some.inj self))
  · cases self

theorem Inv.step {action : Action Task} (inv : Inv state)
    (stepped : step state action = some after) : Inv after := by
  cases action with
  | event_wait others activated =>
    obtain ⟨here, waited⟩ := Option.ite_none_right_eq_some.mp stepped
    exact inv.event_wait here waited
  | RR_picknext => exact inv.RR_picknext stepped
  | _active_task =>
    obtain ⟨here, ran⟩ := Option.ite_none_right_eq_some.mp stepped
    exact inv.active_task here ran
  | co_resume task =>
    obtain ⟨self, runs, rfl⟩ := Option.map_eq_some_iff.mp stepped
    exact inv.enqueue rfl inv.reads id
      fun blocks => Or.inr (inv.noticed_of_runs (runs_of_self runs) blocks)
  | co_yield =>
    obtain ⟨self, runs, rfl⟩ := Option.map_eq_some_iff.mp stepped
    have here := runs_of_self runs
    refine inv.enqueue ?_ (fun reading => nomatch here.symm.trans (inv.reads reading)) ?_
      fun blocks => Or.inr (inv.noticed_of_runs here blocks)
    · rw [here]
      rfl
    · rw [here]
      exact id
  | block =>
    obtain ⟨self, runs, rfl⟩ := Option.map_eq_some_iff.mp stepped
    exact inv.leaves (runs_of_self runs)
  | enqueue task =>
    cases stepped
    exact inv.enqueue rfl inv.reads id fun _ => Or.inr (Or.inl (Nat.succ_pos _))
  | sched_active_event =>
    obtain ⟨-, rfl⟩ := stepped_of_guard stepped
    exact inv.sched_active_event

end Steps

/-- A scheduler that blocks in `epoll_wait` has no runnable task, or it will be woken: a byte is in
the pipe, and the read end is in the interest list, or another thread is about to write one. The
active task never ends, so the pipe stays open. -/
theorem never_sleeps_on_work {timer : Task} {created : List Task} {state : State Task}
    (reached : Reachable step (current_sched timer created) state) :
    (state.pc = .event_wait → state.blocks = true → state.run_list ≠ [] →
      0 < state.pending ∨ state.readable = true) ∧
    state.active ≠ .ended := by
  have inv := Reachable.invariant Inv (inv_current_sched timer created)
    (fun _ _ _ inv stepped => inv.step stepped) reached
  refine ⟨fun here blocks some => ?_, inv.alive⟩
  have idle : state.pc.busy ≠ true := by
    rw [here]
    exact Bool.false_ne_true
  have polls := (inv.blocked blocks).resolve_right idle
  rcases ((inv.noticed blocks).resolve_left idle).resolve_right fun none => some none.1 with
    pending | bytes
  · exact Or.inl pending
  · exact Or.inr (decide_eq_true ⟨polls, bytes⟩)

/-- The scheduler has run its two tasks and blocks. Another thread puts a task on its run list and
writes, and the scheduler decides to block before it looks. -/
def overtaken : List (Action Nat) :=
  [.event_wait [] false, .RR_picknext, .RR_picknext, .block, .event_wait [] false, .RR_picknext,
    .RR_picknext, ._active_task, ._active_task, .event_wait [] false, .RR_picknext, .enqueue 1,
    .RR_picknext, .co_yield]

/-- The task has run and is on the list again, and `epoll_wait` is to block. -/
theorem never_sleeps_on_work_overtaken : ∃ state : State Nat,
    run step (current_sched 0 []) overtaken = some state ∧ state.run_list = [.user 1] ∧
      state.blocks = true ∧ (0 < state.pending ∨ state.readable = true) := by
  obtain ⟨state, ran, here, blocks, list⟩ : ∃ state : State Nat,
      run step (current_sched 0 []) overtaken = some state ∧ state.pc = .event_wait ∧
        state.blocks = true ∧ state.run_list = [.user 1] :=
    ⟨Option.get _ (by decide +kernel), (Option.some_get _).symm, by decide +kernel,
      by decide +kernel, by decide +kernel⟩
  refine ⟨state, ran, list, blocks,
    (never_sleeps_on_work (reachable_of_run ran)).1 here blocks ?_⟩
  rw [list]
  exact List.cons_ne_nil _ _

end SchedulerSleep

end Nattan
