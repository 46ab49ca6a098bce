/-
This file models the coroutine mutex behind `TaskMutex`, and proves that it excludes
and that it never strands a waiter.

A task that finds the mutex locked enters a section under `wait_lock`, looks again,
and queues itself; it yields only after it left the section, so another scheduler may
take it off the list and resume it before it has yielded. A release and the wake-up
that follows it are separate steps. In between a newcomer may take the mutex, and the
wake-up is then left to the newcomer's own release. The wake-up takes one task off
the list, and resumes it after it left the section.

What makes this safe is that the lock is looked at inside the section on both sides.
A task queues itself only while the mutex is locked, so its owner is still to release
it; and a releasing task leaves the list as it is only if the mutex is locked again.
The tasks are of any type, each is at a place in the code, and every interleaving of
their steps is a run.
-/

import Mathlib.Data.List.Nodup
import Mathlib.Logic.Function.Basic
import Nattan.Transition

namespace Nattan

namespace CoMutex

universe u

/-! ### The steps of `co_mutex_lock` and `co_mutex_unlock` -/

/-- Where a task is in the code. -/
inductive Pc (Task : Type u) where
  /-- Neither in `co_mutex_lock` nor in `co_mutex_unlock`, and without the mutex. -/
  | outside
  /-- Before the compare-and-swap of `co_mutex_lock`. -/
  | tryLock
  /-- Before the section of `task_wait_mutex`. -/
  | waitSection
  /-- In `wait_list`, before the yield. -/
  | enqueued
  /-- In `wait_list`, after the yield. -/
  | suspended
  /-- Taken off `wait_list`, before or after the yield. -/
  | popped (yielded : Bool)
  /-- Resumed, before or after the yield. -/
  | resumed (yielded : Bool)
  /-- Running again, before it tries the compare-and-swap again. -/
  | retry
  /-- Between a successful lock and the release. -/
  | holding
  /-- After the release, before the section of `mutex_wakeup_task`. -/
  | wakeSection
  /-- After that section, before it resumes the task it took off the list. -/
  | resuming (task : Task)
  deriving DecidableEq, Repr

/-- The task is between its release and its wake-up section, or it was taken off the list and has
not tried the compare-and-swap again. -/
def Pc.wakes {Task : Type u} : Pc Task → Bool
  | .wakeSection | .popped _ | .resumed _ | .retry => true
  | .outside | .tryLock | .waitSection | .enqueued | .suspended | .holding | .resuming _ => false

variable {Task : Type u} [DecidableEq Task]

/-- `co_mutex_t`, and the places of the tasks. `lock` is the task that locked it. -/
structure State (Task : Type u) where
  lock : Option Task
  wait_list : List Task
  pc : Task → Pc Task

def initial : State Task where
  lock := none
  wait_list := []
  pc := fun _ => .outside

/-- A task goes to another place. -/
def State.move (state : State Task) (task : Task) (pc : Pc Task) : State Task :=
  { state with pc := Function.update state.pc task pc }

theorem State.move_self (state : State Task) (task : Task) (pc : Pc Task) :
    (state.move task pc).pc task = pc :=
  Function.update_self ..

theorem State.move_of_ne {other task : Task} (different : other ≠ task) (state : State Task)
    (pc : Pc Task) : (state.move task pc).pc other = state.pc other :=
  Function.update_of_ne different ..

/-- A task that goes elsewhere leaves the others in their critical sections, and is in none. -/
theorem State.holding_of_move {state : State Task} {other task : Task} {pc : Pc Task}
    (outside : pc ≠ .holding) (holds : (state.move task pc).pc other = .holding) :
    other ≠ task ∧ state.pc other = .holding := by
  by_cases same : other = task
  · subst same
    rw [State.move_self] at holds
    exact absurd holds outside
  · rw [State.move_of_ne same] at holds
    exact ⟨same, holds⟩

/-- `ATOMIC_LOCK`, the compare-and-swap that takes the mutex if it is free. -/
def State.atomicLock (state : State Task) (task : Task) (failed : Pc Task) : State Task :=
  if state.lock = none then { state with lock := some task }.move task .holding
  else state.move task failed

/-- The section of `task_wait_mutex`. -/
def State.enqueue (state : State Task) (task : Task) : State Task :=
  if state.lock = none then state.move task .tryLock
  else { state with wait_list := state.wait_list ++ [task] }.move task .enqueued

/-- The place of a task that is taken off the list. -/
def Pc.pop : Pc Task → Pc Task
  | .suspended => .popped true
  | _ => .popped false

/-- The place of a task that is resumed. -/
def Pc.resume : Pc Task → Pc Task
  | .popped yielded => .resumed yielded
  | pc => pc

/-- The section of `mutex_wakeup_task`. -/
def State.wakeup (state : State Task) (task : Task) : State Task :=
  if state.lock = none then
    match state.wait_list with
    | [] => state.move task .outside
    | first :: rest =>
      ({ state with wait_list := rest }.move first (state.pc first).pop).move task
        (.resuming first)
  else state.move task .outside

/-- What a task begins, or its next step in what it began. -/
inductive Action (Task : Type u) where
  | lock (task : Task)
  | tryLock (task : Task)
  | unlock (task : Task)
  | advance (task : Task)
  deriving DecidableEq, Repr

/-- A step. Locking a mutex the task has itself, and unlocking one it has not, is a panic. -/
def step (state : State Task) : Action Task → Option (State Task)
  | .lock task =>
    if state.pc task = .outside ∧ state.lock ≠ some task then some (state.move task .tryLock)
    else none
  | .tryLock task =>
    if state.pc task = .outside ∧ state.lock ≠ some task then
      some (state.atomicLock task .outside)
    else none
  | .unlock task =>
    if state.pc task = .holding ∧ state.lock = some task then
      some ({ state with lock := none }.move task .wakeSection)
    else none
  | .advance task =>
    match state.pc task with
    | .tryLock | .retry => some (state.atomicLock task .waitSection)
    | .waitSection => some (state.enqueue task)
    | .enqueued => some (state.move task .suspended)
    | .popped false => some (state.move task (.popped true))
    | .resumed false => some (state.move task (.resumed true))
    | .resumed true => some (state.move task .retry)
    | .wakeSection => some (state.wakeup task)
    | .resuming other =>
      some ((state.move other (state.pc other).resume).move task .outside)
    | .outside | .suspended | .popped true | .holding => none

/-! ### The invariant -/

/-- A task in its critical section is the one that locked the mutex; the tasks on the list are
distinct and wait; and while the mutex is free and the list is not empty, some task wakes. -/
structure Inv (state : State Task) : Prop where
  owner : ∀ task, state.pc task = .holding → state.lock = some task
  waiting : ∀ task ∈ state.wait_list,
    state.pc task = .enqueued ∨ state.pc task = .suspended
  nodup : state.wait_list.Nodup
  wakes : state.lock = none → state.wait_list ≠ [] → ∃ task, (state.pc task).wakes = true

omit [DecidableEq Task] in
theorem inv_initial : Inv (initial : State Task) where
  owner := fun _ holds => by cases holds
  waiting := fun _ member => by cases member
  nodup := List.nodup_nil
  wakes := fun _ some => absurd rfl some

section Steps

variable {state : State Task} {task : Task} {pc : Pc Task}

omit [DecidableEq Task] in
theorem not_mem_wait_list (inv : Inv state) (place : state.pc task ≠ .enqueued)
    (place' : state.pc task ≠ .suspended) : task ∉ state.wait_list := by
  intro member
  obtain enqueued | suspended := inv.waiting task member
  · exact place enqueued
  · exact place' suspended

/-- A task that goes to another place keeps the invariant, if it goes into its critical section
only with the mutex, stays a waiting task on the list, and wakes if it did before. -/
theorem Inv.move (inv : Inv state) (owner : pc = .holding → state.lock = some task)
    (waiting : task ∈ state.wait_list → pc = .enqueued ∨ pc = .suspended)
    (wakes : state.lock = none → (state.pc task).wakes = true → pc.wakes = true) :
    Inv (state.move task pc) := by
  refine ⟨?_, ?_, inv.nodup, ?_⟩
  · intro other holds
    by_cases same : other = task
    · subst same
      rw [State.move_self] at holds
      exact owner holds
    · rw [State.move_of_ne same] at holds
      exact inv.owner other holds
  · intro other member
    by_cases same : other = task
    · subst same
      rw [State.move_self]
      exact waiting member
    · rw [State.move_of_ne same]
      exact inv.waiting other member
  · intro free some
    obtain ⟨other, waking⟩ := inv.wakes free some
    refine ⟨other, ?_⟩
    by_cases same : other = task
    · subst same
      rw [State.move_self]
      exact wakes free waking
    · rw [State.move_of_ne same]
      exact waking

/-- The compare-and-swap that takes the mutex. What it leaves when it fails is not a place of a
waiting task, and no task needs to wake then. -/
theorem Inv.atomicLock (inv : Inv state) (place : state.pc task ≠ .enqueued)
    (place' : state.pc task ≠ .suspended) {failed : Pc Task} (outside : failed ≠ .holding) :
    Inv (state.atomicLock task failed) := by
  have absent := not_mem_wait_list inv place place'
  rw [State.atomicLock]
  split
  · rename_i free
    have taken : Inv { state with lock := some task } := by
      refine ⟨fun other holds => ?_, inv.waiting, inv.nodup, fun none => by cases none⟩
      have locked : state.lock = some other := inv.owner other holds
      rw [free] at locked
      cases locked
    exact taken.move (fun _ => rfl) (fun member => absurd member absent) (fun none => by cases none)
  · rename_i locked
    exact inv.move (fun holds => absurd holds outside) (fun member => absurd member absent)
      (fun free => absurd free locked)

/-- A task queues itself only while the mutex is locked. -/
theorem Inv.enqueue (inv : Inv state) (place : state.pc task = .waitSection) :
    Inv (state.enqueue task) := by
  have absent : task ∉ state.wait_list :=
    not_mem_wait_list inv (by rw [place]; simp) (by rw [place]; simp)
  rw [State.enqueue]
  split
  · exact inv.move (fun holds => by cases holds) (fun member => absurd member absent)
      (fun _ waking => by rw [place] at waking; cases waking)
  · rename_i locked
    refine ⟨?_, ?_, ?_, fun free => absurd free locked⟩
    · intro other holds
      obtain ⟨_, held⟩ := State.holding_of_move (by simp) holds
      exact inv.owner other held
    · intro other member
      by_cases same : other = task
      · subst same
        rw [State.move_self]
        exact Or.inl rfl
      · rw [State.move_of_ne same]
        obtain before | own := List.mem_append.mp member
        · exact inv.waiting other before
        · exact absurd (List.mem_singleton.mp own) same
    · show (state.wait_list ++ [task]).Nodup
      rw [List.nodup_append]
      refine ⟨inv.nodup, List.nodup_singleton task, ?_⟩
      intro other before last own same
      rw [List.mem_singleton] at own
      rw [same, own] at before
      exact absent before

/-- The wake-up leaves a task that has not tried again, unless the mutex is locked or nobody
waits. -/
theorem Inv.wakeup (inv : Inv state) (place : state.pc task = .wakeSection) :
    Inv (state.wakeup task) := by
  have absent : task ∉ state.wait_list :=
    not_mem_wait_list inv (by rw [place]; simp) (by rw [place]; simp)
  rw [State.wakeup]
  split
  · cases waiters : state.wait_list with
    | nil =>
      refine ⟨?_, ?_, ?_, fun _ some => absurd waiters some⟩
      · intro other holds
        obtain ⟨_, held⟩ := State.holding_of_move (by simp) holds
        exact inv.owner other held
      · intro other member
        rw [show (state.move task .outside).wait_list = [] from waiters] at member
        cases member
      · exact inv.nodup
    | cons first rest =>
      have member : first ∈ state.wait_list := by
        rw [waiters]
        exact List.mem_cons_self
      have different : first ≠ task := fun same => absent (same ▸ member)
      have nodup := inv.nodup
      rw [waiters, List.nodup_cons] at nodup
      have popped : ((state.pc first).pop).wakes = true := by
        obtain enqueued | suspended := inv.waiting first member
        · rw [enqueued]
          rfl
        · rw [suspended]
          rfl
      have notHolding : (state.pc first).pop ≠ .holding := by
        intro holds
        rw [holds] at popped
        cases popped
      refine ⟨?_, ?_, nodup.2, fun _ _ => ⟨first, ?_⟩⟩
      · intro other holds
        obtain ⟨_, heldBefore⟩ := State.holding_of_move (by simp) holds
        obtain ⟨_, held⟩ := State.holding_of_move notHolding heldBefore
        exact inv.owner other held
      · intro other later
        have inList : other ∈ state.wait_list := by
          rw [waiters]
          exact List.mem_cons_of_mem first later
        have notTask : other ≠ task := fun same => absent (same ▸ inList)
        have notFirst : other ≠ first := fun same => nodup.1 (same ▸ later)
        rw [State.move_of_ne notTask, State.move_of_ne notFirst]
        exact inv.waiting other inList
      · rw [State.move_of_ne different, State.move_self]
        exact popped
  · rename_i locked
    exact inv.move (fun holds => by cases holds) (fun member => absurd member absent)
      (fun free => absurd free locked)

/-- A task that is resumed was taken off the list and still wakes. -/
theorem Inv.resume (inv : Inv state) : Inv (state.move task (state.pc task).resume) := by
  refine inv.move ?_ ?_ ?_
  · intro holds
    cases place : state.pc task with
    | holding => exact inv.owner task place
    | popped yielded =>
      rw [place] at holds
      cases holds
    | _ =>
      rw [place] at holds
      cases holds
  · intro member
    obtain enqueued | suspended := inv.waiting task member
    · rw [enqueued]
      exact Or.inl rfl
    · rw [suspended]
      exact Or.inr rfl
  · intro _ waking
    cases place : state.pc task with
    | popped yielded => rfl
    | _ =>
      rw [place] at waking
      exact waking

/-- A release keeps the invariant, since the releasing task is to wake somebody. -/
theorem Inv.unlock (inv : Inv state) (place : state.pc task = .holding) :
    Inv ({ state with lock := none }.move task .wakeSection) := by
  have owner : state.lock = some task := inv.owner task place
  have absent : task ∉ state.wait_list :=
    not_mem_wait_list inv (by rw [place]; simp) (by rw [place]; simp)
  refine ⟨?_, ?_, inv.nodup, fun _ _ => ⟨task, ?_⟩⟩
  · intro other holds
    obtain ⟨different, held⟩ := State.holding_of_move (by simp) holds
    have same : some task = some other := owner.symm.trans (inv.owner other held)
    exact absurd (Option.some.inj same).symm different
  · intro other member
    have different : other ≠ task := fun same => absent (same ▸ member)
    rw [State.move_of_ne different]
    exact inv.waiting other member
  · rw [State.move_self]
    rfl

/-- A task that is not on the list, and does not wake, goes to a place outside the critical
section. -/
theorem Inv.move_free (inv : Inv state) (place : state.pc task ≠ .enqueued)
    (place' : state.pc task ≠ .suspended) (asleep : (state.pc task).wakes = false)
    (outside : pc ≠ .holding) : Inv (state.move task pc) :=
  inv.move (fun holds => absurd holds outside)
    (fun member => absurd member (not_mem_wait_list inv place place'))
    (fun _ waking => by rw [asleep] at waking; cases waking)

/-- Every step of a task on its way keeps the invariant, by the place it is at. -/
theorem Inv.advance {after : State Task} (inv : Inv state)
    (stepped : step state (.advance task) = some after) : Inv after := by
  rw [step] at stepped
  cases place : state.pc task with
  | outside =>
    rw [place] at stepped
    cases stepped
  | tryLock =>
    rw [place] at stepped
    cases stepped
    exact inv.atomicLock (by rw [place]; simp) (by rw [place]; simp) (by simp)
  | retry =>
    rw [place] at stepped
    cases stepped
    exact inv.atomicLock (by rw [place]; simp) (by rw [place]; simp) (by simp)
  | waitSection =>
    rw [place] at stepped
    cases stepped
    exact inv.enqueue place
  | enqueued =>
    rw [place] at stepped
    cases stepped
    exact inv.move (fun holds => by cases holds) (fun _ => Or.inr rfl)
      (fun _ waking => by rw [place] at waking; cases waking)
  | suspended =>
    rw [place] at stepped
    cases stepped
  | popped yielded =>
    have absent : task ∉ state.wait_list :=
      not_mem_wait_list inv (by rw [place]; simp) (by rw [place]; simp)
    rw [place] at stepped
    cases yielded with
    | false =>
      cases stepped
      exact inv.move (fun holds => by cases holds) (fun member => absurd member absent)
        (fun _ _ => rfl)
    | true => cases stepped
  | resumed yielded =>
    have absent : task ∉ state.wait_list :=
      not_mem_wait_list inv (by rw [place]; simp) (by rw [place]; simp)
    rw [place] at stepped
    cases yielded with
    | false =>
      cases stepped
      exact inv.move (fun holds => by cases holds) (fun member => absurd member absent)
        (fun _ _ => rfl)
    | true =>
      cases stepped
      exact inv.move (fun holds => by cases holds) (fun member => absurd member absent)
        (fun _ _ => rfl)
  | holding =>
    rw [place] at stepped
    cases stepped
  | wakeSection =>
    rw [place] at stepped
    cases stepped
    exact inv.wakeup place
  | resuming other =>
    rw [place] at stepped
    cases stepped
    have resumed : Inv (state.move other (state.pc other).resume) := inv.resume
    have placeAfter : (state.move other (state.pc other).resume).pc task = .resuming other := by
      by_cases same : task = other
      · subst same
        rw [State.move_self, place]
        rfl
      · rw [State.move_of_ne same, place]
    exact resumed.move_free (by rw [placeAfter]; simp) (by rw [placeAfter]; simp)
      (by rw [placeAfter]; rfl) (by simp)

theorem Inv.step {after : State Task} (inv : Inv state) {action : Action Task}
    (stepped : step state action = some after) : Inv after := by
  cases action with
  | lock task =>
    obtain ⟨begins, rfl⟩ := stepped_of_guard stepped
    exact inv.move_free (by rw [begins.1]; simp) (by rw [begins.1]; simp) (by rw [begins.1]; rfl)
      (by simp)
  | tryLock task =>
    obtain ⟨begins, rfl⟩ := stepped_of_guard stepped
    exact inv.atomicLock (by rw [begins.1]; simp) (by rw [begins.1]; simp) (by simp)
  | unlock task =>
    obtain ⟨holds, rfl⟩ := stepped_of_guard stepped
    exact inv.unlock holds.1
  | advance task => exact inv.advance stepped

end Steps

/-! ### Exclusion, and no waiter left behind -/

/-- For any tasks and every interleaving of their steps, at most one task is between a successful
lock and its release; and while the mutex is free and the list is not empty, some task is between
its release and its wake-up section, or was taken off the list and has not tried again. -/
theorem excludes_and_never_strands {state : State Task}
    (reached : Reachable step (initial : State Task) state) :
    (∀ first second, state.pc first = .holding → state.pc second = .holding → first = second) ∧
      (state.lock = none → state.wait_list ≠ [] → ∃ task, state.pc task = .wakeSection ∨
        (∃ yielded, state.pc task = .popped yielded ∨ state.pc task = .resumed yielded) ∨
        state.pc task = .retry) := by
  have inv : Inv state :=
    Reachable.invariant Inv inv_initial (fun _ _ _ inv stepped => inv.step stepped) reached
  constructor
  · intro first second holds holds'
    have same : some first = some second := (inv.owner first holds).symm.trans
      (inv.owner second holds')
    exact Option.some.inj same
  · intro free some
    obtain ⟨task, waking⟩ := inv.wakes free some
    refine ⟨task, ?_⟩
    cases place : state.pc task with
    | wakeSection => exact Or.inl rfl
    | popped yielded => exact Or.inr (Or.inl ⟨yielded, Or.inl rfl⟩)
    | resumed yielded => exact Or.inr (Or.inl ⟨yielded, Or.inr rfl⟩)
    | retry => exact Or.inr (Or.inr rfl)
    | _ =>
      rw [place] at waking
      cases waking

/-- One task locks, another queues itself, the first releases: the mutex is free, the list is not
empty, and the first is before its wake-up section. -/
theorem excludes_and_never_strands_after_release :
    ∃ state : State Bool, Reachable step initial state ∧ state.lock = none ∧
      state.wait_list = [true] ∧ ∃ task, state.pc task = .wakeSection ∨
        (∃ yielded, state.pc task = .popped yielded ∨ state.pc task = .resumed yielded) ∨
        state.pc task = .retry := by
  obtain ⟨state, executed, free, waiters⟩ : ∃ state : State Bool,
      run step initial [.lock false, .advance false, .lock true, .advance true, .advance true,
        .unlock false] = some state ∧ state.lock = none ∧ state.wait_list = [true] :=
    ⟨_, rfl, rfl, rfl⟩
  have reached := reachable_of_run executed
  refine ⟨state, reached, free, waiters, (excludes_and_never_strands reached).2 free ?_⟩
  rw [waiters]
  exact List.cons_ne_nil _ _

end CoMutex

end Nattan
