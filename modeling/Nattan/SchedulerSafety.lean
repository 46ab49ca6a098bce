/-
This file proves that in every run of a scheduler thread the lists of tasks stay well
formed, that no task is on two of them, and that no runnable task is lost.

The lists are described by their contents. Every operation that resumes a task takes it
off whatever list it is on and puts it at the end of the run list; where the code
deletes the link before it resumes the task, the deletion inside `RR_enqueue` finds the
link alone and does nothing. So all ways to resume a task are one, and the runnable
tasks that are not on the run list are, at any moment, only the task that runs.
-/

import Nattan.Scheduler

namespace Nattan

namespace Scheduler

universe u v w

variable {Task : Type u} {Mutex : Type v} {Cond : Type w}
  [DecidableEq Task] [DecidableEq Mutex] [DecidableEq Cond]

/-! ### The contents of the lists -/

/-- A task is taken off whatever list it is on, and put at the end of the run list. -/
def enqueued (contents : Queue Mutex Cond → List Task) (t : Task) :
    Queue Mutex Cond → List Task :=
  appended (fun queue => (contents queue).erase t) .run_list t

/-- The lists have these contents, all tasks on them are live, and every live runnable task is on
the run list, except for some. -/
structure Core (state : State Task Mutex Cond) (contents : Queue Mutex Cond → List Task)
    (exempt : Task → Prop) : Prop where
  rings : Rings state.links contents
  live : ∀ task queue, task ∈ contents queue → task ∈ state.live
  queued : ∀ task ∈ state.live, ¬ exempt task → state.status task = .RUNNABLE →
    task ∈ contents .run_list

/-- Between operations the task that runs is live and on no list, and it is the only runnable task
that is not on the run list. -/
structure Inv (state : State Task Mutex Cond) (contents : Queue Mutex Cond → List Task) : Prop
    extends Core state contents (fun task => state.current = some task) where
  current_live : ∀ self, state.current = some self → self ∈ state.live
  current_alone : ∀ self, state.current = some self → ∀ queue, self ∉ contents queue

section Contents

variable {contents : Queue Mutex Cond → List Task} {queue : Queue Mutex Cond} {t task : Task}

theorem enqueued_of_ne (different : queue ≠ .run_list) :
    enqueued contents t queue = (contents queue).erase t := by
  rw [enqueued, appended, Function.update_of_ne different]

theorem mem_of_mem_enqueued (member : task ∈ enqueued contents t queue) :
    task = t ∨ task ∈ contents queue := by
  obtain before | ⟨own, _⟩ := mem_appended.mp member
  · exact Or.inr (List.mem_of_mem_erase before)
  · exact Or.inl own

theorem mem_enqueued_run_list_self : t ∈ enqueued contents t .run_list :=
  mem_appended.mpr (Or.inr ⟨rfl, rfl⟩)

end Contents

/-! ### What the parts of an operation do to the lists -/

section Parts

variable {state : State Task Mutex Cond} {contents : Queue Mutex Cond → List Task}
  {exempt other : Task → Prop} {t : Task} {status : Status}

omit [DecidableEq Task] [DecidableEq Mutex] [DecidableEq Cond] in
theorem Core.weaken (core : Core state contents exempt) (more : ∀ task, exempt task → other task) :
    Core state contents other :=
  ⟨core.rings, core.live, fun task live apart =>
    core.queued task live fun isExempt => apart (more task isExempt)⟩

omit [DecidableEq Mutex] [DecidableEq Cond] in
theorem Core.setStatus (core : Core state contents exempt) :
    Core (state.setStatus t status) contents (fun task => exempt task ∨ task = t) := by
  refine ⟨core.rings, core.live, ?_⟩
  intro task live apart runnable
  rw [not_or] at apart
  refine core.queued task live apart.1 ?_
  exact (Function.update_of_ne apart.2 ..).symm.trans runnable

theorem Core.list_add_before (core : Core state contents exempt) (live : t ∈ state.live)
    (absent : ∀ queue, t ∉ contents queue) (queue : Queue Mutex Cond) :
    Core (state.list_add_before queue t) (appended contents queue t) exempt := by
  refine ⟨core.rings.list_add_before absent, ?_, ?_⟩
  · intro task list member
    obtain before | ⟨own, _⟩ := mem_appended.mp member
    · exact core.live task list before
    · rw [own]
      exact live
  · intro task isLive apart runnable
    exact mem_appended.mpr (Or.inl (core.queued task isLive apart runnable))

/-- A task that is taken off its list may be runnable and on no list. -/
theorem Core.list_delete (core : Core state contents exempt) (t : Task) :
    Core (state.list_delete t) (fun queue => (contents queue).erase t)
      (fun task => exempt task ∨ task = t) := by
  refine ⟨core.rings.list_delete t, ?_, ?_⟩
  · intro task queue member
    exact core.live task queue (List.mem_of_mem_erase member)
  · intro task live apart runnable
    rw [not_or] at apart
    exact (List.mem_erase_of_ne apart.2).mpr (core.queued task live apart.1 runnable)

theorem Core.RR_enqueue (core : Core state contents exempt) (live : t ∈ state.live) :
    Core (state.RR_enqueue t) (enqueued contents t) (fun task => exempt task ∧ task ≠ t) := by
  have deleted := core.list_delete t
  have added : Core (state.RR_enqueue t) (enqueued contents t)
      (fun task => exempt task ∨ task = t) :=
    deleted.list_add_before live (fun queue => core.rings.notMem_erase queue) .run_list
  refine ⟨added.rings, added.live, ?_⟩
  intro task isLive apart runnable
  by_cases same : task = t
  · rw [same]
    exact mem_enqueued_run_list_self
  · refine added.queued task isLive ?_ runnable
    rintro (isExempt | own)
    · exact apart ⟨isExempt, same⟩
    · exact same own

theorem Core.sched_rq_enqueue (core : Core state contents exempt) (live : t ∈ state.live) :
    Core (state.sched_rq_enqueue t) (enqueued contents t) (fun task => exempt task ∧ task ≠ t) := by
  refine (core.setStatus.RR_enqueue live).weaken ?_
  rintro task ⟨isExempt | own, different⟩
  · exact ⟨isExempt, different⟩
  · exact absurd own different

/-- A task that was taken off its list is resumed as if it had not been. -/
theorem sched_rq_enqueue_list_delete (state : State Task Mutex Cond) (t : Task) :
    (state.list_delete t).sched_rq_enqueue t = state.sched_rq_enqueue t := by
  rw [State.sched_rq_enqueue, State.RR_enqueue, State.sched_rq_enqueue, State.RR_enqueue]
  simp only [State.list_delete, State.setStatus, Links.list_delete_list_delete]

omit [DecidableEq Task] [DecidableEq Mutex] [DecidableEq Cond] in
/-- While no task runs, no task is exempt. -/
theorem inv_of_idle (idle : state.current = none) (core : Core state contents fun _ => False) :
    Inv state contents := by
  refine ⟨core.weaken fun _ impossible => impossible.elim, ?_, ?_⟩
  · intro self running
    rw [idle] at running
    cases running
  · intro self running
    rw [idle] at running
    cases running

/-- What becomes of a task that has yielded. -/
theorem Core.schedulePrevious {self : Task} (core : Core state contents (· = self))
    (live : self ∈ state.live) :
    ∃ contents, Inv (state.schedulePrevious self) contents := by
  have idle : Core { state with current := none } contents (· = self) :=
    ⟨core.rings, core.live, core.queued⟩
  have stays : state.status self ≠ .RUNNABLE →
      Core { state with current := none } contents (fun _ => False) := by
    intro blocked
    refine ⟨core.rings, core.live, ?_⟩
    intro task isLive _ runnable
    refine core.queued task isLive ?_ runnable
    rintro rfl
    exact blocked runnable
  cases shape : state.status self with
  | RUNNABLE =>
    refine ⟨enqueued contents self, ?_⟩
    rw [State.schedulePrevious, shape]
    refine inv_of_idle rfl ((idle.sched_rq_enqueue live).weaken ?_)
    rintro task ⟨own, different⟩
    exact different own
  | KILLED =>
    refine ⟨fun queue => (contents queue).erase self, ?_⟩
    rw [State.schedulePrevious, shape]
    have deleted := idle.list_delete self
    refine inv_of_idle rfl ⟨deleted.rings, ?_, ?_⟩
    · intro task queue member
      have different : task ≠ self := fun same => core.rings.notMem_erase queue (same ▸ member)
      exact List.mem_filter.mpr ⟨deleted.live task queue member, by simpa using different⟩
    · intro task isLive _ runnable
      obtain ⟨wasLive, different⟩ := List.mem_filter.mp isLive
      have apart : task ≠ self := by simpa using different
      exact deleted.queued task wasLive (not_or.mpr ⟨apart, apart⟩) runnable
  | _ =>
    refine ⟨contents, ?_⟩
    rw [State.schedulePrevious, shape]
    exact inv_of_idle rfl (stays (by rw [shape]; simp))

/-- A task that yields, with any status. -/
theorem Core.co_yield {self : Task} (core : Core state contents (· = self))
    (live : self ∈ state.live) (status : Status) :
    ∃ contents, Inv ((state.setStatus self status).co_yield self) contents := by
  have set : Core (state.setStatus self status) contents (· = self) :=
    core.setStatus.weaken fun _ either => either.elim id id
  exact set.schedulePrevious live

/-- The first task on the list of a mutex is woken, if the mutex is free and there is one. -/
theorem mutex_wakeup_task_spec (core : Core state contents exempt) (mutex : Mutex) :
    state.mutex_wakeup_task mutex = some state ∨
      ∃ t ∈ contents (.mutex_wait_list mutex),
        state.mutex_wakeup_task mutex = some (state.sched_rq_enqueue t) := by
  rw [State.mutex_wakeup_task]
  split
  · exact Or.inl rfl
  · dsimp only
    rw [core.rings.list_empty_next, Links.list_next, core.rings.next_head]
    cases shape : contents (.mutex_wait_list mutex) with
    | nil => exact Or.inl rfl
    | cons first rest =>
      refine Or.inr ⟨first, List.mem_cons_self, ?_⟩
      exact congrArg some (sched_rq_enqueue_list_delete state first)

end Parts

/-! ### The operations -/

section Operations

variable {state : State Task Mutex Cond} {contents : Queue Mutex Cond → List Task} {self t : Task}
  {mutex : Mutex} {cond : Cond}

omit [DecidableEq Task] [DecidableEq Mutex] [DecidableEq Cond] in
theorem Inv.self_exempt (inv : Inv state contents) (running : state.current = some self) :
    Core state contents (· = self) := by
  refine inv.toCore.weaken ?_
  intro task own
  exact Option.some.inj (own.symm.trans running)

/-- Another task on the run list does not put the running one on a list. -/
theorem Inv.alone_enqueued (inv : Inv state contents) (waits : state.current ≠ some t) :
    ∀ self, state.current = some self → ∀ queue, self ∉ enqueued contents t queue := by
  intro self running queue member
  obtain own | inside := mem_of_mem_enqueued member
  · exact waits (own ▸ running)
  · exact inv.current_alone self running queue inside

theorem Inv.sched_rq_enqueue (inv : Inv state contents) (live : t ∈ state.live)
    (waits : state.current ≠ some t) : Inv (state.sched_rq_enqueue t) (enqueued contents t) := by
  have core := (inv.toCore.sched_rq_enqueue live).weaken fun _ both => both.1
  exact ⟨core, inv.current_live, inv.alone_enqueued waits⟩

theorem Inv.RR_enqueue (inv : Inv state contents) (live : t ∈ state.live)
    (waits : state.current ≠ some t) : Inv (state.RR_enqueue t) (enqueued contents t) := by
  have core := (inv.toCore.RR_enqueue live).weaken fun _ both => both.1
  exact ⟨core, inv.current_live, inv.alone_enqueued waits⟩

omit [DecidableEq Task] [DecidableEq Mutex] [DecidableEq Cond] in
/-- A task on a list does not run. -/
theorem Inv.ne_current_of_mem {queue : Queue Mutex Cond} (inv : Inv state contents)
    (member : t ∈ contents queue) : state.current ≠ some t :=
  fun running => inv.current_alone t running queue member

theorem Inv.co_create (inv : Inv state contents) (fresh : t ∉ state.live) :
    Inv (state.co_create t) (enqueued contents t) := by
  have absent : ∀ queue, t ∉ contents queue :=
    fun queue member => fresh (inv.live t queue member)
  have created : Inv (state.task_create t) contents := by
    refine ⟨⟨inv.rings.list_init absent, ?_, ?_⟩, ?_, inv.current_alone⟩
    · intro task queue member
      exact List.mem_cons_of_mem t (inv.live task queue member)
    · intro task live apart runnable
      by_cases same : task = t
      · subst same
        cases (Function.update_self ..).symm.trans runnable
      · obtain own | wasLive := List.mem_cons.mp live
        · exact absurd own same
        · refine inv.queued task wasLive apart ?_
          exact (Function.update_of_ne same ..).symm.trans runnable
    · intro self running
      exact List.mem_cons_of_mem t (inv.current_live self running)
  refine created.sched_rq_enqueue List.mem_cons_self ?_
  exact fun running => fresh (inv.current_live t running)

/-- The task `RR_picknext` finds runs, and it is on no list. -/
theorem Inv.scheduleNext (inv : Inv state contents) (idle : state.current = none)
    (found : state.links.list_empty state.RR_picknext = false) :
    ∃ after contents, state.scheduleNext = some after ∧ Inv after contents := by
  rw [State.RR_picknext, inv.rings.list_empty_next] at found
  rw [State.scheduleNext, State.RR_picknext, Links.list_next, inv.rings.next_head]
  cases shape : contents .run_list with
  | nil =>
    rw [shape] at found
    cases found
  | cons first rest =>
    have member : first ∈ contents .run_list := by
      rw [shape]
      exact List.mem_cons_self
    have core : Core state contents fun _ => False := by
      refine inv.toCore.weaken fun _ running => ?_
      rw [idle] at running
      cases running
    have dequeued : Core ((state.RR_dequeue first).setStatus first .RUNNABLE)
        (fun queue => (contents queue).erase first) (fun task => some first = some task) := by
      refine (core.list_delete first).setStatus.weaken ?_
      rintro task ((impossible | own) | own)
      · exact impossible.elim
      · rw [own]
      · rw [own]
    refine ⟨_, fun queue => (contents queue).erase first, rfl,
      ⟨dequeued.rings, dequeued.live, dequeued.queued⟩, ?_, ?_⟩
    · intro self running
      cases running
      exact inv.live first .run_list member
    · intro self running queue
      cases running
      exact inv.rings.notMem_erase queue

theorem Inv.co_yield (inv : Inv state contents) (running : state.current = some self)
    (status : Status) : ∃ contents, Inv ((state.setStatus self status).co_yield self) contents :=
  (inv.self_exempt running).co_yield (inv.current_live self running) status

/-- The mutex is taken, or the task is on its list and yields. -/
theorem Inv.co_mutex_lock (inv : Inv state contents) (running : state.current = some self) :
    ∃ contents, Inv (state.co_mutex_lock self mutex) contents := by
  rw [State.co_mutex_lock]
  split
  · exact ⟨contents, ⟨inv.rings, inv.live, inv.queued⟩, inv.current_live, inv.current_alone⟩
  · rename_i locked
    rw [State.task_wait_mutex, if_neg locked]
    have live := inv.current_live self running
    have added := (inv.self_exempt running).list_add_before live
      (inv.current_alone self running) (.mutex_wait_list mutex)
    exact added.co_yield live .SYS_BLOCK

theorem Inv.co_mutex_unlock (inv : Inv state contents) :
    ∃ after contents, state.co_mutex_unlock mutex = some after ∧ Inv after contents := by
  have released : Inv { state with lock := Function.update state.lock mutex none } contents :=
    ⟨⟨inv.rings, inv.live, inv.queued⟩, inv.current_live, inv.current_alone⟩
  rw [State.co_mutex_unlock]
  obtain unchanged | ⟨t, member, woken⟩ := mutex_wakeup_task_spec released.toCore mutex
  · exact ⟨_, contents, unchanged, released⟩
  · exact ⟨_, enqueued contents t, woken, released.sched_rq_enqueue (inv.live t _ member)
      (inv.ne_current_of_mem member)⟩

/-- The task that waits is on the list of the condition while it releases the mutex. -/
theorem Inv.co_cond_wait (inv : Inv state contents) (running : state.current = some self) :
    ∃ after contents, state.co_cond_wait self cond mutex = some after ∧ Inv after contents := by
  have live := inv.current_live self running
  have added := (inv.self_exempt running).list_add_before live
    (inv.current_alone self running) (.cond_wait_list cond)
  have released : Core { state.list_add_before (.cond_wait_list cond) self with
      lock := Function.update state.lock mutex none } _ (· = self) :=
    ⟨added.rings, added.live, added.queued⟩
  rw [State.co_cond_wait, State.co_mutex_unlock]
  obtain unchanged | ⟨t, member, woken⟩ := mutex_wakeup_task_spec released mutex
  · obtain ⟨contents', inv'⟩ := released.co_yield live .SYS_BLOCK
    exact ⟨_, contents', congrArg (Option.map _) unchanged, inv'⟩
  · have resumed := (released.sched_rq_enqueue (released.live t _ member)).weaken
      fun _ both => both.1
    obtain ⟨contents', inv'⟩ := resumed.co_yield live .SYS_BLOCK
    exact ⟨_, contents', congrArg (Option.map _) woken, inv'⟩

/-- The loop over the tasks that wait for a condition: it always stands at the first of those that
are left. -/
theorem Inv.signalLoop {all : Bool} {turns : Nat} (inv : Inv state contents)
    (enough : (contents (.cond_wait_list cond)).length < turns) :
    ∃ after contents, State.signalLoop all turns
        (state.links.list_next (.head (.cond_wait_list cond))) state = some after ∧
      Inv after contents := by
  induction turns generalizing state contents with
  | zero => omega
  | succ turns inductionHypothesis =>
    rw [State.signalLoop, inv.rings.list_empty_next]
    cases shape : contents (.cond_wait_list cond) with
    | nil => exact ⟨state, contents, rfl, inv⟩
    | cons first rest =>
      have member : first ∈ contents (.cond_wait_list cond) := by
        rw [shape]
        exact List.mem_cons_self
      have linked := inv.rings.linked (.cond_wait_list cond)
      rw [shape] at linked
      have resumed : Inv (state.sched_rq_enqueue first) (enqueued contents first) :=
        inv.sched_rq_enqueue (inv.live first _ member) (inv.ne_current_of_mem member)
      have left : enqueued contents first (.cond_wait_list cond) = rest := by
        rw [enqueued_of_ne (by simp), shape, List.erase_cons_head]
      have at_first : state.links.list_next (.head (.cond_wait_list cond)) = .elem first := linked.1
      have at_second : state.links.list_next (.elem first) =
          (state.sched_rq_enqueue first).links.list_next (.head (.cond_wait_list cond)) := by
        rw [Links.list_next, Links.list_next, resumed.rings.next_head, left]
        exact linked.2.2.next_eq
      rw [at_first, at_second]
      simp only [List.isEmpty_cons, list_to_task, Option.bind_some, sched_rq_enqueue_list_delete]
      cases all with
      | false => exact ⟨_, _, rfl, resumed⟩
      | true =>
        refine inductionHypothesis resumed ?_
        rw [left]
        rw [shape, List.length_cons] at enough
        omega

theorem Inv.co_cond_signal_all (inv : Inv state contents) (all : Bool) :
    ∃ after contents, state.co_cond_signal_all cond all = some after ∧ Inv after contents := by
  have enough : (contents (.cond_wait_list cond)).length < state.live.length + 1 := by
    have subperm := List.subperm_of_subset (inv.rings.nodup (.cond_wait_list cond))
      (inv.live · (.cond_wait_list cond))
    exact Nat.lt_succ_of_le subperm.length_le
  exact inv.signalLoop enough

/-- Every possible action comes to its end and keeps the invariant. -/
theorem Inv.execute (inv : Inv state contents) {action : Action Task Mutex Cond}
    (possible : allowed state action) :
    ∃ after contents, execute state action = some after ∧ Inv after contents := by
  cases action with
  | co_create t => exact ⟨_, _, rfl, inv.co_create possible⟩
  | schedule => exact inv.scheduleNext possible.1 possible.2
  | co_yield self =>
    obtain ⟨contents', inv'⟩ :=
      (inv.self_exempt possible).schedulePrevious (inv.current_live self possible)
    exact ⟨_, contents', rfl, inv'⟩
  | co_io_yield self =>
    obtain ⟨contents', inv'⟩ := inv.co_yield possible .IO_BLOCK
    exact ⟨_, contents', rfl, inv'⟩
  | co_sys_yield self =>
    obtain ⟨contents', inv'⟩ := inv.co_yield possible .SYS_BLOCK
    exact ⟨_, contents', rfl, inv'⟩
  | task_exit self =>
    obtain ⟨contents', inv'⟩ := inv.co_yield possible .KILLED
    exact ⟨_, contents', rfl, inv'⟩
  | co_mutex_lock self mutex =>
    obtain ⟨contents', inv'⟩ := inv.co_mutex_lock possible.1
    exact ⟨_, contents', rfl, inv'⟩
  | co_mutex_unlock self mutex => exact inv.co_mutex_unlock
  | co_cond_wait self cond lock => exact inv.co_cond_wait possible.1
  | co_cond_wait_till self cond lock => exact inv.co_cond_wait possible.1
  | co_cond_signal cond => exact inv.co_cond_signal_all false
  | co_cond_broadcast cond => exact inv.co_cond_signal_all true
  | wakeup self handle =>
    by_cases own : self = handle
    · exact ⟨_, contents, congrArg some (if_pos own), inv⟩
    · refine ⟨_, _, congrArg some (if_neg own), inv.RR_enqueue possible.2 ?_⟩
      rw [possible.1]
      exact fun same => own (Option.some.inj same)
  | event t =>
    refine ⟨_, _, rfl, inv.sched_rq_enqueue possible.2 ?_⟩
    rw [possible.1]
    exact fun impossible => by cases impossible
  | timeout self t =>
    refine ⟨_, _, rfl, inv.sched_rq_enqueue possible.2.2 ?_⟩
    rw [possible.1]
    exact fun same => possible.2.1 (Option.some.inj same).symm

end Operations

/-! ### Every run -/

omit [DecidableEq Task] [DecidableEq Mutex] [DecidableEq Cond] in
theorem inv_initial : Inv (initial : State Task Mutex Cond) fun _ => [] where
  rings := ⟨fun _ => ⟨rfl, rfl⟩, fun _ => List.nodup_nil, (fun _ _ _ member => by cases member),
    fun _ _ => ⟨rfl, rfl⟩⟩
  live := fun _ _ member => by cases member
  queued := fun _ member => by cases member
  current_live := fun _ running => by cases running
  current_alone := fun _ running => by cases running

theorem inv_of_reachable {state : State Task Mutex Cond}
    (reached : Reachable step initial state) : ∃ contents, Inv state contents := by
  refine Reachable.invariant (fun state => ∃ contents, Inv state contents)
    ⟨_, inv_initial⟩ ?_ reached
  rintro before action after ⟨contents, inv⟩ stepped
  rw [step] at stepped
  split at stepped
  · rename_i possible
    obtain ⟨after', contents', executed, inv'⟩ := inv.execute possible
    rw [executed] at stepped
    cases stepped
    exact ⟨contents', inv'⟩
  · cases stepped

/-- In every run the run list and the lists of all mutexes and conditions are circular doubly linked
lists; no task is on two of them or twice on one; the task that runs is on none; and every other
live task that is runnable is on the run list. No possible action goes astray. -/
theorem on_one_list_and_none_lost {state : State Task Mutex Cond}
    (reached : Reachable step initial state) :
    (∃ contents : Queue Mutex Cond → List Task,
      (∀ queue, state.links.Linked (.head queue) ((contents queue).map .elem) (.head queue)) ∧
      (∀ queue, (contents queue).Nodup) ∧
      (∀ task first second, task ∈ contents first → task ∈ contents second → first = second) ∧
      (∀ self, state.current = some self → ∀ queue, self ∉ contents queue) ∧
      ∀ task ∈ state.live, state.current ≠ some task → state.status task = .RUNNABLE →
        task ∈ contents .run_list) ∧
    ∀ action, allowed state action → ∃ after, step state action = some after := by
  obtain ⟨contents, inv⟩ := inv_of_reachable reached
  refine ⟨⟨contents, inv.rings.linked, inv.rings.nodup, inv.rings.disjoint, inv.current_alone,
    inv.queued⟩, ?_⟩
  intro action possible
  obtain ⟨after, _, executed, _⟩ := inv.execute possible
  refine ⟨after, ?_⟩
  rw [step, if_pos possible]
  exact executed

/-- Two tasks wait for a condition, one of them with a time limit; its timer resumes it, a third
task runs and signals both, and wakes the first once more. -/
theorem on_one_list_and_none_lost_after_broadcast :
    ∃ state : State Nat Unit Unit, Reachable step initial state ∧ state.current = some 2 ∧
      ∃ contents : Queue Unit Unit → List Nat,
        (∀ queue, state.links.Linked (.head queue) ((contents queue).map .elem) (.head queue)) ∧
        0 ∈ contents .run_list ∧ 1 ∈ contents .run_list ∧ ∀ queue, 2 ∉ contents queue := by
  obtain ⟨state, executed, current, live, first, second⟩ : ∃ state : State Nat Unit Unit,
      run step initial [.co_create 0, .co_create 1, .co_create 2, .schedule, .co_mutex_lock 0 (),
        .co_cond_wait_till 0 () (), .schedule, .co_mutex_lock 1 (), .co_cond_wait 1 () (),
        .event 0, .schedule, .co_cond_broadcast (), .wakeup 2 0] = some state ∧
      state.current = some 2 ∧ state.live = [2, 1, 0] ∧ state.status 0 = .RUNNABLE ∧
      state.status 1 = .RUNNABLE :=
    ⟨Option.get _ (by decide +kernel), (Option.some_get _).symm, by decide +kernel,
      by decide +kernel, by decide +kernel, by decide +kernel⟩
  have reached := reachable_of_run executed
  obtain ⟨⟨contents, linked, _, _, alone, queued⟩, _⟩ := on_one_list_and_none_lost reached
  refine ⟨state, reached, current, contents, linked, queued 0 ?_ ?_ first, queued 1 ?_ ?_ second,
    alone 2 current⟩
  · rw [live]
    decide
  · rw [current]
    decide
  · rw [live]
    decide
  · rw [current]
    decide

end Scheduler

end Nattan
