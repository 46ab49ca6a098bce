/-
This file proves that the run list is served round robin: a task on it runs after at
most as many other tasks as were ahead of it, whatever the tasks that run in between
do.

A task on the run list is on no other list, so no mutex and no condition resumes it.
Only an event, a timer or `Task::wakeup` can name it, and `RR_enqueue` then moves it to
the end of the run list: a task that is resumed again before its turn loses its place.
Every other action leaves the task where it is or takes one of the tasks ahead of it
away, and every dispatch takes the first one away.
-/

import Nattan.SchedulerSafety

namespace Nattan

namespace Scheduler

universe u v w

variable {Task : Type u} {Mutex : Type v} {Cond : Type w}
  [DecidableEq Task] [DecidableEq Mutex] [DecidableEq Cond]

/-- The action may put a task on the run list that is there already. -/
def Resumes (t : Task) : Action Task Mutex Cond → Prop
  | .wakeup _ handle => handle = t
  | .event other | .timeout _ other => other = t
  | _ => False

instance (t : Task) (action : Action Task Mutex Cond) : Decidable (Resumes t action) :=
  match action with
  | .wakeup _ _ | .event _ | .timeout _ _ => inferInstanceAs (Decidable (_ = _))
  | .co_create _ | .schedule | .co_yield _ | .co_io_yield _ | .co_sys_yield _ | .task_exit _
  | .co_mutex_lock _ _ | .co_mutex_unlock _ _ | .co_cond_wait _ _ _ | .co_cond_wait_till _ _ _
  | .co_cond_signal _ | .co_cond_broadcast _ => inferInstanceAs (Decidable False)

/-- The task is on the run list, with at most so many tasks ahead of it. -/
def QueuedBehind (state : State Task Mutex Cond) (t : Task) (ahead : Nat) : Prop :=
  ∃ order : List Task,
    state.links.Linked (.head .run_list) (order.map .elem) (.head .run_list) ∧
      t ∈ order ∧ order.idxOf t ≤ ahead

/-! ### The place of a task on the run list -/

/-- The place of a task, by the contents of the lists. -/
structure Place (contents : Queue Mutex Cond → List Task) (t : Task) (ahead : Nat) : Prop where
  queued : t ∈ contents .run_list
  behind : (contents .run_list).idxOf t ≤ ahead

/-- The lists have contents in which the task has this place. -/
def Keeps (state : State Task Mutex Cond) (t : Task) (ahead : Nat) : Prop :=
  ∃ contents, Rings state.links contents ∧ Place contents t ahead

section Places

variable {contents : Queue Mutex Cond → List Task} {state : State Task Mutex Cond}
  {t other : Task} {ahead : Nat}

theorem idxOf_erase_le (order : List Task) (different : other ≠ t) :
    (order.erase other).idxOf t ≤ order.idxOf t := by
  induction order with
  | nil => exact Nat.le_refl _
  | cons first rest inductionHypothesis =>
    by_cases own : first = other
    · subst own
      rw [List.erase_cons_head, List.idxOf_cons_ne _ different]
      exact Nat.le_succ _
    · rw [List.erase_cons_tail (by simpa using own)]
      by_cases same : first = t
      · rw [List.idxOf_cons_eq _ same]
        exact Nat.zero_le _
      · rw [List.idxOf_cons_ne _ same, List.idxOf_cons_ne _ same]
        exact Nat.succ_le_succ inductionHypothesis

omit [DecidableEq Mutex] [DecidableEq Cond] in
/-- Another task leaves its list. -/
theorem Place.erase (place : Place contents t ahead) (different : other ≠ t) :
    Place (fun queue => (contents queue).erase other) t ahead :=
  ⟨(List.mem_erase_of_ne different.symm).mpr place.queued,
    Nat.le_trans (idxOf_erase_le _ different) place.behind⟩

/-- Another task is put at the end of a list. -/
theorem Place.appended (place : Place contents t ahead) (queue : Queue Mutex Cond) (other : Task) :
    Place (appended contents queue other) t ahead := by
  refine ⟨mem_appended.mpr (Or.inl place.queued), ?_⟩
  by_cases own : queue = .run_list
  · rw [Nattan.appended, own, Function.update_self, List.idxOf_append_of_mem place.queued]
    exact place.behind
  · rw [Nattan.appended, Function.update_of_ne (Ne.symm own)]
    exact place.behind

theorem Keeps.list_delete (keeps : Keeps state t ahead) (different : other ≠ t) :
    Keeps (state.list_delete other) t ahead := by
  obtain ⟨contents, rings, place⟩ := keeps
  exact ⟨_, rings.list_delete other, place.erase different⟩

theorem Keeps.RR_enqueue (keeps : Keeps state t ahead) (different : other ≠ t) :
    Keeps (state.RR_enqueue other) t ahead := by
  obtain ⟨contents, rings, place⟩ := keeps
  exact ⟨_, (rings.list_delete other).list_add_before fun queue => rings.notMem_erase queue,
    (place.erase different).appended _ _⟩

theorem Keeps.sched_rq_enqueue (keeps : Keeps state t ahead) (different : other ≠ t) :
    Keeps (state.sched_rq_enqueue other) t ahead :=
  show Keeps ((state.setStatus other .RUNNABLE).RR_enqueue other) t ahead from
    Keeps.RR_enqueue keeps different

/-- A task that is on no list goes to the end of one. -/
theorem Place.list_add_before (place : Place contents t ahead) (rings : Rings state.links contents)
    (absent : ∀ queue, other ∉ contents queue) (queue : Queue Mutex Cond) :
    Keeps (state.list_add_before queue other) t ahead :=
  ⟨_, rings.list_add_before absent, place.appended queue other⟩

/-- What becomes of another task that has yielded. -/
theorem Keeps.schedulePrevious (keeps : Keeps state t ahead) (different : other ≠ t) :
    Keeps (state.schedulePrevious other) t ahead := by
  cases shape : state.status other with
  | RUNNABLE =>
    rw [State.schedulePrevious, shape]
    exact show Keeps (State.sched_rq_enqueue { state with current := none } other) t ahead from
      Keeps.sched_rq_enqueue keeps different
  | KILLED =>
    rw [State.schedulePrevious, shape]
    exact show Keeps (State.list_delete { state with current := none } other) t ahead from
      Keeps.list_delete keeps different
  | _ =>
    rw [State.schedulePrevious, shape]
    exact keeps

theorem Keeps.co_yield (keeps : Keeps state t ahead) (different : other ≠ t) (status : Status) :
    Keeps ((state.setStatus other status).co_yield other) t ahead :=
  show Keeps ((state.setStatus other status).schedulePrevious other) t ahead from
    Keeps.schedulePrevious keeps different

end Places

/-! ### What an action does to the place -/

section Actions

variable {state after : State Task Mutex Cond} {contents : Queue Mutex Cond → List Task}
  {self t other : Task} {mutex : Mutex} {cond : Cond} {ahead : Nat}

/-- The task that a mutex wakes is not on the run list. -/
theorem Place.mutex_wakeup_task (place : Place contents t ahead)
    {exempt : Task → Prop} (core : Core state contents exempt)
    (woken : state.mutex_wakeup_task mutex = some after) : Keeps after t ahead := by
  obtain unchanged | ⟨waiter, member, resumed⟩ := mutex_wakeup_task_spec core mutex
  · cases woken.symm.trans unchanged
    exact ⟨contents, core.rings, place⟩
  · cases woken.symm.trans resumed
    refine Keeps.sched_rq_enqueue ⟨contents, core.rings, place⟩ ?_
    rintro rfl
    cases core.rings.disjoint _ _ _ member place.queued

/-- The tasks that a signal resumes are not on the run list. -/
theorem Place.signalLoop {all : Bool} {turns : Nat} (place : Place contents t ahead)
    (inv : Inv state contents)
    (signalled : State.signalLoop all turns
      (state.links.list_next (.head (.cond_wait_list cond))) state = some after) :
    Keeps after t ahead := by
  induction turns generalizing state contents with
  | zero => cases signalled
  | succ turns inductionHypothesis =>
    rw [State.signalLoop, inv.rings.list_empty_next] at signalled
    cases shape : contents (.cond_wait_list cond) with
    | nil =>
      rw [shape] at signalled
      cases signalled
      exact ⟨contents, inv.rings, place⟩
    | cons first rest =>
      have member : first ∈ contents (.cond_wait_list cond) := by
        rw [shape]
        exact List.mem_cons_self
      have different : first ≠ t := by
        rintro rfl
        cases inv.rings.disjoint _ _ _ member place.queued
      have resumed : Inv (state.sched_rq_enqueue first) (enqueued contents first) :=
        inv.sched_rq_enqueue (inv.live first _ member) (inv.ne_current_of_mem member)
      have moved : Place (enqueued contents first) t ahead :=
        (place.erase different).appended _ _
      have linked := inv.rings.linked (.cond_wait_list cond)
      rw [shape] at linked
      have left : enqueued contents first (.cond_wait_list cond) = rest := by
        rw [enqueued_of_ne (by simp), shape, List.erase_cons_head]
      have at_first : state.links.list_next (.head (.cond_wait_list cond)) = .elem first := linked.1
      have at_second : state.links.list_next (.elem first) =
          (state.sched_rq_enqueue first).links.list_next (.head (.cond_wait_list cond)) := by
        rw [Links.list_next, Links.list_next, resumed.rings.next_head, left]
        exact linked.2.2.next_eq
      rw [shape, at_first, at_second] at signalled
      simp only [List.isEmpty_cons, Bool.false_eq_true, if_false, list_to_task, Option.bind_some,
        sched_rq_enqueue_list_delete] at signalled
      cases all with
      | false =>
        cases signalled
        exact ⟨_, resumed.rings, moved⟩
      | true => exact inductionHypothesis moved resumed signalled

/-- The mutex is taken, or the task that runs goes to its list. -/
theorem Place.co_mutex_lock (place : Place contents t ahead) (inv : Inv state contents)
    (running : state.current = some self) (different : self ≠ t) :
    Keeps (state.co_mutex_lock self mutex) t ahead := by
  rw [State.co_mutex_lock]
  split
  · exact ⟨contents, inv.rings, place⟩
  · rename_i locked
    rw [State.task_wait_mutex, if_neg locked]
    exact (place.list_add_before inv.rings (inv.current_alone self running)
      (.mutex_wait_list mutex)).co_yield different .SYS_BLOCK

theorem Place.co_mutex_unlock (place : Place contents t ahead) (inv : Inv state contents)
    (unlocked : state.co_mutex_unlock mutex = some after) : Keeps after t ahead := by
  have released : Core { state with lock := Function.update state.lock mutex none } contents
      (fun task => state.current = some task) :=
    ⟨inv.rings, inv.live, inv.queued⟩
  exact place.mutex_wakeup_task released unlocked

/-- The task that runs goes to the list of the condition, and the mutex wakes its first waiter. -/
theorem Place.co_cond_wait (place : Place contents t ahead) (inv : Inv state contents)
    (running : state.current = some self) (different : self ≠ t)
    (waiting : state.co_cond_wait self cond mutex = some after) : Keeps after t ahead := by
  have added := (inv.self_exempt running).list_add_before (inv.current_live self running)
    (inv.current_alone self running) (.cond_wait_list cond)
  have released : Core { state.list_add_before (.cond_wait_list cond) self with
      lock := Function.update state.lock mutex none } _ (· = self) :=
    ⟨added.rings, added.live, added.queued⟩
  rw [State.co_cond_wait] at waiting
  obtain ⟨unlocked, woken, yielded⟩ := Option.map_eq_some_iff.mp waiting
  rw [← yielded]
  exact ((place.appended _ self).mutex_wakeup_task released woken).co_yield different .SYS_BLOCK

/-- A dispatch takes the first task: the task itself, or one of those ahead of it. -/
theorem Place.scheduleNext (place : Place contents t ahead) (inv : Inv state contents)
    (dispatched : state.scheduleNext = some after) :
    after.current = some t ∨ ∃ fewer, ahead = fewer + 1 ∧ Keeps after t fewer := by
  rw [State.scheduleNext, State.RR_picknext, Links.list_next, inv.rings.next_head] at dispatched
  cases shape : contents .run_list with
  | nil => exact absurd (shape ▸ place.queued) List.not_mem_nil
  | cons first rest =>
    rw [shape] at dispatched
    cases dispatched
    by_cases same : first = t
    · exact Or.inl (congrArg some same)
    · have queued := place.queued
      have behind := place.behind
      rw [shape, List.idxOf_cons_ne _ same] at behind
      rw [shape] at queued
      refine Or.inr ⟨ahead - 1, by omega, fun queue => (contents queue).erase first,
        inv.rings.list_delete first, ?_, ?_⟩
      · rw [shape, List.erase_cons_head]
        exact List.mem_of_ne_of_mem (Ne.symm same) queued
      · rw [shape, List.erase_cons_head]
        omega

/-- The other actions leave the task its place, unless they resume it. -/
theorem Place.execute (place : Place contents t ahead) (inv : Inv state contents)
    {action : Action Task Mutex Cond} (possible : allowed state action)
    (left : ¬ Resumes t action) (executed : execute state action = some after)
    (other : action ≠ .schedule) : Keeps after t ahead := by
  have keeps : Keeps state t ahead := ⟨contents, inv.rings, place⟩
  have waits : ∀ self, state.current = some self → self ≠ t := by
    rintro self running rfl
    exact inv.current_alone self running .run_list place.queued
  cases action with
  | co_create fresh =>
    cases executed
    have absent : ∀ queue, fresh ∉ contents queue :=
      fun queue member => possible (inv.live fresh queue member)
    have created : Keeps (state.task_create fresh) t ahead :=
      ⟨contents, inv.rings.list_init absent, place⟩
    refine created.sched_rq_enqueue ?_
    rintro rfl
    exact absent .run_list place.queued
  | schedule => exact absurd rfl other
  | co_yield self =>
    cases executed
    exact keeps.schedulePrevious (waits self possible)
  | co_io_yield self =>
    cases executed
    exact keeps.co_yield (waits self possible) .IO_BLOCK
  | co_sys_yield self =>
    cases executed
    exact keeps.co_yield (waits self possible) .SYS_BLOCK
  | task_exit self =>
    cases executed
    exact keeps.co_yield (waits self possible) .KILLED
  | co_mutex_lock self mutex =>
    cases executed
    exact place.co_mutex_lock inv possible.1 (waits self possible.1)
  | co_mutex_unlock self mutex => exact place.co_mutex_unlock inv executed
  | co_cond_wait self cond lock =>
    exact place.co_cond_wait inv possible.1 (waits self possible.1) executed
  | co_cond_wait_till self cond lock =>
    exact place.co_cond_wait inv possible.1 (waits self possible.1) executed
  | co_cond_signal cond => exact place.signalLoop inv executed
  | co_cond_broadcast cond => exact place.signalLoop inv executed
  | wakeup self handle =>
    cases executed
    by_cases own : self = handle
    · rw [State.wakeup, if_pos own]
      exact keeps
    · rw [State.wakeup, if_neg own]
      exact keeps.RR_enqueue left
  | event woken =>
    cases executed
    exact keeps.sched_rq_enqueue left
  | timeout self woken =>
    cases executed
    exact keeps.sched_rq_enqueue left

end Actions

/-! ### Every run -/

omit [DecidableEq Mutex] [DecidableEq Cond] in
theorem QueuedBehind.place {state : State Task Mutex Cond}
    {contents : Queue Mutex Cond → List Task} {t : Task} {ahead : Nat}
    (waits : QueuedBehind state t ahead) (inv : Inv state contents) : Place contents t ahead := by
  obtain ⟨order, linked, queued, behind⟩ := waits
  rw [inv.rings.eq_contents linked] at queued behind
  exact ⟨queued, behind⟩

omit [DecidableEq Mutex] [DecidableEq Cond] in
theorem Keeps.queuedBehind {state : State Task Mutex Cond} {t : Task} {ahead : Nat}
    (keeps : Keeps state t ahead) : QueuedBehind state t ahead := by
  obtain ⟨contents, rings, place⟩ := keeps
  exact ⟨contents .run_list, rings.linked .run_list, place.queued, place.behind⟩

/-- One step: the task is dispatched, or the dispatches so far and the tasks still ahead are
accounted for. -/
theorem QueuedBehind.step {state after : State Task Mutex Cond} {t : Task} {ahead : Nat}
    (waits : QueuedBehind state t ahead) (reached : Reachable step initial state)
    {action : Action Task Mutex Cond} (left : ¬ Resumes t action)
    (stepped : step state action = some after) :
    after.current = some t ∨ ∃ fewer, QueuedBehind after t fewer ∧
      fewer + [action].count .schedule ≤ ahead := by
  obtain ⟨contents, inv⟩ := inv_of_reachable reached
  obtain ⟨possible, executed⟩ : allowed state action ∧ execute state action = some after :=
    Option.ite_none_right_eq_some.mp stepped
  by_cases dispatch : action = .schedule
  · subst dispatch
    obtain dispatched | ⟨fewer, account, keeps⟩ := (waits.place inv).scheduleNext inv executed
    · exact Or.inl dispatched
    · refine Or.inr ⟨fewer, keeps.queuedBehind, ?_⟩
      rw [List.count_singleton_self]
      exact Nat.le_of_eq account.symm
  · have keeps := (waits.place inv).execute inv possible left executed dispatch
    have uncounted : [action].count .schedule = 0 :=
      List.count_eq_zero.mpr fun member => dispatch (List.mem_singleton.mp member).symm
    exact Or.inr ⟨ahead, keeps.queuedBehind, by omega⟩

/-- A task on the run list with so many tasks ahead of it runs at the latest by the dispatch after
that many others, in every run that does not resume it once more. -/
theorem runs_in_turn {state after : State Task Mutex Cond}
    (reached : Reachable step initial state) {t : Task} {ahead : Nat}
    (waits : QueuedBehind state t ahead) {actions : List (Action Task Mutex Cond)}
    (executed : run step state actions = some after)
    (left : ∀ action ∈ actions, ¬ Resumes t action) (turns : ahead < actions.count .schedule) :
    ∃ front between, front <+: actions ∧ run step state front = some between ∧
      between.current = some t := by
  induction actions generalizing state ahead with
  | nil =>
    rw [List.count_nil] at turns
    omega
  | cons action rest inductionHypothesis =>
    rw [run, runBy, if_pos trivial] at executed
    cases stepped : step state action with
    | none =>
      rw [stepped] at executed
      cases executed
    | some next =>
      rw [stepped] at executed
      have runs : ∀ front, run step next front = run step state (action :: front) := by
        intro front
        rw [run, runBy, if_pos trivial, stepped]
      obtain dispatched | ⟨fewer, queued, account⟩ :=
        waits.step reached (left action List.mem_cons_self) stepped
      · exact ⟨[action], next, List.prefix_append [action] rest, (runs []).symm, dispatched⟩
      · rw [← List.singleton_append, List.count_append] at turns
        obtain ⟨front, between, inside, ran, dispatched⟩ :=
          inductionHypothesis (reached.tail ⟨action, trivial, stepped⟩) queued executed
            (fun action member => left action (List.mem_cons_of_mem _ member)) (by omega)
        exact ⟨action :: front, between, (List.prefix_cons_inj action).mpr inside,
          (runs front).symm.trans ran, dispatched⟩

/-- Three tasks are on the run list, and the first two only yield. -/
theorem runs_in_turn_third : ∃ state : State Nat Unit Unit, QueuedBehind state 2 2 ∧
    ∃ front between, front <+: [.schedule, .co_yield 0, .schedule, .co_yield 1, .schedule] ∧
      run step state front = some between ∧ between.current = some 2 := by
  obtain ⟨state, created, waits, after, executed⟩ : ∃ state : State Nat Unit Unit,
      run step initial [.co_create 0, .co_create 1, .co_create 2] = some state ∧
      QueuedBehind state 2 2 ∧ ∃ after,
        run step state [.schedule, .co_yield 0, .schedule, .co_yield 1, .schedule] = some after :=
    ⟨Option.get _ (by decide +kernel), (Option.some_get _).symm,
      ⟨[0, 1, 2], ⟨by decide +kernel, by decide +kernel, by decide +kernel, by decide +kernel,
        by decide +kernel, by decide +kernel, by decide +kernel, by decide +kernel⟩, by decide,
        by decide⟩,
      Option.get _ (by decide +kernel), (Option.some_get _).symm⟩
  exact ⟨state, waits, runs_in_turn (reachable_of_run created) waits executed (by decide)
    (by decide)⟩

end Scheduler

end Nattan
