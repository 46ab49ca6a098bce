/-
This file models the wake-ups of a condition among the schedulers of several threads, and
proves which tasks a signal and a broadcast resume.

The loop of `_co_cond_signal_all` takes the tasks off the list it walks. It reads the next
node before it unlinks a task, and stops at a node that is an empty list. The links of a
task that was resumed lead into the run list of its scheduler, so the loop must never
look at them again, and the head of the wait list is an empty list only when the last task
has left it. The tasks that were resumed are collected in the order of the resumptions.
-/

import Nattan.Scheduler

namespace Nattan

namespace CoCond

open Scheduler (Status)

universe u v w

/-- The lists a task may be on: the run list of a scheduler, and the list of a condition. -/
inductive Queue (Sched : Type v) (Cond : Type w) where
  | run_list (sched : Sched)
  | wait_list (cond : Cond)
  deriving DecidableEq, Repr

variable {Task : Type u} {Sched : Type v} {Cond : Type w}
  [DecidableEq Task] [DecidableEq Sched] [DecidableEq Cond]

/-- The links and the fields of the tasks, the scheduler of the thread that signals, and the
schedulers to whose pipes it has written. A task has no scheduler before it is first enqueued, or
when its scheduler was destroyed. -/
structure State (Task : Type u) (Sched : Type v) (Cond : Type w) where
  links : Links (Node (Queue Sched Cond) Task)
  status : Task → Status
  sched : Task → Option Sched
  g_sched : Sched
  active : List Sched

namespace State

/-- The scheduler a task is enqueued at. -/
def schedOf (state : State Task Sched Cond) (t : Task) : Sched :=
  (state.sched t).getD state.g_sched

def list_delete (state : State Task Sched Cond) (t : Task) : State Task Sched Cond :=
  { state with links := state.links.list_delete (.elem t) }

def list_add_before (state : State Task Sched Cond) (queue : Queue Sched Cond) (t : Task) :
    State Task Sched Cond :=
  { state with links := state.links.list_add_before (.head queue) (.elem t) }

def RR_enqueue (state : State Task Sched Cond) (rq : Sched) (t : Task) : State Task Sched Cond :=
  (state.list_delete t).list_add_before (.run_list rq) t

def sched_active_event (state : State Task Sched Cond) (sched : Sched) : State Task Sched Cond :=
  { state with active := state.active ++ [sched] }

/-- `sched_rq_enqueue`, which is `co_resume`. -/
def sched_rq_enqueue (state : State Task Sched Cond) (t : Task) : State Task Sched Cond :=
  let sched := state.schedOf t
  let state := { state with
    status := Function.update state.status t .RUNNABLE
    sched := Function.update state.sched t (some sched) }
  let state := state.RR_enqueue sched t
  if state.g_sched ≠ sched then state.sched_active_event sched else state

/-- What `co_cond_wait` and `co_cond_wait_till` do to the list of the condition. -/
def co_cond_wait (state : State Task Sched Cond) (self : Task) (cond : Cond) :
    State Task Sched Cond :=
  state.list_add_before (.wait_list cond) self

/-- The loop of `_co_cond_signal_all`, and the tasks it has resumed. A head is not part of a task.
-/
def signalLoop (all : Bool) : Nat → State Task Sched Cond → Node (Queue Sched Cond) Task →
    List Task → Option (State Task Sched Cond × List Task)
  | 0, _, _, _ => none
  | fuel + 1, state, ls, resumed =>
    if state.links.list_empty ls then some (state, resumed)
    else
      match ls with
      | .head _ => none
      | .elem t =>
        let next := state.links.list_next ls
        let state := (state.list_delete t).sched_rq_enqueue t
        if all then signalLoop all fuel state next (resumed ++ [t])
        else some (state, resumed ++ [t])

/-- `_co_cond_signal_all`. -/
def co_cond_signal_all (fuel : Nat) (state : State Task Sched Cond) (cond : Cond) (all : Bool) :
    Option (State Task Sched Cond × List Task) :=
  signalLoop all fuel state (state.links.list_next (.head (.wait_list cond))) []

def co_cond_signal (fuel : Nat) (state : State Task Sched Cond) (cond : Cond) :
    Option (State Task Sched Cond × List Task) :=
  co_cond_signal_all fuel state cond false

def co_cond_broadcast (fuel : Nat) (state : State Task Sched Cond) (cond : Cond) :
    Option (State Task Sched Cond × List Task) :=
  co_cond_signal_all fuel state cond true

/-! ### What is resumed -/

/-- These tasks, in this order, were taken off the list of the condition, which has the others
left. They are runnable, and at the end of the run lists of their schedulers. No other list has
changed. -/
structure Resumes (state after : State Task Sched Cond)
    (contents contents' : Queue Sched Cond → List Task) (cond : Cond) (tasks left : List Task) :
    Prop where
  rings : Rings after.links contents'
  waiting : contents' (.wait_list cond) = left
  others : ∀ other, other ≠ cond → contents' (.wait_list other) = contents (.wait_list other)
  running : ∀ sched, contents' (.run_list sched) =
    contents (.run_list sched) ++ tasks.filter fun t => decide (state.schedOf t = sched)
  status : ∀ t, after.status t = if t ∈ tasks then .RUNNABLE else state.status t
  active : after.active =
    state.active ++ (tasks.map state.schedOf).filter fun sched => decide (state.g_sched ≠ sched)

variable {state after : State Task Sched Cond} {contents contents' : Queue Sched Cond → List Task}
  {cond : Cond} {t : Task} {tasks left : List Task}

/-- A resumption in the loop. The second `list_delete`, in `RR_enqueue`, finds the link alone. -/
theorem resume_eq (state : State Task Sched Cond) (t : Task) :
    (state.list_delete t).sched_rq_enqueue t =
      { links := (state.links.list_delete (.elem t)).list_add_before
          (.head (.run_list (state.schedOf t))) (.elem t)
        status := Function.update state.status t .RUNNABLE
        sched := Function.update state.sched t (some (state.schedOf t))
        g_sched := state.g_sched
        active := state.active ++
          [state.schedOf t].filter fun sched => decide (state.g_sched ≠ sched) } := by
  have alone : (state.links.list_delete (.elem t)).list_delete (.elem t) =
      state.links.list_delete (Node.elem t) := Links.list_delete_list_delete
  by_cases other : state.g_sched ≠ state.schedOf t
  · have written : [state.schedOf t].filter (fun sched => decide (state.g_sched ≠ sched)) =
        [state.schedOf t] := by simp [other]
    rw [written, ← alone]
    exact if_pos other
  · have silent : [state.schedOf t].filter (fun sched => decide (state.g_sched ≠ sched)) = [] := by
      simp [not_not.mp other]
    rw [silent, List.append_nil, ← alone]
    exact if_neg other

/-- No task changes its scheduler by a resumption. -/
theorem schedOf_sched_rq_enqueue (state : State Task Sched Cond) (t other : Task) :
    ((state.list_delete t).sched_rq_enqueue t).schedOf other = state.schedOf other := by
  rw [resume_eq]
  show (Function.update state.sched t (some (state.schedOf t)) other).getD state.g_sched = _
  by_cases own : other = t
  · rw [own, Function.update_self, Option.getD_some]
  · rw [Function.update_of_ne own, schedOf]

/-- A wake-up of the first task that waits. -/
theorem resumes_first (rings : Rings state.links contents)
    (shape : contents (.wait_list cond) = t :: left) :
    Resumes state ((state.list_delete t).sched_rq_enqueue t) contents
      (appended (fun queue => (contents queue).erase t) (.run_list (state.schedOf t)) t) cond [t]
      left := by
  have member : t ∈ contents (.wait_list cond) := by
    rw [shape]
    exact List.mem_cons_self
  have only : ∀ queue, queue ≠ .wait_list cond → (contents queue).erase t = contents queue :=
    fun queue different => List.erase_of_not_mem
      fun inside => different (rings.disjoint t queue _ inside member)
  rw [resume_eq]
  refine ⟨?_, ?_, ?_, ?_, ?_, rfl⟩
  · exact (rings.list_delete t).list_add_before fun queue => rings.notMem_erase queue
  · rw [appended, Function.update_of_ne (by simp), shape, List.erase_cons_head]
  · intro other different
    rw [appended, Function.update_of_ne (by simp), only _ (by simp [different])]
  · intro sched
    rw [appended]
    by_cases own : sched = state.schedOf t
    · rw [own, Function.update_self, only _ (by simp), List.filter_cons_of_pos (by simp),
        List.filter_nil]
    · rw [Function.update_of_ne (by simp [own]), only _ (by simp),
        List.filter_cons_of_neg (by simp [Ne.symm own]), List.filter_nil, List.append_nil]
  · intro other
    by_cases own : other = t
    · rw [own, if_pos List.mem_cons_self]
      exact Function.update_self ..
    · rw [if_neg (by simp [own])]
      exact Function.update_of_ne own ..

omit [DecidableEq Cond] in
/-- Wake-ups one after the other. -/
theorem Resumes.trans {middle : State Task Sched Cond}
    {between : Queue Sched Cond → List Task} {rest : List Task}
    (first : Resumes state middle contents between cond tasks (rest ++ left))
    (second : Resumes middle after between contents' cond rest left)
    (same : ∀ t, middle.schedOf t = state.schedOf t) (here : middle.g_sched = state.g_sched) :
    Resumes state after contents contents' cond (tasks ++ rest) left := by
  refine ⟨second.rings, second.waiting, ?_, ?_, ?_, ?_⟩
  · intro other different
    rw [second.others other different, first.others other different]
  · intro sched
    rw [second.running, first.running, List.append_assoc, List.filter_append]
    simp only [same]
  · intro t
    rw [second.status, first.status]
    simp only [List.mem_append]
    by_cases inRest : t ∈ rest
    · rw [if_pos inRest, if_pos (Or.inr inRest)]
    · simp only [inRest, if_false, or_false]
  · rw [second.active, first.active, List.append_assoc, List.map_append, List.filter_append, here]
    have schedulers : middle.schedOf = state.schedOf := funext same
    rw [schedulers]

/-- The loop resumes the tasks that wait, in their order, and ends at the head of the list. -/
theorem signalLoop_eq {fuel : Nat} (rings : Rings state.links contents)
    (shape : contents (.wait_list cond) = tasks) (enough : tasks.length < fuel)
    (resumed : List Task) :
    ∃ after contents', signalLoop true fuel state
        ((tasks.map .elem).headD (.head (.wait_list cond))) resumed =
          some (after, resumed ++ tasks) ∧
      Resumes state after contents contents' cond tasks [] := by
  induction tasks generalizing state contents fuel resumed with
  | nil =>
    obtain ⟨fuel, rfl⟩ := Nat.exists_eq_succ_of_ne_zero (Nat.ne_of_gt enough)
    refine ⟨state, contents, ?_, rings, shape, fun _ _ => rfl, ?_, ?_, ?_⟩
    · rw [List.map_nil, List.headD_nil, signalLoop, if_pos (rings.list_empty_head.mpr shape),
        List.append_nil]
    · intro sched
      rw [List.filter_nil, List.append_nil]
    · exact fun t => (if_neg List.not_mem_nil).symm
    · rw [List.map_nil, List.filter_nil, List.append_nil]
  | cons first rest inductionHypothesis =>
    obtain ⟨fuel, rfl⟩ := Nat.exists_eq_succ_of_ne_zero (Nat.ne_of_gt (Nat.zero_lt_of_lt enough))
    have member : first ∈ contents (.wait_list cond) := by
      rw [shape]
      exact List.mem_cons_self
    have one := resumes_first rings shape
    obtain ⟨after, contents', looped, others⟩ := inductionHypothesis one.rings one.waiting
      (Nat.lt_of_succ_lt_succ enough) (resumed ++ [first])
    refine ⟨after, contents', ?_, ?_⟩
    · rw [List.append_assoc] at looped
      rw [List.map_cons, List.headD_cons, signalLoop,
        if_neg (Bool.eq_false_iff.mp (rings.list_empty_elem member)), Links.list_next,
        rings.next_of_cons shape]
      exact looped
    · rw [← List.append_nil rest] at one
      refine one.trans others (schedOf_sched_rq_enqueue state first) ?_
      rw [resume_eq]

/-- A task that waits is behind those that wait already. -/
theorem co_cond_wait_rings (rings : Rings state.links contents)
    (absent : ∀ queue, t ∉ contents queue) :
    Rings (state.co_cond_wait t cond).links (appended contents (.wait_list cond) t) :=
  rings.list_add_before absent

/-- A broadcast ends, resumes every task that waits once, in the order of the list, and leaves the
list empty. A signal resumes the first of them alone, and leaves the others in their order. -/
theorem co_cond_signal_all_resumes (rings : Rings state.links contents) (fuel : Nat)
    (enough : (contents (.wait_list cond)).length < fuel) :
    (∃ after contents', co_cond_broadcast fuel state cond =
        some (after, contents (.wait_list cond)) ∧
      (contents (.wait_list cond)).Nodup ∧
      Resumes state after contents contents' cond (contents (.wait_list cond)) [] ∧
      after.links.list_empty (.head (.wait_list cond)) = true) ∧
    ∃ after contents', co_cond_signal fuel state cond =
        some (after, (contents (.wait_list cond)).take 1) ∧
      Resumes state after contents contents' cond ((contents (.wait_list cond)).take 1)
        ((contents (.wait_list cond)).drop 1) := by
  constructor
  · obtain ⟨after, contents', looped, resumes⟩ := signalLoop_eq rings rfl enough []
    refine ⟨after, contents', ?_, rings.nodup _, resumes,
      resumes.rings.list_empty_head.mpr resumes.waiting⟩
    rw [co_cond_broadcast, co_cond_signal_all, Links.list_next, rings.next_head]
    exact looped
  · obtain ⟨fuel, rfl⟩ := Nat.exists_eq_succ_of_ne_zero (Nat.ne_of_gt (Nat.zero_lt_of_lt enough))
    rw [co_cond_signal, co_cond_signal_all, Links.list_next, rings.next_head]
    cases shape : contents (.wait_list cond) with
    | nil =>
      refine ⟨state, contents, ?_, rings, shape, fun _ _ => rfl, ?_, ?_, ?_⟩
      · rw [List.map_nil, List.headD_nil, signalLoop, if_pos (rings.list_empty_head.mpr shape),
          List.take_nil]
      · intro sched
        rw [List.take_nil, List.filter_nil, List.append_nil]
      · intro t
        rw [List.take_nil, if_neg List.not_mem_nil]
      · rw [List.take_nil, List.map_nil, List.filter_nil, List.append_nil]
    | cons first rest =>
      have member : first ∈ contents (.wait_list cond) := by
        rw [shape]
        exact List.mem_cons_self
      refine ⟨_, _, ?_, resumes_first rings shape⟩
      rw [List.map_cons, List.headD_cons, signalLoop,
        if_neg (Bool.eq_false_iff.mp (rings.list_empty_elem member))]
      rfl

/-- No task is on a list. -/
def idle : State (Fin 3) Bool Bool where
  links := ⟨id, id⟩
  status := fun _ => .SYS_BLOCK
  sched := fun t => some (decide (t.val = 2))
  g_sched := false
  active := []

theorem rings_idle : Rings idle.links fun _ => [] where
  linked := fun _ => ⟨rfl, rfl⟩
  nodup := fun _ => List.nodup_nil
  disjoint := fun _ _ _ member _ => absurd member List.not_mem_nil
  alone := fun _ _ => ⟨rfl, rfl⟩

/-- Two tasks of different threads wait, and then they are woken. -/
theorem co_cond_signal_all_resumes_two :
    (∃ after, co_cond_broadcast 3 ((idle.co_cond_wait 2 true).co_cond_wait 1 true) true =
        some (after, [2, 1]) ∧ after.active = [true]) ∧
      ∃ after, co_cond_signal 3 ((idle.co_cond_wait 2 true).co_cond_wait 1 true) true =
        some (after, [2]) := by
  have rings : Rings ((idle.co_cond_wait 2 true).co_cond_wait 1 true).links
      (appended (appended (fun _ => []) (.wait_list true) 2) (.wait_list true) 1) := by
    refine co_cond_wait_rings (co_cond_wait_rings rings_idle fun _ => List.not_mem_nil) ?_
    rintro ((_ | _) | _ | _) <;> decide
  have woken := @co_cond_signal_all_resumes _ _ _ _ _ _ _ _ true rings 3 (by decide)
  obtain ⟨⟨after, _, broadcast, _, resumes, _⟩, ⟨after', _, signal, _⟩⟩ := woken
  exact ⟨⟨after, broadcast, resumes.active⟩, after', signal⟩

end State

end CoCond

end Nattan
