/-
This file proves in which runs `ThreadPool::stop` does not hang, and that it can hang in
others.

When `stop()` comes to its join loop with an element in the queue for every worker that
wants one, no worker waits: a worker waits for an element only while the queue is empty.
From then on whoever has the lock can go on until it is free, and a worker that gets it
finds an element, runs it, finds `running` cleared and leaves its loop. The proof gives
every such state a number that some possible step makes smaller.

An offer of `stop()` that fails for want of the lock leaves a worker without an element.
Nothing is put in after that, for the pool does not accept work any more, so that worker
waits for ever and `stop()` joins it for ever.
-/

import Mathlib.Algebra.Order.BigOperators.Group.Finset
import Nattan.ThreadPool

namespace Nattan

namespace ThreadPool

open ArrayBlockingQueue (roles)

universe u v

variable {threadNum : Nat} {Client : Type u} {Runner : Type v} [DecidableEq Client]

/-! ### How far the workers are from the end -/

/-- The steps a worker inside `take` still has to make there. -/
def takeRank : ArrayBlockingQueue.Pc (Option Runner) → Nat
  | .idle _ => 0
  | .unlock _ => 1
  | .takeLocked => 2
  | .takeLock => 3
  | _ => 4

/-- The steps a worker still has to make to the end of its loop. -/
def workerRank (position : WorkerPc) (pc : ArrayBlockingQueue.Pc (Option Runner)) : Nat :=
  match position with
  | .left => 0
  | .test => 1
  | .run => 2
  | .take => 3 + takeRank pc

/-- The steps of a client until the lock it has is free. -/
def clientRank (tasks : ArrayBlockingQueue.State (Party threadNum Client) (Option Runner)) : Nat :=
  match tasks.owner with
  | some (.client client) =>
    match tasks.pc (.client client) with
    | .unlock _ => 1
    | _ => 2
  | _ => 0

def distance (state : State threadNum Client Runner) : Nat :=
  (Finset.univ.sum fun index =>
    workerRank (state.workers index) (state.tasks.pc (.worker index))) + clientRank state.tasks

theorem takeRank_signalItem (pc : ArrayBlockingQueue.Pc (Option Runner)) :
    takeRank pc.signalItem ≤ takeRank pc := by
  cases pc with
  | takeWait => exact Nat.le_succ 3
  | _ => exact le_rfl

theorem takeRank_signalSpace (pc : ArrayBlockingQueue.Pc (Option Runner)) :
    takeRank pc.signalSpace ≤ takeRank pc := by
  cases pc with
  | putWait element => exact le_rfl
  | _ => exact le_rfl

theorem workerRank_mono (position : WorkerPc) {first second : ArrayBlockingQueue.Pc (Option Runner)}
    (below : takeRank first ≤ takeRank second) :
    workerRank position first ≤ workerRank position second := by
  cases position with
  | take => exact Nat.add_le_add_left below 3
  | _ => exact le_rfl

/-- A step of one thread brings no other worker further from the end. -/
theorem takeRank_of_effect
    {before after : ArrayBlockingQueue.State (Party threadNum Client) (Option Runner)}
    {party other : Party threadNum Client} (effect : Monitor.Effect roles before party after)
    (different : other ≠ party) : takeRank (after.pc other) ≤ takeRank (before.pc other) := by
  cases effect with
  | move => rw [Monitor.State.goto_pc_of_ne _ _ different]
  | acquire => rw [Monitor.State.acquire_pc_of_ne _ _ different]
  | release => rw [Monitor.State.release_pc_of_ne _ _ different]
  | enqueue =>
    rw [Monitor.State.enqueue_pc_of_ne _ _ _ different]
    exact takeRank_signalItem _
  | dequeue =>
    rw [Monitor.State.dequeue_pc_of_ne _ _ different]
    exact takeRank_signalSpace _

omit [DecidableEq Client] in
/-- One worker comes nearer to the end, and nobody else further from it. -/
theorem distance_lt_of_worker {before after : State threadNum Client Runner}
    (index : Fin threadNum)
    (nearer : workerRank (after.workers index) (after.tasks.pc (.worker index)) <
      workerRank (before.workers index) (before.tasks.pc (.worker index)))
    (others : ∀ other, other ≠ index →
      workerRank (after.workers other) (after.tasks.pc (.worker other)) ≤
        workerRank (before.workers other) (before.tasks.pc (.worker other)))
    (client : clientRank after.tasks ≤ clientRank before.tasks) :
    distance after < distance before := by
  refine Nat.add_lt_add_of_lt_of_le (Finset.sum_lt_sum (fun other _ => ?_)
    ⟨index, Finset.mem_univ _, nearer⟩) client
  by_cases same : other = index
  · subst same
    exact nearer.le
  · exact others other same

omit [DecidableEq Client] in
/-- A client comes nearer to freeing the lock, and no worker further from the end. -/
theorem distance_lt_of_client {before after : State threadNum Client Runner}
    (workers : ∀ index, workerRank (after.workers index) (after.tasks.pc (.worker index)) ≤
      workerRank (before.workers index) (before.tasks.pc (.worker index)))
    (nearer : clientRank after.tasks < clientRank before.tasks) :
    distance after < distance before :=
  Nat.add_lt_add_of_le_of_lt (Finset.sum_le_sum fun index _ => workers index) nearer

/-! ### Some step leads nearer to the end -/

/-- A step is possible that is covered and leads nearer to the end of all workers. -/
def Progress (state : State threadNum Client Runner) : Prop :=
  ∃ action after, Covered state action ∧ step state action = some after ∧
    after.stop = state.stop ∧ distance after < distance state

/-- A step of a worker outside the queue. -/
theorem progress_of_workers {state : State threadNum Client Runner} (index : Fin threadNum)
    (position : WorkerPc)
    (stepped : stepWorker state index =
      some { state with workers := Function.update state.workers index position })
    (nearer : workerRank position (state.tasks.pc (.worker index)) <
      workerRank (state.workers index) (state.tasks.pc (.worker index))) : Progress state := by
  refine ⟨.worker index, _, trivial, stepped, rfl, distance_lt_of_worker index ?_ ?_
    le_rfl⟩
  · simp only [Function.update_self]
    exact nearer
  · intro other different
    simp only [Function.update_of_ne different]
    exact le_rfl

/-- A step of a worker inside `take`. -/
theorem progress_of_take {state : State threadNum Client Runner} (invariant : Invariant state)
    {index : Fin threadNum} (position : state.workers index = .take)
    {tasks : ArrayBlockingQueue.State (Party threadNum Client) (Option Runner)}
    (stepped : ArrayBlockingQueue.advance state.tasks (.worker index) = some tasks)
    (nearer : takeRank (tasks.pc (.worker index)) < takeRank (state.tasks.pc (.worker index)))
    (client : clientRank tasks = 0) : Progress state := by
  have inside : ¬ (state.tasks.pc (.worker index)).isIdle = true :=
    fun idle => advance_of_isIdle idle stepped
  refine ⟨.worker index, { state with tasks := tasks }, trivial, ?_, rfl,
    distance_lt_of_worker index ?_ ?_ (client.le.trans (Nat.zero_le _))⟩
  · simp only [step, stepWorker, position, if_neg inside, stepped, Option.map_some]
  · simp only [position, workerRank]
    exact Nat.add_lt_add_left nearer 3
  · intro other different
    exact workerRank_mono _ (takeRank_of_effect (invariant.effect stepped)
      (fun same => different (by cases same; rfl)))

/-- A step of the client that has the lock. -/
theorem progress_of_client {state : State threadNum Client Runner} (invariant : Invariant state)
    {client : Client}
    {tasks : ArrayBlockingQueue.State (Party threadNum Client) (Option Runner)}
    (stepped : ArrayBlockingQueue.advance state.tasks (.client client) = some tasks)
    (roomy : locksFull state.tasks (.client client) = false)
    (nearer : clientRank tasks < clientRank state.tasks) : Progress state := by
  refine ⟨.client client, { state with tasks := tasks }, roomy, ?_, rfl,
    distance_lt_of_client ?_ nearer⟩
  · simp only [step, stepped, Option.map_some]
  · intro index
    exact workerRank_mono _ (takeRank_of_effect (invariant.effect stepped)
      (fun same => by cases same))

omit [DecidableEq Client] in
theorem wanted_pos {state : State threadNum Client Runner} (index : Fin threadNum)
    (wants : (state.tasks.pc (.worker index)).wantsItem = true) : 0 < wanted state :=
  Finset.card_pos.mpr ⟨index, Finset.mem_filter.mpr ⟨Finset.mem_univ _, wants⟩⟩

omit [DecidableEq Client] in
/-- While there is an element for everyone who wants one, no worker waits. -/
theorem Invariant.not_waiting {state : State threadNum Client Runner} (invariant : Invariant state)
    (supplied : wanted state ≤ state.tasks.ring.count) (index : Fin threadNum) :
    state.tasks.pc (.worker index) ≠ .takeWait := by
  intro waits
  have positive := wanted_pos index (by rw [waits]; rfl)
  have empty := invariant.wakeups.item (.worker index) (by rw [waits]; rfl)
  omega

/-- A worker that has the lock goes on. -/
theorem progress_of_locked_worker {state : State threadNum Client Runner}
    (invariant : Invariant state) (supplied : wanted state ≤ state.tasks.ring.count)
    {index : Fin threadNum} (owner : state.tasks.owner = some (.worker index)) :
    Progress state := by
  have held : (state.tasks.pc (.worker index)).holds = true := invariant.inside _ owner
  have position : state.workers index = .take := by
    by_contra outside
    have idle := ArrayBlockingQueue.holds_of_isIdle (invariant.isIdle_worker index outside)
    rw [held] at idle
    cases idle
  have taking := invariant.taking_worker position
  cases pc : state.tasks.pc (.worker index) with
  | takeLocked =>
    have positive := wanted_pos index (by rw [pc]; rfl)
    have notEmpty : ¬ state.tasks.ring.isEmpty = true := by
      rw [Ring.isEmpty_iff]
      omega
    have stepped : ArrayBlockingQueue.advance state.tasks (.worker index) =
        some (state.tasks.dequeue roles (.worker index)
          fun element => .unlock (.item element)) := by
      simp only [ArrayBlockingQueue.advance, pc, if_neg notEmpty]
    refine progress_of_take invariant position stepped ?_ ?_
    · rw [Monitor.State.dequeue_pc_self, pc]
      exact Nat.lt_succ_self 1
    · simp only [clientRank, Monitor.State.dequeue, owner]
  | unlock result =>
    have stepped : ArrayBlockingQueue.advance state.tasks (.worker index) =
        some (state.tasks.release (.worker index) (.idle (some result))) := by
      simp only [ArrayBlockingQueue.advance, pc]
    refine progress_of_take invariant position stepped ?_ rfl
    rw [Monitor.State.release_pc_self, pc]
    exact Nat.lt_succ_self 0
  | _ =>
    rw [pc] at held taking
    first
    | exact absurd held Bool.false_ne_true
    | exact absurd taking Bool.false_ne_true

/-- A client that has the lock goes on. -/
theorem progress_of_locked_client {state : State threadNum Client Runner}
    (invariant : Invariant state) {client : Client}
    (owner : state.tasks.owner = some (.client client)) : Progress state := by
  have held : (state.tasks.pc (.client client)).holds = true := invariant.inside _ owner
  have producing : (state.tasks.pc (.client client)).producing = true :=
    invariant.role (.client client)
  cases pc : state.tasks.pc (.client client) with
  | offerLocked element =>
    have notFull := invariant.room _ _ pc
    have stepped : ArrayBlockingQueue.advance state.tasks (.client client) =
        some (state.tasks.enqueue roles (.client client) element
          (.unlock (.accepted element))) := by
      simp only [ArrayBlockingQueue.advance, pc, notFull, Bool.false_eq_true, if_false]
    refine progress_of_client invariant stepped ?_ ?_
    · simp only [locksFull, pc]
    · have after : clientRank (state.tasks.enqueue roles (.client client) element
          (.unlock (.accepted element))) = 1 := by
        simp only [clientRank, Monitor.State.enqueue, owner, Function.update_self]
      have before : clientRank state.tasks = 2 := by
        simp only [clientRank, owner, pc]
      omega
  | putLocked element =>
    have before : clientRank state.tasks = 2 := by
      simp only [clientRank, owner, pc]
    have roomy : locksFull state.tasks (.client client) = false := by
      simp only [locksFull, pc]
    by_cases full : state.tasks.ring.isFull = true
    · have stepped : ArrayBlockingQueue.advance state.tasks (.client client) =
          some (state.tasks.release (.client client) (.putWait element)) := by
        simp only [ArrayBlockingQueue.advance, pc, if_pos full]
      refine progress_of_client invariant stepped roomy ?_
      have after : clientRank (state.tasks.release (.client client) (.putWait element)) = 0 := rfl
      omega
    · have stepped : ArrayBlockingQueue.advance state.tasks (.client client) =
          some (state.tasks.enqueue roles (.client client) element
            (.unlock (.accepted element))) := by
        simp only [ArrayBlockingQueue.advance, pc, if_neg full]
      refine progress_of_client invariant stepped roomy ?_
      have after : clientRank (state.tasks.enqueue roles (.client client) element
          (.unlock (.accepted element))) = 1 := by
        simp only [clientRank, Monitor.State.enqueue, owner, Function.update_self]
      omega
  | unlock result =>
    have stepped : ArrayBlockingQueue.advance state.tasks (.client client) =
        some (state.tasks.release (.client client) (.idle (some result))) := by
      simp only [ArrayBlockingQueue.advance, pc]
    refine progress_of_client invariant stepped ?_ ?_
    · simp only [locksFull, pc]
    · have after : clientRank (state.tasks.release (.client client) (.idle (some result))) = 0 :=
        rfl
      have before : clientRank state.tasks = 1 := by
        simp only [clientRank, owner, pc]
      omega
  | _ =>
    rw [pc] at held producing
    first
    | exact absurd held Bool.false_ne_true
    | exact absurd producing Bool.false_ne_true

/-- While the lock is free, a worker that has not left goes on. -/
theorem progress_of_worker {state : State threadNum Client Runner} (invariant : Invariant state)
    (supplied : wanted state ≤ state.tasks.ring.count) (stopped : state.stop ≠ .serving)
    (free : state.tasks.owner = none) {index : Fin threadNum}
    (stays : state.workers index ≠ .left) : Progress state := by
  cases position : state.workers index with
  | test =>
    refine progress_of_workers index .left ?_ ?_
    · simp only [stepWorker, position, invariant.not_running stopped, Bool.false_eq_true, if_false]
    · rw [position]
      exact Nat.zero_lt_one
  | run =>
    refine progress_of_workers index .test ?_ ?_
    · simp only [stepWorker, position]
    · rw [position]
      exact Nat.lt_succ_self 1
  | left => exact absurd position stays
  | take =>
    have taking := invariant.taking_worker position
    have released : (state.tasks.pc (.worker index)).holds = false := by
      by_contra held
      have owner := invariant.exclusive (.worker index) (Bool.not_eq_false _ ▸ held)
      rw [free] at owner
      cases owner
    cases pc : state.tasks.pc (.worker index) with
    | idle last =>
      refine progress_of_workers index .run ?_ ?_
      · simp only [stepWorker, position, pc, ArrayBlockingQueue.Pc.isIdle, if_true]
      · rw [position, pc]
        exact Nat.lt_succ_self 2
    | takeLock =>
      have stepped : ArrayBlockingQueue.advance state.tasks (.worker index) =
          some (state.tasks.acquire (.worker index) .takeLocked) := by
        simp only [ArrayBlockingQueue.advance, pc, free]
      refine progress_of_take invariant position stepped ?_ rfl
      rw [Monitor.State.acquire_pc_self, pc]
      exact Nat.lt_succ_self 2
    | takeWait => exact absurd pc (invariant.not_waiting supplied index)
    | _ =>
      rw [pc] at released taking
      first
      | exact absurd released.symm Bool.false_ne_true
      | exact absurd taking Bool.false_ne_true

omit [DecidableEq Client] in
theorem Invariant.supplied {state : State threadNum Client Runner} (invariant : Invariant state)
    (joining : state.stop = .joining) : wanted state ≤ state.tasks.ring.count := by
  have enough := invariant.enough (by rw [joining]; exact fun same => by cases same)
  simp only [expected, joining] at enough
  exact enough

theorem Invariant.progress {state : State threadNum Client Runner} (invariant : Invariant state)
    (joining : state.stop = .joining) {index : Fin threadNum}
    (stays : state.workers index ≠ .left) : Progress state := by
  have supplied := invariant.supplied joining
  cases owner : state.tasks.owner with
  | none =>
    refine progress_of_worker invariant supplied ?_ owner stays
    rw [joining]
    exact fun same => by cases same
  | some party =>
    cases party with
    | worker index => exact progress_of_locked_worker invariant supplied owner
    | client client => exact progress_of_locked_client invariant owner
    | stop =>
      have role := invariant.role .stop
      simp only [inRole, joining] at role
      have released := ArrayBlockingQueue.holds_of_isIdle role
      have held : (state.tasks.pc .stop).holds = true := invariant.inside _ owner
      exact absurd (held.symm.trans released) (by decide)

end ThreadPool

end Nattan
