/-
This file models `ThreadPool`: its workers, `stop()`, and the clients that put work in,
all on one `ArrayBlockingQueue`.

A worker looks at `running`, takes a runner from the queue and runs it. `stop()` clears
`running` and offers one empty runner for every worker, so that none waits for ever,
and then joins the workers. But `offer` does not wait: it fails when another thread has
the lock, and when the queue is full, and `stop()` does not look at its result.

What the empty runners are for is a matter of counting. A worker that is inside `take`
without an element yet wants one. From the moment `running` is cleared no more workers
come to want one, so as long as the elements in the queue and the offers still to come
are as many as the workers that want one, each gets its own. Every offer that succeeds
keeps this, and so does every dequeue; an offer that fails does not, unless there was
one to spare. The invariant of the file says this, and that the lock is not left behind
by an `offer` that finds the queue full under it.
-/

import Mathlib.Data.Fintype.Card
import Nattan.ArrayBlockingQueue

namespace Nattan

namespace ThreadPool

universe u v

/-! ### The threads -/

/-- The threads that use the queue of a pool. -/
inductive Party (threadNum : Nat) (Client : Type u) where
  | worker (index : Fin threadNum)
  | stop
  | client (client : Client)
  deriving DecidableEq, Repr

/-- Where a worker is: before the test of `running`, inside `take`, inside `r->run()`, or behind
the loop. -/
inductive WorkerPc where
  | test
  | take
  | run
  | left
  deriving DecidableEq, Repr

/-- Where `stop()` is: not called yet, in the loop of the offers with some still to make, at the
join loop, or behind it. -/
inductive StopPc where
  | serving
  | offers (more : Nat)
  | joining
  | joined
  deriving DecidableEq, Repr

/-- The pool. An element of the queue is a runner; `none` is an `EmptyRunner`. -/
structure State (threadNum : Nat) (Client : Type u) (Runner : Type v) where
  tasks : ArrayBlockingQueue.State (Party threadNum Client) (Option Runner)
  running : Bool
  workers : Fin threadNum → WorkerPc
  stop : StopPc

/-- The pool after `start()`. -/
def State.started (threadNum : Nat) (Client : Type u) (Runner : Type v) (queueCapcity : Nat) :
    State threadNum Client Runner where
  tasks := ArrayBlockingQueue.State.new queueCapcity
  running := true
  workers := fun _ => .test
  stop := .serving

/-- A step of a worker, of `stop()`, a call of a client, a step of a client inside its call, or
the waking of a thread that waits. -/
inductive Action (threadNum : Nat) (Client : Type u) (Runner : Type v) where
  | worker (index : Fin threadNum)
  | stop
  | offer (client : Client) (runner : Runner)
  | put (client : Client) (runner : Runner)
  | client (client : Client)
  | wake (party : Party threadNum Client)
  deriving DecidableEq, Repr

variable {threadNum : Nat} {Client : Type u} {Runner : Type v} [DecidableEq Client]

/-- `Worker::run`. -/
def stepWorker (state : State threadNum Client Runner) (index : Fin threadNum) :
    Option (State threadNum Client Runner) :=
  match state.workers index with
  | .test =>
    if state.running then
      (ArrayBlockingQueue.step state.tasks (.call (.worker index) .take)).map fun tasks =>
        { state with tasks := tasks, workers := Function.update state.workers index .take }
    else some { state with workers := Function.update state.workers index .left }
  | .take =>
    if (state.tasks.pc (.worker index)).isIdle then
      some { state with workers := Function.update state.workers index .run }
    else
      (ArrayBlockingQueue.advance state.tasks (.worker index)).map fun tasks =>
        { state with tasks := tasks }
  | .run => some { state with workers := Function.update state.workers index .test }
  | .left => none

/-- `stop`. -/
def stepStop (state : State threadNum Client Runner) : Option (State threadNum Client Runner) :=
  match state.stop with
  | .serving => some { state with running := false, stop := .offers threadNum }
  | .offers more =>
    if (state.tasks.pc .stop).isIdle then
      match more with
      | 0 => some { state with stop := .joining }
      | more + 1 =>
        (ArrayBlockingQueue.step state.tasks (.call .stop (.offer none))).map fun tasks =>
          { state with tasks := tasks, stop := .offers more }
    else
      (ArrayBlockingQueue.advance state.tasks .stop).map fun tasks => { state with tasks := tasks }
  | .joining => if ∀ index, state.workers index = .left then some { state with stop := .joined }
    else none
  | .joined => none

/-- `offer` and `put`: the test of `running` and the call of the queue. A client that does not
find the pool running returns at once. -/
def stepCall (state : State threadNum Client Runner) (client : Client)
    (operation : ArrayBlockingQueue.Operation (Option Runner)) :
    Option (State threadNum Client Runner) :=
  if state.running then
    (ArrayBlockingQueue.step state.tasks (.call (.client client) operation)).map fun tasks =>
      { state with tasks := tasks }
  else some state

def step (state : State threadNum Client Runner) :
    Action threadNum Client Runner → Option (State threadNum Client Runner)
  | .worker index => stepWorker state index
  | .stop => stepStop state
  | .offer client runner => stepCall state client (.offer (some runner))
  | .put client runner => stepCall state client (.put (some runner))
  | .client client =>
    (ArrayBlockingQueue.advance state.tasks (.client client)).map fun tasks =>
      { state with tasks := tasks }
  | .wake party =>
    (ArrayBlockingQueue.step state.tasks (.wake party)).map fun tasks =>
      { state with tasks := tasks }

/-! ### What the workers want, and what they can expect -/

/-- How many workers are inside `take` and have not got an element. -/
def wanted (state : State threadNum Client Runner) : Nat :=
  (Finset.univ.filter fun index => (state.tasks.pc (.worker index)).wantsItem = true).card

/-- An `offer` that has not come to its end. -/
def offerOpen : ArrayBlockingQueue.Pc (Option Runner) → Bool
  | .offerTest _ | .offerTryLock _ | .offerLocked _ => true
  | _ => false

/-- How many offers of `stop()` are still to come, or have not come to their end. -/
def expected (state : State threadNum Client Runner) : Nat :=
  match state.stop with
  | .offers more => more + (offerOpen (state.tasks.pc .stop)).toNat
  | .serving | .joining | .joined => 0

/-- The next step of `stop()` is one that makes its `offer` fail. -/
def offerFails (state : State threadNum Client Runner) : Bool :=
  match state.tasks.pc .stop with
  | .offerTest _ => state.tasks.ring.isFull
  | .offerTryLock _ => state.tasks.owner.isSome
  | _ => false

/-- The next step of a thread is to get the lock in `offer` while the queue is full. -/
def locksFull (tasks : ArrayBlockingQueue.State (Party threadNum Client) (Option Runner))
    (party : Party threadNum Client) : Bool :=
  match tasks.pc party with
  | .offerTryLock _ => tasks.owner.isNone && tasks.ring.isFull
  | _ => false

/-- An offer of `stop()` fails only if what is in the queue and what is still to come is enough
without it, and no `offer` gets the lock of a queue that has become full since its first test. -/
def Covered (state : State threadNum Client Runner) : Action threadNum Client Runner → Prop
  | .stop =>
    (offerFails state = true → wanted state < state.tasks.ring.count + expected state) ∧
      locksFull state.tasks .stop = false
  | .client client => locksFull state.tasks (.client client) = false
  | .worker _ | .offer _ _ | .put _ _ | .wake _ => True

instance (state : State threadNum Client Runner) (action : Action threadNum Client Runner) :
    Decidable (Covered state action) :=
  match action with
  | .stop => inferInstanceAs (Decidable (_ ∧ _))
  | .client client => inferInstanceAs (Decidable (locksFull state.tasks (.client client) = false))
  | .worker _ | .offer _ _ | .put _ _ | .wake _ => inferInstanceAs (Decidable True)

/-! ### The queue of a pool -/

open ArrayBlockingQueue (roles advance)

section Queue

variable {Thread : Type u} {Element : Type v} [DecidableEq Thread]
  {before after : ArrayBlockingQueue.State Thread Element} {thread : Thread}

/-- A thread that has the lock in `offer` finds room in the queue. -/
def RoomLocked (tasks : ArrayBlockingQueue.State Thread Element) : Prop :=
  ∀ thread element, tasks.pc thread = .offerLocked element → tasks.ring.isFull = false

/-- What holds of the program counters of the other threads, and is not changed by waking them,
is not changed by a step. -/
theorem same_of_effect {Value : Type} (property : ArrayBlockingQueue.Pc Element → Value)
    (item : ∀ pc, property pc.signalItem = property pc)
    (space : ∀ pc, property pc.signalSpace = property pc)
    (effect : Monitor.Effect roles before thread after) {other : Thread}
    (different : other ≠ thread) : property (after.pc other) = property (before.pc other) := by
  cases effect with
  | move => rw [Monitor.State.goto_pc_of_ne _ _ different]
  | acquire => rw [Monitor.State.acquire_pc_of_ne _ _ different]
  | release => rw [Monitor.State.release_pc_of_ne _ _ different]
  | enqueue =>
    rw [Monitor.State.enqueue_pc_of_ne _ _ _ different]
    exact item _
  | dequeue =>
    rw [Monitor.State.dequeue_pc_of_ne _ _ different]
    exact space _

/-- The one way into the locked part of `offer`. -/
theorem offerTryLock_of_offerLocked {element : Element}
    (stepped : advance before thread = some after)
    (locked : after.pc thread = .offerLocked element) :
    before.pc thread = .offerTryLock element ∧ before.owner = none ∧ after.ring = before.ring := by
  cases ArrayBlockingQueue.advances_of_advance stepped with
  | offerTryLockFree free pc =>
    rw [Monitor.State.acquire_pc_self] at locked
    cases locked
    exact ⟨pc, free, rfl⟩
  | putLock | pollTryLockFree | takeLock =>
    rw [Monitor.State.acquire_pc_self] at locked
    cases locked
  | putLockedFull | takeLockedEmpty | unlock =>
    rw [Monitor.State.release_pc_self] at locked
    cases locked
  | offerLockedRoom | putLockedRoom =>
    rw [Monitor.State.enqueue_pc_self] at locked
    cases locked
  | pollLockedItem | takeLockedItem =>
    rw [Monitor.State.dequeue_pc_self] at locked
    cases locked
  | _ =>
    rw [Monitor.State.goto_pc_self] at locked
    cases locked

theorem offerLocked_signalItem (element : Element) (pc : ArrayBlockingQueue.Pc Element) :
    (pc.signalItem = .offerLocked element) = (pc = .offerLocked element) := by
  cases pc with
  | takeWait => exact propext ⟨fun same => (by cases same), fun same => (by cases same)⟩
  | _ => rfl

theorem offerLocked_signalSpace (element : Element) (pc : ArrayBlockingQueue.Pc Element) :
    (pc.signalSpace = .offerLocked element) = (pc = .offerLocked element) := by
  cases pc with
  | putWait offered => exact propext ⟨fun same => (by cases same), fun same => (by cases same)⟩
  | _ => rfl

/-- While one thread has the lock in `offer`, the steps of the others leave the room it found. -/
theorem roomLocked_of_effect (exclusive : Monitor.Exclusive roles before)
    (room : RoomLocked before) (effect : Monitor.Effect roles before thread after)
    (own : ∀ element, after.pc thread = .offerLocked element → after.ring.isFull = false) :
    RoomLocked after := by
  intro other element locked
  by_cases same : other = thread
  · subst same
    exact own element locked
  · have wasLocked : before.pc other = .offerLocked element := by
      have kept : (after.pc other = .offerLocked element) =
          (before.pc other = .offerLocked element) :=
        same_of_effect (fun pc => pc = .offerLocked element) (offerLocked_signalItem element)
          (offerLocked_signalSpace element) effect same
      rw [kept] at locked
      exact locked
    have owner := exclusive other (by rw [wasLocked]; rfl)
    have notHeld : ¬ roles.holds (before.pc thread) = true := fun held =>
      same (Option.some.inj (owner.symm.trans (exclusive thread held)))
    cases effect with
    | move => exact room other element wasLocked
    | acquire => exact room other element wasLocked
    | release => exact room other element wasLocked
    | enqueue _ _ held => exact absurd held notHeld
    | dequeue _ held => exact absurd held notHeld

end Queue

/-! ### The invariant -/

/-- What the program counter of each thread in the queue may be. -/
def inRole (workers : Fin threadNum → WorkerPc) (stop : StopPc) :
    Party threadNum Client → ArrayBlockingQueue.Pc (Option Runner) → Bool
  | .worker index, pc => if workers index = .take then pc.taking else pc.isIdle
  | .stop, pc =>
    match stop with
    | .offers _ => pc.offering
    | .serving | .joining | .joined => pc.isIdle
  | .client _, pc => pc.producing

structure Invariant (state : State threadNum Client Runner) : Prop where
  exclusive : Monitor.Exclusive roles state.tasks
  inside : Monitor.OwnerInside roles state.tasks
  wakeups : Monitor.NoMissedWakeup roles state.tasks
  room : RoomLocked state.tasks
  role : ∀ party, inRole state.workers state.stop party (state.tasks.pc party) = true
  flag : state.running = true ↔ state.stop = .serving
  enough : state.stop ≠ .serving → wanted state ≤ state.tasks.ring.count + expected state

omit [DecidableEq Client] in
theorem inRole_signalItem (workers : Fin threadNum → WorkerPc) (stop : StopPc)
    (party : Party threadNum Client) (pc : ArrayBlockingQueue.Pc (Option Runner)) :
    inRole workers stop party pc.signalItem = inRole workers stop party pc := by
  have idle : pc.signalItem.isIdle = pc.isIdle := by cases pc <;> rfl
  have offering : pc.signalItem.offering = pc.offering := by cases pc <;> rfl
  cases party with
  | worker index => simp only [inRole, ArrayBlockingQueue.taking_signalItem, idle]
  | stop => simp only [inRole, idle, offering]
  | client client => exact ArrayBlockingQueue.producing_signalItem pc

omit [DecidableEq Client] in
theorem inRole_signalSpace (workers : Fin threadNum → WorkerPc) (stop : StopPc)
    (party : Party threadNum Client) (pc : ArrayBlockingQueue.Pc (Option Runner)) :
    inRole workers stop party pc.signalSpace = inRole workers stop party pc := by
  have idle : pc.signalSpace.isIdle = pc.isIdle := by cases pc <;> rfl
  have offering : pc.signalSpace.offering = pc.offering := by cases pc <;> rfl
  cases party with
  | worker index => simp only [inRole, ArrayBlockingQueue.taking_signalSpace, idle]
  | stop => simp only [inRole, idle, offering]
  | client client => exact ArrayBlockingQueue.producing_signalSpace pc

theorem advance_of_isIdle {tasks after : ArrayBlockingQueue.State (Party threadNum Client)
    (Option Runner)} {party : Party threadNum Client} (outside : (tasks.pc party).isIdle = true) :
    advance tasks party ≠ some after := by
  intro stepped
  cases ArrayBlockingQueue.advances_of_advance stepped with
  | _ =>
    rename_i pc
    rw [pc] at outside
    cases outside

/-- A step inside an operation keeps to the role of the thread. -/
theorem inRole_advance {workers : Fin threadNum → WorkerPc} {stop : StopPc}
    {tasks after : ArrayBlockingQueue.State (Party threadNum Client) (Option Runner)}
    {party : Party threadNum Client} (role : inRole workers stop party (tasks.pc party) = true)
    (stepped : advance tasks party = some after) :
    inRole workers stop party (after.pc party) = true := by
  cases party with
  | worker index =>
    rw [inRole] at role ⊢
    split at role
    · rename_i position
      rw [if_pos position]
      exact (ArrayBlockingQueue.advance_of_taking role stepped).1
    · exact absurd stepped (advance_of_isIdle role)
  | stop =>
    cases stop with
    | offers more => exact (ArrayBlockingQueue.advance_of_offering role stepped).1
    | serving => exact absurd stepped (advance_of_isIdle role)
    | joining => exact absurd stepped (advance_of_isIdle role)
    | joined => exact absurd stepped (advance_of_isIdle role)
  | client client => exact (ArrayBlockingQueue.advance_of_producing role stepped).1

omit [DecidableEq Client] in
/-- Nobody polls, and an `offer` that has the lock finds room, so no lock is left behind. -/
theorem Invariant.retest {state : State threadNum Client Runner} (invariant : Invariant state)
    (party : Party threadNum Client) :
    ArrayBlockingQueue.retestFails state.tasks party = false := by
  unfold ArrayBlockingQueue.retestFails
  split
  · rename_i element pc
    exact invariant.room party element pc
  · rename_i pc
    have role := invariant.role party
    rw [pc] at role
    cases party with
    | worker index =>
      rw [inRole] at role
      split at role
      · cases role
      · cases role
    | stop =>
      cases stop : state.stop with
      | _ =>
        rw [stop] at role
        cases role
    | client client => cases role
  · rfl

theorem Invariant.effect {state : State threadNum Client Runner} (invariant : Invariant state)
    {party : Party threadNum Client}
    {tasks : ArrayBlockingQueue.State (Party threadNum Client) (Option Runner)}
    (stepped : advance state.tasks party = some tasks) :
    Monitor.Effect roles state.tasks party tasks :=
  ArrayBlockingQueue.effect_of_advance (invariant.retest party) stepped

/-- A step of the queue that has an effect keeps the invariant, if the thread that takes it keeps
to its role and finds room if it gets the lock in `offer`, and the counts come out. -/
theorem Invariant.of_effect {state : State threadNum Client Runner} (invariant : Invariant state)
    {party : Party threadNum Client}
    {tasks : ArrayBlockingQueue.State (Party threadNum Client) (Option Runner)}
    (effect : Monitor.Effect roles state.tasks party tasks)
    (own : ∀ element, tasks.pc party = .offerLocked element → tasks.ring.isFull = false)
    (workers : Fin threadNum → WorkerPc) (stop : StopPc)
    (others : ∀ other, other ≠ party → ∀ pc : ArrayBlockingQueue.Pc (Option Runner),
      inRole state.workers state.stop other pc = true → inRole workers stop other pc = true)
    (role : inRole workers stop party (tasks.pc party) = true)
    (flag : state.running = true ↔ stop = .serving)
    (enough : stop ≠ .serving →
      wanted { state with tasks := tasks } ≤
        tasks.ring.count + expected { state with tasks := tasks, stop := stop }) :
    Invariant { state with tasks := tasks, workers := workers, stop := stop } where
  exclusive := effect.exclusive invariant.exclusive
  inside := effect.ownerInside invariant.inside
  wakeups := effect.noMissedWakeup invariant.wakeups
  room := roomLocked_of_effect invariant.exclusive invariant.room effect own
  role := fun other => by
    by_cases same : other = party
    · subst same
      exact role
    · refine others other same _ ?_
      have kept := same_of_effect (inRole state.workers state.stop other)
        (inRole_signalItem _ _ _) (inRole_signalSpace _ _ _) effect same
      rw [kept]
      exact invariant.role other
  flag := flag
  enough := enough

/-- A step inside an operation keeps the invariant, if the counts come out. -/
theorem Invariant.advance {state : State threadNum Client Runner} (invariant : Invariant state)
    {party : Party threadNum Client} (roomy : locksFull state.tasks party = false)
    {tasks : ArrayBlockingQueue.State (Party threadNum Client) (Option Runner)}
    (stepped : advance state.tasks party = some tasks)
    (enough : state.stop ≠ .serving →
      wanted { state with tasks := tasks } ≤
        tasks.ring.count + expected { state with tasks := tasks }) :
    Invariant { state with tasks := tasks } := by
  refine invariant.of_effect (invariant.effect stepped) (fun element locked => ?_) state.workers
    state.stop (fun _ _ _ role => role) (inRole_advance (invariant.role party) stepped)
    invariant.flag enough
  obtain ⟨pc, free, ring⟩ := offerTryLock_of_offerLocked stepped locked
  rw [locksFull, pc] at roomy
  simp only [free, Option.isNone_none, Bool.true_and] at roomy
  rw [ring]
  exact roomy

/-! ### Counting -/

omit [DecidableEq Client] in
theorem wanted_congr {first second : State threadNum Client Runner}
    (same : ∀ index, (first.tasks.pc (.worker index)).wantsItem =
      (second.tasks.pc (.worker index)).wantsItem) : wanted first = wanted second := by
  simp only [wanted, same]

omit [DecidableEq Client] in
/-- A worker that gets its element wants one no more. -/
theorem wanted_of_got {before after : State threadNum Client Runner} (index : Fin threadNum)
    (wants : (before.tasks.pc (.worker index)).wantsItem = true)
    (got : (after.tasks.pc (.worker index)).wantsItem = false)
    (others : ∀ other, other ≠ index → (after.tasks.pc (.worker other)).wantsItem =
      (before.tasks.pc (.worker other)).wantsItem) : wanted before = wanted after + 1 := by
  have erased : (Finset.univ.filter fun other =>
      (after.tasks.pc (.worker other)).wantsItem = true) =
      (Finset.univ.filter fun other =>
        (before.tasks.pc (.worker other)).wantsItem = true).erase index := by
    ext other
    simp only [Finset.mem_filter, Finset.mem_univ, true_and, Finset.mem_erase]
    by_cases same : other = index
    · subst same
      simp only [got, ne_eq, not_true_eq_false, false_and, Bool.false_eq_true]
    · simp only [others other same, ne_eq, same, not_false_eq_true, true_and]
  rw [wanted, wanted, erased, Finset.card_erase_add_one]
  exact Finset.mem_filter.mpr ⟨Finset.mem_univ _, wants⟩

/-- A step of a thread that is no worker changes nothing in what the workers want. -/
theorem wanted_of_effect {state : State threadNum Client Runner} {party : Party threadNum Client}
    {tasks : ArrayBlockingQueue.State (Party threadNum Client) (Option Runner)}
    (effect : Monitor.Effect roles state.tasks party tasks)
    (notWorker : ∀ index, party ≠ .worker index) :
    wanted { state with tasks := tasks } = wanted state :=
  wanted_congr fun index =>
    same_of_effect ArrayBlockingQueue.Pc.wantsItem ArrayBlockingQueue.wantsItem_signalItem
      ArrayBlockingQueue.wantsItem_signalSpace effect (notWorker index).symm

omit [DecidableEq Client] in
theorem wanted_le (state : State threadNum Client Runner) : wanted state ≤ threadNum := by
  have bound := Finset.card_filter_le (Finset.univ : Finset (Fin threadNum))
    fun index => (state.tasks.pc (.worker index)).wantsItem = true
  rw [Finset.card_univ, Fintype.card_fin] at bound
  exact bound

theorem expected_of_effect {state : State threadNum Client Runner}
    {party : Party threadNum Client}
    {tasks : ArrayBlockingQueue.State (Party threadNum Client) (Option Runner)}
    (effect : Monitor.Effect roles state.tasks party tasks) (notStop : party ≠ .stop) :
    expected { state with tasks := tasks } = expected state := by
  have kept : offerOpen (tasks.pc .stop) = offerOpen (state.tasks.pc .stop) :=
    same_of_effect offerOpen (fun pc => by cases pc <;> rfl) (fun pc => by cases pc <;> rfl) effect
      notStop.symm
  simp only [expected, kept]

omit [DecidableEq Client] in
theorem Invariant.not_running {state : State threadNum Client Runner}
    (invariant : Invariant state) (stopped : state.stop ≠ .serving) : state.running = false := by
  cases running : state.running with
  | false => rfl
  | true => exact absurd (invariant.flag.mp running) stopped

/-! ### Every step keeps the invariant -/

omit [DecidableEq Client] in
/-- A step of a worker outside the queue. -/
theorem Invariant.of_workers {state : State threadNum Client Runner} (invariant : Invariant state)
    {index : Fin threadNum} {position : WorkerPc} (outside : position ≠ .take)
    (idle : (state.tasks.pc (.worker index)).isIdle = true) :
    Invariant { state with workers := Function.update state.workers index position } := by
  refine ⟨invariant.exclusive, invariant.inside, invariant.wakeups, invariant.room,
    fun party => ?_, invariant.flag, invariant.enough⟩
  cases party with
  | worker other =>
    by_cases same : other = index
    · subst same
      simp only [inRole, Function.update_self, if_neg outside]
      exact idle
    · simp only [inRole, Function.update_of_ne same]
      exact invariant.role (.worker other)
  | stop => exact invariant.role .stop
  | client client => exact invariant.role (.client client)

omit [DecidableEq Client] in
theorem Invariant.isIdle_worker {state : State threadNum Client Runner}
    (invariant : Invariant state) (index : Fin threadNum) (outside : state.workers index ≠ .take) :
    (state.tasks.pc (.worker index)).isIdle = true := by
  have role := invariant.role (.worker index)
  rw [inRole, if_neg outside] at role
  exact role

omit [DecidableEq Client] in
theorem Invariant.taking_worker {state : State threadNum Client Runner}
    (invariant : Invariant state) {index : Fin threadNum} (inside : state.workers index = .take) :
    (state.tasks.pc (.worker index)).taking = true := by
  have role := invariant.role (.worker index)
  rw [inRole, if_pos inside] at role
  exact role

omit [DecidableEq Client] in
theorem locksFull_of_taking
    {tasks : ArrayBlockingQueue.State (Party threadNum Client) (Option Runner)}
    {party : Party threadNum Client} (taking : (tasks.pc party).taking = true) :
    locksFull tasks party = false := by
  unfold locksFull
  split
  · rename_i element pc
    rw [pc] at taking
    cases taking
  · rfl

/-- A step of a worker inside `take`: the dequeue takes one element away and leaves one worker
less that wants one. -/
theorem Invariant.take {state : State threadNum Client Runner} (invariant : Invariant state)
    {index : Fin threadNum} (inside : state.workers index = .take)
    {tasks : ArrayBlockingQueue.State (Party threadNum Client) (Option Runner)}
    (stepped : ArrayBlockingQueue.advance state.tasks (.worker index) = some tasks) :
    Invariant { state with tasks := tasks } := by
  have taking := invariant.taking_worker inside
  have effect := invariant.effect stepped
  refine invariant.advance (locksFull_of_taking taking) stepped fun stopped => ?_
  rw [expected_of_effect effect (fun same => by cases same)]
  have enough := invariant.enough stopped
  have others : ∀ other, other ≠ index → (tasks.pc (.worker other)).wantsItem =
      (state.tasks.pc (.worker other)).wantsItem := fun other different =>
    same_of_effect ArrayBlockingQueue.Pc.wantsItem ArrayBlockingQueue.wantsItem_signalItem
      ArrayBlockingQueue.wantsItem_signalSpace effect (fun same => different (by cases same; rfl))
  obtain ⟨-, ⟨ring, wants, -⟩ | ⟨pc, notEmpty, dequeued⟩⟩ :=
    ArrayBlockingQueue.advance_of_taking taking stepped
  · have same : wanted { state with tasks := tasks } = wanted state := by
      refine wanted_congr fun other => ?_
      by_cases different : other = index
      · subst different
        exact wants
      · exact others other different
    rw [same, ring]
    exact enough
  · have fewer : wanted state = wanted { state with tasks := tasks } + 1 := by
      refine wanted_of_got index ?_ ?_ others
      · rw [pc]
        rfl
      · rw [dequeued]
        simp only [Monitor.State.dequeue_pc_self]
        rfl
    have count : tasks.ring.count = state.tasks.ring.count - 1 := by
      rw [dequeued]
      rfl
    have positive := Ring.count_pos notEmpty
    omega

theorem Invariant.worker {before after : State threadNum Client Runner}
    (invariant : Invariant before) {index : Fin threadNum}
    (stepped : stepWorker before index = some after) : Invariant after := by
  unfold stepWorker at stepped
  split at stepped
  · rename_i position
    have idle := invariant.isIdle_worker index (by rw [position]; decide)
    split at stepped
    · rename_i running
      obtain ⟨tasks, called, rfl⟩ := Option.map_eq_some_iff.mp stepped
      have moved : tasks = before.tasks.goto (.worker index) .takeLock := by
        rw [ArrayBlockingQueue.step, if_pos idle] at called
        exact (Option.some.inj called).symm
      have serving := invariant.flag.mp running
      refine invariant.of_effect (ArrayBlockingQueue.effect_of_call called) ?_ _ before.stop ?_ ?_
        invariant.flag (fun stopped => absurd serving stopped)
      · intro element locked
        rw [moved, Monitor.State.goto_pc_self] at locked
        cases locked
      · intro other different pc role
        cases other with
        | worker other =>
          rw [inRole, Function.update_of_ne (fun same => different (by rw [same]))]
          exact role
        | stop => exact role
        | client client => exact role
      · rw [inRole, Function.update_self, if_pos rfl, moved, Monitor.State.goto_pc_self]
        rfl
    · cases stepped
      exact invariant.of_workers (by decide) idle
  · rename_i position
    split at stepped
    · rename_i idle
      cases stepped
      exact invariant.of_workers (by decide) idle
    · obtain ⟨tasks, advanced, rfl⟩ := Option.map_eq_some_iff.mp stepped
      exact invariant.take position advanced
  · rename_i position
    cases stepped
    have idle := invariant.isIdle_worker index (by rw [position]; decide)
    exact invariant.of_workers (by decide) idle
  · cases stepped

/-- A step of `stop()` inside `offer`: an offer that succeeds puts an element in, and one that
fails was not needed. -/
theorem Invariant.offer {state : State threadNum Client Runner} (invariant : Invariant state)
    (covered : Covered state .stop) {more : Nat} (position : state.stop = .offers more)
    {tasks : ArrayBlockingQueue.State (Party threadNum Client) (Option Runner)}
    (stepped : ArrayBlockingQueue.advance state.tasks .stop = some tasks) :
    Invariant { state with tasks := tasks } := by
  have effect := invariant.effect stepped
  refine invariant.advance covered.2 stepped fun stopped => ?_
  rw [wanted_of_effect effect (fun _ same => by cases same)]
  have enough := invariant.enough stopped
  have needed := covered.1
  have role := invariant.role .stop
  simp only [inRole, position] at role
  simp only [expected, position] at enough needed ⊢
  cases ArrayBlockingQueue.advances_of_advance stepped with
  | offerTestFull full pc =>
    simp only [pc] at enough needed
    have spare := needed (by rw [offerFails, pc]; exact full)
    simp only [Monitor.State.goto_pc_self, offerOpen, ArrayBlockingQueue.Pc.refused,
      Bool.toNat_true, Bool.toNat_false] at spare ⊢
    exact Nat.lt_succ_iff.mp spare
  | offerTestRoom room pc =>
    simp only [pc] at enough
    simp only [Monitor.State.goto_pc_self]
    exact enough
  | offerTryLockFree free pc =>
    simp only [pc] at enough
    simp only [Monitor.State.acquire_pc_self]
    exact enough
  | offerTryLockHeld held pc =>
    simp only [pc] at enough needed
    have spare := needed (by rw [offerFails, pc, held]; rfl)
    simp only [Monitor.State.goto_pc_self, offerOpen, ArrayBlockingQueue.Pc.refused,
      Bool.toNat_true, Bool.toNat_false] at spare ⊢
    exact Nat.lt_succ_iff.mp spare
  | @offerLockedFull element full pc =>
    rw [invariant.room .stop element pc] at full
    cases full
  | @offerLockedRoom element room pc =>
    simp only [pc] at enough
    simp only [Monitor.State.enqueue_pc_self, offerOpen, Bool.toNat_true, Bool.toNat_false]
      at enough ⊢
    have count : (state.tasks.enqueue roles .stop element
        (.unlock (.accepted element))).ring.count = state.tasks.ring.count + 1 := rfl
    rw [count]
    omega
  | unlock pc =>
    simp only [pc] at enough
    simp only [Monitor.State.release_pc_self]
    exact enough
  | _ =>
    rename_i pc
    rw [pc] at role
    cases role

omit [DecidableEq Client] in
/-- A step of `stop()` outside the queue. -/
theorem Invariant.of_stop {state : State threadNum Client Runner} (invariant : Invariant state)
    {running : Bool} {stop : StopPc}
    (role : inRole state.workers stop (.stop : Party threadNum Client) (state.tasks.pc .stop) =
      true)
    (flag : running = true ↔ stop = .serving)
    (enough : wanted state ≤ state.tasks.ring.count + expected { state with stop := stop }) :
    Invariant { state with running := running, stop := stop } := by
  refine ⟨invariant.exclusive, invariant.inside, invariant.wakeups, invariant.room,
    fun party => ?_, flag, fun _ => enough⟩
  cases party with
  | worker index => exact invariant.role (.worker index)
  | stop => exact role
  | client client => exact invariant.role (.client client)

omit [DecidableEq Client] in
theorem offering_of_isIdle {Element : Type v} {pc : ArrayBlockingQueue.Pc Element}
    (idle : pc.isIdle = true) : pc.offering = true := by
  cases pc with
  | idle last => rfl
  | _ => cases idle

omit [DecidableEq Client] in
theorem offerOpen_of_isIdle {pc : ArrayBlockingQueue.Pc (Option Runner)}
    (idle : pc.isIdle = true) : offerOpen pc = false := by
  cases pc with
  | idle last => rfl
  | _ => cases idle

omit [DecidableEq Client] in
/-- `stop()` begins: there are as many offers to come as there are workers. -/
theorem Invariant.beginStop {state : State threadNum Client Runner} (invariant : Invariant state)
    (position : state.stop = .serving) :
    Invariant { state with running := false, stop := .offers threadNum } := by
  have role := invariant.role .stop
  simp only [inRole, position] at role
  refine invariant.of_stop (offering_of_isIdle role)
    ⟨fun running => (by cases running), fun serving => (by cases serving)⟩ ?_
  simp only [expected]
  exact (wanted_le state).trans ((Nat.le_add_right _ _).trans (Nat.le_add_left _ _))

/-- `stop()` calls `offer`: what was to come has begun. -/
theorem Invariant.nextOffer {state : State threadNum Client Runner} (invariant : Invariant state)
    {more : Nat} (position : state.stop = .offers (more + 1))
    (idle : (state.tasks.pc .stop).isIdle = true)
    {tasks : ArrayBlockingQueue.State (Party threadNum Client) (Option Runner)}
    (called : ArrayBlockingQueue.step state.tasks (.call .stop (.offer none)) = some tasks) :
    Invariant { state with tasks := tasks, stop := .offers more } := by
  have stopped : state.stop ≠ .serving := by
    rw [position]
    exact fun same => by cases same
  have moved : tasks = state.tasks.goto .stop (.offerTest none) := by
    rw [ArrayBlockingQueue.step, if_pos idle] at called
    exact (Option.some.inj called).symm
  have effect := ArrayBlockingQueue.effect_of_call called
  refine invariant.of_effect effect ?_ state.workers _ ?_ ?_ ?_ fun _ => ?_
  · intro element locked
    rw [moved, Monitor.State.goto_pc_self] at locked
    cases locked
  · intro other different pc otherRole
    cases other with
    | worker index => exact otherRole
    | stop => exact absurd rfl different
    | client client => exact otherRole
  · rw [moved, Monitor.State.goto_pc_self]
    rfl
  · simp only [invariant.not_running stopped, Bool.false_eq_true, false_iff]
    exact fun same => by cases same
  · have enough := invariant.enough stopped
    simp only [expected, position, offerOpen_of_isIdle idle, Bool.toNat_false] at enough
    rw [wanted_of_effect effect (fun _ same => by cases same)]
    simp only [expected, moved, Monitor.State.goto_pc_self, offerOpen, Bool.toNat_true]
    exact enough

omit [DecidableEq Client] in
/-- `stop()` comes to the join loop, or to the end of it: no offers are to come. -/
theorem Invariant.endOffers {state : State threadNum Client Runner} (invariant : Invariant state)
    (stopped : state.stop ≠ .serving) (idle : (state.tasks.pc .stop).isIdle = true)
    (nothing : expected state = 0) {stop : StopPc} (ended : stop = .joining ∨ stop = .joined) :
    Invariant { state with stop := stop } := by
  have enough := invariant.enough stopped
  rw [nothing] at enough
  have flag : state.running = true ↔ stop = .serving := by
    simp only [invariant.not_running stopped, Bool.false_eq_true, false_iff]
    obtain rfl | rfl := ended
    · exact fun same => by cases same
    · exact fun same => by cases same
  obtain rfl | rfl := ended
  · exact invariant.of_stop idle flag enough
  · exact invariant.of_stop idle flag enough

theorem Invariant.stopping {before after : State threadNum Client Runner}
    (invariant : Invariant before) (covered : Covered before .stop)
    (stepped : stepStop before = some after) : Invariant after := by
  unfold stepStop at stepped
  split at stepped
  · rename_i position
    cases stepped
    exact invariant.beginStop position
  · rename_i more position
    have stopped : before.stop ≠ .serving := by
      rw [position]
      exact fun same => by cases same
    split at stepped
    · rename_i idle
      cases more with
      | zero =>
        cases stepped
        refine invariant.endOffers stopped idle ?_ (Or.inl rfl)
        simp only [expected, position, offerOpen_of_isIdle idle, Bool.toNat_false]
      | succ more =>
        obtain ⟨tasks, called, rfl⟩ := Option.map_eq_some_iff.mp stepped
        exact invariant.nextOffer position idle called
    · obtain ⟨tasks, advanced, rfl⟩ := Option.map_eq_some_iff.mp stepped
      exact invariant.offer covered position advanced
  · rename_i position
    have role := invariant.role .stop
    simp only [inRole, position] at role
    split at stepped
    · cases stepped
      refine invariant.endOffers ?_ role ?_ (Or.inr rfl)
      · rw [position]
        exact fun same => by cases same
      · simp only [expected, position]
    · cases stepped
  · cases stepped

/-- A call of a client on a pool that runs. -/
theorem Invariant.call {before after : State threadNum Client Runner}
    (invariant : Invariant before) {client : Client}
    {operation : ArrayBlockingQueue.Operation (Option Runner)}
    (produces : operation.entry.producing = true)
    (notLocked : ∀ element, operation.entry ≠ .offerLocked element)
    (stepped : stepCall before client operation = some after) : Invariant after := by
  unfold stepCall at stepped
  split at stepped
  · rename_i running
    obtain ⟨tasks, called, rfl⟩ := Option.map_eq_some_iff.mp stepped
    have moved : tasks.pc (.client client) = operation.entry := by
      simp only [ArrayBlockingQueue.step, Option.ite_none_right_eq_some, Option.some.injEq]
        at called
      rw [← called.2, Monitor.State.goto_pc_self]
    refine invariant.of_effect (ArrayBlockingQueue.effect_of_call called) ?_ before.workers
      before.stop (fun _ _ _ role => role) ?_ invariant.flag
      (fun stopped => absurd (invariant.flag.mp running) stopped)
    · intro element locked
      rw [moved] at locked
      exact absurd locked (notLocked element)
    · rw [inRole, moved]
      exact produces
  · cases stepped
    exact invariant

/-- A step of a client inside its call. -/
theorem Invariant.client {state : State threadNum Client Runner} (invariant : Invariant state)
    {client : Client} (covered : Covered state (.client client))
    {tasks : ArrayBlockingQueue.State (Party threadNum Client) (Option Runner)}
    (stepped : ArrayBlockingQueue.advance state.tasks (.client client) = some tasks) :
    Invariant { state with tasks := tasks } := by
  have effect := invariant.effect stepped
  refine invariant.advance covered stepped fun stopped => ?_
  rw [wanted_of_effect effect (fun _ same => by cases same),
    expected_of_effect effect (fun same => by cases same)]
  have enough := invariant.enough stopped
  obtain ⟨-, ⟨ring, -⟩ | ⟨element, -, enqueued⟩⟩ :=
    ArrayBlockingQueue.advance_of_producing (invariant.role (.client client)) stepped
  · rw [ring]
    exact enough
  · have count : tasks.ring.count = state.tasks.ring.count + 1 := by
      rw [enqueued]
      rfl
    omega

/-- A thread that is woken contends for the lock, and wants what it wanted. -/
theorem Invariant.wake {state : State threadNum Client Runner} (invariant : Invariant state)
    {party : Party threadNum Client}
    {tasks : ArrayBlockingQueue.State (Party threadNum Client) (Option Runner)}
    (stepped : ArrayBlockingQueue.step state.tasks (.wake party) = some tasks) :
    Invariant { state with tasks := tasks } := by
  have effect := ArrayBlockingQueue.effect_of_wake stepped
  have moved : tasks.ring = state.tasks.ring ∧
      (tasks.pc party = (state.tasks.pc party).signalItem ∨
        tasks.pc party = (state.tasks.pc party).signalSpace) ∧
      ∀ element, tasks.pc party ≠ .offerLocked element := by
    simp only [ArrayBlockingQueue.step] at stepped
    split at stepped
    · rename_i element pc
      cases stepped
      rw [Monitor.State.goto_pc_self, pc]
      exact ⟨rfl, Or.inr rfl, fun _ same => (by cases same)⟩
    · rename_i pc
      cases stepped
      rw [Monitor.State.goto_pc_self, pc]
      exact ⟨rfl, Or.inl rfl, fun _ same => (by cases same)⟩
    · cases stepped
  obtain ⟨ring, signalled, notLocked⟩ := moved
  have kept : ∀ {Value : Type} (property : ArrayBlockingQueue.Pc (Option Runner) → Value),
      (∀ pc, property pc.signalItem = property pc) →
      (∀ pc, property pc.signalSpace = property pc) →
      ∀ other, property (tasks.pc other) = property (state.tasks.pc other) := by
    intro Value property item space other
    by_cases same : other = party
    · subst same
      obtain woken | woken := signalled
      · rw [woken]
        exact item _
      · rw [woken]
        exact space _
    · exact same_of_effect property item space effect same
  refine invariant.of_effect effect (fun element locked => absurd locked (notLocked element))
    state.workers state.stop (fun _ _ _ role => role) ?_ invariant.flag fun stopped => ?_
  · rw [kept (inRole state.workers state.stop party) (inRole_signalItem _ _ _)
      (inRole_signalSpace _ _ _)]
    exact invariant.role party
  · have wants : wanted { state with tasks := tasks } = wanted state :=
      wanted_congr fun index => kept _ ArrayBlockingQueue.wantsItem_signalItem
        ArrayBlockingQueue.wantsItem_signalSpace (.worker index)
    have opens : offerOpen (tasks.pc .stop) = offerOpen (state.tasks.pc .stop) :=
      kept offerOpen (fun pc => by cases pc <;> rfl) (fun pc => by cases pc <;> rfl) .stop
    rw [wants, ring]
    simp only [expected, opens]
    exact invariant.enough stopped

theorem Invariant.step {before after : State threadNum Client Runner}
    {action : Action threadNum Client Runner} (invariant : Invariant before)
    (covered : Covered before action) (stepped : step before action = some after) :
    Invariant after := by
  cases action with
  | worker index => exact invariant.worker stepped
  | stop => exact invariant.stopping covered stepped
  | offer client runner => exact invariant.call rfl (fun _ same => by cases same) stepped
  | put client runner => exact invariant.call rfl (fun _ same => by cases same) stepped
  | client client =>
    obtain ⟨tasks, advanced, rfl⟩ := Option.map_eq_some_iff.mp stepped
    exact invariant.client covered advanced
  | wake party =>
    obtain ⟨tasks, woken, rfl⟩ := Option.map_eq_some_iff.mp stepped
    exact invariant.wake woken

end ThreadPool

end Nattan
