/-
This file models `TaskMutex` and `Logger` as they are called, from coroutines and from
plain threads.

The mutex holds the task that locked it, and what is compared everywhere is `co_self()`.
In a coroutine this is its task. Outside of one it is null, which is also what a free
mutex holds. So a plain thread that locks a free mutex seems to have it already, and the
program panics. If it finds the mutex locked it goes on to the compare-and-swap, which
writes null for null once the mutex is free: the thread enters, and the mutex still reads
as free. If the mutex is still locked, the thread would queue its task, and there is
none.

What works are the calls from coroutines. In every run in which no plain thread locks,
the program goes on, a coroutine that locks a free mutex gets it, and the others stay
out. A plain thread never enters rightly in any run.
-/

import Nattan.CoMutex

namespace Nattan

namespace CoMutex

universe u

variable {Task : Type u} [DecidableEq Task]

/-! ### The owner is in its critical section -/

/-- The task that locked the mutex is between its lock and its release. -/
def Owned (state : State Task) : Prop :=
  ∀ task, state.lock = some task → state.pc task = .holding

section Steps

variable {state : State Task} {task : Task} {pc : Pc Task}

theorem Owned.move (owned : Owned state)
    (kept : state.pc task = .holding → pc = .holding) : Owned (state.move task pc) := by
  intro other locked
  have holds := owned other locked
  by_cases same : other = task
  · subst same
    rw [State.move_self]
    exact kept holds
  · rw [State.move_of_ne same]
    exact holds

omit [DecidableEq Task] in
theorem owned_of_free (free : state.lock = none) : Owned state := by
  intro other locked
  rw [free] at locked
  cases locked

theorem Owned.atomicLock (owned : Owned state) (place : state.pc task ≠ .holding)
    (failed : Pc Task) : Owned (state.atomicLock task failed) := by
  rw [State.atomicLock]
  split
  · intro other locked
    cases locked
    exact State.move_self ..
  · exact owned.move fun holds => absurd holds place

theorem Owned.enqueue (owned : Owned state) (place : state.pc task ≠ .holding) :
    Owned (state.enqueue task) := by
  rw [State.enqueue]
  split
  · exact owned.move fun holds => absurd holds place
  · have queued : Owned { state with wait_list := state.wait_list ++ [task] } := owned
    exact queued.move fun holds => absurd holds place

theorem Owned.wakeup (owned : Owned state) (place : state.pc task ≠ .holding) :
    Owned (state.wakeup task) := by
  rw [State.wakeup]
  split
  · rename_i free
    split
    · exact owned_of_free free
    · exact owned_of_free free
  · exact owned.move fun holds => absurd holds place

theorem Owned.resume (owned : Owned state) :
    Owned (state.move task (state.pc task).resume) :=
  owned.move fun holds => by rw [holds]; rfl

theorem Owned.advance {after : State Task} (owned : Owned state)
    (stepped : step state (.advance task) = some after) : Owned after := by
  rw [step] at stepped
  cases place : state.pc task with
  | outside | suspended | holding =>
    rw [place] at stepped
    cases stepped
  | tryLock | retry =>
    rw [place] at stepped
    cases stepped
    exact owned.atomicLock (by rw [place]; simp) _
  | waitSection =>
    rw [place] at stepped
    cases stepped
    exact owned.enqueue (by rw [place]; simp)
  | enqueued =>
    rw [place] at stepped
    cases stepped
    exact owned.move fun holds => absurd holds (by rw [place]; simp)
  | popped yielded =>
    rw [place] at stepped
    cases yielded with
    | false =>
      cases stepped
      exact owned.move fun holds => absurd holds (by rw [place]; simp)
    | true => cases stepped
  | resumed yielded =>
    rw [place] at stepped
    cases yielded with
    | false =>
      cases stepped
      exact owned.move fun holds => absurd holds (by rw [place]; simp)
    | true =>
      cases stepped
      exact owned.move fun holds => absurd holds (by rw [place]; simp)
  | wakeSection =>
    rw [place] at stepped
    cases stepped
    exact owned.wakeup (by rw [place]; simp)
  | resuming other =>
    rw [place] at stepped
    cases stepped
    have resumed : Owned (state.move other (state.pc other).resume) := owned.resume
    refine resumed.move fun holds => absurd holds ?_
    by_cases same : task = other
    · subst same
      rw [State.move_self, place]
      simp only [Pc.resume, reduceCtorEq, not_false_iff]
    · rw [State.move_of_ne same, place]
      simp only [reduceCtorEq, not_false_iff]

theorem Owned.step {after : State Task} (owned : Owned state) {action : Action Task}
    (stepped : step state action = some after) : Owned after := by
  cases action with
  | lock task =>
    obtain ⟨begins, rfl⟩ := stepped_of_guard stepped
    exact owned.move fun holds => absurd holds (by rw [begins.1]; simp)
  | tryLock task =>
    obtain ⟨begins, rfl⟩ := stepped_of_guard stepped
    exact owned.atomicLock (by rw [begins.1]; simp) _
  | unlock task =>
    obtain ⟨-, rfl⟩ := stepped_of_guard stepped
    exact owned_of_free rfl
  | advance task => exact owned.advance stepped

end Steps

end CoMutex

namespace TaskMutex

universe u v

/-! ### The callers and their steps -/

/-- Who calls: a coroutine with its task, or a thread outside of any. -/
inductive Caller (Task : Type u) (Thread : Type v) where
  | task (task : Task)
  | thread (thread : Thread)
  deriving DecidableEq, Repr

/-- `co_self()`, which is null outside of a coroutine. -/
def Caller.coSelf {Task : Type u} {Thread : Type v} : Caller Task Thread → Option Task
  | .task own => some own
  | .thread _ => none

/-- Where a plain thread is in the code. -/
inductive Place where
  /-- Outside of the calls, and without the mutex. -/
  | outside
  /-- Before the compare-and-swap of `co_mutex_lock`. -/
  | tryLock
  /-- Before the section of `task_wait_mutex`. -/
  | waitSection
  /-- Between the return of `lock` and the call of `unlock`. -/
  | inside
  deriving DecidableEq, Repr

/-- The messages of `PANIC`. -/
inductive Message where
  | recusiveMutexLock
  | mutexIsNotLockedByCurrentTask
  deriving DecidableEq, Repr

/-- How the program ends: by `PANIC`, or by writing to a task that is null. -/
inductive Ending where
  | panic (message : Message)
  | fault
  deriving DecidableEq, Repr

variable {Task : Type u} {Thread : Type v}

/-- A mutex, the places of the callers, and how the program has ended. -/
structure State (Task : Type u) (Thread : Type v) where
  mutex : CoMutex.State Task
  plain : Thread → Place
  ended : Option Ending

def initial : State Task Thread where
  mutex := CoMutex.initial
  plain := fun _ => .outside
  ended := none

/-- The caller is outside of the calls, and without the mutex. -/
def State.outside (state : State Task Thread) : Caller Task Thread → Prop
  | .task task => state.mutex.pc task = .outside
  | .thread thread => state.plain thread = .outside

/-- The caller is between its lock and its unlock. -/
def State.inside (state : State Task Thread) : Caller Task Thread → Prop
  | .task task => state.mutex.pc task = .holding
  | .thread thread => state.plain thread = .inside

/-- `co_mutex_locked`. -/
def State.locked (state : State Task Thread) : Bool :=
  state.mutex.lock.isSome

variable [DecidableEq Task] [DecidableEq Thread]

instance (state : State Task Thread) (caller : Caller Task Thread) :
    Decidable (state.outside caller) :=
  match caller with
  | .task task => inferInstanceAs (Decidable (state.mutex.pc task = .outside))
  | .thread thread => inferInstanceAs (Decidable (state.plain thread = .outside))

instance (state : State Task Thread) (caller : Caller Task Thread) :
    Decidable (state.inside caller) :=
  match caller with
  | .task task => inferInstanceAs (Decidable (state.mutex.pc task = .holding))
  | .thread thread => inferInstanceAs (Decidable (state.plain thread = .inside))

/-- A plain thread goes to another place. -/
def State.move (state : State Task Thread) (thread : Thread) (place : Place) :
    State Task Thread :=
  { state with plain := Function.update state.plain thread place }

/-- A task takes a step at the mutex. -/
def State.stepTask (state : State Task Thread) (action : CoMutex.Action Task) :
    Option (State Task Thread) :=
  (CoMutex.step state.mutex action).map fun mutex => { state with mutex := mutex }

def State.finish (state : State Task Thread) (ending : Ending) : State Task Thread :=
  { state with ended := some ending }

/-- A caller calls `lock` or `unlock`, or takes its next step in the call. -/
inductive Action (Task : Type u) (Thread : Type v) where
  | lock (caller : Caller Task Thread)
  | unlock (caller : Caller Task Thread)
  | advance (caller : Caller Task Thread)
  deriving DecidableEq, Repr

/-- The first check of `co_mutex_lock`, and what follows it. -/
def State.lock (state : State Task Thread) (caller : Caller Task Thread) :
    Option (State Task Thread) :=
  if state.mutex.lock = caller.coSelf then some (state.finish (.panic .recusiveMutexLock))
  else
    match caller with
    | .task task => state.stepTask (.lock task)
    | .thread thread => some (state.move thread .tryLock)

/-- `co_mutex_unlock`. A plain thread that comes past the check finds the mutex free and
returns. -/
def State.unlock (state : State Task Thread) (caller : Caller Task Thread) :
    Option (State Task Thread) :=
  if state.mutex.lock ≠ caller.coSelf then
    some (state.finish (.panic .mutexIsNotLockedByCurrentTask))
  else
    match caller with
    | .task task => state.stepTask (.unlock task)
    | .thread thread => some (state.move thread .outside)

/-- The steps of a plain thread in `co_mutex_lock`. Its compare-and-swap writes null for null, and
`task_wait_mutex` adds the task that it does not have to the list. -/
def State.advancePlain (state : State Task Thread) (thread : Thread) :
    Option (State Task Thread) :=
  match state.plain thread with
  | .tryLock =>
    if state.mutex.lock = none then some (state.move thread .inside)
    else some (state.move thread .waitSection)
  | .waitSection =>
    if state.mutex.lock = none then some (state.move thread .tryLock)
    else some (state.finish .fault)
  | .outside | .inside => none

/-- A step. The calls come in pairs: nobody locks twice, or unlocks without having locked. -/
def step (state : State Task Thread) (action : Action Task Thread) :
    Option (State Task Thread) :=
  if state.ended.isSome then none
  else
    match action with
    | .lock caller => if state.outside caller then state.lock caller else none
    | .unlock caller => if state.inside caller then state.unlock caller else none
    | .advance (.task task) => state.stepTask (.advance task)
    | .advance (.thread thread) => state.advancePlain thread

/-- The program goes on, whoever is inside has the mutex read as locked, and nobody else is
inside. -/
structure Works (state : State Task Thread) : Prop where
  running : state.ended = none
  locked : ∀ caller, state.inside caller → state.locked = true
  exclusive : ∀ caller other, state.inside caller → state.inside other → caller = other

/-- The step is no lock of a plain thread. -/
def FromCoroutine (_state : State Task Thread) (action : Action Task Thread) : Prop :=
  ∀ thread, action ≠ .lock (.thread thread)

instance (state : State Task Thread) (action : Action Task Thread) :
    Decidable (FromCoroutine state action) :=
  match action with
  | .lock (.thread thread) => isFalse fun allowed => allowed thread rfl
  | .lock (.task _) => isTrue fun _ same => by cases same
  | .unlock _ => isTrue fun _ same => by cases same
  | .advance _ => isTrue fun _ same => by cases same

/-- The caller locks, and is inside after its first try. -/
def Enters (state : State Task Thread) (caller : Caller Task Thread) : Prop :=
  ∃ begun after, step state (.lock caller) = some begun ∧
    step begun (.advance caller) = some after ∧ Works after ∧ after.inside caller

/-! ### `Logger` -/

/-- The levels, in their order. -/
inductive LoggerLevel where
  | ERROR
  | INFO
  | DEBUG
  deriving DecidableEq, Repr

def LoggerLevel.toNat : LoggerLevel → Nat
  | .ERROR => 0
  | .INFO => 1
  | .DEBUG => 2

/-- The functions of a `Logger`. -/
inductive LoggerCall where
  | printf
  | debug
  | info
  | error
  deriving DecidableEq, Repr

/-- The function comes to its lock at this level of the logger. -/
def LoggerCall.locks (level : LoggerLevel) : LoggerCall → Bool
  | .printf => true
  | .debug => !decide (level.toNat < LoggerLevel.DEBUG.toNat)
  | .info => !decide (level.toNat < LoggerLevel.INFO.toNat)
  | .error => !decide (level.toNat < LoggerLevel.ERROR.toNat)

/-- A caller calls a function of the logger, takes its next step in the lock, or returns. -/
inductive LoggerAction (Task : Type u) (Thread : Type v) where
  | call (caller : Caller Task Thread) (function : LoggerCall)
  | advance (caller : Caller Task Thread)
  | returns (caller : Caller Task Thread)
  deriving DecidableEq, Repr

/-- A step of the callers of a logger. The guard locks the mutex, and unlocks it on return. -/
def loggerStep (level : LoggerLevel) (state : State Task Thread) :
    LoggerAction Task Thread → Option (State Task Thread)
  | .call caller function =>
    if function.locks level then step state (.lock caller)
    else if state.ended.isSome then none
    else some state
  | .advance caller => step state (.advance caller)
  | .returns caller => step state (.unlock caller)

/-- The call is from a coroutine, or is dropped because of its level. -/
def QuietOutside (level : LoggerLevel) (_state : State Task Thread)
    (action : LoggerAction Task Thread) : Prop :=
  ∀ thread function, action = .call (.thread thread) function → function.locks level = false

instance (level : LoggerLevel) (state : State Task Thread)
    (action : LoggerAction Task Thread) : Decidable (QuietOutside level state action) :=
  match action with
  | .call (.thread thread) function =>
    if dropped : function.locks level = false then
      isTrue fun _ _ same => by cases same; exact dropped
    else isFalse fun quiet => dropped (quiet thread function rfl)
  | .call (.task _) _ => isTrue fun _ _ same => by cases same
  | .advance _ => isTrue fun _ _ same => by cases same
  | .returns _ => isTrue fun _ _ same => by cases same

/-! ### Runs without locks of plain threads -/

/-- The owner is inside, the mutex is in order, and the plain threads are outside. -/
structure Good (state : State Task Thread) : Prop where
  running : state.ended = none
  inv : CoMutex.Inv state.mutex
  owned : CoMutex.Owned state.mutex
  plain : ∀ thread, state.plain thread = .outside

omit [DecidableEq Task] [DecidableEq Thread] in
theorem good_initial : Good (initial : State Task Thread) where
  running := rfl
  inv := CoMutex.inv_initial
  owned := CoMutex.owned_of_free rfl
  plain := fun _ => rfl

section Steps

variable {state after : State Task Thread}

omit [DecidableEq Thread] in
theorem stepTask_eq_some {action : CoMutex.Action Task}
    (stepped : state.stepTask action = some after) :
    ∃ mutex, CoMutex.step state.mutex action = some mutex ∧
      after = { state with mutex := mutex } := by
  obtain ⟨mutex, moved, same⟩ := Option.map_eq_some_iff.mp stepped
  exact ⟨mutex, moved, same.symm⟩

theorem step_running {action : Action Task Thread} (stepped : step state action = some after) :
    state.ended = none := by
  unfold step at stepped
  cases ended : state.ended with
  | none => rfl
  | some ending =>
    rw [ended] at stepped
    cases stepped

omit [DecidableEq Task] [DecidableEq Thread] in
theorem not_isSome_of_running (running : state.ended = none) : ¬ state.ended.isSome = true := by
  rw [running]
  exact Bool.false_ne_true

/-- Every step leaves the mutex as it is, or is a step of a task at the mutex. -/
theorem step_mutex {action : Action Task Thread} (stepped : step state action = some after) :
    after.mutex = state.mutex ∨
      ∃ move, CoMutex.step state.mutex move = some after.mutex := by
  have task : ∀ move, state.stepTask move = some after →
      ∃ move, CoMutex.step state.mutex move = some after.mutex := by
    intro move moved
    obtain ⟨mutex, stepped, same⟩ := stepTask_eq_some moved
    rw [same]
    exact ⟨move, stepped⟩
  have running := not_isSome_of_running (step_running stepped)
  unfold step at stepped
  rw [if_neg running] at stepped
  cases action with
  | lock caller =>
    simp only [State.lock] at stepped
    split at stepped
    · split at stepped
      · cases stepped
        exact Or.inl rfl
      · cases caller with
        | task own => exact Or.inr (task _ stepped)
        | thread thread =>
          cases stepped
          exact Or.inl rfl
    · cases stepped
  | unlock caller =>
    simp only [State.unlock] at stepped
    split at stepped
    · split at stepped
      · cases stepped
        exact Or.inl rfl
      · cases caller with
        | task own => exact Or.inr (task _ stepped)
        | thread thread =>
          cases stepped
          exact Or.inl rfl
    · cases stepped
  | advance caller =>
    cases caller with
    | task own => exact Or.inr (task _ stepped)
    | thread thread =>
      simp only [State.advancePlain] at stepped
      cases place : state.plain thread with
      | outside | inside =>
        rw [place] at stepped
        cases stepped
      | tryLock | waitSection =>
        rw [place] at stepped
        simp only at stepped
        split at stepped
        · cases stepped
          exact Or.inl rfl
        · cases stepped
          exact Or.inl rfl

/-- In every run, the task that locked the mutex is inside. -/
theorem owned_of_reachable (reached : Reachable step initial state) :
    CoMutex.Owned state.mutex := by
  refine Reachable.invariant (fun state => CoMutex.Owned state.mutex)
    (CoMutex.owned_of_free rfl) ?_ reached
  intro before action after owned stepped
  rcases step_mutex stepped with same | ⟨move, moved⟩
  · rw [same]
    exact owned
  · exact owned.step moved

/-- From a good state, every step but a lock of a plain thread is one of a task at the mutex. -/
theorem Good.step_eq (good : Good state) {action : Action Task Thread}
    (allowed : FromCoroutine state action) (stepped : step state action = some after) :
    ∃ move mutex, CoMutex.step state.mutex move = some mutex ∧
      after = { state with mutex := mutex } := by
  unfold TaskMutex.step at stepped
  rw [if_neg (not_isSome_of_running good.running)] at stepped
  cases action with
  | lock caller =>
    cases caller with
    | thread thread => exact absurd rfl (allowed thread)
    | task own =>
      simp only [State.lock] at stepped
      split at stepped
      · rename_i outside
        split at stepped
        · rename_i locked
          have holds := good.owned own locked
          rw [show state.mutex.pc own = .outside from outside] at holds
          cases holds
        · exact ⟨_, stepTask_eq_some stepped⟩
      · cases stepped
  | unlock caller =>
    cases caller with
    | thread thread =>
      simp only at stepped
      split at stepped
      · rename_i inside
        rw [State.inside, good.plain thread] at inside
        cases inside
      · cases stepped
    | task own =>
      simp only [State.unlock] at stepped
      split at stepped
      · rename_i inside
        rw [if_neg fun different => different (good.inv.owner own inside)] at stepped
        exact ⟨_, stepTask_eq_some stepped⟩
      · cases stepped
  | advance caller =>
    cases caller with
    | task own => exact ⟨_, stepTask_eq_some stepped⟩
    | thread thread =>
      simp only [State.advancePlain, good.plain thread] at stepped
      cases stepped

theorem Good.step (good : Good state) {action : Action Task Thread}
    (allowed : FromCoroutine state action) (stepped : step state action = some after) :
    Good after := by
  obtain ⟨move, mutex, moved, same⟩ := good.step_eq allowed stepped
  rw [same]
  exact ⟨good.running, good.inv.step moved, good.owned.step moved, good.plain⟩

theorem good_of_reachable (reached : ReachableBy TaskMutex.step FromCoroutine initial state) :
    Good state :=
  ReachableBy.invariant Good good_initial
    (fun _ _ _ good allowed stepped => good.step allowed stepped) reached

omit [DecidableEq Task] [DecidableEq Thread] in
theorem Good.works (good : Good state) : Works state := by
  have task : ∀ caller, state.inside caller →
      ∃ own, caller = .task own ∧ state.mutex.lock = some own := by
    intro caller inside
    cases caller with
    | task own => exact ⟨own, rfl, good.inv.owner own inside⟩
    | thread thread =>
      rw [State.inside, good.plain thread] at inside
      cases inside
  refine ⟨good.running, ?_, ?_⟩
  · intro caller inside
    obtain ⟨own, -, locked⟩ := task caller inside
    rw [State.locked, locked, Option.isSome_some]
  · intro caller other inside otherInside
    obtain ⟨own, same, locked⟩ := task caller inside
    obtain ⟨own', same', locked'⟩ := task other otherInside
    rw [locked] at locked'
    rw [same, same', Option.some.inj locked']

/-! ### Locking a free mutex -/

/-- A coroutine that locks a free mutex gets it. -/
theorem Good.enters (good : Good state) {own : Task} (outside : state.mutex.pc own = .outside)
    (free : state.mutex.lock = none) : Enters state (.task own : Caller Task Thread) := by
  have others : ¬ state.mutex.lock = some own := by
    rw [free]
    exact fun same => (by cases same)
  have begins : CoMutex.step state.mutex (.lock own) = some (state.mutex.move own .tryLock) :=
    if_pos ⟨outside, others⟩
  have takes : CoMutex.step (state.mutex.move own .tryLock) (.advance own) =
      some ((state.mutex.move own .tryLock).atomicLock own .waitSection) := by
    rw [CoMutex.step, CoMutex.State.move_self]
  have stillFree : (state.mutex.move own .tryLock).lock = none := free
  have taken : ((state.mutex.move own .tryLock).atomicLock own .waitSection).pc own =
      .holding := by
    rw [CoMutex.State.atomicLock, if_pos stillFree, CoMutex.State.move_self]
  have running := not_isSome_of_running good.running
  have first : TaskMutex.step state (.lock (.task own)) =
      some { state with mutex := state.mutex.move own .tryLock } := by
    unfold TaskMutex.step
    rw [if_neg running]
    simp only [State.lock, Caller.coSelf, if_neg others, State.stepTask, begins, Option.map_some]
    exact if_pos outside
  have second : TaskMutex.step
      { state with mutex := state.mutex.move own .tryLock } (.advance (.task own)) =
      some { state with
        mutex := (state.mutex.move own .tryLock).atomicLock own .waitSection } := by
    unfold TaskMutex.step
    rw [if_neg running]
    simp only [State.stepTask, takes, Option.map_some]
  have goodFirst := good.step (fun thread same => (by cases same)) first
  have goodSecond := goodFirst.step (fun thread same => (by cases same)) second
  exact ⟨_, _, first, second, goodSecond.works, taken⟩

/-- A plain thread that locks a free mutex ends the program. -/
theorem step_lock_thread (running : state.ended = none) {thread : Thread}
    (outside : state.plain thread = .outside) (free : state.mutex.lock = none) :
    TaskMutex.step state (.lock (.thread thread)) =
      some (state.finish (.panic .recusiveMutexLock)) := by
  unfold TaskMutex.step
  rw [if_neg (not_isSome_of_running running)]
  exact (if_pos outside).trans (if_pos free)

theorem not_enters_thread (running : state.ended = none) {thread : Thread}
    (outside : state.plain thread = .outside) (free : state.mutex.lock = none) :
    ¬ Enters state (.thread thread : Caller Task Thread) := by
  rintro ⟨begun, after, first, second, -, -⟩
  rw [step_lock_thread running outside free] at first
  cases first
  have stopped := step_running second
  cases stopped

/-- Locking a free mutex works from a coroutine, and from nowhere else. -/
theorem Good.enters_iff (good : Good state) {caller : Caller Task Thread}
    (outside : state.outside caller) (free : state.mutex.lock = none) :
    Enters state caller ↔ ∃ own, caller = .task own := by
  cases caller with
  | task own => exact ⟨fun _ => ⟨own, rfl⟩, fun _ => good.enters outside free⟩
  | thread thread =>
    refine ⟨fun enters => ?_, fun ⟨own, same⟩ => (by cases same)⟩
    exact absurd enters (not_enters_thread good.running outside free)

/-- A plain thread that is inside is there beside the mutex. -/
theorem Works.not_inside_thread (works : Works state)
    (reached : Reachable TaskMutex.step initial state) (thread : Thread) :
    ¬ state.inside (.thread thread) := by
  intro inside
  have locked := works.locked _ inside
  obtain ⟨own, lock⟩ := Option.isSome_iff_exists.mp locked
  have same := works.exclusive (.thread thread) (.task own) inside
    (owned_of_reachable reached own lock)
  cases same

/-! ### Runs of a logger -/

/-- The calls of a logger lock and unlock its mutex. -/
theorem reachableBy_of_loggerStep {level : LoggerLevel}
    (reached : ReachableBy (loggerStep level) (QuietOutside level) initial state) :
    ReachableBy TaskMutex.step FromCoroutine initial state := by
  induction reached with
  | refl => exact Relation.ReflTransGen.refl
  | tail _ last hypothesis =>
    obtain ⟨action, quiet, stepped⟩ := last
    cases action with
    | call caller function =>
      simp only [loggerStep] at stepped
      split at stepped
      · rename_i locks
        refine hypothesis.tail ⟨.lock caller, fun thread same => ?_, stepped⟩
        cases same
        rw [quiet thread function rfl] at locks
        cases locks
      · split at stepped
        · cases stepped
        · cases stepped
          exact hypothesis
    | advance caller =>
      exact hypothesis.tail ⟨.advance caller, fun thread same => (by cases same), stepped⟩
    | returns caller =>
      exact hypothesis.tail ⟨.unlock caller, fun thread same => (by cases same), stepped⟩

/-- In every run in which no plain thread locks, the mutex works, and locking it while it is free
works for the coroutines and for nobody else. So does a logger, in every run in which what the
plain threads log is dropped. In every run, a plain thread that is inside is not alone, or the
mutex reads as free. -/
theorem mutex_works_from_coroutines (level : LoggerLevel) (state : State Task Thread) :
    (ReachableBy TaskMutex.step FromCoroutine initial state →
      Works state ∧ ∀ caller, state.outside caller → state.locked = false →
        (Enters state caller ↔ ∃ own, caller = .task own)) ∧
    (ReachableBy (loggerStep level) (QuietOutside level) initial state → Works state) ∧
    (Reachable TaskMutex.step initial state → Works state →
      ∀ thread, ¬ state.inside (.thread thread)) := by
  refine ⟨fun reached => ?_, fun reached => ?_, fun reached works => ?_⟩
  · have good := good_of_reachable reached
    refine ⟨good.works, fun caller outside free => good.enters_iff outside ?_⟩
    exact Option.not_isSome_iff_eq_none.mp (Bool.eq_false_iff.mp free)
  · exact (good_of_reachable (reachableBy_of_loggerStep reached)).works
  · exact works.not_inside_thread reached

end Steps

/-- A coroutine locks, or logs, and a message of a plain thread is dropped. -/
theorem mutex_works_from_coroutines_oneLocks :
    ∃ state : State Bool Unit,
      ReachableBy step FromCoroutine initial state ∧
      ReachableBy (loggerStep .INFO) (QuietOutside .INFO) initial state ∧
      state.inside (.task false) ∧ Works state ∧ ¬ state.inside (.thread ()) := by
  obtain ⟨state, executed, logged, inside⟩ : ∃ state : State Bool Unit,
      runBy step FromCoroutine initial [.lock (.task false), .advance (.task false)] =
        some state ∧
      runBy (loggerStep .INFO) (QuietOutside .INFO) initial
        [.call (.task false) .info, .call (.thread ()) .debug, .advance (.task false)] =
          some state ∧ state.inside (.task false) :=
    ⟨_, rfl, rfl, rfl⟩
  have reached := reachableBy_of_runBy executed
  have works := (mutex_works_from_coroutines .INFO state).2.1 (reachableBy_of_runBy logged)
  exact ⟨state, reached, reachableBy_of_runBy logged, inside,
    ((mutex_works_from_coroutines .INFO state).1 reached).1,
    (mutex_works_from_coroutines .INFO state).2.2 reached.reachable works ()⟩

/-- A message that is logged outside of a coroutine ends the program. So does a lock while the
mutex is locked, or the plain thread enters when it is unlocked, and a second caller with it. -/
theorem plain_lock_fails :
    (∃ state : State Bool Unit,
      run (loggerStep .INFO) initial [.call (.thread ()) .info] = some state ∧
        state.ended = some (.panic .recusiveMutexLock)) ∧
    (∃ state : State Bool Unit,
      run step initial [.lock (.task false), .advance (.task false), .lock (.thread ()),
          .advance (.thread ()), .advance (.thread ())] = some state ∧
        state.ended = some .fault) ∧
    ∃ state : State Bool Unit,
      run step initial [.lock (.task false), .advance (.task false), .lock (.thread ()),
          .unlock (.task false), .advance (.thread ()), .lock (.task true),
          .advance (.task true)] = some state ∧
        state.inside (.thread ()) ∧ state.inside (.task true) :=
  ⟨⟨_, rfl, rfl⟩, ⟨_, rfl, rfl⟩, ⟨_, rfl, rfl, rfl⟩⟩

end TaskMutex

end Nattan
