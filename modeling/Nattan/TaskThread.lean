/-
This file models how runners reach the boss of a `TaskThread`: the submission
queue `fTasks`, the boss's own channel, and the boss's loop.

A plain thread submits with `fTasks.offer`, a coroutine by sending to the boss's
channel. The boss polls `fTasks` first; when the poll returns `false` it blocks
in the channel's `recv` until a coroutine sends. Nothing a plain thread does
wakes it: the other branch of `submit` signals the boss through the channel and
then the scheduler, `offer` signals only `notEmpty_`, on which nobody waits. So a
runner that is offered between the boss's poll and its next message stays in
`fTasks` for as long as no coroutine submits anything.

The two queues are the models of `Nattan/ArrayBlockingQueue.lean` and
`Nattan/Chan.lean`, with the boss as one more party of each; the step that hands
a runner to a worker is one step here.
-/

import Nattan.ArrayBlockingQueue
import Nattan.Chan

namespace Nattan.TaskThread

open Monitor

universe u v w

/-- Where the boss's loop stands: in `fThread.fTasks.poll(runner)`, in `recv()`, or with a
runner to hand to a worker. -/
inductive BossPc (Runner : Type w) where
  | polling
  | receiving
  | dispatching (runner : Runner)
  deriving DecidableEq, Repr

/-- The submission side of a task thread. In both queues `none` is the boss. `accepted` are
the runners for which a plain thread's `submit` has returned `true`, `dispatched` those the
boss has handed to a worker. -/
structure State (Plain : Type u) (Coroutine : Type v) (Runner : Type w) where
  tasks : ArrayBlockingQueue.State (Option Plain) Runner
  chan : Chan.State (Option Coroutine) Runner
  boss : BossPc Runner
  accepted : List Runner
  dispatched : List Runner

variable {Plain : Type u} {Coroutine : Type v} {Runner : Type w}

/-- `DEFAULT_CAPCITY` of `fTasks`. -/
def tasksCapcity : Nat := 64

/-- The size of the boss's channel, `new TaskBoss(*this, 128)`. -/
def bossChanSize : Nat := 128

section

variable [DecidableEq Plain] [DecidableEq Coroutine]

/-- The thread when its boss has started and is about to poll for the first time. -/
def State.new [Inhabited Runner] : State Plain Coroutine Runner where
  tasks := (ArrayBlockingQueue.State.new tasksCapcity).goto none .pollTest
  chan := Chan.State.new bossChanSize
  boss := .polling
  accepted := []
  dispatched := []

inductive Action (Plain : Type u) (Coroutine : Type v) (Runner : Type w) where
  | submit (plain : Plain) (runner : Runner)
  | plain (plain : Plain)
  | submitTask (coroutine : Coroutine) (runner : Runner)
  | coroutine (coroutine : Coroutine)
  | boss

/-- A step of a plain thread inside `submit`. The runner counts as accepted when `offer`
returns `true`. -/
def stepPlain (state : State Plain Coroutine Runner) (plain : Plain) :
    Option (State Plain Coroutine Runner) :=
  (ArrayBlockingQueue.advance state.tasks (some plain)).map fun tasks =>
    match state.tasks.pc (some plain) with
    | .unlock (.accepted runner) => { state with tasks, accepted := state.accepted ++ [runner] }
    | _ => { state with tasks }

/-- A step of the boss's loop. -/
def stepBoss (state : State Plain Coroutine Runner) : Option (State Plain Coroutine Runner) :=
  match state.boss with
  | .polling =>
    (ArrayBlockingQueue.advance state.tasks none).bind fun tasks =>
      match tasks.pc none with
      | .idle (some (.item runner)) => some { state with tasks, boss := .dispatching runner }
      | .idle _ =>
        (Chan.step state.chan (.call none .recv)).map fun chan =>
          { state with tasks, chan, boss := .receiving }
      | _ => some { state with tasks }
  | .receiving =>
    (Chan.step state.chan (.run none)).map fun chan =>
      match chan.queue.pc none with
      | .idle (some (.item runner)) => { state with chan, boss := .dispatching runner }
      | _ => { state with chan }
  | .dispatching runner =>
    (ArrayBlockingQueue.step state.tasks (.call none .poll)).map fun tasks =>
      { state with tasks, boss := .polling, dispatched := state.dispatched ++ [runner] }

/-- One atomic step of the submission side. -/
def step (state : State Plain Coroutine Runner) :
    Action Plain Coroutine Runner → Option (State Plain Coroutine Runner)
  | .submit plain runner =>
    (ArrayBlockingQueue.step state.tasks (.call (some plain) (.offer runner))).map fun tasks =>
      { state with tasks }
  | .plain plain => stepPlain state plain
  | .submitTask coroutine runner =>
    (Chan.step state.chan (.call (some coroutine) (.send runner))).map fun chan =>
      { state with chan }
  | .coroutine coroutine =>
    (Chan.step state.chan (.run (some coroutine))).map fun chan => { state with chan }
  | .boss => stepBoss state

end

/-- The boss is in `recv` and has not taken a message. -/
def State.bossSeeks (state : State Plain Coroutine Runner) : Bool :=
  (state.chan.queue.pc none).seeking

/-- The next step of the plain thread enqueues its runner while the boss seeks a message and
its channel has none. -/
def State.offersUnseen (state : State Plain Coroutine Runner) (plain : Plain) : Bool :=
  match state.tasks.pc (some plain) with
  | .offerLocked _ =>
    !state.tasks.ring.isFull && state.bossSeeks && state.chan.queue.ring.isEmpty
  | _ => false

/-- The next step of the boss fails to lock a non-empty `fTasks` while its channel has no
message. -/
def State.pollsBlind (state : State Plain Coroutine Runner) : Bool :=
  match state.tasks.pc none with
  | .pollTryLock =>
    state.tasks.owner.isSome && !state.tasks.ring.isEmpty && state.chan.queue.ring.isEmpty
  | _ => false

/-- The step does not put a runner where the boss will not look for it. -/
def Noticed (state : State Plain Coroutine Runner) : Action Plain Coroutine Runner → Prop
  | .plain plain => state.offersUnseen plain = false
  | .boss => state.pollsBlind = false
  | .submit _ _ | .submitTask _ _ | .coroutine _ => True

instance (state : State Plain Coroutine Runner) (action : Action Plain Coroutine Runner) :
    Decidable (Noticed state action) :=
  match action with
  | .plain plain => inferInstanceAs (Decidable (state.offersUnseen plain = false))
  | .boss => inferInstanceAs (Decidable (state.pollsBlind = false))
  | .submit _ _ => inferInstanceAs (Decidable True)
  | .submitTask _ _ => inferInstanceAs (Decidable True)
  | .coroutine _ => inferInstanceAs (Decidable True)

/-! ### The invariant -/

/-- Plain threads only offer, coroutines only send, the boss only polls and receives; and while
the boss seeks a message with runners left in `fTasks`, there is a message for it. -/
structure Invariant (state : State Plain Coroutine Runner) : Prop where
  offers : ∀ plain, (state.tasks.pc (some plain)).offering = true
  polls : (state.tasks.pc none).polling = true
  sends : ∀ coroutine, (state.chan.queue.pc (some coroutine)).sending = true
  receives : (state.chan.queue.pc none).receiving = true
  noticed : state.bossSeeks = true → state.tasks.ring.count ≠ 0 → state.chan.queue.ring.count ≠ 0

namespace Invariant

variable {before : State Plain Coroutine Runner}

/-- A step on `fTasks` that keeps everyone's part and adds no runner keeps the invariant. -/
theorem of_tasks (invariant : Invariant before) (boss : BossPc Runner)
    (accepted dispatched : List Runner) {tasks : ArrayBlockingQueue.State (Option Plain) Runner}
    (offers : ∀ plain, (tasks.pc (some plain)).offering = true)
    (polls : (tasks.pc none).polling = true)
    (fewer : tasks.ring.count ≤ before.tasks.ring.count) :
    Invariant { before with tasks, boss, accepted, dispatched } where
  offers := offers
  polls := polls
  sends := invariant.sends
  receives := invariant.receives
  noticed seeks left := by
    have remaining : tasks.ring.count ≠ 0 := left
    exact invariant.noticed seeks (by omega)

/-- A step on the boss's channel after which the boss seeks a message only if it did before,
with no fewer messages there, keeps the invariant. -/
theorem of_chan (invariant : Invariant before) (boss : BossPc Runner)
    {chan : Chan.State (Option Coroutine) Runner}
    (sends : ∀ coroutine, (chan.queue.pc (some coroutine)).sending = true)
    (receives : (chan.queue.pc none).receiving = true)
    (seeking : (chan.queue.pc none).seeking = true →
      before.bossSeeks = true ∧ before.chan.queue.ring.count ≤ chan.queue.ring.count) :
    Invariant { before with chan, boss } where
  offers := invariant.offers
  polls := invariant.polls
  sends := sends
  receives := receives
  noticed seeks left := by
    obtain ⟨sought, more⟩ := seeking seeks
    have messages : before.chan.queue.ring.count ≠ 0 := invariant.noticed sought left
    show chan.queue.ring.count ≠ 0
    omega

section Tasks

variable [DecidableEq Plain]

theorem new [Inhabited Runner] : Invariant (State.new : State Plain Coroutine Runner) where
  offers _ := rfl
  polls := rfl
  sends _ := rfl
  receives := rfl
  noticed seeks := by cases seeks

theorem submit (invariant : Invariant before) (plain : Plain) (runner : Runner) :
    Invariant { before with
      tasks := before.tasks.goto (some plain) (.offerTest runner) } := by
  refine invariant.of_tasks before.boss before.accepted before.dispatched (fun other => ?_) ?_
    le_rfl
  · by_cases same : other = plain
    · subst same
      rw [State.goto_pc_self]
      rfl
    · rw [State.goto_pc_of_ne _ _ (by simpa using same)]
      exact invariant.offers other
  · rw [State.goto_pc_of_ne _ _ (by simp)]
    exact invariant.polls

/-- The enqueue of an `offer` is the one step that adds a runner; the guard says that the boss
will see it. -/
theorem enqueue (invariant : Invariant before) (plain : Plain) (runner : Runner)
    (accepted : List Runner)
    (noticed : before.bossSeeks = false ∨ before.chan.queue.ring.isEmpty = false) :
    Invariant { before with
      tasks := before.tasks.enqueue ArrayBlockingQueue.roles (some plain) runner
        (.unlock (.accepted runner))
      accepted } where
  offers other := by
    by_cases same : other = plain
    · subst same
      rw [State.enqueue_pc_self]
      rfl
    · rw [State.enqueue_pc_of_ne _ _ _ (by simpa using same)]
      show (before.tasks.pc (some other)).signalItem.offering = true
      rw [ArrayBlockingQueue.signalItem_of_offering (invariant.offers other)]
      exact invariant.offers other
  polls := by
    rw [State.enqueue_pc_of_ne _ _ _ (by simp)]
    show (before.tasks.pc none).signalItem.polling = true
    rw [ArrayBlockingQueue.signalItem_of_polling invariant.polls]
    exact invariant.polls
  sends := invariant.sends
  receives := invariant.receives
  noticed seeks _ := by
    rcases noticed with idle | message
    · exact absurd (seeks.symm.trans idle) (by simp)
    · exact Nat.ne_of_gt (Ring.count_pos message)

/-- A step of a plain thread inside `submit`. -/
theorem plain (invariant : Invariant before) {plain : Plain}
    (guard : Noticed before (.plain plain)) {tasks : ArrayBlockingQueue.State (Option Plain) Runner}
    (stepped : ArrayBlockingQueue.advance before.tasks (some plain) = some tasks)
    (accepted : List Runner) : Invariant { before with tasks, accepted } := by
  obtain ⟨offering, untouched | ⟨runner, pc, space, rfl⟩⟩ :=
    ArrayBlockingQueue.advance_of_offering (invariant.offers plain) stepped
  · obtain ⟨sameRing, others⟩ := untouched
    refine invariant.of_tasks before.boss accepted before.dispatched (fun other => ?_) ?_
      (le_of_eq (congrArg Ring.count sameRing))
    · by_cases same : other = plain
      · subst same
        exact offering
      · rw [others _ (by simpa using same)]
        exact invariant.offers other
    · rw [others _ (by simp)]
      exact invariant.polls
  · have seen : before.offersUnseen plain = false := guard
    simp only [State.offersUnseen, pc, space, Bool.not_false, Bool.true_and,
      Bool.and_eq_false_iff] at seen
    exact invariant.enqueue plain runner accepted seen

/-- A step of the boss inside `poll` leaves the plain threads' part as it is. -/
theorem poll (invariant : Invariant before)
    {tasks : ArrayBlockingQueue.State (Option Plain) Runner}
    (stepped : ArrayBlockingQueue.advance before.tasks none = some tasks) (boss : BossPc Runner) :
    Invariant { before with tasks, boss } := by
  obtain ⟨polling, fewer, others, -⟩ :=
    ArrayBlockingQueue.advance_of_polling invariant.polls stepped
  refine invariant.of_tasks boss before.accepted before.dispatched (fun plain => ?_) polling fewer
  have offering := invariant.offers plain
  rcases others (some plain) (by simp) with same | signalled
  · rw [same]
    exact offering
  · rw [signalled, ArrayBlockingQueue.signalSpace_of_offering offering]
    exact offering

/-- The end of a `poll` that found nothing. By the guard the boss goes on to `recv` only with
`fTasks` empty or a message waiting. -/
theorem pollEnds (invariant : Invariant before) (guard : Noticed before .boss)
    {tasks : ArrayBlockingQueue.State (Option Plain) Runner}
    (stepped : ArrayBlockingQueue.advance before.tasks none = some tasks)
    {last : Option (Result Runner)} (ended : tasks.pc none = .idle last)
    (nothing : ∀ runner, last ≠ some (.item runner)) :
    tasks.ring.count = 0 ∨ before.chan.queue.ring.count ≠ 0 := by
  obtain ⟨-, fewer, -, cause⟩ := ArrayBlockingQueue.advance_of_polling invariant.polls stepped
  have of_isEmpty : before.tasks.ring.isEmpty = true → tasks.ring.count = 0 := by
    intro nobody
    have none_left : before.tasks.ring.count = 0 := by simpa [Ring.isEmpty] using nobody
    omega
  rcases cause last ended with ⟨runner, found⟩ | nobody | ⟨pc, busy⟩
  · exact absurd found (nothing runner)
  · exact Or.inl (of_isEmpty nobody)
  · have seen : before.pollsBlind = false := guard
    simp only [State.pollsBlind, pc, Option.isSome_iff_ne_none.mpr busy, Bool.true_and,
      Bool.and_eq_false_iff, Bool.not_eq_false'] at seen
    exact seen.imp of_isEmpty fun message => Nat.ne_of_gt (Ring.count_pos message)

/-- The boss calls `poll` again once it has handed its runner to a worker. -/
theorem dispatch (invariant : Invariant before) (dispatched : List Runner) :
    Invariant { before with
      tasks := before.tasks.goto none .pollTest
      boss := .polling
      dispatched } := by
  refine invariant.of_tasks .polling before.accepted dispatched (fun plain => ?_) ?_ le_rfl
  · rw [State.goto_pc_of_ne _ _ (by simp)]
    exact invariant.offers plain
  · rw [State.goto_pc_self]
    rfl

end Tasks

section Messages

variable [DecidableEq Coroutine]

theorem submitTask (invariant : Invariant before) (coroutine : Coroutine) (runner : Runner) :
    Invariant { before with
      chan := { before.chan with
        queue := before.chan.queue.goto (some coroutine) (.sendLock runner) } } := by
  have boss : (before.chan.queue.goto (some coroutine) (.sendLock runner)).pc none =
      before.chan.queue.pc none := State.goto_pc_of_ne _ _ (by simp)
  refine invariant.of_chan before.boss (fun other => ?_) (by rw [boss]; exact invariant.receives)
    fun seeks => ⟨by rwa [boss] at seeks, le_rfl⟩
  by_cases same : other = coroutine
  · subst same
    rw [State.goto_pc_self]
    rfl
  · rw [State.goto_pc_of_ne _ _ (by simpa using same)]
    exact invariant.sends other

/-- A step of a coroutine inside the boss's `send`. -/
theorem coroutine (invariant : Invariant before) {coroutine : Coroutine}
    {queue : Chan.Queue (Option Coroutine) Runner}
    (stepped : Chan.advance before.chan.queue (some coroutine) = some queue) :
    Invariant { before with chan := { before.chan with queue } } := by
  obtain ⟨sending, ⟨sameRing, others⟩ | ⟨runner, pc, space, rfl⟩⟩ :=
    Chan.advance_of_sending (invariant.sends coroutine) stepped
  · have boss : queue.pc none = before.chan.queue.pc none := others _ (by simp)
    refine invariant.of_chan before.boss (fun other => ?_) (by rw [boss]; exact invariant.receives)
      fun seeks => ⟨by rwa [boss] at seeks, le_of_eq (congrArg Ring.count sameRing).symm⟩
    by_cases same : other = coroutine
    · subst same
      exact sending
    · rw [others _ (by simpa using same)]
      exact invariant.sends other
  · have boss : (Chan.enqueue before.chan.queue (some coroutine) runner).pc none =
        (before.chan.queue.pc none).signalItem := State.enqueue_pc_of_ne _ _ _ (by simp) _
    refine invariant.of_chan before.boss (fun other => ?_) ?_
      fun seeks => ⟨?_, Nat.le_succ _⟩
    · by_cases same : other = coroutine
      · subst same
        exact sending
      · rw [Chan.enqueue, State.enqueue_pc_of_ne _ _ _ (by simpa using same)]
        show (before.chan.queue.pc (some other)).signalItem.sending = true
        rw [Chan.signalItem_of_sending (invariant.sends other)]
        exact invariant.sends other
    · rw [boss, Chan.receiving_signalItem]
      exact invariant.receives
    · rwa [boss, Chan.seeking_signalItem] at seeks

/-- A step of the boss inside `recv`. -/
theorem receive (invariant : Invariant before) {queue : Chan.Queue (Option Coroutine) Runner}
    (stepped : Chan.advance before.chan.queue none = some queue) (boss : BossPc Runner) :
    Invariant { before with chan := { before.chan with queue }, boss } := by
  obtain ⟨receiving, seeking, others⟩ := Chan.advance_of_receiving invariant.receives stepped
  refine invariant.of_chan boss (fun coroutine => ?_) receiving fun seeks => ?_
  · have sending := invariant.sends coroutine
    rcases others (some coroutine) (by simp) with same | signalled
    · rw [same]
      exact sending
    · rw [signalled]
      exact Chan.sending_signalSpace sending
  · obtain ⟨sought, sameRing⟩ := seeking seeks
    exact ⟨sought, le_of_eq (congrArg Ring.count sameRing).symm⟩

/-- A `poll` that returned without a runner sends the boss into `recv`. By the guard there is
a message for it there, unless `fTasks` is empty. -/
theorem startReceiving (invariant : Invariant before)
    (seen : before.tasks.ring.count = 0 ∨ before.chan.queue.ring.count ≠ 0) :
    Invariant { before with
      chan := { before.chan with queue := before.chan.queue.goto none .recvLock }
      boss := .receiving } where
  offers := invariant.offers
  polls := invariant.polls
  sends coroutine := by
    rw [State.goto_pc_of_ne _ _ (by simp)]
    exact invariant.sends coroutine
  receives := by
    rw [State.goto_pc_self]
    rfl
  noticed _ left := seen.resolve_left left

end Messages

section Steps

variable [DecidableEq Plain] [DecidableEq Coroutine]

theorem bossStep {after : State Plain Coroutine Runner} (invariant : Invariant before)
    (guard : Noticed before .boss) (stepped : stepBoss before = some after) : Invariant after := by
  unfold stepBoss at stepped
  split at stepped
  · obtain ⟨tasks, polled, rest⟩ := Option.bind_eq_some_iff.mp stepped
    split at rest
    · cases rest
      exact invariant.poll polled _
    · rename_i last notItem ended
      simp only [Chan.step, Option.map_eq_some_iff] at rest
      obtain ⟨chan, called, rfl⟩ := rest
      split at called
      · cases called
        exact (invariant.poll polled before.boss).startReceiving
          (invariant.pollEnds guard polled ended fun runner found =>
            notItem runner (by rw [found]))
      · cases called
    · cases rest
      exact invariant.poll polled _
  · simp only [Chan.step, Option.map_map, Option.map_eq_some_iff] at stepped
    obtain ⟨queue, received, rfl⟩ := stepped
    simp only [Function.comp_apply]
    split
    · exact invariant.receive received _
    · exact invariant.receive received _
  · simp only [ArrayBlockingQueue.step, Option.map_eq_some_iff] at stepped
    obtain ⟨tasks, called, rfl⟩ := stepped
    split at called
    · cases called
      exact invariant.dispatch _
    · cases called

/-- Every step the guard allows keeps the invariant. -/
theorem step {after : State Plain Coroutine Runner} {action : Action Plain Coroutine Runner}
    (invariant : Invariant before) (guard : Noticed before action)
    (stepped : TaskThread.step before action = some after) : Invariant after := by
  cases action with
  | submit plain runner =>
    simp only [TaskThread.step, ArrayBlockingQueue.step, Option.map_eq_some_iff] at stepped
    obtain ⟨tasks, called, rfl⟩ := stepped
    split at called
    · cases called
      exact invariant.submit plain runner
    · cases called
  | plain plain =>
    simp only [TaskThread.step, stepPlain, Option.map_eq_some_iff] at stepped
    obtain ⟨tasks, advanced, rfl⟩ := stepped
    split
    · exact invariant.plain guard advanced _
    · exact invariant.plain guard advanced _
  | submitTask coroutine runner =>
    simp only [TaskThread.step, Chan.step, Option.map_eq_some_iff] at stepped
    obtain ⟨chan, called, rfl⟩ := stepped
    split at called
    · cases called
      exact invariant.submitTask coroutine runner
    · cases called
  | coroutine coroutine =>
    simp only [TaskThread.step, Chan.step, Option.map_map, Option.map_eq_some_iff] at stepped
    obtain ⟨queue, advanced, rfl⟩ := stepped
    exact invariant.coroutine advanced
  | boss => exact invariant.bossStep guard stepped

end Steps

end Invariant

/-! ### Accepted runners -/

section

variable [DecidableEq Plain] [DecidableEq Coroutine]

end

end Nattan.TaskThread
