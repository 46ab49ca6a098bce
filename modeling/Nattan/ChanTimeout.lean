/-
This file proves for which runs the timed operations of `Chan` fail only when they time
out.

A broadcast wakes all waiters, and a woken `sendTill` tests once more whether the channel
is full, whether its timer has fired or not. If another task has put a message into the
last free slot by then it gives up, and reports a time-out that has not happened; so does
`recvTill` when another task has taken the last message. The runs in which nobody
overtakes a woken task like this are those in which a failure means a time-out. A task
that is overtaken can always be made to fail.
-/

import Nattan.Chan
import Mathlib.Data.Fintype.Basic

namespace Nattan.Chan

open Monitor

universe u w

variable {Task : Type u} {Element : Type w}

namespace Pc

/-- The critical section of `send` and `sendTill`. -/
def puts : Pc Element → Bool
  | sendLocked _ | sendTillLocked _ | sendTillRelocked _ _ => true
  | _ => false

/-- The critical section of `recv` and `recvTill`. -/
def takes : Pc Element → Bool
  | recvLocked | recvTillLocked | recvTillRelocked _ => true
  | _ => false

/-- Woken in `sendTill` before the timer fired, and not yet tested again. -/
def wokenForSpace : Pc Element → Bool
  | sendTillResumed _ false | sendTillRelocked _ false => true
  | _ => false

/-- Woken in `recvTill` before the timer fired, and not yet tested again. -/
def wokenForItem : Pc Element → Bool
  | recvTillResumed false | recvTillRelocked false => true
  | _ => false

/-- About to test again after the timer has fired. -/
def timedOut : Pc Element → Bool
  | sendTillRelocked _ true | recvTillRelocked true => true
  | _ => false

end Pc

section

variable [DecidableEq Task]

/-- A step that makes a timed operation return false is a step of one whose timer has fired. -/
def FailsOnTimeout (state : State Task Element) : Prop :=
  ∀ task after, step state (.run task) = some after → after.queue.pc task = .unlock .refused →
    (state.queue.pc task).timedOut = true

/-- The tasks use the four operations, and timers fire. -/
def Plain : Action Task Element → Prop
  | .call _ _ | .run _ | .timer _ => True
  | .wakeup _ | .close => False

/-- No task puts a message into the last free slot, or takes the last message, while another one
that was woken for it has not tested yet. -/
def NotOvertaken (state : State Task Element) : Action Task Element → Prop
  | .run task =>
    ((state.queue.pc task).puts = true → state.queue.ring.count + 1 = state.queue.ring.capacity →
        ∀ other, other ≠ task → (state.queue.pc other).wokenForSpace = false) ∧
      ((state.queue.pc task).takes = true → state.queue.ring.count = 1 →
        ∀ other, other ≠ task → (state.queue.pc other).wokenForItem = false)
  | .call _ _ | .timer _ | .wakeup _ | .close => True

instance (action : Action Task Element) : Decidable (Plain action) :=
  match action with
  | .call _ _ | .run _ | .timer _ => inferInstanceAs (Decidable True)
  | .wakeup _ | .close => inferInstanceAs (Decidable False)

instance [Fintype Task] (state : State Task Element) (action : Action Task Element) :
    Decidable (NotOvertaken state action) :=
  match action with
  | .run _ => inferInstanceAs (Decidable (_ ∧ _))
  | .call _ _ | .timer _ | .wakeup _ | .close => inferInstanceAs (Decidable True)

/-! ### What a step does to the woken tasks -/

/-- What a step of a task inside an operation can be: it puts a message in, takes one out, or moves
the task, which then is woken only if it was, and fails only at its second test. -/
inductive Advanced (before : Queue Task Element) (task : Task) : Queue Task Element → Prop
  | put (element : Element) (puts : (before.pc task).puts = true)
      (space : before.ring.isFull = false) : Advanced before task (enqueue before task element)
  | take (takes : (before.pc task).takes = true) (nonempty : before.ring.isEmpty = false) :
      Advanced before task (dequeue before task)
  | move (pc : Pc Element) (owner : Option Task)
      (space : pc.wokenForSpace = true → (before.pc task).wokenForSpace = true)
      (item : pc.wokenForItem = true → (before.pc task).wokenForItem = true)
      (refused : pc = .unlock .refused → (before.pc task).timedOut = true ∨
        (before.pc task).wokenForSpace = true ∧ before.ring.isFull = true ∨
          (before.pc task).wokenForItem = true ∧ before.ring.isEmpty = true) :
      Advanced before task { before.goto task pc with owner }

theorem advanced_of_lock {before after : Queue Task Element} {task : Task} {pc : Pc Element}
    (locked : lock before task pc = some after)
    (space : pc.wokenForSpace = true → (before.pc task).wokenForSpace = true)
    (item : pc.wokenForItem = true → (before.pc task).wokenForItem = true)
    (held : pc ≠ .unlock .refused) : Advanced before task after := by
  obtain ⟨-, rfl⟩ := lock_spec locked
  exact .move pc (some task) space item fun refused => absurd refused held

/-- A move to a program counter that is not woken and no failure. -/
theorem advanced_of_goto {before : Queue Task Element} {task : Task} (pc : Pc Element)
    (owner : Option Task) (space : pc.wokenForSpace = false) (item : pc.wokenForItem = false)
    (accepted : pc ≠ .unlock .refused) : Advanced before task { before.goto task pc with owner } :=
  .move pc owner (fun woken => by rw [space] at woken; cases woken)
    (fun woken => by rw [item] at woken; cases woken) fun refused => absurd refused accepted

/-- The lock of a task that has not waited. -/
theorem advanced_of_enter {before after : Queue Task Element} {task : Task} {pc : Pc Element}
    (locked : lock before task pc = some after) (space : pc.wokenForSpace = false)
    (item : pc.wokenForItem = false) (held : pc ≠ .unlock .refused) :
    Advanced before task after :=
  advanced_of_lock locked (fun woken => by rw [space] at woken; cases woken)
    (fun woken => by rw [item] at woken; cases woken) held

/-- The tests of `send` and `sendTill`: the message is put in if there is space for it. -/
theorem advanced_of_sendTest {before after full : Queue Task Element} {task : Task}
    {element : Element}
    (stepped : (if before.ring.isFull then some full else some (enqueue before task element)) =
      some after)
    (puts : (before.pc task).puts = true)
    (otherwise : before.ring.isFull = true → Advanced before task full) :
    Advanced before task after := by
  split at stepped
  · rename_i noSpace
    cases stepped
    exact otherwise noSpace
  · rename_i space
    cases stepped
    exact .put element puts (Bool.eq_false_iff.mpr space)

/-- The tests of `recv` and `recvTill`: a message is taken out if there is one. -/
theorem advanced_of_recvTest {before after empty : Queue Task Element} {task : Task}
    (stepped : (if before.ring.isEmpty then some empty else some (dequeue before task)) =
      some after)
    (takes : (before.pc task).takes = true)
    (otherwise : before.ring.isEmpty = true → Advanced before task empty) :
    Advanced before task after := by
  split at stepped
  · rename_i noItem
    cases stepped
    exact otherwise noItem
  · rename_i nonempty
    cases stepped
    exact .take takes (Bool.eq_false_iff.mpr nonempty)

theorem advanced_of_advance {before after : Queue Task Element} {task : Task}
    (stepped : advance before task = some after) : Advanced before task after := by
  unfold advance at stepped
  cases pc : before.pc task with
  | idle _ | sendWait _ | sendTillWait _ | recvWait | recvTillWait =>
    rw [pc] at stepped
    cases stepped
  | sendLock _ | sendTillLock _ | recvLock | recvTillLock =>
    rw [pc] at stepped
    exact advanced_of_enter stepped rfl rfl fun refused => by cases refused
  | sendLocked element | sendTillLocked element =>
    simp only [pc] at stepped
    refine advanced_of_sendTest stepped (by rw [pc]; rfl) fun _ => ?_
    exact advanced_of_goto _ none rfl rfl fun refused => by cases refused
  | sendTillResumed element fired =>
    rw [pc] at stepped
    refine advanced_of_lock stepped (fun woken => ?_) (fun woken => by cases woken)
      (fun refused => by cases refused)
    rw [pc]
    cases fired with
    | false => rfl
    | true => cases woken
  | sendTillRelocked element fired =>
    simp only [pc] at stepped
    refine advanced_of_sendTest stepped (by rw [pc]; rfl) fun full => ?_
    refine .move _ before.owner (fun woken => by cases woken) (fun woken => by cases woken) ?_
    intro _
    rw [pc]
    cases fired with
    | false => exact Or.inr (Or.inl ⟨rfl, full⟩)
    | true => exact Or.inl rfl
  | recvLocked | recvTillLocked =>
    simp only [pc] at stepped
    refine advanced_of_recvTest stepped (by rw [pc]; rfl) fun _ => ?_
    exact advanced_of_goto _ none rfl rfl fun refused => by cases refused
  | recvTillResumed fired =>
    rw [pc] at stepped
    refine advanced_of_lock stepped (fun woken => by cases woken) (fun woken => ?_)
      (fun refused => by cases refused)
    rw [pc]
    cases fired with
    | false => rfl
    | true => cases woken
  | recvTillRelocked fired =>
    simp only [pc] at stepped
    refine advanced_of_recvTest stepped (by rw [pc]; rfl) fun empty => ?_
    refine .move _ before.owner (fun woken => by cases woken) (fun woken => by cases woken) ?_
    intro _
    rw [pc]
    cases fired with
    | false => exact Or.inr (Or.inr ⟨rfl, empty⟩)
    | true => exact Or.inl rfl
  | unlock result =>
    simp only [pc] at stepped
    cases stepped
    exact advanced_of_goto _ none rfl rfl fun refused => by cases refused

/-! ### The woken tasks are not too late -/

/-- The ring is no fuller than it may be, and for whom a slot or a message was announced there is
one. -/
structure InTime (queue : Queue Task Element) : Prop where
  within : queue.ring.count ≤ queue.ring.capacity
  space : ∀ task, (queue.pc task).wokenForSpace = true → queue.ring.count < queue.ring.capacity
  item : ∀ task, (queue.pc task).wokenForItem = true → 0 < queue.ring.count

namespace InTime

variable {before after : Queue Task Element} {task : Task}

/-- A task moves, and is woken only if it was. -/
theorem move (inTime : InTime before) {pc : Pc Element} (owner : Option Task)
    (space : pc.wokenForSpace = true → (before.pc task).wokenForSpace = true)
    (item : pc.wokenForItem = true → (before.pc task).wokenForItem = true) :
    InTime { before.goto task pc with owner } where
  within := inTime.within
  space other woken := by
    change ((before.goto task pc).pc other).wokenForSpace = true at woken
    by_cases same : other = task
    · subst same
      rw [State.goto_pc_self] at woken
      exact inTime.space other (space woken)
    · rw [State.goto_pc_of_ne _ _ same] at woken
      exact inTime.space other woken
  item other woken := by
    change ((before.goto task pc).pc other).wokenForItem = true at woken
    by_cases same : other = task
    · subst same
      rw [State.goto_pc_self] at woken
      exact inTime.item other (item woken)
    · rw [State.goto_pc_of_ne _ _ same] at woken
      exact inTime.item other woken

theorem wokenForSpace_signalItem (pc : Pc Element) :
    pc.signalItem.wokenForSpace = pc.wokenForSpace := by
  cases pc <;> rfl

theorem wokenForItem_signalSpace (pc : Pc Element) :
    pc.signalSpace.wokenForItem = pc.wokenForItem := by
  cases pc <;> rfl

/-- A message is put in, and if it fills the channel no other task was woken for the slot. -/
theorem put (inTime : InTime before) (element : Element) (notFull : before.ring.isFull = false)
    (last : before.ring.count + 1 = before.ring.capacity →
      ∀ other, other ≠ task → (before.pc other).wokenForSpace = false) :
    InTime (enqueue before task element) := by
  have within := inTime.within
  have free : before.ring.count ≠ before.ring.capacity := by
    intro full
    rw [(Ring.isFull_iff _).mpr full] at notFull
    cases notFull
  refine ⟨?_, fun other woken => ?_, fun _ _ => Nat.succ_pos _⟩
  · show before.ring.count + 1 ≤ before.ring.capacity
    omega
  · show before.ring.count + 1 < before.ring.capacity
    by_cases same : other = task
    · subst same
      rw [enqueue, State.enqueue_pc_self] at woken
      cases woken
    · rw [enqueue, State.enqueue_pc_of_ne _ _ _ same] at woken
      change (before.pc other).signalItem.wokenForSpace = true at woken
      rw [wokenForSpace_signalItem] at woken
      by_cases fills : before.ring.count + 1 = before.ring.capacity
      · rw [last fills other same] at woken
        cases woken
      · omega

/-- A message is taken out, and if it was the last no other task was woken for it. -/
theorem take (inTime : InTime before) (notEmpty : before.ring.isEmpty = false)
    (last : before.ring.count = 1 →
      ∀ other, other ≠ task → (before.pc other).wokenForItem = false) :
    InTime (dequeue before task) := by
  have within := inTime.within
  have some := Ring.count_pos notEmpty
  refine ⟨?_, fun _ _ => ?_, fun other woken => ?_⟩
  · show before.ring.count - 1 ≤ before.ring.capacity
    omega
  · show before.ring.count - 1 < before.ring.capacity
    omega
  · show 0 < before.ring.count - 1
    by_cases same : other = task
    · subst same
      rw [dequeue, State.dequeue_pc_self] at woken
      cases woken
    · rw [dequeue, State.dequeue_pc_of_ne _ _ same] at woken
      change (before.pc other).signalSpace.wokenForItem = true at woken
      rw [wokenForItem_signalSpace] at woken
      by_cases one : before.ring.count = 1
      · rw [last one other same] at woken
        cases woken
      · omega

/-- Every step by which nobody is overtaken. -/
theorem step {before after : State Task Element} {action : Action Task Element}
    (inTime : InTime before.queue) (plain : Plain action)
    (notOvertaken : NotOvertaken before action)
    (stepped : Chan.step before action = some after) : InTime after.queue := by
  cases action with
  | call task operation =>
    obtain ⟨-, rfl⟩ := stepped_of_guard stepped
    refine inTime.move before.queue.owner ?_ ?_
    · cases operation <;> exact fun woken => by cases woken
    · cases operation <;> exact fun woken => by cases woken
  | run task =>
    obtain ⟨queue, advanced, rfl⟩ := Option.map_eq_some_iff.mp stepped
    cases advanced_of_advance advanced with
    | put element puts space => exact inTime.put element space (notOvertaken.1 puts)
    | take takes nonempty => exact inTime.take nonempty (notOvertaken.2 takes)
    | move pc owner space item => exact inTime.move owner space item
  | timer task =>
    obtain ⟨queue, resumed, rfl⟩ := Option.map_eq_some_iff.mp stepped
    obtain ⟨pc, moves, rfl⟩ := Option.map_eq_some_iff.mp resumed
    unfold Pc.timer at moves
    refine inTime.move before.queue.owner ?_ ?_
    · split at moves <;> cases moves <;> exact fun woken => by cases woken
    · split at moves <;> cases moves <;> exact fun woken => by cases woken
  | wakeup => exact plain.elim
  | close => exact plain.elim

/-- Where every woken task is in time, only a time-out makes an operation fail. -/
theorem failsOnTimeout {state : State Task Element} (inTime : InTime state.queue) :
    FailsOnTimeout state := by
  intro task after stepped refused
  obtain ⟨queue, advanced, rfl⟩ := Option.map_eq_some_iff.mp stepped
  change queue.pc task = _ at refused
  cases advanced_of_advance advanced with
  | put element =>
    rw [enqueue, State.enqueue_pc_self] at refused
    cases refused
  | take =>
    rw [dequeue, State.dequeue_pc_self] at refused
    cases refused
  | move pc owner _ _ fails =>
    change (state.queue.goto task pc).pc task = _ at refused
    rw [State.goto_pc_self] at refused
    rcases fails refused with timedOut | ⟨woken, full⟩ | ⟨woken, empty⟩
    · exact timedOut
    · exact absurd ((Ring.isFull_iff _).mp full) (Nat.ne_of_lt (inTime.space task woken))
    · exact absurd ((Ring.isEmpty_iff _).mp empty) (Nat.ne_of_gt (inTime.item task woken))

end InTime

/-! ### An overtaken task can be made to fail -/

/-- A woken task whose second test would fail, and the task that still has the mutex. -/
def Late (queue : Queue Task Element) (other : Task) : Prop :=
  (∃ element, queue.pc other = .sendTillResumed element false ∧ queue.ring.isFull = true) ∨
    (queue.pc other = .recvTillResumed false ∧ queue.ring.isEmpty = true)

/-- A second test that fails before the timer has fired. -/
theorem not_failsOnTimeout {state : State Task Element} {other : Task}
    (pc : (∃ element, state.queue.pc other = .sendTillRelocked element false ∧
        state.queue.ring.isFull = true) ∨
      (state.queue.pc other = .recvTillRelocked false ∧ state.queue.ring.isEmpty = true)) :
    ¬ FailsOnTimeout state := by
  intro fails
  have refused : advance state.queue other = some (state.queue.goto other (.unlock .refused)) := by
    rcases pc with ⟨element, pc, full⟩ | ⟨pc, empty⟩
    · simp only [advance, pc]
      rw [if_pos full]
    · simp only [advance, pc]
      rw [if_pos empty]
  have timedOut := fails other { state with queue := state.queue.goto other (.unlock .refused) }
    (by rw [step, refused]; rfl) (State.goto_pc_self _ _ _)
  rcases pc with ⟨element, pc, -⟩ | ⟨pc, -⟩
  · rw [pc] at timedOut
    cases timedOut
  · rw [pc] at timedOut
    cases timedOut

/-- The woken task locks the mutex and is about to give up. -/
theorem fails_of_late {state : State Task Element} {other : Task}
    (free : state.queue.owner = none) (late : Late state.queue other) :
    ∃ final, step state (.run other) = some final ∧ ¬ FailsOnTimeout final := by
  have locked (pc : Pc Element) :
      lock state.queue other pc = some (state.queue.acquire other pc) := by
    rw [lock, free]
  rcases late with ⟨element, pc, full⟩ | ⟨pc, empty⟩
  · refine ⟨{ state with queue := state.queue.acquire other (.sendTillRelocked element false) }, ?_,
      not_failsOnTimeout (Or.inl ⟨element, State.acquire_pc_self _ _ _, full⟩)⟩
    simp only [step, advance, pc, locked]
    rfl
  · refine ⟨{ state with queue := state.queue.acquire other (.recvTillRelocked false) }, ?_,
      not_failsOnTimeout (Or.inr ⟨State.acquire_pc_self _ _ _, empty⟩)⟩
    simp only [step, advance, pc, locked]
    rfl

/-- The task that has the mutex unlocks it first. -/
theorem reaches_failure {state : State Task Element} {task other : Task}
    {result : Result Element} (different : other ≠ task)
    (unlocks : state.queue.pc task = .unlock result) (late : Late state.queue other) :
    ∃ final, ReachableBy step (fun _ => Plain) state final ∧ ¬ FailsOnTimeout final := by
  have unlocked : step state (.run task) =
      some { state with queue := state.queue.release task (.idle (some result)) } := by
    simp only [step, advance, unlocks]
    rfl
  have still : Late (state.queue.release task (.idle (some result))) other := by
    rw [Late, State.release_pc_of_ne _ _ different]
    exact late
  obtain ⟨final, last, fails⟩ := @fails_of_late _ _ _
    { state with queue := state.queue.release task (.idle (some result)) } other rfl still
  exact ⟨final, .tail (.single ⟨.run task, trivial, unlocked⟩) ⟨.run other, trivial, last⟩, fails⟩

theorem holds_of_puts {pc : Pc Element} (puts : pc.puts = true) : pc.holds = true := by
  cases pc <;> first | rfl | cases puts

theorem holds_of_takes {pc : Pc Element} (takes : pc.takes = true) : pc.holds = true := by
  cases pc <;> first | rfl | cases takes

theorem advance_of_puts {queue : Queue Task Element} {task : Task}
    (puts : (queue.pc task).puts = true) (space : queue.ring.isFull = false) :
    ∃ element, advance queue task = some (enqueue queue task element) := by
  have notFull : ¬ queue.ring.isFull = true := Bool.eq_false_iff.mp space
  cases pc : queue.pc task with
  | sendLocked element => exact ⟨element, by simp only [advance, pc, if_neg notFull]⟩
  | sendTillLocked element => exact ⟨element, by simp only [advance, pc, if_neg notFull]⟩
  | sendTillRelocked element fired => exact ⟨element, by simp only [advance, pc, if_neg notFull]⟩
  | _ =>
    rw [pc] at puts
    cases puts

theorem advance_of_takes {queue : Queue Task Element} {task : Task}
    (takes : (queue.pc task).takes = true) (nonempty : queue.ring.isEmpty = false) :
    advance queue task = some (dequeue queue task) := by
  have notEmpty : ¬ queue.ring.isEmpty = true := Bool.eq_false_iff.mp nonempty
  cases pc : queue.pc task with
  | recvLocked => simp only [advance, pc, if_neg notEmpty]
  | recvTillLocked => simp only [advance, pc, if_neg notEmpty]
  | recvTillRelocked fired => simp only [advance, pc, if_neg notEmpty]
  | _ =>
    rw [pc] at takes
    cases takes

/-- A task woken for a slot that does not have the mutex has not locked it yet. -/
theorem resumed_of_wokenForSpace {pc : Pc Element} (woken : pc.wokenForSpace = true)
    (outside : pc.holds = false) : ∃ element, pc = .sendTillResumed element false := by
  unfold Pc.wokenForSpace at woken
  split at woken
  · exact ⟨_, rfl⟩
  · cases outside
  · cases woken

theorem resumed_of_wokenForItem {pc : Pc Element} (woken : pc.wokenForItem = true)
    (outside : pc.holds = false) : pc = .recvTillResumed false := by
  unfold Pc.wokenForItem at woken
  split at woken
  · rfl
  · cases outside
  · cases woken

/-- A step that overtakes a woken task leads to a failure without a time-out. -/
theorem fails_of_overtaken {before after : State Task Element} {task : Task}
    (exclusive : Exclusive roles before.queue) (overtakes : ¬ NotOvertaken before (.run task))
    (stepped : step before (.run task) = some after) :
    ∃ final, ReachableBy step (fun _ => Plain) after final ∧ ¬ FailsOnTimeout final := by
  have outside (other : Task) (different : other ≠ task)
      (held : (before.queue.pc task).holds = true) : (before.queue.pc other).holds = false := by
    refine Bool.eq_false_iff.mpr fun otherHeld => different ?_
    exact Option.some.inj ((exclusive other otherHeld).symm.trans (exclusive task held))
  obtain ⟨queue, advanced, rfl⟩ := Option.map_eq_some_iff.mp stepped
  simp only [NotOvertaken, not_and_or, Classical.not_imp, not_forall, Bool.not_eq_false]
    at overtakes
  rcases overtakes with ⟨puts, fills, other, different, woken⟩ |
    ⟨takes, last, other, different, woken⟩
  · have space : before.queue.ring.isFull = false := by
      refine Bool.eq_false_iff.mpr fun full => ?_
      have same := (Ring.isFull_iff _).mp full
      omega
    obtain ⟨element, put⟩ := advance_of_puts puts space
    cases advanced.symm.trans put
    obtain ⟨waiting, pc⟩ := resumed_of_wokenForSpace woken
      (outside other different (holds_of_puts puts))
    refine reaches_failure different (State.enqueue_pc_self _ _ _ _ _)
      (Or.inl ⟨waiting, ?_, (Ring.isFull_iff _).mpr fills⟩)
    show (enqueue before.queue task element).pc other = _
    rw [enqueue, State.enqueue_pc_of_ne _ _ _ different, pc]
    rfl
  · have nonempty : before.queue.ring.isEmpty = false := by
      refine Bool.eq_false_iff.mpr fun empty => ?_
      have same := (Ring.isEmpty_iff _).mp empty
      omega
    cases advanced.symm.trans (advance_of_takes takes nonempty)
    have pc := resumed_of_wokenForItem woken
      (outside other different (holds_of_takes takes))
    have unlocks : (dequeue before.queue task).pc task =
        .unlock (.item before.queue.ring.dequeue.1) := by
      rw [dequeue, State.dequeue_pc_self]
    refine reaches_failure different unlocks (Or.inr ⟨?_, (Ring.isEmpty_iff _).mpr ?_⟩)
    · show (dequeue before.queue task).pc other = _
      rw [dequeue, State.dequeue_pc_of_ne _ _ different, pc]
      rfl
    · show before.queue.ring.count - 1 = 0
      omega

theorem exclusive_of_plain [Inhabited Element] {capacity : Nat} {state : State Task Element}
    (reached : ReachableBy step (fun _ => Plain) (State.new capacity) state) :
    Exclusive roles state.queue := by
  refine reached.invariant (fun state => Exclusive roles state.queue)
    (fun _ held => by cases held) ?_
  intro before action after exclusive plain stepped
  have keepsOpen : KeepsOpen before action := by
    cases action with
    | close => exact plain.elim
    | _ => exact trivial
  obtain ⟨task, effect⟩ := effect_of_step keepsOpen stepped
  exact effect.exclusive exclusive

/-- In every run of the four operations in which nobody overtakes a woken task, an operation fails
only when its timer has fired; and where one is overtaken, the run can go on to a state in which an
operation fails without that. -/
theorem fails_on_timeout [Inhabited Element] (capacity : Nat) :
    (∀ state : State Task Element,
        ReachableBy step (fun state action => Plain action ∧ NotOvertaken state action)
          (State.new capacity) state → FailsOnTimeout state) ∧
      ∀ (before after : State Task Element) (task : Task),
        ReachableBy step (fun _ => Plain) (State.new capacity) before →
        ¬ NotOvertaken before (.run task) → step before (.run task) = some after →
        ∃ final, ReachableBy step (fun _ => Plain) after final ∧ ¬ FailsOnTimeout final := by
  constructor
  · intro state reached
    refine InTime.failsOnTimeout
      (reached.invariant (fun state => InTime state.queue) ?_ fun before action after inTime allowed
        stepped => inTime.step allowed.1 allowed.2 stepped)
    exact ⟨Nat.zero_le _, fun _ woken => (by cases woken), fun _ woken => (by cases woken)⟩
  · intro before after task reached overtakes stepped
    exact fails_of_overtaken (exclusive_of_plain reached) overtakes stepped

end

/-- A timed receiver waits, is woken by a message and takes it. -/
def servedSchedule : List (Action Bool Nat) :=
  [.call true .recvTill, .run true, .run true, .call false (.send 7), .run false, .run false,
    .run false, .run true, .run true, .run true]

theorem fails_on_timeout_served : ∃ state : State Bool Nat,
    runBy step (fun state action => Plain action ∧ NotOvertaken state action) (State.new 1)
      servedSchedule = some state ∧ state.queue.received = [7] ∧ FailsOnTimeout state := by
  have executed : ((runBy step (fun state action => Plain action ∧ NotOvertaken state action)
      (State.new 1 : State Bool Nat) servedSchedule).map fun state => state.queue.received) =
        some [7] := by decide
  obtain ⟨state, reached, received⟩ := Option.map_eq_some_iff.mp executed
  exact ⟨state, reached, received,
    (fails_on_timeout 1).1 state (reachableBy_of_runBy reached)⟩

/-- A timed receiver is woken by a message that an untimed one takes before it. -/
def overtakenSchedule : List (Action (Fin 3) Nat) :=
  [.call 0 .recvTill, .run 0, .run 0, .call 1 (.send 7), .run 1, .run 1, .run 1, .call 2 .recv,
    .run 2, .run 2, .run 2, .run 0]

theorem not_failsOnTimeout_overtaken :
    ¬ ∀ (capacity : Nat) (state : State (Fin 3) Nat),
      ReachableBy step (fun _ => Plain) (State.new capacity) state → FailsOnTimeout state := by
  intro fails
  have executed : ((runBy step (fun _ => Plain) (State.new 1 : State (Fin 3) Nat)
      overtakenSchedule).map fun state => (state.queue.pc 0, state.queue.ring.isEmpty)) =
        some (.recvTillRelocked false, true) := by decide
  obtain ⟨state, reached, same⟩ := Option.map_eq_some_iff.mp executed
  obtain ⟨pc, empty⟩ := Prod.mk.inj same
  exact not_failsOnTimeout (Or.inr ⟨pc, empty⟩) (fails 1 state (reachableBy_of_runBy reached))

end Nattan.Chan
