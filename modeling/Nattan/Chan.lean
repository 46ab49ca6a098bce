/-
This file models `Chan<T>`, the bounded channel between coroutines, under any
number of tasks on any number of schedulers.

The atomic steps of a task are the `LockGuard`'s lock of `mutex`, the critical
section (the test that starts a `wait` or `waitTill`, or the `enqueue`/`dequeue`
with its `signalAll`), and the unlock. A signalled task locks `mutex` again;
`send` and `recv` then re-test in their loop, while `sendTill` and `recvTill`
test once more and give up. A timed wait may also be ended by its timer, before
or after a signal, and any wait by a `Task::wakeup` of the waiting task, both of
which take the task off the wait list.

`close` takes no lock: it resets the indices and the count under the feet of
every operation.
-/

import Nattan.Monitor

namespace Nattan.Chan

open Monitor

universe u w

inductive Operation (Element : Type w) where
  | send (element : Element)
  | sendTill (element : Element)
  | recv
  | recvTill
  deriving DecidableEq, Repr

/-- Where a task stands. The `Resumed` tasks are back on a run list after a timed wait and
have not run yet; `fired` says whether their timer has expired. -/
inductive Pc (Element : Type w) where
  | idle (last : Option (Result Element))
  | sendLock (element : Element)
  | sendLocked (element : Element)
  | sendWait (element : Element)
  | sendTillLock (element : Element)
  | sendTillLocked (element : Element)
  | sendTillWait (element : Element)
  | sendTillResumed (element : Element) (fired : Bool)
  | sendTillRelocked (element : Element) (fired : Bool)
  | recvLock
  | recvLocked
  | recvWait
  | recvTillLock
  | recvTillLocked
  | recvTillWait
  | recvTillResumed (fired : Bool)
  | recvTillRelocked (fired : Bool)
  | unlock (result : Result Element)
  deriving DecidableEq, Repr

variable {Task : Type u} {Element : Type w}

namespace Pc

def isIdle : Pc Element → Bool
  | idle _ => true
  | _ => false

def holds : Pc Element → Bool
  | sendLocked _ | sendTillLocked _ | sendTillRelocked _ _ => true
  | recvLocked | recvTillLocked | recvTillRelocked _ => true
  | unlock _ => true
  | _ => false

def awaitsItem : Pc Element → Bool
  | recvWait | recvTillWait => true
  | _ => false

def awaitsSpace : Pc Element → Bool
  | sendWait _ | sendTillWait _ => true
  | _ => false

/-- Outside, or inside a `send`. -/
def sending : Pc Element → Bool
  | idle _ | sendLock _ | sendLocked _ | sendWait _ | unlock (.accepted _) => true
  | _ => false

/-- Inside a `recv` or `recvTill` that has not taken a message yet, nor given up. -/
def seeking : Pc Element → Bool
  | recvLock | recvLocked | recvWait => true
  | recvTillLock | recvTillLocked | recvTillWait | recvTillResumed _ | recvTillRelocked _ => true
  | _ => false

/-- Outside, or inside a `recv` or `recvTill`. -/
def receiving : Pc Element → Bool
  | idle _ | unlock _ => true
  | pc => pc.seeking

/-- `notEmpty.signalAll()`. -/
def signalItem : Pc Element → Pc Element
  | recvWait => recvLock
  | recvTillWait => recvTillResumed false
  | pc => pc

/-- `notFull.signalAll()`. -/
def signalSpace : Pc Element → Pc Element
  | sendWait element => sendLock element
  | sendTillWait element => sendTillResumed element false
  | pc => pc

/-- The timer of a timed wait expires: the waiting task is resumed, and a task that a signal
has resumed already will see the expiry when it runs. -/
def timer : Pc Element → Option (Pc Element)
  | sendTillWait element | sendTillResumed element false => some (sendTillResumed element true)
  | recvTillWait | recvTillResumed false => some (recvTillResumed true)
  | _ => none

/-- Another task calls `Task::wakeup` on a waiting one. -/
def wakeup : Pc Element → Option (Pc Element)
  | sendWait element => some (sendLock element)
  | sendTillWait element => some (sendTillResumed element false)
  | recvWait => some recvLock
  | recvTillWait => some (recvTillResumed false)
  | _ => none

end Pc

/-- What the program counters mean to the monitor library. -/
def roles : Roles (Pc Element) where
  holds := Pc.holds
  awaitsItem := Pc.awaitsItem
  awaitsSpace := Pc.awaitsSpace
  signalItem := Pc.signalItem
  signalSpace := Pc.signalSpace
  awaitsItem_signalItem pc := by cases pc <;> rfl
  awaitsSpace_signalItem pc := by cases pc <;> rfl
  holds_signalItem pc := by cases pc <;> rfl
  awaitsSpace_signalSpace pc := by cases pc <;> rfl
  awaitsItem_signalSpace pc := by cases pc <;> rfl
  holds_signalSpace pc := by cases pc <;> rfl

/-- The ring (`messages`, `putIndex`, `takeIndex`, `count`, `capacity`), the holder of `mutex`
and the tasks. -/
abbrev Queue (Task : Type u) (Element : Type w) := Monitor.State Task (Pc Element) Element

structure State (Task : Type u) (Element : Type w) where
  queue : Queue Task Element
  closed : Bool

def Queue.new [Inhabited Element] (capacity : Nat) : Queue Task Element :=
  Monitor.State.initial capacity (.idle none)

/-- A new channel, with every task outside. -/
def State.new [Inhabited Element] (capacity : Nat) : State Task Element where
  queue := Queue.new capacity
  closed := false

/-- The first step of an operation. -/
def Operation.entry : Operation Element → Pc Element
  | send element => .sendLock element
  | sendTill element => .sendTillLock element
  | recv => .recvLock
  | recvTill => .recvTillLock

inductive Action (Task : Type u) (Element : Type w) where
  | call (task : Task) (operation : Operation Element)
  | run (task : Task)
  | timer (task : Task)
  | wakeup (task : Task)
  | close

section

variable [DecidableEq Task]

/-- `LockGuard guard(mutex)`, or the lock at the end of a condition wait. -/
def lock (queue : Queue Task Element) (task : Task) (pc : Pc Element) :
    Option (Queue Task Element) :=
  match queue.owner with
  | none => some (queue.acquire task pc)
  | some _ => none

/-- `enqueue(msg)`, with the unlock still to come. -/
def enqueue (queue : Queue Task Element) (task : Task) (element : Element) : Queue Task Element :=
  Monitor.State.enqueue roles queue task element (.unlock (.accepted element))

/-- `dequeue()`, with the unlock still to come. -/
def dequeue (queue : Queue Task Element) (task : Task) : Queue Task Element :=
  Monitor.State.dequeue roles queue task fun element => .unlock (.item element)

/-- The next step of a task inside an operation; a task that waits, or that needs a mutex
another task owns, has none. -/
def advance (queue : Queue Task Element) (task : Task) : Option (Queue Task Element) :=
  match queue.pc task with
  | .idle _ => none
  | .sendLock element => lock queue task (.sendLocked element)
  | .sendLocked element =>
    if queue.ring.isFull then some (queue.release task (.sendWait element))
    else some (enqueue queue task element)
  | .sendWait _ => none
  | .sendTillLock element => lock queue task (.sendTillLocked element)
  | .sendTillLocked element =>
    if queue.ring.isFull then some (queue.release task (.sendTillWait element))
    else some (enqueue queue task element)
  | .sendTillWait _ => none
  | .sendTillResumed element fired => lock queue task (.sendTillRelocked element fired)
  | .sendTillRelocked element _ =>
    if queue.ring.isFull then some (queue.goto task (.unlock .refused))
    else some (enqueue queue task element)
  | .recvLock => lock queue task .recvLocked
  | .recvLocked =>
    if queue.ring.isEmpty then some (queue.release task .recvWait)
    else some (dequeue queue task)
  | .recvWait => none
  | .recvTillLock => lock queue task .recvTillLocked
  | .recvTillLocked =>
    if queue.ring.isEmpty then some (queue.release task .recvTillWait)
    else some (dequeue queue task)
  | .recvTillWait => none
  | .recvTillResumed fired => lock queue task (.recvTillRelocked fired)
  | .recvTillRelocked _ =>
    if queue.ring.isEmpty then some (queue.goto task (.unlock .refused))
    else some (dequeue queue task)
  | .unlock result => some (queue.release task (.idle (some result)))

/-- Resume a waiting task other than by a signal. -/
def resume (queue : Queue Task Element) (task : Task) (moved : Pc Element → Option (Pc Element)) :
    Option (Queue Task Element) :=
  (moved (queue.pc task)).map fun pc => queue.goto task pc

/-- `close()`. -/
def close (state : State Task Element) : State Task Element where
  queue := { state.queue with
    ring := { state.queue.ring with putIndex := 0, takeIndex := 0, count := 0 } }
  closed := true

/-- One atomic step of the channel. -/
def step (state : State Task Element) : Action Task Element → Option (State Task Element)
  | .call task operation =>
    if (state.queue.pc task).isIdle then
      some { state with queue := state.queue.goto task operation.entry }
    else none
  | .run task => (advance state.queue task).map fun queue => { state with queue }
  | .timer task => (resume state.queue task Pc.timer).map fun queue => { state with queue }
  | .wakeup task => (resume state.queue task Pc.wakeup).map fun queue => { state with queue }
  | .close => some (close state)

/-! ### What a step does -/

theorem effect_of_lock {before after : Queue Task Element} {task : Task} {pc : Pc Element}
    (locked : lock before task pc = some after) (held : pc.holds = true) :
    Effect roles before task after := by
  unfold lock at locked
  split at locked
  · rename_i free
    cases locked
    refine .acquire pc free ?_ ?_ held
    · cases pc <;> first | rfl | cases held
    · cases pc <;> first | rfl | cases held
  · cases locked

theorem effect_of_enqueue {before : Queue Task Element} {task : Task} (element : Element)
    (held : Pc.holds (before.pc task) = true) (space : ¬ before.ring.isFull = true) :
    Effect roles before task (enqueue before task element) :=
  .enqueue _ _ held (by simpa using space) rfl rfl rfl

theorem effect_of_dequeue {before : Queue Task Element} {task : Task}
    (held : Pc.holds (before.pc task) = true) (nonempty : ¬ before.ring.isEmpty = true) :
    Effect roles before task (dequeue before task) :=
  .dequeue _ held (by simpa using nonempty) (fun _ => rfl) (fun _ => rfl) fun _ => rfl

/-- A sender waits in a full channel, and else enqueues. -/
theorem effect_of_sends {before after : Queue Task Element} {task : Task} {element : Element}
    {waits : Pc Element} (held : Pc.holds (before.pc task) = true) (free : waits.holds = false)
    (space : waits.awaitsItem = false)
    (stepped : (if before.ring.isFull then some (before.release task waits)
      else some (enqueue before task element)) = some after) : Effect roles before task after := by
  split at stepped
  · rename_i full
    cases stepped
    exact .release _ held free (fun item =>
      absurd (space.symm.trans item) Bool.false_ne_true) fun _ => full
  · rename_i notFull
    cases stepped
    exact effect_of_enqueue element held notFull

/-- A receiver waits in an empty channel, and else dequeues. -/
theorem effect_of_receives {before after : Queue Task Element} {task : Task}
    {waits : Pc Element} (held : Pc.holds (before.pc task) = true) (free : waits.holds = false)
    (item : waits.awaitsSpace = false)
    (stepped : (if before.ring.isEmpty then some (before.release task waits)
      else some (dequeue before task)) = some after) : Effect roles before task after := by
  split at stepped
  · rename_i empty
    cases stepped
    exact .release _ held free (fun _ => empty) fun space =>
      absurd (item.symm.trans space) Bool.false_ne_true
  · rename_i notEmpty
    cases stepped
    exact effect_of_dequeue held notEmpty

/-- Every step of a task inside an operation is an effect of the monitor. -/
theorem effect_of_advance {before after : Queue Task Element} {task : Task}
    (stepped : advance before task = some after) : Effect roles before task after := by
  unfold advance at stepped
  split at stepped
  · cases stepped
  · exact effect_of_lock stepped rfl
  · rename_i pc
    exact effect_of_sends (by rw [pc]; rfl) rfl rfl stepped
  · cases stepped
  · exact effect_of_lock stepped rfl
  · rename_i pc
    exact effect_of_sends (by rw [pc]; rfl) rfl rfl stepped
  · cases stepped
  · exact effect_of_lock stepped rfl
  · rename_i element fired pc
    split at stepped
    · cases stepped
      exact .move _ (by rw [pc]; rfl) rfl rfl
    · rename_i notFull
      cases stepped
      exact effect_of_enqueue element (by rw [pc]; rfl) notFull
  · exact effect_of_lock stepped rfl
  · rename_i pc
    exact effect_of_receives (by rw [pc]; rfl) rfl rfl stepped
  · cases stepped
  · exact effect_of_lock stepped rfl
  · rename_i pc
    exact effect_of_receives (by rw [pc]; rfl) rfl rfl stepped
  · cases stepped
  · exact effect_of_lock stepped rfl
  · rename_i fired pc
    split at stepped
    · cases stepped
      exact .move _ (by rw [pc]; rfl) rfl rfl
    · rename_i notEmpty
      cases stepped
      exact effect_of_dequeue (by rw [pc]; rfl) notEmpty
  · rename_i result pc
    cases stepped
    exact .release _ (by rw [pc]; rfl) rfl (fun waits => by cases waits) fun waits => by cases waits

theorem effect_of_call {queue : Queue Task Element} {task : Task} (operation : Operation Element)
    (outside : (queue.pc task).isIdle = true) :
    Effect roles queue task (queue.goto task operation.entry) := by
  cases pc : queue.pc task with
  | idle last =>
    refine .move _ ?_ ?_ ?_
    · rw [pc]
      cases operation <;> rfl
    · cases operation <;> rfl
    · cases operation <;> rfl
  | _ =>
    rw [pc] at outside
    cases outside

/-- A resumed task is outside the critical section before and after, and waits no more. -/
theorem effect_of_resume {before after : Queue Task Element} {task : Task}
    {moved : Pc Element → Option (Pc Element)}
    (resumes : ∀ pc next, moved pc = some next →
      next.holds = pc.holds ∧ next.awaitsItem = false ∧ next.awaitsSpace = false)
    (resumed : resume before task moved = some after) : Effect roles before task after := by
  unfold resume at resumed
  obtain ⟨pc, moves, rfl⟩ := Option.map_eq_some_iff.mp resumed
  obtain ⟨sameHold, noItem, noSpace⟩ := resumes _ pc moves
  exact .move pc sameHold noItem noSpace

theorem timer_resumes (pc next : Pc Element) (moves : pc.timer = some next) :
    next.holds = pc.holds ∧ next.awaitsItem = false ∧ next.awaitsSpace = false := by
  unfold Pc.timer at moves
  split at moves
  all_goals cases moves
  all_goals exact ⟨rfl, rfl, rfl⟩

theorem wakeup_resumes (pc next : Pc Element) (moves : pc.wakeup = some next) :
    next.holds = pc.holds ∧ next.awaitsItem = false ∧ next.awaitsSpace = false := by
  unfold Pc.wakeup at moves
  split at moves
  all_goals cases moves
  all_goals exact ⟨rfl, rfl, rfl⟩

/-- The step does not close the channel. -/
def KeepsOpen (_state : State Task Element) : Action Task Element → Prop
  | .close => False
  | .call _ _ | .run _ | .timer _ | .wakeup _ => True

instance (state : State Task Element) (action : Action Task Element) :
    Decidable (KeepsOpen state action) :=
  match action with
  | .close => inferInstanceAs (Decidable False)
  | .call _ _ => inferInstanceAs (Decidable True)
  | .run _ => inferInstanceAs (Decidable True)
  | .timer _ => inferInstanceAs (Decidable True)
  | .wakeup _ => inferInstanceAs (Decidable True)

/-- Every step but `close` is an effect of the monitor on the queue. -/
theorem effect_of_step {before after : State Task Element} {action : Action Task Element}
    (keepsOpen : KeepsOpen before action) (stepped : step before action = some after) :
    ∃ task, Effect roles before.queue task after.queue := by
  cases action with
  | call task operation =>
    obtain ⟨outside, rfl⟩ := stepped_of_guard stepped
    exact ⟨task, effect_of_call operation outside⟩
  | run task =>
    obtain ⟨queue, advanced, rfl⟩ := Option.map_eq_some_iff.mp stepped
    exact ⟨task, effect_of_advance advanced⟩
  | timer task =>
    obtain ⟨queue, resumed, rfl⟩ := Option.map_eq_some_iff.mp stepped
    exact ⟨task, effect_of_resume timer_resumes resumed⟩
  | wakeup task =>
    obtain ⟨queue, resumed, rfl⟩ := Option.map_eq_some_iff.mp stepped
    exact ⟨task, effect_of_resume wakeup_resumes resumed⟩
  | close => exact keepsOpen.elim

/-! ### What the tasks get -/

/-- A send puts its message in, a receive takes one out, and the timed ones may be refused by a
full and by an empty channel. -/
def service : Service (Operation Element) Element where
  puts
    | .send element | .sendTill element => some element
    | .recv | .recvTill => none
  refuses
    | .sendTill _, capacity, messages, _ => messages.length = capacity
    | .recvTill, _, messages, _ => messages = []
    | .send _, _, _, _ | .recv, _, _, _ => False

/-- The operation a task is inside of, until it has its result. -/
def Pc.stands : Pc Element → Standing (Operation Element) Element
  | idle last => .outside last
  | sendLock element | sendLocked element | sendWait element => .asks (.send element)
  | sendTillLock element | sendTillLocked element | sendTillWait element |
    sendTillResumed element _ | sendTillRelocked element _ => .asks (.sendTill element)
  | recvLock | recvLocked | recvWait => .asks .recv
  | recvTillLock | recvTillLocked | recvTillWait | recvTillResumed _ | recvTillRelocked _ =>
    .asks .recvTill
  | unlock result => .gets result

theorem stands_roles : Stands roles (@Pc.stands Element) where
  signalItem pc := by cases pc <;> rfl
  signalSpace pc := by cases pc <;> rfl

theorem served_of_lock {before after : Queue Task Element} {task : Task} {pc : Pc Element}
    (locked : lock before task pc = some after) (same : pc.stands = (before.pc task).stands) :
    Served service Pc.stands before after := by
  unfold lock at locked
  split at locked
  · cases locked
    exact served_of_same rfl rfl same
  · cases locked

/-- A sender that finds room puts its message in. -/
theorem served_of_enqueue {before : Queue Task Element} (wf : before.ring.Wf) {task : Task}
    {operation : Operation Element} {element : Element}
    (asks : (before.pc task).stands = .asks operation)
    (puts : service.puts operation = some element)
    (notFull : ¬ before.ring.isFull = true) :
    Served service Pc.stands before (enqueue before task element) :=
  served_enqueue stands_roles wf asks puts (Bool.eq_false_iff.mpr notFull) rfl

/-- A receiver that finds a message takes the oldest one. -/
theorem served_of_dequeue {before : Queue Task Element} (wf : before.ring.Wf) {task : Task}
    {operation : Operation Element} (asks : (before.pc task).stands = .asks operation)
    (takes : service.puts operation = none) (notEmpty : ¬ before.ring.isEmpty = true) :
    Served service Pc.stands before (dequeue before task) :=
  served_dequeue stands_roles wf asks takes (Bool.eq_false_iff.mpr notEmpty) fun _ => rfl

/-- Every step of a task inside an operation serves it. -/
theorem served_of_advance {before after : Queue Task Element} (wf : before.ring.Wf) {task : Task}
    (stepped : advance before task = some after) : Served service Pc.stands before after := by
  unfold advance at stepped
  split at stepped
  · cases stepped
  · rename_i pc
    exact served_of_lock stepped (by rw [pc]; rfl)
  · rename_i pc
    split at stepped
    · cases stepped
      exact served_of_same rfl rfl (by rw [pc]; rfl)
    · cases stepped
      exact served_of_enqueue wf (by rw [pc]; rfl) rfl ‹_›
  · cases stepped
  · rename_i pc
    exact served_of_lock stepped (by rw [pc]; rfl)
  · rename_i pc
    split at stepped
    · cases stepped
      exact served_of_same rfl rfl (by rw [pc]; rfl)
    · cases stepped
      exact served_of_enqueue wf (by rw [pc]; rfl) rfl ‹_›
  · cases stepped
  · rename_i pc
    exact served_of_lock stepped (by rw [pc]; rfl)
  · rename_i element fired pc
    split at stepped
    · rename_i full
      cases stepped
      exact served_goto rfl rfl (.refuse task _ (congrArg Pc.stands pc)
        (length_contents_of_isFull full) (Or.inl rfl))
    · cases stepped
      exact served_of_enqueue wf (by rw [pc]; rfl) rfl ‹_›
  · rename_i pc
    exact served_of_lock stepped (by rw [pc]; rfl)
  · rename_i pc
    split at stepped
    · cases stepped
      exact served_of_same rfl rfl (by rw [pc]; rfl)
    · cases stepped
      exact served_of_dequeue wf (by rw [pc]; rfl) rfl ‹_›
  · cases stepped
  · rename_i pc
    exact served_of_lock stepped (by rw [pc]; rfl)
  · rename_i pc
    split at stepped
    · cases stepped
      exact served_of_same rfl rfl (by rw [pc]; rfl)
    · cases stepped
      exact served_of_dequeue wf (by rw [pc]; rfl) rfl ‹_›
  · cases stepped
  · rename_i pc
    exact served_of_lock stepped (by rw [pc]; rfl)
  · rename_i fired pc
    split at stepped
    · rename_i empty
      cases stepped
      exact served_goto rfl rfl (.refuse task _ (congrArg Pc.stands pc)
        (contents_eq_nil_of_isEmpty empty) (Or.inl rfl))
    · cases stepped
      exact served_of_dequeue wf (by rw [pc]; rfl) rfl ‹_›
  · rename_i result pc
    cases stepped
    exact served_goto rfl rfl (.leave task (congrArg Pc.stands pc))

theorem served_of_call {queue : Queue Task Element} {task : Task} (operation : Operation Element)
    (outside : (queue.pc task).isIdle = true) :
    Served service Pc.stands queue (queue.goto task operation.entry) := by
  have entered : (operation.entry).stands = .asks operation := by cases operation <;> rfl
  cases pc : queue.pc task with
  | idle last =>
    refine served_goto rfl rfl ?_
    rw [entered]
    exact .call task operation (congrArg Pc.stands pc)
  | _ =>
    rw [pc] at outside
    cases outside

theorem served_of_resume {before after : Queue Task Element} {task : Task}
    {moved : Pc Element → Option (Pc Element)}
    (stays : ∀ pc next, moved pc = some next → next.stands = pc.stands)
    (resumed : resume before task moved = some after) : Served service Pc.stands before after := by
  unfold resume at resumed
  obtain ⟨pc, moves, rfl⟩ := Option.map_eq_some_iff.mp resumed
  exact served_of_same rfl rfl (stays _ pc moves)

theorem stands_timer (pc next : Pc Element) (moves : pc.timer = some next) :
    next.stands = pc.stands := by
  unfold Pc.timer at moves
  split at moves
  all_goals cases moves
  all_goals rfl

theorem stands_wakeup (pc next : Pc Element) (moves : pc.wakeup = some next) :
    next.stands = pc.stands := by
  unfold Pc.wakeup at moves
  split at moves
  all_goals cases moves
  all_goals rfl

/-- Every step but `close` is one of the bounded FIFO queue and its tasks. -/
theorem served_of_step {before after : State Task Element} {action : Action Task Element}
    (wf : before.queue.ring.Wf) (keepsOpen : KeepsOpen before action)
    (stepped : step before action = some after) :
    Served service Pc.stands before.queue after.queue := by
  cases action with
  | call task operation =>
    obtain ⟨outside, rfl⟩ := stepped_of_guard stepped
    exact served_of_call operation outside
  | run task =>
    obtain ⟨queue, advanced, rfl⟩ := Option.map_eq_some_iff.mp stepped
    exact served_of_advance wf advanced
  | timer task =>
    obtain ⟨queue, resumed, rfl⟩ := Option.map_eq_some_iff.mp stepped
    exact served_of_resume stands_timer resumed
  | wakeup task =>
    obtain ⟨queue, resumed, rfl⟩ := Option.map_eq_some_iff.mp stepped
    exact served_of_resume stands_wakeup resumed
  | close => exact keepsOpen.elim

/-! ### Tasks that only send, and tasks that only receive -/

theorem signalItem_of_sending {pc : Pc Element} (sending : pc.sending = true) :
    pc.signalItem = pc := by
  cases pc <;> first | rfl | cases sending

theorem sending_signalSpace {pc : Pc Element} (sending : pc.sending = true) :
    pc.signalSpace.sending = true := by
  cases pc <;> exact sending

theorem isIdle_signalSpace {pc : Pc Element} (outside : pc.isIdle = true) :
    pc.signalSpace.isIdle = true := by
  cases pc <;> first | rfl | cases outside

theorem isIdle_signalItem {pc : Pc Element} (outside : pc.isIdle = true) :
    pc.signalItem.isIdle = true := by
  cases pc <;> first | rfl | cases outside

theorem seeking_signalItem (pc : Pc Element) : pc.signalItem.seeking = pc.seeking := by
  cases pc <;> rfl

theorem timer_of_seeking {pc next : Pc Element} (seeking : pc.seeking = true)
    (moves : pc.timer = some next) : next.seeking = true ∧ next.holds = false := by
  unfold Pc.timer at moves
  split at moves
  all_goals cases moves
  all_goals first | exact ⟨rfl, rfl⟩ | cases seeking

theorem receiving_signalItem (pc : Pc Element) : pc.signalItem.receiving = pc.receiving := by
  cases pc <;> rfl

theorem receiving_of_seeking {pc : Pc Element} (seeking : pc.seeking = true) :
    pc.receiving = true := by
  cases pc <;> first | rfl | cases seeking

theorem receiving_cases {pc : Pc Element} (receiving : pc.receiving = true) :
    pc.seeking = true ∨ (∃ last, pc = .idle last) ∨ ∃ result, pc = .unlock result := by
  cases pc with
  | idle last => exact Or.inr (Or.inl ⟨last, rfl⟩)
  | unlock result => exact Or.inr (Or.inr ⟨result, rfl⟩)
  | _ => exact Or.inl receiving

/-- Taking the mutex touches neither the ring nor another task. -/
theorem lock_spec {before after : Queue Task Element} {task : Task} {pc : Pc Element}
    (locked : lock before task pc = some after) :
    before.owner = none ∧ after = before.acquire task pc := by
  unfold lock at locked
  split at locked
  · rename_i free
    exact ⟨free, (Option.some.inj locked).symm⟩
  · cases locked

/-- A step inside `send` stays inside `send` (or returns), and it leaves the ring and the other
tasks alone unless it is the enqueue. -/
theorem advance_of_sending {before after : Queue Task Element} {task : Task}
    (sending : (before.pc task).sending = true) (stepped : advance before task = some after) :
    (after.pc task).sending = true ∧
      ((after.ring = before.ring ∧ ∀ other, other ≠ task → after.pc other = before.pc other) ∨
        ∃ element, before.pc task = .sendLocked element ∧ before.ring.isFull = false ∧
          after = enqueue before task element) := by
  unfold advance at stepped
  cases pc : before.pc task with
  | idle last =>
    rw [pc] at stepped
    cases stepped
  | sendLock element =>
    simp only [pc] at stepped
    obtain ⟨-, rfl⟩ := lock_spec stepped
    exact ⟨by rw [State.acquire_pc_self]; rfl, Or.inl ⟨rfl, fun _ => State.acquire_pc_of_ne _ _⟩⟩
  | sendLocked element =>
    simp only [pc] at stepped
    split at stepped
    · cases stepped
      exact ⟨by rw [State.release_pc_self]; rfl,
        Or.inl ⟨rfl, fun _ => State.release_pc_of_ne _ _⟩⟩
    · rename_i notFull
      cases stepped
      refine ⟨?_, Or.inr ⟨element, rfl, by simpa using notFull, rfl⟩⟩
      rw [enqueue, State.enqueue_pc_self]
      rfl
  | sendWait element =>
    simp only [pc] at stepped
    cases stepped
  | unlock result =>
    simp only [pc] at stepped
    cases stepped
    exact ⟨by rw [State.release_pc_self]; rfl, Or.inl ⟨rfl, fun _ => State.release_pc_of_ne _ _⟩⟩
  | _ =>
    rw [pc] at sending
    cases sending

/-- A step of a task that seeks a message keeps seeking and touches nothing but the mutex, gives
up on an empty ring at the end of a timed wait, or takes the oldest message. -/
theorem advance_of_seeking {before after : Queue Task Element} {task : Task}
    (seeking : (before.pc task).seeking = true) (stepped : advance before task = some after) :
    (∃ pc owner, pc.seeking = true ∧ after = { before.goto task pc with owner }) ∨
      (before.ring.isEmpty = true ∧ after = before.goto task (.unlock .refused)) ∨
        (before.ring.isEmpty = false ∧ after = dequeue before task) := by
  have locks : ∀ pc : Pc Element, pc.seeking = true → lock before task pc = some after →
      ∃ pc owner, pc.seeking = true ∧ after = { before.goto task pc with owner } := by
    intro pc seeks locked
    obtain ⟨-, rfl⟩ := lock_spec locked
    exact ⟨pc, some task, seeks, rfl⟩
  unfold advance at stepped
  cases pc : before.pc task with
  | recvLock =>
    simp only [pc] at stepped
    exact Or.inl (locks _ rfl stepped)
  | recvLocked =>
    simp only [pc] at stepped
    split at stepped
    · exact Or.inl ⟨.recvWait, none, rfl, (Option.some.inj stepped).symm⟩
    · rename_i notEmpty
      exact Or.inr (Or.inr ⟨by simpa using notEmpty, (Option.some.inj stepped).symm⟩)
  | recvWait =>
    simp only [pc] at stepped
    cases stepped
  | recvTillLock =>
    simp only [pc] at stepped
    exact Or.inl (locks _ rfl stepped)
  | recvTillLocked =>
    simp only [pc] at stepped
    split at stepped
    · exact Or.inl ⟨.recvTillWait, none, rfl, (Option.some.inj stepped).symm⟩
    · rename_i notEmpty
      exact Or.inr (Or.inr ⟨by simpa using notEmpty, (Option.some.inj stepped).symm⟩)
  | recvTillWait =>
    simp only [pc] at stepped
    cases stepped
  | recvTillResumed fired =>
    simp only [pc] at stepped
    exact Or.inl (locks _ rfl stepped)
  | recvTillRelocked fired =>
    simp only [pc] at stepped
    split at stepped
    · rename_i empty
      exact Or.inr (Or.inl ⟨empty, (Option.some.inj stepped).symm⟩)
    · rename_i notEmpty
      exact Or.inr (Or.inr ⟨by simpa using notEmpty, (Option.some.inj stepped).symm⟩)
  | _ =>
    rw [pc] at seeking
    cases seeking

/-- A task that seeks a message and cannot go on does not hold the mutex. -/
theorem not_holds_of_advance_none {queue : Queue Task Element} {task : Task}
    (seeking : (queue.pc task).seeking = true) (stuck : advance queue task = none) :
    (queue.pc task).holds = false := by
  unfold advance at stuck
  cases pc : queue.pc task with
  | recvLocked =>
    simp only [pc] at stuck
    split at stuck <;> cases stuck
  | recvTillLocked =>
    simp only [pc] at stuck
    split at stuck <;> cases stuck
  | recvTillRelocked fired =>
    simp only [pc] at stuck
    split at stuck <;> cases stuck
  | recvLock => rfl
  | recvWait => rfl
  | recvTillLock => rfl
  | recvTillWait => rfl
  | recvTillResumed fired => rfl
  | _ =>
    rw [pc] at seeking
    cases seeking

/-- The unlock at the end of an operation. -/
theorem advance_of_unlock {before after : Queue Task Element} {task : Task}
    {result : Result Element} (pc : before.pc task = .unlock result)
    (stepped : advance before task = some after) :
    after = before.release task (.idle (some result)) := by
  simp only [advance, pc] at stepped
  exact (Option.some.inj stepped).symm

/-- A step inside `recv` or `recvTill` stays inside it (or returns); while it still seeks a
message it takes none, and the other tasks are left alone or told of a free slot. -/
theorem advance_of_receiving {before after : Queue Task Element} {task : Task}
    (receiving : (before.pc task).receiving = true) (stepped : advance before task = some after) :
    (after.pc task).receiving = true ∧
      ((after.pc task).seeking = true →
        (before.pc task).seeking = true ∧ after.ring = before.ring) ∧
      ∀ other, other ≠ task →
        after.pc other = before.pc other ∨ after.pc other = (before.pc other).signalSpace := by
  obtain seeking | ⟨last, pc⟩ | ⟨result, pc⟩ := receiving_cases receiving
  · obtain ⟨pc, owner, seeks, rfl⟩ | ⟨-, rfl⟩ | ⟨-, rfl⟩ := advance_of_seeking seeking stepped
    · refine ⟨?_, fun _ => ⟨seeking, rfl⟩,
        fun _ different => Or.inl (State.goto_pc_of_ne _ _ different)⟩
      show ((before.goto task pc).pc task).receiving = true
      rw [State.goto_pc_self]
      exact receiving_of_seeking seeks
    · rw [State.goto_pc_self]
      exact ⟨rfl, fun seeks => (by cases seeks),
        fun _ different => Or.inl (State.goto_pc_of_ne _ _ different)⟩
    · rw [dequeue, State.dequeue_pc_self]
      exact ⟨rfl, fun seeks => (by cases seeks),
        fun _ different => Or.inr (State.dequeue_pc_of_ne _ _ different _)⟩
  · simp only [advance, pc] at stepped
    cases stepped
  · rw [advance_of_unlock pc stepped, State.release_pc_self]
    exact ⟨rfl, fun seeks => (by cases seeks),
      fun _ different => Or.inl (State.release_pc_of_ne _ _ different)⟩

end

end Nattan.Chan
