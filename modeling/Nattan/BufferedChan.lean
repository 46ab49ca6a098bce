/-
This file models the buffered channel, `chan_buffer_send` and `chan_buffer_recv`, under any
number of tasks, and proves that it is a bounded queue that wakes enough tasks.

A send that finds room signals `not_empty` once, and a receive that finds a message signals
`not_full` once. The task that is resumed looks again when it has the mutex, and may have to
wait again, at the end of the list, because another one was faster. One signal for each
message is enough all the same: for every message in the queue that some receiver waits for
there is another receiver on its way to the queue.

The critical sections are single steps, from the return of `co_mutex_lock` to the unlock or
to the wait, which unlocks. A task leaves a wait only by a signal. What was pushed and popped,
and by whom, and what has returned, is recorded; the program does not, and nothing it does
depends on it.
-/

import Nattan.CondMonitor

namespace Nattan

namespace BufferedChan

universe u v

/-- The conditions of a `chan_t`. -/
inductive Cond where
  | not_full
  | not_empty
  deriving DecidableEq, Repr

inductive Operation (Message : Type v) where
  | send (msg : Message)
  | recv
  deriving DecidableEq, Repr

/-- Where a task stands. -/
inductive Pc (Message : Type v) where
  | idle
  | sendLock (msg : Message)
  | sendLocked (msg : Message)
  | sendWait (msg : Message)
  | sendUnlock (msg : Message)
  | recvLock
  | recvLocked
  | recvWait
  | recvUnlock (msg : Message)
  deriving DecidableEq, Repr

namespace Pc

variable {Message : Type v}

def holds : Pc Message → Bool
  | sendLocked _ | sendUnlock _ | recvLocked | recvUnlock _ => true
  | _ => false

/-- The condition a task waits for. -/
def waitsFor : Pc Message → Option Cond
  | sendWait _ => some .not_full
  | recvWait => some .not_empty
  | _ => none

/-- A task that was signalled locks the mutex again. -/
def resumed : Pc Message → Pc Message
  | sendWait msg => sendLock msg
  | recvWait => recvLock
  | pc => pc

/-- A receiver that will look at the queue. -/
def fetches : Pc Message → Bool
  | recvLock | recvLocked => true
  | _ => false

/-- A sender that will look at the queue. -/
def brings : Pc Message → Bool
  | sendLock _ | sendLocked _ => true
  | _ => false

/-- What a send that has not returned has pushed. -/
def pushed : Pc Message → List Message
  | sendUnlock msg => [msg]
  | _ => []

/-- What a receive that has not returned has popped. -/
def popped : Pc Message → List Message
  | recvUnlock msg => [msg]
  | _ => []

end Pc

def roles {Message : Type v} : CondMonitor.Roles (Pc Message) Cond where
  holds := Pc.holds
  waitsFor := Pc.waitsFor
  resumed := Pc.resumed
  holds_of_waits := fun {pc _} waits => by cases pc <;> first | rfl | cases waits
  holds_resumed := fun {pc _} waits => by cases pc <;> first | rfl | cases waits
  waitsFor_resumed := fun {pc _} _ => by cases pc <;> rfl

/-- A `chan_t` and the tasks. -/
structure State (Task : Type u) (Message : Type v) extends
    CondMonitor.Core Task (Pc Message) Cond where
  nelems : Nat
  msgs : List Message
  pushed : List (Task × Message)
  popped : List (Task × Message)
  sent : List (Task × Message)
  received : List (Task × Message)

variable {Task : Type u} {Message : Type v} [DecidableEq Task]

/-- `chan_open`, before any task has come. The capacity is kept in an `unsigned int`. -/
def chan_open (nelems : Nat) : State Task Message where
  toCore := CondMonitor.Core.initial .idle
  nelems := nelems % 2 ^ 32
  msgs := []
  pushed := []
  popped := []
  sent := []
  received := []

namespace State

def chan_msgs_empty (state : State Task Message) : Bool :=
  state.msgs.isEmpty

def chan_msgs_full (state : State Task Message) : Bool :=
  state.msgs.length == state.nelems || (state.nelems == 0 && state.msgs.length == 1)

def goto (state : State Task Message) (task : Task) (pc : Pc Message) : State Task Message :=
  { state with toCore := state.toCore.goto task pc }

def co_mutex_lock (state : State Task Message) (task : Task) (pc : Pc Message) :
    Option (State Task Message) :=
  (state.toCore.lock task pc).map fun core => { state with toCore := core }

def co_mutex_unlock (state : State Task Message) (task : Task) : State Task Message :=
  { state with toCore := state.toCore.unlock task .idle }

/-- `co_cond_wait`, up to its yield. -/
def co_cond_wait (state : State Task Message) (cond : Cond) (task : Task) (pc : Pc Message) :
    State Task Message :=
  { state with toCore := state.toCore.wait cond task pc }

def co_cond_signal (state : State Task Message) (cond : Cond) : State Task Message :=
  { state with toCore := state.toCore.signal roles cond }

/-- The size of the queue is an `int`, and a push behind its last value has no meaning. -/
def chan_push_msg (state : State Task Message) (task : Task) (msg : Message) :
    Option (State Task Message) :=
  if state.msgs.length + 1 < 2 ^ 31 then
    some { state with
      msgs := state.msgs ++ [msg]
      pushed := state.pushed ++ [(task, msg)] }
  else none

/-- The loop of `chan_buffer_send`, from where the mutex is locked, and what follows it. -/
def chan_buffer_send (state : State Task Message) (task : Task) (msg : Message) :
    Option (State Task Message) :=
  if state.chan_msgs_full then some (state.co_cond_wait .not_full task (.sendWait msg))
  else (state.chan_push_msg task msg).map fun state =>
    (state.co_cond_signal .not_empty).goto task (.sendUnlock msg)

/-- The loop of `chan_buffer_recv`, from where the mutex is locked, and what follows it. -/
def chan_buffer_recv (state : State Task Message) (task : Task) : State Task Message :=
  match state.msgs with
  | [] => state.co_cond_wait .not_empty task .recvWait
  | msg :: rest =>
    let state := { state with msgs := rest, popped := state.popped ++ [(task, msg)] }
    (state.co_cond_signal .not_full).goto task (.recvUnlock msg)

/-- The next step of a task, if it is not blocked. -/
def run (state : State Task Message) (task : Task) : Option (State Task Message) :=
  match state.pc task with
  | .idle | .sendWait _ | .recvWait => none
  | .sendLock msg => state.co_mutex_lock task (.sendLocked msg)
  | .sendLocked msg => state.chan_buffer_send task msg
  | .sendUnlock msg =>
    some { state.co_mutex_unlock task with sent := state.sent ++ [(task, msg)] }
  | .recvLock => state.co_mutex_lock task .recvLocked
  | .recvLocked => some (state.chan_buffer_recv task)
  | .recvUnlock msg =>
    some { state.co_mutex_unlock task with received := state.received ++ [(task, msg)] }

end State

inductive Action (Task : Type u) (Message : Type v) where
  | call (task : Task) (operation : Operation Message)
  | run (task : Task)
  deriving DecidableEq, Repr

/-- A task that is idle may call an operation, and one that is inside of one may go on. -/
def step (state : State Task Message) : Action Task Message → Option (State Task Message)
  | .call task operation =>
    match state.pc task with
    | .idle =>
      match operation with
      | .send msg => some (state.goto task (.sendLock msg))
      | .recv => some (state.goto task .recvLock)
    | _ => none
  | .run task => state.run task

/-- What a task has done, in its order. -/
def byTask (task : Task) (history : List (Task × Message)) : List Message :=
  (history.filter (·.1 = task)).map Prod.snd

theorem byTask_append_self (task : Task) (history : List (Task × Message)) (msg : Message) :
    byTask task (history ++ [(task, msg)]) = byTask task history ++ [msg] := by
  simp [byTask]

theorem byTask_append_of_ne {task other : Task} (different : other ≠ task)
    (history : List (Task × Message)) (msg : Message) :
    byTask other (history ++ [(task, msg)]) = byTask other history := by
  simp [byTask, different.symm]

/-! ### The queue -/

/-- The queue is bounded, its history is first in, first out, and each task has pushed what its
sends say and popped what its receives say. -/
structure Fifo (state : State Task Message) : Prop where
  bounded : state.msgs.length ≤ state.nelems
  history : state.pushed.map Prod.snd = state.popped.map Prod.snd ++ state.msgs
  sends : ∀ task,
    byTask task state.pushed = byTask task state.sent ++ (state.pc task).pushed
  receives : ∀ task,
    byTask task state.popped = byTask task state.received ++ (state.pc task).popped

/-- A task waits only if there are as many others on their way as it waits for: the receivers to the
messages, the senders to the free places. -/
structure Wakes (state : State Task Message) : Prop where
  messages : state.wait_list .not_empty ≠ [] →
    (state.msgs.length : ℕ∞) ≤ census Pc.fetches state.pc
  places : state.wait_list .not_full ≠ [] →
    (state.nelems : ℕ∞) ≤ state.msgs.length + census Pc.brings state.pc

/-- The invariant of a channel with a buffer. -/
structure Inv (capacity : Nat) (state : State Task Message) : Prop where
  buffered : 0 < capacity
  nelems : state.nelems = capacity
  well : CondMonitor.Well roles state.toCore
  fifo : Fifo state
  wakes : Wakes state

section Steps

variable {capacity : Nat} {state after : State Task Message} {task : Task} {cond : Cond}
  {msg : Message}

/-- What moves no task out of what it has pushed and popped leaves the queue a queue. -/
theorem Fifo.core (fifo : Fifo state)
    {core : CondMonitor.Core Task (Pc Message) Cond}
    (pushed : ∀ task, (core.pc task).pushed = (state.pc task).pushed)
    (popped : ∀ task, (core.pc task).popped = (state.pc task).popped) :
    Fifo { state with toCore := core } := by
  refine ⟨fifo.bounded, fifo.history, fun task => ?_, fun task => ?_⟩
  · exact (fifo.sends task).trans (congrArg _ (pushed task).symm)
  · exact (fifo.receives task).trans (congrArg _ (popped task).symm)

theorem signal_same (inv : Inv capacity state) (read : Pc Message → List Message)
    (same : ∀ pc : Pc Message, read pc.resumed = read pc) (cond : Cond) (other : Task) :
    read ((state.co_cond_signal cond).pc other) = read (state.pc other) := by
  rcases inv.well.pc_signal_cases cond other with still | ⟨-, resumed⟩
  · exact congrArg read still
  · exact (congrArg read resumed).trans (same _)

theorem Pc.pushed_resumed (pc : Pc Message) : pc.resumed.pushed = pc.pushed := by
  cases pc <;> rfl

theorem Pc.popped_resumed (pc : Pc Message) : pc.resumed.popped = pc.popped := by
  cases pc <;> rfl

omit [DecidableEq Task] in
/-- As long as the queue and the lists stay, more tasks on their way do no harm. -/
theorem Wakes.core (wakes : Wakes state) (core : CondMonitor.Core Task (Pc Message) Cond)
    (lists : ∀ cond, core.wait_list cond ≠ [] → state.wait_list cond ≠ [])
    (fetches : census Pc.fetches state.pc ≤ census Pc.fetches core.pc)
    (brings : census Pc.brings state.pc ≤ census Pc.brings core.pc) :
    Wakes { state with toCore := core } where
  messages := fun waits => (wakes.messages (lists _ waits)).trans fetches
  places := fun waits => (wakes.places (lists _ waits)).trans (add_le_add_right brings _)

theorem inv_chan_open {nelems : Nat} (buffered : 0 < nelems % 2 ^ 32) :
    Inv (nelems % 2 ^ 32) (chan_open nelems : State Task Message) where
  buffered := buffered
  nelems := rfl
  well := .initial rfl rfl
  fifo := ⟨Nat.zero_le _, rfl, fun _ => rfl, fun _ => rfl⟩
  wakes := ⟨fun none => absurd rfl none, fun none => absurd rfl none⟩

/-- A task that calls an operation. -/
theorem Inv.call (inv : Inv capacity state) (here : state.pc task = .idle) {pc : Pc Message}
    (outside : pc.holds = false) (awake : pc.waitsFor = none) (pushed : pc.pushed = [])
    (popped : pc.popped = []) : Inv capacity (state.goto task pc) := by
  have enters : ∀ role : Pc Message → Bool, role .idle = false →
      census role state.pc ≤ census role (Function.update state.pc task pc) := by
    intro role idle
    cases inside : role pc with
    | true => exact le_self_add.trans_eq (census_enter (here ▸ idle) inside).symm
    | false => exact (census_stay (inside.trans (here ▸ idle).symm)).ge
  exact ⟨inv.buffered, inv.nelems, inv.well.goto (congrArg Pc.waitsFor here) awake (here ▸ outside),
    inv.fifo.core (read_update _ (here ▸ pushed)) (read_update _ (here ▸ popped)),
    inv.wakes.core _ (fun _ => id) (enters _ rfl) (enters _ rfl)⟩

/-- A task on its way gets the mutex, and is on its way still. -/
theorem Inv.co_mutex_lock (inv : Inv capacity state) {pc : Pc Message}
    (awake : (state.pc task).waitsFor = none) (holds : pc.holds = true)
    (fetches : pc.fetches = (state.pc task).fetches) (brings : pc.brings = (state.pc task).brings)
    (pushed : pc.pushed = (state.pc task).pushed) (popped : pc.popped = (state.pc task).popped)
    (locked : state.co_mutex_lock task pc = some after) : Inv capacity after := by
  obtain ⟨core, got, rfl⟩ := Option.map_eq_some_iff.mp locked
  have well := inv.well.lock awake (CondMonitor.Well.awake_of_holds holds) holds got
  obtain ⟨-, rfl⟩ := stepped_of_guard got
  exact ⟨inv.buffered, inv.nelems, well,
    inv.fifo.core (read_update _ pushed) (read_update _ popped),
    inv.wakes.core _ (fun _ => id) (census_stay fetches).ge (census_stay brings).ge⟩

/-- With a capacity, full means that the queue has as many messages. -/
theorem Inv.length_of_full (inv : Inv capacity state)
    (full : state.chan_msgs_full = true) : state.msgs.length = state.nelems := by
  have buffered := inv.buffered
  have nelems := inv.nelems
  rcases (Bool.or_eq_true ..).mp full with equal | none
  · exact beq_iff_eq.mp equal
  · have zero := beq_iff_eq.mp ((Bool.and_eq_true ..).mp none).1
    omega

/-- A list that is not empty behind a signal was not empty before it. -/
theorem wait_list_signal (state : State Task Message) {cond : Cond}
    (some : (state.co_cond_signal cond).wait_list cond ≠ []) :
    state.wait_list cond ≠ [] := by
  intro none
  refine some ?_
  show (state.toCore.signal roles cond).wait_list cond = []
  unfold CondMonitor.Core.signal
  rw [none]
  exact none

theorem wait_list_signal_of_ne (state : State Task Message) {cond other : Cond}
    (different : other ≠ cond) :
    (state.co_cond_signal cond).wait_list other = state.wait_list other := by
  show (state.toCore.signal roles cond).wait_list other = _
  unfold CondMonitor.Core.signal
  cases state.wait_list cond with
  | nil => rfl
  | cons first rest => exact Function.update_of_ne different ..

theorem wait_list_wait_of_ne (state : State Task Message) (task : Task) (pc : Pc Message)
    {cond other : Cond} (different : other ≠ cond) :
    (state.co_cond_wait cond task pc).wait_list other = state.wait_list other := by
  show Function.update state.wait_list cond _ other = _
  exact Function.update_of_ne different ..

/-- A sender that finds no room waits: as many messages as there are places are there. -/
theorem Inv.wait_not_full (inv : Inv capacity state) (here : state.pc task = .sendLocked msg)
    (full : state.chan_msgs_full = true) :
    Inv capacity (state.co_cond_wait .not_full task (.sendWait msg)) := by
  have held : (state.pc task).holds = true := congrArg Pc.holds here
  refine ⟨inv.buffered, inv.nelems, inv.well.wait held rfl,
    inv.fifo.core (read_update _ (here ▸ rfl)) (read_update _ (here ▸ rfl)), ?_, ?_⟩
  · intro waits
    have stays : census Pc.fetches state.pc = census Pc.fetches
        (Function.update state.pc task (.sendWait msg)) := (census_stay (here ▸ rfl)).symm
    have other := wait_list_wait_of_ne state task (.sendWait msg)
      (show Cond.not_empty ≠ .not_full from fun same => nomatch same)
    exact (inv.wakes.messages (other ▸ waits)).trans_eq stays
  · intro _
    exact le_add_right (Nat.cast_le.mpr (inv.length_of_full full).ge)

/-- A receiver that finds nothing waits. -/
theorem Inv.wait_not_empty (inv : Inv capacity state) (here : state.pc task = .recvLocked)
    (empty : state.msgs = []) : Inv capacity (state.co_cond_wait .not_empty task .recvWait) := by
  have held : (state.pc task).holds = true := congrArg Pc.holds here
  refine ⟨inv.buffered, inv.nelems, inv.well.wait held rfl,
    inv.fifo.core (read_update _ (here ▸ rfl)) (read_update _ (here ▸ rfl)), ?_, ?_⟩
  · intro _
    show (state.msgs.length : ℕ∞) ≤ _
    rw [empty]
    exact zero_le
  · intro waits
    have stays : census Pc.brings state.pc = census Pc.brings
        (Function.update state.pc task .recvWait) := (census_stay (here ▸ rfl)).symm
    have other := wait_list_wait_of_ne state task .recvWait
      (show Cond.not_full ≠ .not_empty from fun same => nomatch same)
    exact (inv.wakes.places (other ▸ waits)).trans_eq (congrArg _ stays)

/-- A task that holds the mutex is where it was behind a signal. -/
theorem Inv.pc_signal (inv : Inv capacity state) (held : (state.pc task).holds = true)
    (cond : Cond) :
    (state.co_cond_signal cond).pc task = state.pc task :=
  inv.well.pc_signal (CondMonitor.Well.awake_of_holds held) cond

/-- Where the tasks are behind a signal and a move of a task that holds the mutex and goes on to
hold it. -/
theorem Inv.signal_goto (inv : Inv capacity state) (held : (state.pc task).holds = true)
    (cond : Cond) {pc : Pc Message} (holds : pc.holds = true) :
    CondMonitor.Well roles ((state.co_cond_signal cond).goto task pc).toCore := by
  have still := inv.pc_signal held cond
  refine (inv.well.signal cond).goto ?_ (CondMonitor.Well.awake_of_holds holds) ?_
  · exact (congrArg Pc.waitsFor still).trans
      (CondMonitor.Well.awake_of_holds (show roles.holds _ = true from held))
  · exact holds.trans ((congrArg Pc.holds still).trans held).symm

/-- A sender that finds room pushes. One message more is in the queue, and if a receiver waits,
one more is on its way. -/
theorem Inv.push (inv : Inv capacity state) (here : state.pc task = .sendLocked msg)
    (room : state.chan_msgs_full = false) {pushed : State Task Message}
    (done : state.chan_push_msg task msg = some pushed) :
    Inv capacity ((pushed.co_cond_signal .not_empty).goto task (.sendUnlock msg)) := by
  obtain ⟨-, rfl⟩ := stepped_of_guard done
  have held : (state.pc task).holds = true := congrArg Pc.holds here
  have still := inv.pc_signal held .not_empty
  refine ⟨inv.buffered, inv.nelems, inv.signal_goto held .not_empty rfl, ⟨?_, ?_, ?_, ?_⟩, ⟨?_, ?_⟩⟩
  · have bounded := inv.fifo.bounded
    have notFull : state.msgs.length ≠ state.nelems := by
      intro full
      rw [State.chan_msgs_full, full, beq_self_eq_true, Bool.true_or] at room
      cases room
    show (state.msgs ++ [msg]).length ≤ state.nelems
    rw [List.length_append, List.length_singleton]
    omega
  · show (state.pushed ++ [(task, msg)]).map Prod.snd = _ ++ (state.msgs ++ [msg])
    rw [List.map_append, inv.fifo.history, List.append_assoc]
    rfl
  · intro other
    show byTask other (state.pushed ++ [(task, msg)]) = byTask other state.sent ++
      (Function.update (state.co_cond_signal .not_empty).pc task (.sendUnlock msg) other).pushed
    by_cases own : other = task
    · subst own
      rw [byTask_append_self, inv.fifo.sends, here, Function.update_self]
      exact congrArg (· ++ [msg]) (List.append_nil _)
    · rw [byTask_append_of_ne own, inv.fifo.sends, Function.update_of_ne own,
        signal_same inv Pc.pushed Pc.pushed_resumed]
  · intro other
    refine (inv.fifo.receives other).trans (congrArg _ ?_)
    refine (signal_same inv Pc.popped Pc.popped_resumed .not_empty other).symm.trans ?_
    exact (read_update Pc.popped (still.trans here ▸ rfl) other).symm
  · intro waits
    have waited := wait_list_signal state waits
    have more := inv.well.census_signal_enter Pc.fetches
      (fun pc waits => by cases pc <;> first | rfl | cases waits)
      (fun pc waits => by cases pc <;> first | rfl | cases waits) waited
    have stays : census Pc.fetches (Function.update (state.co_cond_signal .not_empty).pc task
        (.sendUnlock msg)) = census Pc.fetches (state.co_cond_signal .not_empty).pc :=
      census_stay (still.trans here ▸ rfl)
    show ((state.msgs ++ [msg]).length : ℕ∞) ≤ census Pc.fetches
      (Function.update (state.co_cond_signal .not_empty).pc task (.sendUnlock msg))
    rw [List.length_append, List.length_singleton, Nat.cast_add, Nat.cast_one]
    exact (add_le_add_left (inv.wakes.messages waited) 1).trans_eq (stays.trans more).symm
  · intro waits
    have apart : Cond.not_full ≠ Cond.not_empty := fun same => nomatch same
    have waited := wait_list_signal_of_ne state apart ▸ waits
    have same : census Pc.brings (state.co_cond_signal .not_empty).pc = _ :=
      inv.well.census_signal fun pc waits => by cases pc <;> first | rfl | cases waits
    have less : census Pc.brings (state.co_cond_signal .not_empty).pc =
        census Pc.brings (Function.update (state.co_cond_signal .not_empty).pc task
          (.sendUnlock msg)) + 1 := census_leave (still.trans here ▸ rfl) rfl
    show (state.nelems : ℕ∞) ≤ (state.msgs ++ [msg]).length + census Pc.brings
      (Function.update (state.co_cond_signal .not_empty).pc task (.sendUnlock msg))
    rw [List.length_append, List.length_singleton, Nat.cast_add, Nat.cast_one, add_assoc,
      add_comm 1, ← less, same]
    exact inv.wakes.places waited

/-- A receiver that finds a message pops it. One place more is free, and if a sender waits, one
more is on its way. -/
theorem Inv.pop (inv : Inv capacity state) (here : state.pc task = .recvLocked)
    {rest : List Message} (some : state.msgs = msg :: rest) :
    Inv capacity ((State.co_cond_signal { state with
        msgs := rest
        popped := state.popped ++ [(task, msg)] } .not_full).goto task (.recvUnlock msg)) := by
  have held : (state.pc task).holds = true := congrArg Pc.holds here
  have still := inv.pc_signal held .not_full
  have count : (state.msgs.length : ℕ∞) = rest.length + 1 := by
    rw [some, List.length_cons, Nat.cast_add, Nat.cast_one]
  refine ⟨inv.buffered, inv.nelems, inv.signal_goto held .not_full rfl, ⟨?_, ?_, ?_, ?_⟩, ⟨?_, ?_⟩⟩
  · have bounded := inv.fifo.bounded
    rw [some, List.length_cons] at bounded
    exact Nat.le_of_succ_le bounded
  · show state.pushed.map Prod.snd = (state.popped ++ [(task, msg)]).map Prod.snd ++ rest
    rw [inv.fifo.history, some, List.map_append, List.append_assoc]
    rfl
  · intro other
    refine (inv.fifo.sends other).trans (congrArg _ ?_)
    refine (signal_same inv Pc.pushed Pc.pushed_resumed .not_full other).symm.trans ?_
    exact (read_update Pc.pushed (still.trans here ▸ rfl) other).symm
  · intro other
    show byTask other (state.popped ++ [(task, msg)]) = byTask other state.received ++
      (Function.update (state.co_cond_signal .not_full).pc task (.recvUnlock msg) other).popped
    by_cases own : other = task
    · subst own
      rw [byTask_append_self, inv.fifo.receives, here, Function.update_self]
      exact congrArg (· ++ [msg]) (List.append_nil _)
    · rw [byTask_append_of_ne own, inv.fifo.receives, Function.update_of_ne own,
        signal_same inv Pc.popped Pc.popped_resumed]
  · intro waits
    have apart : Cond.not_empty ≠ Cond.not_full := fun same => nomatch same
    have waited := wait_list_signal_of_ne state apart ▸ waits
    have same : census Pc.fetches (state.co_cond_signal .not_full).pc = _ :=
      inv.well.census_signal fun pc waits => by cases pc <;> first | rfl | cases waits
    have less : census Pc.fetches (state.co_cond_signal .not_full).pc =
        census Pc.fetches (Function.update (state.co_cond_signal .not_full).pc task
          (.recvUnlock msg)) + 1 := census_leave (still.trans here ▸ rfl) rfl
    have messages := inv.wakes.messages waited
    rw [count, ← same, less] at messages
    exact (ENat.add_le_add_iff_right ENat.one_ne_top).mp messages
  · intro waits
    have waited := wait_list_signal state waits
    have more := inv.well.census_signal_enter Pc.brings
      (fun pc waits => by cases pc <;> first | rfl | cases waits)
      (fun pc waits => by cases pc <;> first | rfl | cases waits) waited
    have stays : census Pc.brings (Function.update (state.co_cond_signal .not_full).pc task
        (.recvUnlock msg)) = census Pc.brings (state.co_cond_signal .not_full).pc :=
      census_stay (still.trans here ▸ rfl)
    have places := inv.wakes.places waited
    rw [count, add_assoc, add_comm 1] at places
    exact places.trans_eq (congrArg _ (stays.trans more).symm)

/-- A task that is done leaves the mutex, and what it has pushed and popped is recorded as
returned. -/
theorem Inv.co_mutex_unlock (inv : Inv capacity state) (held : (state.pc task).holds = true)
    (fetches : (state.pc task).fetches = false) (brings : (state.pc task).brings = false)
    {sent received : List (Task × Message)}
    (sends : ∀ other, byTask other sent ++ (Function.update state.pc task .idle other).pushed =
      byTask other state.sent ++ (state.pc other).pushed)
    (receives : ∀ other,
      byTask other received ++ (Function.update state.pc task .idle other).popped =
        byTask other state.received ++ (state.pc other).popped) :
    Inv capacity { state.co_mutex_unlock task with sent := sent, received := received } := by
  refine ⟨inv.buffered, inv.nelems, inv.well.unlock held rfl rfl,
    ⟨inv.fifo.bounded, inv.fifo.history,
    fun other => (inv.fifo.sends other).trans (sends other).symm,
    fun other => (inv.fifo.receives other).trans (receives other).symm⟩, ?_⟩
  have moved := inv.wakes.core (state.toCore.unlock task .idle) (fun _ => id)
    (census_stay fetches.symm).ge (census_stay brings.symm).ge
  exact ⟨moved.messages, moved.places⟩

/-- The task that moves accounts for a message by its return. -/
theorem byTask_return {read : Pc Message → List Message} (idle : read .idle = [])
    (holds : read (state.pc task) = [msg]) (history : List (Task × Message)) (other : Task) :
    byTask other (history ++ [(task, msg)]) ++ read (Function.update state.pc task .idle other) =
      byTask other history ++ read (state.pc other) := by
  by_cases own : other = task
  · subst own
    rw [byTask_append_self, Function.update_self, idle, holds, List.append_nil]
  · rw [byTask_append_of_ne own, Function.update_of_ne own]

theorem Inv.run (inv : Inv capacity state) (ran : state.run task = some after) :
    Inv capacity after := by
  unfold State.run at ran
  cases here : state.pc task with
  | idle => rw [here] at ran; cases ran
  | sendWait msg => rw [here] at ran; cases ran
  | recvWait => rw [here] at ran; cases ran
  | sendLock msg =>
    rw [here] at ran
    exact inv.co_mutex_lock (here ▸ rfl) rfl (here ▸ rfl) (here ▸ rfl) (here ▸ rfl) (here ▸ rfl) ran
  | sendLocked msg =>
    rw [here] at ran
    change state.chan_buffer_send task msg = some after at ran
    unfold State.chan_buffer_send at ran
    split at ran
    · rename_i full
      cases ran
      exact inv.wait_not_full here full
    · rename_i room
      obtain ⟨pushed, done, rfl⟩ := Option.map_eq_some_iff.mp ran
      exact inv.push here (Bool.eq_false_of_not_eq_true room) done
  | sendUnlock msg =>
    rw [here] at ran
    cases ran
    refine inv.co_mutex_unlock (here ▸ rfl) (here ▸ rfl) (here ▸ rfl)
      (byTask_return rfl (here ▸ rfl) state.sent) fun other => congrArg _ ?_
    exact read_update Pc.popped (here ▸ rfl) other
  | recvLock =>
    rw [here] at ran
    exact inv.co_mutex_lock (here ▸ rfl) rfl (here ▸ rfl) (here ▸ rfl) (here ▸ rfl) (here ▸ rfl) ran
  | recvLocked =>
    rw [here] at ran
    cases ran
    unfold State.chan_buffer_recv
    cases shape : state.msgs with
    | nil => exact inv.wait_not_empty here shape
    | cons msg rest => exact inv.pop here shape
  | recvUnlock msg =>
    rw [here] at ran
    cases ran
    refine inv.co_mutex_unlock (here ▸ rfl) (here ▸ rfl) (here ▸ rfl)
      (fun other => congrArg _ ?_) (byTask_return rfl (here ▸ rfl) state.received)
    exact read_update Pc.pushed (here ▸ rfl) other

theorem Inv.step {action : Action Task Message} (inv : Inv capacity state)
    (stepped : step state action = some after) : Inv capacity after := by
  cases action with
  | run task => exact inv.run stepped
  | call task operation =>
    unfold BufferedChan.step at stepped
    cases here : state.pc task with
    | idle =>
      simp only [here] at stepped
      cases operation <;> cases stepped <;> exact inv.call here rfl rfl rfl rfl
    | _ =>
      simp only [here] at stepped
      cases stepped

end Steps

theorem inv_of_reachable {nelems : Nat} (buffered : 0 < nelems % 2 ^ 32)
    {state : State Task Message} (reached : Reachable step (chan_open nelems) state) :
    Inv (nelems % 2 ^ 32) state :=
  Reachable.invariant (Inv _) (inv_chan_open buffered) (fun _ _ _ inv stepped => inv.step stepped)
    reached

/-! ### The results -/

/-- Under every interleaving of any number of senders and receivers a channel with a buffer is a
bounded queue: it holds at most as many messages as it has places, what was pushed is what was
popped and then what is in the queue, and every task has pushed exactly the messages of its
sends that have returned, in their order, and the one of a send that is about to return, and the
same for what it has popped. -/
theorem bounded_fifo {nelems : Nat} (buffered : 0 < nelems % 2 ^ 32) {state : State Task Message}
    (reached : Reachable step (chan_open nelems) state) :
    state.msgs.length ≤ nelems % 2 ^ 32 ∧
      state.pushed.map Prod.snd = state.popped.map Prod.snd ++ state.msgs ∧
      ∀ task,
        byTask task state.pushed = byTask task state.sent ++ (state.pc task).pushed ∧
          byTask task state.popped = byTask task state.received ++ (state.pc task).popped := by
  have inv := inv_of_reachable buffered reached
  exact ⟨inv.fifo.bounded.trans_eq inv.nelems, inv.fifo.history,
    fun task => ⟨inv.fifo.sends task, inv.fifo.receives task⟩⟩

section Stuck

variable {capacity : Nat} {state : State Task Message} {task : Task}

/-- A task inside of the critical section goes on. The queue has not reached the last value of an
`int` when it is not full. -/
theorem Inv.runs_of_holds (inv : Inv capacity state) (representable : capacity < 2 ^ 31)
    (held : (state.pc task).holds = true) : state.run task ≠ none := by
  unfold State.run
  cases here : state.pc task with
  | sendLocked msg =>
    show state.chan_buffer_send task msg ≠ none
    unfold State.chan_buffer_send
    split
    · exact Option.some_ne_none _
    · rename_i room
      have notFull : state.msgs.length ≠ state.nelems := by
        intro full
        rw [State.chan_msgs_full, full, beq_self_eq_true, Bool.true_or] at room
        exact room rfl
      have bounded := inv.fifo.bounded
      have nelems := inv.nelems
      rw [State.chan_push_msg, if_pos (by omega)]
      exact Option.some_ne_none _
  | recvLocked | sendUnlock msg | recvUnlock msg => exact Option.some_ne_none _
  | idle | sendLock msg | sendWait msg | recvLock | recvWait =>
    rw [here] at held
    cases held

/-- If nobody can go on, nobody is on the way: whoever is inside of the channel waits. -/
theorem Inv.nobody_of_stuck (inv : Inv capacity state) (representable : capacity < 2 ^ 31)
    (stuck : ∀ task, state.run task = none) (task : Task) :
    (state.pc task).fetches = false ∧ (state.pc task).brings = false := by
  have nobody : ∀ task, (state.pc task).holds ≠ true :=
    fun task held => inv.runs_of_holds representable held (stuck task)
  have locks : ∀ pc, state.co_mutex_lock task pc ≠ none :=
    fun pc none => inv.well.lock_ne_none nobody task pc (Option.map_eq_none_iff.mp none)
  have none := stuck task
  have outside := nobody task
  unfold State.run at none
  cases here : state.pc task with
  | sendLock msg | recvLock =>
    rw [here] at none
    exact absurd none (locks _)
  | sendLocked msg | recvLocked =>
    rw [here] at outside
    exact absurd rfl outside
  | idle | sendWait msg | sendUnlock msg | recvWait | recvUnlock msg => exact ⟨rfl, rfl⟩

/-- A task that waits is on the list. -/
theorem Inv.wait_list_ne_nil (inv : Inv capacity state) {cond : Cond}
    (waits : (state.pc task).waitsFor = some cond) : state.wait_list cond ≠ [] :=
  List.ne_nil_of_mem ((inv.well.listed cond task).mpr waits)

end Stuck

/-- Nobody waits in vain. For every message in the queue that a receiver waits for another receiver
is on its way, and so it is for the places and the senders. When no task can go on, a waiting
receiver would find the queue empty and a waiting sender would find it full, so not both wait. -/
theorem strands_nobody {nelems : Nat} (buffered : 0 < nelems) (representable : nelems < 2 ^ 31)
    {state : State Task Message} (reached : Reachable step (chan_open nelems) state) :
    (∀ task, state.pc task = .recvWait →
      (state.msgs.length : ℕ∞) ≤ census Pc.fetches state.pc) ∧
    (∀ task msg, state.pc task = .sendWait msg →
      (nelems : ℕ∞) ≤ state.msgs.length + census Pc.brings state.pc) ∧
    ((∀ task, state.run task = none) →
      (∀ task, state.pc task = .recvWait → state.msgs = []) ∧
        ∀ task msg, state.pc task = .sendWait msg → state.msgs.length = nelems) := by
  have same : nelems % 2 ^ 32 = nelems := Nat.mod_eq_of_lt (by omega)
  have inv := inv_of_reachable (same.symm ▸ buffered) reached
  have messages : ∀ task, state.pc task = .recvWait →
      (state.msgs.length : ℕ∞) ≤ census Pc.fetches state.pc :=
    fun task here => inv.wakes.messages (inv.wait_list_ne_nil (congrArg Pc.waitsFor here))
  have places : ∀ task msg, state.pc task = .sendWait msg →
      (nelems : ℕ∞) ≤ state.msgs.length + census Pc.brings state.pc := by
    intro task msg here
    have waits := inv.wakes.places (inv.wait_list_ne_nil (congrArg Pc.waitsFor here))
    rwa [inv.nelems, same] at waits
  refine ⟨messages, places, fun stuck => ⟨fun task here => ?_, fun task msg here => ?_⟩⟩
  · have few := messages task here
    rw [census_eq_zero fun task => (inv.nobody_of_stuck (by omega) stuck task).1] at few
    exact List.length_eq_zero_iff.mp (Nat.cast_eq_zero.mp (le_zero_iff.mp few))
  · have few := places task msg here
    rw [census_eq_zero fun task => (inv.nobody_of_stuck (by omega) stuck task).2, add_zero] at few
    exact Nat.le_antisymm (inv.fifo.bounded.trans_eq (inv.nelems.trans same)) (Nat.cast_le.mp few)

/-- Two receivers wait. A sender pushes and resumes the first of them, a third receiver is faster,
and the first one waits again, behind the second. -/
def overtaken : List (Action Nat Nat) :=
  [.call 0 .recv, .run 0, .run 0, .call 1 .recv, .run 1, .run 1, .call 2 (.send 7), .run 2, .run 2,
    .call 3 .recv, .run 2, .run 3, .run 3, .run 3, .run 0, .run 0]

theorem bounded_fifo_overtaken : ∃ state : State Nat Nat,
    run step (chan_open 1) overtaken = some state ∧ state.wait_list .not_empty = [1, 0] ∧
      byTask 3 state.popped = [7] ∧ byTask 3 state.popped = byTask 3 state.received ++ [] := by
  obtain ⟨state, ran, waiting, popped⟩ : ∃ state : State Nat Nat,
      run step (chan_open 1) overtaken = some state ∧ state.wait_list .not_empty = [1, 0] ∧
        byTask 3 state.popped = [7] ∧ state.pc 3 = .idle :=
    ⟨Option.get _ (by decide +kernel), (Option.some_get _).symm, by decide +kernel,
      by decide +kernel, by decide +kernel⟩
  refine ⟨state, ran, waiting, popped.1, ?_⟩
  have here := ((bounded_fifo (by decide) (reachable_of_run ran)).2.2 3).2
  rwa [popped.2] at here

/-- With one place a second sender waits, and nobody can go on. -/
theorem strands_nobody_full : ∃ state : State Bool Nat,
    run step (chan_open 1) [.call true (.send 7), .run true, .run true, .run true,
      .call false (.send 8), .run false, .run false] = some state ∧
      state.pc false = .sendWait 8 ∧ state.msgs.length = 1 := by
  obtain ⟨state, ran, waits, stuck⟩ : ∃ state : State Bool Nat,
      run step (chan_open 1) [.call true (.send 7), .run true, .run true, .run true,
        .call false (.send 8), .run false, .run false] = some state ∧
        state.pc false = .sendWait 8 ∧ ∀ task, (state.run task).isNone :=
    ⟨Option.get _ (by decide +kernel), (Option.some_get _).symm, by decide +kernel,
      by decide +kernel⟩
  exact ⟨state, ran, waits, ((strands_nobody (by decide) (by decide) (reachable_of_run ran)).2.2
    fun task => Option.isNone_iff_eq_none.mp (stuck task)).2 false 8 waits⟩

end BufferedChan

end Nattan
