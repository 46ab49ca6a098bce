/-
This file models the unbuffered channel, `chan_nobuffer_send` and `chan_nobuffer_recv`, under
any number of tasks, and proves that a send is a rendezvous.

A sender waits on `not_full` twice over: until the queue is empty and it may push its
message, and then until the message has been popped. Both kinds of waiters are on one
list, and a receiver wakes the first two of it, whoever they are. A sender that has pushed
does not look at the queue again when it is woken; it returns. That is right because
`not_full` is signalled only behind a pop, when the queue is empty, so the message of any
sender that is woken has been popped, by this receiver or by an earlier one.

The critical sections are single steps, from the return of `co_mutex_lock` to the unlock or
to the wait, which unlocks. A task leaves a wait only by a signal. The messages carry
numbers, and what was pushed, popped and returned is recorded; the program does neither,
and nothing it does depends on it.
-/

import Mathlib.Data.List.Nodup
import Mathlib.Data.List.Range
import Mathlib.Logic.Function.Basic
import Nattan.Transition

namespace Nattan

namespace Rendezvous

universe u v

/-- A message in the queue: the how manieth push it came by, and who pushed it. -/
structure Packet (Task : Type u) (Message : Type v) where
  number : Nat
  sender : Task
  message : Message
  deriving DecidableEq, Repr

/-- The conditions of a `chan_t`. -/
inductive Cond where
  | not_full
  | not_empty
  deriving DecidableEq, Repr

inductive Operation (Message : Type v) where
  | send (msg : Message)
  | recv
  deriving DecidableEq, Repr

/-- Where a task stands. A sender that has set `sent` knows what it has pushed. -/
inductive Pc (Task : Type u) (Message : Type v) where
  | idle
  | sendLock (msg : Message) (sent : Option (Packet Task Message))
  | sendLocked (msg : Message) (sent : Option (Packet Task Message))
  | sendWait (msg : Message) (sent : Option (Packet Task Message))
  | sendUnlock (msg : Message) (sent : Packet Task Message)
  | recvLock
  | recvLocked
  | recvWait
  | recvUnlock (popped : Packet Task Message)
  deriving DecidableEq, Repr

namespace Pc

variable {Task : Type u} {Message : Type v}

/-- The condition a task waits for. -/
def waitsFor : Pc Task Message → Option Cond
  | sendWait _ _ => some .not_full
  | recvWait => some .not_empty
  | _ => none

/-- A task that was signalled locks the mutex again. -/
def resumed : Pc Task Message → Pc Task Message
  | sendWait msg sent => sendLock msg sent
  | recvWait => recvLock
  | pc => pc

/-- What a task is to send and has pushed. -/
def handed : Pc Task Message → Option (Message × Packet Task Message)
  | sendLock msg (some sent) | sendLocked msg (some sent) | sendWait msg (some sent) =>
    some (msg, sent)
  | sendUnlock msg sent => some (msg, sent)
  | _ => none

@[simp]
theorem handed_resumed (pc : Pc Task Message) : pc.resumed.handed = pc.handed := by
  cases pc with
  | sendWait msg sent => cases sent <;> rfl
  | _ => rfl

end Pc

/-- A `chan_t` and the tasks. -/
structure State (Task : Type u) (Message : Type v) where
  owner : Option Task
  msgs : List (Packet Task Message)
  wait_list : Cond → List Task
  pc : Task → Pc Task Message
  pushed : List (Packet Task Message)
  popped : List (Task × Packet Task Message)
  returned : List (Task × Message × Packet Task Message)

variable {Task : Type u} {Message : Type v} [DecidableEq Task]

/-- `chan_open`, before any task has come. -/
def chan_open : State Task Message where
  owner := none
  msgs := []
  wait_list := fun _ => []
  pc := fun _ => .idle
  pushed := []
  popped := []
  returned := []

namespace State

def goto (state : State Task Message) (task : Task) (pc : Pc Task Message) :
    State Task Message :=
  { state with pc := Function.update state.pc task pc }

def chan_msgs_empty (state : State Task Message) : Bool :=
  state.msgs.isEmpty

/-- The message of a push, with its number. -/
def packet (state : State Task Message) (task : Task) (msg : Message) : Packet Task Message :=
  ⟨state.pushed.length, task, msg⟩

def chan_push_msg (state : State Task Message) (task : Task) (msg : Message) :
    State Task Message :=
  { state with
    msgs := state.msgs ++ [state.packet task msg]
    pushed := state.pushed ++ [state.packet task msg] }

/-- `co_cond_signal`: the first task on the list is resumed. -/
def co_cond_signal (state : State Task Message) (cond : Cond) : State Task Message :=
  match state.wait_list cond with
  | [] => state
  | first :: rest =>
    { state with
      wait_list := Function.update state.wait_list cond rest
      pc := Function.update state.pc first (state.pc first).resumed }

/-- `co_cond_wait`, up to its yield: the task is put on the list, and unlocks the mutex. -/
def co_cond_wait (state : State Task Message) (cond : Cond) (task : Task)
    (pc : Pc Task Message) : State Task Message :=
  { state.goto task pc with
    wait_list := Function.update state.wait_list cond (state.wait_list cond ++ [task])
    owner := none }

def co_mutex_lock (state : State Task Message) (task : Task) (pc : Pc Task Message) :
    Option (State Task Message) :=
  if state.owner = none then some { state.goto task pc with owner := some task } else none

/-- The loops of `chan_nobuffer_send`, from where the mutex is locked. Behind a push the queue is
not empty, and the sender waits. One that was woken and has sent leaves both loops; another one
finds the queue empty or not, as at the beginning. -/
def chan_nobuffer_send (state : State Task Message) (task : Task) (msg : Message) :
    Option (Packet Task Message) → State Task Message
  | some sent => state.goto task (.sendUnlock msg sent)
  | none =>
    if state.chan_msgs_empty then
      ((state.chan_push_msg task msg).co_cond_signal .not_empty).co_cond_wait .not_full task
        (.sendWait msg (some (state.packet task msg)))
    else state.co_cond_wait .not_full task (.sendWait msg none)

/-- The loop of `chan_nobuffer_recv`, from where the mutex is locked, and what follows it. -/
def chan_nobuffer_recv (state : State Task Message) (task : Task) : State Task Message :=
  match state.msgs with
  | [] => state.co_cond_wait .not_empty task .recvWait
  | msg :: rest =>
    let state := { state with msgs := rest, popped := state.popped ++ [(task, msg)] }
    ((state.co_cond_signal .not_full).co_cond_signal .not_full).goto task (.recvUnlock msg)

/-- The next step of a task, if it is not blocked. -/
def run (state : State Task Message) (task : Task) : Option (State Task Message) :=
  match state.pc task with
  | .idle | .sendWait _ _ | .recvWait => none
  | .sendLock msg sent => state.co_mutex_lock task (.sendLocked msg sent)
  | .sendLocked msg sent => some (state.chan_nobuffer_send task msg sent)
  | .sendUnlock msg sent =>
    some { state.goto task .idle with
      owner := none
      returned := state.returned ++ [(task, msg, sent)] }
  | .recvLock => state.co_mutex_lock task .recvLocked
  | .recvLocked => some (state.chan_nobuffer_recv task)
  | .recvUnlock _ => some { state.goto task .idle with owner := none }

end State

inductive Action (Task : Type u) (Message : Type v) where
  | call (task : Task) (operation : Operation Message)
  | run (task : Task)
  deriving DecidableEq, Repr

/-- A task that is idle may call an operation, and one that is inside of one may go on. -/
def step (state : State Task Message) : Action Task Message → Option (State Task Message)
  | .call task operation =>
    match state.pc task with
    | .idle =>
      match operation with
      | .send msg => some (state.goto task (.sendLock msg none))
      | .recv => some (state.goto task .recvLock)
    | _ => none
  | .run task => state.run task

/-! ### The invariant -/

/-- What was pushed is what was popped and the one message that may be in the queue. The tasks on a
list wait for its condition. A sender that has pushed knows its message, and unless it still waits
the message has been popped, as it has when the send has returned. -/
structure Inv (state : State Task Message) : Prop where
  few : state.msgs.length ≤ 1
  history : state.pushed = state.popped.map Prod.snd ++ state.msgs
  numbered : state.pushed.map Packet.number = List.range state.pushed.length
  waiting : ∀ cond, ∀ task ∈ state.wait_list cond, (state.pc task).waitsFor = some cond
  nodup : ∀ cond, (state.wait_list cond).Nodup
  own : ∀ task msg sent, (state.pc task).handed = some (msg, sent) →
    sent.sender = task ∧ sent.message = msg ∧ sent ∈ state.pushed
  taken : ∀ task msg sent, (state.pc task).handed = some (msg, sent) →
    (state.pc task).waitsFor = none → sent ∈ state.popped.map Prod.snd
  done : ∀ entry ∈ state.returned, entry.2.2.sender = entry.1 ∧ entry.2.2.message = entry.2.1 ∧
    entry.2.2 ∈ state.popped.map Prod.snd

section Steps

variable {state after : State Task Message} {task other : Task} {cond : Cond}

omit [DecidableEq Task] in
theorem inv_chan_open : Inv (chan_open : State Task Message) where
  few := Nat.zero_le 1
  history := rfl
  numbered := rfl
  waiting := fun _ _ member => absurd member List.not_mem_nil
  nodup := fun _ => List.nodup_nil
  own := fun _ _ _ impossible => nomatch impossible
  taken := fun _ _ _ impossible => nomatch impossible
  done := fun _ member => absurd member List.not_mem_nil

omit [DecidableEq Task] in
/-- A task that does not wait is on no list. -/
theorem Inv.notMem_wait_list (inv : Inv state) (awake : (state.pc task).waitsFor = none) :
    task ∉ state.wait_list cond := by
  intro member
  have waits := inv.waiting cond task member
  rw [awake] at waits
  cases waits

/-- A task that does not wait moves on. What it has pushed has been popped. -/
theorem Inv.goto (inv : Inv state) (awake : (state.pc task).waitsFor = none) {pc : Pc Task Message}
    (handed : ∀ msg sent,
      pc.handed = some (msg, sent) → (state.pc task).handed = some (msg, sent)) :
    Inv (state.goto task pc) := by
  refine ⟨inv.few, inv.history, inv.numbered, ?_, inv.nodup, ?_, ?_, inv.done⟩
  · intro cond other member
    have different : other ≠ task := by
      rintro rfl
      exact inv.notMem_wait_list awake member
    show (Function.update state.pc task pc other).waitsFor = some cond
    rw [Function.update_of_ne different]
    exact inv.waiting cond other member
  · intro other msg sent
    show (Function.update state.pc task pc other).handed = some (msg, sent) → _
    by_cases own : other = task
    · rw [own, Function.update_self]
      exact fun has => inv.own task msg sent (handed msg sent has)
    · rw [Function.update_of_ne own]
      exact inv.own other msg sent
  · intro other msg sent
    show (Function.update state.pc task pc other).handed = some (msg, sent) →
      (Function.update state.pc task pc other).waitsFor = none → _
    by_cases own : other = task
    · rw [own, Function.update_self]
      exact fun has _ => inv.taken task msg sent (handed msg sent has) awake
    · rw [Function.update_of_ne own]
      exact inv.taken other msg sent

/-- A task that does not wait begins to. What it has pushed is known. -/
theorem Inv.co_cond_wait (inv : Inv state) (awake : (state.pc task).waitsFor = none)
    {pc : Pc Task Message} (waits : pc.waitsFor = some cond)
    (handed : ∀ msg sent, pc.handed = some (msg, sent) →
      sent.sender = task ∧ sent.message = msg ∧ sent ∈ state.pushed) :
    Inv (state.co_cond_wait cond task pc) := by
  refine ⟨inv.few, inv.history, inv.numbered, ?_, ?_, ?_, ?_, inv.done⟩
  · intro cond' other
    show other ∈ Function.update state.wait_list cond (state.wait_list cond ++ [task]) cond' →
      (Function.update state.pc task pc other).waitsFor = some cond'
    intro member
    have before : other = task ∧ cond' = cond ∨ other ∈ state.wait_list cond' := by
      by_cases same : cond' = cond
      · rw [same, Function.update_self, List.mem_append, List.mem_singleton] at member
        exact member.symm.imp (fun own => ⟨own, same⟩) fun inside => same ▸ inside
      · rw [Function.update_of_ne same] at member
        exact Or.inr member
    rcases before with ⟨rfl, rfl⟩ | inside
    · rw [Function.update_self]
      exact waits
    · have different : other ≠ task := by
        rintro rfl
        exact inv.notMem_wait_list awake inside
      rw [Function.update_of_ne different]
      exact inv.waiting cond' other inside
  · intro cond'
    show (Function.update state.wait_list cond (state.wait_list cond ++ [task]) cond').Nodup
    by_cases same : cond' = cond
    · rw [same, Function.update_self, List.nodup_append]
      refine ⟨inv.nodup cond, List.nodup_singleton task, ?_⟩
      intro other inside last own equal
      rw [List.mem_singleton] at own
      rw [equal, own] at inside
      exact inv.notMem_wait_list awake inside
    · rw [Function.update_of_ne same]
      exact inv.nodup cond'
  · intro other msg sent
    show (Function.update state.pc task pc other).handed = some (msg, sent) → _
    by_cases own : other = task
    · rw [own, Function.update_self]
      exact handed msg sent
    · rw [Function.update_of_ne own]
      exact inv.own other msg sent
  · intro other msg sent
    show (Function.update state.pc task pc other).handed = some (msg, sent) →
      (Function.update state.pc task pc other).waitsFor = none → _
    by_cases own : other = task
    · rw [own, Function.update_self, waits]
      exact fun _ impossible => nomatch impossible
    · rw [Function.update_of_ne own]
      exact inv.taken other msg sent

/-- What a signal changes: nothing, or one task that waits for the condition is resumed. -/
theorem co_cond_signal_cases (inv : Inv state) (cond : Cond) :
    state.co_cond_signal cond = state ∨
      ∃ first rest, state.wait_list cond = first :: rest ∧
        (state.pc first).waitsFor = some cond ∧ first ∉ rest ∧
        state.co_cond_signal cond =
          { state with
            wait_list := Function.update state.wait_list cond rest
            pc := Function.update state.pc first (state.pc first).resumed } := by
  unfold State.co_cond_signal
  cases shape : state.wait_list cond with
  | nil => exact Or.inl rfl
  | cons first rest =>
    have member : first ∈ state.wait_list cond := by
      rw [shape]
      exact List.mem_cons_self
    exact Or.inr ⟨first, rest, rfl, inv.waiting cond first member,
      (List.nodup_cons.mp (shape ▸ inv.nodup cond)).1, rfl⟩

/-- A signal puts no task to sleep. -/
theorem awake_co_cond_signal (inv : Inv state) (cond : Cond)
    (awake : (state.pc task).waitsFor = none) :
    ((state.co_cond_signal cond).pc task).waitsFor = none := by
  rcases co_cond_signal_cases inv cond with same | ⟨first, rest, -, waits, -, after⟩
  · rw [same]
    exact awake
  · have different : task ≠ first := by
      rintro rfl
      rw [awake] at waits
      cases waits
    rw [after]
    show (Function.update state.pc first (state.pc first).resumed task).waitsFor = none
    rw [Function.update_of_ne different]
    exact awake

theorem msgs_co_cond_signal (inv : Inv state) : (state.co_cond_signal cond).msgs = state.msgs := by
  rcases co_cond_signal_cases inv cond with same | ⟨_, _, -, -, -, after⟩
  · rw [same]
  · rw [after]

theorem pushed_co_cond_signal (inv : Inv state) :
    (state.co_cond_signal cond).pushed = state.pushed := by
  rcases co_cond_signal_cases inv cond with same | ⟨_, _, -, -, -, after⟩
  · rw [same]
  · rw [after]

/-- A signal to the senders is harmless while the queue is empty: whoever is woken has not pushed
yet, or what it has pushed has been popped. -/
theorem Inv.co_cond_signal (inv : Inv state) (cond : Cond)
    (empty : cond = .not_full → state.msgs = []) : Inv (state.co_cond_signal cond) := by
  rcases co_cond_signal_cases inv cond with same | ⟨first, rest, shape, waits, notRest, after⟩
  · rw [same]
    exact inv
  · rw [after]
    refine ⟨inv.few, inv.history, inv.numbered, ?_, ?_, ?_, ?_, inv.done⟩
    · intro cond' other
      show other ∈ Function.update state.wait_list cond rest cond' →
        (Function.update state.pc first (state.pc first).resumed other).waitsFor = some cond'
      intro member
      have inside : other ∈ state.wait_list cond' ∧ other ≠ first := by
        by_cases same : cond' = cond
        · rw [same, Function.update_self] at member
          rw [same, shape]
          exact ⟨List.mem_cons_of_mem first member, fun own => notRest (own ▸ member)⟩
        · rw [Function.update_of_ne same] at member
          refine ⟨member, ?_⟩
          rintro rfl
          have both := inv.waiting cond' other member
          rw [waits] at both
          exact same (Option.some.inj both).symm
      rw [Function.update_of_ne inside.2]
      exact inv.waiting cond' other inside.1
    · intro cond'
      show (Function.update state.wait_list cond rest cond').Nodup
      by_cases same : cond' = cond
      · rw [same, Function.update_self]
        exact (List.nodup_cons.mp (shape ▸ inv.nodup cond)).2
      · rw [Function.update_of_ne same]
        exact inv.nodup cond'
    · intro other msg sent
      show (Function.update state.pc first (state.pc first).resumed other).handed =
        some (msg, sent) → _
      by_cases own : other = first
      · rw [own, Function.update_self, Pc.handed_resumed]
        exact inv.own first msg sent
      · rw [Function.update_of_ne own]
        exact inv.own other msg sent
    · intro other msg sent
      show (Function.update state.pc first (state.pc first).resumed other).handed =
        some (msg, sent) →
          (Function.update state.pc first (state.pc first).resumed other).waitsFor = none → _
      by_cases own : other = first
      · rw [own, Function.update_self, Pc.handed_resumed]
        intro has _
        obtain ⟨-, -, pushed⟩ := inv.own first msg sent has
        cases cond with
        | not_full =>
          rw [inv.history, empty rfl, List.append_nil] at pushed
          exact pushed
        | not_empty =>
          generalize state.pc first = pc at waits has
          cases pc <;> cases waits
          cases has
      · rw [Function.update_of_ne own]
        exact inv.taken other msg sent

omit [DecidableEq Task] in
theorem Inv.chan_push_msg (inv : Inv state) (empty : state.msgs = []) (task : Task)
    (msg : Message) : Inv (state.chan_push_msg task msg) := by
  refine ⟨?_, ?_, ?_, inv.waiting, inv.nodup, ?_, inv.taken, inv.done⟩
  · show (state.msgs ++ [state.packet task msg]).length ≤ 1
    rw [empty]
    exact Nat.le_refl 1
  · show state.pushed ++ [state.packet task msg] = _ ++ (state.msgs ++ [state.packet task msg])
    rw [inv.history, List.append_assoc]
    rfl
  · show (state.pushed ++ [state.packet task msg]).map Packet.number =
      List.range (state.pushed ++ [state.packet task msg]).length
    rw [List.map_append, inv.numbered, List.length_append, List.length_singleton, List.range_succ]
    rfl
  · intro other msg' sent has
    obtain ⟨sender, message, pushed⟩ := inv.own other msg' sent has
    exact ⟨sender, message, List.mem_append_left _ pushed⟩

/-- The critical section of a sender. -/
theorem Inv.chan_nobuffer_send (inv : Inv state) {msg : Message}
    {sent : Option (Packet Task Message)} (here : state.pc task = .sendLocked msg sent) :
    Inv (state.chan_nobuffer_send task msg sent) := by
  have awake : (state.pc task).waitsFor = none := by
    rw [here]
    rfl
  cases sent with
  | some packet =>
    refine inv.goto awake fun msg' sent' has => ?_
    rw [here]
    exact has
  | none =>
    unfold State.chan_nobuffer_send
    simp only
    split
    · rename_i empty
      have pushed := inv.chan_push_msg (List.isEmpty_iff.mp empty) task msg
      have signalled := pushed.co_cond_signal .not_empty fun impossible => nomatch impossible
      refine signalled.co_cond_wait (awake_co_cond_signal pushed .not_empty awake) rfl ?_
      intro msg' sent' has
      cases has
      refine ⟨rfl, rfl, ?_⟩
      rw [pushed_co_cond_signal pushed]
      exact List.mem_append_right _ List.mem_cons_self
    · exact inv.co_cond_wait awake rfl fun _ _ impossible => nomatch impossible

/-- The critical section of a receiver. The queue had one message, so it is empty when the senders
are signalled. -/
theorem Inv.chan_nobuffer_recv (inv : Inv state) (here : state.pc task = .recvLocked) :
    Inv (state.chan_nobuffer_recv task) := by
  have awake : (state.pc task).waitsFor = none := by
    rw [here]
    rfl
  unfold State.chan_nobuffer_recv
  cases shape : state.msgs with
  | nil => exact inv.co_cond_wait awake rfl fun _ _ impossible => nomatch impossible
  | cons msg rest =>
    have last : rest = [] := by
      have few := inv.few
      rw [shape, List.length_cons] at few
      exact List.length_eq_zero_iff.mp (by omega)
    subst last
    have popped : Inv { state with msgs := [], popped := state.popped ++ [(task, msg)] } := by
      have more : ∀ sent, sent ∈ state.popped.map Prod.snd →
          sent ∈ (state.popped ++ [(task, msg)]).map Prod.snd := by
        intro sent inside
        rw [List.map_append]
        exact List.mem_append_left _ inside
      refine ⟨Nat.zero_le 1, ?_, inv.numbered, inv.waiting, inv.nodup, inv.own, ?_, ?_⟩
      · rw [inv.history, shape, List.map_append, List.append_nil]
        rfl
      · exact fun other msg' sent has up => more sent (inv.taken other msg' sent has up)
      · intro entry member
        obtain ⟨sender, message, inside⟩ := inv.done entry member
        exact ⟨sender, message, more entry.2.2 inside⟩
    have first := popped.co_cond_signal .not_full fun _ => rfl
    have second := first.co_cond_signal .not_full fun _ => msgs_co_cond_signal popped
    have awake' := awake_co_cond_signal first .not_full
      (awake_co_cond_signal popped .not_full awake)
    exact second.goto awake' fun _ _ impossible => nomatch impossible

theorem Inv.co_mutex_lock (inv : Inv state) (awake : (state.pc task).waitsFor = none)
    {pc : Pc Task Message} (same : pc.handed = (state.pc task).handed)
    (locked : state.co_mutex_lock task pc = some after) : Inv after := by
  obtain ⟨-, rfl⟩ := stepped_of_guard locked
  have moved : Inv (state.goto task pc) :=
    inv.goto awake fun msg sent has => same ▸ has
  exact ⟨moved.few, moved.history, moved.numbered, moved.waiting, moved.nodup, moved.own,
    moved.taken, moved.done⟩

theorem Inv.run (inv : Inv state) (ran : state.run task = some after) : Inv after := by
  unfold State.run at ran
  have awake : (state.pc task).waitsFor = none := by
    generalize state.pc task = pc at ran
    cases pc <;> first | rfl | cases ran
  cases here : state.pc task with
  | idle => rw [here] at ran; cases ran
  | sendWait msg sent => rw [here] at ran; cases ran
  | recvWait => rw [here] at ran; cases ran
  | sendLock msg sent =>
    rw [here] at ran
    refine inv.co_mutex_lock awake ?_ ran
    rw [here]
    cases sent <;> rfl
  | sendLocked msg sent =>
    rw [here] at ran
    cases ran
    exact inv.chan_nobuffer_send here
  | sendUnlock msg sent =>
    rw [here] at ran
    cases ran
    have has : (state.pc task).handed = some (msg, sent) := by
      rw [here]
      rfl
    obtain ⟨sender, message, -⟩ := inv.own task msg sent has
    have moved : Inv (state.goto task .idle) :=
      inv.goto awake fun _ _ impossible => nomatch impossible
    refine ⟨moved.few, moved.history, moved.numbered, moved.waiting, moved.nodup, moved.own,
      moved.taken, ?_⟩
    intro entry member
    rcases List.mem_append.mp member with earlier | now
    · exact inv.done entry earlier
    · rw [List.mem_singleton] at now
      subst now
      exact ⟨sender, message, inv.taken task msg sent has awake⟩
  | recvLock =>
    rw [here] at ran
    refine inv.co_mutex_lock awake ?_ ran
    rw [here]
    rfl
  | recvLocked =>
    rw [here] at ran
    cases ran
    exact inv.chan_nobuffer_recv here
  | recvUnlock msg =>
    rw [here] at ran
    cases ran
    have moved : Inv (state.goto task .idle) :=
      inv.goto awake fun _ _ impossible => nomatch impossible
    exact ⟨moved.few, moved.history, moved.numbered, moved.waiting, moved.nodup, moved.own,
      moved.taken, moved.done⟩

theorem Inv.step (inv : Inv state) {action : Action Task Message}
    (stepped : Rendezvous.step state action = some after) : Inv after := by
  cases action with
  | run task => exact inv.run stepped
  | call task operation =>
    unfold Rendezvous.step at stepped
    cases here : state.pc task with
    | idle =>
      simp only [here] at stepped
      have awake : (state.pc task).waitsFor = none := by
        rw [here]
        rfl
      cases operation with
      | send msg =>
        cases stepped
        exact inv.goto awake fun _ _ impossible => nomatch impossible
      | recv =>
        cases stepped
        exact inv.goto awake fun _ _ impossible => nomatch impossible
    | _ =>
      simp only [here] at stepped
      cases stepped

end Steps

/-! ### The rendezvous -/

theorem inv_of_reachable {state : State Task Message} (reached : Reachable step chan_open state) :
    Inv state :=
  reached.invariant Inv inv_chan_open fun _ _ _ inv stepped => inv.step stepped

end Rendezvous

end Nattan
