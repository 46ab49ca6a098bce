/-
This file is the library of ring queues guarded by one mutex and two condition
variables, for any set of threads and any program counter type.

A program of the library is described by what its program counters mean
(`Roles`): which of them hold the mutex, which wait un-notified for an element
or for a slot, and where a broadcast moves a waiter. Every step of a thread is
one of five effects: a move that touches neither queue nor mutex, an acquisition,
a release (into a wait or out of the operation), an enqueue and a dequeue; or it
is a leak, which leaves the guarded section without releasing. The invariants of
such a queue are proved here once, effect by effect: mutual exclusion, the FIFO
history, no missed wake-up, and (without leaks) that the owner of the mutex is
inside a guarded section.

What a thread gets from the queue is said from outside (`Serves`): a thread asks for an
operation, at one step the operation takes effect on the contents of the queue, with a
result, and the result is returned. A program says which operation a thread asks for at
which program counter, and its steps are related to these one by one.
-/

import Nattan.Ring
import Nattan.Transition

namespace Nattan.Monitor

universe u v w x

/-- What an operation on a queue returns: `false`, `true` (or nothing) for an element it put
in, or the element it took out. -/
inductive Result (Element : Type w) where
  | refused
  | accepted (element : Element)
  | item (element : Element)
  deriving DecidableEq, Repr

/-- What the program counters of a monitor's operations mean. -/
structure Roles (Pc : Type v) where
  holds : Pc → Bool
  awaitsItem : Pc → Bool
  awaitsSpace : Pc → Bool
  signalItem : Pc → Pc
  signalSpace : Pc → Pc
  awaitsItem_signalItem : ∀ pc, awaitsItem (signalItem pc) = false
  awaitsSpace_signalItem : ∀ pc, awaitsSpace (signalItem pc) = awaitsSpace pc
  holds_signalItem : ∀ pc, holds (signalItem pc) = holds pc
  awaitsSpace_signalSpace : ∀ pc, awaitsSpace (signalSpace pc) = false
  awaitsItem_signalSpace : ∀ pc, awaitsItem (signalSpace pc) = awaitsItem pc
  holds_signalSpace : ∀ pc, holds (signalSpace pc) = holds pc

/-- A ring, the owner of the mutex that guards it, the threads' program counters, and the
elements put in and taken out so far. -/
structure State (Thread : Type u) (Pc : Type v) (Element : Type w) where
  ring : Ring Element
  owner : Option Thread
  pc : Thread → Pc
  sent : List Element
  received : List Element

variable {Thread : Type u} {Pc : Type v} {Element : Type w} [DecidableEq Thread]

namespace State

/-- The queue before any operation. -/
def initial [Inhabited Element] (capacity : Nat) (pc : Pc) : State Thread Pc Element where
  ring := Ring.empty capacity
  owner := none
  pc := fun _ => pc
  sent := []
  received := []

/-- Move one thread. -/
def goto (state : State Thread Pc Element) (thread : Thread) (pc : Pc) : State Thread Pc Element :=
  { state with pc := Function.update state.pc thread pc }

/-- Move one thread into the guarded section. -/
def acquire (state : State Thread Pc Element) (thread : Thread) (pc : Pc) :
    State Thread Pc Element :=
  { state.goto thread pc with owner := some thread }

/-- Move one thread out of the guarded section. -/
def release (state : State Thread Pc Element) (thread : Thread) (pc : Pc) :
    State Thread Pc Element :=
  { state.goto thread pc with owner := none }

/-- Put an element in and wake every thread that waits for one. -/
def enqueue (roles : Roles Pc) (state : State Thread Pc Element) (thread : Thread)
    (element : Element) (pc : Pc) : State Thread Pc Element :=
  { state with
    ring := state.ring.enqueue element
    pc := Function.update (fun other => roles.signalItem (state.pc other)) thread pc
    sent := state.sent ++ [element] }

/-- Take the oldest element out and wake every thread that waits for a slot. -/
def dequeue (roles : Roles Pc) (state : State Thread Pc Element) (thread : Thread)
    (pc : Element → Pc) : State Thread Pc Element :=
  { state with
    ring := state.ring.dequeue.2
    pc := Function.update (fun other => roles.signalSpace (state.pc other)) thread
      (pc state.ring.dequeue.1)
    received := state.received ++ [state.ring.dequeue.1] }

section Fields

variable (roles : Roles Pc) (state : State Thread Pc Element) (thread : Thread) (pc : Pc)

@[simp] theorem goto_pc_self : (state.goto thread pc).pc thread = pc := Function.update_self _ _ _

@[simp] theorem acquire_pc_self : (state.acquire thread pc).pc thread = pc :=
  Function.update_self _ _ _

@[simp] theorem release_pc_self : (state.release thread pc).pc thread = pc :=
  Function.update_self _ _ _

@[simp] theorem enqueue_pc_self (element : Element) :
    (state.enqueue roles thread element pc).pc thread = pc := by
  simp only [enqueue, Function.update_self]

@[simp] theorem dequeue_pc_self (pc : Element → Pc) :
    (state.dequeue roles thread pc).pc thread = pc state.ring.dequeue.1 := by
  simp only [dequeue, Function.update_self]

variable {thread} {other : Thread} (different : other ≠ thread)

include different

theorem goto_pc_of_ne : (state.goto thread pc).pc other = state.pc other :=
  Function.update_of_ne different _ _

theorem acquire_pc_of_ne : (state.acquire thread pc).pc other = state.pc other :=
  Function.update_of_ne different _ _

theorem release_pc_of_ne : (state.release thread pc).pc other = state.pc other :=
  Function.update_of_ne different _ _

theorem enqueue_pc_of_ne (element : Element) :
    (state.enqueue roles thread element pc).pc other = roles.signalItem (state.pc other) := by
  simp only [enqueue, Function.update_of_ne different]

theorem dequeue_pc_of_ne (pc : Element → Pc) :
    (state.dequeue roles thread pc).pc other = roles.signalSpace (state.pc other) := by
  simp only [dequeue, Function.update_of_ne different]

end Fields

end State

/-- What one step of `thread` that leaks nothing does to the queue. -/
inductive Effect (roles : Roles Pc) (before : State Thread Pc Element) (thread : Thread) :
    State Thread Pc Element → Prop
  | move (pc : Pc) (sameHold : roles.holds pc = roles.holds (before.pc thread))
      (noItem : roles.awaitsItem pc = false) (noSpace : roles.awaitsSpace pc = false) :
      Effect roles before thread (before.goto thread pc)
  | acquire (pc : Pc) (free : before.owner = none) (noItem : roles.awaitsItem pc = false)
      (noSpace : roles.awaitsSpace pc = false) (held : roles.holds pc = true) :
      Effect roles before thread (before.acquire thread pc)
  | release (pc : Pc) (held : roles.holds (before.pc thread) = true)
      (left : roles.holds pc = false)
      (itemWait : roles.awaitsItem pc = true → before.ring.isEmpty = true)
      (spaceWait : roles.awaitsSpace pc = true → before.ring.isFull = true) :
      Effect roles before thread (before.release thread pc)
  | enqueue (element : Element) (pc : Pc) (held : roles.holds (before.pc thread) = true)
      (space : before.ring.isFull = false) (stillHeld : roles.holds pc = true)
      (noItem : roles.awaitsItem pc = false) (noSpace : roles.awaitsSpace pc = false) :
      Effect roles before thread (before.enqueue roles thread element pc)
  | dequeue (pc : Element → Pc) (held : roles.holds (before.pc thread) = true)
      (nonempty : before.ring.isEmpty = false)
      (stillHeld : ∀ element, roles.holds (pc element) = true)
      (noItem : ∀ element, roles.awaitsItem (pc element) = false)
      (noSpace : ∀ element, roles.awaitsSpace (pc element) = false) :
      Effect roles before thread (before.dequeue roles thread pc)

/-- `thread` leaves the guarded section and keeps the mutex. -/
structure Leak (roles : Roles Pc) (before : State Thread Pc Element) (thread : Thread)
    (after : State Thread Pc Element) : Prop where
  leaves : ∃ pc, roles.holds pc = false ∧ roles.awaitsItem pc = false ∧
    roles.awaitsSpace pc = false ∧ after = before.goto thread pc

/-! ### The invariants -/

/-- A thread inside a guarded section owns the mutex. -/
def Exclusive (roles : Roles Pc) (state : State Thread Pc Element) : Prop :=
  ∀ thread, roles.holds (state.pc thread) = true → state.owner = some thread

/-- The owner of the mutex is inside a guarded section. -/
def OwnerInside (roles : Roles Pc) (state : State Thread Pc Element) : Prop :=
  ∀ thread, state.owner = some thread → roles.holds (state.pc thread) = true

/-- The mutex is owned by a thread outside every guarded section. -/
def OwnedOutside (roles : Roles Pc) (state : State Thread Pc Element) (thread : Thread) : Prop :=
  state.owner = some thread ∧ roles.holds (state.pc thread) = false

/-- Un-notified waiters for an element see an empty ring, those for a slot a full one. -/
structure NoMissedWakeup (roles : Roles Pc) (state : State Thread Pc Element) : Prop where
  item : ∀ thread, roles.awaitsItem (state.pc thread) = true → state.ring.count = 0
  space : ∀ thread, roles.awaitsSpace (state.pc thread) = true →
    state.ring.count = state.ring.capacity

namespace Effect

variable {roles : Roles Pc} {before after : State Thread Pc Element} {thread : Thread}

theorem exclusive (effect : Effect roles before thread after)
    (exclusive : Exclusive roles before) : Exclusive roles after := by
  intro other held
  by_cases same : other = thread
  · subst same
    cases effect with
    | move pc sameHold =>
      rw [State.goto_pc_self] at held
      exact exclusive other (sameHold ▸ held)
    | acquire => rfl
    | release pc _ left =>
      rw [State.release_pc_self, left] at held
      cases held
    | enqueue element pc wasHeld => exact exclusive other wasHeld
    | dequeue pc wasHeld => exact exclusive other wasHeld
  · cases effect with
    | move pc =>
      rw [State.goto_pc_of_ne _ _ same] at held
      exact exclusive other held
    | acquire pc free =>
      rw [State.acquire_pc_of_ne _ _ same] at held
      rw [exclusive other held] at free
      cases free
    | release pc wasHeld =>
      rw [State.release_pc_of_ne _ _ same] at held
      have owners := (exclusive other held).symm.trans (exclusive thread wasHeld)
      exact absurd (Option.some.inj owners) same
    | enqueue element pc =>
      rw [State.enqueue_pc_of_ne _ _ _ same, roles.holds_signalItem] at held
      exact exclusive other held
    | dequeue pc =>
      rw [State.dequeue_pc_of_ne _ _ same, roles.holds_signalSpace] at held
      exact exclusive other held

/-- Without a leak the owner of the mutex stays inside a guarded section. -/
theorem ownerInside (effect : Effect roles before thread after)
    (inside : OwnerInside roles before) : OwnerInside roles after := by
  intro other owns
  by_cases same : other = thread
  · subst same
    cases effect with
    | move pc sameHold =>
      rw [State.goto_pc_self, sameHold]
      exact inside other owns
    | acquire pc _ _ _ held =>
      rw [State.acquire_pc_self]
      exact held
    | release => cases owns
    | enqueue element pc _ _ stillHeld =>
      rw [State.enqueue_pc_self]
      exact stillHeld
    | dequeue pc _ _ stillHeld =>
      rw [State.dequeue_pc_self]
      exact stillHeld _
  · cases effect with
    | move pc =>
      rw [State.goto_pc_of_ne _ _ same]
      exact inside other owns
    | acquire => exact absurd (Option.some.inj owns).symm same
    | release => cases owns
    | enqueue element pc =>
      rw [State.enqueue_pc_of_ne _ _ _ same, roles.holds_signalItem]
      exact inside other owns
    | dequeue pc =>
      rw [State.dequeue_pc_of_ne _ _ same, roles.holds_signalSpace]
      exact inside other owns

/-- No effect frees a mutex that is owned outside: only a thread that holds it releases it. -/
theorem ownedOutside (effect : Effect roles before thread after)
    (exclusive : Exclusive roles before) {owner : Thread}
    (outside : OwnedOutside roles before owner) : OwnedOutside roles after owner := by
  have notHeld : roles.holds (before.pc thread) = false := by
    cases held : roles.holds (before.pc thread) with
    | false => rfl
    | true =>
      have same := Option.some.inj ((exclusive thread held).symm.trans outside.1)
      rw [← held, same]
      exact outside.2
  cases effect with
  | move pc sameHold =>
    refine ⟨outside.1, ?_⟩
    by_cases same : owner = thread
    · subst same
      rw [State.goto_pc_self, sameHold]
      exact notHeld
    · rw [State.goto_pc_of_ne _ _ same]
      exact outside.2
  | acquire pc free => exact absurd (outside.1.symm.trans free) (by simp)
  | release pc held => exact absurd (held.symm.trans notHeld) (by simp)
  | enqueue element pc held => exact absurd (held.symm.trans notHeld) (by simp)
  | dequeue pc held => exact absurd (held.symm.trans notHeld) (by simp)

theorem capacity (effect : Effect roles before thread after) :
    after.ring.capacity = before.ring.capacity := by
  cases effect <;> rfl

/-- Every effect is a step of the bounded FIFO queue on the contents. -/
theorem fifoStep (effect : Effect roles before thread after) (wf : before.ring.Wf) :
    Ring.FifoStep before.ring.capacity before.ring.contents after.ring.contents := by
  cases effect with
  | move => exact .stutter _
  | acquire => exact .stutter _
  | release => exact .stutter _
  | enqueue element pc _ space => exact wf.fifoStep_enqueue (wf.count_lt space) element
  | dequeue pc _ nonempty => exact wf.fifoStep_dequeue (Ring.count_pos nonempty)

/-- Every effect keeps the FIFO history. -/
theorem represents (effect : Effect roles before thread after)
    (represents : before.ring.Represents before.sent before.received) :
    after.ring.Represents after.sent after.received := by
  cases effect with
  | move => exact represents
  | acquire => exact represents
  | release => exact represents
  | enqueue element pc _ space =>
    exact represents.enqueue (represents.wf.count_lt space) element
  | dequeue pc _ nonempty => exact represents.dequeue (Ring.count_pos nonempty)

/-- Moving one thread to a program counter that does not wait keeps the waiters' condition. -/
theorem noMissedWakeup_goto (wakeups : NoMissedWakeup roles before) (pc : Pc)
    (item : roles.awaitsItem pc = true → before.ring.count = 0)
    (space : roles.awaitsSpace pc = true → before.ring.count = before.ring.capacity) :
    NoMissedWakeup roles (before.goto thread pc) where
  item other waits := by
    by_cases same : other = thread
    · subst same
      rw [State.goto_pc_self] at waits
      exact item waits
    · rw [State.goto_pc_of_ne _ _ same] at waits
      exact wakeups.item other waits
  space other waits := by
    by_cases same : other = thread
    · subst same
      rw [State.goto_pc_self] at waits
      exact space waits
    · rw [State.goto_pc_of_ne _ _ same] at waits
      exact wakeups.space other waits

/-- An enqueue wakes everyone who waits for an element, and no one waits for a slot when there
is one. -/
theorem noMissedWakeup_enqueue (wakeups : NoMissedWakeup roles before) (element : Element)
    (pc : Pc) (space : before.ring.isFull = false) (noItem : roles.awaitsItem pc = false)
    (noSpace : roles.awaitsSpace pc = false) :
    NoMissedWakeup roles (before.enqueue roles thread element pc) where
  item other waits := by
    by_cases same : other = thread
    · subst same
      rw [State.enqueue_pc_self, noItem] at waits
      cases waits
    · rw [State.enqueue_pc_of_ne _ _ _ same, roles.awaitsItem_signalItem] at waits
      cases waits
  space other waits := by
    by_cases same : other = thread
    · subst same
      rw [State.enqueue_pc_self, noSpace] at waits
      cases waits
    · rw [State.enqueue_pc_of_ne _ _ _ same, roles.awaitsSpace_signalItem] at waits
      have full := (Ring.isFull_iff _).mpr (wakeups.space other waits)
      rw [space] at full
      cases full

theorem noMissedWakeup_dequeue (wakeups : NoMissedWakeup roles before) (pc : Element → Pc)
    (nonempty : before.ring.isEmpty = false)
    (noItem : ∀ element, roles.awaitsItem (pc element) = false)
    (noSpace : ∀ element, roles.awaitsSpace (pc element) = false) :
    NoMissedWakeup roles (before.dequeue roles thread pc) where
  item other waits := by
    by_cases same : other = thread
    · subst same
      rw [State.dequeue_pc_self, noItem] at waits
      cases waits
    · rw [State.dequeue_pc_of_ne _ _ same, roles.awaitsItem_signalSpace] at waits
      have empty := (Ring.isEmpty_iff _).mpr (wakeups.item other waits)
      rw [nonempty] at empty
      cases empty
  space other waits := by
    by_cases same : other = thread
    · subst same
      rw [State.dequeue_pc_self, noSpace] at waits
      cases waits
    · rw [State.dequeue_pc_of_ne _ _ same, roles.awaitsSpace_signalSpace] at waits
      cases waits

/-- Every effect keeps the waiters' condition. -/
theorem noMissedWakeup (effect : Effect roles before thread after)
    (wakeups : NoMissedWakeup roles before) : NoMissedWakeup roles after := by
  cases effect with
  | move pc _ noItem noSpace =>
    exact noMissedWakeup_goto wakeups pc (by simp [noItem]) (by simp [noSpace])
  | acquire pc _ noItem noSpace =>
    have moved : NoMissedWakeup roles (before.goto thread pc) :=
      noMissedWakeup_goto wakeups pc (by simp [noItem]) (by simp [noSpace])
    exact ⟨moved.item, moved.space⟩
  | release pc _ _ itemWait spaceWait =>
    have moved : NoMissedWakeup roles (before.goto thread pc) :=
      noMissedWakeup_goto wakeups pc (fun waits => (Ring.isEmpty_iff _).mp (itemWait waits))
        fun waits => (Ring.isFull_iff _).mp (spaceWait waits)
    exact ⟨moved.item, moved.space⟩
  | enqueue element pc _ space _ noItem noSpace =>
    exact noMissedWakeup_enqueue wakeups element pc space noItem noSpace
  | dequeue pc _ nonempty _ noItem noSpace =>
    exact noMissedWakeup_dequeue wakeups pc nonempty noItem noSpace

end Effect

namespace Leak

variable {roles : Roles Pc} {before after : State Thread Pc Element} {thread : Thread}

theorem exclusive (leak : Leak roles before thread after) (exclusive : Exclusive roles before) :
    Exclusive roles after := by
  obtain ⟨pc, left, -, -, rfl⟩ := leak.leaves
  intro other held
  by_cases same : other = thread
  · subst same
    rw [State.goto_pc_self, left] at held
    cases held
  · rw [State.goto_pc_of_ne _ _ same] at held
    exact exclusive other held

/-- A leak leaves the mutex owned outside. -/
theorem leaves_ownedOutside (leak : Leak roles before thread after)
    (owned : before.owner = some thread) : OwnedOutside roles after thread := by
  obtain ⟨pc, left, -, -, rfl⟩ := leak.leaves
  refine ⟨owned, ?_⟩
  rw [State.goto_pc_self]
  exact left

theorem ownedOutside (leak : Leak roles before thread after) {owner : Thread}
    (outside : OwnedOutside roles before owner) : OwnedOutside roles after owner := by
  obtain ⟨pc, left, -, -, rfl⟩ := leak.leaves
  refine ⟨outside.1, ?_⟩
  by_cases same : owner = thread
  · subst same
    rw [State.goto_pc_self]
    exact left
  · rw [State.goto_pc_of_ne _ _ same]
    exact outside.2

theorem ring_eq (leak : Leak roles before thread after) : after.ring = before.ring := by
  obtain ⟨pc, -, -, -, rfl⟩ := leak.leaves
  rfl

theorem represents (leak : Leak roles before thread after)
    (represents : before.ring.Represents before.sent before.received) :
    after.ring.Represents after.sent after.received := by
  obtain ⟨pc, -, -, -, rfl⟩ := leak.leaves
  exact represents

theorem noMissedWakeup (leak : Leak roles before thread after)
    (wakeups : NoMissedWakeup roles before) : NoMissedWakeup roles after := by
  obtain ⟨pc, -, noItem, noSpace, rfl⟩ := leak.leaves
  exact Effect.noMissedWakeup_goto wakeups pc (by simp [noItem]) (by simp [noSpace])

end Leak

/-! ### What the threads get -/

/-- What the operations of a queue are for: the element that an operation puts in, if it does not
take one out, and when it may be refused, by the capacity, the contents, and whether the mutex is
held. -/
structure Service (Operation : Type x) (Element : Type w) where
  puts : Operation → Option Element
  refuses : Operation → Nat → List Element → Prop → Prop

/-- How a thread stands to the queue: outside, with what the last operation returned, inside of an
operation that has not taken effect yet, or inside of one that has, with this result. -/
inductive Standing (Operation : Type x) (Element : Type w) where
  | outside (last : Option (Result Element))
  | asks (operation : Operation)
  | gets (result : Result Element)

/-- One step of a bounded FIFO queue and its threads: nothing, a call, an element in at the back
while there is room, the front element out and to the thread that asked, a refusal, or the return
of a result. -/
inductive Serves {Operation : Type x} (service : Service Operation Element) (capacity : Nat)
    (held : Prop) (queue : List Element) (standing : Thread → Standing Operation Element) :
    List Element → (Thread → Standing Operation Element) → Prop
  | stutter : Serves service capacity held queue standing queue standing
  | call (thread : Thread) (operation : Operation) {last : Option (Result Element)}
      (outside : standing thread = .outside last) :
      Serves service capacity held queue standing queue
        (Function.update standing thread (.asks operation))
  | put (thread : Thread) (element : Element) {operation : Operation}
      (asks : standing thread = .asks operation) (puts : service.puts operation = some element)
      (room : queue.length < capacity) :
      Serves service capacity held queue standing (queue ++ [element])
        (Function.update standing thread (.gets (.accepted element)))
  | take (thread : Thread) (element : Element) (rest : List Element) {operation : Operation}
      (asks : standing thread = .asks operation) (takes : service.puts operation = none)
      (oldest : queue = element :: rest) :
      Serves service capacity held queue standing rest
        (Function.update standing thread (.gets (.item element)))
  | refuse (thread : Thread) (told : Standing Operation Element) {operation : Operation}
      (asks : standing thread = .asks operation)
      (refuses : service.refuses operation capacity queue held)
      (answer : told = .gets .refused ∨ told = .outside (some .refused)) :
      Serves service capacity held queue standing queue (Function.update standing thread told)
  | leave (thread : Thread) {result : Result Element} (gets : standing thread = .gets result) :
      Serves service capacity held queue standing queue
        (Function.update standing thread (.outside (some result)))

/-- What the program counters of a monitor mean to those who look at it from outside. Being
notified changes nothing there. -/
structure Stands {Operation : Type x} (roles : Roles Pc)
    (stands : Pc → Standing Operation Element) : Prop where
  signalItem : ∀ pc, stands (roles.signalItem pc) = stands pc
  signalSpace : ∀ pc, stands (roles.signalSpace pc) = stands pc

/-- How the threads stand to the queue. -/
def State.standing {Operation : Type x} (stands : Pc → Standing Operation Element)
    (state : State Thread Pc Element) (thread : Thread) : Standing Operation Element :=
  stands (state.pc thread)

/-- The step of a monitor is one of the bounded FIFO queue of its capacity and its threads. -/
def Served {Operation : Type x} (service : Service Operation Element)
    (stands : Pc → Standing Operation Element) (before after : State Thread Pc Element) : Prop :=
  Serves service before.ring.capacity (before.owner ≠ none) before.ring.contents
    (before.standing stands) after.ring.contents (after.standing stands)

section Standing

variable {Operation : Type x} {service : Service Operation Element}
  {stands : Pc → Standing Operation Element} {roles : Roles Pc}
  {before : State Thread Pc Element} {thread : Thread}

theorem standing_goto (stands : Pc → Standing Operation Element) (before : State Thread Pc Element)
    (thread : Thread) (pc : Pc) :
    (before.goto thread pc).standing stands =
      Function.update (before.standing stands) thread (stands pc) :=
  Function.comp_update stands before.pc thread pc

theorem standing_enqueue (keeps : Stands roles stands) (element : Element) (pc : Pc) :
    (before.enqueue roles thread element pc).standing stands =
      Function.update (before.standing stands) thread (stands pc) := by
  refine (Function.comp_update stands _ thread pc).trans ?_
  rw [show (stands ∘ fun other => roles.signalItem (before.pc other)) = before.standing stands from
    funext fun other => keeps.signalItem (before.pc other)]

theorem standing_dequeue (keeps : Stands roles stands) (pc : Element → Pc) :
    (before.dequeue roles thread pc).standing stands =
      Function.update (before.standing stands) thread (stands (pc before.ring.dequeue.1)) := by
  refine (Function.comp_update stands _ thread _).trans ?_
  rw [show (stands ∘ fun other => roles.signalSpace (before.pc other)) = before.standing stands from
    funext fun other => keeps.signalSpace (before.pc other)]

/-- A step that leaves the ring alone, and the thread where it stands. -/
theorem served_of_same {after : State Thread Pc Element} {pc : Pc}
    (ring : after.ring = before.ring) (moved : after.pc = (before.goto thread pc).pc)
    (same : stands pc = stands (before.pc thread)) : Served service stands before after := by
  have standing : after.standing stands = before.standing stands := by
    refine (congrArg (stands ∘ ·) moved).trans ((standing_goto stands before thread pc).trans ?_)
    rw [same]
    exact Function.update_eq_self thread (before.standing stands)
  rw [Served, ring, standing]
  exact .stutter

/-- The enqueue is the effect of the operation that puts the element in. -/
theorem served_enqueue (keeps : Stands roles stands) (wf : before.ring.Wf) {operation : Operation}
    (asks : stands (before.pc thread) = .asks operation) {element : Element}
    (puts : service.puts operation = some element) (space : before.ring.isFull = false) {pc : Pc}
    (gets : stands pc = .gets (.accepted element)) :
    Served service stands before (before.enqueue roles thread element pc) := by
  have room := wf.count_lt space
  rw [Served, standing_enqueue keeps, gets,
    show (before.enqueue roles thread element pc).ring.contents = _
      from wf.contents_enqueue room element]
  exact .put thread element asks puts (by rwa [Ring.contents_length])

/-- The dequeue is the effect of an operation that takes an element out, which is the oldest. -/
theorem served_dequeue (keeps : Stands roles stands) (wf : before.ring.Wf) {operation : Operation}
    (asks : stands (before.pc thread) = .asks operation) (takes : service.puts operation = none)
    (nonempty : before.ring.isEmpty = false) {pc : Element → Pc}
    (gets : ∀ element, stands (pc element) = .gets (.item element)) :
    Served service stands before (before.dequeue roles thread pc) := by
  rw [Served, standing_dequeue keeps, gets]
  exact .take thread _ _ asks takes (wf.contents_dequeue (Ring.count_pos nonempty))

/-- A thread that leaves the ring alone and is told that it is refused, or what it got, or calls. -/
theorem served_goto {after : State Thread Pc Element} {pc : Pc} (ring : after.ring = before.ring)
    (moved : after.pc = (before.goto thread pc).pc)
    (serves : Serves service before.ring.capacity (before.owner ≠ none) before.ring.contents
      (before.standing stands) before.ring.contents
      (Function.update (before.standing stands) thread (stands pc))) :
    Served service stands before after := by
  have standing : after.standing stands =
      Function.update (before.standing stands) thread (stands pc) :=
    (congrArg (stands ∘ ·) moved).trans (standing_goto stands before thread pc)
  rw [Served, ring, standing]
  exact serves

theorem length_contents_of_isFull {ring : Ring Element} (full : ring.isFull = true) :
    ring.contents.length = ring.capacity := by
  rw [Ring.contents_length]
  exact (Ring.isFull_iff _).mp full

theorem contents_eq_nil_of_isEmpty {ring : Ring Element} (empty : ring.isEmpty = true) :
    ring.contents = [] :=
  (Ring.contents_eq_nil_iff ring).mpr ((Ring.isEmpty_iff _).mp empty)

end Standing

/-! ### The bounded FIFO queue -/

/-- The queue is the FIFO queue of the given capacity: the representation is sound, and the
live slots hold, in the order in which they were sent, the elements sent and not yet
received. -/
structure RefinesFifo (capacity : Nat) (state : State Thread Pc Element) : Prop where
  capacity_eq : state.ring.capacity = capacity
  count_le : state.ring.count ≤ capacity
  take_lt : state.ring.takeIndex < capacity
  put_eq : state.ring.putIndex = (state.ring.takeIndex + state.ring.count) % capacity
  in_order : state.sent = state.received ++ state.ring.contents
  live : ∀ offset < state.ring.count, state.sent[state.received.length + offset]? =
    some (state.ring.slots ((state.ring.takeIndex + offset) % capacity))

omit [DecidableEq Thread] in
theorem refinesFifo_of_represents {capacity : Nat} {state : State Thread Pc Element}
    (sameCapacity : state.ring.capacity = capacity)
    (represents : state.ring.Represents state.sent state.received) :
    RefinesFifo capacity state where
  capacity_eq := sameCapacity
  count_le := sameCapacity ▸ represents.wf.count_le
  take_lt := sameCapacity ▸ represents.wf.take_lt
  put_eq := sameCapacity ▸ represents.wf.put_eq
  in_order := represents.history
  live _ live := sameCapacity ▸ represents.live_slot live

end Nattan.Monitor
