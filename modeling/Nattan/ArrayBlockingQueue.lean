/-
This file models `ArrayBlockingQueue<T>` under any number of threads.

The atomic steps of a thread are the unlocked `isFull`/`isEmpty` test of `offer`
and `poll`, the `try_lock` or `lock` of `lock_`, the critical section (for `put`
and `take` the test that starts a `wait`, or the `enqueue`/`dequeue` with its
`notifyAll`), and the `unlock`. A notified waiter contends for `lock_` again, as
`pthread_cond_wait` makes it, and re-tests; a waiter may also be woken
spuriously.

`offer` and `poll` test the queue, try the lock, and test again under it. The
second test returns without an `unlock`, so a thread for which the two tests
differ leaves the operation as the owner of `lock_`. The file proves that this
is the only leak: in every run in which the second tests agree with the first,
`lock_` is free whenever no thread is inside an operation.
-/

import Nattan.Monitor

namespace Nattan.ArrayBlockingQueue

open Monitor

universe u w

inductive Operation (Element : Type w) where
  | offer (element : Element)
  | put (element : Element)
  | poll
  | take
  deriving DecidableEq, Repr

/-- Where a thread stands. `idle` is outside every operation and remembers what the last one
returned; every other name is the step the thread takes next, except the two waits, which it
leaves when it is notified. -/
inductive Pc (Element : Type w) where
  | idle (last : Option (Result Element))
  | offerTest (element : Element)
  | offerTryLock (element : Element)
  | offerLocked (element : Element)
  | putLock (element : Element)
  | putLocked (element : Element)
  | putWait (element : Element)
  | pollTest
  | pollTryLock
  | pollLocked
  | takeLock
  | takeLocked
  | takeWait
  | unlock (result : Result Element)
  deriving DecidableEq, Repr

variable {Thread : Type u} {Element : Type w}

namespace Pc

def isIdle : Pc Element → Bool
  | idle _ => true
  | _ => false

def holds : Pc Element → Bool
  | offerLocked _ | putLocked _ | pollLocked | takeLocked | unlock _ => true
  | _ => false

def awaitsItem : Pc Element → Bool
  | takeWait => true
  | _ => false

def awaitsSpace : Pc Element → Bool
  | putWait _ => true
  | _ => false

/-- `notEmpty_.notifyAll()`: a waiting `take` contends for the lock again. -/
def signalItem : Pc Element → Pc Element
  | takeWait => takeLock
  | pc => pc

/-- `notFull_.notifyAll()`: a waiting `put` contends for the lock again. -/
def signalSpace : Pc Element → Pc Element
  | putWait element => putLock element
  | pc => pc

/-- Outside, or inside an `offer`. -/
def offering : Pc Element → Bool
  | idle _ | offerTest _ | offerTryLock _ | offerLocked _ | unlock (.accepted _) => true
  | _ => false

/-- Outside, or inside a `poll`. -/
def polling : Pc Element → Bool
  | idle _ | pollTest | pollTryLock | pollLocked | unlock (.item _) => true
  | _ => false

/-- Inside a `take`, or behind one that has returned an element. -/
def taking : Pc Element → Bool
  | takeLock | takeLocked | takeWait | unlock (.item _) | idle (some (.item _)) => true
  | _ => false

/-- Outside, or inside an `offer` or a `put`. -/
def producing : Pc Element → Bool
  | idle _ | offerTest _ | offerTryLock _ | offerLocked _ => true
  | putLock _ | putLocked _ | putWait _ | unlock (.accepted _) => true
  | _ => false

/-- Inside a `take` that has not got its element yet. -/
def wantsItem : Pc Element → Bool
  | takeLock | takeLocked | takeWait => true
  | _ => false

/-- An operation that returned `false`. -/
def refused : Pc Element := idle (some .refused)

end Pc

/-- What the program counters mean to the monitor library. -/
def roles : Roles (Pc Element) where
  holds := Pc.holds
  awaitsItem := Pc.awaitsItem
  awaitsSpace := Pc.awaitsSpace
  signalItem := Pc.signalItem
  signalSpace := Pc.signalSpace
  awaitsItem_signalItem pc := by cases pc <;> rfl
  awaitsSpace_signalItem pc := by cases pc <;> rfl
  holds_signalItem pc := by cases pc <;> rfl
  awaitsSpace_signalSpace pc := by cases pc <;> rfl
  awaitsItem_signalSpace pc := by cases pc <;> rfl
  holds_signalSpace pc := by cases pc <;> rfl

/-- The queue and its threads. The ring is `items_`, `putIndex_`, `takeIndex_`, `count_` and
`capcity_`; the owner is the holder of `lock_`. -/
abbrev State (Thread : Type u) (Element : Type w) := Monitor.State Thread (Pc Element) Element

/-- A new queue, with every thread outside. -/
def State.new [Inhabited Element] (capcity : Nat) : State Thread Element :=
  Monitor.State.initial capcity (.idle none)

/-- The first step of an operation. -/
def Operation.entry : Operation Element → Pc Element
  | offer element => .offerTest element
  | put element => .putLock element
  | poll => .pollTest
  | take => .takeLock

inductive Action (Thread : Type u) (Element : Type w) where
  | call (thread : Thread) (operation : Operation Element)
  | run (thread : Thread)
  | wake (thread : Thread)

section

variable [DecidableEq Thread]

/-- The next step of a thread inside an operation; a thread that waits, or that needs a lock
another thread owns, has none. -/
def advance (state : State Thread Element) (thread : Thread) : Option (State Thread Element) :=
  match state.pc thread with
  | .idle _ => none
  | .offerTest element =>
    if state.ring.isFull then some (state.goto thread .refused)
    else some (state.goto thread (.offerTryLock element))
  | .offerTryLock element =>
    match state.owner with
    | none => some (state.acquire thread (.offerLocked element))
    | some _ => some (state.goto thread .refused)
  | .offerLocked element =>
    if state.ring.isFull then some (state.goto thread .refused)
    else some (state.enqueue roles thread element (.unlock (.accepted element)))
  | .putLock element =>
    match state.owner with
    | none => some (state.acquire thread (.putLocked element))
    | some _ => none
  | .putLocked element =>
    if state.ring.isFull then some (state.release thread (.putWait element))
    else some (state.enqueue roles thread element (.unlock (.accepted element)))
  | .putWait _ => none
  | .pollTest =>
    if state.ring.isEmpty then some (state.goto thread .refused)
    else some (state.goto thread .pollTryLock)
  | .pollTryLock =>
    match state.owner with
    | none => some (state.acquire thread .pollLocked)
    | some _ => some (state.goto thread .refused)
  | .pollLocked =>
    if state.ring.isEmpty then some (state.goto thread .refused)
    else some (state.dequeue roles thread fun element => .unlock (.item element))
  | .takeLock =>
    match state.owner with
    | none => some (state.acquire thread .takeLocked)
    | some _ => none
  | .takeLocked =>
    if state.ring.isEmpty then some (state.release thread .takeWait)
    else some (state.dequeue roles thread fun element => .unlock (.item element))
  | .takeWait => none
  | .unlock result => some (state.release thread (.idle (some result)))

/-- One atomic step of the queue. -/
def step (state : State Thread Element) : Action Thread Element → Option (State Thread Element)
  | .call thread operation =>
    if (state.pc thread).isIdle then some (state.goto thread operation.entry) else none
  | .run thread => advance state thread
  | .wake thread =>
    match state.pc thread with
    | .putWait element => some (state.goto thread (.putLock element))
    | .takeWait => some (state.goto thread .takeLock)
    | _ => none

/-- No thread is inside an operation. -/
def Quiescent (state : State Thread Element) : Prop :=
  ∀ thread, (state.pc thread).isIdle = true

/-- The thread is at the locked test of `offer` or `poll`, and the test differs from the
unlocked one before it. -/
def retestFails (state : State Thread Element) (thread : Thread) : Bool :=
  match state.pc thread with
  | .offerLocked _ => state.ring.isFull
  | .pollLocked => state.ring.isEmpty
  | _ => false

/-! ### What a step does -/

theorem effect_of_call {before after : State Thread Element} {thread : Thread}
    {operation : Operation Element} (stepped : step before (.call thread operation) = some after) :
    Effect roles before thread after := by
  simp only [step] at stepped
  split at stepped
  · rename_i outside
    cases stepped
    cases pc : before.pc thread with
    | idle last =>
      refine .move _ ?_ ?_ ?_
      · rw [pc]
        cases operation <;> rfl
      · cases operation <;> rfl
      · cases operation <;> rfl
    | _ =>
      rw [pc] at outside
      cases outside
  · cases stepped

theorem effect_of_wake {before after : State Thread Element} {thread : Thread}
    (stepped : step before (.wake thread) = some after) :
    Effect roles before thread after := by
  simp only [step] at stepped
  split at stepped
  · rename_i element pc
    cases stepped
    exact .move _ (by rw [pc]; rfl) rfl rfl
  · rename_i pc
    cases stepped
    exact .move _ (by rw [pc]; rfl) rfl rfl
  · cases stepped

/-- What a step of a thread inside an operation can be: a case for every branch of `advance`. -/
inductive Advances (before : State Thread Element) (thread : Thread) :
    State Thread Element → Prop where
  | offerTestFull {element : Element} (full : before.ring.isFull = true)
      (pc : before.pc thread = .offerTest element) :
      Advances before thread (before.goto thread .refused)
  | offerTestRoom {element : Element} (room : before.ring.isFull = false)
      (pc : before.pc thread = .offerTest element) :
      Advances before thread (before.goto thread (.offerTryLock element))
  | offerTryLockFree {element : Element} (free : before.owner = none)
      (pc : before.pc thread = .offerTryLock element) :
      Advances before thread (before.acquire thread (.offerLocked element))
  | offerTryLockHeld {element : Element} {owner : Thread} (held : before.owner = some owner)
      (pc : before.pc thread = .offerTryLock element) :
      Advances before thread (before.goto thread .refused)
  | offerLockedFull {element : Element} (full : before.ring.isFull = true)
      (pc : before.pc thread = .offerLocked element) :
      Advances before thread (before.goto thread .refused)
  | offerLockedRoom {element : Element} (room : before.ring.isFull = false)
      (pc : before.pc thread = .offerLocked element) :
      Advances before thread
        (before.enqueue roles thread element (.unlock (.accepted element)))
  | putLock {element : Element} (free : before.owner = none)
      (pc : before.pc thread = .putLock element) :
      Advances before thread (before.acquire thread (.putLocked element))
  | putLockedFull {element : Element} (full : before.ring.isFull = true)
      (pc : before.pc thread = .putLocked element) :
      Advances before thread (before.release thread (.putWait element))
  | putLockedRoom {element : Element} (room : before.ring.isFull = false)
      (pc : before.pc thread = .putLocked element) :
      Advances before thread
        (before.enqueue roles thread element (.unlock (.accepted element)))
  | pollTestEmpty (empty : before.ring.isEmpty = true) (pc : before.pc thread = .pollTest) :
      Advances before thread (before.goto thread .refused)
  | pollTestItem (item : before.ring.isEmpty = false) (pc : before.pc thread = .pollTest) :
      Advances before thread (before.goto thread .pollTryLock)
  | pollTryLockFree (free : before.owner = none) (pc : before.pc thread = .pollTryLock) :
      Advances before thread (before.acquire thread .pollLocked)
  | pollTryLockHeld {owner : Thread} (held : before.owner = some owner)
      (pc : before.pc thread = .pollTryLock) :
      Advances before thread (before.goto thread .refused)
  | pollLockedEmpty (empty : before.ring.isEmpty = true)
      (pc : before.pc thread = .pollLocked) :
      Advances before thread (before.goto thread .refused)
  | pollLockedItem (item : before.ring.isEmpty = false) (pc : before.pc thread = .pollLocked) :
      Advances before thread
        (before.dequeue roles thread fun element => .unlock (.item element))
  | takeLock (free : before.owner = none) (pc : before.pc thread = .takeLock) :
      Advances before thread (before.acquire thread .takeLocked)
  | takeLockedEmpty (empty : before.ring.isEmpty = true)
      (pc : before.pc thread = .takeLocked) :
      Advances before thread (before.release thread .takeWait)
  | takeLockedItem (item : before.ring.isEmpty = false) (pc : before.pc thread = .takeLocked) :
      Advances before thread
        (before.dequeue roles thread fun element => .unlock (.item element))
  | unlock {result : Result Element} (pc : before.pc thread = .unlock result) :
      Advances before thread (before.release thread (.idle (some result)))

theorem advances_of_advance {before after : State Thread Element} {thread : Thread}
    (stepped : advance before thread = some after) : Advances before thread after := by
  unfold advance at stepped
  split at stepped
  · cases stepped
  · rename_i pc
    split at stepped
    · cases stepped
      exact .offerTestFull ‹_› pc
    · rename_i room
      cases stepped
      exact .offerTestRoom (Bool.eq_false_iff.mpr room) pc
  · rename_i pc
    split at stepped
    · cases stepped
      exact .offerTryLockFree ‹_› pc
    · cases stepped
      exact .offerTryLockHeld ‹_› pc
  · rename_i pc
    split at stepped
    · cases stepped
      exact .offerLockedFull ‹_› pc
    · rename_i room
      cases stepped
      exact .offerLockedRoom (Bool.eq_false_iff.mpr room) pc
  · rename_i pc
    split at stepped
    · cases stepped
      exact .putLock ‹_› pc
    · cases stepped
  · rename_i pc
    split at stepped
    · cases stepped
      exact .putLockedFull ‹_› pc
    · rename_i room
      cases stepped
      exact .putLockedRoom (Bool.eq_false_iff.mpr room) pc
  · cases stepped
  · rename_i pc
    split at stepped
    · cases stepped
      exact .pollTestEmpty ‹_› pc
    · rename_i item
      cases stepped
      exact .pollTestItem (Bool.eq_false_iff.mpr item) pc
  · rename_i pc
    split at stepped
    · cases stepped
      exact .pollTryLockFree ‹_› pc
    · cases stepped
      exact .pollTryLockHeld ‹_› pc
  · rename_i pc
    split at stepped
    · cases stepped
      exact .pollLockedEmpty ‹_› pc
    · rename_i item
      cases stepped
      exact .pollLockedItem (Bool.eq_false_iff.mpr item) pc
  · rename_i pc
    split at stepped
    · cases stepped
      exact .takeLock ‹_› pc
    · cases stepped
  · rename_i pc
    split at stepped
    · cases stepped
      exact .takeLockedEmpty ‹_› pc
    · rename_i item
      cases stepped
      exact .takeLockedItem (Bool.eq_false_iff.mpr item) pc
  · cases stepped
  · rename_i pc
    cases stepped
    exact .unlock pc

/-- A step leaves the ring and the other threads alone, unless it puts in or takes out. -/
theorem Advances.kept {before after : State Thread Element} {thread : Thread}
    (advanced : Advances before thread after) :
    (after.ring = before.ring ∧ ∀ other, other ≠ thread → after.pc other = before.pc other) ∨
      (∃ element, (before.pc thread = .offerLocked element ∨
          before.pc thread = .putLocked element) ∧ before.ring.isFull = false ∧
        after = before.enqueue roles thread element (.unlock (.accepted element))) ∨
      ((before.pc thread = .pollLocked ∨ before.pc thread = .takeLocked) ∧
        before.ring.isEmpty = false ∧
        after = before.dequeue roles thread fun element => .unlock (.item element)) := by
  cases advanced with
  | offerTryLockFree | putLock | pollTryLockFree | takeLock =>
    exact Or.inl ⟨rfl, fun _ => State.acquire_pc_of_ne _ _⟩
  | putLockedFull | takeLockedEmpty | unlock =>
    exact Or.inl ⟨rfl, fun _ => State.release_pc_of_ne _ _⟩
  | offerLockedRoom room pc => exact Or.inr (Or.inl ⟨_, Or.inl pc, room, rfl⟩)
  | putLockedRoom room pc => exact Or.inr (Or.inl ⟨_, Or.inr pc, room, rfl⟩)
  | pollLockedItem item pc => exact Or.inr (Or.inr ⟨Or.inl pc, item, rfl⟩)
  | takeLockedItem item pc => exact Or.inr (Or.inr ⟨Or.inr pc, item, rfl⟩)
  | _ => exact Or.inl ⟨rfl, fun _ => State.goto_pc_of_ne _ _⟩

/-- A locked test that differs from the unlocked one leaks the lock. -/
theorem leak_of_retestFails {before after : State Thread Element} {thread : Thread}
    (fails : retestFails before thread = true) (stepped : advance before thread = some after) :
    Leak roles before thread after := by
  refine ⟨.refused, rfl, rfl, rfl, ?_⟩
  unfold retestFails at fails
  split at fails
  · rename_i element pc
    simp only [advance, pc, fails, if_true] at stepped
    exact (Option.some.inj stepped).symm
  · rename_i pc
    simp only [advance, pc, fails, if_true] at stepped
    exact (Option.some.inj stepped).symm
  · cases fails

/-- Every other step of a thread is an effect of the monitor. -/
theorem effect_of_advance {before after : State Thread Element} {thread : Thread}
    (agrees : retestFails before thread = false) (stepped : advance before thread = some after) :
    Effect roles before thread after := by
  cases advances_of_advance stepped with
  | offerTestFull full pc => exact .move _ (by rw [pc]; rfl) rfl rfl
  | offerTestRoom room pc => exact .move _ (by rw [pc]; rfl) rfl rfl
  | offerTryLockFree free pc => exact .acquire _ free rfl rfl rfl
  | offerTryLockHeld held pc => exact .move _ (by rw [pc]; rfl) rfl rfl
  | offerLockedFull full pc =>
    rw [retestFails, pc, full] at agrees
    cases agrees
  | offerLockedRoom room pc => exact .enqueue _ _ (by rw [pc]; rfl) room rfl rfl rfl
  | putLock free pc => exact .acquire _ free rfl rfl rfl
  | putLockedFull full pc =>
    exact .release _ (by rw [pc]; rfl) rfl (fun waits => by cases waits) fun _ => full
  | putLockedRoom room pc => exact .enqueue _ _ (by rw [pc]; rfl) room rfl rfl rfl
  | pollTestEmpty empty pc => exact .move _ (by rw [pc]; rfl) rfl rfl
  | pollTestItem item pc => exact .move _ (by rw [pc]; rfl) rfl rfl
  | pollTryLockFree free pc => exact .acquire _ free rfl rfl rfl
  | pollTryLockHeld held pc => exact .move _ (by rw [pc]; rfl) rfl rfl
  | pollLockedEmpty empty pc =>
    rw [retestFails, pc, empty] at agrees
    cases agrees
  | pollLockedItem item pc =>
    exact .dequeue _ (by rw [pc]; rfl) item (fun _ => rfl) (fun _ => rfl) fun _ => rfl
  | takeLock free pc => exact .acquire _ free rfl rfl rfl
  | takeLockedEmpty empty pc =>
    exact .release _ (by rw [pc]; rfl) rfl (fun _ => empty) fun waits => by cases waits
  | takeLockedItem item pc =>
    exact .dequeue _ (by rw [pc]; rfl) item (fun _ => rfl) (fun _ => rfl) fun _ => rfl
  | unlock pc =>
    exact .release _ (by rw [pc]; rfl) rfl (fun waits => by cases waits) fun waits => by cases waits

/-- What a step of the queue does: an effect of the monitor, or a leak. -/
theorem effect_or_leak {before after : State Thread Element} {action : Action Thread Element}
    (stepped : step before action = some after) :
    ∃ thread, Effect roles before thread after ∨ Leak roles before thread after := by
  cases action with
  | call thread operation => exact ⟨thread, Or.inl (effect_of_call stepped)⟩
  | wake thread => exact ⟨thread, Or.inl (effect_of_wake stepped)⟩
  | run thread =>
    cases retest : retestFails before thread with
    | true => exact ⟨thread, Or.inr (leak_of_retestFails retest stepped)⟩
    | false => exact ⟨thread, Or.inl (effect_of_advance retest stepped)⟩

theorem fifoStep_of_step {before after : State Thread Element} {action : Action Thread Element}
    (wf : before.ring.Wf) (stepped : step before action = some after) :
    Ring.FifoStep before.ring.capacity before.ring.contents after.ring.contents := by
  obtain ⟨thread, effect | leak⟩ := effect_or_leak stepped
  · exact effect.fifoStep wf
  · rw [leak.ring_eq]
    exact .stutter _

theorem exclusive_of_step {before after : State Thread Element} {action : Action Thread Element}
    (exclusive : Exclusive roles before) (stepped : step before action = some after) :
    Exclusive roles after := by
  obtain ⟨thread, effect | leak⟩ := effect_or_leak stepped
  · exact effect.exclusive exclusive
  · exact leak.exclusive exclusive

theorem exclusive_of_reachable [Inhabited Element] {capcity : Nat} {state : State Thread Element}
    (reached : Reachable step (State.new capcity) state) : Exclusive roles state :=
  Reachable.invariant (Exclusive roles) (fun _ held => by cases held)
    (fun _ _ _ exclusive stepped => exclusive_of_step exclusive stepped) reached

/-! ### Threads that only offer, and threads that only poll -/

theorem signalItem_of_polling {pc : Pc Element} (polling : pc.polling = true) :
    pc.signalItem = pc := by
  cases pc <;> first | rfl | cases polling

theorem signalItem_of_offering {pc : Pc Element} (offering : pc.offering = true) :
    pc.signalItem = pc := by
  cases pc <;> first | rfl | cases offering

theorem signalSpace_of_offering {pc : Pc Element} (offering : pc.offering = true) :
    pc.signalSpace = pc := by
  cases pc <;> first | rfl | cases offering

theorem Advances.offering {before after : State Thread Element} {thread : Thread}
    (advanced : Advances before thread after) (offering : (before.pc thread).offering = true) :
    (after.pc thread).offering = true := by
  cases advanced with
  | offerTestFull | offerTestRoom | offerTryLockHeld | offerLockedFull =>
    rw [State.goto_pc_self]
    rfl
  | offerTryLockFree =>
    rw [State.acquire_pc_self]
    rfl
  | offerLockedRoom =>
    rw [State.enqueue_pc_self]
    rfl
  | unlock =>
    rw [State.release_pc_self]
    rfl
  | _ =>
    rename_i pc
    rw [pc] at offering
    cases offering

/-- A step inside `offer` stays inside `offer` (or returns), and it leaves the ring and the
other threads alone unless it is the enqueue. -/
theorem advance_of_offering {before after : State Thread Element} {thread : Thread}
    (offering : (before.pc thread).offering = true) (stepped : advance before thread = some after) :
    (after.pc thread).offering = true ∧
      ((after.ring = before.ring ∧ ∀ other, other ≠ thread → after.pc other = before.pc other) ∨
        ∃ element, before.pc thread = .offerLocked element ∧ before.ring.isFull = false ∧
          after = before.enqueue roles thread element (.unlock (.accepted element))) := by
  have advanced := advances_of_advance stepped
  refine ⟨advanced.offering offering, ?_⟩
  rcases advanced.kept with same | ⟨element, pc | pc, room, put⟩ | ⟨pc | pc, -⟩
  · exact Or.inl same
  · exact Or.inr ⟨element, pc, room, put⟩
  all_goals
    rw [pc] at offering
    cases offering

/-- A step inside `poll` stays inside `poll` (or returns) and puts nothing in. When it returns
without an element, either the ring was empty or another thread held the lock. -/
theorem advance_of_polling {before after : State Thread Element} {thread : Thread}
    (polling : (before.pc thread).polling = true) (stepped : advance before thread = some after) :
    (after.pc thread).polling = true ∧ after.ring.count ≤ before.ring.count ∧
      (∀ other, other ≠ thread →
        after.pc other = before.pc other ∨ after.pc other = (before.pc other).signalSpace) ∧
      (∀ last, after.pc thread = .idle last → (∃ element, last = some (.item element)) ∨
        before.ring.isEmpty = true ∨ (before.pc thread = .pollTryLock ∧ before.owner ≠ none)) := by
  cases advances_of_advance stepped with
  | pollTestEmpty empty pc =>
    exact ⟨by rw [State.goto_pc_self]; rfl, le_rfl, fun _ => Or.inl ∘ State.goto_pc_of_ne _ _,
      fun _ _ => Or.inr (Or.inl empty)⟩
  | pollTestItem item pc =>
    refine ⟨by rw [State.goto_pc_self]; rfl, le_rfl,
      fun _ => Or.inl ∘ State.goto_pc_of_ne _ _, ?_⟩
    intro last returned
    rw [State.goto_pc_self] at returned
    cases returned
  | pollTryLockFree free pc =>
    refine ⟨by rw [State.acquire_pc_self]; rfl, le_rfl,
      fun _ => Or.inl ∘ State.acquire_pc_of_ne _ _, ?_⟩
    intro last returned
    rw [State.acquire_pc_self] at returned
    cases returned
  | pollTryLockHeld held pc =>
    exact ⟨by rw [State.goto_pc_self]; rfl, le_rfl, fun _ => Or.inl ∘ State.goto_pc_of_ne _ _,
      fun _ _ => Or.inr (Or.inr ⟨pc, by simp [held]⟩)⟩
  | pollLockedEmpty empty pc =>
    exact ⟨by rw [State.goto_pc_self]; rfl, le_rfl, fun _ => Or.inl ∘ State.goto_pc_of_ne _ _,
      fun _ _ => Or.inr (Or.inl empty)⟩
  | pollLockedItem item pc =>
    refine ⟨by rw [State.dequeue_pc_self]; rfl, Nat.sub_le _ _,
      fun _ different => Or.inr (State.dequeue_pc_of_ne _ _ different _), ?_⟩
    intro last returned
    rw [State.dequeue_pc_self] at returned
    cases returned
  | @unlock result pc =>
    refine ⟨by rw [State.release_pc_self]; rfl, le_rfl,
      fun _ => Or.inl ∘ State.release_pc_of_ne _ _, ?_⟩
    intro last returned
    rw [State.release_pc_self] at returned
    cases returned
    rw [pc] at polling
    cases result with
    | item element => exact Or.inl ⟨element, rfl⟩
    | refused => cases polling
    | accepted element => cases polling
  | _ =>
    rename_i pc
    rw [pc] at polling
    cases polling

/-! ### What the threads get -/

/-- `offer` and `put` put their element in, `poll` and `take` take one out. `offer` and `poll` may
be refused by a full and by an empty queue, and by a lock that is held. -/
def service : Service (Operation Element) Element where
  puts
    | .offer element | .put element => some element
    | .poll | .take => none
  refuses
    | .offer _, capcity, items, held => items.length = capcity ∨ held
    | .poll, _, items, held => items = [] ∨ held
    | .put _, _, _, _ | .take, _, _, _ => False

/-- The operation a thread is inside of, until it has its result. -/
def Pc.stands : Pc Element → Standing (Operation Element) Element
  | idle last => .outside last
  | offerTest element | offerTryLock element | offerLocked element => .asks (.offer element)
  | putLock element | putLocked element | putWait element => .asks (.put element)
  | pollTest | pollTryLock | pollLocked => .asks .poll
  | takeLock | takeLocked | takeWait => .asks .take
  | unlock result => .gets result

theorem stands_roles : Stands roles (@Pc.stands Element) where
  signalItem pc := by cases pc <;> rfl
  signalSpace pc := by cases pc <;> rfl

/-- An operation that may be refused returns so, with or without the lock. -/
theorem served_of_refused {before : State Thread Element} {thread : Thread}
    {operation : Operation Element} (asks : (before.pc thread).stands = .asks operation)
    (refuses : service.refuses operation before.ring.capacity before.ring.contents
      (before.owner ≠ none)) :
    Served service Pc.stands before (before.goto thread .refused) :=
  served_goto rfl rfl (.refuse thread _ asks refuses (Or.inr rfl))

/-- Every step of a thread inside an operation serves it. -/
theorem Advances.served {before after : State Thread Element} {thread : Thread}
    (wf : before.ring.Wf) (advanced : Advances before thread after) :
    Served service Pc.stands before after := by
  cases advanced with
  | offerTestFull full pc | offerLockedFull full pc =>
    exact served_of_refused (congrArg Pc.stands pc) (Or.inl (length_contents_of_isFull full))
  | pollTestEmpty empty pc | pollLockedEmpty empty pc =>
    exact served_of_refused (congrArg Pc.stands pc) (Or.inl (contents_eq_nil_of_isEmpty empty))
  | offerTryLockHeld held pc | pollTryLockHeld held pc =>
    exact served_of_refused (congrArg Pc.stands pc)
      (Or.inr (by rw [held]; exact Option.some_ne_none _))
  | offerTestRoom room pc | pollTestItem room pc =>
    exact served_of_same rfl rfl (by rw [pc]; rfl)
  | offerTryLockFree free pc | putLock free pc | pollTryLockFree free pc | takeLock free pc =>
    exact served_of_same rfl rfl (by rw [pc]; rfl)
  | putLockedFull full pc | takeLockedEmpty empty pc =>
    exact served_of_same rfl rfl (by rw [pc]; rfl)
  | offerLockedRoom room pc | putLockedRoom room pc =>
    exact served_enqueue stands_roles wf (congrArg Pc.stands pc) rfl room rfl
  | pollLockedItem item pc | takeLockedItem item pc =>
    exact served_dequeue stands_roles wf (congrArg Pc.stands pc) rfl item fun _ => rfl
  | unlock pc => exact served_goto rfl rfl (.leave thread (congrArg Pc.stands pc))

/-- Every step is one of the bounded FIFO queue and its threads. -/
theorem served_of_step {before after : State Thread Element} {action : Action Thread Element}
    (wf : before.ring.Wf) (stepped : step before action = some after) :
    Served service Pc.stands before after := by
  cases action with
  | call thread operation =>
    obtain ⟨outside, rfl⟩ := stepped_of_guard stepped
    have entered : (operation.entry).stands = .asks operation := by cases operation <;> rfl
    cases pc : before.pc thread with
    | idle last =>
      refine served_goto rfl rfl ?_
      rw [entered]
      exact .call thread operation (congrArg Pc.stands pc)
    | _ =>
      rw [pc] at outside
      cases outside
  | run thread => exact (advances_of_advance stepped).served wf
  | wake thread =>
    simp only [step] at stepped
    split at stepped
    · rename_i pc
      cases stepped
      exact served_of_same rfl rfl (by rw [pc]; rfl)
    · rename_i pc
      cases stepped
      exact served_of_same rfl rfl (by rw [pc]; rfl)
    · cases stepped

/-! ### Threads that only take, and threads that only put in -/

theorem wantsItem_signalItem (pc : Pc Element) : pc.signalItem.wantsItem = pc.wantsItem := by
  cases pc <;> rfl

theorem wantsItem_signalSpace (pc : Pc Element) : pc.signalSpace.wantsItem = pc.wantsItem := by
  cases pc <;> rfl

theorem taking_signalItem (pc : Pc Element) : pc.signalItem.taking = pc.taking := by
  cases pc <;> rfl

theorem taking_signalSpace (pc : Pc Element) : pc.signalSpace.taking = pc.taking := by
  cases pc <;> rfl

theorem producing_signalItem (pc : Pc Element) : pc.signalItem.producing = pc.producing := by
  cases pc <;> rfl

theorem producing_signalSpace (pc : Pc Element) : pc.signalSpace.producing = pc.producing := by
  cases pc <;> rfl

/-- A step inside `take` stays inside `take` (or returns), and it leaves the ring, the other
threads and what the thread wants alone unless it is the dequeue. -/
theorem advance_of_taking {before after : State Thread Element} {thread : Thread}
    (taking : (before.pc thread).taking = true) (stepped : advance before thread = some after) :
    (after.pc thread).taking = true ∧
      ((after.ring = before.ring ∧ (after.pc thread).wantsItem = (before.pc thread).wantsItem ∧
          ∀ other, other ≠ thread → after.pc other = before.pc other) ∨
        (before.pc thread = .takeLocked ∧ before.ring.isEmpty = false ∧
          after = before.dequeue roles thread fun element => .unlock (.item element))) := by
  cases advances_of_advance stepped with
  | takeLock free pc =>
    rw [State.acquire_pc_self, pc]
    exact ⟨rfl, Or.inl ⟨rfl, rfl, fun _ => State.acquire_pc_of_ne _ _⟩⟩
  | takeLockedEmpty empty pc =>
    rw [State.release_pc_self, pc]
    exact ⟨rfl, Or.inl ⟨rfl, rfl, fun _ => State.release_pc_of_ne _ _⟩⟩
  | takeLockedItem item pc =>
    rw [State.dequeue_pc_self]
    exact ⟨rfl, Or.inr ⟨pc, item, rfl⟩⟩
  | @unlock result pc =>
    rw [pc] at taking ⊢
    rw [State.release_pc_self]
    cases result with
    | item element => exact ⟨rfl, Or.inl ⟨rfl, rfl, fun _ => State.release_pc_of_ne _ _⟩⟩
    | refused => cases taking
    | accepted element => cases taking
  | _ =>
    rename_i pc
    rw [pc] at taking
    cases taking

theorem Advances.producing {before after : State Thread Element} {thread : Thread}
    (advanced : Advances before thread after) (producing : (before.pc thread).producing = true) :
    (after.pc thread).producing = true := by
  cases advanced with
  | offerTestFull | offerTestRoom | offerTryLockHeld | offerLockedFull =>
    rw [State.goto_pc_self]
    rfl
  | offerTryLockFree | putLock =>
    rw [State.acquire_pc_self]
    rfl
  | offerLockedRoom | putLockedRoom =>
    rw [State.enqueue_pc_self]
    rfl
  | putLockedFull | unlock =>
    rw [State.release_pc_self]
    rfl
  | _ =>
    rename_i pc
    rw [pc] at producing
    cases producing

/-- A step inside `offer` or `put` stays inside (or returns), and it leaves the ring and the other
threads alone unless it is the enqueue. -/
theorem advance_of_producing {before after : State Thread Element} {thread : Thread}
    (producing : (before.pc thread).producing = true)
    (stepped : advance before thread = some after) :
    (after.pc thread).producing = true ∧
      ((after.ring = before.ring ∧ ∀ other, other ≠ thread → after.pc other = before.pc other) ∨
        ∃ element, before.ring.isFull = false ∧
          after = before.enqueue roles thread element (.unlock (.accepted element))) := by
  have advanced := advances_of_advance stepped
  refine ⟨advanced.producing producing, ?_⟩
  rcases advanced.kept with same | ⟨element, -, room, put⟩ | ⟨pc | pc, -⟩
  · exact Or.inl same
  · exact Or.inr ⟨element, room, put⟩
  all_goals
    rw [pc] at producing
    cases producing

/-! ### The lock -/

/-- The step is not a locked test of `offer` or `poll` that differs from the unlocked test
before it: no other thread filled (emptied) the queue between the two tests. -/
def TestsAgree (state : State Thread Element) : Action Thread Element → Prop
  | .run thread => retestFails state thread = false
  | .call _ _ | .wake _ => True

instance (state : State Thread Element) (action : Action Thread Element) :
    Decidable (TestsAgree state action) :=
  match action with
  | .run thread => inferInstanceAs (Decidable (retestFails state thread = false))
  | .call _ _ => inferInstanceAs (Decidable True)
  | .wake _ => inferInstanceAs (Decidable True)

theorem effect_of_testsAgree {before after : State Thread Element}
    {action : Action Thread Element} (agree : TestsAgree before action)
    (stepped : step before action = some after) : ∃ thread, Effect roles before thread after := by
  cases action with
  | call thread operation => exact ⟨thread, effect_of_call stepped⟩
  | wake thread => exact ⟨thread, effect_of_wake stepped⟩
  | run thread => exact ⟨thread, effect_of_advance agree stepped⟩

theorem ownerInside_of_reachable [Inhabited Element] {capcity : Nat}
    {state : State Thread Element}
    (reached : ReachableBy step TestsAgree (State.new capcity) state) :
    OwnerInside roles state := by
  refine ReachableBy.invariant (OwnerInside roles) (fun thread owns => ?_)
    (fun before action after inside agree stepped => ?_) reached
  · cases owns
  · obtain ⟨thread, effect⟩ := effect_of_testsAgree agree stepped
    exact effect.ownerInside inside

theorem holds_of_isIdle {pc : Pc Element} (outside : pc.isIdle = true) : pc.holds = false := by
  cases pc with
  | idle last => rfl
  | _ => cases outside

/-- In every run in which the locked tests of `offer` and `poll` agree with the unlocked ones,
`lock_` is free whenever no thread is inside an operation. -/
theorem lock_free_of_quiescent [Inhabited Element] (capcity : Nat) (state : State Thread Element)
    (reached : ReachableBy step TestsAgree (State.new capcity) state)
    (quiescent : Quiescent state) : state.owner = none := by
  cases owner : state.owner with
  | none => rfl
  | some thread =>
    have inside := ownerInside_of_reachable reached thread owner
    have outside : Pc.holds (state.pc thread) = false := holds_of_isIdle (quiescent thread)
    exact absurd (inside.symm.trans outside) (by simp)

/-- The condition cannot be dropped anywhere in a run: from the first locked test that differs
from its unlocked one on, the lock is never free again. -/
theorem lock_never_freed [Inhabited Element] {capcity : Nat}
    {before leaked later : State Thread Element} {thread : Thread}
    (reached : Reachable step (State.new capcity) before)
    (fails : retestFails before thread = true) (stepped : advance before thread = some leaked)
    (onward : Reachable step leaked later) : later.owner = some thread := by
  have exclusive := exclusive_of_reachable reached
  have held : roles.holds (before.pc thread) = true := by
    unfold retestFails at fails
    split at fails
    · rename_i element pc
      rw [pc]
      rfl
    · rename_i pc
      rw [pc]
      rfl
    · cases fails
  have leak := leak_of_retestFails fails stepped
  have kept : Exclusive roles later ∧ OwnedOutside roles later thread := by
    refine Reachable.invariant
      (fun state => Exclusive roles state ∧ OwnedOutside roles state thread) ?_
      (fun before action after holds stepped => ?_) onward
    · exact ⟨leak.exclusive exclusive, leak.leaves_ownedOutside (exclusive thread held)⟩
    · refine ⟨exclusive_of_step holds.1 stepped, ?_⟩
      obtain ⟨other, effect | leak⟩ := effect_or_leak stepped
      · exact effect.ownedOutside holds.1 holds.2
      · exact leak.ownedOutside holds.2
  exact kept.2.1

end

/-- Thread `false` offers an element and thread `true` polls it, one after the other. -/
def handoverSchedule : List (Action Bool Nat) :=
  [.call false (.offer 7), .run false, .run false, .run false, .run false,
    .call true .poll, .run true, .run true, .run true, .run true]

theorem lock_free_of_quiescent_handover :
    ∃ state : State Bool Nat, runBy step TestsAgree (State.new 1) handoverSchedule = some state ∧
      state.received = [7] ∧ state.owner = none := by
  refine ⟨_, rfl, rfl, ?_⟩
  refine lock_free_of_quiescent 1 _
    (reachableBy_of_runBy
      (show runBy step TestsAgree (State.new 1) handoverSchedule = some _ from rfl))
    fun thread => ?_
  cases thread <;> rfl

/-- Two `offer`s on a queue of capacity one: both see room, the first fills the queue, and the
second finds it full under the lock and returns without releasing it. -/
def racingOffers : List (Action Bool Nat) :=
  [.call false (.offer 7), .run false, .call true (.offer 8), .run true,
    .run false, .run false, .run false, .run true, .run true]

theorem lock_leaked_by_racingOffers :
    ¬ ∀ (capcity : Nat) (state : State Bool Nat), Reachable step (State.new capcity) state →
      Quiescent state → state.owner = none := by
  intro claim
  obtain ⟨state, executed, quiescent, leaked⟩ : ∃ state : State Bool Nat,
      run step (State.new 1) racingOffers = some state ∧ Quiescent state ∧
        state.owner = some true :=
    ⟨_, rfl, fun thread => by cases thread <;> rfl, rfl⟩
  rw [claim 1 state (reachable_of_run executed) quiescent] at leaked
  cases leaked

end Nattan.ArrayBlockingQueue
