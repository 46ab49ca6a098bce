/-
This file states what the two blocking queues have in common: `Chan<T>` between
coroutines and `ArrayBlockingQueue<T>` between threads are bounded FIFO queues
under every interleaving, and neither misses a wake-up. Both are read off the
monitor library: every step of either is an effect (or, for the array queue, a
leak of the lock, which touches neither the ring nor a waiter), and it is a step of
the bounded FIFO queue with its callers, so that what an operation returns is what
the FIFO queue gives it.
-/

import Nattan.ArrayBlockingQueue
import Nattan.Chan

namespace Nattan

open Monitor

universe u v w

variable {Task : Type u} {Thread : Type v} {Element : Type w}
variable [DecidableEq Task] [DecidableEq Thread] [Inhabited Element]

/-! ### The FIFO refinement -/

theorem Chan.represents_of_reachable {capacity : Nat} (positive : 0 < capacity)
    {state : Chan.State Task Element}
    (reached : ReachableBy Chan.step Chan.KeepsOpen (Chan.State.new capacity) state) :
    state.queue.ring.capacity = capacity ∧
      state.queue.ring.Represents state.queue.sent state.queue.received := by
  refine ReachableBy.invariant (fun state => state.queue.ring.capacity = capacity ∧
      state.queue.ring.Represents state.queue.sent state.queue.received) ?_
    (fun before action after holds keepsOpen stepped => ?_) reached
  · exact ⟨rfl, Ring.Represents.empty capacity positive⟩
  · obtain ⟨task, effect⟩ := Chan.effect_of_step keepsOpen stepped
    exact ⟨effect.capacity.trans holds.1, effect.represents holds.2⟩

theorem ArrayBlockingQueue.represents_of_reachable {capcity : Nat} (positive : 0 < capcity)
    {state : ArrayBlockingQueue.State Thread Element}
    (reached : Reachable ArrayBlockingQueue.step (ArrayBlockingQueue.State.new capcity) state) :
    state.ring.capacity = capcity ∧ state.ring.Represents state.sent state.received := by
  refine Reachable.invariant (fun state => state.ring.capacity = capcity ∧
      state.ring.Represents state.sent state.received) ?_
    (fun before action after holds stepped => ?_) reached
  · exact ⟨rfl, Ring.Represents.empty capcity positive⟩
  · obtain ⟨thread, effect | leak⟩ := ArrayBlockingQueue.effect_or_leak stepped
    · exact ⟨effect.capacity.trans holds.1, effect.represents holds.2⟩
    · exact ⟨(congrArg Ring.capacity leak.ring_eq).trans holds.1, leak.represents holds.2⟩

/-- Under every interleaving of any number of parties, the channel (while it is not closed)
and the array queue are bounded FIFO queues. A new one is empty, with everybody outside. In every
reachable state the representation is sound and the live slots hold what was sent and not yet
received, in order. And every step from such a state is a send, a receive or nothing to the FIFO
queue of that capacity, and serves the parties as that queue does: an element goes in for a party
that asked to put it in, the oldest element goes to a party that asked for one, and a refusal to a
party whose operation may be refused then. -/
theorem queues_refine_bounded_fifo (capacity : Nat) (positive : 0 < capacity) :
    ((Chan.State.new capacity : Chan.State Task Element).queue.ring.contents = [] ∧
      (∀ task, (Chan.State.new capacity : Chan.State Task Element).queue.standing Chan.Pc.stands
        task = .outside none) ∧
      ∀ state : Chan.State Task Element,
        ReachableBy Chan.step Chan.KeepsOpen (Chan.State.new capacity) state →
          RefinesFifo capacity state.queue ∧
            ∀ action after, Chan.KeepsOpen state action → Chan.step state action = some after →
              Ring.FifoStep capacity state.queue.ring.contents after.queue.ring.contents ∧
                Served Chan.service Chan.Pc.stands state.queue after.queue) ∧
      (ArrayBlockingQueue.State.new capacity :
          ArrayBlockingQueue.State Thread Element).ring.contents = [] ∧
        (∀ thread, (ArrayBlockingQueue.State.new capacity :
          ArrayBlockingQueue.State Thread Element).standing ArrayBlockingQueue.Pc.stands thread =
            .outside none) ∧
        ∀ state : ArrayBlockingQueue.State Thread Element,
          Reachable ArrayBlockingQueue.step (ArrayBlockingQueue.State.new capacity) state →
            RefinesFifo capacity state ∧
              ∀ action after, ArrayBlockingQueue.step state action = some after →
                Ring.FifoStep capacity state.ring.contents after.ring.contents ∧
                  Served ArrayBlockingQueue.service ArrayBlockingQueue.Pc.stands state after := by
  refine ⟨⟨rfl, fun _ => rfl, ?_⟩, rfl, fun _ => rfl, ?_⟩
  · intro state reached
    obtain ⟨sameCapacity, represents⟩ := Chan.represents_of_reachable positive reached
    refine ⟨refinesFifo_of_represents sameCapacity represents, ?_⟩
    intro action after keepsOpen stepped
    obtain ⟨task, effect⟩ := Chan.effect_of_step keepsOpen stepped
    exact ⟨sameCapacity ▸ effect.fifoStep represents.wf,
      Chan.served_of_step represents.wf keepsOpen stepped⟩
  · intro state reached
    obtain ⟨sameCapacity, represents⟩ :=
      ArrayBlockingQueue.represents_of_reachable positive reached
    refine ⟨refinesFifo_of_represents sameCapacity represents, ?_⟩
    intro action after stepped
    exact ⟨sameCapacity ▸ ArrayBlockingQueue.fifoStep_of_step represents.wf stepped,
      ArrayBlockingQueue.served_of_step represents.wf stepped⟩

/-- On a channel of capacity one, task `true` finds the channel empty and waits, task `false`
sends, and `true` is woken and receives. -/
def rendezvousSchedule : List (Chan.Action Bool Nat) :=
  [.call true .recv, .run true, .run true, .call false (.send 7), .run false, .run false,
    .run false, .run true, .run true, .run true, .call false (.send 8), .run false, .run false]

theorem queues_refine_bounded_fifo_rendezvous :
    ∃ (channel : Chan.State Bool Nat) (queue : ArrayBlockingQueue.State Bool Nat),
      runBy Chan.step Chan.KeepsOpen (Chan.State.new 1) rendezvousSchedule = some channel ∧
        run ArrayBlockingQueue.step (ArrayBlockingQueue.State.new 1)
          ArrayBlockingQueue.handoverSchedule = some queue ∧
        RefinesFifo 1 channel.queue ∧ channel.queue.sent = [7, 8] ∧
        channel.queue.received = [7] ∧ RefinesFifo 1 queue ∧ queue.received = [7] := by
  have refines := @queues_refine_bounded_fifo Bool Bool Nat _ _ _ 1 (by decide)
  refine ⟨_, _, rfl, rfl, ?_, rfl, rfl, ?_, rfl⟩
  · exact (refines.1.2.2 _ (reachableBy_of_runBy
      (show runBy Chan.step Chan.KeepsOpen _ rendezvousSchedule = some _ from rfl))).1
  · exact (refines.2.2.2 _ (reachable_of_run
      (show run ArrayBlockingQueue.step _ ArrayBlockingQueue.handoverSchedule = some _ from rfl))).1

/-! ### No missed wake-up -/

theorem Chan.noMissedWakeup_of_reachable {capacity : Nat} {state : Chan.State Task Element}
    (reached : ReachableBy Chan.step Chan.KeepsOpen (Chan.State.new capacity) state) :
    state.queue.ring.capacity = capacity ∧ NoMissedWakeup Chan.roles state.queue := by
  refine ReachableBy.invariant (fun state => state.queue.ring.capacity = capacity ∧
      NoMissedWakeup Chan.roles state.queue) ?_
    (fun before action after holds keepsOpen stepped => ?_) reached
  · exact ⟨rfl, fun _ waits => (by cases waits), fun _ waits => (by cases waits)⟩
  · obtain ⟨task, effect⟩ := Chan.effect_of_step keepsOpen stepped
    exact ⟨effect.capacity.trans holds.1, effect.noMissedWakeup holds.2⟩

theorem ArrayBlockingQueue.noMissedWakeup_of_reachable {capcity : Nat}
    {state : ArrayBlockingQueue.State Thread Element}
    (reached : Reachable ArrayBlockingQueue.step (ArrayBlockingQueue.State.new capcity) state) :
    state.ring.capacity = capcity ∧ NoMissedWakeup ArrayBlockingQueue.roles state := by
  refine Reachable.invariant (fun state => state.ring.capacity = capcity ∧
      NoMissedWakeup ArrayBlockingQueue.roles state) ?_
    (fun before action after holds stepped => ?_) reached
  · exact ⟨rfl, fun _ waits => (by cases waits), fun _ waits => (by cases waits)⟩
  · obtain ⟨thread, effect | leak⟩ := ArrayBlockingQueue.effect_or_leak stepped
    · exact ⟨effect.capacity.trans holds.1, effect.noMissedWakeup holds.2⟩
    · exact ⟨(congrArg Ring.capacity leak.ring_eq).trans holds.1, leak.noMissedWakeup holds.2⟩

/-- In every reachable state of either queue (the channel not closed), a party that waits
un-notified on `notEmpty` sees an empty queue, and one that waits un-notified on `notFull` a
full one. -/
theorem queues_miss_no_wakeup (capacity : Nat) :
    (∀ state : Chan.State Task Element,
      ReachableBy Chan.step Chan.KeepsOpen (Chan.State.new capacity) state →
        (∀ task, state.queue.pc task = .recvWait ∨ state.queue.pc task = .recvTillWait →
          state.queue.ring.count = 0) ∧
        ∀ task element, state.queue.pc task = .sendWait element ∨
          state.queue.pc task = .sendTillWait element → state.queue.ring.count = capacity) ∧
      ∀ state : ArrayBlockingQueue.State Thread Element,
        Reachable ArrayBlockingQueue.step (ArrayBlockingQueue.State.new capacity) state →
          (∀ thread, state.pc thread = .takeWait → state.ring.count = 0) ∧
          ∀ thread element, state.pc thread = .putWait element →
            state.ring.count = capacity := by
  constructor
  · intro state reached
    obtain ⟨sameCapacity, wakeups⟩ := Chan.noMissedWakeup_of_reachable reached
    constructor
    · intro task waits
      refine wakeups.item task ?_
      rcases waits with pc | pc
      · rw [pc]
        rfl
      · rw [pc]
        rfl
    · intro task element waits
      refine (wakeups.space task ?_).trans sameCapacity
      rcases waits with pc | pc
      · rw [pc]
        rfl
      · rw [pc]
        rfl
  · intro state reached
    obtain ⟨sameCapacity, wakeups⟩ := ArrayBlockingQueue.noMissedWakeup_of_reachable reached
    constructor
    · intro thread pc
      refine wakeups.item thread ?_
      rw [pc]
      rfl
    · intro thread element pc
      refine (wakeups.space thread ?_).trans sameCapacity
      rw [pc]
      rfl

/-- A receiver waits on an empty channel of capacity one, a send wakes it, and a timed send
finds the channel full and waits before the receiver has run. -/
def waitingSchedule : List (Chan.Action Bool Nat) :=
  [.call true .recv, .run true, .run true, .call false (.send 7), .run false, .run false,
    .run false, .call false (.sendTill 8), .run false, .run false]

/-- Two `put`s on an array queue of capacity one. -/
def blockedPut : List (ArrayBlockingQueue.Action Bool Nat) :=
  [.call false (.put 7), .run false, .run false, .run false, .call false (.put 8), .run false,
    .run false]

theorem queues_miss_no_wakeup_blocked :
    ∃ (channel : Chan.State Bool Nat) (queue : ArrayBlockingQueue.State Bool Nat),
      runBy Chan.step Chan.KeepsOpen (Chan.State.new 1) waitingSchedule = some channel ∧
        run ArrayBlockingQueue.step (ArrayBlockingQueue.State.new 1) blockedPut = some queue ∧
        channel.queue.pc false = .sendTillWait 8 ∧ channel.queue.pc true = .recvLock ∧
        channel.queue.ring.count = 1 ∧ queue.pc false = .putWait 8 ∧ queue.ring.count = 1 := by
  have wakeups := @queues_miss_no_wakeup Bool Bool Nat _ _ _ 1
  refine ⟨_, _, rfl, rfl, rfl, rfl, ?_, rfl, ?_⟩
  · exact (wakeups.1 _ (reachableBy_of_runBy
      (show runBy Chan.step Chan.KeepsOpen _ waitingSchedule = some _ from rfl))).2 false 8
        (Or.inr rfl)
  · exact (wakeups.2 _ (reachable_of_run
      (show run ArrayBlockingQueue.step _ blockedPut = some _ from rfl))).2 false 8 rfl

end Nattan
