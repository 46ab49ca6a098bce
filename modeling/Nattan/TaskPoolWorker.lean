/-
This file is the invariant of the pool as seen from one worker, and how each kind of
step keeps it.

A worker that is idle, or that the boss has chosen, has an empty channel until the
boss's `enqueue`. A worker that gives up has tested its channel after the last point
at which the boss could run, and between that test and its end it does not yield. So
when the boss deals with a worker, the worker is looking for a runner, outside the
mutex of its channel.
-/

import Nattan.TaskPool

namespace Nattan.TaskPool

open Monitor

universe u

variable {Runner : Type u}

/-! ### The invariant of one worker -/

/-- The channel is a sound monitor with one slot. -/
structure ChanOk (queue : Chan.Queue Party Runner) : Prop where
  exclusive : Exclusive Chan.roles queue
  ownerInside : OwnerInside Chan.roles queue
  represents : queue.ring.Represents queue.sent queue.received
  capacity : queue.ring.capacity = 1

/-- A worker that is about to look for a runner or is looking for one. -/
def Worker.seeks (worker : Worker Runner) : Prop :=
  worker.pc = .loop ∨ worker.pc = .receiving ∧ (worker.fChan.queue.pc .worker).seeking = true

/-- A worker at a point where its coroutine may have yielded. -/
def Worker.atYield (worker : Worker Runner) : Prop :=
  worker.pc = .loop ∨ worker.pc = .deleted ∨ (∃ runner, worker.pc = .running runner) ∨
    worker.pc = .receiving ∧ (worker.fChan.queue.pc .worker).seeking = true ∧
      (worker.fChan.queue.pc .worker).holds = false

/-- What holds of a worker, given whether it has been created, is idle and is running, how the
boss concerns it, and what has been dispatched to it and executed by it. -/
structure WorkerOk (worker : Worker Runner) (created idle running : Prop) (aim : Aim Runner)
    (dispatched executed : List Runner) : Prop where
  chanOk : ChanOk worker.fChan.queue
  outside : worker.pc ≠ .receiving → (worker.fChan.queue.pc .worker).isIdle = true
  inside : worker.pc = .receiving → (worker.fChan.queue.pc .worker).seeking = true ∨
    worker.fChan.queue.pc .worker = .unlock .refused ∨
      ∃ runner, worker.fChan.queue.pc .worker = .unlock (.item runner)
  bossOutside : (∀ runner, aim ≠ .inside runner) → (worker.fChan.queue.pc .boss).isIdle = true
  bossInside : ∀ runner, aim = .inside runner →
    worker.fChan.queue.pc .boss = .sendLock runner ∨
      worker.fChan.queue.pc .boss = .sendLocked runner ∨
        worker.fChan.queue.pc .boss = .unlock (.accepted runner)
  runs : running → created
  atYield : ¬ running → worker.atYield
  busy : ¬ worker.seeks → worker.fChan.queue.ring.count = 0 ∧ aim = .away
  aimed : aim ≠ .away → created ∧ ¬ idle ∧
    (aim.inFlight (worker.fChan.queue.pc .boss) ≠ [] → worker.fChan.queue.ring.count = 0)
  idles : idle → created ∧ aim = .away ∧ worker.fChan.queue.ring.count = 0 ∧
    (worker.pc = .loop ∨ worker.pc = .receiving ∨ worker.pc = .remove) ∧ worker.inHand = []
  uncreated : ¬ created → worker.pc = .loop ∧ worker.fChan.queue.ring.count = 0
  received : worker.fChan.queue.received = executed ++ worker.inHand
  sent : dispatched = worker.fChan.queue.sent ++ aim.inFlight (worker.fChan.queue.pc .boss)

theorem Worker.not_seeks {worker : Worker Runner} (notLoop : worker.pc ≠ .loop)
    (notReceiving : worker.pc ≠ .receiving) : ¬ worker.seeks := by
  rintro (loop | ⟨receiving, -⟩)
  · exact notLoop loop
  · exact notReceiving receiving

/-! ### The channel of a worker -/

namespace ChanOk

variable {before after : Chan.Queue Party Runner}

theorem effect (chanOk : ChanOk before) {party : Party}
    (effect : Effect Chan.roles before party after) : ChanOk after where
  exclusive := effect.exclusive chanOk.exclusive
  ownerInside := effect.ownerInside chanOk.ownerInside
  represents := effect.represents chanOk.represents
  capacity := effect.capacity.trans chanOk.capacity

theorem new [Inhabited Runner] :
    ChanOk (Chan.State.new chanSize : Chan.State Party Runner).queue where
  exclusive _ held := by cases held
  ownerInside _ owns := by cases owns
  represents := .empty chanSize (Nat.zero_lt_one)
  capacity := rfl

/-- A single slot is free again once its element is taken out. -/
theorem count_dequeue (chanOk : ChanOk before) (nonempty : before.ring.isEmpty = false) :
    (Chan.dequeue before .worker).ring.count = 0 := by
  have some := Ring.count_pos nonempty
  have atMost := chanOk.represents.wf.count_le
  rw [chanOk.capacity] at atMost
  show before.ring.count - 1 = 0
  omega

end ChanOk

/-! ### A step of the worker -/

namespace Worker

variable {worker : Worker Runner}

theorem inHand_of_seeking (receiving : worker.pc = .receiving)
    (seeking : (worker.fChan.queue.pc .worker).seeking = true) : worker.inHand = [] := by
  rw [inHand, receiving]
  cases pc : worker.fChan.queue.pc .worker with
  | unlock result =>
    rw [pc] at seeking
    cases seeking
  | _ => rfl

theorem inHand_of_seeks (seeks : worker.seeks) : worker.inHand = [] := by
  rcases seeks with loop | ⟨receiving, seeking⟩
  · rw [inHand, loop]
  · exact inHand_of_seeking receiving seeking

end Worker

namespace WorkerOk

variable {worker : Worker Runner} {created idle : Prop} {dispatched executed : List Runner}

/-- A coroutine that has been resumed. -/
theorem resume {running : Prop} {aim : Aim Runner}
    (ok : WorkerOk worker created idle running aim dispatched executed) (present : created) :
    WorkerOk worker created idle True aim dispatched executed :=
  { ok with
    runs := fun _ => present
    atYield := fun waits => absurd trivial waits }

/-- A coroutine that has yielded. -/
theorem yield {aim : Aim Runner}
    (ok : WorkerOk worker created idle True aim dispatched executed) (atYield : worker.atYield) :
    WorkerOk worker created idle False aim dispatched executed :=
  { ok with
    runs := False.elim
    atYield := fun _ => atYield }

theorem bossIdle {running : Prop}
    (ok : WorkerOk worker created idle running .away dispatched executed) :
    (worker.fChan.queue.pc .boss).isIdle = true :=
  ok.bossOutside fun _ => by simp

/-- What a step of a running worker has to leave, the boss being elsewhere. -/
theorem ofRunning (ok : WorkerOk worker created idle True .away dispatched executed)
    {next : Worker Runner} {idleNext : Prop} {executedNext : List Runner}
    (chanOk : ChanOk next.fChan.queue)
    (outside : next.pc ≠ .receiving → (next.fChan.queue.pc .worker).isIdle = true)
    (inside : next.pc = .receiving → (next.fChan.queue.pc .worker).seeking = true ∨
      next.fChan.queue.pc .worker = .unlock .refused ∨
        ∃ runner, next.fChan.queue.pc .worker = .unlock (.item runner))
    (bossIdle : (next.fChan.queue.pc .boss).isIdle = true)
    (busy : ¬ next.seeks → next.fChan.queue.ring.count = 0)
    (idles : idleNext → next.fChan.queue.ring.count = 0 ∧
      (next.pc = .loop ∨ next.pc = .receiving ∨ next.pc = .remove) ∧ next.inHand = [])
    (received : next.fChan.queue.received = executedNext ++ next.inHand)
    (sent : next.fChan.queue.sent = worker.fChan.queue.sent) :
    WorkerOk next created idleNext True .away dispatched executedNext where
  chanOk := chanOk
  outside := outside
  inside := inside
  bossOutside _ := bossIdle
  bossInside _ aims := by cases aims
  runs := ok.runs
  atYield waits := absurd trivial waits
  busy notSeeking := ⟨busy notSeeking, rfl⟩
  aimed aimed := absurd rfl aimed
  idles isIdle := ⟨ok.runs trivial, rfl, idles isIdle⟩
  uncreated missing := absurd (ok.runs trivial) missing
  received := received
  sent := by
    rw [ok.sent, sent]
    rfl

/-- The steps that touch nothing but the program counter of the worker. -/
theorem move (ok : WorkerOk worker created idle True .away dispatched executed)
    (outside : worker.pc ≠ .receiving) {pc : WorkerPc Runner} {idleNext : Prop}
    {executedNext : List Runner} (notReceiving : pc ≠ .receiving)
    (empty : worker.fChan.queue.ring.count = 0) (idles : idleNext → pc = .loop ∨ pc = .remove)
    (received : executed ++ worker.inHand = executedNext ++ Worker.inHand ⟨pc, worker.fChan⟩) :
    WorkerOk ⟨pc, worker.fChan⟩ created idleNext True .away dispatched executedNext := by
  refine ok.ofRunning ok.chanOk (fun _ => ok.outside outside)
    (fun wrong => absurd wrong notReceiving) ok.bossIdle (fun _ => empty) (fun isIdle => ?_)
    (ok.received.trans received) rfl
  rcases idles isIdle with rfl | rfl
  · exact ⟨empty, Or.inl rfl, rfl⟩
  · exact ⟨empty, Or.inr (Or.inr rfl), rfl⟩

/-- The worker looks for a runner and has neither taken one nor given up. -/
theorem seek (ok : WorkerOk worker created idle True .away dispatched executed)
    (seeks : worker.seeks) {pc : Chan.Pc Runner} {owner : Option Party}
    (seeking : pc.seeking = true)
    (chanOk : ChanOk { worker.fChan.queue.goto .worker pc with owner }) :
    WorkerOk ⟨.receiving,
        { worker.fChan with queue := { worker.fChan.queue.goto .worker pc with owner } }⟩
      created idle True .away dispatched executed := by
  have seeksStill : ((worker.fChan.queue.goto .worker pc).pc .worker).seeking = true := by
    rw [State.goto_pc_self]
    exact seeking
  have nothing := Worker.inHand_of_seeks seeks
  refine ok.ofRunning chanOk (fun different => absurd rfl different) (fun _ => Or.inl seeksStill) ?_
    (fun notSeeking => absurd (Or.inr ⟨rfl, seeksStill⟩) notSeeking) (fun isIdle => ?_) ?_ rfl
  · show ((worker.fChan.queue.goto .worker pc).pc .boss).isIdle = true
    rw [State.goto_pc_of_ne _ _ (by decide)]
    exact ok.bossIdle
  · obtain ⟨-, -, empty, -, -⟩ := ok.idles isIdle
    exact ⟨empty, Or.inr (Or.inl rfl), Worker.inHand_of_seeking rfl seeksStill⟩
  · rw [Worker.inHand_of_seeking rfl seeksStill, ← nothing]
    exact ok.received

/-- At the end of a timed wait the channel is empty: the worker gives up. -/
theorem giveUp (ok : WorkerOk worker created idle True .away dispatched executed)
    (receiving : worker.pc = .receiving)
    (seeking : (worker.fChan.queue.pc .worker).seeking = true)
    (empty : worker.fChan.queue.ring.isEmpty = true)
    (chanOk : ChanOk (worker.fChan.queue.goto .worker (.unlock .refused))) :
    WorkerOk ⟨.receiving,
        { worker.fChan with queue := worker.fChan.queue.goto .worker (.unlock .refused) }⟩
      created idle True .away dispatched executed := by
  have workerPc : (worker.fChan.queue.goto .worker (.unlock .refused)).pc .worker =
      .unlock .refused := State.goto_pc_self _ _ _
  have none : worker.fChan.queue.ring.count = 0 := (Ring.isEmpty_iff _).mp empty
  have inHand : Worker.inHand ⟨.receiving,
      { worker.fChan with queue := worker.fChan.queue.goto .worker (.unlock .refused) }⟩ = [] := by
    rw [Worker.inHand, workerPc]
  refine ok.ofRunning chanOk (fun different => absurd rfl different)
    (fun _ => Or.inr (Or.inl workerPc)) ?_ (fun _ => none)
    (fun _ => ⟨none, Or.inr (Or.inl rfl), inHand⟩) ?_ rfl
  · rw [State.goto_pc_of_ne _ _ (by decide)]
    exact ok.bossIdle
  · rw [inHand, ← Worker.inHand_of_seeking receiving seeking]
    exact ok.received

/-- The worker takes the runner out of its channel. -/
theorem take (ok : WorkerOk worker created idle True .away dispatched executed)
    (receiving : worker.pc = .receiving)
    (seeking : (worker.fChan.queue.pc .worker).seeking = true)
    (nonempty : worker.fChan.queue.ring.isEmpty = false)
    (chanOk : ChanOk (Chan.dequeue worker.fChan.queue .worker)) :
    WorkerOk ⟨.receiving, { worker.fChan with queue := Chan.dequeue worker.fChan.queue .worker }⟩
      created idle True .away dispatched executed := by
  have workerPc : (Chan.dequeue worker.fChan.queue .worker).pc .worker =
      .unlock (.item worker.fChan.queue.ring.dequeue.1) := State.dequeue_pc_self _ _ _ _
  refine ok.ofRunning chanOk (fun different => absurd rfl different)
    (fun _ => Or.inr (Or.inr ⟨_, workerPc⟩)) ?_ (fun _ => ok.chanOk.count_dequeue nonempty)
    (fun isIdle => ?_) ?_ rfl
  · show ((Chan.dequeue worker.fChan.queue .worker).pc .boss).isIdle = true
    rw [Chan.dequeue, State.dequeue_pc_of_ne _ _ (by decide)]
    exact Chan.isIdle_signalSpace ok.bossIdle
  · obtain ⟨-, -, none, -, -⟩ := ok.idles isIdle
    exact absurd none (Nat.ne_of_gt (Ring.count_pos nonempty))
  · rw [Worker.inHand, workerPc]
    show worker.fChan.queue.received ++ [worker.fChan.queue.ring.dequeue.1] = _
    rw [ok.received, Worker.inHand_of_seeking receiving seeking, List.append_nil]

/-- The unlock at the end of `recvTill` or `recv`. -/
theorem returned (ok : WorkerOk worker created idle True .away dispatched executed)
    (receiving : worker.pc = .receiving) {result : Result Runner} {pc : WorkerPc Runner}
    (unlocks : worker.fChan.queue.pc .worker = .unlock result)
    (next : result = .refused ∧ pc = .remove ∨
      ∃ runner, result = .item runner ∧ pc = .received runner)
    (chanOk : ChanOk (worker.fChan.queue.release .worker (.idle (some result)))) :
    WorkerOk ⟨pc, { worker.fChan with
        queue := worker.fChan.queue.release .worker (.idle (some result)) }⟩
      created idle True .away dispatched executed := by
  have empty : worker.fChan.queue.ring.count = 0 := by
    refine (ok.busy ?_).1
    rintro (loop | ⟨-, seeking⟩)
    · rw [loop] at receiving
      cases receiving
    · rw [unlocks] at seeking
      cases seeking
  have inHand : Worker.inHand ⟨pc, { worker.fChan with
      queue := worker.fChan.queue.release .worker (.idle (some result)) }⟩ = worker.inHand := by
    rcases next with ⟨rfl, rfl⟩ | ⟨runner, rfl, rfl⟩
    · simp only [Worker.inHand, receiving, unlocks]
    · simp only [Worker.inHand, receiving, unlocks]
  refine ok.ofRunning chanOk (fun _ => ?_) (fun wrong => ?_) ?_ (fun _ => empty)
    (fun isIdle => ?_) ?_ rfl
  · rw [State.release_pc_self]
    rfl
  · rcases next with ⟨-, rfl⟩ | ⟨runner, -, rfl⟩
    · cases wrong
    · cases wrong
  · rw [State.release_pc_of_ne _ _ (by decide)]
    exact ok.bossIdle
  · obtain ⟨-, -, -, -, nothing⟩ := ok.idles isIdle
    rcases next with ⟨-, rfl⟩ | ⟨runner, rfl, -⟩
    · exact ⟨empty, Or.inr (Or.inr rfl), inHand.trans nothing⟩
    · simp only [Worker.inHand, receiving, unlocks] at nothing
      cases nothing
  · rw [inHand]
    exact ok.received

/-! ### A timer and the steps of the boss -/

/-- The timer of the worker's wait expires. -/
theorem timer {running : Prop} {aim : Aim Runner}
    (ok : WorkerOk worker created idle running aim dispatched executed) {next : Chan.Pc Runner}
    (moves : (worker.fChan.queue.pc .worker).timer = some next)
    (chanOk : ChanOk (worker.fChan.queue.goto .worker next)) :
    WorkerOk { worker with
        fChan := { worker.fChan with queue := worker.fChan.queue.goto .worker next } }
      created idle running aim dispatched executed := by
  have receiving : worker.pc = .receiving := by
    by_contra elsewhere
    have outside := ok.outside elsewhere
    cases pc : worker.fChan.queue.pc .worker with
    | idle last =>
      rw [pc] at moves
      cases moves
    | _ =>
      rw [pc] at outside
      cases outside
  have seeking : (worker.fChan.queue.pc .worker).seeking = true := by
    rcases ok.inside receiving with seeking | refused | ⟨runner, item⟩
    · exact seeking
    · rw [refused] at moves
      cases moves
    · rw [item] at moves
      cases moves
  obtain ⟨seekingNext, notHolding⟩ := Chan.timer_of_seeking seeking moves
  have workerPc : (worker.fChan.queue.goto .worker next).pc .worker = next :=
    State.goto_pc_self _ _ _
  have bossPc : (worker.fChan.queue.goto .worker next).pc .boss = worker.fChan.queue.pc .boss :=
    State.goto_pc_of_ne _ _ (by decide)
  have seeksStill : ((worker.fChan.queue.goto .worker next).pc .worker).seeking = true := by
    rw [workerPc]
    exact seekingNext
  have inHand := Worker.inHand_of_seeking receiving seeking
  exact {
    chanOk := chanOk
    outside := fun elsewhere => absurd receiving elsewhere
    inside := fun _ => Or.inl seeksStill
    bossOutside := by
      rw [bossPc]
      exact ok.bossOutside
    bossInside := by
      rw [bossPc]
      exact ok.bossInside
    runs := ok.runs
    atYield := fun _ => by
      refine Or.inr (Or.inr (Or.inr ⟨receiving, seeksStill, ?_⟩))
      rw [workerPc]
      exact notHolding
    busy := fun notSeeking => absurd (Or.inr ⟨receiving, seeksStill⟩) notSeeking
    aimed := by
      rw [bossPc]
      exact ok.aimed
    idles := fun isIdle => by
      obtain ⟨present, away, empty, pc, -⟩ := ok.idles isIdle
      exact ⟨present, away, empty, pc, Worker.inHand_of_seeking receiving seeksStill⟩
    uncreated := ok.uncreated
    received := by
      refine ok.received.trans (congrArg (executed ++ ·) ?_)
      rw [inHand]
      exact Eq.symm (Worker.inHand_of_seeking receiving seeksStill)
    sent := by
      rw [bossPc]
      exact ok.sent }

/-- An idle worker that is not running looks for a runner. -/
theorem seeks_of_idle (ok : WorkerOk worker created True False .away dispatched executed) :
    worker.seeks := by
  obtain ⟨-, -, -, pc, -⟩ := ok.idles trivial
  rcases ok.atYield id with loop | deleted | ⟨runner, runs⟩ | ⟨receiving, seeking, -⟩
  · exact Or.inl loop
  · rw [deleted] at pc
    simp at pc
  · rw [runs] at pc
    simp at pc
  · exact Or.inr ⟨receiving, seeking⟩

/-- The boss chooses the worker. -/
theorem aimAt (ok : WorkerOk worker created idle False .away dispatched executed)
    (seeks : worker.seeks) (empty : worker.fChan.queue.ring.count = 0) (runner : Runner) :
    WorkerOk worker True False False (.before runner) (dispatched ++ [runner]) executed where
  chanOk := ok.chanOk
  outside := ok.outside
  inside := ok.inside
  bossOutside _ := ok.bossIdle
  bossInside _ aims := by cases aims
  runs := False.elim
  atYield := ok.atYield
  busy notSeeking := absurd seeks notSeeking
  aimed _ := ⟨trivial, id, fun _ => empty⟩
  idles := False.elim
  uncreated missing := absurd trivial missing
  received := ok.received
  sent := by
    rw [ok.sent]
    simp [Aim.inFlight]

variable {aim : Aim Runner} {runner : Runner}

/-- A worker that the boss is dealing with looks for a runner. -/
theorem seeks_of_aimed (ok : WorkerOk worker created idle False aim dispatched executed)
    (aimed : aim ≠ .away) : worker.seeks := by
  by_contra notSeeking
  exact aimed (ok.busy notSeeking).2

/-- What a step of the boss on the channel of the worker it has chosen has to leave. The worker
has yielded and at most been signalled. -/
theorem ofAimed (ok : WorkerOk worker created idle False aim dispatched executed)
    (aimed : aim ≠ .away) {queue : Chan.Queue Party Runner} {aimNext : Aim Runner}
    (workerPc : queue.pc .worker = worker.fChan.queue.pc .worker ∨
      queue.pc .worker = (worker.fChan.queue.pc .worker).signalItem)
    (chanOk : ChanOk queue)
    (bossOutside : (∀ runner, aimNext ≠ .inside runner) → (queue.pc .boss).isIdle = true)
    (bossInside : ∀ runner, aimNext = .inside runner → queue.pc .boss = .sendLock runner ∨
      queue.pc .boss = .sendLocked runner ∨ queue.pc .boss = .unlock (.accepted runner))
    (empty : aimNext.inFlight (queue.pc .boss) ≠ [] → queue.ring.count = 0)
    (received : queue.received = worker.fChan.queue.received)
    (sent : queue.sent ++ aimNext.inFlight (queue.pc .boss) =
      worker.fChan.queue.sent ++ aim.inFlight (worker.fChan.queue.pc .boss)) :
    WorkerOk { worker with fChan := { worker.fChan with queue } } created idle False aimNext
      dispatched executed := by
  obtain ⟨present, notIdle, -⟩ := ok.aimed aimed
  have idleSame : (worker.fChan.queue.pc .worker).isIdle = true →
      (queue.pc .worker).isIdle = true := by
    intro outside
    rcases workerPc with same | signalled
    · rw [same]
      exact outside
    · rw [signalled]
      exact Chan.isIdle_signalItem outside
  have seekingSame : (queue.pc .worker).seeking = (worker.fChan.queue.pc .worker).seeking := by
    rcases workerPc with same | signalled
    · rw [same]
    · rw [signalled, Chan.seeking_signalItem]
  have holdsSame : (queue.pc .worker).holds = (worker.fChan.queue.pc .worker).holds := by
    rcases workerPc with same | signalled
    · rw [same]
    · rw [signalled]
      exact Chan.roles.holds_signalItem _
  have seeks : Worker.seeks { worker with fChan := { worker.fChan with queue } } := by
    rw [Worker.seeks, seekingSame]
    exact ok.seeks_of_aimed aimed
  exact {
    chanOk := chanOk
    outside := fun elsewhere => idleSame (ok.outside elsewhere)
    inside := fun receiving => by
      rcases seeks with loop | ⟨-, seeking⟩
      · exact absurd (receiving.symm.trans loop) (by simp)
      · exact Or.inl seeking
    bossOutside := bossOutside
    bossInside := bossInside
    runs := False.elim
    atYield := fun _ => by
      rw [Worker.atYield, seekingSame, holdsSame]
      exact ok.atYield id
    busy := fun notSeeking => absurd seeks notSeeking
    aimed := fun _ => ⟨present, notIdle, empty⟩
    idles := fun isIdle => absurd isIdle notIdle
    uncreated := fun missing => absurd present missing
    received := by
      rw [Worker.inHand_of_seeks seeks, ← Worker.inHand_of_seeks (ok.seeks_of_aimed aimed)]
      exact received.trans ok.received
    sent := ok.sent.trans sent.symm }

/-- The boss enters `send` or locks the mutex there. -/
theorem approach (ok : WorkerOk worker created idle False aim dispatched executed)
    (aims : aim.inFlight (worker.fChan.queue.pc .boss) = [runner]) {pc : Chan.Pc Runner}
    {owner : Option Party} (next : pc = .sendLock runner ∨ pc = .sendLocked runner)
    (chanOk : ChanOk { worker.fChan.queue.goto .boss pc with owner }) :
    WorkerOk { worker with
        fChan := { worker.fChan with queue := { worker.fChan.queue.goto .boss pc with owner } } }
      created idle False (.inside runner) dispatched executed := by
  have aimed : aim ≠ .away := by
    rintro rfl
    cases aims
  have bossPc : (worker.fChan.queue.goto .boss pc).pc .boss = pc := State.goto_pc_self _ _ _
  have workerPc : (worker.fChan.queue.goto .boss pc).pc .worker = worker.fChan.queue.pc .worker :=
    State.goto_pc_of_ne _ _ (by decide)
  refine ok.ofAimed aimed (Or.inl workerPc) chanOk
    (fun elsewhere => absurd rfl (elsewhere runner)) ?_ (fun _ => ?_) rfl ?_
  · rintro _ ⟨⟩
    exact next.imp bossPc.trans fun locked => Or.inl (bossPc.trans locked)
  · exact (ok.aimed aimed).2.2 (by simp [aims])
  · rw [aims]
    refine congrArg (worker.fChan.queue.sent ++ ·) ?_
    show (Aim.inside runner).inFlight ((worker.fChan.queue.goto .boss pc).pc .boss) = [runner]
    rw [bossPc]
    rcases next with rfl | rfl
    · rfl
    · rfl

/-- The boss finds the mutex free: the worker does not hold it, having yielded. -/
theorem mutexFree (ok : WorkerOk worker created idle False aim dispatched executed)
    (bossPc : worker.fChan.queue.pc .boss = .sendLock runner) :
    worker.fChan.queue.owner = none := by
  cases owner : worker.fChan.queue.owner with
  | none => rfl
  | some party =>
    have held : (worker.fChan.queue.pc party).holds = true := ok.chanOk.ownerInside party owner
    cases party with
    | boss =>
      rw [bossPc] at held
      cases held
    | worker =>
      have outside : worker.pc ≠ .receiving → False := by
        intro elsewhere
        have idles := ok.outside elsewhere
        cases pc : worker.fChan.queue.pc .worker with
        | idle last =>
          rw [pc] at held
          cases held
        | _ =>
          rw [pc] at idles
          cases idles
      rcases ok.atYield id with loop | deleted | ⟨_, runs⟩ | ⟨-, -, notHeld⟩
      · exact (outside (by simp [loop])).elim
      · exact (outside (by simp [deleted])).elim
      · exact (outside (by simp [runs])).elim
      · exact absurd (held.symm.trans notHeld) (by simp)

/-- The boss puts its runner in the channel. -/
theorem enqueue (ok : WorkerOk worker created idle False (.inside runner) dispatched executed)
    (bossPc : worker.fChan.queue.pc .boss = .sendLocked runner)
    (chanOk : ChanOk (Chan.enqueue worker.fChan.queue .boss runner)) :
    WorkerOk { worker with
        fChan := { worker.fChan with queue := Chan.enqueue worker.fChan.queue .boss runner } }
      created idle False (.inside runner) dispatched executed := by
  have bossPcNext : (Chan.enqueue worker.fChan.queue .boss runner).pc .boss =
      .unlock (.accepted runner) := State.enqueue_pc_self _ _ _ _ _
  have workerPc : (Chan.enqueue worker.fChan.queue .boss runner).pc .worker =
      (worker.fChan.queue.pc .worker).signalItem := State.enqueue_pc_of_ne _ _ _ (by decide) _
  refine ok.ofAimed (by simp) (Or.inr workerPc) chanOk
    (fun elsewhere => absurd rfl (elsewhere runner)) ?_ (fun inFlight => ?_) rfl ?_
  · rintro _ ⟨⟩
    exact Or.inr (Or.inr bossPcNext)
  · rw [bossPcNext] at inFlight
    exact absurd rfl inFlight
  · rw [bossPcNext, bossPc]
    exact List.append_nil _

/-- `send` returns. -/
theorem sent_return (ok : WorkerOk worker created idle False (.inside runner) dispatched executed)
    (bossPc : worker.fChan.queue.pc .boss = .unlock (.accepted runner))
    (chanOk : ChanOk (worker.fChan.queue.release .boss (.idle (some (.accepted runner))))) :
    WorkerOk { worker with
        fChan := { worker.fChan with
          queue := worker.fChan.queue.release .boss (.idle (some (.accepted runner))) } }
      created idle False .away dispatched executed := by
  refine ok.ofAimed (by simp) (Or.inl (State.release_pc_of_ne _ _ (by decide))) chanOk (fun _ => ?_)
    (fun _ aims => by cases aims) (fun inFlight => absurd rfl inFlight) rfl ?_
  · rw [State.release_pc_self]
    rfl
  · rw [bossPc]
    rfl

end WorkerOk

end Nattan.TaskPool
