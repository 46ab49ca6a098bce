/-
This file proves that the pool of a `TaskThread` keeps what it promises in every run.

A step of the pool concerns the worker that runs, or the worker that the boss deals
with, and leaves every other worker as it is; the steps on the one worker are those of
`Nattan/TaskPoolWorker.lean`. Of the boss it is enough to know that it yields only while
it has no runner.
-/

import Nattan.TaskPoolWorker

namespace Nattan.TaskPool

open Monitor

universe u

variable {Runner : Type u}

/-! ### The invariant -/

/-- The boss yields only while it has no runner, and every worker is as it should be. -/
structure Invariant (state : State Runner) : Prop where
  boss : state.running ≠ some .boss → state.boss = .seeking
  worker : ∀ id, WorkerOk (state.worker id) (id < state.created) (id ∈ state.fIdleWorkers)
    (state.running = some (.worker id)) (state.boss.aim id) (ofWorker id state.dispatched)
    (ofWorker id state.executed)

/-- The invariant gives what is promised. -/
theorem Invariant.dispatchSafe {state : State Runner} (invariant : Invariant state) :
    DispatchSafe state where
  idle id member := by
    obtain ⟨created, -, empty, pc, inHand⟩ := (invariant.worker id).idles member
    refine ⟨⟨created, fun deleted => ?_⟩, fun runner runs => ?_, inHand,
      (Ring.contents_eq_nil_iff _).mpr empty⟩
    · rw [deleted] at pc
      simp at pc
    · rw [runs] at pc
      simp at pc
  target id aimed := by
    refine ⟨((invariant.worker id).aimed aimed).1, fun deleted => ?_⟩
    refine aimed ((invariant.worker id).busy (Worker.not_seeks ?_ ?_)).2
    · simp [deleted]
    · simp [deleted]
  dispatched id := by
    rw [(invariant.worker id).sent, (invariant.worker id).chanOk.represents.history,
      (invariant.worker id).received]
  deleted id deleted := by
    have busy : ¬ (state.worker id).seeks :=
      Worker.not_seeks (by simp [deleted]) (by simp [deleted])
    obtain ⟨empty, away⟩ := (invariant.worker id).busy busy
    have inHand : (state.worker id).inHand = [] := by
      rw [Worker.inHand, deleted]
    rw [(invariant.worker id).sent, (invariant.worker id).chanOk.represents.history,
      (invariant.worker id).received, inHand, (Ring.contents_eq_nil_iff _).mpr empty, away]
    simp [Aim.inFlight]

/-! ### One step of the pool -/

theorem ofWorker_append_self (id : Nat) (log : List (Nat × Runner)) (runner : Runner) :
    ofWorker id (log ++ [(id, runner)]) = ofWorker id log ++ [runner] := by
  simp [ofWorker]

theorem ofWorker_append_of_ne {id other : Nat} (different : other ≠ id)
    (log : List (Nat × Runner)) (runner : Runner) :
    ofWorker other (log ++ [(id, runner)]) = ofWorker other log := by
  simp [ofWorker, different.symm]

theorem State.set_self (state : State Runner) (id : Nat) (worker : Worker Runner) :
    (state.set id worker).worker id = worker :=
  Function.update_self _ _ _

theorem State.set_of_ne (state : State Runner) {id other : Nat} (different : other ≠ id)
    (worker : Worker Runner) : (state.set id worker).worker other = state.worker other :=
  Function.update_of_ne different _ _

namespace Invariant

variable {before : State Runner} {id : Nat}

theorem new [Inhabited Runner] : Invariant (State.new : State Runner) where
  boss _ := rfl
  worker id := {
    chanOk := ChanOk.new
    outside := fun _ => rfl
    inside := fun receiving => by cases receiving
    bossOutside := fun _ => rfl
    bossInside := fun _ aims => by cases aims
    runs := fun runs => by cases runs
    atYield := fun _ => Or.inl rfl
    busy := fun notSeeking => absurd (Or.inl rfl) notSeeking
    aimed := fun aimed => absurd rfl aimed
    idles := fun isIdle => absurd isIdle (Finset.notMem_empty id)
    uncreated := fun _ => ⟨rfl, rfl⟩
    received := rfl
    sent := rfl }

/-- While a worker runs, the boss is elsewhere. -/
theorem ofRunning (invariant : Invariant before) (runs : before.running = some (.worker id)) :
    WorkerOk (before.worker id) (id < before.created) (id ∈ before.fIdleWorkers) True .away
      (ofWorker id before.dispatched) (ofWorker id before.executed) := by
  have seeking := invariant.boss (by simp [runs])
  have ok := invariant.worker id
  rw [seeking, eq_true runs] at ok
  exact ok

/-- While the boss runs, every worker has yielded. -/
theorem ofBossRunning (invariant : Invariant before) (runs : before.running = some .boss)
    (id : Nat) :
    WorkerOk (before.worker id) (id < before.created) (id ∈ before.fIdleWorkers) False
      (before.boss.aim id) (ofWorker id before.dispatched) (ofWorker id before.executed) := by
  have ok := invariant.worker id
  rw [eq_false (show ¬ before.running = some (.worker id) by simp [runs])] at ok
  exact ok

/-- A step of the running worker that concerns no other. -/
theorem keep (invariant : Invariant before) (runs : before.running = some (.worker id))
    {worker : Worker Runner} {fIdleWorkers : Finset Nat} {executed : List (Nat × Runner)}
    (idle : ∀ other, other ≠ id → (other ∈ fIdleWorkers ↔ other ∈ before.fIdleWorkers))
    (others : ∀ other, other ≠ id → ofWorker other executed = ofWorker other before.executed)
    (ok : WorkerOk worker (id < before.created) (id ∈ fIdleWorkers) True .away
      (ofWorker id before.dispatched) (ofWorker id executed)) :
    Invariant { before.set id worker with fIdleWorkers, executed } where
  boss := invariant.boss
  worker other := by
    have seeking := invariant.boss (by simp [runs])
    by_cases same : other = id
    · subst same
      show WorkerOk ((before.set other worker).worker other) _ _
        (before.running = some (.worker other)) (before.boss.aim other) _ _
      rw [State.set_self, eq_true runs, seeking]
      exact ok
    · show WorkerOk ((before.set id worker).worker other) _ (other ∈ fIdleWorkers) _ _ _
        (ofWorker other executed)
      rw [State.set_of_ne _ same, propext (idle other same), others other same]
      exact invariant.worker other

/-- A step that changes nothing but the running worker. -/
theorem keepWorker (invariant : Invariant before) (runs : before.running = some (.worker id))
    {worker : Worker Runner}
    (ok : WorkerOk worker (id < before.created) (id ∈ before.fIdleWorkers) True .away
      (ofWorker id before.dispatched) (ofWorker id before.executed)) :
    Invariant (before.set id worker) :=
  invariant.keep runs (fun _ _ => Iff.rfl) (fun _ _ => rfl) ok

/-- The running worker yields. -/
theorem yield (invariant : Invariant before) (runs : before.running = some (.worker id))
    (atYield : (before.worker id).atYield) : Invariant { before with running := none } where
  boss _ := invariant.boss (by simp [runs])
  worker other := by
    show WorkerOk _ _ _ (none = some (Coroutine.worker other)) _ _ _
    rw [eq_false (show ¬ none = some (Coroutine.worker other) by simp)]
    by_cases same : other = id
    · subst same
      have ok := invariant.worker other
      rw [eq_true runs] at ok
      exact ok.yield atYield
    · have ok := invariant.worker other
      rw [eq_false (show ¬ before.running = some (.worker other) by
        rw [runs]
        rintro ⟨⟩
        exact same rfl)] at ok
      exact ok

/-- A step of the boss that concerns one worker. -/
theorem ofBoss (invariant : Invariant before) (runs : before.running = some .boss)
    {worker : Worker Runner} {created : Nat} {fIdleWorkers : Finset Nat} {boss : BossPc Runner}
    {dispatched : List (Nat × Runner)}
    (exist : ∀ other, other ≠ id → (other < created ↔ other < before.created))
    (idle : ∀ other, other ≠ id → (other ∈ fIdleWorkers ↔ other ∈ before.fIdleWorkers))
    (aim : ∀ other, other ≠ id → boss.aim other = before.boss.aim other)
    (others : ∀ other, other ≠ id → ofWorker other dispatched = ofWorker other before.dispatched)
    (ok : WorkerOk worker (id < created) (id ∈ fIdleWorkers) False (boss.aim id)
      (ofWorker id dispatched) (ofWorker id before.executed)) :
    Invariant { before.set id worker with created, fIdleWorkers, boss, dispatched } where
  boss waits := absurd runs waits
  worker other := by
    by_cases same : other = id
    · subst same
      show WorkerOk ((before.set other worker).worker other) _ _
        (before.running = some (.worker other)) _ _ _
      rw [State.set_self,
        eq_false (show ¬ before.running = some (.worker other) by simp [runs])]
      exact ok
    · show WorkerOk ((before.set id worker).worker other) (other < created)
        (other ∈ fIdleWorkers) _ (boss.aim other) (ofWorker other dispatched) _
      rw [State.set_of_ne _ same, propext (exist other same), propext (idle other same),
        aim other same, others other same]
      exact invariant.worker other

/-- A step inside `recvTill` or `recv`. -/
theorem stepReceiving (invariant : Invariant before) (runs : before.running = some (.worker id))
    (receiving : (before.worker id).pc = .receiving) : Invariant (before.stepReceiving id) := by
  have ok := invariant.ofRunning runs
  rw [State.stepReceiving]
  cases stepped : Chan.step (before.worker id).fChan (.run .worker) with
  | none =>
    refine invariant.yield runs (Or.inr (Or.inr (Or.inr ⟨receiving, ?_⟩)))
    have stuck := Option.map_eq_none_iff.mp stepped
    rcases ok.inside receiving with seeking | refused | ⟨runner, item⟩
    · exact ⟨seeking, Chan.not_holds_of_advance_none seeking stuck⟩
    · simp only [Chan.advance, refused] at stuck
      cases stuck
    · simp only [Chan.advance, item] at stuck
      cases stuck
  | some fChan =>
    obtain ⟨queue, advanced, rfl⟩ := Option.map_eq_some_iff.mp stepped
    have chanOk : ChanOk queue := ok.chanOk.effect (Chan.effect_of_advance advanced)
    rcases ok.inside receiving with seeking | refused | ⟨runner, item⟩
    · obtain ⟨pc, owner, seeks, rfl⟩ | ⟨empty, rfl⟩ | ⟨nonempty, rfl⟩ :=
        Chan.advance_of_seeking seeking advanced
      · have workerPc : ((before.worker id).fChan.queue.goto .worker pc).pc .worker = pc :=
          State.goto_pc_self _ _ _
        have kept := invariant.keepWorker runs (ok.seek (Or.inr ⟨receiving, seeking⟩) seeks chanOk)
        have yields : pc.holds = false →
            Invariant { before.set id ⟨.receiving, { (before.worker id).fChan with
              queue := { (before.worker id).fChan.queue.goto .worker pc with owner } }⟩ with
                running := none } := by
          intro notHolding
          refine kept.yield runs (Or.inr (Or.inr (Or.inr ?_)))
          rw [State.set_self]
          refine ⟨rfl, ?_⟩
          show ((((before.worker id).fChan.queue.goto .worker pc).pc .worker).seeking = true ∧
            (((before.worker id).fChan.queue.goto .worker pc).pc .worker).holds = false)
          rw [workerPc]
          exact ⟨seeks, notHolding⟩
        simp only [workerPc]
        cases pc with
        | recvWait => exact yields rfl
        | recvTillWait => exact yields rfl
        | recvLock => exact kept
        | recvLocked => exact kept
        | recvTillLock => exact kept
        | recvTillLocked => exact kept
        | recvTillResumed fired => exact kept
        | recvTillRelocked fired => exact kept
        | _ => cases seeks
      · have workerPc : ((before.worker id).fChan.queue.goto .worker (.unlock .refused)).pc
            .worker = .unlock .refused := State.goto_pc_self _ _ _
        simp only [workerPc]
        exact invariant.keepWorker runs (ok.giveUp receiving seeking empty chanOk)
      · have workerPc : (Chan.dequeue (before.worker id).fChan.queue .worker).pc .worker =
            .unlock (.item (before.worker id).fChan.queue.ring.dequeue.1) :=
          State.dequeue_pc_self _ _ _ _
        simp only [workerPc]
        exact invariant.keepWorker runs (ok.take receiving seeking nonempty chanOk)
    · obtain rfl := Chan.advance_of_unlock refused advanced
      simp only [State.release_pc_self]
      exact invariant.keepWorker runs
        (ok.returned receiving refused (Or.inl ⟨rfl, rfl⟩) chanOk)
    · obtain rfl := Chan.advance_of_unlock item advanced
      simp only [State.release_pc_self]
      exact invariant.keepWorker runs
        (ok.returned receiving item (Or.inr ⟨runner, rfl, rfl⟩) chanOk)

/-- A step of the running worker outside its channel. -/
theorem move (invariant : Invariant before) (runs : before.running = some (.worker id))
    {here : WorkerPc Runner} (stands : (before.worker id).pc = here) (notLoop : here ≠ .loop)
    (outside : here ≠ .receiving) (pc : WorkerPc Runner) (notReceiving : pc ≠ .receiving)
    (fIdleWorkers : Finset Nat) (executed : List (Nat × Runner))
    (idle : ∀ other, other ≠ id → (other ∈ fIdleWorkers ↔ other ∈ before.fIdleWorkers))
    (others : ∀ other, other ≠ id → ofWorker other executed = ofWorker other before.executed)
    (idles : id ∈ fIdleWorkers → pc = .loop ∨ id ∈ before.fIdleWorkers ∧ here ≠ .remove)
    (received : ofWorker id before.executed ++ (before.worker id).inHand =
      ofWorker id executed ++ Worker.inHand ⟨pc, (before.worker id).fChan⟩) :
    Invariant { before.set id { before.worker id with pc } with fIdleWorkers, executed } := by
  have ok := invariant.ofRunning runs
  subst stands
  refine invariant.keep runs idle others (ok.move outside notReceiving
    (ok.busy (Worker.not_seeks notLoop outside)).1 (fun isIdle => ?_) received)
  rcases idles isIdle with loop | ⟨wasIdle, notRemove⟩
  · exact Or.inl loop
  · obtain ⟨-, -, -, atLoop | atReceiving | atRemove, -⟩ := ok.idles wasIdle
    · exact absurd atLoop notLoop
    · exact absurd atReceiving outside
    · exact absurd atRemove notRemove

/-- A step of `TaskWorker::run`. -/
theorem stepWorker (invariant : Invariant before) (runs : before.running = some (.worker id))
    {timeout : Int} {after : State Runner} (stepped : before.stepWorker timeout id = some after) :
    Invariant after := by
  rw [State.stepWorker] at stepped
  cases pc : (before.worker id).pc with
  | loop =>
    simp only [pc] at stepped
    obtain ⟨fChan, called, rfl⟩ := Option.map_eq_some_iff.mp stepped
    have ok := invariant.ofRunning runs
    have outside := ok.outside (by simp [pc])
    have entry : (Chan.Operation.entry
        (if 0 < timeout then .recvTill else .recv : Chan.Operation Runner)).seeking = true := by
      split <;> rfl
    rw [Chan.step, if_pos outside] at called
    cases called
    exact invariant.keepWorker runs
      (ok.seek (Or.inl pc) entry (ok.chanOk.effect (Chan.effect_of_call _ outside)))
  | receiving =>
    simp only [pc] at stepped
    cases stepped
    exact invariant.stepReceiving runs pc
  | received runner =>
    simp only [pc] at stepped
    cases stepped
    refine invariant.move runs pc (by simp) (by simp) (.running runner) (by simp)
      before.fIdleWorkers (before.executed ++ [(id, runner)]) (fun _ _ => Iff.rfl)
      (fun other different => ofWorker_append_of_ne different _ _)
      (fun wasIdle => Or.inr ⟨wasIdle, by simp⟩) ?_
    rw [ofWorker_append_self]
    simp [Worker.inHand, pc]
  | running runner =>
    simp only [pc] at stepped
    cases stepped
  | rest =>
    simp only [pc] at stepped
    cases stepped
    refine invariant.move runs pc (by simp) (by simp) .loop (by simp)
      (insert id before.fIdleWorkers) before.executed (fun other different => by simp [different])
      (fun _ _ => rfl) (fun _ => Or.inl rfl) ?_
    rw [Worker.inHand, pc]
    rfl
  | remove =>
    simp only [pc] at stepped
    cases stepped
    refine invariant.move runs pc (by simp) (by simp) .finish (by simp)
      (before.fIdleWorkers.erase id) before.executed (fun other different => by simp [different])
      (fun _ _ => rfl) (fun isIdle => absurd isIdle (Finset.notMem_erase id _)) ?_
    rw [Worker.inHand, pc]
    rfl
  | finish =>
    simp only [pc] at stepped
    cases stepped
    have moved : Invariant (before.set id { before.worker id with pc := .deleted }) := by
      refine invariant.move runs pc (by simp) (by simp) .deleted (by simp)
        before.fIdleWorkers before.executed
        (fun _ _ => Iff.rfl) (fun _ _ => rfl) (fun wasIdle => Or.inr ⟨wasIdle, by simp⟩) ?_
      rw [Worker.inHand, pc]
      rfl
    refine moved.yield runs ?_
    rw [State.set_self]
    exact Or.inr (Or.inl rfl)
  | deleted =>
    simp only [pc] at stepped
    cases stepped

/-- A step inside `task->send(runner)`. The boss finds the mutex free and the channel empty, so
it does not wait. -/
theorem stepSending (invariant : Invariant before) (runs : before.running = some .boss)
    {runner : Runner} (sending : before.boss = .sending id runner) :
    Invariant (before.stepSending id runner) := by
  have ok := invariant.ofBossRunning runs id
  have aim : before.boss.aim id = .inside runner := by
    rw [sending, BossPc.aim, if_pos rfl]
  have elsewhere : ∀ other, other ≠ id → before.boss.aim other = .away := by
    intro other different
    rw [sending, BossPc.aim, if_neg different.symm]
  rw [aim] at ok
  have chanOk : ∀ queue, Chan.advance (before.worker id).fChan.queue .boss = some queue →
      ChanOk queue := fun queue advanced => ok.chanOk.effect (Chan.effect_of_advance advanced)
  have stepped : ∀ queue, Chan.advance (before.worker id).fChan.queue .boss = some queue →
      Chan.step (before.worker id).fChan (.run .boss) =
        some { (before.worker id).fChan with queue } := by
    intro queue advanced
    rw [Chan.step, advanced]
    rfl
  have aimSelf : (BossPc.sending id runner).aim id = .inside runner := if_pos rfl
  have aimOther : ∀ other, other ≠ id → (BossPc.sending id runner).aim other =
      before.boss.aim other := by
    intro other different
    rw [sending]
  rcases ok.bossInside runner rfl with bossPc | bossPc | bossPc
  · have advanced : Chan.advance (before.worker id).fChan.queue .boss =
        some ((before.worker id).fChan.queue.acquire .boss (.sendLocked runner)) := by
      simp only [Chan.advance, bossPc, Chan.lock, ok.mutexFree bossPc]
    rw [State.stepSending, stepped _ advanced]
    simp only [State.acquire_pc_self]
    refine invariant.ofBoss runs (fun _ _ => Iff.rfl) (fun _ _ => Iff.rfl) aimOther
      (fun _ _ => rfl) ?_
    rw [aimSelf]
    exact ok.approach (by rw [bossPc]; rfl) (Or.inr rfl) (chanOk _ advanced)
  · have notFull : (before.worker id).fChan.queue.ring.isFull = false := by
      have empty := (ok.aimed (by simp)).2.2 (by simp [bossPc, Aim.inFlight])
      rw [Ring.isFull, empty, ok.chanOk.capacity]
      rfl
    have advanced : Chan.advance (before.worker id).fChan.queue .boss =
        some (Chan.enqueue (before.worker id).fChan.queue .boss runner) := by
      simp only [Chan.advance, bossPc, notFull]
      rfl
    have bossPcNext : (Chan.enqueue (before.worker id).fChan.queue .boss runner).pc .boss =
        .unlock (.accepted runner) := State.enqueue_pc_self _ _ _ _ _
    rw [State.stepSending, stepped _ advanced]
    simp only [bossPcNext]
    refine invariant.ofBoss runs (fun _ _ => Iff.rfl) (fun _ _ => Iff.rfl) aimOther
      (fun _ _ => rfl) ?_
    rw [aimSelf]
    exact ok.enqueue bossPc (chanOk _ advanced)
  · have advanced : Chan.advance (before.worker id).fChan.queue .boss =
        some ((before.worker id).fChan.queue.release .boss (.idle (some (.accepted runner)))) := by
      simp only [Chan.advance, bossPc]
    rw [State.stepSending, stepped _ advanced]
    simp only [State.release_pc_self]
    exact invariant.ofBoss runs (fun _ _ => Iff.rfl) (fun _ _ => Iff.rfl)
      (fun other different => (elsewhere other different).symm) (fun _ _ => rfl)
      (ok.sent_return bossPc (chanOk _ advanced))

/-- The boss chooses a worker that looks for a runner and has an empty channel. -/
theorem choose (invariant : Invariant before) (runs : before.running = some .boss)
    {runner : Runner} (dispatching : before.boss = .dispatching runner)
    (seeks : (before.worker id).seeks) (empty : (before.worker id).fChan.queue.ring.count = 0)
    {created : Nat} (present : id < created) {fIdleWorkers : Finset Nat} (gone : id ∉ fIdleWorkers)
    (exist : ∀ other, other ≠ id → (other < created ↔ other < before.created))
    (idle : ∀ other, other ≠ id → (other ∈ fIdleWorkers ↔ other ∈ before.fIdleWorkers)) :
    Invariant { before with
      created
      fIdleWorkers
      boss := .send id runner
      dispatched := before.dispatched ++ [(id, runner)] } := by
  have ok := invariant.ofBossRunning runs id
  have aim : ∀ other, before.boss.aim other = .away := by
    intro other
    rw [dispatching]
    rfl
  rw [aim id] at ok
  have unchanged : before.set id (before.worker id) = before := by
    rw [State.set, Function.update_eq_self]
  rw [← unchanged]
  refine invariant.ofBoss runs exist idle ?_
    (fun other different => ofWorker_append_of_ne different _ _) ?_
  · intro other different
    rw [aim other]
    exact if_neg different.symm
  · rw [ofWorker_append_self, show (BossPc.send id runner).aim id = .before runner from if_pos rfl,
      eq_true present, eq_false gone]
    exact ok.aimAt seeks empty runner

/-- A step of `TaskBoss::run`. -/
theorem stepBoss (invariant : Invariant before) (runs : before.running = some .boss)
    {after : State Runner} (stepped : before.stepBoss = some after) : Invariant after := by
  rw [State.stepBoss] at stepped
  cases pc : before.boss with
  | seeking =>
    simp only [pc] at stepped
    cases stepped
  | dispatching runner =>
    simp only [pc] at stepped
    split at stepped
    · rename_i noneIdle
      cases stepped
      obtain ⟨loop, empty⟩ := (invariant.worker before.created).uncreated (Nat.lt_irrefl _)
      refine invariant.choose runs pc (Or.inl loop) empty (Nat.lt_succ_self _) ?_ ?_
        (fun _ _ => Iff.rfl)
      · rw [noneIdle]
        exact Finset.notMem_empty _
      · intro other different
        omega
    · cases stepped
  | send id runner =>
    simp only [pc] at stepped
    obtain ⟨fChan, called, rfl⟩ := Option.map_eq_some_iff.mp stepped
    have ok := invariant.ofBossRunning runs id
    rw [pc, show (BossPc.send id runner).aim id = .before runner from if_pos rfl] at ok
    have outside := ok.bossOutside fun _ => by simp
    rw [Chan.step, if_pos outside] at called
    cases called
    refine invariant.ofBoss runs (fun _ _ => Iff.rfl) (fun _ _ => Iff.rfl) ?_ (fun _ _ => rfl) ?_
    · intro other different
      rw [pc, BossPc.aim, BossPc.aim, if_neg different.symm, if_neg different.symm]
    · rw [show (BossPc.sending id runner).aim id = .inside runner from if_pos rfl]
      exact ok.approach rfl (Or.inl rfl) (ok.chanOk.effect (Chan.effect_of_call _ outside))
  | sending id runner =>
    simp only [pc] at stepped
    cases stepped
    exact invariant.stepSending runs pc

theorem schedule (invariant : Invariant before) (stopped : before.running = none)
    {coroutine : Coroutine} (ready : before.ready coroutine = true) :
    Invariant { before with running := some coroutine } where
  boss waits := by
    refine invariant.boss ?_
    simp [stopped]
  worker id := by
    have ok := invariant.worker id
    rw [eq_false (show ¬ before.running = some (.worker id) by simp [stopped])] at ok
    by_cases same : coroutine = .worker id
    · subst same
      rw [State.ready, Bool.and_eq_true, decide_eq_true_eq] at ready
      show WorkerOk _ _ _ (some (Coroutine.worker id) = some (.worker id)) _ _ _
      rw [eq_true rfl]
      exact ok.resume ready.1
    · show WorkerOk _ _ _ (some coroutine = some (.worker id)) _ _ _
      rw [eq_false fun equal => same (Option.some.inj equal)]
      exact ok

theorem timer (invariant : Invariant before) {fChan : Chan.State Party Runner}
    (expired : Chan.step (before.worker id).fChan (.timer .worker) = some fChan) :
    Invariant (before.set id { before.worker id with fChan }) where
  boss := invariant.boss
  worker other := by
    by_cases same : other = id
    · subst same
      obtain ⟨queue, resumed, rfl⟩ := Option.map_eq_some_iff.mp expired
      have chanOk := (invariant.worker other).chanOk.effect
        (Chan.effect_of_resume Chan.timer_resumes resumed)
      obtain ⟨pc, moves, rfl⟩ := Option.map_eq_some_iff.mp resumed
      rw [State.set_self]
      exact (invariant.worker other).timer moves chanOk
    · rw [State.set_of_ne _ same]
      exact invariant.worker other

/-- Every step of the pool keeps the invariant. -/
theorem step (invariant : Invariant before) {timeout : Int} {action : Action Runner}
    {after : State Runner} (stepped : TaskPool.step timeout before action = some after) :
    Invariant after := by
  cases action with
  | schedule coroutine =>
    obtain ⟨allowed, rfl⟩ := stepped_of_guard stepped
    exact invariant.schedule allowed.1 allowed.2
  | take runner =>
    simp only [TaskPool.step] at stepped
    split at stepped
    · rename_i runs seeking
      cases stepped
      refine ⟨fun waits => absurd runs waits, fun id => ?_⟩
      have ok := invariant.worker id
      rw [seeking] at ok
      exact ok
    · cases stepped
  | wait =>
    simp only [TaskPool.step] at stepped
    split at stepped
    · rename_i runs seeking
      cases stepped
      refine ⟨fun _ => seeking, fun id => ?_⟩
      have ok := invariant.ofBossRunning runs id
      show WorkerOk _ _ _ (none = some (Coroutine.worker id)) _ _ _
      rw [eq_false (show ¬ none = some (Coroutine.worker id) by simp)]
      exact ok
    · cases stepped
  | pick id =>
    simp only [TaskPool.step] at stepped
    split at stepped
    · rename_i runner runs dispatching
      split at stepped
      · rename_i isIdle
        cases stepped
        have ok := invariant.ofBossRunning runs id
        rw [dispatching, eq_true isIdle] at ok
        obtain ⟨present, -, empty, -, -⟩ := ok.idles trivial
        exact invariant.choose runs dispatching ok.seeks_of_idle empty present
          (Finset.notMem_erase id _) (fun _ _ => Iff.rfl)
          (fun other different => by simp [different])
      · cases stepped
    · cases stepped
  | run =>
    simp only [TaskPool.step] at stepped
    split at stepped
    · rename_i runs
      exact invariant.stepBoss runs stepped
    · rename_i id runs
      exact invariant.stepWorker runs stepped
    · cases stepped
  | yield =>
    simp only [TaskPool.step] at stepped
    split at stepped
    · rename_i id runs
      split at stepped
      · rename_i runner pc
        cases stepped
        exact invariant.yield runs (Or.inr (Or.inr (Or.inl ⟨runner, pc⟩)))
      · cases stepped
    · cases stepped
  | complete =>
    simp only [TaskPool.step] at stepped
    split at stepped
    · rename_i id runs
      split at stepped
      · rename_i runner pc
        cases stepped
        refine invariant.move runs pc (by simp) (by simp) .rest (by simp)
          before.fIdleWorkers before.executed
          (fun _ _ => Iff.rfl) (fun _ _ => rfl) (fun wasIdle => Or.inr ⟨wasIdle, by simp⟩) ?_
        rw [Worker.inHand, pc]
        rfl
      · cases stepped
    · cases stepped
  | timer id =>
    obtain ⟨fChan, expired, rfl⟩ := Option.map_eq_some_iff.mp stepped
    exact invariant.timer expired

end Invariant

/-! ### Every run -/

/-- In every run of the pool, with any keepalive timeout, the pool keeps what it promises. -/
theorem dispatchSafe_of_reachable [Inhabited Runner] (timeout : Int) (state : State Runner)
    (reached : Reachable (step timeout) State.new state) : DispatchSafe state := by
  refine Invariant.dispatchSafe (reached.invariant Invariant Invariant.new ?_)
  intro before action after invariant stepped
  exact invariant.step stepped

/-- A run in which the keepalive timer of an idle worker expires before the boss picks it: the
worker is resumed by its timer and finds the runner. -/
def expiringSchedule : List (Action Nat) :=
  [.schedule .boss, .take 7, .run, .run, .run, .run, .run, .wait,
    .schedule (.worker 0), .run, .run, .run, .run, .run, .complete, .run, .run, .run, .run,
    .timer 0,
    .schedule .boss, .take 8, .pick 0, .run, .run, .run, .run, .wait,
    .schedule (.worker 0), .run, .run, .run, .run]

theorem dispatchSafe_expiringSchedule :
    ∃ state : State Nat, Reachable (step 5) State.new state ∧
      state.executed = [(0, 7), (0, 8)] ∧ DispatchSafe state := by
  have executes : (run (step 5) State.new expiringSchedule).map State.executed =
      some [(0, 7), (0, 8)] := by
    decide +kernel
  obtain ⟨state, executed, log⟩ := Option.map_eq_some_iff.mp executes
  exact ⟨state, reachable_of_run executed, log,
    dispatchSafe_of_reachable 5 state (reachable_of_run executed)⟩

end Nattan.TaskPool
