/-
This file models how the boss of a `TaskThread` hands runners to its workers, and says
what the pool promises: no runner is lost, run twice or sent to a worker that is gone.

The boss and the workers are coroutines of one scheduler, so one of them runs at a
time, and another one runs only after it has yielded: in a condition wait of a
channel, at a mutex it finds owned, or inside `runner->run()`. The steps between two
yields are still single steps here, each operation on a worker's channel being that
of `Nattan/Chan.lean` with the boss and the worker as its two parties. A keepalive
timer may expire between any two steps. Runners reach the boss at any time
(`Nattan/TaskThread.lean` says how).
-/

import Mathlib.Data.Finset.Basic
import Nattan.Chan

namespace Nattan.TaskPool

open Monitor

universe u

/-! ### The model -/

/-- The two parties of a worker's channel. -/
inductive Party where
  | boss
  | worker
  deriving DecidableEq, Repr

inductive Coroutine where
  | boss
  | worker (id : Nat)
  deriving DecidableEq, Repr

/-- Where `TaskWorker::run` stands: at the head of its loop, inside `fChan.recvTill` or
`fChan.recv`, with a runner it has received, inside `runner->run()`, before `rest()`, before
`removeWorker(this)`, or behind the loop. A worker is deleted by `finish()`. Nothing calls `stop()`,
so `fRunning` stays true. -/
inductive WorkerPc (Runner : Type u) where
  | loop
  | receiving
  | received (runner : Runner)
  | running (runner : Runner)
  | rest
  | remove
  | finish
  | deleted
  deriving DecidableEq, Repr

/-- Where `TaskBoss::run` stands: without a runner, with one, or with one and the worker to send
it to, before and inside `fChan.send(runner)`. -/
inductive BossPc (Runner : Type u) where
  | seeking
  | dispatching (runner : Runner)
  | send (id : Nat) (runner : Runner)
  | sending (id : Nat) (runner : Runner)
  deriving DecidableEq, Repr

structure Worker (Runner : Type u) where
  pc : WorkerPc Runner
  fChan : Chan.State Party Runner

/-- Workers are numbered in the order of their creation; those from `created` on do not exist
yet. `dispatched` and `executed` are the runners the boss has chosen a worker for and the runners
that workers have called, each with the worker. -/
structure State (Runner : Type u) where
  running : Option Coroutine
  created : Nat
  worker : Nat → Worker Runner
  fIdleWorkers : Finset Nat
  boss : BossPc Runner
  dispatched : List (Nat × Runner)
  executed : List (Nat × Runner)

variable {Runner : Type u}

/-- The size of a worker's channel, the default of `chan_size`. -/
def chanSize : Nat := 1

def Worker.new [Inhabited Runner] : Worker Runner where
  pc := .loop
  fChan := Chan.State.new chanSize

/-- The pool when its boss has been started. -/
def State.new [Inhabited Runner] : State Runner where
  running := none
  created := 0
  worker := fun _ => Worker.new
  fIdleWorkers := ∅
  boss := .seeking
  dispatched := []
  executed := []

/-- Choices that the code leaves open: which coroutine runs next, when a runner reaches the boss
or the boss has to wait for one, which idle worker `begin()` is, what a runner does, and when a
timer expires. `run` is the next step of the running coroutine where it leaves none open. -/
inductive Action (Runner : Type u) where
  | schedule (coroutine : Coroutine)
  | take (runner : Runner)
  | wait
  | pick (id : Nat)
  | run
  | yield
  | complete
  | timer (id : Nat)
  deriving DecidableEq, Repr

namespace State

/-- Change one worker. -/
def set (state : State Runner) (id : Nat) (worker : Worker Runner) : State Runner :=
  { state with worker := Function.update state.worker id worker }

/-- The worker exists and has not been deleted. -/
def alive (state : State Runner) (id : Nat) : Prop :=
  id < state.created ∧ (state.worker id).pc ≠ .deleted

instance [DecidableEq Runner] (state : State Runner) (id : Nat) : Decidable (state.alive id) :=
  inferInstanceAs (Decidable (_ ∧ _))

/-- The coroutine is not in a condition wait. -/
def ready (state : State Runner) : Coroutine → Bool
  | .boss =>
    match state.boss with
    | .sending id _ => !((state.worker id).fChan.queue.pc .boss).awaitsSpace
    | _ => true
  | .worker id =>
    decide (id < state.created) &&
      match (state.worker id).pc with
      | .deleted => false
      | .receiving => !((state.worker id).fChan.queue.pc .worker).awaitsItem
      | _ => true

/-- A step inside `recvTill` or `recv`. -/
def stepReceiving (state : State Runner) (id : Nat) : State Runner :=
  match Chan.step (state.worker id).fChan (.run .worker) with
  | none => { state with running := none }
  | some fChan =>
    match fChan.queue.pc .worker with
    | .idle (some (.item runner)) => state.set id ⟨.received runner, fChan⟩
    | .idle _ => state.set id ⟨.remove, fChan⟩
    | .recvWait | .recvTillWait => { state.set id ⟨.receiving, fChan⟩ with running := none }
    | _ => state.set id ⟨.receiving, fChan⟩

/-- A step of `TaskWorker::run` with the keepalive timeout of the thread. -/
def stepWorker (timeout : Int) (state : State Runner) (id : Nat) : Option (State Runner) :=
  let worker := state.worker id
  match worker.pc with
  | .loop =>
    (Chan.step worker.fChan (.call .worker (if 0 < timeout then .recvTill else .recv))).map
      fun fChan => state.set id ⟨.receiving, fChan⟩
  | .receiving => some (stepReceiving state id)
  | .received runner =>
    some { state.set id { worker with pc := .running runner } with
      executed := state.executed ++ [(id, runner)] }
  | .running _ => none
  | .rest =>
    some { state.set id { worker with pc := .loop } with
      fIdleWorkers := insert id state.fIdleWorkers }
  | .remove =>
    some { state.set id { worker with pc := .finish } with
      fIdleWorkers := state.fIdleWorkers.erase id }
  | .finish => some { state.set id { worker with pc := .deleted } with running := none }
  | .deleted => none

/-- A step inside `task->send(runner)`. -/
def stepSending (state : State Runner) (id : Nat) (runner : Runner) : State Runner :=
  match Chan.step (state.worker id).fChan (.run .boss) with
  | none => { state with running := none }
  | some fChan =>
    let next := state.set id { state.worker id with fChan }
    match fChan.queue.pc .boss with
    | .idle _ => { next with boss := .seeking }
    | .sendWait _ => { next with boss := .sending id runner, running := none }
    | _ => { next with boss := .sending id runner }

/-- A step of `TaskBoss::run`. -/
def stepBoss (state : State Runner) : Option (State Runner) :=
  match state.boss with
  | .seeking => none
  | .dispatching runner =>
    if state.fIdleWorkers = ∅ then
      some { state with
        created := state.created + 1
        boss := .send state.created runner
        dispatched := state.dispatched ++ [(state.created, runner)] }
    else none
  | .send id runner =>
    (Chan.step (state.worker id).fChan (.call .boss (.send runner))).map fun fChan =>
      { state.set id { state.worker id with fChan } with boss := .sending id runner }
  | .sending id runner => some (stepSending state id runner)

end State

/-- One step of the pool. -/
def step (timeout : Int) (state : State Runner) : Action Runner → Option (State Runner)
  | .schedule coroutine =>
    if state.running = none ∧ state.ready coroutine = true then
      some { state with running := some coroutine }
    else none
  | .take runner =>
    match state.running, state.boss with
    | some .boss, .seeking => some { state with boss := .dispatching runner }
    | _, _ => none
  | .wait =>
    match state.running, state.boss with
    | some .boss, .seeking => some { state with running := none }
    | _, _ => none
  | .pick id =>
    match state.running, state.boss with
    | some .boss, .dispatching runner =>
      if id ∈ state.fIdleWorkers then
        some { state with
          fIdleWorkers := state.fIdleWorkers.erase id
          boss := .send id runner
          dispatched := state.dispatched ++ [(id, runner)] }
      else none
    | _, _ => none
  | .run =>
    match state.running with
    | some .boss => state.stepBoss
    | some (.worker id) => state.stepWorker timeout id
    | none => none
  | .yield =>
    match state.running with
    | some (.worker id) =>
      match (state.worker id).pc with
      | .running _ => some { state with running := none }
      | _ => none
    | _ => none
  | .complete =>
    match state.running with
    | some (.worker id) =>
      match (state.worker id).pc with
      | .running _ => some (state.set id { state.worker id with pc := .rest })
      | _ => none
    | _ => none
  | .timer id =>
    (Chan.step (state.worker id).fChan (.timer .worker)).map fun fChan =>
      state.set id { state.worker id with fChan }

/-! ### What is promised -/

/-- The runners of one worker in a log. -/
def ofWorker (id : Nat) (log : List (Nat × Runner)) : List Runner :=
  (log.filter fun entry => entry.1 = id).map Prod.snd

/-- The runner that the worker has taken out of its channel and not called yet. -/
def Worker.inHand (worker : Worker Runner) : List Runner :=
  match worker.pc, worker.fChan.queue.pc .worker with
  | .received runner, _ => [runner]
  | .receiving, .unlock (.item runner) => [runner]
  | _, _ => []

/-- How the boss's loop concerns one worker. -/
inductive Aim (Runner : Type u) where
  | away
  | before (runner : Runner)
  | inside (runner : Runner)
  deriving DecidableEq, Repr

def BossPc.aim : BossPc Runner → Nat → Aim Runner
  | .seeking, _ => .away
  | .dispatching _, _ => .away
  | .send target runner, id => if target = id then .before runner else .away
  | .sending target runner, id => if target = id then .inside runner else .away

/-- The runner that the boss is sending and has not put in the channel yet. -/
def Aim.inFlight : Aim Runner → Chan.Pc Runner → List Runner
  | .away, _ => []
  | .before runner, _ => [runner]
  | .inside _, .unlock _ => []
  | .inside runner, _ => [runner]

/-- The pool keeps what it promises. An idle worker is alive, runs nothing and has an empty
channel; the boss sends to live workers only; the runners that the boss has dispatched to a worker
are, in this order, those it has executed, the one it has received, those in its channel and the
one the boss is sending; and for a deleted worker all of them have been executed. -/
structure DispatchSafe (state : State Runner) : Prop where
  idle : ∀ id ∈ state.fIdleWorkers, state.alive id ∧
    (∀ runner, (state.worker id).pc ≠ .running runner) ∧ (state.worker id).inHand = [] ∧
      (state.worker id).fChan.queue.ring.contents = []
  target : ∀ id, state.boss.aim id ≠ .away → state.alive id
  dispatched : ∀ id, ofWorker id state.dispatched =
    ofWorker id state.executed ++ (state.worker id).inHand ++
      (state.worker id).fChan.queue.ring.contents ++
      (state.boss.aim id).inFlight ((state.worker id).fChan.queue.pc .boss)
  deleted : ∀ id, (state.worker id).pc = .deleted →
    ofWorker id state.dispatched = ofWorker id state.executed

end Nattan.TaskPool
