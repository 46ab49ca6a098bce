/-
This file models `Task::await`, the worker of the pool that runs what is awaited, and
everything that puts the awaiting coroutine on the run list of its scheduler. It proves
that a completion is never lost, and in which runs `await` returns only after the work
is done.

`await` puts a runner on the queue of the pool, yields once, and reads the result. It
relies on the runner's `wakeup` being what ends the yield. But the scheduler resumes a
coroutine for whatever reason it is put on the run list: a timer it armed before may
expire, `Task::wakeup` may be called on it from elsewhere, and a runner of an earlier
`await` that returned too soon wakes it as well. The coroutine then reads the result of
a runner that has none yet, and `await` returns -1 while the pool still runs the
caller's `Runnable`. The same `await` called outside a coroutine waits in a loop for the
runner to say that it has finished.
-/

import Mathlib.Logic.Function.Basic
import Nattan.Transition

namespace Nattan

namespace Await

/-! ### The runner -/

/-- What a worker of the pool has done with an `AwaitRunner`: nothing yet, it is inside or behind
`r.run()`, it has set the result, or it has woken the task. -/
inductive Phase where
  | queued
  | running
  | ran
  | stored
  | woken
  deriving DecidableEq, Repr

/-- An `AwaitRunner`. -/
structure Runner where
  phase : Phase
  fRetCode : Int
  deriving DecidableEq, Repr

def Runner.new : Runner where
  phase := .queued
  fRetCode := -1

/-- One step of `AwaitRunner::run`. The last one is `fTask->wakeup()`. -/
def Runner.run (runner : Runner) : Option Runner :=
  match runner.phase with
  | .queued => some { runner with phase := .running }
  | .running => some { runner with phase := .ran }
  | .ran => some ⟨.stored, 0⟩
  | .stored => some { runner with phase := .woken }
  | .woken => none

/-- `r.run()` has returned. -/
def Runner.done (runner : Runner) : Bool :=
  runner.phase = .ran || runner.phase = .stored || runner.phase = .woken

/-- The result is set. -/
def Runner.settled (runner : Runner) : Bool :=
  runner.phase = .stored || runner.phase = .woken

/-! ### The coroutine -/

/-- Where the coroutine is: it runs or is blocked outside of `await`, or it is in the `await` that
was given a number, before the yield, in the yield, and behind it. -/
inductive Pc where
  | runs
  | blocked
  | put (number : Nat)
  | yielded (number : Nat)
  | resumed (number : Nat)
  deriving DecidableEq, Repr

/-- The `await` that has not come to the end of its yield. -/
def Pc.awaits : Pc → Option Nat
  | .put number | .yielded number => some number
  | .runs | .blocked | .resumed _ => none

/-- The coroutine, whether it is on the run list, the runners of all its calls of `await`, and
what these calls returned, each with whether `r.run()` had returned by then. -/
structure State where
  pc : Pc
  onRunList : Bool
  calls : Nat
  runners : Nat → Runner
  returned : List (Int × Bool)

def initial : State where
  pc := .runs
  onRunList := false
  calls := 0
  runners := fun _ => .new
  returned := []

/-- A step of the coroutine (`await` up to the yield, the yield, the end of `await`, or blocking
elsewhere), of its scheduler, of the worker that runs a runner, or of anything else that puts the
coroutine on the run list. -/
inductive Action where
  | await
  | yield
  | result
  | block
  | picknext
  | run (number : Nat)
  | resume
  deriving DecidableEq, Repr

/-- A step of the worker that runs runner number `number`. -/
def runStep (state : State) (number : Nat) : Option State :=
  if number < state.calls then
    (state.runners number).run.map fun runner =>
      { state with
        runners := Function.update state.runners number runner
        onRunList := state.onRunList || decide (runner.phase = .woken) }
  else none

def step (state : State) : Action → Option State
  | .await =>
    if state.pc = .runs then
      some { state with
        pc := .put state.calls
        calls := state.calls + 1
        runners := Function.update state.runners state.calls .new }
    else none
  | .yield =>
    match state.pc with
    | .put number => some { state with pc := .yielded number }
    | _ => none
  | .result =>
    match state.pc with
    | .resumed number =>
      some { state with
        pc := .runs
        returned :=
          ((state.runners number).fRetCode, (state.runners number).done) :: state.returned }
    | _ => none
  | .block => if state.pc = .runs then some { state with pc := .blocked } else none
  | .picknext =>
    if state.onRunList then
      match state.pc with
      | .yielded number => some { state with pc := .resumed number, onRunList := false }
      | .blocked => some { state with pc := .runs, onRunList := false }
      | _ => none
    else none
  | .run number => runStep state number
  | .resume => some { state with onRunList := true }

/-! ### The runs in which nothing else resumes the coroutine -/

/-- The `await` the coroutine is in, if any, has its result. -/
def Settled (state : State) : Prop :=
  state.pc.awaits.all (fun number => (state.runners number).settled) = true

instance (state : State) : Decidable (Settled state) :=
  inferInstanceAs (Decidable (_ = true))

/-- Nothing else puts the coroutine on the run list before the result is set: it is not there when
it calls `await`, and is not put there by another event, nor by the runner of another call. -/
def Undisturbed (state : State) : Action → Prop
  | .await => state.onRunList = false
  | .run number => (state.runners number).phase = .stored → Settled state
  | .resume => Settled state
  | .yield | .result | .block | .picknext => True

instance (state : State) (action : Action) : Decidable (Undisturbed state action) :=
  match action with
  | .await => inferInstanceAs (Decidable (state.onRunList = false))
  | .run number => inferInstanceAs (Decidable ((state.runners number).phase = .stored → _))
  | .resume => inferInstanceAs (Decidable (Settled state))
  | .yield | .result | .block | .picknext => inferInstanceAs (Decidable True)

/-! ### What a runner does -/

theorem Runner.settled_run {runner after : Runner} (stepped : runner.run = some after)
    (settled : runner.settled = true) : after.settled = true := by
  obtain ⟨phase, fRetCode⟩ := runner
  cases phase with
  | queued => cases settled
  | running => cases settled
  | ran => cases settled
  | stored =>
    cases stepped
    rfl
  | woken => cases stepped

theorem Runner.fRetCode_run {runner after : Runner} (stepped : runner.run = some after)
    (result : runner.settled = true → runner.fRetCode = 0) :
    after.settled = true → after.fRetCode = 0 := by
  obtain ⟨phase, fRetCode⟩ := runner
  cases phase with
  | queued =>
    cases stepped
    intro settled
    cases settled
  | running =>
    cases stepped
    intro settled
    cases settled
  | ran =>
    cases stepped
    exact fun _ => rfl
  | stored =>
    cases stepped
    exact fun _ => result rfl
  | woken => cases stepped

/-- A runner wakes the task in the one step that follows the setting of the result. -/
theorem Runner.run_woken {runner after : Runner} (stepped : runner.run = some after)
    (woken : after.phase = .woken) : runner.phase = .stored := by
  obtain ⟨phase, fRetCode⟩ := runner
  cases phase with
  | queued =>
    cases stepped
    cases woken
  | running =>
    cases stepped
    cases woken
  | ran =>
    cases stepped
    cases woken
  | stored => rfl
  | woken => cases stepped

theorem Runner.done_of_settled {runner : Runner} (settled : runner.settled = true) :
    runner.done = true := by
  obtain ⟨phase, fRetCode⟩ := runner
  cases phase with
  | queued => cases settled
  | running => cases settled
  | ran => cases settled
  | stored => rfl
  | woken => rfl

theorem settled_iff {state : State} : Settled state ↔
    ∀ number, state.pc.awaits = some number → (state.runners number).settled = true := by
  rw [Settled, Option.all_eq_true]

/-! ### What a step does -/

/-- What each action does to the state, with what it needs. -/
inductive Moves (before : State) : Action → State → Prop where
  | await (position : before.pc = .runs) :
      Moves before .await
        { before with
          pc := .put before.calls
          calls := before.calls + 1
          runners := Function.update before.runners before.calls .new }
  | yield {number : Nat} (position : before.pc = .put number) :
      Moves before .yield { before with pc := .yielded number }
  | result {number : Nat} (position : before.pc = .resumed number) :
      Moves before .result
        { before with
          pc := .runs
          returned :=
            ((before.runners number).fRetCode, (before.runners number).done) :: before.returned }
  | block (position : before.pc = .runs) : Moves before .block { before with pc := .blocked }
  | endYield {number : Nat} (listed : before.onRunList = true)
      (position : before.pc = .yielded number) :
      Moves before .picknext { before with pc := .resumed number, onRunList := false }
  | unblock (listed : before.onRunList = true) (position : before.pc = .blocked) :
      Moves before .picknext { before with pc := .runs, onRunList := false }
  | run {number : Nat} {runner : Runner} (stepped : (before.runners number).run = some runner) :
      Moves before (.run number)
        { before with
          runners := Function.update before.runners number runner
          onRunList := before.onRunList || decide (runner.phase = .woken) }
  | resume : Moves before .resume { before with onRunList := true }

theorem moves_of_step {before after : State} {action : Action}
    (stepped : step before action = some after) : Moves before action after := by
  cases action with
  | await =>
    simp only [step, Option.ite_none_right_eq_some, Option.some.injEq] at stepped
    obtain ⟨position, rfl⟩ := stepped
    exact .await position
  | yield =>
    rw [step] at stepped
    split at stepped
    · rename_i number position
      cases stepped
      exact .yield position
    · cases stepped
  | result =>
    rw [step] at stepped
    split at stepped
    · rename_i number position
      cases stepped
      exact .result position
    · cases stepped
  | block =>
    simp only [step, Option.ite_none_right_eq_some, Option.some.injEq] at stepped
    obtain ⟨position, rfl⟩ := stepped
    exact .block position
  | picknext =>
    rw [step] at stepped
    split at stepped
    · rename_i listed
      split at stepped
      · rename_i number position
        cases stepped
        exact .endYield listed position
      · rename_i position
        cases stepped
        exact .unblock listed position
      · cases stepped
    · cases stepped
  | run number =>
    simp only [step, runStep, Option.ite_none_right_eq_some, Option.map_eq_some_iff] at stepped
    obtain ⟨-, runner, ran, rfl⟩ := stepped
    exact .run ran
  | resume =>
    cases stepped
    exact .resume

/-! ### A completion is not lost -/

/-- Once the runner of an `await` has woken the coroutine, the coroutine is on the run list until
its yield is over. -/
def NotLost (state : State) : Prop :=
  ∀ number, state.pc.awaits = some number → (state.runners number).phase = .woken →
    state.onRunList = true

theorem notLost_step {before after : State} {action : Action} (notLost : NotLost before)
    (moves : Moves before action after) : NotLost after := by
  intro number awaits woken
  cases moves with
  | await =>
    obtain rfl : before.calls = number := Option.some.inj awaits
    simp only [Function.update_self] at woken
    cases woken
  | yield position =>
    refine notLost number ?_ woken
    rw [position]
    exact awaits
  | result => cases awaits
  | block => cases awaits
  | endYield => cases awaits
  | unblock => cases awaits
  | @run ran runner stepped =>
    by_cases same : number = ran
    · subst same
      simp only [Function.update_self] at woken
      simp only [woken, decide_true, Bool.or_true]
    · simp only [Function.update_of_ne same] at woken
      simp only [notLost number awaits woken, Bool.true_or]
  | resume => rfl

/-- In every run a completion that comes before the yield, or during it, ends the yield. -/
theorem notLost_of_reachable {state : State} (reached : Reachable step initial state) :
    NotLost state :=
  Reachable.invariant NotLost (fun _ awaits => by cases awaits)
    (fun _ _ _ notLost stepped => notLost_step notLost (moves_of_step stepped)) reached

/-! ### `await` returns after the work is done -/

/-- The coroutine is on the run list, and goes on behind the yield, only with the result set. -/
structure Invariant (state : State) : Prop where
  result : ∀ number, (state.runners number).settled = true → (state.runners number).fRetCode = 0
  listed : state.onRunList = true → Settled state
  resumed : ∀ number, state.pc = .resumed number → (state.runners number).settled = true
  returned : ∀ entry ∈ state.returned, entry = (0, true)

theorem invariant_initial : Invariant initial where
  result := fun _ settled => by cases settled
  listed := fun listed => by cases listed
  resumed := fun _ position => by cases position
  returned := fun _ member => absurd member List.not_mem_nil

/-- A step of a runner leaves every result that is set. -/
theorem settled_update {state : State} {number : Nat} {runner : Runner}
    (stepped : (state.runners number).run = some runner) (other : Nat)
    (settled : (state.runners other).settled = true) :
    (Function.update state.runners number runner other).settled = true := by
  by_cases same : other = number
  · subst same
    rw [Function.update_self]
    exact Runner.settled_run stepped settled
  · rw [Function.update_of_ne same]
    exact settled

theorem Invariant.run {before : State} (invariant : Invariant before) {number : Nat}
    {runner : Runner} (stepped : (before.runners number).run = some runner)
    (undisturbed : Undisturbed before (.run number)) :
    Invariant { before with
      runners := Function.update before.runners number runner
      onRunList := before.onRunList || decide (runner.phase = .woken) } where
  result := fun other => by
    by_cases same : other = number
    · subst same
      simp only [Function.update_self]
      exact Runner.fRetCode_run stepped (invariant.result other)
    · simp only [Function.update_of_ne same]
      exact invariant.result other
  listed := fun listed => by
    have settled : Settled before := by
      obtain already | woken := Bool.or_eq_true_iff.mp listed
      · exact invariant.listed already
      · exact undisturbed (Runner.run_woken stepped (of_decide_eq_true woken))
    rw [settled_iff] at settled ⊢
    exact fun other awaits => settled_update stepped other (settled other awaits)
  resumed := fun other position => settled_update stepped other (invariant.resumed other position)
  returned := invariant.returned

theorem Invariant.step {before after : State} {action : Action} (invariant : Invariant before)
    (undisturbed : Undisturbed before action) (moves : Moves before action after) :
    Invariant after := by
  cases moves with
  | await position =>
    refine ⟨fun number settled => ?_, fun listed => ?_, fun _ other => (by cases other),
      invariant.returned⟩
    · by_cases same : number = before.calls
      · subst same
        simp only [Function.update_self] at settled
        cases settled
      · simp only [Function.update_of_ne same] at settled ⊢
        exact invariant.result number settled
    · exact absurd (undisturbed.symm.trans listed) (by decide)
  | yield position =>
    refine ⟨invariant.result, fun listed => ?_, fun _ other => (by cases other),
      invariant.returned⟩
    have settled := invariant.listed listed
    rw [Settled, position] at settled
    exact settled
  | @result number position =>
    refine ⟨invariant.result, fun _ => rfl, fun _ other => (by cases other), ?_⟩
    intro entry member
    obtain rfl | earlier := List.mem_cons.mp member
    · have settled := invariant.resumed number position
      rw [invariant.result number settled, Runner.done_of_settled settled]
    · exact invariant.returned entry earlier
  | block position =>
    exact ⟨invariant.result, fun _ => rfl, fun _ other => (by cases other), invariant.returned⟩
  | @endYield number listed position =>
    refine ⟨invariant.result, fun other => (by cases other), fun other same => ?_,
      invariant.returned⟩
    obtain rfl : number = other := Pc.resumed.inj same
    refine settled_iff.mp (invariant.listed listed) number ?_
    rw [position]
    rfl
  | unblock listed position =>
    exact ⟨invariant.result, fun other => (by cases other), fun _ other => (by cases other),
      invariant.returned⟩
  | run stepped => exact invariant.run stepped undisturbed
  | resume => exact ⟨invariant.result, fun _ => undisturbed, invariant.resumed, invariant.returned⟩

/-- In every run in which nothing else resumes the coroutine before the result is set, `await`
returns only after `r.run()` has returned, it returns 0, and no completion is lost. -/
theorem await_returns_after_run {state : State}
    (reached : ReachableBy step Undisturbed initial state) :
    (∀ entry ∈ state.returned, entry = (0, true)) ∧ NotLost state :=
  ⟨(ReachableBy.invariant Invariant invariant_initial
      (fun _ _ _ invariant undisturbed stepped =>
        invariant.step undisturbed (moves_of_step stepped)) reached).returned,
    notLost_of_reachable reached.reachable⟩

/-- The work is done before the yield, and the call after it is woken in the yield. -/
def undisturbedRun : List Action :=
  [.await, .run 0, .run 0, .run 0, .run 0, .yield, .picknext, .result,
    .await, .yield, .run 1, .run 1, .run 1, .resume, .run 1, .picknext, .result]

theorem await_returns_after_run_twice :
    ∃ state, ReachableBy step Undisturbed initial state ∧
      state.returned = [(0, true), (0, true)] ∧
      ((∀ entry ∈ state.returned, entry = (0, true)) ∧ NotLost state) := by
  have executed : ∃ state, runBy step Undisturbed initial undisturbedRun = some state ∧
      state.returned = [(0, true), (0, true)] :=
    ⟨Option.get _ (by decide +kernel), (Option.some_get _).symm, by decide +kernel⟩
  obtain ⟨state, executed, returned⟩ := executed
  have reached := reachableBy_of_runBy executed
  exact ⟨state, reached, returned, await_returns_after_run reached⟩

/-- A timer that was armed before expires while the coroutine awaits. -/
def disturbedRun : List Action :=
  [.await, .yield, .resume, .picknext, .result]

/-- `await` returns -1, and the worker has not even begun to run the `Runnable`. -/
theorem await_returns_before_run :
    ∃ state, Reachable step initial state ∧ state.returned = [(-1, false)] ∧
      (state.runners 0).phase = .queued := by
  have executed : ∃ state, run step initial disturbedRun = some state ∧
      state.returned = [(-1, false)] ∧ (state.runners 0).phase = .queued :=
    ⟨Option.get _ (by decide +kernel), (Option.some_get _).symm, by decide +kernel,
      by decide +kernel⟩
  obtain ⟨state, executed, returned, phase⟩ := executed
  exact ⟨state, reachable_of_run executed, returned, phase⟩

end Await

end Nattan
