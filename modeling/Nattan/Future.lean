/-
This file models `Future<T>` under one thread that calls `run` and any number of threads
that call `get`, and proves for which runs it releases every getter.

The atomic steps are the lock of `fMutex`, each access of `bFinished` and `fResult`, the
call, the wait of `fCond` (which joins its waiters and releases the mutex at once), the
notify and the unlock. A getter tests the flag once without the lock and again under it.
`run` holds the lock from the call to the notify, and notifies one waiter only, however
many there are. As `pthread_cond_wait` may, a wait may also end without a notify.
-/

import Nattan.Transition
import Mathlib.Logic.Function.Basic

namespace Nattan.Future

universe u w

/-- Where the thread inside `run` stands. -/
inductive RunPc where
  | start
  | locked
  | stored
  | finished
  | notified
  | returned
  deriving DecidableEq, Repr

/-- Where a getter stands, outside with the last result of `get`. -/
inductive GetPc (Value : Type w) where
  | idle (last : Option (Option Value))
  | test
  | lock
  | locked
  | park
  | wait
  | unlock
  | read
  deriving DecidableEq, Repr

inductive Holder (Thread : Type u) where
  | runner
  | getter (thread : Thread)
  deriving DecidableEq, Repr

variable {Thread : Type u} {Value : Type w}

def RunPc.holds : RunPc → Bool
  | locked | stored | finished | notified => true
  | start | returned => false

/-- The flag is set. -/
def RunPc.done : RunPc → Bool
  | finished | notified | returned => true
  | start | locked | stored => false

def GetPc.isIdle : GetPc Value → Bool
  | idle _ => true
  | _ => false

def GetPc.holds : GetPc Value → Bool
  | locked | park | unlock => true
  | _ => false

/-- The members, the mutex, the waiters of `fCond` that were not notified, the threads, and the
value that `call` returned. -/
structure State (Thread : Type u) (Value : Type w) where
  fResult : Option Value
  bFinished : Bool
  owner : Option (Holder Thread)
  waiters : List Thread
  runner : RunPc
  pc : Thread → GetPc Value
  called : Option Value

def State.new : State Thread Value where
  fResult := none
  bFinished := false
  owner := none
  waiters := []
  runner := .start
  pc := fun _ => .idle none
  called := none

/-- The steps of `run`, with what the call returns and whom the notify wakes, those of the
getters, and the end of a wait without a notify. -/
inductive Action (Thread : Type u) (Value : Type w) where
  | runLock
  | runCall (value : Value)
  | runFinish
  | runNotify (woken : Option Thread)
  | runUnlock
  | get (thread : Thread)
  | advance (thread : Thread)
  | wakeup (thread : Thread)

section

variable [DecidableEq Thread]

def State.goto (state : State Thread Value) (thread : Thread) (pc : GetPc Value) :
    State Thread Value :=
  { state with pc := Function.update state.pc thread pc }

/-- The next step of a getter inside `get`. -/
def advance (state : State Thread Value) (thread : Thread) : Option (State Thread Value) :=
  match state.pc thread with
  | .idle _ => none
  | .test => some (state.goto thread (if state.bFinished then .read else .lock))
  | .lock =>
    if state.owner = none then
      some { state.goto thread .locked with owner := some (.getter thread) }
    else none
  | .locked => some (state.goto thread (if state.bFinished then .unlock else .park))
  | .park =>
    some { state.goto thread .wait with owner := none, waiters := state.waiters ++ [thread] }
  | .wait =>
    if thread ∈ state.waiters then none
    else if state.owner = none then
      some { state.goto thread .locked with owner := some (.getter thread) }
    else none
  | .unlock => some { state.goto thread .read with owner := none }
  | .read => some (state.goto thread (.idle (some state.fResult)))

/-- `fCond.notify()`: one of the waiters is woken, if there is one. -/
def notify (waiters : List Thread) : Option Thread → Option (List Thread)
  | none => if waiters = [] then some [] else none
  | some thread => if thread ∈ waiters then some (waiters.erase thread) else none

def step (state : State Thread Value) : Action Thread Value → Option (State Thread Value)
  | .runLock =>
    if state.runner = .start ∧ state.owner = none then
      some { state with runner := .locked, owner := some .runner }
    else none
  | .runCall value =>
    if state.runner = .locked then
      some { state with runner := .stored, fResult := some value, called := some value }
    else none
  | .runFinish =>
    if state.runner = .stored then some { state with runner := .finished, bFinished := true }
    else none
  | .runNotify woken =>
    if state.runner = .finished then
      (notify state.waiters woken).map fun waiters => { state with runner := .notified, waiters }
    else none
  | .runUnlock =>
    if state.runner = .notified then some { state with runner := .returned, owner := none }
    else none
  | .get thread => if (state.pc thread).isIdle then some (state.goto thread .test) else none
  | .advance thread => advance state thread
  | .wakeup thread =>
    if thread ∈ state.waiters then some { state with waiters := state.waiters.erase thread }
    else none

/-- Once the flag is set and `run` has released the lock nobody waits un-notified, and what `get`
returns is the value that `call` returned. -/
structure Delivers (state : State Thread Value) : Prop where
  released : state.bFinished = true → state.runner = .returned → state.waiters = []
  value : ∀ thread result, state.pc thread = .idle (some result) →
    ∃ value, state.called = some value ∧ result = some value

/-- `run` notifies when one getter waits at most. -/
def FewWait (state : State Thread Value) : Action Thread Value → Prop
  | .runNotify _ => state.waiters.length ≤ 1
  | _ => True

instance (state : State Thread Value) (action : Action Thread Value) :
    Decidable (FewWait state action) :=
  match action with
  | .runNotify _ => inferInstanceAs (Decidable (_ ≤ _))
  | .runLock | .runCall _ | .runFinish | .runUnlock => inferInstanceAs (Decidable True)
  | .get _ | .advance _ | .wakeup _ => inferInstanceAs (Decidable True)

/-! ### The invariant -/

/-- Who holds the mutex owns it, the flag says how far `run` is, and who parks or has left the wait
has seen the flag. -/
structure Invariant (state : State Thread Value) : Prop where
  runner : state.runner.holds = true → state.owner = some .runner
  getter : ∀ thread, (state.pc thread).holds = true → state.owner = some (.getter thread)
  flag : state.bFinished = state.runner.done
  result : state.fResult = state.called
  called : state.runner = .stored ∨ state.bFinished = true → ∃ value, state.called = some value
  park : ∀ thread, state.pc thread = .park → state.bFinished = false
  past : ∀ thread, state.pc thread = .unlock ∨ state.pc thread = .read → state.bFinished = true
  value : ∀ thread result, state.pc thread = .idle (some result) →
    state.bFinished = true ∧ ∃ value, state.called = some value ∧ result = some value

namespace Invariant

variable {before after : State Thread Value} {thread : Thread}

/-- A getter moves, and the mutex changes hands with it. -/
theorem moved (invariant : Invariant before) {pc : GetPc Value} {owner : Option (Holder Thread)}
    (waiters : List Thread) (runner : before.runner.holds = true → owner = some .runner)
    (self : pc.holds = true → owner = some (.getter thread))
    (others : ∀ other, other ≠ thread → (before.pc other).holds = true →
      owner = some (.getter other))
    (park : pc = .park → before.bFinished = false)
    (past : pc = .unlock ∨ pc = .read → before.bFinished = true)
    (value : ∀ result, pc = .idle (some result) →
      before.bFinished = true ∧ ∃ value, before.called = some value ∧ result = some value) :
    Invariant { before.goto thread pc with owner, waiters } where
  runner := runner
  getter other held := by
    change (Function.update before.pc thread pc other).holds = true at held
    by_cases same : other = thread
    · subst same
      rw [Function.update_self] at held
      exact self held
    · rw [Function.update_of_ne same] at held
      exact others other same held
  flag := invariant.flag
  result := invariant.result
  called := invariant.called
  park other parks := by
    change Function.update before.pc thread pc other = .park at parks
    by_cases same : other = thread
    · subst same
      rw [Function.update_self] at parks
      exact park parks
    · rw [Function.update_of_ne same] at parks
      exact invariant.park other parks
  past other left := by
    change Function.update before.pc thread pc other = .unlock ∨
      Function.update before.pc thread pc other = .read at left
    by_cases same : other = thread
    · subst same
      rw [Function.update_self] at left
      exact past left
    · rw [Function.update_of_ne same] at left
      exact invariant.past other left
  value other result returned := by
    change Function.update before.pc thread pc other = _ at returned
    by_cases same : other = thread
    · subst same
      rw [Function.update_self] at returned
      exact value result returned
    · rw [Function.update_of_ne same] at returned
      exact invariant.value other result returned

/-- A getter moves and leaves the mutex alone. -/
theorem goto (invariant : Invariant before) {pc : GetPc Value}
    (sameHold : pc.holds = (before.pc thread).holds)
    (park : pc = .park → before.bFinished = false)
    (past : pc = .unlock ∨ pc = .read → before.bFinished = true)
    (value : ∀ result, pc = .idle (some result) →
      before.bFinished = true ∧ ∃ value, before.called = some value ∧ result = some value) :
    Invariant (before.goto thread pc) :=
  invariant.moved before.waiters invariant.runner
    (fun held => invariant.getter thread (sameHold ▸ held))
    (fun other _ held => invariant.getter other held) park past value

theorem acquire (invariant : Invariant before) (free : before.owner = none) (thread : Thread) :
    Invariant { before.goto thread .locked with owner := some (.getter thread) } := by
  refine invariant.moved before.waiters (fun held => ?_) (fun _ => rfl) (fun other _ held => ?_)
    (fun parks => by cases parks) (fun left => by rcases left with left | left <;> cases left)
    (fun result returned => by cases returned)
  · have owns := invariant.runner held
    rw [free] at owns
    cases owns
  · have owns := invariant.getter other held
    rw [free] at owns
    cases owns

/-- A getter that holds the mutex releases it. -/
theorem release (invariant : Invariant before) (held : (before.pc thread).holds = true)
    {pc : GetPc Value} (waiters : List Thread) (left : pc.holds = false) (notPark : pc ≠ .park)
    (past : pc = .read → before.bFinished = true) (notIdle : pc.isIdle = false) :
    Invariant { before.goto thread pc with owner := none, waiters } := by
  have owns := invariant.getter thread held
  refine invariant.moved waiters (fun other => ?_) (fun impossible => ?_)
    (fun other different otherHeld => ?_) (fun parks => absurd parks notPark) (fun leaves => ?_)
    (fun result returned => ?_)
  · have runs := invariant.runner other
    rw [owns] at runs
    cases runs
  · rw [left] at impossible
    cases impossible
  · have otherOwns := invariant.getter other otherHeld
    rw [owns] at otherOwns
    cases otherOwns
    exact absurd rfl different
  · rcases leaves with unlocks | reads
    · subst unlocks
      cases left
    · exact past reads
  · subst returned
    cases notIdle

/-- The next step of a getter. -/
theorem advance (invariant : Invariant before)
    (stepped : Future.advance before thread = some after) : Invariant after := by
  unfold Future.advance at stepped
  split at stepped
  · cases stepped
  · rename_i pc
    cases stepped
    refine invariant.goto ?_ ?_ ?_ ?_
    · rw [pc]
      split <;> rfl
    · split <;> exact fun parks => by cases parks
    · split
      · exact fun _ => by assumption
      · exact fun left => by rcases left with left | left <;> cases left
    · split <;> exact fun result returned => by cases returned
  · split at stepped
    · cases stepped
      exact invariant.acquire (by assumption) thread
    · cases stepped
  · rename_i pc
    cases stepped
    refine invariant.goto ?_ ?_ ?_ ?_
    · rw [pc]
      split <;> rfl
    · split
      · exact fun parks => by cases parks
      · rename_i unset
        exact fun _ => Bool.eq_false_iff.mpr unset
    · split
      · exact fun _ => by assumption
      · exact fun left => by rcases left with left | left <;> cases left
    · split <;> exact fun result returned => by cases returned
  · rename_i pc
    cases stepped
    exact invariant.release (by rw [pc]; rfl) _ rfl (fun parks => by cases parks)
      (fun reads => by cases reads) rfl
  · split at stepped
    · cases stepped
    · split at stepped
      · cases stepped
        exact invariant.acquire (by assumption) thread
      · cases stepped
  · rename_i pc
    cases stepped
    exact invariant.release (by rw [pc]; rfl) before.waiters rfl (fun parks => by cases parks)
      (fun _ => invariant.past thread (Or.inl pc)) rfl
  · rename_i pc
    cases stepped
    refine invariant.goto (by rw [pc]; rfl) (fun parks => by cases parks)
      (fun left => by rcases left with left | left <;> cases left) (fun result returned => ?_)
    cases returned
    have set := invariant.past thread (Or.inr pc)
    obtain ⟨value, called⟩ := invariant.called (Or.inr set)
    exact ⟨set, value, called, invariant.result.trans called⟩

/-- Every step keeps the invariant. -/
theorem step (invariant : Invariant before) {action : Action Thread Value}
    (stepped : Future.step before action = some after) : Invariant after := by
  cases action with
  | runLock =>
    obtain ⟨⟨start, free⟩, rfl⟩ := stepped_of_guard stepped
    have unset : before.bFinished = false := by
      rw [invariant.flag, start]
      rfl
    have noGetter (thread : Thread) : (before.pc thread).holds = false := by
      refine Bool.eq_false_iff.mpr fun held => ?_
      have owns := invariant.getter thread held
      rw [free] at owns
      cases owns
    exact { invariant with
      runner := fun _ => rfl
      getter := fun thread held => by
        rw [noGetter thread] at held
        cases held
      flag := unset
      called := fun done => invariant.called (Or.inr (done.resolve_left (by simp))) }
  | runCall value =>
    obtain ⟨locked, rfl⟩ := stepped_of_guard stepped
    have unset : before.bFinished = false := by
      rw [invariant.flag, locked]
      rfl
    exact { invariant with
      runner := fun _ => invariant.runner (by rw [locked]; rfl)
      flag := unset
      result := rfl
      called := fun _ => ⟨value, rfl⟩
      value := fun thread result returned => by
        have set := (invariant.value thread result returned).1
        rw [unset] at set
        cases set }
  | runFinish =>
    obtain ⟨stored, rfl⟩ := stepped_of_guard stepped
    have owns := invariant.runner (by rw [stored]; rfl)
    exact { invariant with
      runner := fun _ => owns
      flag := rfl
      called := fun _ => invariant.called (Or.inl stored)
      park := fun thread parks => by
        have getterOwns := invariant.getter thread (by rw [parks]; rfl)
        rw [owns] at getterOwns
        cases getterOwns
      past := fun _ _ => rfl
      value := fun thread result returned => ⟨rfl, (invariant.value thread result returned).2⟩ }
  | runNotify woken =>
    obtain ⟨finished, notified⟩ := Option.ite_none_right_eq_some.mp stepped
    obtain ⟨waiters, -, rfl⟩ := Option.map_eq_some_iff.mp notified
    have set : before.bFinished = true := by
      rw [invariant.flag, finished]
      rfl
    exact { invariant with
      runner := fun _ => invariant.runner (by rw [finished]; rfl)
      flag := set
      called := fun _ => invariant.called (Or.inr set) }
  | runUnlock =>
    obtain ⟨notified, rfl⟩ := stepped_of_guard stepped
    have owns := invariant.runner (by rw [notified]; rfl)
    have set : before.bFinished = true := by
      rw [invariant.flag, notified]
      rfl
    exact { invariant with
      runner := fun held => by cases held
      getter := fun thread held => by
        have getterOwns := invariant.getter thread held
        rw [owns] at getterOwns
        cases getterOwns
      flag := set
      called := fun _ => invariant.called (Or.inr set) }
  | get thread =>
    obtain ⟨outside, rfl⟩ := stepped_of_guard stepped
    refine invariant.goto ?_ (fun parks => by cases parks)
      (fun left => by rcases left with left | left <;> cases left)
      (fun result returned => by cases returned)
    have notHeld : (before.pc thread).holds = false := by
      cases pc : before.pc thread with
      | idle last => rfl
      | _ => simp [pc, GetPc.isIdle] at outside
    rw [notHeld]
    rfl
  | advance thread => exact invariant.advance stepped
  | wakeup thread =>
    obtain ⟨-, rfl⟩ := stepped_of_guard stepped
    exact { invariant with }

end Invariant

omit [DecidableEq Thread] in
theorem invariant_new : Invariant (State.new : State Thread Value) where
  runner held := by cases held
  getter _ held := by cases held
  flag := rfl
  result := rfl
  called done := by rcases done with done | done <;> cases done
  park _ parks := by cases parks
  past _ left := by rcases left with left | left <;> cases left
  value _ _ returned := by cases returned

/-! ### Who is left waiting -/

/-- Behind the notify nobody waits un-notified. -/
def Quiet (state : State Thread Value) : Prop :=
  state.runner = .notified ∨ state.runner = .returned → state.waiters = []

/-- One of one waiter is woken, or none of none. -/
theorem notify_eq_nil {waiters left : List Thread} {woken : Option Thread}
    (few : waiters.length ≤ 1) (notified : notify waiters woken = some left) : left = [] := by
  cases woken with
  | none => exact (stepped_of_guard notified).2.symm
  | some thread =>
    obtain ⟨waits, rfl⟩ := stepped_of_guard notified
    rw [← List.length_eq_zero_iff, List.length_erase_of_mem waits]
    omega

/-- A step of a getter adds no waiter once the flag is set, and leaves `run` alone. -/
theorem waiters_of_advance {before after : State Thread Value} {thread : Thread}
    (invariant : Invariant before) (stepped : advance before thread = some after) :
    after.runner = before.runner ∧ (before.bFinished = true → after.waiters = before.waiters) := by
  unfold advance at stepped
  split at stepped
  case h_5 pc =>
    cases stepped
    refine ⟨rfl, fun set => ?_⟩
    rw [invariant.park thread pc] at set
    cases set
  case h_1 => cases stepped
  case h_3 =>
    split at stepped
    · cases stepped
      exact ⟨rfl, fun _ => rfl⟩
    · cases stepped
  case h_6 =>
    split at stepped
    · cases stepped
    · split at stepped
      · cases stepped
        exact ⟨rfl, fun _ => rfl⟩
      · cases stepped
  all_goals
    cases stepped
    exact ⟨rfl, fun _ => rfl⟩

/-- Where one getter waits at most when `run` notifies, nobody is left. -/
theorem quiet_of_step {before after : State Thread Value} {action : Action Thread Value}
    (invariant : Invariant before) (quiet : Quiet before) (few : FewWait before action)
    (stepped : step before action = some after) : Quiet after := by
  intro behind
  cases action with
  | runLock =>
    obtain ⟨-, rfl⟩ := stepped_of_guard stepped
    rcases behind with impossible | impossible <;> cases impossible
  | runCall value =>
    obtain ⟨-, rfl⟩ := stepped_of_guard stepped
    rcases behind with impossible | impossible <;> cases impossible
  | runFinish =>
    obtain ⟨-, rfl⟩ := stepped_of_guard stepped
    rcases behind with impossible | impossible <;> cases impossible
  | runNotify woken =>
    obtain ⟨-, notifies⟩ := Option.ite_none_right_eq_some.mp stepped
    obtain ⟨waiters, notified, rfl⟩ := Option.map_eq_some_iff.mp notifies
    exact notify_eq_nil few notified
  | runUnlock =>
    obtain ⟨notified, rfl⟩ := stepped_of_guard stepped
    exact quiet (Or.inl notified)
  | get thread =>
    obtain ⟨-, rfl⟩ := stepped_of_guard stepped
    exact quiet behind
  | advance thread =>
    obtain ⟨runner, kept⟩ := waiters_of_advance invariant stepped
    rw [runner] at behind
    have set : before.bFinished = true := by
      rw [invariant.flag]
      rcases behind with notified | returned
      · rw [notified]
        rfl
      · rw [returned]
        rfl
    rw [kept set]
    exact quiet behind
  | wakeup thread =>
    obtain ⟨-, rfl⟩ := stepped_of_guard stepped
    show before.waiters.erase thread = []
    rw [quiet behind]
    rfl

/-- In every run in which one getter waits at most when `run` notifies, no getter is left waiting,
and every `get` returns what the call returned. -/
theorem delivers_of_fewWait {state : State Thread Value}
    (reached : ReachableBy step FewWait State.new state) : Delivers state := by
  have both : Invariant state ∧ Quiet state := by
    refine reached.invariant (fun state => Invariant state ∧ Quiet state) ?_ ?_
    · exact ⟨invariant_new, fun behind => by rcases behind with start | start <;> cases start⟩
    · intro before action after holds few stepped
      exact ⟨holds.1.step stepped, quiet_of_step holds.1 holds.2 few stepped⟩
  exact ⟨fun _ returned => both.2 (Or.inr returned),
    fun thread result returned => (both.1.value thread result returned).2⟩

/-- One getter waits, is notified and gets the value. -/
theorem delivers_one : ∃ state : State Bool Nat,
    runBy step FewWait State.new
      [.get true, .advance true, .advance true, .advance true, .advance true, .runLock, .runCall 7,
        .runFinish, .runNotify (some true), .runUnlock, .advance true, .advance true,
        .advance true, .advance true] = some state ∧ Delivers state := by
  obtain ⟨state, executed⟩ := Option.isSome_iff_exists.mp (show (runBy step FewWait
    (State.new : State Bool Nat)
    [.get true, .advance true, .advance true, .advance true, .advance true, .runLock, .runCall 7,
      .runFinish, .runNotify (some true), .runUnlock, .advance true, .advance true,
      .advance true, .advance true]).isSome = true by decide)
  exact ⟨state, executed, delivers_of_fewWait (reachableBy_of_runBy executed)⟩

/-- Two getters wait, and one is left. -/
theorem not_delivers_two :
    ¬ ∀ state : State Bool Nat, Reachable step State.new state → Delivers state := by
  intro delivers
  have executed : ((run step (State.new : State Bool Nat)
      [.get true, .advance true, .advance true, .advance true, .advance true,
        .get false, .advance false, .advance false, .advance false, .advance false,
        .runLock, .runCall 7, .runFinish, .runNotify (some true), .runUnlock]).map fun state =>
        (state.bFinished, state.runner, state.waiters)) =
      some (true, .returned, [false]) := by decide
  obtain ⟨state, reached, same⟩ := Option.map_eq_some_iff.mp executed
  obtain ⟨finished, rest⟩ := Prod.mk.inj same
  obtain ⟨returned, waiters⟩ := Prod.mk.inj rest
  have none := (delivers state (reachable_of_run reached)).released finished returned
  rw [waiters] at none
  cases none

end

end Nattan.Future
