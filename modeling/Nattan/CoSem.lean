/-
This file models the semaphore of the coroutines under any number of tasks, and proves in
which runs it loses no permit.

The counter goes below zero for every waiter. `co_sem_post` wakes a waiter only when the
counter is still negative behind its increment, so the post that answers the only waiter
wakes nobody; and a waiter that is woken decrements the counter once more, and finds it
negative because of its own first decrement. So no post that begins while the counter is
negative is sure to let a waiter go. In the runs where every post begins while the counter is
not negative, and the counter does not leave the range of an `int`, every waiter waits for
want of a permit.

The steps are single accesses: a counter update with its sign test, a section under
`wait_lock`, a yield, a resumption. A task that was resumed before it has yielded is on the
run list, and runs again behind its yield.
-/

import Mathlib.Algebra.Group.Int.Defs
import Mathlib.Algebra.Group.Nat.Defs
import Mathlib.Data.List.Nodup
import Mathlib.Logic.Function.Basic
import Nattan.Transition

namespace Nattan

namespace CoSem

universe u

inductive Operation where
  | wait
  | try_wait
  | post
  deriving DecidableEq, Repr

/-- Where a task stands: in `co_sem_wait` before the decrement, before the section, on the list and
before the yield, and behind it; in the other two before the counter update and before the section,
and before the resumption. -/
inductive Pc (Task : Type u) where
  | idle
  | waitDec
  | waitLock
  | waitYield
  | waitParked
  | tryDec
  | tryLock
  | postInc
  | postLock
  | postResume (t : Task)
  deriving DecidableEq, Repr

namespace Pc

variable {Task : Type u}

/-- The task has decremented the counter, and has neither taken a permit nor given up. -/
def inside : Pc Task → Bool
  | waitLock | waitYield | waitParked | tryLock => true
  | _ => false

/-- The task has put itself on the list. -/
def listed : Pc Task → Bool
  | waitYield | waitParked => true
  | _ => false

/-- The task has found the counter negative behind its increment. -/
def wakes : Pc Task → Bool
  | postLock | postResume _ => true
  | _ => false

theorem inside_of_listed {pc : Pc Task} (on : pc.listed = true) : pc.inside = true := by
  cases pc <;> first | rfl | cases on

end Pc

/-- A `co_sem_t` and the tasks, and how many waits and posts have been completed. A `try_wait` that
returns 1 is a completed wait. -/
structure State (Task : Type u) where
  sem : BitVec 32
  wait_list : List Task
  pc : Task → Pc Task
  runnable : Task → Bool
  waits : Nat
  posts : Nat

variable {Task : Type u} [DecidableEq Task]

/-- `co_sem_init`, before any task has come. The count is an `unsigned int`, the counter an `int`.
-/
def co_sem_init (count : BitVec 32) : State Task where
  sem := count
  wait_list := []
  pc := fun _ => .idle
  runnable := fun _ => false
  waits := 0
  posts := 0

namespace State

def goto (state : State Task) (task : Task) (pc : Pc Task) : State Task :=
  { state with pc := Function.update state.pc task pc }

/-- The decrement, and whether the result is negative. -/
def atomic_dec_and_negative (state : State Task) : State Task × Bool :=
  ({ state with sem := state.sem - 1 }, decide ((state.sem - 1).toInt < 0))

def atomic_inc_and_negative (state : State Task) : State Task × Bool :=
  ({ state with sem := state.sem + 1 }, decide ((state.sem + 1).toInt < 0))

/-- A wait has been completed. -/
def waited (state : State Task) (task : Task) : State Task :=
  { state.goto task .idle with waits := state.waits + 1 }

/-- A post has been completed. -/
def posted (state : State Task) (task : Task) : State Task :=
  { state.goto task .idle with posts := state.posts + 1 }

/-- The next step of a task, if it is not parked. -/
def run (state : State Task) (task : Task) : Option (State Task) :=
  match state.pc task with
  | .idle => none
  | .waitDec =>
    let (state, negative) := state.atomic_dec_and_negative
    some (if negative then state.goto task .waitLock else state.waited task)
  | .waitLock =>
    some (if 0 ≤ state.sem.toInt then state.waited task
      else { state.goto task .waitYield with wait_list := state.wait_list ++ [task] })
  | .waitYield => some (state.goto task .waitParked)
  | .waitParked =>
    if state.runnable task then
      some { state.goto task .waitDec with runnable := Function.update state.runnable task false }
    else none
  | .tryDec =>
    let (state, negative) := state.atomic_dec_and_negative
    some (if negative then state.goto task .tryLock else state.waited task)
  | .tryLock =>
    some (if 0 ≤ state.sem.toInt then state.waited task
      else { state.goto task .idle with sem := state.sem + 1 })
  | .postInc =>
    let (state, negative) := state.atomic_inc_and_negative
    some (if negative then state.goto task .postLock else state.posted task)
  | .postLock =>
    some (if 0 ≤ state.sem.toInt then state.posted task
      else
        match state.wait_list with
        | [] => state.posted task
        | t :: rest => { state.goto task (.postResume t) with wait_list := rest })
  | .postResume t =>
    some { state.posted task with runnable := Function.update state.runnable t true }

end State

inductive Action (Task : Type u) where
  | call (task : Task) (operation : Operation)
  | run (task : Task)
  deriving DecidableEq, Repr

/-- A task that is idle may call an operation, and one that is inside of one may go on. -/
def step (state : State Task) : Action Task → Option (State Task)
  | .call task operation =>
    match state.pc task with
    | .idle =>
      match operation with
      | .wait => some (state.goto task .waitDec)
      | .try_wait => some (state.goto task .tryDec)
      | .post => some (state.goto task .postInc)
    | _ => none
  | .run task => state.run task

/-! ### What is claimed -/

/-- No operation is in progress: every task is outside, or parked with no resumption to come. -/
def Quiet (state : State Task) : Prop :=
  ∀ task, state.pc task = .idle ∨ (state.pc task = .waitParked ∧ state.runnable task = false)

/-- Not more waits are completed than there were permits, and while there is a permit left and no
operation in progress, no task is on the list. -/
def Conserves (count : Nat) (state : State Task) : Prop :=
  state.waits ≤ count + state.posts ∧
    (Quiet state → state.waits < count + state.posts → state.wait_list = [])

/-- A counter update may be made here: a post begins while the counter is not negative, and the
counter does not overflow. -/
def Pc.Clear (sem : BitVec 32) : Pc Task → Prop
  | waitDec | tryDec => sem.toInt ≠ -2 ^ 31
  | postInc => 0 ≤ sem.toInt ∧ sem.toInt ≠ 2 ^ 31 - 1
  | idle | waitLock | waitYield | waitParked | tryLock | postLock | postResume _ => True

instance (sem : BitVec 32) (pc : Pc Task) : Decidable (pc.Clear sem) :=
  match pc with
  | .waitDec | .tryDec => inferInstanceAs (Decidable (_ ≠ _))
  | .postInc => inferInstanceAs (Decidable (_ ∧ _ ≠ _))
  | .idle | .waitLock | .waitYield | .waitParked | .tryLock | .postLock | .postResume _ =>
    inferInstanceAs (Decidable True)

/-- The next step of the task makes no counter update that it may not. -/
def Clear (state : State Task) : Action Task → Prop
  | .call _ _ => True
  | .run task => (state.pc task).Clear state.sem

instance (state : State Task) (action : Action Task) : Decidable (Clear state action) :=
  match action with
  | .call _ _ => inferInstanceAs (Decidable True)
  | .run task => inferInstanceAs (Decidable ((state.pc task).Clear state.sem))

/-! ### The counter -/

theorem toInt_sub_one {value : BitVec 32} (low : value.toInt ≠ -2 ^ 31) :
    (value - 1).toInt = value.toInt - 1 := by
  have lower : -2 ^ 31 ≤ value.toInt := BitVec.le_toInt value
  have upper : value.toInt < 2 ^ 31 := BitVec.toInt_lt
  have one : (1 : BitVec 32).toInt = 1 := by decide
  rw [BitVec.toInt_sub, one]
  exact Int.bmod_eq_of_le (by omega) (by omega)

theorem toInt_add_one {value : BitVec 32} (high : value.toInt ≠ 2 ^ 31 - 1) :
    (value + 1).toInt = value.toInt + 1 := by
  have lower : -2 ^ 31 ≤ value.toInt := BitVec.le_toInt value
  have upper : value.toInt < 2 ^ 31 := BitVec.toInt_lt
  have one : (1 : BitVec 32).toInt = 1 := by decide
  rw [BitVec.toInt_add, one]
  exact Int.bmod_eq_of_le (by omega) (by omega)

/-! ### The invariant -/

/-- The counter is the number of permits less the number of tasks that have decremented it and wait
or are about to. While there are such tasks there are no permits. Nobody wakes, and nobody is
woken. -/
structure Counts (count : Nat) (state : State Task) (inside : List Task) : Prop where
  nodup : inside.Nodup
  mem : ∀ task, task ∈ inside ↔ (state.pc task).inside = true
  le : state.waits ≤ count + state.posts
  sem : state.sem.toInt = (count + state.posts : Nat) - (state.waits : Int) - inside.length
  none : inside ≠ [] → state.waits = count + state.posts
  quiet : ∀ task, (state.pc task).wakes = false
  asleep : ∀ task, state.runnable task = false
  listed : ∀ task ∈ state.wait_list, (state.pc task).listed = true

section Steps

variable {count : Nat} {state after : State Task} {inside : List Task} {task : Task}

omit [DecidableEq Task] in
theorem counts_co_sem_init {count : BitVec 32} (small : count.toNat < 2 ^ 31) :
    Counts count.toNat (co_sem_init count : State Task) [] where
  nodup := List.nodup_nil
  mem := fun _ => iff_of_false List.not_mem_nil Bool.false_ne_true
  le := Nat.zero_le _
  sem := by
    show count.toInt = ((count.toNat + 0 : Nat) : Int) - (0 : Nat) - ([] : List Task).length
    rw [BitVec.toInt_eq_toNat_of_lt (by omega), List.length_nil]
    omega
  none := fun impossible => absurd rfl impossible
  quiet := fun _ => rfl
  asleep := fun _ => rfl
  listed := fun _ member => absurd member List.not_mem_nil

omit [DecidableEq Task] in
/-- While a task waits or is about to, the counter is negative. -/
theorem Counts.sem_neg (counts : Counts count state inside) (member : task ∈ inside) :
    state.sem.toInt < 0 := by
  have none := counts.none (List.ne_nil_of_mem member)
  have some := List.length_pos_of_mem member
  have sem := counts.sem
  omega

omit [DecidableEq Task] in
/-- While the counter is not negative, no task waits or is about to. -/
theorem Counts.eq_nil (counts : Counts count state inside) (positive : 0 ≤ state.sem.toInt) :
    inside = [] := by
  apply Classical.byContradiction
  intro some
  obtain ⟨task, member⟩ := List.exists_mem_of_ne_nil inside some
  have negative := counts.sem_neg member
  omega

/-- A task that does not come to wake another leaves all as they are. -/
theorem Counts.quiet_update (counts : Counts count state inside) {pc : Pc Task}
    (silent : pc.wakes = false) (other : Task) :
    (Function.update state.pc task pc other).wakes = false := by
  by_cases own : other = task
  · rw [own, Function.update_self, silent]
  · rw [Function.update_of_ne own]
    exact counts.quiet other

/-- A task moves without coming in or going out. -/
theorem Counts.goto (counts : Counts count state inside) (pc : Pc Task)
    (same : pc.inside = (state.pc task).inside) (silent : pc.wakes = false)
    (stays : (state.pc task).listed = true → pc.listed = true) :
    Counts count (state.goto task pc) inside := by
  have kept : ∀ other, (Function.update state.pc task pc other).inside =
      (state.pc other).inside := by
    intro other
    by_cases own : other = task
    · rw [own, Function.update_self, same]
    · rw [Function.update_of_ne own]
  refine ⟨counts.nodup, ?_, counts.le, counts.sem, counts.none, counts.quiet_update silent,
    counts.asleep, ?_⟩
  · intro other
    rw [counts.mem]
    exact Bool.coe_iff_coe.mpr (kept other).symm
  · intro other member
    show (Function.update state.pc task pc other).listed = true
    by_cases own : other = task
    · rw [own, Function.update_self]
      exact stays (counts.listed task (own ▸ member))
    · rw [Function.update_of_ne own]
      exact counts.listed other member

omit [DecidableEq Task] in
/-- A task that has not decremented the counter is not on the list. -/
theorem not_listed (outside : (state.pc task).inside = false) :
    ¬ (state.pc task).listed = true := by
  intro on
  rw [Pc.inside_of_listed on] at outside
  cases outside

/-- A task that has decremented the counter below zero comes in. There is no permit left. -/
theorem Counts.enter (counts : Counts count state inside) {pc : Pc Task}
    (outside : (state.pc task).inside = false) (enters : pc.inside = true)
    (silent : pc.wakes = false) (low : state.sem.toInt ≠ -2 ^ 31)
    (negative : (state.sem - 1).toInt < 0) :
    Counts count { state.goto task pc with sem := state.sem - 1 } (task :: inside) := by
  have absent : task ∉ inside := by
    rw [counts.mem, outside]
    exact Bool.false_ne_true
  have sem := counts.sem
  rw [toInt_sub_one low] at negative
  have spent : state.waits = count + state.posts := by
    by_cases some : inside = []
    · rw [some, List.length_nil] at sem
      have le := counts.le
      omega
    · exact counts.none some
  refine ⟨List.nodup_cons.mpr ⟨absent, counts.nodup⟩, ?_, counts.le, ?_, fun _ => spent,
    counts.quiet_update silent, counts.asleep, ?_⟩
  · intro other
    show other ∈ task :: inside ↔ (Function.update state.pc task pc other).inside = true
    by_cases own : other = task
    · rw [own, Function.update_self]
      exact iff_of_true List.mem_cons_self enters
    · rw [Function.update_of_ne own, List.mem_cons, or_iff_right own]
      exact counts.mem other
  · show (state.sem - 1).toInt = (count + state.posts : Nat) - (state.waits : Int) -
      (task :: inside).length
    rw [toInt_sub_one low, sem, List.length_cons]
    omega
  · intro other member
    have own : other ≠ task := by
      rintro rfl
      exact not_listed outside (counts.listed other member)
    show (Function.update state.pc task pc other).listed = true
    rw [Function.update_of_ne own]
    exact counts.listed other member

/-- A decrement that leaves the counter at zero or above takes a permit. -/
theorem Counts.take (counts : Counts count state inside)
    (outside : (state.pc task).inside = false) (low : state.sem.toInt ≠ -2 ^ 31)
    (positive : ¬ (state.sem - 1).toInt < 0) :
    Counts count ({ state with sem := state.sem - 1 }.waited task) [] := by
  rw [toInt_sub_one low] at positive
  have empty := counts.eq_nil (show 0 ≤ state.sem.toInt by omega)
  subst empty
  have moved := counts.goto .idle outside.symm rfl fun on => absurd on (not_listed outside)
  have sem := counts.sem
  rw [List.length_nil] at sem
  refine ⟨moved.nodup, moved.mem, ?_, ?_, fun impossible => absurd rfl impossible, moved.quiet,
    moved.asleep, moved.listed⟩
  · show state.waits + 1 ≤ count + state.posts
    omega
  · show (state.sem - 1).toInt = (count + state.posts : Nat) - ((state.waits + 1 : Nat) : Int) -
      ([] : List Task).length
    rw [toInt_sub_one low, sem, List.length_nil]
    omega

/-- A decrement either comes in or takes a permit. -/
theorem Counts.dec (counts : Counts count state inside) {pc : Pc Task}
    (outside : (state.pc task).inside = false) (enters : pc.inside = true)
    (silent : pc.wakes = false) (low : state.sem.toInt ≠ -2 ^ 31) :
    ∃ inside, Counts count
      (if (state.sem - 1).toInt < 0 then { state.goto task pc with sem := state.sem - 1 }
        else { state with sem := state.sem - 1 }.waited task) inside := by
  by_cases negative : (state.sem - 1).toInt < 0
  · rw [if_pos negative]
    exact ⟨_, counts.enter outside enters silent low negative⟩
  · rw [if_neg negative]
    exact ⟨_, counts.take outside low negative⟩

/-- A waiter that finds the counter negative goes on the list. -/
theorem Counts.list (counts : Counts count state inside) (here : state.pc task = .waitLock) :
    Counts count { state.goto task .waitYield with wait_list := state.wait_list ++ [task] }
      inside := by
  have moved := counts.goto .waitYield (by rw [here]; rfl) rfl fun _ => rfl
  refine ⟨moved.nodup, moved.mem, moved.le, moved.sem, moved.none, moved.quiet, moved.asleep, ?_⟩
  intro other member
  rcases List.mem_append.mp member with earlier | now
  · exact moved.listed other earlier
  · rw [List.mem_singleton] at now
    subst now
    show (Function.update state.pc other .waitYield other).listed = true
    rw [Function.update_self]
    rfl

/-- A try that finds the counter negative takes its decrement back. -/
theorem Counts.leave (counts : Counts count state inside) (here : state.pc task = .tryLock) :
    Counts count { state.goto task .idle with sem := state.sem + 1 } (inside.erase task) := by
  have member : task ∈ inside := by
    rw [counts.mem, here]
    rfl
  have negative := counts.sem_neg member
  have high : state.sem.toInt ≠ 2 ^ 31 - 1 := by omega
  refine ⟨counts.nodup.erase task, ?_, counts.le, ?_, ?_, counts.quiet_update rfl,
    counts.asleep, ?_⟩
  · intro other
    show other ∈ inside.erase task ↔ (Function.update state.pc task .idle other).inside = true
    by_cases own : other = task
    · rw [own, Function.update_self]
      exact iff_of_false counts.nodup.not_mem_erase Bool.false_ne_true
    · rw [Function.update_of_ne own, List.mem_erase_of_ne own]
      exact counts.mem other
  · show (state.sem + 1).toInt = (count + state.posts : Nat) - (state.waits : Int) -
      (inside.erase task).length
    have some := List.length_pos_of_mem member
    rw [toInt_add_one high, counts.sem, List.length_erase_of_mem member]
    omega
  · exact fun _ => counts.none (List.ne_nil_of_mem member)
  · intro other listed
    have on := counts.listed other listed
    have own : other ≠ task := by
      rintro rfl
      rw [here] at on
      cases on
    show (Function.update state.pc task .idle other).listed = true
    rw [Function.update_of_ne own]
    exact on

/-- A post that finds the counter at zero or above is complete with its increment. -/
theorem Counts.post (counts : Counts count state inside)
    (outside : (state.pc task).inside = false) (positive : 0 ≤ state.sem.toInt)
    (high : state.sem.toInt ≠ 2 ^ 31 - 1) :
    Counts count ({ state with sem := state.sem + 1 }.posted task) [] := by
  have empty := counts.eq_nil positive
  subst empty
  have moved := counts.goto .idle outside.symm rfl fun on => absurd on (not_listed outside)
  have le := counts.le
  refine ⟨moved.nodup, moved.mem, ?_, ?_, fun impossible => absurd rfl impossible, moved.quiet,
    moved.asleep, moved.listed⟩
  · show state.waits ≤ count + (state.posts + 1)
    omega
  · show (state.sem + 1).toInt = (count + (state.posts + 1) : Nat) - (state.waits : Int) -
      ([] : List Task).length
    rw [toInt_add_one high, counts.sem, List.length_nil]
    omega

/-- Every step of a task that may be made keeps the counts. -/
theorem Counts.run (counts : Counts count state inside)
    (clear : (state.pc task).Clear state.sem) (ran : state.run task = some after) :
    ∃ inside, Counts count after inside := by
  have silent := counts.quiet task
  unfold State.run at ran
  cases here : state.pc task with
  | idle => rw [here] at ran; cases ran
  | waitDec =>
    rw [here] at clear
    simp only [here, State.atomic_dec_and_negative, decide_eq_true_eq, Option.some.injEq] at ran
    subst ran
    exact counts.dec (by rw [here]; rfl) rfl rfl clear
  | waitLock =>
    rw [here] at ran
    cases ran
    have negative := counts.sem_neg ((counts.mem task).mpr (by rw [here]; rfl))
    rw [if_neg (by omega)]
    exact ⟨_, counts.list here⟩
  | waitYield =>
    rw [here] at ran
    cases ran
    exact ⟨_, counts.goto .waitParked (by rw [here]; rfl) rfl fun _ => rfl⟩
  | waitParked =>
    rw [here] at ran
    simp only [counts.asleep task, Bool.false_eq_true, if_false] at ran
    cases ran
  | tryDec =>
    rw [here] at clear
    simp only [here, State.atomic_dec_and_negative, decide_eq_true_eq, Option.some.injEq] at ran
    subst ran
    exact counts.dec (by rw [here]; rfl) rfl rfl clear
  | tryLock =>
    rw [here] at ran
    cases ran
    have negative := counts.sem_neg ((counts.mem task).mpr (by rw [here]; rfl))
    rw [if_neg (by omega)]
    exact ⟨_, counts.leave here⟩
  | postInc =>
    rw [here] at clear
    simp only [here, State.atomic_inc_and_negative, decide_eq_true_eq, Option.some.injEq] at ran
    subst ran
    obtain ⟨positive, high⟩ := clear
    have grows := toInt_add_one high
    rw [if_neg (by omega)]
    exact ⟨_, counts.post (by rw [here]; rfl) positive high⟩
  | postLock =>
    rw [here] at silent
    cases silent
  | postResume t =>
    rw [here] at silent
    cases silent

theorem Counts.step (counts : Counts count state inside) {action : Action Task}
    (clear : Clear state action) (stepped : CoSem.step state action = some after) :
    ∃ inside, Counts count after inside := by
  cases action with
  | run task => exact counts.run clear stepped
  | call task operation =>
    unfold CoSem.step at stepped
    cases here : state.pc task with
    | idle =>
      simp only [here] at stepped
      have starts : ∀ pc : Pc Task, pc.inside = false → pc.wakes = false →
          Counts count (state.goto task pc) inside := by
        intro pc outside silent
        refine counts.goto pc ?_ silent ?_
        · rw [here, outside]
          rfl
        · rw [here]
          exact fun impossible => nomatch impossible
      cases operation <;> cases stepped
      · exact ⟨_, starts .waitDec rfl rfl⟩
      · exact ⟨_, starts .tryDec rfl rfl⟩
      · exact ⟨_, starts .postInc rfl rfl⟩
    | _ =>
      simp only [here] at stepped
      cases stepped

omit [DecidableEq Task] in
/-- While there is a permit left, the list is empty. -/
theorem Counts.conserves (counts : Counts count state inside) : Conserves count state := by
  refine ⟨counts.le, fun _ left => ?_⟩
  apply List.eq_nil_iff_forall_not_mem.mpr
  intro task member
  have waits := (counts.mem task).mpr (Pc.inside_of_listed (counts.listed task member))
  have spent := counts.none (List.ne_nil_of_mem waits)
  omega

end Steps

/-! ### Runs -/

/-- In every run from an initial count below 2^31 in which every post begins while the counter is
not negative, and no counter update overflows, no permit is lost. -/
theorem conserves_of_clear (count : BitVec 32) (small : count.toNat < 2 ^ 31) (state : State Task)
    (reached : ReachableBy step Clear (co_sem_init count) state) :
    Conserves count.toNat state := by
  obtain ⟨inside, counts⟩ := reached.invariant
    (fun state => ∃ inside, Counts count.toNat state inside)
    ⟨[], counts_co_sem_init small⟩ fun _ _ _ counts clear stepped =>
      counts.choose_spec.step clear stepped
  exact counts.conserves

/-- A wait takes the permit there is, a try fails, a post gives the permit back, the next wait takes
it, and the one behind that waits. -/
theorem conserves_of_clear_three : ∃ state : State (Fin 3),
    runBy step Clear (co_sem_init 1) [.call 0 .wait, .run 0, .call 2 .try_wait, .run 2, .run 2,
      .call 0 .post, .run 0, .call 1 .wait, .run 1, .call 2 .wait, .run 2, .run 2, .run 2] =
        some state ∧
      state.posts = 1 ∧ state.waits = 2 ∧ state.wait_list = [2] ∧ Conserves 1 state := by
  refine ⟨_, rfl, rfl, rfl, rfl, ?_⟩
  have executed : runBy step Clear (co_sem_init 1 : State (Fin 3)) [.call 0 .wait, .run 0,
    .call 2 .try_wait, .run 2, .run 2, .call 0 .post, .run 0, .call 1 .wait, .run 1,
    .call 2 .wait, .run 2, .run 2, .run 2] = some _ := rfl
  exact conserves_of_clear 1 (by decide) _ (reachableBy_of_runBy executed)

/-- A task waits, and another one posts and wakes nobody. -/
theorem not_conserves : ∃ state : State Bool,
    run step (co_sem_init 0) [.call false .wait, .run false, .run false, .run false,
      .call true .post, .run true] = some state ∧
      Reachable step (co_sem_init 0) state ∧ ¬ Conserves 0 state := by
  have executed : run step (co_sem_init 0 : State Bool) [.call false .wait, .run false, .run false,
    .run false, .call true .post, .run true] = some _ := rfl
  refine ⟨_, executed, reachable_of_run executed, fun conserves => ?_⟩
  have empty := conserves.2 (by rintro (_ | _) <;> decide) (by decide)
  cases empty

end CoSem

end Nattan
