/-
This file models the barrier, `co_bar_wait` and `co_bar_destory`, under any number of tasks,
and proves that it opens when the last of its tasks comes, and then for everybody.

A task that comes to a closed barrier counts down. The last one finds the count at zero and
broadcasts, and the others wait for that. The count is read once without the mutex, to let
late tasks pass.

The critical sections are single steps, as in the channel with a buffer. How many tasks have
counted down and how many calls have returned is recorded, and whether the barrier was
destroyed; the program does not record it.
-/

import Nattan.CondMonitor

namespace Nattan

namespace CoBar

universe u

inductive Operation where
  | wait
  | destory
  deriving DecidableEq, Repr

/-- Where a task stands. The first lock of `co_bar_wait` is apart from the lock behind a wait. -/
inductive Pc where
  | idle
  | waitTest
  | waitLock
  | waitLocked
  | waiting
  | waitRelock
  | waitRelocked
  | waitUnlock
  | destoryLock
  | destoryLocked
  | destoryUnlock
  deriving DecidableEq, Repr

namespace Pc

def holds : Pc → Bool
  | waitLocked | waitRelocked | waitUnlock | destoryLocked | destoryUnlock => true
  | _ => false

def waitsFor : Pc → Option Unit
  | waiting => some ()
  | _ => none

def resumed : Pc → Pc
  | waiting => waitRelock
  | pc => pc

def waits : Pc → Bool
  | waiting => true
  | _ => false

/-- Behind the barrier, but not outside yet. -/
def passed : Pc → Bool
  | waitRelock | waitRelocked | waitUnlock => true
  | _ => false

end Pc

def roles : CondMonitor.Roles Pc Unit where
  holds := Pc.holds
  waitsFor := Pc.waitsFor
  resumed := Pc.resumed
  holds_of_waits := fun {pc _} waits => by cases pc <;> first | rfl | cases waits
  holds_resumed := fun {pc _} waits => by cases pc <;> first | rfl | cases waits
  waitsFor_resumed := fun {pc _} _ => by cases pc <;> rfl

/-- A `co_bar_t` and the tasks. The count is an `int`. -/
structure State (Task : Type u) extends CondMonitor.Core Task Pc Unit where
  count : BitVec 32
  arrived : Nat
  returned : Nat
  destroyed : Bool

variable {Task : Type u} [DecidableEq Task]

/-- `co_bar_init`, before any task has come. -/
def co_bar_init (cnt : Nat) : State Task where
  toCore := CondMonitor.Core.initial .idle
  count := BitVec.ofNat 32 cnt
  arrived := 0
  returned := 0
  destroyed := false

namespace State

def goto (state : State Task) (task : Task) (pc : Pc) : State Task :=
  { state with toCore := state.toCore.goto task pc }

def co_mutex_lock (state : State Task) (task : Task) (pc : Pc) : Option (State Task) :=
  (state.toCore.lock task pc).map fun core => { state with toCore := core }

def co_mutex_unlock (state : State Task) (task : Task) : State Task :=
  { state with toCore := state.toCore.unlock task .idle }

/-- `co_cond_wait`, up to its yield. -/
def co_cond_wait (state : State Task) (task : Task) : State Task :=
  { state with toCore := state.toCore.wait () task .waiting }

def co_cond_broadcast (state : State Task) : State Task :=
  { state with toCore := state.toCore.broadcast roles () }

/-- The test of the loop of `co_bar_wait`. -/
def co_bar_loop (state : State Task) (task : Task) : State Task :=
  if 0 < state.count.toInt then state.co_cond_wait task else state.goto task .waitUnlock

/-- `co_bar_wait` from where the mutex is locked for the first time. -/
def co_bar_wait (state : State Task) (task : Task) : State Task :=
  if state.count = 0 then state.goto task .waitUnlock
  else
    let state := { state with count := state.count - 1, arrived := state.arrived + 1 }
    if state.count = 0 then state.co_cond_broadcast.goto task .waitUnlock
    else state.co_bar_loop task

/-- `co_bar_destory` from where the mutex is locked. -/
def co_bar_destory (state : State Task) (task : Task) : State Task :=
  { state with count := 0, destroyed := true }.co_cond_broadcast.goto task .destoryUnlock

/-- The next step of a task, if it is not blocked. -/
def run (state : State Task) (task : Task) : Option (State Task) :=
  match state.pc task with
  | .idle | .waiting => none
  | .waitTest =>
    if state.count = 0 then some { state.goto task .idle with returned := state.returned + 1 }
    else some (state.goto task .waitLock)
  | .waitLock => state.co_mutex_lock task .waitLocked
  | .waitLocked => some (state.co_bar_wait task)
  | .waitRelock => state.co_mutex_lock task .waitRelocked
  | .waitRelocked => some (state.co_bar_loop task)
  | .waitUnlock => some { state.co_mutex_unlock task with returned := state.returned + 1 }
  | .destoryLock => state.co_mutex_lock task .destoryLocked
  | .destoryLocked => some (state.co_bar_destory task)
  | .destoryUnlock => some (state.co_mutex_unlock task)

end State

inductive Action (Task : Type u) where
  | call (task : Task) (operation : Operation)
  | run (task : Task)
  deriving DecidableEq, Repr

/-- A task that is idle may call an operation, and one that is inside of one may go on. -/
def step (state : State Task) : Action Task → Option (State Task)
  | .call task operation =>
    match state.pc task with
    | .idle =>
      match operation with
      | .wait => some (state.goto task .waitTest)
      | .destory => some (state.goto task .destoryLock)
    | _ => none
  | .run task => state.run task

/-! ### The invariant -/

/-- While the barrier is closed nobody is behind it, and those who have counted down are those who
wait. When it is open nobody waits. -/
structure Inv (cnt : Nat) (state : State Task) : Prop where
  well : CondMonitor.Well roles state.toCore
  small : state.count.toNat ≤ cnt
  few : state.arrived ≤ cnt
  counted : state.destroyed = false → state.count.toNat + state.arrived = cnt
  destroyed : state.destroyed = true → state.count = 0
  opened : state.count = 0 → state.wait_list () = []
  returned : state.count ≠ 0 → state.returned = 0
  closed : state.count ≠ 0 → ∀ task, (state.pc task).passed = false
  waiting : state.count ≠ 0 → census Pc.waits state.pc = state.arrived

section Steps

variable {cnt : Nat} {state after : State Task} {task : Task} {pc : Pc}

omit [DecidableEq Task] in
theorem inv_co_bar_init (representable : cnt < 2 ^ 31) :
    Inv cnt (co_bar_init cnt : State Task) where
  well := .initial rfl rfl
  small := (BitVec.toNat_ofNat ..).trans_le (Nat.mod_le ..)
  few := Nat.zero_le _
  counted := fun _ => (BitVec.toNat_ofNat ..).trans (Nat.mod_eq_of_lt (by omega))
  destroyed := fun impossible => nomatch impossible
  opened := fun _ => rfl
  returned := fun _ => rfl
  closed := fun _ _ => rfl
  waiting := fun _ => census_eq_zero fun _ => rfl

/-- A task moves that neither waits nor has waited. -/
theorem Inv.moves (inv : Inv cnt state) {core : CondMonitor.Core Task Pc Unit}
    (well : CondMonitor.Well roles core) (lists : core.wait_list = state.wait_list)
    (pcs : core.pc = Function.update state.pc task pc)
    (stays : (state.pc task).waits = false) (waits : pc.waits = false)
    (passed : state.count ≠ 0 → pc.passed = false) : Inv cnt { state with toCore := core } := by
  refine ⟨well, inv.small, inv.few, inv.counted, inv.destroyed, fun opened => ?_, inv.returned,
    fun closed other => ?_, fun closed => ?_⟩
  · exact (congrFun lists ()).trans (inv.opened opened)
  · show (core.pc other).passed = false
    rw [pcs]
    by_cases own : other = task
    · rw [own, Function.update_self]
      exact passed closed
    · rw [Function.update_of_ne own]
      exact inv.closed closed other
  · show census Pc.waits core.pc = state.arrived
    rw [pcs, census_stay (waits.trans stays.symm)]
    exact inv.waiting closed

omit [DecidableEq Task] in
/-- The barrier opens, behind a broadcast. -/
theorem Inv.opens (state : State Task) (arrived : Nat) (destroyed : Bool)
    {core : CondMonitor.Core Task Pc Unit}
    (well : CondMonitor.Well roles core) (none : core.wait_list () = []) (few : arrived ≤ cnt)
    (counted : destroyed = false → arrived = cnt) :
    Inv cnt { state with
      toCore := core, count := 0, arrived := arrived, destroyed := destroyed } where
  well := well
  small := Nat.zero_le _
  few := few
  counted := fun alive => (Nat.zero_add _).trans (counted alive)
  destroyed := fun _ => rfl
  opened := fun _ => none
  returned := fun closed => absurd rfl closed
  closed := fun closed => absurd rfl closed
  waiting := fun closed => absurd rfl closed

theorem well_broadcast_goto (pc : Pc) (well : CondMonitor.Well roles state.toCore)
    (held : (state.pc task).holds = true) (holds : pc.holds = true) :
    CondMonitor.Well roles (state.co_cond_broadcast.goto task pc).toCore := by
  have awake : (state.pc task).waitsFor = none :=
    CondMonitor.Well.awake_of_holds (show roles.holds _ = true from held)
  have still : state.co_cond_broadcast.pc task = state.pc task :=
    if_neg fun member => nomatch awake.symm.trans ((well.listed () task).mp member)
  refine (well.broadcast ()).goto ?_ (CondMonitor.Well.awake_of_holds holds) ?_
  · exact (congrArg Pc.waitsFor still).trans awake
  · exact holds.trans ((congrArg Pc.holds still).trans held).symm

theorem wait_list_broadcast_goto :
    (state.co_cond_broadcast.goto task pc).wait_list () = [] := by
  show Function.update state.wait_list () [] () = []
  exact Function.update_self ..

omit [DecidableEq Task] in
/-- In the range of the count the test of the loop says whether the barrier is closed. -/
theorem Inv.positive_iff (inv : Inv cnt state) (representable : cnt < 2 ^ 31) :
    0 < state.count.toInt ↔ state.count ≠ 0 := by
  have small := inv.small
  rw [BitVec.toInt_eq_toNat_of_lt (by omega), Ne, ← BitVec.toNat_inj]
  show 0 < (state.count.toNat : Int) ↔ state.count.toNat ≠ 0
  omega

/-- A task that has waited finds the barrier open. -/
theorem Inv.relocked (inv : Inv cnt state) (representable : cnt < 2 ^ 31)
    (here : state.pc task = .waitRelocked) : Inv cnt (state.co_bar_loop task) := by
  have opened : state.count = 0 := by
    by_contra closed
    have behind := inv.closed closed task
    rw [here] at behind
    cases behind
  rw [State.co_bar_loop, if_neg (fun more => (inv.positive_iff representable).mp more opened)]
  exact inv.moves (inv.well.goto (here ▸ rfl) rfl (here ▸ rfl)) rfl rfl (here ▸ rfl) rfl
    fun closed => absurd opened closed

/-- A task that comes counts down, if the barrier is closed. The last one opens it, and another one
waits. -/
theorem Inv.co_bar_wait (inv : Inv cnt state) (representable : cnt < 2 ^ 31)
    (here : state.pc task = .waitLocked) : Inv cnt (state.co_bar_wait task) := by
  have held : (state.pc task).holds = true := here ▸ rfl
  unfold State.co_bar_wait
  split
  · rename_i opened
    exact inv.moves (inv.well.goto (here ▸ rfl) rfl (here ▸ rfl)) rfl rfl (here ▸ rfl) rfl
      fun closed => absurd opened closed
  · rename_i closed
    have alive : state.destroyed = false := by
      cases gone : state.destroyed with
      | false => rfl
      | true => exact absurd (inv.destroyed gone) closed
    have counted := inv.counted alive
    have less : (state.count - 1).toNat + 1 = state.count.toNat := by
      have positive : state.count.toNat ≠ 0 := fun zero => closed (BitVec.eq_of_toNat_eq zero)
      bv_omega
    simp only
    split
    · rename_i last
      rw [last] at less
      have full : state.arrived + 1 = cnt := by
        rw [← counted, ← less]
        exact Nat.add_comm ..
      have opens := Inv.opens state (state.arrived + 1) state.destroyed
        (well_broadcast_goto .waitUnlock inv.well held rfl) wait_list_broadcast_goto full.le
        fun _ => full
      rw [last]
      exact opens
    · rename_i more
      have positive : 0 < (state.count - 1).toInt := by
        have small := inv.small
        rw [BitVec.toInt_eq_toNat_of_lt (by omega)]
        have some : (state.count - 1).toNat ≠ 0 := fun zero => more (BitVec.eq_of_toNat_eq zero)
        omega
      rw [State.co_bar_loop, if_pos positive]
      have small := inv.small
      refine ⟨inv.well.wait held rfl, ?_, ?_, fun _ => ?_, ?_, fun opened => absurd opened more,
        fun _ => inv.returned closed, fun _ other => ?_, fun _ => ?_⟩
      · show (state.count - 1).toNat ≤ cnt
        omega
      · show state.arrived + 1 ≤ cnt
        omega
      · show (state.count - 1).toNat + (state.arrived + 1) = cnt
        omega
      · exact fun gone => absurd (alive.symm.trans gone) Bool.false_ne_true
      · show (Function.update state.pc task .waiting other).passed = false
        rw [read_update Pc.passed (here ▸ rfl)]
        exact inv.closed closed other
      · show census Pc.waits (Function.update state.pc task .waiting) =
          ((state.arrived + 1 : Nat) : ℕ∞)
        rw [census_enter (here ▸ rfl) rfl, inv.waiting closed, Nat.cast_add, Nat.cast_one]

theorem Inv.co_bar_destory (inv : Inv cnt state) (here : state.pc task = .destoryLocked) :
    Inv cnt (state.co_bar_destory task) :=
  Inv.opens state _ _ (well_broadcast_goto .destoryUnlock inv.well (here ▸ rfl) rfl)
    wait_list_broadcast_goto inv.few fun impossible => nomatch impossible

omit [DecidableEq Task] in
/-- A call returns. The barrier is open then. -/
theorem Inv.returns (inv : Inv cnt state) (opened : state.count = 0) {returned : Nat} :
    Inv cnt { state with returned := returned } :=
  ⟨inv.well, inv.small, inv.few, inv.counted, inv.destroyed, inv.opened,
    fun closed => absurd opened closed, inv.closed, inv.waiting⟩

theorem Inv.co_mutex_lock (inv : Inv cnt state) (awake : (state.pc task).waitsFor = none)
    (holds : pc.holds = true) (stays : (state.pc task).waits = false) (waits : pc.waits = false)
    (passed : state.count ≠ 0 → pc.passed = false)
    (locked : state.co_mutex_lock task pc = some after) : Inv cnt after := by
  obtain ⟨core, got, rfl⟩ := Option.map_eq_some_iff.mp locked
  have well := inv.well.lock awake (CondMonitor.Well.awake_of_holds holds) holds got
  obtain ⟨-, rfl⟩ := stepped_of_guard got
  exact inv.moves well rfl rfl stays waits passed

theorem Inv.co_mutex_unlock (inv : Inv cnt state) (held : (state.pc task).holds = true)
    (stays : (state.pc task).waits = false) : Inv cnt (state.co_mutex_unlock task) :=
  inv.moves (inv.well.unlock held rfl rfl) rfl rfl stays rfl fun _ => rfl

theorem Inv.run (inv : Inv cnt state) (representable : cnt < 2 ^ 31)
    (ran : state.run task = some after) : Inv cnt after := by
  unfold State.run at ran
  cases here : state.pc task with
  | idle => rw [here] at ran; cases ran
  | waiting => rw [here] at ran; cases ran
  | waitTest =>
    rw [here] at ran
    have moves : ∀ {pc : Pc}, pc.waitsFor = none → pc.holds = false → pc.waits = false →
        pc.passed = false → Inv cnt (state.goto task pc) := by
      intro pc awake outside waits passed
      exact inv.moves (inv.well.goto (here ▸ rfl) awake (outside.trans (here ▸ rfl))) rfl rfl
        (here ▸ rfl) waits fun _ => passed
    by_cases opened : state.count = 0
    · simp only [opened, if_true] at ran
      cases ran
      exact (moves rfl rfl rfl rfl).returns opened
    · simp only [opened, if_false] at ran
      cases ran
      exact moves rfl rfl rfl rfl
  | waitLock =>
    rw [here] at ran
    exact inv.co_mutex_lock (here ▸ rfl) rfl (here ▸ rfl) rfl (fun _ => rfl) ran
  | waitLocked =>
    rw [here] at ran
    cases ran
    exact inv.co_bar_wait representable here
  | waitRelock =>
    rw [here] at ran
    refine inv.co_mutex_lock (here ▸ rfl) rfl (here ▸ rfl) rfl (fun closed => ?_) ran
    have behind := inv.closed closed task
    rwa [here] at behind
  | waitRelocked =>
    rw [here] at ran
    cases ran
    exact inv.relocked representable here
  | waitUnlock =>
    rw [here] at ran
    cases ran
    have opened : state.count = 0 := by
      by_contra closed
      have behind := inv.closed closed task
      rw [here] at behind
      cases behind
    exact (inv.co_mutex_unlock (here ▸ rfl) (here ▸ rfl)).returns opened
  | destoryLock =>
    rw [here] at ran
    exact inv.co_mutex_lock (here ▸ rfl) rfl (here ▸ rfl) rfl (fun _ => rfl) ran
  | destoryLocked =>
    rw [here] at ran
    cases ran
    exact inv.co_bar_destory here
  | destoryUnlock =>
    rw [here] at ran
    cases ran
    exact inv.co_mutex_unlock (here ▸ rfl) (here ▸ rfl)

theorem Inv.step {action : Action Task} (inv : Inv cnt state) (representable : cnt < 2 ^ 31)
    (stepped : step state action = some after) : Inv cnt after := by
  cases action with
  | run task => exact inv.run representable stepped
  | call task operation =>
    unfold CoBar.step at stepped
    cases here : state.pc task with
    | idle =>
      simp only [here] at stepped
      cases operation <;> cases stepped <;>
        exact inv.moves (inv.well.goto (here ▸ rfl) rfl (here ▸ rfl)) rfl rfl (here ▸ rfl) rfl
          fun _ => rfl
    | _ =>
      simp only [here] at stepped
      cases stepped

/-- If nobody can go on, whoever is inside of the barrier waits. -/
theorem Inv.idle_or_waiting (inv : Inv cnt state) (stuck : ∀ task, state.run task = none)
    (task : Task) : state.pc task = .idle ∨ state.pc task = .waiting := by
  have runs : ∀ task, (state.pc task).holds = true → state.run task ≠ none := by
    intro task held
    unfold State.run
    cases here : state.pc task with
    | waitLocked | waitRelocked | waitUnlock | destoryLocked | destoryUnlock =>
      exact Option.some_ne_none _
    | _ =>
      rw [here] at held
      cases held
  have nobody : ∀ task, (state.pc task).holds ≠ true := fun task held => runs task held (stuck task)
  have locks : ∀ pc, state.co_mutex_lock task pc ≠ none :=
    fun pc none => inv.well.lock_ne_none nobody task pc (Option.map_eq_none_iff.mp none)
  have none := stuck task
  have outside := nobody task
  unfold State.run at none
  cases here : state.pc task with
  | idle => exact Or.inl rfl
  | waiting => exact Or.inr rfl
  | waitTest =>
    simp only [here] at none
    split at none <;> cases none
  | waitLock | waitRelock | destoryLock =>
    rw [here] at none
    exact absurd none (locks _)
  | waitLocked | waitRelocked | waitUnlock | destoryLocked | destoryUnlock =>
    rw [here] at outside
    exact absurd rfl outside

end Steps

/-- Under every interleaving of any number of waiting and destroying tasks, a call of `co_bar_wait`
returns, or is past its wait, only if as many tasks as the barrier was made for have come or it
was destroyed. Nobody is left behind: when no task can go on, the barrier is open and nobody is
inside of it, or fewer tasks than it was made for have come and all of these wait. -/
theorem opens_for_all {cnt : Nat} (representable : cnt < 2 ^ 31) {state : State Task}
    (reached : Reachable step (co_bar_init cnt) state) :
    (0 < state.returned ∨ (∃ task, (state.pc task).passed = true) →
      state.arrived = cnt ∨ state.destroyed = true) ∧
    ((∀ task, state.run task = none) →
      (∀ task, state.pc task = .idle) ∨
        (∀ task, state.pc task = .idle ∨ state.pc task = .waiting) ∧
          census Pc.waits state.pc = state.arrived ∧ state.arrived < cnt ∧
            state.destroyed = false) := by
  have inv : Inv cnt state := Reachable.invariant (Inv cnt) (inv_co_bar_init representable)
    (fun _ _ _ inv stepped => inv.step representable stepped) reached
  refine ⟨fun past => ?_, fun stuck => ?_⟩
  · have opened : state.count = 0 := by
      by_contra closed
      rcases past with some | ⟨task, behind⟩
      · exact absurd (inv.returned closed) (Nat.pos_iff_ne_zero.mp some)
      · exact Bool.false_ne_true ((inv.closed closed task).symm.trans behind)
    cases gone : state.destroyed with
    | true => exact Or.inr rfl
    | false =>
      have counted := inv.counted gone
      rw [opened] at counted
      exact Or.inl ((Nat.zero_add _).symm.trans counted)
  · have settled := inv.idle_or_waiting stuck
    by_cases opened : state.count = 0
    · refine Or.inl fun task => (settled task).resolve_right fun here => ?_
      have member := (inv.well.listed () task).mpr (here ▸ rfl)
      rw [inv.opened opened] at member
      exact absurd member List.not_mem_nil
    · have alive : state.destroyed = false := by
        cases gone : state.destroyed with
        | false => rfl
        | true => exact absurd (inv.destroyed gone) opened
      have counted := inv.counted alive
      have positive : state.count.toNat ≠ 0 := fun zero => opened (BitVec.eq_of_toNat_eq zero)
      exact Or.inr ⟨settled, inv.waiting opened, by omega, alive⟩

/-- A barrier for two: the first task waits until the second one comes, and both return. -/
theorem opens_for_all_two : ∃ state : State Bool,
    run step (co_bar_init 2) [.call true .wait, .run true, .run true, .run true,
      .call false .wait, .run false, .run false, .run false, .run false, .run true, .run true,
      .run true] = some state ∧
      state.returned = 2 ∧ (state.arrived = 2 ∨ state.destroyed = true) := by
  obtain ⟨state, ran, both⟩ : ∃ state : State Bool,
      run step (co_bar_init 2) [.call true .wait, .run true, .run true, .run true,
        .call false .wait, .run false, .run false, .run false, .run false, .run true, .run true,
        .run true] = some state ∧ state.returned = 2 :=
    ⟨Option.get _ (by decide +kernel), (Option.some_get _).symm, by decide +kernel⟩
  exact ⟨state, ran, both,
    (opens_for_all (by decide) (reachable_of_run ran)).1 (Or.inl (both ▸ by decide))⟩

end CoBar

end Nattan
