/-
This file is the library of monitors with one mutex and condition variables whose waiters
are on lists, for any set of tasks and any program counter type.

A waiter leaves a condition only by a signal or a broadcast. It is then resumed, and must
take the mutex again before it looks at anything: between the signal and that moment other
tasks may enter. So what a signal owes to a waiter is not that its condition holds, but
that enough tasks are on their way to look. The library keeps the lists, the owner and the
program counters in step, and counts the tasks that are on their way.

A critical section without a wait is one step. A task inside of one holds the mutex, and
nobody else does.
-/

import Mathlib.Data.Set.Card
import Mathlib.Logic.Function.Basic
import Nattan.Transition

namespace Nattan

/-! ### Counting tasks -/

universe u v w

section Census

variable {Task : Type u} {Pc : Type v}

/-- How many tasks are in a role. -/
noncomputable def census (role : Pc → Bool) (pc : Task → Pc) : ℕ∞ :=
  {task | role (pc task) = true}.encard

variable {role : Pc → Bool} {pc : Task → Pc} {task : Task} {next : Pc}

theorem census_eq_zero (none : ∀ task, role (pc task) = false) : census role pc = 0 := by
  refine Set.encard_eq_zero.mpr (Set.eq_empty_iff_forall_notMem.mpr fun task member => ?_)
  exact Bool.false_ne_true ((none task).symm.trans member)

variable [DecidableEq Task]

theorem census_enter (outside : role (pc task) = false) (inside : role next = true) :
    census role (Function.update pc task next) = census role pc + 1 := by
  have absent : task ∉ {other | role (pc other) = true} :=
    fun member => Bool.false_ne_true (outside.symm.trans member)
  rw [census, census, ← Set.encard_insert_of_notMem absent]
  congr 1
  ext other
  rw [Set.mem_insert_iff]
  show role (Function.update pc task next other) = true ↔ other = task ∨ role (pc other) = true
  by_cases own : other = task
  · rw [own, Function.update_self]
    exact iff_of_true inside (Or.inl rfl)
  · rw [Function.update_of_ne own]
    exact (or_iff_right own).symm

/-- A task that leaves a role would enter it by going back. -/
theorem census_leave (inside : role (pc task) = true) (outside : role next = false) :
    census role pc = census role (Function.update pc task next) + 1 := by
  have outside' : role (Function.update pc task next task) = false := by
    rw [Function.update_self]
    exact outside
  have back := census_enter outside' inside
  rw [Function.update_idem, Function.update_eq_self] at back
  exact back

theorem census_stay (same : role next = role (pc task)) :
    census role (Function.update pc task next) = census role pc := by
  rw [census, census]
  simp only [read_update role same]

end Census

namespace CondMonitor

/-- What the program counters of a monitor mean. -/
structure Roles (Pc : Type v) (Cond : Type w) where
  holds : Pc → Bool
  waitsFor : Pc → Option Cond
  resumed : Pc → Pc
  holds_of_waits : ∀ {pc cond}, waitsFor pc = some cond → holds pc = false
  holds_resumed : ∀ {pc cond}, waitsFor pc = some cond → holds (resumed pc) = false
  waitsFor_resumed : ∀ {pc cond}, waitsFor pc = some cond → waitsFor (resumed pc) = none

/-- The owner of the mutex, the tasks that wait for each condition, and where the tasks are. -/
structure Core (Task : Type u) (Pc : Type v) (Cond : Type w) where
  owner : Option Task
  wait_list : Cond → List Task
  pc : Task → Pc

variable {Task : Type u} {Pc : Type v} {Cond : Type w} [DecidableEq Task]

namespace Core

/-- Nobody has come yet. -/
def initial (pc : Pc) : Core Task Pc Cond where
  owner := none
  wait_list := fun _ => []
  pc := fun _ => pc

def goto (core : Core Task Pc Cond) (task : Task) (pc : Pc) : Core Task Pc Cond :=
  { core with pc := Function.update core.pc task pc }

def lock (core : Core Task Pc Cond) (task : Task) (pc : Pc) : Option (Core Task Pc Cond) :=
  if core.owner.isNone then some { core.goto task pc with owner := some task } else none

def unlock (core : Core Task Pc Cond) (task : Task) (pc : Pc) : Core Task Pc Cond :=
  { core.goto task pc with owner := none }

variable [DecidableEq Cond]

/-- The task goes to the end of the list and leaves the mutex. -/
def wait (core : Core Task Pc Cond) (cond : Cond) (task : Task) (pc : Pc) : Core Task Pc Cond :=
  { core.goto task pc with
    owner := none
    wait_list := Function.update core.wait_list cond (core.wait_list cond ++ [task]) }

/-- The first task on the list is resumed. -/
def signal (roles : Roles Pc Cond) (core : Core Task Pc Cond) (cond : Cond) :
    Core Task Pc Cond :=
  match core.wait_list cond with
  | [] => core
  | first :: rest =>
    { core with
      wait_list := Function.update core.wait_list cond rest
      pc := Function.update core.pc first (roles.resumed (core.pc first)) }

/-- Every task on the list is resumed. -/
def broadcast (roles : Roles Pc Cond) (core : Core Task Pc Cond) (cond : Cond) :
    Core Task Pc Cond :=
  { core with
    wait_list := Function.update core.wait_list cond []
    pc := fun task =>
      if task ∈ core.wait_list cond then roles.resumed (core.pc task) else core.pc task }

end Core

/-- The tasks on the list of a condition are those that wait for it, each once, and the task that
holds the mutex is its owner. -/
structure Well (roles : Roles Pc Cond) (core : Core Task Pc Cond) : Prop where
  listed : ∀ cond task, task ∈ core.wait_list cond ↔ roles.waitsFor (core.pc task) = some cond
  nodup : ∀ cond, (core.wait_list cond).Nodup
  owner : ∀ task, core.owner = some task ↔ roles.holds (core.pc task) = true

namespace Well

variable {roles : Roles Pc Cond} {core after : Core Task Pc Cond} {task other : Task}
  {cond : Cond} {pc : Pc}

omit [DecidableEq Task] in
theorem initial (idle : roles.holds pc = false) (awake : roles.waitsFor pc = none) :
    Well roles (Core.initial pc : Core Task Pc Cond) := by
  refine ⟨fun cond task => ?_, fun _ => List.nodup_nil, fun task => ?_⟩
  · show task ∈ [] ↔ roles.waitsFor pc = some cond
    rw [awake]
    exact iff_of_false List.not_mem_nil fun impossible => nomatch impossible
  · show none = some task ↔ roles.holds pc = true
    rw [idle]
    exact iff_of_false (fun impossible => nomatch impossible) Bool.false_ne_true

omit [DecidableEq Task] in
/-- The owner holds the mutex, and nobody else. -/
theorem eq_of_holds (well : Well roles core) (held : roles.holds (core.pc task) = true)
    (held' : roles.holds (core.pc other) = true) : other = task :=
  Option.some.inj (((well.owner other).mpr held').symm.trans ((well.owner task).mpr held))

/-- A task that neither waits nor begins to wait changes no list. -/
theorem listed_update (well : Well roles core)
    (awake : roles.waitsFor (core.pc task) = none) (stays : roles.waitsFor pc = none)
    (cond : Cond) (other : Task) :
    other ∈ core.wait_list cond ↔
      roles.waitsFor (Function.update core.pc task pc other) = some cond := by
  rw [well.listed cond other]
  by_cases own : other = task
  · rw [own, Function.update_self, awake, stays]
  · rw [Function.update_of_ne own]

theorem goto (well : Well roles core) (awake : roles.waitsFor (core.pc task) = none)
    (stays : roles.waitsFor pc = none) (same : roles.holds pc = roles.holds (core.pc task)) :
    Well roles (core.goto task pc) := by
  refine ⟨well.listed_update awake stays, well.nodup, fun other => ?_⟩
  rw [show (core.goto task pc).owner = core.owner from rfl, well.owner other]
  show roles.holds (core.pc other) = true ↔
    roles.holds (Function.update core.pc task pc other) = true
  by_cases own : other = task
  · rw [own, Function.update_self, same]
  · rw [Function.update_of_ne own]

theorem lock (well : Well roles core) (awake : roles.waitsFor (core.pc task) = none)
    (stays : roles.waitsFor pc = none) (holds : roles.holds pc = true)
    (locked : core.lock task pc = some after) : Well roles after := by
  obtain ⟨free, rfl⟩ := stepped_of_guard locked
  have nobody : ∀ other, roles.holds (core.pc other) ≠ true := by
    intro other held
    rw [(well.owner other).mpr held] at free
    cases free
  refine ⟨well.listed_update awake stays, well.nodup, fun other => ?_⟩
  show some task = some other ↔ roles.holds (Function.update core.pc task pc other) = true
  by_cases own : other = task
  · rw [own, Function.update_self]
    exact iff_of_true rfl holds
  · rw [Function.update_of_ne own]
    exact iff_of_false (fun same => own (Option.some.inj same).symm) (nobody other)

/-- When nobody is inside of a critical section, everybody gets the mutex. -/
theorem lock_ne_none (well : Well roles core)
    (outside : ∀ other, roles.holds (core.pc other) ≠ true) (task : Task) (pc : Pc) :
    core.lock task pc ≠ none := by
  have free : core.owner = none := by
    cases owner : core.owner with
    | none => rfl
    | some holder => exact absurd ((well.owner holder).mp owner) (outside holder)
  rw [Core.lock, free]
  exact Option.some_ne_none _

/-- Only the owner may leave the mutex. -/
theorem not_holds_update (well : Well roles core) (held : roles.holds (core.pc task) = true)
    (leaves : roles.holds pc = false) (other : Task) :
    none = some other ↔ roles.holds (Function.update core.pc task pc other) = true := by
  refine iff_of_false (fun impossible => nomatch impossible) ?_
  by_cases own : other = task
  · rw [own, Function.update_self, leaves]
    exact Bool.false_ne_true
  · rw [Function.update_of_ne own]
    exact fun held' => own (well.eq_of_holds held held')

omit [DecidableEq Task] in
theorem awake_of_holds (held : roles.holds pc = true) : roles.waitsFor pc = none := by
  cases waits : roles.waitsFor pc with
  | none => rfl
  | some cond =>
    rw [roles.holds_of_waits waits] at held
    cases held

theorem unlock (well : Well roles core) (held : roles.holds (core.pc task) = true)
    (stays : roles.waitsFor pc = none) (leaves : roles.holds pc = false) :
    Well roles (core.unlock task pc) :=
  ⟨well.listed_update (awake_of_holds held) stays, well.nodup, well.not_holds_update held leaves⟩

variable [DecidableEq Cond]

/-- The owner begins to wait. -/
theorem wait (well : Well roles core) (held : roles.holds (core.pc task) = true)
    (waits : roles.waitsFor pc = some cond) : Well roles (core.wait cond task pc) := by
  have awake := awake_of_holds held
  have absent : ∀ cond, task ∉ core.wait_list cond := by
    intro cond member
    have waiting := (well.listed cond task).mp member
    rw [awake] at waiting
    cases waiting
  refine ⟨fun cond' other => ?_, fun cond' => ?_,
    well.not_holds_update held (roles.holds_of_waits waits)⟩
  · show other ∈ Function.update core.wait_list cond (core.wait_list cond ++ [task]) cond' ↔
      roles.waitsFor (Function.update core.pc task pc other) = some cond'
    by_cases own : other = task
    · rw [own, Function.update_self, waits]
      by_cases same : cond' = cond
      · rw [same, Function.update_self]
        exact iff_of_true (List.mem_append_right _ List.mem_cons_self) rfl
      · rw [Function.update_of_ne same]
        exact iff_of_false (absent cond') fun equal => same (Option.some.inj equal).symm
    · rw [Function.update_of_ne own, ← well.listed cond' other]
      by_cases same : cond' = cond
      · rw [same, Function.update_self, List.mem_append, List.mem_singleton]
        exact or_iff_left own
      · rw [Function.update_of_ne same]
  · show (Function.update core.wait_list cond (core.wait_list cond ++ [task]) cond').Nodup
    by_cases same : cond' = cond
    · rw [same, Function.update_self, List.nodup_append]
      refine ⟨well.nodup cond, List.nodup_singleton task, ?_⟩
      rintro other inside last own rfl
      rw [List.mem_singleton] at own
      exact absent cond (own ▸ inside)
    · rw [Function.update_of_ne same]
      exact well.nodup cond'

omit [DecidableEq Task] [DecidableEq Cond] in
/-- A resumed waiter does not hold the mutex, as it did not before. -/
theorem holds_resumed (waits : roles.waitsFor pc = some cond) :
    roles.holds (roles.resumed pc) = roles.holds pc := by
  rw [roles.holds_resumed waits, roles.holds_of_waits waits]

theorem signal (well : Well roles core) (cond : Cond) : Well roles (core.signal roles cond) := by
  unfold Core.signal
  cases shape : core.wait_list cond with
  | nil => exact well
  | cons first rest =>
    have nodup := well.nodup cond
    rw [shape] at nodup
    have waits : roles.waitsFor (core.pc first) = some cond := by
      rw [← well.listed, shape]
      exact List.mem_cons_self
    refine ⟨fun cond' other => ?_, fun cond' => ?_, fun other => ?_⟩
    · show other ∈ Function.update core.wait_list cond rest cond' ↔
        roles.waitsFor (Function.update core.pc first (roles.resumed (core.pc first)) other) =
          some cond'
      by_cases own : other = first
      · rw [own, Function.update_self, roles.waitsFor_resumed waits]
        refine iff_of_false ?_ fun impossible => nomatch impossible
        by_cases same : cond' = cond
        · rw [same, Function.update_self]
          exact (List.nodup_cons.mp nodup).1
        · rw [Function.update_of_ne same, well.listed, waits]
          exact fun equal => same (Option.some.inj equal).symm
      · rw [Function.update_of_ne own, ← well.listed]
        by_cases same : cond' = cond
        · rw [same, Function.update_self, shape, List.mem_cons]
          exact (or_iff_right own).symm
        · rw [Function.update_of_ne same]
    · show (Function.update core.wait_list cond rest cond').Nodup
      by_cases same : cond' = cond
      · rw [same, Function.update_self]
        exact (List.nodup_cons.mp nodup).2
      · rw [Function.update_of_ne same]
        exact well.nodup cond'
    · show core.owner = some other ↔ _
      rw [well.owner other]
      show roles.holds (core.pc other) = true ↔
        roles.holds (Function.update core.pc first (roles.resumed (core.pc first)) other) = true
      by_cases own : other = first
      · rw [own, Function.update_self, holds_resumed waits]
      · rw [Function.update_of_ne own]

theorem broadcast (well : Well roles core) (cond : Cond) :
    Well roles (core.broadcast roles cond) := by
  refine ⟨fun cond' other => ?_, fun cond' => ?_, fun other => ?_⟩
  · show other ∈ Function.update core.wait_list cond [] cond' ↔ roles.waitsFor
      (if other ∈ core.wait_list cond then roles.resumed (core.pc other) else core.pc other) =
        some cond'
    split
    · rename_i inside
      have waits := (well.listed cond other).mp inside
      rw [roles.waitsFor_resumed waits]
      refine iff_of_false ?_ fun impossible => nomatch impossible
      by_cases same : cond' = cond
      · rw [same, Function.update_self]
        exact List.not_mem_nil
      · rw [Function.update_of_ne same, well.listed, waits]
        exact fun equal => same (Option.some.inj equal).symm
    · rename_i outside
      by_cases same : cond' = cond
      · rw [same, Function.update_self, ← well.listed]
        exact iff_of_false List.not_mem_nil outside
      · rw [Function.update_of_ne same]
        exact well.listed cond' other
  · show (Function.update core.wait_list cond [] cond').Nodup
    by_cases same : cond' = cond
    · rw [same, Function.update_self]
      exact List.nodup_nil
    · rw [Function.update_of_ne same]
      exact well.nodup cond'
  · show core.owner = some other ↔ roles.holds
      (if other ∈ core.wait_list cond then roles.resumed (core.pc other) else core.pc other) = true
    rw [well.owner other]
    split
    · rename_i inside
      rw [holds_resumed ((well.listed cond other).mp inside)]
    · rfl

/-- A task that does not wait is where it was behind a signal. -/
theorem pc_signal (well : Well roles core) (awake : roles.waitsFor (core.pc task) = none)
    (cond : Cond) : (core.signal roles cond).pc task = core.pc task := by
  unfold Core.signal
  cases shape : core.wait_list cond with
  | nil => rfl
  | cons first rest =>
    refine Function.update_of_ne ?_ ..
    rintro rfl
    have waits : roles.waitsFor (core.pc task) = some cond := by
      rw [← well.listed, shape]
      exact List.mem_cons_self
    rw [awake] at waits
    cases waits

/-- A signal resumes the tasks that waited, and moves nobody else. -/
theorem pc_signal_cases (well : Well roles core) (cond : Cond) (task : Task) :
    (core.signal roles cond).pc task = core.pc task ∨
      roles.waitsFor (core.pc task) = some cond ∧
        (core.signal roles cond).pc task = roles.resumed (core.pc task) := by
  unfold Core.signal
  cases shape : core.wait_list cond with
  | nil => exact Or.inl rfl
  | cons first rest =>
    by_cases own : task = first
    · subst own
      have waits : roles.waitsFor (core.pc task) = some cond := by
        rw [← well.listed, shape]
        exact List.mem_cons_self
      exact Or.inr ⟨waits, Function.update_self ..⟩
    · exact Or.inl (Function.update_of_ne own ..)

/-- A signal leaves a role that a waiter is in as much as the resumed task. -/
theorem census_signal (well : Well roles core) {role : Pc → Bool}
    (same : ∀ pc, roles.waitsFor pc = some cond → role (roles.resumed pc) = role pc) :
    census role (core.signal roles cond).pc = census role core.pc := by
  unfold Core.signal
  cases shape : core.wait_list cond with
  | nil => rfl
  | cons first rest =>
    have waits : roles.waitsFor (core.pc first) = some cond := by
      rw [← well.listed, shape]
      exact List.mem_cons_self
    exact census_stay (same _ waits)

/-- A signal brings one task into a role that resumed waiters are in, if there is a waiter. -/
theorem census_signal_enter (well : Well roles core) (role : Pc → Bool)
    (outside : ∀ pc, roles.waitsFor pc = some cond → role pc = false)
    (inside : ∀ pc, roles.waitsFor pc = some cond → role (roles.resumed pc) = true)
    (some : core.wait_list cond ≠ []) :
    census role (core.signal roles cond).pc = census role core.pc + 1 := by
  unfold Core.signal
  cases shape : core.wait_list cond with
  | nil => exact absurd shape some
  | cons first rest =>
    have waits : roles.waitsFor (core.pc first) = Option.some cond := by
      rw [← well.listed, shape]
      exact List.mem_cons_self
    exact census_enter (outside _ waits) (inside _ waits)

end Well

end CondMonitor

end Nattan
