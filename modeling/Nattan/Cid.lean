/-
This file models the ids of the tasks of one thread, and proves that tasks alive at the same
time have different ids as long as a task is only created while fewer than
`THREAD_MAX_TASK_SIZE` are alive.

Ids are counted up until there are as many as that, and from then on taken from a heap of the
ids that were given back: the ids alive and those in the heap are always the numbers below the
counter, each once. When neither is left `alloc_cid` fails with -1. `task_init` makes an id of
it, so that all tasks beyond the maximum share one, and give back a number that another
task may have.
-/

import Nattan.Heap

namespace Nattan

namespace Cid

def THREAD_MAX_TASK_SIZE : Nat := 100000

/-- An `int` converted to a `cid_t`. -/
def cidOf (value : Int) : Nat :=
  (value % 2 ^ 64).toNat

theorem cidOf_natCast {value : Nat} (small : value < 2 ^ 64) : cidOf value = value := by
  unfold cidOf
  omega

/-- `_id_cmp`, which compares the ids as `int`s. -/
def _id_cmp (l r : Nat) : Int :=
  if intOf l < intOf r then 1 else 0

/-- `id_dispatch_t`. -/
structure IdDispatch where
  recycle : Heap Nat
  base : Int
  max_id : Nat

def id_dispatch_init (max : Nat) : IdDispatch where
  recycle := Heap.heap_init _id_cmp
  base := 0
  max_id := max

/-- `alloc_cid`, on the allocator of the thread, which it makes first when there is none. -/
def alloc_cid (_cid_allocator : Option IdDispatch) : Option (IdDispatch × Nat) :=
  let idp := _cid_allocator.getD (id_dispatch_init THREAD_MAX_TASK_SIZE)
  if idp.max_id ≤ cidOf idp.base then
    idp.recycle.heap_pop.map fun popped =>
      match popped.2 with
      | none => ({ idp with recycle := popped.1 }, cidOf (-1))
      | some elm => ({ idp with recycle := popped.1 }, cidOf (intOf elm))
  else some ({ idp with base := idp.base + 1 }, cidOf idp.base)

/-- `free_cid`. -/
def free_cid (_cid_allocator : Option IdDispatch) (cid : Nat) : Option (Option IdDispatch) :=
  match _cid_allocator with
  | none => some none
  | some idp =>
    (idp.recycle.heap_push (cid % idp.max_id)).map fun recycle =>
      some { idp with recycle := recycle }

/-- A task at its address. -/
structure Task where
  address : Nat
  cid : Nat
  deriving DecidableEq, Repr

/-- The allocator of a thread, and the tasks that are alive. -/
structure State where
  _cid_allocator : Option IdDispatch
  alive : List Task

def State.start : State where
  _cid_allocator := none
  alive := []

inductive Action where
  | task_create (address : Nat)
  | task_destory (t : Task)
  deriving DecidableEq, Repr

namespace State

/-- `task_create` gets an address that no task has. It does not look at the id it gets. -/
def task_create (state : State) (address : Nat) : Option State :=
  if address ∈ state.alive.map Task.address then none
  else
    (alloc_cid state._cid_allocator).map fun allocated =>
      { _cid_allocator := some allocated.1, alive := ⟨address, allocated.2⟩ :: state.alive }

def task_destory (state : State) (t : Task) : Option State :=
  if t ∈ state.alive then
    (free_cid state._cid_allocator t.cid).map fun _cid_allocator =>
      { _cid_allocator := _cid_allocator, alive := state.alive.erase t }
  else none

def step (state : State) : Action → Option State
  | .task_create address => state.task_create address
  | .task_destory t => state.task_destory t

/-! ### Distinct ids -/

def cids (state : State) : List Nat :=
  state.alive.map Task.cid

/-- The tasks alive have different ids. -/
def Distinct (state : State) : Prop :=
  state.alive.Pairwise fun t other => t.cid ≠ other.cid

/-- A task is created while fewer than the maximum are alive. -/
def HasRoom (state : State) : Action → Prop
  | .task_create _ => state.alive.length < THREAD_MAX_TASK_SIZE
  | .task_destory _ => True

/-- The ids alive and those given back are the numbers below the counter. -/
structure Balanced (state : State) (idp : IdDispatch) (base : Nat) : Prop where
  allocator : state._cid_allocator.getD (id_dispatch_init THREAD_MAX_TASK_SIZE) = idp
  base_eq : idp.base = base
  max_id_eq : idp.max_id = THREAD_MAX_TASK_SIZE
  inRange : base ≤ THREAD_MAX_TASK_SIZE
  perm : (state.cids ++ idp.recycle.cells).Perm (List.range base)

/-- What every step keeps. -/
def Ok (state : State) : Prop :=
  ∃ idp base, state.Balanced idp base

section Steps

variable {state after : State} {idp : IdDispatch} {base : Nat}

theorem ok_start : start.Ok :=
  ⟨_, 0, rfl, rfl, rfl, Nat.zero_le _, .rfl⟩

theorem Balanced.size (balanced : state.Balanced idp base) :
    state.alive.length + idp.recycle.heap_size = base := by
  have same := balanced.perm.length_eq
  rw [List.length_append, List.length_range] at same
  unfold cids at same
  rw [List.length_map] at same
  exact same

theorem Balanced.small (balanced : state.Balanced idp base) :
    idp.recycle.heap_size ≤ THREAD_MAX_TASK_SIZE := by
  have size := balanced.size
  have inRange := balanced.inRange
  omega

theorem Balanced.cids_nodup (balanced : state.Balanced idp base) : state.cids.Nodup :=
  (List.nodup_append.mp (balanced.perm.nodup_iff.mpr List.nodup_range)).1

/-- As long as the counter is below the maximum it is the next id. -/
theorem Balanced.create_counted (balanced : state.Balanced idp base)
    (counts : base < THREAD_MAX_TASK_SIZE) :
    alloc_cid state._cid_allocator = some ({ idp with base := idp.base + 1 }, base) ∧
      ∀ address, State.Balanced
        ⟨some { idp with base := idp.base + 1 }, ⟨address, base⟩ :: state.alive⟩
        { idp with base := idp.base + 1 } (base + 1) := by
  obtain ⟨allocator, base_eq, max_id_eq, inRange, perm⟩ := balanced
  have small : base < 100000 := counts
  have same : cidOf idp.base = base := by
    rw [base_eq]
    exact cidOf_natCast (by omega)
  refine ⟨?_, fun address => ⟨rfl, ?_, max_id_eq, counts, ?_⟩⟩
  · unfold alloc_cid
    dsimp only
    rw [allocator, same, max_id_eq, if_neg (Nat.not_le_of_lt counts)]
  · show idp.base + 1 = (base + 1 : Nat)
    rw [base_eq]
    rfl
  · rw [List.range_succ]
    exact (perm.cons base).trans (List.perm_append_singleton ..).symm

/-- After that it is one that was given back, and there is one while there is room. -/
theorem Balanced.create_recycled (balanced : state.Balanced idp base)
    (counted : THREAD_MAX_TASK_SIZE ≤ base) (room : state.alive.length < THREAD_MAX_TASK_SIZE) :
    ∃ next cid, alloc_cid state._cid_allocator = some (next, cid) ∧
      ∀ address, State.Ok ⟨some next, ⟨address, cid⟩ :: state.alive⟩ := by
  have size := balanced.size
  have few := balanced.small
  obtain ⟨allocator, base_eq, max_id_eq, inRange, perm⟩ := balanced
  have small : idp.recycle.heap_size < 2 ^ 31 := Nat.lt_of_le_of_lt few (by decide)
  have some_ : idp.recycle.cells ≠ [] := by
    intro empty
    have none_ : idp.recycle.heap_size = 0 := congrArg List.length empty
    omega
  obtain ⟨recycle, pops, popped, _⟩ := Heap.heap_pop_perm some_ small
  have below : idp.recycle.heap_get 0 < base := by
    have member := popped.subset List.mem_cons_self
    exact List.mem_range.mp (perm.subset (List.mem_append_right _ member))
  have few' : base ≤ 100000 := inRange
  have same : cidOf idp.base = base := by
    rw [base_eq]
    exact cidOf_natCast (by omega)
  have cid : cidOf (intOf (idp.recycle.heap_get 0)) = idp.recycle.heap_get 0 := by
    rw [intOf_of_lt (by omega) (by omega)]
    exact cidOf_natCast (by omega)
  refine ⟨{ idp with recycle := recycle }, idp.recycle.heap_get 0, ?_, fun address => ?_⟩
  · unfold alloc_cid
    dsimp only
    rw [allocator, same, max_id_eq, if_pos counted, pops, Option.map_some]
    dsimp only
    rw [cid]
  · refine ⟨_, base, rfl, base_eq, max_id_eq, inRange, ?_⟩
    exact List.perm_middle.symm.trans ((popped.append_left _).trans perm)

/-- A task that ends gives its id back. -/
theorem Balanced.destory (balanced : state.Balanced idp base) {t : Task} (lives : t ∈ state.alive) :
    ∃ after, state.task_destory t = some after ∧ after.Ok := by
  have size := balanced.size
  have few := balanced.small
  obtain ⟨allocator, base_eq, max_id_eq, inRange, perm⟩ := balanced
  have below : t.cid < base := by
    have member : t.cid ∈ state.cids := List.mem_map_of_mem lives
    exact List.mem_range.mp (perm.subset (List.mem_append_left _ member))
  have allocated : state._cid_allocator = some idp := by
    cases shape : state._cid_allocator with
    | none =>
      rw [shape] at allocator
      have zero : idp.base = 0 := congrArg IdDispatch.base allocator.symm
      omega
    | some allocated =>
      rw [shape] at allocator
      exact congrArg some allocator
  have same : t.cid % idp.max_id = t.cid := by
    rw [max_id_eq]
    exact Nat.mod_eq_of_lt (Nat.lt_of_lt_of_le below inRange)
  have positive : 0 < state.alive.length := List.length_pos_of_mem lives
  have max : THREAD_MAX_TASK_SIZE = 100000 := rfl
  obtain ⟨recycle, pushes, pushed, _⟩ :=
    idp.recycle.heap_push_perm t.cid (show idp.recycle.heap_size + 1 < 2 ^ 31 by omega)
  refine ⟨⟨some { idp with recycle := recycle }, state.alive.erase t⟩, ?_, ?_⟩
  · unfold task_destory free_cid
    rw [if_pos lives, allocated]
    dsimp only
    rw [same, pushes]
    rfl
  · refine ⟨_, base, rfl, base_eq, max_id_eq, inRange, ?_⟩
    have erased : state.cids.Perm (t.cid :: (state.alive.erase t).map Task.cid) :=
      (List.perm_cons_erase lives).map Task.cid
    exact (pushed.append_left _).trans
      (List.perm_middle.trans ((erased.append_right _).symm.trans perm))

/-- A task is created where there is room. -/
theorem Ok.create (ok : state.Ok) (room : state.alive.length < THREAD_MAX_TASK_SIZE)
    {address : Nat} (unused : address ∉ state.alive.map Task.address) :
    ∃ after cid, state.task_create address = some after ∧
      after.alive = ⟨address, cid⟩ :: state.alive ∧ after.Ok := by
  obtain ⟨idp, base, balanced⟩ := ok
  obtain ⟨next, cid, allocates, holds⟩ : ∃ next cid,
      alloc_cid state._cid_allocator = some (next, cid) ∧
        ∀ address, State.Ok ⟨some next, ⟨address, cid⟩ :: state.alive⟩ := by
    by_cases counts : base < THREAD_MAX_TASK_SIZE
    · obtain ⟨allocates, holds⟩ := balanced.create_counted counts
      exact ⟨_, base, allocates, fun address => ⟨_, base + 1, holds address⟩⟩
    · exact balanced.create_recycled (Nat.le_of_not_lt counts) room
  refine ⟨_, cid, ?_, rfl, holds address⟩
  unfold task_create
  rw [if_neg unused, allocates]
  rfl

theorem Ok.step (ok : state.Ok) {action : Action} (room : state.HasRoom action)
    (stepped : state.step action = some after) : after.Ok := by
  cases action with
  | task_create address =>
    by_cases unused : address ∉ state.alive.map Task.address
    · obtain ⟨next, cid, creates, _, holds⟩ := ok.create room unused
      obtain rfl := Option.some.inj (creates.symm.trans stepped)
      exact holds
    · have impossible : state.task_create address = none := if_pos (not_not.mp unused)
      cases impossible.symm.trans stepped
  | task_destory t =>
    by_cases lives : t ∈ state.alive
    · obtain ⟨idp, base, balanced⟩ := ok
      obtain ⟨next, destroys, holds⟩ := balanced.destory lives
      obtain rfl := Option.some.inj (destroys.symm.trans stepped)
      exact holds
    · have impossible : state.task_destory t = none := if_neg lives
      cases impossible.symm.trans stepped

theorem Ok.distinct (ok : state.Ok) : state.Distinct := by
  obtain ⟨idp, base, balanced⟩ := ok
  exact List.pairwise_map.mp balanced.cids_nodup

end Steps

/-- While tasks are only created where there is room, the tasks alive have different ids, and a
task that is created gets an id that no task alive has. -/
theorem distinct_ids {state : State} (reached : ReachableBy step HasRoom start state) :
    state.Distinct ∧
      (∀ address, state.HasRoom (.task_create address) →
        address ∉ state.alive.map Task.address →
          ∃ after cid, state.task_create address = some after ∧
            after.alive = ⟨address, cid⟩ :: state.alive ∧ cid ∉ state.cids) ∧
      ∀ t ∈ state.alive, ∃ after, state.task_destory t = some after := by
  have ok : state.Ok :=
    reached.invariant Ok ok_start fun _ _ _ holds room stepped => holds.step room stepped
  refine ⟨ok.distinct, fun address room unused => ?_, fun t lives => ?_⟩
  · obtain ⟨after, cid, creates, alive, idp, base, balanced⟩ := ok.create room unused
    have nodup := balanced.cids_nodup
    unfold cids at nodup
    rw [alive] at nodup
    exact ⟨after, cid, creates, alive, (List.nodup_cons.mp nodup).1⟩
  · obtain ⟨idp, base, balanced⟩ := ok
    obtain ⟨after, destroys, _⟩ := balanced.destory lives
    exact ⟨after, destroys⟩

instance (state : State) (action : Action) : Decidable (state.HasRoom action) :=
  match action with
  | .task_create _ => inferInstanceAs (Decidable (_ < _))
  | .task_destory _ => inferInstanceAs (Decidable True)

/-- Two tasks are alive behind three creations and an end. -/
theorem distinct_ids_two :
    ∃ state : State, state.cids = [2, 1] ∧ state.Distinct ∧
      (∀ address, state.HasRoom (.task_create address) →
        address ∉ state.alive.map Task.address →
          ∃ after cid, state.task_create address = some after ∧
            after.alive = ⟨address, cid⟩ :: state.alive ∧ cid ∉ state.cids) ∧
      ∀ t ∈ state.alive, ∃ after, state.task_destory t = some after := by
  have reached : ∃ state, runBy step HasRoom start
      [.task_create 7, .task_create 8, .task_destory ⟨7, 0⟩, .task_create 7] = some state ∧
        state.cids = [2, 1] :=
    ⟨_, rfl, by decide⟩
  obtain ⟨state, executed, cids⟩ := reached
  exact ⟨state, cids, distinct_ids (reachableBy_of_runBy executed)⟩

/-! ### Too many tasks -/

/-- Any number of tasks up to the maximum can be created, one after the other. -/
theorem reachable_count {count : Nat} (few : count ≤ THREAD_MAX_TASK_SIZE) :
    ∃ state idp, Reachable step start state ∧ state.Balanced idp count ∧
      idp.recycle.cells = [] ∧ ∀ t ∈ state.alive, t.address < count := by
  induction count with
  | zero =>
    exact ⟨_, _, .refl, ⟨rfl, rfl, rfl, Nat.zero_le _, .rfl⟩, rfl,
      fun t member => absurd member List.not_mem_nil⟩
  | succ count inductionHypothesis =>
    obtain ⟨state, idp, reached, balanced, empty, below⟩ :=
      inductionHypothesis (Nat.le_of_succ_le few)
    obtain ⟨allocates, holds⟩ := balanced.create_counted few
    have unused : count ∉ state.alive.map Task.address := by
      intro used
      obtain ⟨t, member, same⟩ := List.mem_map.mp used
      exact Nat.lt_irrefl _ (same ▸ below t member)
    have creates : state.task_create count =
        some ⟨some { idp with base := idp.base + 1 }, ⟨count, count⟩ :: state.alive⟩ := by
      unfold task_create
      rw [if_neg unused, allocates]
      rfl
    refine ⟨_, _, reached.tail ⟨.task_create count, trivial, creates⟩, holds count, empty, ?_⟩
    intro t member
    rcases List.mem_cons.mp member with first | rest
    · exact first ▸ Nat.lt_succ_self count
    · exact Nat.lt_succ_of_lt (below t rest)

/-- Beyond the maximum every id is -1. -/
theorem alloc_cid_exhausted {idp : IdDispatch} (base_eq : idp.base = THREAD_MAX_TASK_SIZE)
    (max_id_eq : idp.max_id = THREAD_MAX_TASK_SIZE) (empty : idp.recycle.cells = [])
    {_cid_allocator : Option IdDispatch}
    (allocator : _cid_allocator.getD (id_dispatch_init THREAD_MAX_TASK_SIZE) = idp) :
    alloc_cid _cid_allocator = some (idp, cidOf (-1)) := by
  have full : idp.max_id ≤ cidOf idp.base := by
    rw [base_eq, max_id_eq]
    exact Nat.le_refl _
  unfold alloc_cid
  dsimp only
  rw [allocator, if_pos full, Heap.heap_pop_empty empty]
  rfl

/-- The second task beyond the maximum has the id of the first. -/
theorem not_distinct_ids : ∃ state, Reachable step start state ∧ ¬ state.Distinct := by
  obtain ⟨state, idp, reached, balanced, empty, below⟩ := reachable_count (Nat.le_refl _)
  obtain ⟨allocator, base_eq, max_id_eq, _, _⟩ := balanced
  have unused : ∀ address, THREAD_MAX_TASK_SIZE ≤ address →
      address ∉ state.alive.map Task.address := by
    intro address beyond used
    obtain ⟨t, member, same⟩ := List.mem_map.mp used
    have bound := below t member
    omega
  let first : Task := ⟨THREAD_MAX_TASK_SIZE, cidOf (-1)⟩
  let second : Task := ⟨THREAD_MAX_TASK_SIZE + 1, cidOf (-1)⟩
  have creates : state.task_create first.address = some ⟨some idp, first :: state.alive⟩ := by
    unfold task_create
    rw [if_neg (unused _ (Nat.le_refl _)), alloc_cid_exhausted base_eq max_id_eq empty allocator]
    rfl
  have unused' : second.address ∉ (first :: state.alive).map Task.address := by
    rw [List.map_cons, List.mem_cons, not_or]
    exact ⟨Nat.succ_ne_self _, unused _ (Nat.le_succ _)⟩
  have creates' : State.task_create ⟨some idp, first :: state.alive⟩ second.address =
      some ⟨some idp, second :: first :: state.alive⟩ := by
    unfold task_create
    rw [if_neg unused', alloc_cid_exhausted base_eq max_id_eq empty rfl]
    rfl
  refine ⟨_, (reached.tail ⟨.task_create _, trivial, creates⟩).tail
    ⟨.task_create _, trivial, creates'⟩, fun distinct => ?_⟩
  exact (List.pairwise_cons.mp distinct).1 first List.mem_cons_self rfl

end State

end Cid

end Nattan
