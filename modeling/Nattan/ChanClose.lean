/-
This file models `Chan<T>` once more, one memory access at a time, because `close` takes
no lock and can come between any two accesses of the task that has the mutex.

A critical section is a test of `count`, and then either a wait, for which the task has
still to join the wait list, or an `enqueue` or `dequeue` of four accesses: the slot and
its index, the load of `count`, the store of `count`, the `signalAll`. `close` is the four
stores of its body. A task that has lost its `count` between a load and a store puts the
old one back, and a `count--` after a `close` wraps around.

Who waits for what, and who will signal it, needs only the stages of the tasks. An outline
keeps these, `count` and the owner of the mutex; every step of the model is an effect on
the outline, and the invariant is proved effect by effect.
-/

import Nattan.Chan
import Mathlib.Data.Fintype.Basic

namespace Nattan.ChanClose

open Monitor Chan

universe u w

/-! ### The channel -/

/-- The two conditions of a channel: `notFull`, which waits for space, and `notEmpty`, which waits
for an item. -/
inductive Side where
  | space
  | item
  deriving DecidableEq, Repr

/-- The condition an operation waits for. -/
def waitsFor {Element : Type w} : Operation Element → Side
  | .send _ | .sendTill _ => .space
  | .recv | .recvTill => .item

/-- Whether an operation waits at most once, and with a timer. -/
def isTimed {Element : Type w} : Operation Element → Bool
  | .sendTill _ | .recvTill => true
  | .send _ | .recv => false

/-- Where a task stands. -/
inductive Pc (Element : Type w) where
  | idle (last : Option (Result Element))
  | lock (operation : Operation Element)
  | test (operation : Operation Element)
  | park (operation : Operation Element)
  | wait (operation : Operation Element)
  | resumed (operation : Operation Element)
  | retest (operation : Operation Element)
  | put (element : Element)
  | putLoad (element : Element)
  | putStore (element : Element) (loaded : UInt32)
  | putSignal (element : Element)
  | take
  | takeLoad (slot : UInt32)
  | takeStore (slot loaded : UInt32)
  | takeSignal (slot : UInt32)
  | unlock (result : Result Element)
  | closeCount
  | closePut
  | closeTake
  | closeFlag
  deriving DecidableEq, Repr

variable {Task : Type u} {Element : Type w}

namespace Pc

def isIdle : Pc Element → Bool
  | idle _ => true
  | _ => false

/-- Off the wait list: `send` and `recv` go round their loop, the timed operations test once
more. -/
def woken (operation : Operation Element) : Pc Element :=
  if isTimed operation then resumed operation else lock operation

/-- `signalAll()` on one of the conditions. -/
def signal (side : Side) : Pc Element → Pc Element
  | wait operation => if waitsFor operation = side then woken operation else wait operation
  | pc => pc

/-- The timer of a timed wait expires. -/
def timer : Pc Element → Option (Pc Element)
  | wait operation => if isTimed operation then some (resumed operation) else none
  | _ => none

end Pc

structure State (Task : Type u) (Element : Type w) where
  capacity : UInt32
  messages : UInt32 → Element
  putIndex : UInt32
  takeIndex : UInt32
  count : UInt32
  closed : Bool
  owner : Option Task
  pc : Task → Pc Element

/-- A new channel, with every task outside. -/
def State.new [Inhabited Element] (capacity : UInt32) : State Task Element where
  capacity
  messages := fun _ => default
  putIndex := 0
  takeIndex := 0
  count := 0
  closed := false
  owner := none
  pc := fun _ => .idle none

namespace State

def isFull (state : State Task Element) : Bool := state.count == state.capacity

def isEmpty (state : State Task Element) : Bool := state.count == 0

/-- The test an operation makes before it waits. -/
def blocks (state : State Task Element) : Side → Bool
  | .space => state.isFull
  | .item => state.isEmpty

/-- The index behind another one in the ring. -/
def behind (state : State Task Element) (index : UInt32) : UInt32 :=
  if index + 1 = state.capacity then 0 else index + 1

variable [DecidableEq Task]

def goto (state : State Task Element) (task : Task) (pc : Pc Element) : State Task Element :=
  { state with pc := Function.update state.pc task pc }

/-- `signalAll()` by a task that goes on to its unlock. -/
def signalAll (state : State Task Element) (side : Side) (task : Task) (pc : Pc Element) :
    State Task Element :=
  { state with pc := Function.update (fun other => (state.pc other).signal side) task pc }

end State

/-- The first access of `enqueue(msg)` or `dequeue()`. -/
def transfer : Operation Element → Pc Element
  | .send element | .sendTill element => .put element
  | .recv | .recvTill => .take

section

variable [DecidableEq Task]

/-- The next access of a task inside an operation; a task that waits, or that needs a mutex another
task owns, has none. -/
def advance (state : State Task Element) (task : Task) : Option (State Task Element) :=
  match state.pc task with
  | .idle _ => none
  | .lock operation =>
    if state.owner = none then some { state.goto task (.test operation) with owner := some task }
    else none
  | .test operation =>
    if state.blocks (waitsFor operation) then some (state.goto task (.park operation))
    else some (state.goto task (transfer operation))
  | .park operation => some { state.goto task (.wait operation) with owner := none }
  | .wait _ => none
  | .resumed operation =>
    if state.owner = none then some { state.goto task (.retest operation) with owner := some task }
    else none
  | .retest operation =>
    if state.blocks (waitsFor operation) then some (state.goto task (.unlock .refused))
    else some (state.goto task (transfer operation))
  | .put element =>
    some { state.goto task (.putLoad element) with
      messages := Function.update state.messages state.putIndex element
      putIndex := state.behind state.putIndex }
  | .putLoad element => some (state.goto task (.putStore element state.count))
  | .putStore element loaded =>
    some { state.goto task (.putSignal element) with count := loaded + 1 }
  | .putSignal element => some (state.signalAll .item task (.unlock (.accepted element)))
  | .take =>
    some { state.goto task (.takeLoad state.takeIndex) with
      takeIndex := state.behind state.takeIndex }
  | .takeLoad slot => some (state.goto task (.takeStore slot state.count))
  | .takeStore slot loaded => some { state.goto task (.takeSignal slot) with count := loaded - 1 }
  | .takeSignal slot =>
    some (state.signalAll .space task (.unlock (.item (state.messages slot))))
  | .unlock result => some { state.goto task (.idle (some result)) with owner := none }
  | .closeCount => some { state.goto task .closePut with count := 0 }
  | .closePut => some { state.goto task .closeTake with putIndex := 0 }
  | .closeTake => some { state.goto task .closeFlag with takeIndex := 0 }
  | .closeFlag => some { state.goto task (.idle none) with closed := true }

inductive Action (Task : Type u) (Element : Type w) where
  | call (task : Task) (operation : Operation Element)
  | close (task : Task)
  | run (task : Task)
  | timer (task : Task)

/-- One atomic step of the channel. -/
def step (state : State Task Element) : Action Task Element → Option (State Task Element)
  | .call task operation =>
    if (state.pc task).isIdle then some (state.goto task (.lock operation)) else none
  | .close task => if (state.pc task).isIdle then some (state.goto task .closeCount) else none
  | .run task => advance state task
  | .timer task => ((state.pc task).timer).map fun pc => state.goto task pc

end

/-! ### Stages -/

/-- What a task means to the others: it is about to wait for a condition with the mutex in its
hand, it waits, or it is in the transfer after which it signals the condition. -/
inductive Stage where
  | outside
  | inside
  | parks (side : Side)
  | waits (side : Side)
  | frees (side : Side)
  deriving DecidableEq, Repr

namespace Stage

/-- The stages that have the mutex. -/
def holds : Stage → Bool
  | outside | waits _ => false
  | inside | parks _ | frees _ => true

/-- `signalAll()` on one of the conditions. -/
def signal (side : Side) (stage : Stage) : Stage :=
  if stage = waits side then outside else stage

end Stage

def Pc.stage : Pc Element → Stage
  | idle _ | lock _ | resumed _ => .outside
  | closeCount | closePut | closeTake | closeFlag => .outside
  | test _ | retest _ | unlock _ => .inside
  | park operation => .parks (waitsFor operation)
  | wait operation => .waits (waitsFor operation)
  | put _ | putLoad _ | putStore _ _ | putSignal _ => .frees .item
  | take | takeLoad _ | takeStore _ _ | takeSignal _ => .frees .space

/-- After `close()`: nobody waits on `notFull` in a channel that is not full, or on `notEmpty` in
one that is not empty, without a task that is about to signal. -/
def StrandsNobody (state : State Task Element) : Prop :=
  state.closed = true →
    (∀ task, (state.pc task).stage = .waits .space → state.count < state.capacity →
        ∃ other, (state.pc other).stage = .frees .space) ∧
      ∀ task, (state.pc task).stage = .waits .item → 0 < state.count →
        ∃ other, (state.pc other).stage = .frees .item

/-- `count = 0` in `close()` only when nobody waits for space or is about to, or somebody will
signal it, or there is no space at all. -/
def ClearsUnawaited (state : State Task Element) : Action Task Element → Prop
  | .run task =>
    state.pc task = .closeCount →
      state.capacity = 0 ∨
        (∀ other, (state.pc other).stage ≠ .waits .space ∧
          (state.pc other).stage ≠ .parks .space) ∨
        ∃ other, (state.pc other).stage = .frees .space
  | .call _ _ | .close _ | .timer _ => True

instance [Fintype Task] [DecidableEq Element] (state : State Task Element)
    (action : Action Task Element) : Decidable (ClearsUnawaited state action) :=
  match action with
  | .run _ => inferInstanceAs (Decidable (_ → _))
  | .call _ _ | .close _ | .timer _ => inferInstanceAs (Decidable True)

/-! ### Outlines -/

/-- What waiting depends on. -/
structure Outline (Task : Type u) where
  capacity : UInt32
  count : UInt32
  owner : Option Task
  stage : Task → Stage

def State.outline (state : State Task Element) : Outline Task where
  capacity := state.capacity
  count := state.count
  owner := state.owner
  stage := fun task => (state.pc task).stage

def Side.other : Side → Side
  | space => item
  | item => space

theorem Side.eq_other_of_ne {side third : Side} (different : third ≠ side) :
    third = side.other := by
  cases side <;> cases third <;> first | rfl | exact absurd rfl different

/-- What a task waits for is not there. -/
def Outline.Blocks (outline : Outline Task) : Side → Prop
  | .space => outline.count = outline.capacity
  | .item => outline.count = 0

/-- The condition for clearing the count. -/
def Outline.Unawaited (outline : Outline Task) : Prop :=
  outline.capacity = 0 ∨
    (∀ other, outline.stage other ≠ .waits .space ∧ outline.stage other ≠ .parks .space) ∨
    ∃ other, outline.stage other = .frees .space

section

variable [DecidableEq Task]

def Outline.goto (outline : Outline Task) (task : Task) (stage : Stage) : Outline Task :=
  { outline with stage := Function.update outline.stage task stage }

/-- What one step of a task does to the outline. -/
inductive Effect (before : Outline Task) (task : Task) : Outline Task → Prop
  | stay : Effect before task before
  | acquire (free : before.owner = none) :
      Effect before task { before.goto task .inside with owner := some task }
  | park (side : Side) (held : before.stage task = .inside) (blocked : before.Blocks side) :
      Effect before task (before.goto task (.parks side))
  | wait (side : Side) (parked : before.stage task = .parks side) :
      Effect before task { before.goto task (.waits side) with owner := none }
  | start (side : Side) (held : before.stage task = .inside)
      (passed : ¬ before.Blocks side.other) : Effect before task (before.goto task (.frees side))
  | store (side : Side) (moving : before.stage task = .frees side) (count : UInt32) :
      Effect before task { before with count }
  | signal (side : Side) (moving : before.stage task = .frees side) :
      Effect before task { before with
        stage := Function.update (fun other => (before.stage other).signal side) task .inside }
  | release (held : before.stage task = .inside) :
      Effect before task { before.goto task .outside with owner := none }
  | leave (side : Side) (waited : before.stage task = .waits side) :
      Effect before task (before.goto task .outside)
  | clear (unawaited : before.Unawaited) : Effect before task { before with count := 0 }

theorem outline_goto (state : State Task Element) (task : Task) (pc : Pc Element) :
    (state.goto task pc).outline = state.outline.goto task pc.stage := by
  have stages : (fun other => ((state.goto task pc).pc other).stage) =
      Function.update (fun other => (state.pc other).stage) task pc.stage := by
    funext other
    by_cases same : other = task
    · subst same
      simp only [State.goto, Function.update_self]
    · simp only [State.goto, Function.update_of_ne same]
  exact congrArg (Outline.mk state.capacity state.count state.owner) stages

omit [DecidableEq Task] in
theorem stage_signal (side : Side) (pc : Pc Element) :
    (pc.signal side).stage = pc.stage.signal side := by
  cases pc with
  | wait operation =>
    show (if waitsFor operation = side then Pc.woken operation else Pc.wait operation).stage =
      if Stage.waits (waitsFor operation) = .waits side then .outside
      else .waits (waitsFor operation)
    by_cases awaited : waitsFor operation = side
    · rw [if_pos awaited, if_pos (congrArg Stage.waits awaited)]
      cases operation <;> rfl
    · rw [if_neg awaited, if_neg fun same => awaited (Stage.waits.inj same)]
      rfl
  | _ => rfl

theorem outline_signalAll (state : State Task Element) (side : Side) (task : Task)
    (pc : Pc Element) :
    (state.signalAll side task pc).outline = { state.outline with
      stage := Function.update (fun other => (state.outline.stage other).signal side) task
        pc.stage } := by
  have stages : (fun other => ((state.signalAll side task pc).pc other).stage) =
      Function.update (fun other => (state.outline.stage other).signal side) task pc.stage := by
    funext other
    by_cases same : other = task
    · subst same
      simp only [State.signalAll, Function.update_self]
    · simp only [State.signalAll, Function.update_of_ne same, State.outline, stage_signal]
  exact congrArg (Outline.mk state.capacity state.count state.owner) stages

theorem goto_stage {outline : Outline Task} {task : Task} {stage : Stage}
    (same : outline.stage task = stage) : outline.goto task stage = outline := by
  subst same
  rw [Outline.goto, Function.update_eq_self]

/-- A step that moves one task, whatever it stores. -/
theorem effect_of_goto {before after : State Task Element} {task : Task} {pc : Pc Element}
    (capacity : after.capacity = before.capacity) (moved : after.pc = (before.goto task pc).pc)
    (effect : Effect before.outline task { before.outline.goto task pc.stage with
      count := after.count, owner := after.owner }) :
    Effect before.outline task after.outline := by
  have outline : after.outline = { before.outline.goto task pc.stage with
      count := after.count, owner := after.owner } := by
    rw [← outline_goto]
    simp only [State.outline, State.goto, capacity, moved]
  rw [outline]
  exact effect

/-- A step within a stage that leaves the count and the mutex alone. -/
theorem effect_of_stay {before after : State Task Element} {task : Task} {pc : Pc Element}
    (capacity : after.capacity = before.capacity) (moved : after.pc = (before.goto task pc).pc)
    (count : after.count = before.count) (owner : after.owner = before.owner)
    (same : (before.pc task).stage = pc.stage) :
    Effect before.outline task after.outline := by
  refine effect_of_goto capacity moved ?_
  have unmoved : before.outline.goto task pc.stage = before.outline := goto_stage same
  rw [unmoved, count, owner]
  exact .stay

/-- A step within a stage that stores the count. -/
theorem effect_of_store {before after : State Task Element} {task : Task} {pc : Pc Element}
    (side : Side) (capacity : after.capacity = before.capacity)
    (moved : after.pc = (before.goto task pc).pc) (owner : after.owner = before.owner)
    (moving : (before.pc task).stage = .frees side) (still : pc.stage = .frees side) :
    Effect before.outline task after.outline := by
  refine effect_of_goto capacity moved ?_
  have unmoved : before.outline.goto task pc.stage = before.outline :=
    goto_stage (moving.trans still.symm)
  rw [unmoved, owner]
  exact .store side moving after.count

omit [DecidableEq Task] in
theorem blocks_iff (state : State Task Element) (side : Side) :
    state.blocks side = true ↔ state.outline.Blocks side := by
  cases side with
  | space => exact beq_iff_eq
  | item => exact beq_iff_eq

/-- The outcome of a test: nothing to wait for, and the transfer starts. -/
theorem effect_of_transfer {before : State Task Element} {task : Task}
    {operation : Operation Element} (held : (before.pc task).stage = .inside)
    (passed : ¬ before.blocks (waitsFor operation) = true) :
    Effect before.outline task (before.goto task (transfer operation)).outline := by
  rw [blocks_iff] at passed
  rw [outline_goto]
  cases operation with
  | send element => exact .start .item held passed
  | sendTill element => exact .start .item held passed
  | recv => exact .start .space held passed
  | recvTill => exact .start .space held passed

/-- A task that needs the mutex takes it when it is free. -/
theorem effect_of_lock {before after : State Task Element} {task : Task} {pc : Pc Element}
    (stepped : (if before.owner = none then
      some { before.goto task pc with owner := some task } else none) = some after)
    (inside : pc.stage = .inside) : Effect before.outline task after.outline := by
  obtain ⟨free, rfl⟩ := stepped_of_guard stepped
  refine effect_of_goto rfl rfl ?_
  rw [inside]
  exact .acquire free

/-- Every access is an effect on the outline. -/
theorem effect_of_advance {before after : State Task Element} {task : Task}
    (unawaited : ClearsUnawaited before (.run task)) (stepped : advance before task = some after) :
    Effect before.outline task after.outline := by
  unfold advance at stepped
  cases pc : before.pc task with
  | idle _ | wait _ =>
    rw [pc] at stepped
    cases stepped
  | lock operation | resumed operation =>
    rw [pc] at stepped
    exact effect_of_lock stepped rfl
  | test operation =>
    simp only [pc] at stepped
    split at stepped
    · rename_i blocked
      cases stepped
      exact effect_of_goto rfl rfl (.park _ (congrArg Pc.stage pc) ((blocks_iff _ _).mp blocked))
    · rename_i passed
      cases stepped
      exact effect_of_transfer (congrArg Pc.stage pc) passed
  | park operation =>
    simp only [pc] at stepped
    cases stepped
    exact effect_of_goto rfl rfl (.wait (waitsFor operation) (congrArg Pc.stage pc))
  | retest operation =>
    simp only [pc] at stepped
    split at stepped
    · cases stepped
      exact effect_of_stay rfl rfl rfl rfl (by rw [pc]; rfl)
    · rename_i passed
      cases stepped
      exact effect_of_transfer (congrArg Pc.stage pc) passed
  | put _ | putLoad _ | take | takeLoad _ | closePut | closeTake | closeFlag =>
    simp only [pc] at stepped
    cases stepped
    exact effect_of_stay rfl rfl rfl rfl (by rw [pc]; rfl)
  | putStore element loaded =>
    simp only [pc] at stepped
    cases stepped
    exact effect_of_store .item rfl rfl rfl (congrArg Pc.stage pc) rfl
  | takeStore slot loaded =>
    simp only [pc] at stepped
    cases stepped
    exact effect_of_store .space rfl rfl rfl (congrArg Pc.stage pc) rfl
  | putSignal element =>
    simp only [pc] at stepped
    cases stepped
    rw [outline_signalAll]
    exact .signal .item (congrArg Pc.stage pc)
  | takeSignal slot =>
    simp only [pc] at stepped
    cases stepped
    rw [outline_signalAll]
    exact .signal .space (congrArg Pc.stage pc)
  | unlock result =>
    simp only [pc] at stepped
    cases stepped
    exact effect_of_goto rfl rfl (.release (congrArg Pc.stage pc))
  | closeCount =>
    simp only [pc] at stepped
    cases stepped
    refine effect_of_goto rfl rfl ?_
    have unmoved : before.outline.goto task (.closePut : Pc Element).stage = before.outline :=
      goto_stage (show before.outline.stage task = .outside from congrArg Pc.stage pc)
    rw [unmoved]
    exact .clear (unawaited pc)

theorem stage_of_isIdle {pc : Pc Element} (idle : pc.isIdle = true) : pc.stage = .outside := by
  cases pc <;> first | rfl | cases idle

theorem effect_of_step {before after : State Task Element} {action : Action Task Element}
    (unawaited : ClearsUnawaited before action) (stepped : step before action = some after) :
    ∃ task, Effect before.outline task after.outline := by
  cases action with
  | call task operation =>
    obtain ⟨idle, rfl⟩ := stepped_of_guard stepped
    exact ⟨task, effect_of_stay rfl rfl rfl rfl (stage_of_isIdle idle)⟩
  | close task =>
    obtain ⟨idle, rfl⟩ := stepped_of_guard stepped
    exact ⟨task, effect_of_stay rfl rfl rfl rfl (stage_of_isIdle idle)⟩
  | run task => exact ⟨task, effect_of_advance unawaited stepped⟩
  | timer task =>
    obtain ⟨next, moves, rfl⟩ := Option.map_eq_some_iff.mp stepped
    cases pc : before.pc task with
    | wait operation =>
      rw [pc, Pc.timer] at moves
      split at moves
      · cases moves
        exact ⟨task, effect_of_goto rfl rfl (.leave (waitsFor operation) (congrArg Pc.stage pc))⟩
      · cases moves
    | _ =>
      rw [pc] at moves
      cases moves

/-! ### The invariant -/

/-- One task has the mutex; who waits or is about to misses what it waits for, or somebody will
signal it; and who will signal one condition finds nobody waiting on the other. -/
structure Settled (outline : Outline Task) : Prop where
  exclusive : ∀ task, (outline.stage task).holds = true → outline.owner = some task
  parks : ∀ task side, outline.stage task = .parks side → outline.Blocks side
  waits : ∀ task side, outline.stage task = .waits side →
    outline.Blocks side ∨ ∃ other, outline.stage other = .frees side
  frees : ∀ task side, outline.stage task = .frees side →
    ∀ other, outline.stage other ≠ .waits side.other

namespace Settled

variable {before : Outline Task} {task : Task}

omit [DecidableEq Task] in
/-- Two tasks that have the mutex are one. -/
theorem unique (settled : Settled before) {other : Task}
    (held : (before.stage task).holds = true) (otherHeld : (before.stage other).holds = true) :
    other = task :=
  Option.some.inj ((settled.exclusive other otherHeld).symm.trans (settled.exclusive task held))

omit [DecidableEq Task] in
/-- The other tasks are not in a stage that has the mutex. -/
theorem stage_ne (settled : Settled before) {other : Task}
    (held : (before.stage task).holds = true) (different : other ≠ task) {stage : Stage}
    (holds : stage.holds = true) : before.stage other ≠ stage := by
  intro same
  refine different (settled.unique held ?_)
  rw [same]
  exact holds

theorem goto_of_ne (before : Outline Task) {task other : Task} (stage : Stage)
    (different : other ≠ task) : (before.goto task stage).stage other = before.stage other :=
  Function.update_of_ne different _ _

theorem goto_self (before : Outline Task) (task : Task) (stage : Stage) :
    (before.goto task stage).stage task = stage :=
  Function.update_self _ _ _

/-- A task that will not signal moves to another stage, and may take or leave the mutex. -/
theorem goto (settled : Settled before) {stage : Stage} (owner : Option Task)
    (ownedByOther : ∀ other, other ≠ task → (before.stage other).holds = true →
      owner = some other)
    (ownedByTask : stage.holds = true → owner = some task)
    (parked : ∀ side, stage = .parks side → before.Blocks side)
    (waiting : ∀ side, stage = .waits side → before.Blocks side ∧
      ∀ other, other ≠ task → (before.stage other).holds = false)
    (idle : ∀ side, before.stage task ≠ .frees side)
    (freeing : ∀ side, stage = .frees side →
      ∀ other, other ≠ task → before.stage other ≠ .waits side.other) :
    Settled { before.goto task stage with owner } where
  exclusive other held := by
    change ((before.goto task stage).stage other).holds = true at held
    by_cases same : other = task
    · subst same
      rw [goto_self] at held
      exact ownedByTask held
    · rw [goto_of_ne _ _ same] at held
      exact ownedByOther other same held
  parks other side parks := by
    change (before.goto task stage).stage other = _ at parks
    by_cases same : other = task
    · subst same
      rw [goto_self] at parks
      exact parked side parks
    · rw [goto_of_ne _ _ same] at parks
      exact settled.parks other side parks
  waits other side waits := by
    change (before.goto task stage).stage other = _ at waits
    by_cases same : other = task
    · subst same
      rw [goto_self] at waits
      exact Or.inl (waiting side waits).1
    · rw [goto_of_ne _ _ same] at waits
      rcases settled.waits other side waits with blocked | ⟨freeing, frees⟩
      · exact Or.inl blocked
      · refine Or.inr ⟨freeing, (goto_of_ne _ _ fun same => ?_).trans frees⟩
        subst same
        exact idle side frees
  frees other side frees third waits := by
    change (before.goto task stage).stage other = _ at frees
    change (before.goto task stage).stage third = _ at waits
    by_cases same : other = task
    · subst same
      rw [goto_self] at frees
      by_cases sameThird : third = other
      · subst sameThird
        rw [goto_self, frees] at waits
        cases waits
      · rw [goto_of_ne _ _ sameThird] at waits
        exact freeing side frees third sameThird waits
    · rw [goto_of_ne _ _ same] at frees
      by_cases sameThird : third = task
      · subst sameThird
        rw [goto_self] at waits
        have outside := (waiting side.other waits).2 other same
        rw [frees] at outside
        cases outside
      · rw [goto_of_ne _ _ sameThird] at waits
        exact settled.frees other side frees third waits

omit [DecidableEq Task] in
/-- Nobody else has the mutex that a task has. -/
theorem holds_of_ne (settled : Settled before) (held : (before.stage task).holds = true)
    (other : Task) (different : other ≠ task) : (before.stage other).holds = false :=
  Bool.eq_false_iff.mpr fun otherHeld => different (settled.unique held otherHeld)

omit [DecidableEq Task] in
theorem store (settled : Settled before) {side : Side} (moving : before.stage task = .frees side)
    (count : UInt32) : Settled { before with count } where
  exclusive := settled.exclusive
  parks other third parks := by
    have inside : (before.stage task).holds = true := by
      rw [moving]
      rfl
    by_cases same : other = task
    · subst same
      exact absurd (moving.symm.trans parks) fun same => by cases same
    · exact absurd parks (settled.stage_ne inside same rfl)
  waits other third waits := by
    by_cases same : third = side
    · exact Or.inr ⟨task, same ▸ moving⟩
    · rw [Side.eq_other_of_ne same] at waits
      exact absurd waits (settled.frees task side moving other)
  frees := settled.frees

theorem signal (settled : Settled before) {side : Side}
    (moving : before.stage task = .frees side) :
    Settled { before with
      stage := Function.update (fun other => (before.stage other).signal side) task .inside } := by
  have inside : (before.stage task).holds = true := by
    rw [moving]
    rfl
  have others (other : Task) (different : other ≠ task) :
      Function.update (fun other => (before.stage other).signal side) task .inside other =
        .outside := by
    rw [Function.update_of_ne different]
    cases stage : before.stage other with
    | outside => rfl
    | waits third =>
      by_cases same : third = side
      · rw [same]
        exact if_pos rfl
      · rw [Side.eq_other_of_ne same] at stage
        exact absurd stage (settled.frees task side moving other)
    | inside => exact absurd stage (settled.stage_ne inside different rfl)
    | parks third => exact absurd stage (settled.stage_ne inside different rfl)
    | frees third => exact absurd stage (settled.stage_ne inside different rfl)
  have stages (other : Task) {stage : Stage} (here : Function.update
      (fun other => (before.stage other).signal side) task .inside other = stage) :
      other = task ∧ stage = .inside ∨ stage = .outside := by
    by_cases same : other = task
    · subst same
      rw [Function.update_self] at here
      exact Or.inl ⟨rfl, here.symm⟩
    · rw [others other same] at here
      exact Or.inr here.symm
  constructor
  · intro other held
    rcases stages other rfl with ⟨same, -⟩ | outside
    · rw [same]
      exact settled.exclusive task inside
    · have gone := congrArg Stage.holds outside
      cases gone.symm.trans held
  · intro other third parks
    rcases stages other parks with ⟨-, same⟩ | same <;> cases same
  · intro other third waits
    rcases stages other waits with ⟨-, same⟩ | same <;> cases same
  · intro other third frees
    rcases stages other frees with ⟨-, same⟩ | same <;> cases same

omit [DecidableEq Task] in
theorem clear (settled : Settled before) (unawaited : before.Unawaited) :
    Settled { before with count := 0 } where
  exclusive := settled.exclusive
  parks task side parks := by
    cases side with
    | item => rfl
    | space =>
      rcases unawaited with none | nobody | ⟨other, frees⟩
      · exact none.symm
      · exact absurd parks (nobody task).2
      · have inside : (before.stage task).holds = true := by
          rw [parks]
          rfl
        have freeing : (before.stage other).holds = true := by
          rw [frees]
          rfl
        rw [settled.unique inside freeing, parks] at frees
        cases frees
  waits task side waits := by
    cases side with
    | item => exact Or.inl rfl
    | space =>
      rcases unawaited with none | nobody | freed
      · exact Or.inl none.symm
      · exact absurd waits (nobody task).1
      · exact Or.inr freed
  frees := settled.frees

/-- Every effect keeps the invariant. -/
theorem effect {after : Outline Task} (settled : Settled before)
    (effect : Effect before task after) : Settled after := by
  cases effect with
  | stay => exact settled
  | acquire free =>
    refine settled.goto (some task) (fun other _ held => ?_) (fun _ => rfl)
      (fun _ same => by cases same) (fun _ same => by cases same) (fun side frees => ?_)
      (fun _ same => by cases same)
    · have owned := settled.exclusive other held
      rw [free] at owned
      cases owned
    · have owned := settled.exclusive task (by rw [frees]; rfl)
      rw [free] at owned
      cases owned
  | park side held blocked =>
    have inside : (before.stage task).holds = true := by
      rw [held]
      rfl
    refine settled.goto before.owner (fun other _ => settled.exclusive other)
      (fun _ => settled.exclusive task inside) (fun _ same => ?_) (fun _ same => by cases same)
      (fun _ frees => ?_) (fun _ same => by cases same)
    · cases same
      exact blocked
    · rw [held] at frees
      cases frees
  | wait side parked =>
    have inside : (before.stage task).holds = true := by
      rw [parked]
      rfl
    have others := settled.holds_of_ne inside
    refine settled.goto none (fun other different held => ?_) (fun held => by cases held)
      (fun _ same => by cases same) (fun _ same => ?_) (fun _ frees => ?_)
      (fun _ same => by cases same)
    · rw [others other different] at held
      cases held
    · cases same
      exact ⟨settled.parks task side parked, others⟩
    · rw [parked] at frees
      cases frees
  | start side held passed =>
    have inside : (before.stage task).holds = true := by
      rw [held]
      rfl
    refine settled.goto before.owner (fun other _ => settled.exclusive other)
      (fun _ => settled.exclusive task inside) (fun _ same => by cases same)
      (fun _ same => by cases same) (fun _ frees => ?_) (fun _ same other _ waits => ?_)
    · rw [held] at frees
      cases frees
    · cases same
      rcases settled.waits other side.other waits with blocked | ⟨third, frees⟩
      · exact passed blocked
      · have freeing : (before.stage third).holds = true := by
          rw [frees]
          rfl
        rw [settled.unique inside freeing, held] at frees
        cases frees
  | store side moving count => exact settled.store moving count
  | signal side moving => exact settled.signal moving
  | release held =>
    have inside : (before.stage task).holds = true := by
      rw [held]
      rfl
    have others := settled.holds_of_ne inside
    refine settled.goto none (fun other different held => ?_) (fun held => by cases held)
      (fun _ same => by cases same) (fun _ same => by cases same) (fun _ frees => ?_)
      (fun _ same => by cases same)
    · rw [others other different] at held
      cases held
    · rw [held] at frees
      cases frees
  | leave side waited =>
    refine settled.goto before.owner (fun other _ => settled.exclusive other)
      (fun held => by cases held) (fun _ same => by cases same) (fun _ same => by cases same)
      (fun _ frees => ?_) (fun _ same => by cases same)
    rw [waited] at frees
    cases frees
  | clear unawaited => exact settled.clear unawaited

end Settled

omit [DecidableEq Task] in
theorem strandsNobody_of_settled {state : State Task Element} (settled : Settled state.outline) :
    StrandsNobody state := by
  intro _
  constructor
  · intro task waits free
    rcases settled.waits task .space waits with full | frees
    · exact absurd full (UInt32.ne_of_lt free)
    · exact frees
  · intro task waits some
    rcases settled.waits task .item waits with empty | frees
    · exact absurd empty.symm (UInt32.ne_of_lt some)
    · exact frees

theorem settled_of_clearsUnawaited [Inhabited Element] {capacity : UInt32}
    {state : State Task Element}
    (reached : ReachableBy step ClearsUnawaited (State.new capacity) state) :
    Settled state.outline := by
  refine reached.invariant (fun state => Settled state.outline) ?_
    fun before action after settled unawaited stepped => ?_
  · exact ⟨fun _ held => (by cases held), fun _ _ parks => (by cases parks),
      fun _ _ waits => (by cases waits), fun _ _ frees => (by cases frees)⟩
  · obtain ⟨task, effect⟩ := effect_of_step unawaited stepped
    exact settled.effect effect

/-! ### A waiter that `close` passes over -/

/-- `close` goes on to its end after its first store. -/
theorem close_finishes {state : State Task Element} {task : Task}
    (pc : state.pc task = .closePut) :
    ∃ final, Reachable step state final ∧ final.closed = true ∧ final.count = state.count ∧
      final.capacity = state.capacity ∧ final.pc = (state.goto task (.idle none)).pc := by
  let put : State Task Element := { state.goto task .closeTake with putIndex := 0 }
  let take : State Task Element := { put.goto task .closeFlag with takeIndex := 0 }
  have first : step state (.run task) = some put := by
    simp only [step, advance, pc]
    rfl
  have second : step put (.run task) = some take := by
    have here : put.pc task = .closeTake := Function.update_self _ _ _
    simp only [step, advance, here]
    rfl
  have third : step take (.run task) =
      some { take.goto task (.idle none) with closed := true } := by
    have here : take.pc task = .closeFlag := Function.update_self _ _ _
    simp only [step, advance, here]
  refine ⟨_, .tail (.tail (.single ⟨_, trivial, first⟩) ⟨_, trivial, second⟩)
    ⟨_, trivial, third⟩, rfl, rfl, rfl, ?_⟩
  show Function.update (Function.update (Function.update state.pc task _) task _) task _ =
    Function.update state.pc task _
  rw [Function.update_idem, Function.update_idem]

/-- A task that is about to wait does. -/
theorem waits_of_parks {state : State Task Element} {task : Task}
    (awaits : (state.pc task).stage = .waits .space ∨ (state.pc task).stage = .parks .space) :
    ∃ final, Reachable step state final ∧ final.closed = state.closed ∧
      final.count = state.count ∧ final.capacity = state.capacity ∧
      (final.pc task).stage = .waits .space ∧
      ∀ other, other ≠ task → final.pc other = state.pc other := by
  rcases awaits with waits | parks
  · exact ⟨state, .refl, rfl, rfl, rfl, waits, fun _ _ => rfl⟩
  · cases pc : state.pc task with
    | park operation =>
      rw [pc] at parks
      have parked : step state (.run task) =
          some { state.goto task (.wait operation) with owner := none } := by
        simp only [step, advance, pc]
      refine ⟨_, .single ⟨_, trivial, parked⟩, rfl, rfl, rfl, ?_,
        fun other different => Function.update_of_ne different _ _⟩
      show (Function.update state.pc task _ task).stage = _
      rw [Function.update_self]
      exact congrArg Stage.waits (Stage.parks.inj parks)
    | _ =>
      rw [pc] at parks
      cases parks

/-- Where `close` clears the count in front of somebody who waits for space, or is about to, it can
strand him. -/
theorem strands_of_awaited {before after : State Task Element} {task : Task}
    (awaited : ¬ ClearsUnawaited before (.run task))
    (stepped : step before (.run task) = some after) :
    ∃ final, Reachable step after final ∧ ¬ StrandsNobody final := by
  simp only [ClearsUnawaited, Classical.not_imp, not_or, not_forall, not_exists, not_and_or,
    Decidable.not_not] at awaited
  obtain ⟨pc, some, ⟨waiter, awaits⟩, unfreed⟩ := awaited
  simp only [step, advance, pc] at stepped
  cases stepped
  obtain ⟨closed, finished, isClosed, count, capacity, pcs⟩ := @close_finishes _ _ _
    { before.goto task .closePut with count := 0 } task (Function.update_self _ _ _)
  have closedPc (other : Task) (different : other ≠ task) : closed.pc other = before.pc other := by
    rw [pcs]
    exact (Function.update_of_ne different _ _).trans (Function.update_of_ne different _ _)
  have different : waiter ≠ task := by
    rintro rfl
    rw [pc] at awaits
    rcases awaits with waits | parks
    · cases waits
    · cases parks
  rw [← closedPc waiter different] at awaits
  obtain ⟨final, parked, stillClosed, sameCount, sameCapacity, waits, others⟩ :=
    waits_of_parks awaits
  refine ⟨final, finished.trans parked, fun strandsNobody => ?_⟩
  have free : final.count < final.capacity := by
    rw [sameCount, count, sameCapacity, capacity]
    exact UInt32.pos_iff_ne_zero.mpr some
  obtain ⟨other, frees⟩ := (strandsNobody (stillClosed.trans isClosed)).1 waiter waits free
  by_cases same : other = waiter
  · subst same
    rw [waits] at frees
    cases frees
  · rw [others other same] at frees
    by_cases closer : other = task
    · subst closer
      have outside : closed.pc other = .idle none := by
        rw [pcs]
        exact Function.update_self _ _ _
      rw [outside] at frees
      cases frees
    · rw [closedPc other closer] at frees
      exact unfreed other frees

/-- Nobody is stranded in the runs in which `close` clears the count only while nobody waits for
space or is about to, or while somebody will signal it; any other clearing of the count can be
followed to a state in which somebody is. -/
theorem close_strandsNobody [Inhabited Element] (capacity : UInt32) :
    (∀ state : State Task Element,
        ReachableBy step ClearsUnawaited (State.new capacity) state → StrandsNobody state) ∧
      ∀ (before after : State Task Element) (task : Task),
        ¬ ClearsUnawaited before (.run task) → step before (.run task) = some after →
        ∃ final, Reachable step after final ∧ ¬ StrandsNobody final :=
  ⟨fun _ reached => strandsNobody_of_settled (settled_of_clearsUnawaited reached),
    fun _ _ _ => strands_of_awaited⟩

end

/-- A receiver waits, and another task closes the channel. -/
def closedSchedule : List (Action Bool Nat) :=
  [.call true .recv, .run true, .run true, .run true, .close false, .run false, .run false,
    .run false, .run false]

theorem close_strandsNobody_receiver : ∃ state : State Bool Nat,
    runBy step ClearsUnawaited (State.new 1) closedSchedule = some state ∧
      state.pc true = .wait .recv ∧ state.closed = true ∧ StrandsNobody state := by
  have executed : ((runBy step ClearsUnawaited (State.new 1 : State Bool Nat)
      closedSchedule).map fun state => (state.pc true, state.closed)) =
        some (.wait .recv, true) := by decide
  obtain ⟨state, reached, same⟩ := Option.map_eq_some_iff.mp executed
  obtain ⟨pc, closed⟩ := Prod.mk.inj same
  exact ⟨state, reached, pc, closed,
    (close_strandsNobody 1).1 state (reachableBy_of_runBy reached)⟩

/-- A sender fills the channel and waits with its second message, and another task closes it. -/
def strandedSchedule : List (Action Bool Nat) :=
  [.call true (.send 7), .run true, .run true, .run true, .run true, .run true, .run true,
    .run true, .call true (.send 8), .run true, .run true, .run true, .close false, .run false,
    .run false, .run false, .run false]

theorem not_strandsNobody_sender :
    ¬ ∀ (capacity : UInt32) (state : State Bool Nat),
      Reachable step (State.new capacity) state → StrandsNobody state := by
  intro strandsNobody
  have executed : ((run step (State.new 1 : State Bool Nat) strandedSchedule).map fun state =>
      (state.closed, state.pc true, state.pc false, state.count, state.capacity)) =
        some (true, .wait (.send 8), .idle none, 0, 1) := by decide
  obtain ⟨state, reached, same⟩ := Option.map_eq_some_iff.mp executed
  simp only [Prod.mk.injEq] at same
  obtain ⟨closed, sender, closer, count, capacity⟩ := same
  obtain ⟨other, frees⟩ := (strandsNobody 1 state (reachable_of_run reached) closed).1 true
    (by rw [sender]; rfl) (by rw [count, capacity]; decide)
  cases other with
  | true =>
    rw [sender] at frees
    cases frees
  | false =>
    rw [closer] at frees
    cases frees

end Nattan.ChanClose
