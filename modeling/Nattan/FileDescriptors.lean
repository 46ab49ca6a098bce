/-
This file models the descriptors that `File` objects keep, and proves in which runs a
`File` uses only descriptors it owns.

A `File` keeps up to three descriptors, for reading, for writing and for locking, each
opened when it is first needed. The destructor closes all three. So do the public
`closeRead`, `closeWrite` and `closeLock`, one each, and `openRead` when the seek in it
fails; but none of them sets the number back to -1. From then on the object has a
number that it has closed. The kernel gives the lowest free number to whoever opens
next, so the number soon belongs to another object, and reading, appending, or only
destroying the first one reads from, writes to or closes the file of the other.

Which object opened a descriptor and has not closed it yet is kept beside the kernel's
table; nothing the code does depends on it. A use of a number by an object that does not
own it is noted.
-/

import Nattan.Descriptors
import Nattan.Transition

namespace Nattan

namespace FileDescriptors

universe u

variable {Id : Type u} [DecidableEq Id]

/-! ### The process -/

/-- The kernel's table, the objects that own the descriptors, and the uses of a descriptor by an
object that does not own it. -/
structure Process (Id : Type u) where
  kernel : Descriptors
  owner : Nat → Option Id
  misused : List (Id × Int)

/-- A call of the kernel that an object makes on a descriptor. -/
def Process.use (process : Process Id) (id : Id) (fd : Int) : Process Id :=
  if 0 ≤ fd ∧ process.owner fd.toNat ≠ some id then
    { process with misused := (id, fd) :: process.misused }
  else process

/-- `::open`, which may fail. -/
def Process.open (process : Process Id) (id : Id) (opens : Bool) : Process Id × Int :=
  if opens then
    let opened := process.kernel.openFile ⟨false, 0⟩
    ({ process with
        kernel := opened.1
        owner := Function.update process.owner opened.2 (some id) }, opened.2)
  else (process, -1)

/-- `::close`. A number that is negative is not a descriptor. -/
def Process.close (process : Process Id) (id : Id) (fd : Int) : Process Id :=
  if fd < 0 then process
  else
    let used := process.use id fd
    { used with
      kernel := used.kernel.close fd.toNat
      owner := if used.owner fd.toNat = some id then Function.update used.owner fd.toNat none
        else used.owner }

/-! ### The operations of a `File` -/

/-- The descriptors a `File` keeps. -/
inductive Slot where
  | fReadFd
  | fWriteFd
  | fLockFd
  deriving DecidableEq, Repr

/-- `File(fileName)`. -/
def newFds : Slot → Int :=
  fun _ => -1

/-- What an operation leaves, and whether it returns `true`. -/
structure Done (Id : Type u) where
  process : Process Id
  fds : Slot → Int
  result : Bool

/-- Open a descriptor that is not open: a number that is not positive counts as none. -/
def openSlot (slot : Slot) (process : Process Id) (id : Id) (fds : Slot → Int) (opens : Bool) :
    Done Id :=
  if 0 < fds slot then ⟨process, fds, true⟩
  else
    let opened := process.open id opens
    ⟨opened.1, Function.update fds slot opened.2, decide (0 < opened.2)⟩

/-- `openRead`. `seeks` says whether the seek succeeds. -/
def openRead (process : Process Id) (id : Id) (fds : Slot → Int) (offset : Int)
    (opens seeks : Bool) : Done Id :=
  if 0 < fds .fReadFd ∧ offset = -1 then ⟨process, fds, true⟩
  else
    let opened := openSlot .fReadFd process id fds opens
    if opened.result = false then opened
    else if 0 ≤ offset then
      let used := opened.process.use id (opened.fds .fReadFd)
      if seeks then ⟨used, opened.fds, true⟩
      else ⟨used.close id (opened.fds .fReadFd), opened.fds, false⟩
    else opened

/-- `openWrite`. -/
def openWrite (process : Process Id) (id : Id) (fds : Slot → Int) (opens : Bool) : Done Id :=
  openSlot .fWriteFd process id fds opens

/-- `openLock`. -/
def openLock (process : Process Id) (id : Id) (fds : Slot → Int) (opens : Bool) : Done Id :=
  openSlot .fLockFd process id fds opens

/-- `read`. -/
def read (process : Process Id) (id : Id) (fds : Slot → Int) (opens : Bool) : Done Id :=
  let opened := openRead process id fds (-1) opens true
  { opened with process := opened.process.use id (opened.fds .fReadFd) }

/-- `readRange`: a seek, and a read if it succeeds. -/
def readRange (process : Process Id) (id : Id) (fds : Slot → Int) (opens seeks : Bool) : Done Id :=
  let opened := openRead process id fds (-1) opens true
  let sought := opened.process.use id (opened.fds .fReadFd)
  if seeks then { opened with process := sought.use id (opened.fds .fReadFd) }
  else { opened with process := sought }

/-- `append`. -/
def append (process : Process Id) (id : Id) (fds : Slot → Int) (opens : Bool) : Done Id :=
  let opened := openWrite process id fds opens
  if opened.fds .fWriteFd < 0 then opened
  else { opened with process := opened.process.use id (opened.fds .fWriteFd) }

/-- `closeRead`. -/
def closeRead (process : Process Id) (id : Id) (fds : Slot → Int) : Process Id :=
  process.close id (fds .fReadFd)

/-- `closeWrite`. -/
def closeWrite (process : Process Id) (id : Id) (fds : Slot → Int) : Process Id :=
  process.close id (fds .fWriteFd)

/-- `closeLock`. -/
def closeLock (process : Process Id) (id : Id) (fds : Slot → Int) : Process Id :=
  process.close id (fds .fLockFd)

/-- `close`, which the destructor calls. -/
def close (process : Process Id) (id : Id) (fds : Slot → Int) : Process Id :=
  closeLock (closeWrite (closeRead process id fds) id fds) id fds

/-! ### The runs -/

/-- The process and the `File` objects that are alive. -/
structure State (Id : Type u) where
  process : Process Id
  objects : Id → Option (Slot → Int)

/-- A process without `File` objects, whatever it has open. -/
def start (kernel : Descriptors) : State Id where
  process := ⟨kernel, fun _ => none, []⟩
  objects := fun _ => none

/-- An operation on a `File` object, with what the kernel answers, or anything else in the process
that opens a descriptor or closes one that is not owned by a `File`. -/
inductive Action (Id : Type u) where
  | construct (id : Id)
  | openRead (id : Id) (offset : Int) (opens seeks : Bool)
  | openWrite (id : Id) (opens : Bool)
  | openLock (id : Id) (opens : Bool)
  | read (id : Id) (opens : Bool)
  | readRange (id : Id) (opens seeks : Bool)
  | append (id : Id) (opens : Bool)
  | closeRead (id : Id)
  | closeWrite (id : Id)
  | closeLock (id : Id)
  | destruct (id : Id)
  | openOther
  | closeOther (fd : Nat)
  deriving DecidableEq, Repr

/-- An operation that may change what the object keeps. -/
def State.apply (state : State Id) (id : Id)
    (operation : Process Id → Id → (Slot → Int) → Done Id) : Option (State Id) :=
  (state.objects id).map fun fds =>
    let done := operation state.process id fds
    ⟨done.process, Function.update state.objects id (some done.fds)⟩

/-- An operation that only acts on the process. -/
def State.applyClose (state : State Id) (id : Id)
    (operation : Process Id → Id → (Slot → Int) → Process Id) : Option (State Id) :=
  (state.objects id).map fun fds => { state with process := operation state.process id fds }

def step (state : State Id) : Action Id → Option (State Id)
  | .construct id =>
    if (state.objects id).isNone then
      some { state with objects := Function.update state.objects id (some newFds) }
    else none
  | .openRead id offset opens seeks =>
    state.apply id fun process id fds => openRead process id fds offset opens seeks
  | .openWrite id opens => state.apply id fun process id fds => openWrite process id fds opens
  | .openLock id opens => state.apply id fun process id fds => openLock process id fds opens
  | .read id opens => state.apply id fun process id fds => read process id fds opens
  | .readRange id opens seeks =>
    state.apply id fun process id fds => readRange process id fds opens seeks
  | .append id opens => state.apply id fun process id fds => append process id fds opens
  | .closeRead id => state.applyClose id closeRead
  | .closeWrite id => state.applyClose id closeWrite
  | .closeLock id => state.applyClose id closeLock
  | .destruct id =>
    (state.objects id).map fun fds =>
      ⟨close state.process id fds, Function.update state.objects id none⟩
  | .openOther =>
    some { state with
      process :=
        { state.process with kernel := (state.process.kernel.openFile ⟨false, 0⟩).1 } }
  | .closeOther fd =>
    if state.process.owner fd = none then
      some { state with process := { state.process with kernel := state.process.kernel.close fd } }
    else none

/-- The object keeps no descriptor of this kind. -/
def State.unopened (state : State Id) (id : Id) (slot : Slot) : Bool :=
  (state.objects id).all fun fds => decide (fds slot < 0)

/-- Nothing but the destructor closes a descriptor: the public close methods are only called on a
descriptor that was not opened, and no seek in `openRead` fails. -/
def ClosedByDestructor (state : State Id) : Action Id → Prop
  | .openRead _ offset _ seeks => 0 ≤ offset → seeks = true
  | .closeRead id => state.unopened id .fReadFd = true
  | .closeWrite id => state.unopened id .fWriteFd = true
  | .closeLock id => state.unopened id .fLockFd = true
  | _ => True

instance (state : State Id) (action : Action Id) : Decidable (ClosedByDestructor state action) :=
  match action with
  | .openRead _ offset _ seeks => inferInstanceAs (Decidable (0 ≤ offset → seeks = true))
  | .closeRead id => inferInstanceAs (Decidable (state.unopened id .fReadFd = true))
  | .closeWrite id => inferInstanceAs (Decidable (state.unopened id .fWriteFd = true))
  | .closeLock id => inferInstanceAs (Decidable (state.unopened id .fLockFd = true))
  | .construct _ | .openWrite _ _ | .openLock _ _ | .read _ _ | .readRange _ _ _ | .append _ _
  | .destruct _ | .openOther | .closeOther _ => inferInstanceAs (Decidable True)

/-! ### The calls of the kernel -/

/-- A descriptor that is owned is open. -/
def Sound (process : Process Id) : Prop :=
  ∀ fd id, process.owner fd = some id → process.kernel.files fd ≠ none

/-- The numbers an object keeps are different descriptors that it owns. -/
structure Keeps (process : Process Id) (id : Id) (fds : Slot → Int) : Prop where
  owned : ∀ slot, fds slot < 0 ∨ process.owner (fds slot).toNat = some id
  separate : ∀ first second, first ≠ second → 0 ≤ fds first → fds first ≠ fds second

/-- What an operation of one object leaves to the others, and that it misuses nothing. -/
structure Respects (id : Id) (before after : Process Id) : Prop where
  others : ∀ fd other, other ≠ id → before.owner fd = some other → after.owner fd = some other
  misused : after.misused = before.misused

omit [DecidableEq Id] in
theorem Respects.refl (id : Id) (process : Process Id) : Respects id process process :=
  ⟨fun _ _ _ owner => owner, rfl⟩

omit [DecidableEq Id] in
theorem Respects.trans {id : Id} {first second third : Process Id}
    (one : Respects id first second) (two : Respects id second third) :
    Respects id first third where
  others := fun fd other different owner =>
    two.others fd other different (one.others fd other different owner)
  misused := two.misused.trans one.misused

/-- A call on a descriptor that the object keeps is no misuse. -/
theorem Keeps.use {process : Process Id} {id : Id} {fds : Slot → Int}
    (keeps : Keeps process id fds) (slot : Slot) : process.use id (fds slot) = process := by
  refine if_neg fun misuse => ?_
  obtain negative | owner := keeps.owned slot
  · omega
  · exact misuse.2 owner

omit [DecidableEq Id] in
/-- A new descriptor was owned by nobody. -/
theorem Sound.lowest {process : Process Id} (sound : Sound process) {fd : Nat} {id : Id}
    (owner : process.owner fd = some id) : fd ≠ process.kernel.lowest 0 := by
  intro same
  exact sound fd id owner (by rw [same]; exact process.kernel.lowest_free 0)

omit [DecidableEq Id] in
theorem sound_open {process : Process Id} (sound : Sound process) (id : Id) (opens : Bool) :
    Sound (process.open id opens).1 := by
  unfold Process.open
  split
  · intro fd other owner
    by_cases same : fd = (process.kernel.openFile ⟨false, 0⟩).2
    · subst same
      simp only [Descriptors.files_openFile_self]
      exact Option.some_ne_none _
    · simp only [Function.update_of_ne same, Descriptors.files_openFile_of_ne same] at owner ⊢
      exact sound fd other owner
  · exact sound

omit [DecidableEq Id] in
/-- Opening takes no descriptor away from anybody. -/
theorem owner_open {process : Process Id} (sound : Sound process) (id : Id) (opens : Bool)
    {fd : Nat} {other : Id} (owner : process.owner fd = some other) :
    (process.open id opens).1.owner fd = some other ∧ (fd : Int) ≠ (process.open id opens).2 := by
  unfold Process.open
  split
  · have different := sound.lowest owner
    refine ⟨?_, fun same => different (Int.ofNat.inj same)⟩
    simp only [Descriptors.openFile, Function.update_of_ne different]
    exact owner
  · refine ⟨owner, fun same => ?_⟩
    simp only at same
    omega

omit [DecidableEq Id] in
theorem opened_owned (process : Process Id) (id : Id) (opens : Bool) :
    (process.open id opens).2 < 0 ∨
      (process.open id opens).1.owner (process.open id opens).2.toNat = some id := by
  unfold Process.open
  split
  · exact Or.inr (by simp only [Int.toNat_natCast, Function.update_self])
  · exact Or.inl (by simp only; omega)

omit [DecidableEq Id] in
theorem respects_open {process : Process Id} (sound : Sound process) (id : Id) (opens : Bool) :
    Respects id process (process.open id opens).1 where
  others := fun _ _ _ owner => (owner_open sound id opens owner).1
  misused := by
    unfold Process.open
    split
    · rfl
    · rfl

omit [DecidableEq Id] in
/-- An object opens one of its descriptors anew. -/
theorem Keeps.open {process : Process Id} {id : Id} {fds : Slot → Int}
    (keeps : Keeps process id fds) (sound : Sound process) (slot : Slot) (opens : Bool) :
    Keeps (process.open id opens).1 id (Function.update fds slot (process.open id opens).2) where
  owned := fun other => by
    by_cases same : other = slot
    · subst same
      rw [Function.update_self]
      exact opened_owned process id opens
    · rw [Function.update_of_ne same]
      obtain negative | owner := keeps.owned other
      · exact Or.inl negative
      · exact Or.inr (owner_open sound id opens owner).1
  separate := fun first second different positive => by
    have apart : ∀ other, 0 ≤ fds other → fds other ≠ (process.open id opens).2 := by
      intro other notNegative same
      obtain negative | owner := keeps.owned other
      · omega
      · refine (owner_open sound id opens owner).2 ?_
        rw [Int.toNat_of_nonneg notNegative, same]
    by_cases firstSlot : first = slot
    · subst firstSlot
      rw [Function.update_self, Function.update_of_ne different.symm] at *
      intro same
      exact apart second (by omega) same.symm
    · rw [Function.update_of_ne firstSlot] at *
      by_cases secondSlot : second = slot
      · subst secondSlot
        rw [Function.update_self]
        exact apart first positive
      · rw [Function.update_of_ne secondSlot]
        exact keeps.separate first second different positive

theorem close_of_neg {process : Process Id} {id : Id} {fd : Int} (negative : fd < 0) :
    process.close id fd = process :=
  if_pos negative

/-- An object closes a descriptor it owns. -/
theorem close_of_owned {process : Process Id} {id : Id} {fd : Int} (positive : 0 ≤ fd)
    (owner : process.owner fd.toNat = some id) :
    process.close id fd =
      { process with
        kernel := process.kernel.close fd.toNat
        owner := Function.update process.owner fd.toNat none } := by
  have used : process.use id fd = process := if_neg fun misuse => misuse.2 owner
  rw [Process.close, if_neg (Int.not_lt.mpr positive), used]
  simp only [owner, if_true]

theorem sound_close {process : Process Id} (sound : Sound process) {id : Id} {fd : Int}
    (owned : fd < 0 ∨ process.owner fd.toNat = some id) : Sound (process.close id fd) := by
  by_cases negative : fd < 0
  · rw [close_of_neg negative]
    exact sound
  · rw [close_of_owned (Int.not_lt.mp negative) (owned.resolve_left negative)]
    intro other holder owner
    by_cases same : other = fd.toNat
    · simp only [same, Function.update_self] at owner
      cases owner
    · simp only [Function.update_of_ne same, Descriptors.files_close_of_ne same] at owner ⊢
      exact sound other holder owner

/-- Closing a descriptor leaves the owners of the others. -/
theorem owner_close_of_ne {process : Process Id} {id : Id} {fd : Int}
    (owned : fd < 0 ∨ process.owner fd.toNat = some id) {other : Int} (positive : 0 ≤ other)
    (different : other ≠ fd) :
    (process.close id fd).owner other.toNat = process.owner other.toNat := by
  by_cases negative : fd < 0
  · rw [close_of_neg negative]
  · rw [close_of_owned (Int.not_lt.mp negative) (owned.resolve_left negative)]
    exact Function.update_of_ne (by omega) _ _

theorem respects_close {process : Process Id} {id : Id} {fd : Int}
    (owned : fd < 0 ∨ process.owner fd.toNat = some id) :
    Respects id process (process.close id fd) := by
  by_cases negative : fd < 0
  · rw [close_of_neg negative]
    exact Respects.refl id process
  · have owner := owned.resolve_left negative
    rw [close_of_owned (Int.not_lt.mp negative) owner]
    refine ⟨fun other holder different held => ?_, rfl⟩
    have apart : other ≠ fd.toNat := by
      rintro rfl
      rw [owner] at held
      exact different (Option.some.inj held).symm
    simp only [Function.update_of_ne apart]
    exact held

/-! ### The operations -/

/-- What an operation of an object that uses only its own descriptors leaves. -/
structure Proper (id : Id) (before : Process Id) (done : Done Id) : Prop where
  sound : Sound done.process
  keeps : Keeps done.process id done.fds
  respects : Respects id before done.process

section Operations

variable {process : Process Id} {id : Id} {fds : Slot → Int}

omit [DecidableEq Id] in
theorem proper_openSlot (sound : Sound process) (keeps : Keeps process id fds) (slot : Slot)
    (opens : Bool) : Proper id process (openSlot slot process id fds opens) := by
  unfold openSlot
  split
  · exact ⟨sound, keeps, Respects.refl id process⟩
  · exact ⟨sound_open sound id opens, keeps.open sound slot opens, respects_open sound id opens⟩

/-- `openRead` is proper unless its seek fails. -/
theorem proper_openRead (sound : Sound process) (keeps : Keeps process id fds) (offset : Int)
    (opens : Bool) {seeks : Bool} (sought : 0 ≤ offset → seeks = true) :
    Proper id process (openRead process id fds offset opens seeks) := by
  have opened := proper_openSlot sound keeps .fReadFd opens
  unfold openRead
  split
  · exact ⟨sound, keeps, Respects.refl id process⟩
  · simp only [opened.keeps.use .fReadFd]
    split
    · exact opened
    · split
      · rename_i positive
        rw [if_pos (sought positive)]
        exact ⟨opened.sound, opened.keeps, opened.respects⟩
      · exact opened

/-- An operation that goes on to use a descriptor it keeps is proper. -/
theorem Proper.use {before : Process Id} {done : Done Id} (proper : Proper id before done)
    (slot : Slot) : done.process.use id (done.fds slot) = done.process :=
  proper.keeps.use slot

theorem proper_read (sound : Sound process) (keeps : Keeps process id fds) (opens : Bool) :
    Proper id process (read process id fds opens) := by
  have opened := proper_openRead sound keeps (-1) opens (fun _ => rfl)
  unfold read
  simp only [opened.use .fReadFd]
  exact opened

theorem proper_readRange (sound : Sound process) (keeps : Keeps process id fds)
    (opens seeks : Bool) : Proper id process (readRange process id fds opens seeks) := by
  have opened := proper_openRead sound keeps (-1) opens (fun _ => rfl)
  unfold readRange
  simp only [opened.use .fReadFd]
  split
  · exact opened
  · exact opened

theorem proper_append (sound : Sound process) (keeps : Keeps process id fds) (opens : Bool) :
    Proper id process (append process id fds opens) := by
  have opened := proper_openSlot sound keeps .fWriteFd opens
  unfold append openWrite
  simp only [opened.use .fWriteFd]
  split
  · exact opened
  · exact opened

/-- The destructor closes each of the descriptors once. -/
theorem close_spec (sound : Sound process) (keeps : Keeps process id fds) :
    Sound (close process id fds) ∧ Respects id process (close process id fds) := by
  have kept : ∀ {after : Process Id} {closed slot : Slot}, closed ≠ slot →
      (fds closed < 0 ∨ after.owner (fds closed).toNat = some id) →
      (fds slot < 0 ∨ after.owner (fds slot).toNat = some id) →
      fds slot < 0 ∨ (after.close id (fds closed)).owner (fds slot).toNat = some id := by
    intro after closed slot different closedOwned slotOwned
    obtain negative | owner := slotOwned
    · exact Or.inl negative
    · by_cases negative : fds slot < 0
      · exact Or.inl negative
      · have positive := Int.not_lt.mp negative
        rw [owner_close_of_ne closedOwned positive
          (keeps.separate slot closed different.symm positive)]
        exact Or.inr owner
  have readOwned := keeps.owned .fReadFd
  have writeOwned := kept (by decide : Slot.fReadFd ≠ Slot.fWriteFd) readOwned
    (keeps.owned .fWriteFd)
  have lockOwned := kept (by decide : Slot.fWriteFd ≠ Slot.fLockFd) writeOwned
    (kept (by decide : Slot.fReadFd ≠ Slot.fLockFd) readOwned (keeps.owned .fLockFd))
  exact ⟨sound_close (sound_close (sound_close sound readOwned) writeOwned) lockOwned,
    ((respects_close readOwned).trans (respects_close writeOwned)).trans
      (respects_close lockOwned)⟩

end Operations

/-! ### The invariant -/

structure Invariant (state : State Id) : Prop where
  sound : Sound state.process
  keeps : ∀ id fds, state.objects id = some fds → Keeps state.process id fds
  proper : state.process.misused = []

omit [DecidableEq Id] in
theorem invariant_start (kernel : Descriptors) : Invariant (start kernel : State Id) where
  sound := fun _ _ owner => by cases owner
  keeps := fun _ _ found => by cases found
  proper := rfl

omit [DecidableEq Id] in
/-- What the others keep is respected. -/
theorem Keeps.respected {before after : Process Id} {id other : Id} {fds : Slot → Int}
    (keeps : Keeps before other fds) (different : other ≠ id)
    (respects : Respects id before after) : Keeps after other fds where
  owned := fun slot => (keeps.owned slot).imp_right (respects.others _ other different)
  separate := keeps.separate

theorem Invariant.apply {before after : State Id} (invariant : Invariant before) {id : Id}
    {operation : Process Id → Id → (Slot → Int) → Done Id}
    (stepped : before.apply id operation = some after)
    (proper : ∀ fds, before.objects id = some fds →
      Proper id before.process (operation before.process id fds)) : Invariant after := by
  obtain ⟨fds, found, rfl⟩ := Option.map_eq_some_iff.mp stepped
  have done := proper fds found
  refine ⟨done.sound, fun other kept same => ?_, done.respects.misused.trans invariant.proper⟩
  by_cases own : other = id
  · subst own
    simp only [Function.update_self, Option.some.injEq] at same
    subst same
    exact done.keeps
  · simp only [Function.update_of_ne own] at same
    exact (invariant.keeps other kept same).respected own done.respects

/-- A public close method on a descriptor that was not opened does nothing. -/
theorem Invariant.applyClose {before after : State Id} (invariant : Invariant before) {id : Id}
    {slot : Slot} (unopened : before.unopened id slot = true)
    (stepped : before.applyClose id (fun process id fds => process.close id (fds slot)) =
      some after) : Invariant after := by
  obtain ⟨fds, found, rfl⟩ := Option.map_eq_some_iff.mp stepped
  rw [State.unopened, found, Option.all_some, decide_eq_true_iff] at unopened
  simp only [close_of_neg unopened]
  exact ⟨invariant.sound, invariant.keeps, invariant.proper⟩

theorem Invariant.destruct {before after : State Id} (invariant : Invariant before) {id : Id}
    (stepped : step before (.destruct id) = some after) : Invariant after := by
  obtain ⟨fds, found, rfl⟩ := Option.map_eq_some_iff.mp stepped
  obtain ⟨sound, respects⟩ := close_spec invariant.sound (invariant.keeps id fds found)
  refine ⟨sound, fun other kept same => ?_, respects.misused.trans invariant.proper⟩
  by_cases own : other = id
  · subst own
    simp only [Function.update_self] at same
    cases same
  · simp only [Function.update_of_ne own] at same
    exact (invariant.keeps other kept same).respected own respects

theorem Invariant.construct {before after : State Id} (invariant : Invariant before) {id : Id}
    (stepped : step before (.construct id) = some after) : Invariant after := by
  simp only [step, Option.ite_none_right_eq_some, Option.some.injEq] at stepped
  obtain ⟨-, rfl⟩ := stepped
  refine ⟨invariant.sound, fun other kept same => ?_, invariant.proper⟩
  by_cases own : other = id
  · subst own
    simp only [Function.update_self, Option.some.injEq] at same
    subst same
    have negative : ∀ slot, newFds slot < 0 := fun _ => Int.negSucc_lt_zero 0
    exact ⟨fun slot => Or.inl (negative slot),
      fun first _ _ positive => absurd (negative first) (Int.not_lt.mpr positive)⟩
  · simp only [Function.update_of_ne own] at same
    exact invariant.keeps other kept same

omit [DecidableEq Id] in
/-- What the rest of the process does with descriptors that no `File` owns. -/
theorem Invariant.kernel {state : State Id} (invariant : Invariant state) {kernel : Descriptors}
    (opened : ∀ fd id, state.process.owner fd = some id → kernel.files fd ≠ none) :
    Invariant { state with process := { state.process with kernel := kernel } } :=
  ⟨opened, fun id fds found =>
    ⟨(invariant.keeps id fds found).owned, (invariant.keeps id fds found).separate⟩,
    invariant.proper⟩

theorem Invariant.step {before after : State Id} {action : Action Id}
    (invariant : Invariant before) (guarded : ClosedByDestructor before action)
    (stepped : step before action = some after) : Invariant after := by
  have sound := invariant.sound
  cases action with
  | construct id => exact invariant.construct stepped
  | openRead id offset opens seeks =>
    rw [FileDescriptors.step] at stepped
    exact invariant.apply stepped fun fds found =>
      proper_openRead sound (invariant.keeps id fds found) offset opens guarded
  | openWrite id opens =>
    rw [FileDescriptors.step] at stepped
    exact invariant.apply stepped fun fds found =>
      proper_openSlot sound (invariant.keeps id fds found) .fWriteFd opens
  | openLock id opens =>
    rw [FileDescriptors.step] at stepped
    exact invariant.apply stepped fun fds found =>
      proper_openSlot sound (invariant.keeps id fds found) .fLockFd opens
  | read id opens =>
    rw [FileDescriptors.step] at stepped
    exact invariant.apply stepped fun fds found =>
      proper_read sound (invariant.keeps id fds found) opens
  | readRange id opens seeks =>
    rw [FileDescriptors.step] at stepped
    exact invariant.apply stepped fun fds found =>
      proper_readRange sound (invariant.keeps id fds found) opens seeks
  | append id opens =>
    rw [FileDescriptors.step] at stepped
    exact invariant.apply stepped fun fds found =>
      proper_append sound (invariant.keeps id fds found) opens
  | closeRead id =>
    rw [FileDescriptors.step] at stepped
    exact invariant.applyClose guarded stepped
  | closeWrite id =>
    rw [FileDescriptors.step] at stepped
    exact invariant.applyClose guarded stepped
  | closeLock id =>
    rw [FileDescriptors.step] at stepped
    exact invariant.applyClose guarded stepped
  | destruct id => exact invariant.destruct stepped
  | openOther =>
    cases stepped
    refine invariant.kernel fun fd id owner => ?_
    rw [Descriptors.files_openFile_of_ne (sound.lowest owner)]
    exact sound fd id owner
  | closeOther closed =>
    simp only [FileDescriptors.step, Option.ite_none_right_eq_some, Option.some.injEq] at stepped
    obtain ⟨unowned, rfl⟩ := stepped
    refine invariant.kernel fun fd id owner => ?_
    have different : fd ≠ closed := by
      rintro rfl
      rw [unowned] at owner
      cases owner
    rw [Descriptors.files_close_of_ne different]
    exact sound fd id owner

/-- In every run in which only the destructor closes descriptors, no `File` uses a descriptor that
it does not own. -/
theorem files_use_own_descriptors (kernel : Descriptors) {state : State Id}
    (reached : ReachableBy step ClosedByDestructor (start kernel) state) :
    state.process.misused = [] :=
  (ReachableBy.invariant Invariant (invariant_start kernel)
    (fun _ _ _ invariant guarded stepped => invariant.step guarded stepped) reached).proper

/-- A process with the three standard descriptors. -/
def standard : Descriptors :=
  (((Descriptors.closed.openFile ⟨false, 0⟩).1.openFile ⟨false, 0⟩).1.openFile ⟨false, 0⟩).1

/-- Two objects, one destroyed before the other opens its descriptor. -/
def properRun : List (Action Bool) :=
  [.construct false, .openRead false 7 true true, .append false true, .destruct false,
    .construct true, .read true true, .destruct true]

theorem files_use_own_descriptors_properRun :
    ∃ state : State Bool, ReachableBy step ClosedByDestructor (start standard) state ∧
      state.process.kernel.files 3 = none ∧ state.process.misused = [] := by
  have executed : ∃ state, runBy step ClosedByDestructor (start standard) properRun = some state ∧
      state.process.kernel.files 3 = none :=
    ⟨Option.get _ (by decide +kernel), (Option.some_get _).symm, by decide +kernel⟩
  obtain ⟨state, executed, closed⟩ := executed
  have reached := reachableBy_of_runBy executed
  exact ⟨state, reached, closed, files_use_own_descriptors standard reached⟩

/-- One object closes its descriptor, another one opens its own, and the first appends. -/
def reusedRun : List (Action Bool) :=
  [.construct false, .append false true, .closeWrite false, .construct true, .openWrite true true,
    .append false true]

/-- The first object writes to the descriptor of the other. -/
theorem file_uses_descriptor_of_other :
    ∃ state : State Bool, Reachable step (start standard) state ∧
      state.process.misused = [(false, 3)] ∧ state.process.owner 3 = some true := by
  have executed : ∃ state, run step (start standard) reusedRun = some state ∧
      state.process.misused = [(false, 3)] ∧ state.process.owner 3 = some true :=
    ⟨Option.get _ (by decide +kernel), (Option.some_get _).symm, by decide +kernel,
      by decide +kernel⟩
  obtain ⟨state, executed, misused, owner⟩ := executed
  exact ⟨state, reachable_of_run executed, misused, owner⟩

end FileDescriptors

end Nattan
