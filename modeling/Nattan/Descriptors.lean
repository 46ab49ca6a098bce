/-
This file is the small library of a process's file descriptors.

A descriptor is a number under which an open file may be found. Opening a file and
duplicating a descriptor take the lowest number that is free; a duplicate leads to the
same open file, and the status flags belong to the open file and not to the
descriptor. Every file that is opened is a new one, also under a number that was used
before. Of the status flags only `O_NONBLOCK` is told apart; which of the others
`F_SETFL` changes is a parameter.
-/

import Mathlib.Logic.Function.Basic
import Mathlib.Order.Basic

namespace Nattan

/-- Status flags: `O_NONBLOCK`, and the others as one number. -/
structure Flags where
  nonblock : Bool
  others : Nat
  deriving DecidableEq, Repr

/-- The flags with `O_NONBLOCK`. -/
def Flags.withNonblock (flags : Flags) : Flags :=
  { flags with nonblock := true }

/-- The open files of a process: which one is found under a descriptor, and its status flags. The
numbers from `bound` on are free, and the files from `next` on were never opened. -/
structure Descriptors where
  files : Nat → Option Nat
  flags : Nat → Flags
  bound : Nat
  next : Nat
  free : ∀ fd, bound ≤ fd → files fd = none
  opened : ∀ fd file, files fd = some file → file < next

namespace Descriptors

/-- No file is open. -/
def closed : Descriptors where
  files := fun _ => none
  flags := fun _ => ⟨false, 0⟩
  bound := 0
  next := 0
  free := fun _ _ => rfl
  opened := fun _ _ found => by cases found

/-! ### The lowest free number -/

/-- The first free number from `fd` on, among at most so many. -/
def search (files : Nat → Option Nat) : Nat → Nat → Nat
  | 0, fd => fd
  | turns + 1, fd => if files fd = none then fd else search files turns (fd + 1)

/-- The lowest free number that is at least `least`. -/
def lowest (kernel : Descriptors) (least : Nat) : Nat :=
  search kernel.files kernel.bound least

theorem search_free (kernel : Descriptors) {turns fd : Nat} (enough : kernel.bound ≤ fd + turns) :
    kernel.files (search kernel.files turns fd) = none := by
  induction turns generalizing fd with
  | zero => exact kernel.free fd enough
  | succ turns inductionHypothesis =>
    rw [search]
    split
    · assumption
    · exact inductionHypothesis (by omega)

theorem lowest_free (kernel : Descriptors) (least : Nat) :
    kernel.files (kernel.lowest least) = none :=
  kernel.search_free (Nat.le_add_left _ _)

/-! ### Opening, duplicating, closing, and the status flags -/

/-- A file is found under a number. -/
def place (kernel : Descriptors) (fd file : Nat) (known : file < kernel.next) : Descriptors where
  files := Function.update kernel.files fd (some file)
  flags := kernel.flags
  bound := max kernel.bound (fd + 1)
  next := kernel.next
  free := by
    intro other beyond
    rw [Function.update_of_ne (by omega)]
    exact kernel.free other (by omega)
  opened := by
    intro other found same
    by_cases own : other = fd
    · subst own
      rw [Function.update_self] at same
      cases same
      exact known
    · rw [Function.update_of_ne own] at same
      exact kernel.opened other found same

/-- A file that nobody has opened before. -/
def create (kernel : Descriptors) (flags : Flags) : Descriptors where
  files := kernel.files
  flags := Function.update kernel.flags kernel.next flags
  bound := kernel.bound
  next := kernel.next + 1
  free := kernel.free
  opened := fun fd file found => Nat.lt_succ_of_lt (kernel.opened fd file found)

/-- Open a file with some flags, under the lowest free number. -/
def openFile (kernel : Descriptors) (flags : Flags) : Descriptors × Nat :=
  ((kernel.create flags).place (kernel.lowest 0) kernel.next (Nat.lt_succ_self kernel.next),
    kernel.lowest 0)

/-- `F_DUPFD`. -/
def dup (kernel : Descriptors) (fd least : Nat) : Option (Descriptors × Nat) :=
  match found : kernel.files fd with
  | none => none
  | some file =>
    some (kernel.place (kernel.lowest least) file (kernel.opened fd file found),
      kernel.lowest least)

/-- `close`. -/
def close (kernel : Descriptors) (fd : Nat) : Descriptors where
  files := Function.update kernel.files fd none
  flags := kernel.flags
  bound := kernel.bound
  next := kernel.next
  free := by
    intro other beyond
    by_cases own : other = fd
    · subst own
      exact Function.update_self ..
    · rw [Function.update_of_ne own]
      exact kernel.free other beyond
  opened := by
    intro other file found
    by_cases own : other = fd
    · subst own
      rw [Function.update_self] at found
      cases found
    · rw [Function.update_of_ne own] at found
      exact kernel.opened other file found

/-- `F_SETFL`. `settable` says what becomes of the flags other than `O_NONBLOCK`. -/
def setfl (settable : Nat → Nat → Nat) (kernel : Descriptors) (fd : Nat) (flags : Flags) :
    Option Descriptors :=
  (kernel.files fd).map fun file =>
    { kernel with
      flags := Function.update kernel.flags file
        ⟨flags.nonblock, settable (kernel.flags file).others flags.others⟩ }

section Lemmas

variable {kernel after : Descriptors} {fd other file target least : Nat} {flags : Flags}
  {settable : Nat → Nat → Nat}

theorem files_place_self (known : file < kernel.next) :
    (kernel.place fd file known).files fd = some file :=
  Function.update_self ..

theorem files_place_of_ne (different : other ≠ fd) (known : file < kernel.next) :
    (kernel.place fd file known).files other = kernel.files other :=
  Function.update_of_ne different ..

theorem files_openFile_self (kernel : Descriptors) (flags : Flags) :
    (kernel.openFile flags).1.files (kernel.openFile flags).2 = some kernel.next :=
  Function.update_self ..

theorem files_openFile_of_ne (different : other ≠ (kernel.openFile flags).2) :
    (kernel.openFile flags).1.files other = kernel.files other :=
  Function.update_of_ne different ..

theorem flags_openFile_self (kernel : Descriptors) (flags : Flags) :
    (kernel.openFile flags).1.flags kernel.next = flags :=
  Function.update_self ..

/-- The flags of the files that were there do not change. -/
theorem flags_openFile_of_found (found : kernel.files fd = some file) :
    (kernel.openFile flags).1.flags file = kernel.flags file :=
  Function.update_of_ne (Nat.ne_of_lt (kernel.opened fd file found)) ..

/-- A number that is taken is not the lowest free one. -/
theorem ne_lowest_of_found (found : kernel.files fd = some file) (least : Nat) :
    fd ≠ kernel.lowest least := by
  intro same
  rw [same, kernel.lowest_free least] at found
  cases found

theorem files_close_of_ne (different : other ≠ fd) (kernel : Descriptors) :
    (kernel.close fd).files other = kernel.files other :=
  Function.update_of_ne different ..

/-- What `F_DUPFD` gives: a free number, and there the same file; nothing else changes. -/
theorem dup_spec (duplicated : kernel.dup fd least = some (after, target)) :
    kernel.files target = none ∧ after.files target = kernel.files fd ∧
      (∀ other, other ≠ target → after.files other = kernel.files other) ∧
      after.flags = kernel.flags := by
  rw [dup] at duplicated
  split at duplicated
  · cases duplicated
  · rename_i file found
    cases duplicated
    refine ⟨kernel.lowest_free least, ?_, fun other different => files_place_of_ne different _, rfl⟩
    rw [files_place_self, found]

/-- What `F_SETFL` does: the file has the `O_NONBLOCK` it is given; nothing else changes. -/
theorem setfl_spec (set : kernel.setfl settable fd flags = some after) :
    ∃ file, kernel.files fd = some file ∧ after.files = kernel.files ∧
      (after.flags file).nonblock = flags.nonblock ∧
      ∀ other, other ≠ file → after.flags other = kernel.flags other := by
  rw [setfl, Option.map_eq_some_iff] at set
  obtain ⟨file, found, result⟩ := set
  subst result
  refine ⟨file, found, rfl, ?_, fun other different => Function.update_of_ne different ..⟩
  show (Function.update kernel.flags file _ file).nonblock = flags.nonblock
  rw [Function.update_self]

end Lemmas

end Descriptors

end Nattan
