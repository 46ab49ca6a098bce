/-
This file models the table of `inner_fd` entries beside the descriptors of the kernel,
and proves in which runs the two agree, and that they do not in all.

An entry says of a descriptor, by `O_NONBLOCK` in its flags, that the file under it is
non-blocking. The table is kept by the hooked calls only. A call made while the hook is
off does not look at it, so a descriptor that is closed then leaves its entry behind,
and the entry is found again under the number when the kernel gives it to another
file. `SocketHelper::TcpConnectTill` does this on every failure: the socket is opened
with the hook on, and the socket and the timer of the poll are closed with the hook
off. A later `F_SETFL` that finds the old flags in the entry does not even reach the
kernel.

An entry remembers the open file it was made for; the program has no such record, and
nothing it does depends on it.
-/

import Nattan.Descriptors
import Nattan.Transition

namespace Nattan

namespace InnerFd

/-- `MAX_FD_NUM`. -/
def maxFdNum : Nat := 102400

/-- What the hooked calls read of an `inner_fd`, and the open file it was made for, if there was
one. -/
structure Entry where
  flags : Flags
  user_flags : Flags
  madeFor : Option Nat
  deriving DecidableEq, Repr

structure State where
  kernel : Descriptors
  table : Nat → Option Entry

/-- A process that has made no call yet, whatever it has open. -/
def start (kernel : Descriptors) : State where
  kernel := kernel
  table := fun _ => none

def setEntry (state : State) (fd : Nat) (entry : Option Entry) : State :=
  { state with table := Function.update state.table fd entry }

/-- `new_inner_fd`. It writes behind the end of the table for a descriptor that is too large. -/
def new_inner_fd (state : State) (fd : Nat) : Option State :=
  if fd < maxFdNum then
    some (setEntry state fd (some ⟨⟨false, 0⟩, ⟨false, 0⟩, state.kernel.files fd⟩))
  else none

/-! ### The hooked calls -/

section Calls

variable (settable : Nat → Nat → Nat)

/-- `fcntl(fd, F_SETFL, flags)` with the hook on, on a descriptor with an entry. The result says
whether it returned zero. -/
def setflEntry (state : State) (fd : Nat) (flags : Flags) (entry : Entry) : State × Bool :=
  if flags.nonblock = false then
    let noted := setEntry state fd (some { entry with user_flags := flags })
    match state.kernel.setfl settable fd flags.withNonblock with
    | some kernel => ({ noted with kernel := kernel }, true)
    | none => (noted, false)
  else if entry.user_flags = flags then (state, true)
  else if entry.flags = flags then
    (setEntry state fd (some { entry with user_flags := entry.flags }), true)
  else
    match state.kernel.setfl settable fd flags with
    | some kernel =>
      (setEntry { state with kernel := kernel } fd
        (some { entry with flags := flags, user_flags := flags }), true)
    | none => (state, false)

/-- `fcntl(fd, F_SETFL, flags)` with the hook on. Without an entry one is made, if the flags have
`O_NONBLOCK`; else a null pointer is followed. -/
def setflHooked (state : State) (fd : Nat) (flags : Flags) : Option (State × Bool) :=
  match state.table fd with
  | some entry => some (setflEntry settable state fd flags entry)
  | none =>
    if flags.nonblock then
      (new_inner_fd state fd).bind fun made =>
        (made.table fd).map fun entry => setflEntry settable made fd flags entry
    else none

/-- `in_set_nonblock`. The first `fcntl`, with the hook off, gives the flags of the kernel. -/
def in_set_nonblock (state : State) (fd : Nat) : Option State :=
  (state.kernel.files fd).bind fun file =>
    let user_flags := state.kernel.flags file
    (setflHooked settable state fd user_flags.withNonblock).bind fun set =>
      if set.2 then
        (set.1.table fd).map fun entry =>
          setEntry set.1 fd (some { entry with user_flags := user_flags })
      else some set.1

/-- `socket`. `flags` is what the kernel gives the new file. -/
def socket (hook : Bool) (state : State) (flags : Flags) : Option (State × Nat) :=
  let opened := state.kernel.openFile flags
  let state := { state with kernel := opened.1 }
  if hook then (in_set_nonblock settable state opened.2).map fun state => (state, opened.2)
  else some (state, opened.2)

/-- `accept` on a listening socket, with a connection that has come in. -/
def accept (hook : Bool) (state : State) (sockfd : Nat) (flags : Flags) : Option State :=
  let opened := state.kernel.openFile flags
  let accepted := { state with kernel := opened.1 }
  if hook then
    match state.table sockfd with
    | some entry =>
      if entry.flags.nonblock then in_set_nonblock settable accepted opened.2 else some accepted
    | none => some accepted
  else some accepted

/-- `fcntl(fd, F_SETFL, flags)`. -/
def setfl (hook : Bool) (state : State) (fd : Nat) (flags : Flags) : Option State :=
  if hook then (setflHooked settable state fd flags).map Prod.fst
  else
    match state.kernel.setfl settable fd flags with
    | some kernel => some { state with kernel := kernel }
    | none => some state

end Calls

/-- `fcntl(fd, F_DUPFD, least)`. The new descriptor gets an entry without flags. -/
def dupfd (hook : Bool) (state : State) (fd least : Nat) : Option State :=
  match state.kernel.dup fd least with
  | none => some state
  | some (kernel, target) =>
    let duplicated := { state with kernel := kernel }
    match state.table fd with
    | some entry =>
      if 0 < target ∧ hook = true ∧ entry.flags.nonblock = true then
        new_inner_fd duplicated target
      else some duplicated
    | none => some duplicated

/-- `close`. -/
def close (hook : Bool) (state : State) (fd : Nat) : State :=
  let closed := { state with kernel := state.kernel.close fd }
  if hook then setEntry closed fd none else closed

/-- `open_timer`, with the timer descriptor that `timerfd_create` opens as non-blocking. An entry
that is there already is used as it is. The descriptor 0 is taken for a failure: it stays open, and
-1 is returned, which is `none`. -/
def open_timer (state : State) (others : Nat) : Option (State × Option Nat) :=
  let opened := state.kernel.openFile ⟨true, others⟩
  let state := { state with kernel := opened.1 }
  if opened.2 = 0 then some (state, none)
  else
    let noted := match state.table opened.2 with
      | some _ => some state
      | none => new_inner_fd state opened.2
    noted.bind fun state => (state.table opened.2).map fun entry =>
      (setEntry state opened.2 (some { entry with flags := entry.flags.withNonblock }),
        some opened.2)

/-- `close_timer`, which closes nothing for -1. -/
def close_timer (hook : Bool) (state : State) (timerfd : Option Nat) : State :=
  timerfd.elim state (close hook state)

/-- The failure path of `TcpConnectTill`: the socket is opened with the hook as it was, then the
hook is off. If the connect is in progress, the poll opens and closes a timer, and needs the entry
of the socket. At last the socket is closed. -/
def tcpConnectTillFails (settable : Nat → Nat → Nat) (hook polls : Bool) (state : State)
    (flags : Flags) (others : Nat) : Option State :=
  (socket settable hook state flags).bind fun opened =>
    if polls then
      (opened.1.table opened.2).bind fun _ =>
        (open_timer opened.1 others).map fun timer =>
          close false (close_timer false timer.1 timer.2) opened.2
    else some (close false opened.1 opened.2)

/-- The calls of the tasks, each made with the hook on or off. -/
inductive Call where
  | socket (hook : Bool) (flags : Flags)
  | accept (hook : Bool) (sockfd : Nat) (flags : Flags)
  | setfl (hook : Bool) (fd : Nat) (flags : Flags)
  | dupfd (hook : Bool) (fd least : Nat)
  | close (hook : Bool) (fd : Nat)
  | openTimer (others : Nat)
  | tcpConnectTillFails (hook polls : Bool) (flags : Flags) (others : Nat)
  deriving DecidableEq, Repr

/-- A call. There is no state after one that ends the process. -/
def step (settable : Nat → Nat → Nat) (state : State) : Call → Option State
  | .socket hook flags => (socket settable hook state flags).map Prod.fst
  | .accept hook sockfd flags => accept settable hook state sockfd flags
  | .setfl hook fd flags => setfl settable hook state fd flags
  | .dupfd hook fd least => dupfd hook state fd least
  | .close hook fd => some (close hook state fd)
  | .openTimer others => (open_timer state others).map Prod.fst
  | .tcpConnectTillFails hook polls flags others =>
    tcpConnectTillFails settable hook polls state flags others

/-! ### The invariant -/

/-- Every entry is that of the file open under its number, and what it says of it is so. -/
structure Inv (state : State) : Prop where
  current : ∀ fd entry, state.table fd = some entry →
    ∃ file, state.kernel.files fd = some file ∧ entry.madeFor = some file
  nonblock : ∀ fd entry file, state.table fd = some entry → entry.flags.nonblock = true →
    entry.madeFor = some file → (state.kernel.flags file).nonblock = true

/-- The call leaves no entry behind and contradicts none. With the hook off, a descriptor that has
an entry is not closed, which `TcpConnectTill` does to the socket it opened with the hook on, and
`O_NONBLOCK` is not taken from a file that an entry says is non-blocking. With the hook on,
`F_SETFL` is not called on a descriptor that is not open. -/
def Careful (state : State) : Call → Prop
  | .setfl true fd flags =>
    flags.nonblock = true → state.table fd = none → state.kernel.files fd ≠ none
  | .setfl false fd flags =>
    flags.nonblock = false → ∀ file, state.kernel.files fd = some file →
      ∀ other entry, state.table other = some entry → entry.flags.nonblock = true →
        entry.madeFor ≠ some file
  | .close hook fd => hook = false → state.table fd = none
  | .tcpConnectTillFails hook _ _ _ => hook = false
  | .socket _ _ | .accept _ _ _ | .dupfd _ _ _ | .openTimer _ => True

theorem inv_start (kernel : Descriptors) : Inv (start kernel) where
  current := fun _ _ found => by cases found
  nonblock := fun _ _ _ found => by cases found

theorem setEntry_self (state : State) (fd : Nat) (entry : Option Entry) :
    (setEntry state fd entry).table fd = entry :=
  Function.update_self ..

theorem setEntry_of_ne {other fd : Nat} (different : other ≠ fd) (state : State)
    (entry : Option Entry) : (setEntry state fd entry).table other = state.table other :=
  Function.update_of_ne different ..

section Steps

variable {settable : Nat → Nat → Nat} {state after : State} {fd : Nat} {entry : Entry}

/-- A number that is free has no entry. -/
theorem Inv.table_of_free (inv : Inv state) (free : state.kernel.files fd = none) :
    state.table fd = none := by
  cases found : state.table fd with
  | none => rfl
  | some entry =>
    obtain ⟨file, opened, -⟩ := inv.current fd entry found
    rw [free] at opened
    cases opened

/-- An entry for the file that is open, which says no more than is so, may be put in. -/
theorem Inv.setEntry (inv : Inv state) {file : Nat} (opened : state.kernel.files fd = some file)
    (own : entry.madeFor = some file)
    (tells : entry.flags.nonblock = true → (state.kernel.flags file).nonblock = true) :
    Inv (setEntry state fd (some entry)) := by
  constructor
  · intro other found same
    by_cases isFd : other = fd
    · subst isFd
      rw [setEntry_self] at same
      cases same
      exact ⟨file, opened, own⟩
    · rw [setEntry_of_ne isFd] at same
      exact inv.current other found same
  · intro other found named same nonblock madeFor
    by_cases isFd : other = fd
    · subst isFd
      rw [setEntry_self] at same
      cases same
      rw [own] at madeFor
      cases madeFor
      exact tells nonblock
    · rw [setEntry_of_ne isFd] at same
      exact inv.nonblock other found named same nonblock madeFor

/-- An entry may be taken out. -/
theorem Inv.eraseEntry (inv : Inv state) (fd : Nat) : Inv (InnerFd.setEntry state fd none) := by
  constructor
  · intro other found same
    by_cases isFd : other = fd
    · subst isFd
      rw [setEntry_self] at same
      cases same
    · rw [setEntry_of_ne isFd] at same
      exact inv.current other found same
  · intro other found named same
    by_cases isFd : other = fd
    · subst isFd
      rw [setEntry_self] at same
      cases same
    · rw [setEntry_of_ne isFd] at same
      exact inv.nonblock other found named same

/-- The kernel may do anything that leaves the files with an entry where they are, and
non-blocking if their entries say so. -/
theorem Inv.withKernel (inv : Inv state) {kernel : Descriptors}
    (files : ∀ fd entry file, state.table fd = some entry → state.kernel.files fd = some file →
      kernel.files fd = some file)
    (flags : ∀ fd entry file, state.table fd = some entry → entry.flags.nonblock = true →
      entry.madeFor = some file → state.kernel.files fd = some file →
      (kernel.flags file).nonblock = true) :
    Inv { state with kernel := kernel } := by
  constructor
  · intro fd entry found
    obtain ⟨file, opened, own⟩ := inv.current fd entry found
    exact ⟨file, files fd entry file found opened, own⟩
  · intro fd entry file found nonblock own
    obtain ⟨named, opened, own'⟩ := inv.current fd entry found
    rw [own] at own'
    cases own'
    exact flags fd entry file found nonblock own opened

/-- Opening a file takes a number without an entry. -/
theorem Inv.openFile (inv : Inv state) (flags : Flags) :
    Inv { state with kernel := (state.kernel.openFile flags).1 } := by
  refine inv.withKernel ?_ ?_
  · intro other found file _ opened
    rw [Descriptors.files_openFile_of_ne (Descriptors.ne_lowest_of_found opened 0), opened]
  · intro other found file same nonblock own opened
    rw [Descriptors.flags_openFile_of_found opened]
    exact inv.nonblock other found file same nonblock own

/-- `F_SETFL` contradicts no entry if it sets `O_NONBLOCK`, or if no entry says the file has it. -/
theorem Inv.kernelSetfl (inv : Inv state) {flags : Flags} {kernel : Descriptors}
    (set : state.kernel.setfl settable fd flags = some kernel)
    (agrees : flags.nonblock = true ∨ ∀ file, state.kernel.files fd = some file →
      ∀ other entry, state.table other = some entry → entry.flags.nonblock = true →
        entry.madeFor ≠ some file) :
    Inv { state with kernel := kernel } := by
  obtain ⟨file, opened, files, nonblockAfter, others⟩ := Descriptors.setfl_spec set
  refine inv.withKernel ?_ ?_
  · intro other found named _ openedOther
    rw [files, openedOther]
  · intro other found named same nonblock own _
    by_cases isFile : named = file
    · subst isFile
      obtain sets | unsaid := agrees
      · rw [nonblockAfter, sets]
      · exact absurd own (unsaid named opened other found same nonblock)
    · rw [others named isFile]
      exact inv.nonblock other found named same nonblock own

/-- What the user is told of the flags is not what the entry says of the file. -/
theorem Inv.setUserFlags (inv : Inv state) (found : state.table fd = some entry)
    (user_flags : Flags) :
    Inv (InnerFd.setEntry state fd (some { entry with user_flags := user_flags })) := by
  obtain ⟨file, opened, own⟩ := inv.current fd entry found
  exact inv.setEntry opened own fun nonblock => inv.nonblock fd entry file found nonblock own

/-- `F_SETFL` with the hook on, on a descriptor with an entry. -/
theorem Inv.setflEntry (inv : Inv state) (settable : Nat → Nat → Nat)
    (found : state.table fd = some entry) (flags : Flags) :
    Inv (setflEntry settable state fd flags entry).1 ∧
      ∃ later, (InnerFd.setflEntry settable state fd flags entry).1.table fd = some later := by
  obtain ⟨file, opened, own⟩ := inv.current fd entry found
  rw [InnerFd.setflEntry]
  split
  · have noted := inv.setUserFlags found flags
    cases set : state.kernel.setfl settable fd flags.withNonblock with
    | some kernel => exact ⟨noted.kernelSetfl set (Or.inl rfl), _, setEntry_self ..⟩
    | none => exact ⟨noted, _, setEntry_self ..⟩
  · split
    · exact ⟨inv, entry, found⟩
    · split
      · exact ⟨inv.setUserFlags found entry.flags, _, setEntry_self ..⟩
      · rename_i sets _ _
        have isSet : flags.nonblock = true := by simpa using sets
        cases set : state.kernel.setfl settable fd flags with
        | some kernel =>
          obtain ⟨named, openedSame, files, nonblock, -⟩ := Descriptors.setfl_spec set
          have changed := inv.kernelSetfl set (Or.inl isSet)
          refine ⟨changed.setEntry (by rw [← opened]; exact congrFun files fd) own ?_, _,
            setEntry_self ..⟩
          intro _
          rw [opened] at openedSame
          cases openedSame
          exact nonblock.trans isSet
        | none => exact ⟨inv, entry, found⟩

/-- A new entry, for the file that is open, says nothing yet. -/
theorem Inv.new_inner_fd (inv : Inv state) {file : Nat}
    (opened : state.kernel.files fd = some file) (made : new_inner_fd state fd = some after) :
    Inv after ∧ after.kernel = state.kernel := by
  rw [InnerFd.new_inner_fd] at made
  split at made
  · cases made
    refine ⟨inv.setEntry opened opened fun nonblock => ?_, rfl⟩
    cases nonblock
  · cases made

/-- `F_SETFL` with the hook on, on a descriptor that is open if it sets `O_NONBLOCK`. -/
theorem Inv.setflHooked (inv : Inv state) {flags : Flags} {result : State × Bool}
    (careful : flags.nonblock = true → state.table fd = none → state.kernel.files fd ≠ none)
    (set : setflHooked settable state fd flags = some result) :
    Inv result.1 ∧ ∃ entry, result.1.table fd = some entry := by
  rw [InnerFd.setflHooked] at set
  cases found : state.table fd with
  | some entry =>
    rw [found] at set
    cases set
    exact inv.setflEntry settable found flags
  | none =>
    rw [found] at set
    dsimp only at set
    split at set
    · rename_i nonblock
      obtain ⟨file, opened⟩ := Option.ne_none_iff_exists'.mp (careful nonblock found)
      obtain ⟨made, created, mapped⟩ := Option.bind_eq_some_iff.mp set
      obtain ⟨entry, foundMade, isResult⟩ := Option.map_eq_some_iff.mp mapped
      subst isResult
      exact (inv.new_inner_fd opened created).1.setflEntry settable foundMade flags
    · cases set

theorem Inv.in_set_nonblock (inv : Inv state)
    (set : in_set_nonblock settable state fd = some after) : Inv after := by
  obtain ⟨file, opened, later⟩ := Option.bind_eq_some_iff.mp set
  obtain ⟨result, hooked, ends⟩ := Option.bind_eq_some_iff.mp later
  obtain ⟨invResult, -⟩ := inv.setflHooked (fun _ _ => by rw [opened]; simp) hooked
  split at ends
  · obtain ⟨entry, found, isAfter⟩ := Option.map_eq_some_iff.mp ends
    subst isAfter
    exact invResult.setUserFlags found _
  · cases ends
    exact invResult

theorem Inv.socket (inv : Inv state) {hook : Bool} {flags : Flags} {result : State × Nat}
    (made : socket settable hook state flags = some result) : Inv result.1 := by
  have opened := inv.openFile flags
  rw [InnerFd.socket] at made
  split at made
  · obtain ⟨after, set, isResult⟩ := Option.map_eq_some_iff.mp made
    subst isResult
    exact opened.in_set_nonblock set
  · cases made
    exact opened

theorem Inv.accept (inv : Inv state) {hook : Bool} {sockfd : Nat} {flags : Flags}
    (accepted : accept settable hook state sockfd flags = some after) : Inv after := by
  have opened := inv.openFile flags
  rw [InnerFd.accept] at accepted
  split at accepted
  · split at accepted
    · split at accepted
      · exact opened.in_set_nonblock accepted
      · cases accepted
        exact opened
    · cases accepted
      exact opened
  · cases accepted
    exact opened

theorem Inv.dupfd (inv : Inv state) {hook : Bool} {least : Nat}
    (made : dupfd hook state fd least = some after) : Inv after := by
  rw [InnerFd.dupfd] at made
  cases duplicated : state.kernel.dup fd least with
  | none =>
    rw [duplicated] at made
    cases made
    exact inv
  | some result =>
    obtain ⟨kernel, target⟩ := result
    rw [duplicated] at made
    obtain ⟨free, same, others, flags⟩ := Descriptors.dup_spec duplicated
    have invDuplicated : Inv { state with kernel := kernel } := by
      refine inv.withKernel ?_ ?_
      · intro other entry file _ opened
        have different : other ≠ target := by
          intro isTarget
          rw [isTarget, free] at opened
          cases opened
        exact (others other different).trans opened
      · intro other entry file found nonblock own _
        rw [flags]
        exact inv.nonblock other entry file found nonblock own
    cases found : state.table fd with
    | none =>
      rw [found] at made
      cases made
      exact invDuplicated
    | some entry =>
      rw [found] at made
      dsimp only at made
      obtain ⟨file, opened, -⟩ := inv.current fd entry found
      split at made
      · exact (invDuplicated.new_inner_fd (same.trans opened) made).1
      · cases made
        exact invDuplicated

theorem Inv.close (inv : Inv state) {hook : Bool} (careful : hook = false → state.table fd = none) :
    Inv (close hook state fd) := by
  have erased := inv.eraseEntry fd
  have closed : Inv (InnerFd.setEntry { state with kernel := state.kernel.close fd } fd none) := by
    constructor
    · intro other entry found
      by_cases isFd : other = fd
      · subst isFd
        rw [setEntry_self] at found
        cases found
      · obtain ⟨file, opened, own⟩ := erased.current other entry found
        exact ⟨file, (Descriptors.files_close_of_ne isFd state.kernel).trans opened, own⟩
    · exact erased.nonblock
  rw [InnerFd.close]
  cases hook with
  | true => exact closed
  | false =>
    have unchanged : InnerFd.setEntry { state with kernel := state.kernel.close fd } fd none =
        { state with kernel := state.kernel.close fd } := by
      rw [InnerFd.setEntry]
      congr 1
      exact Function.update_eq_self_iff.mpr (careful rfl).symm
    rw [← unchanged]
    exact closed

theorem Inv.open_timer (inv : Inv state) {others : Nat} {result : State × Option Nat}
    (made : open_timer state others = some result) : Inv result.1 := by
  have opened := inv.openFile ⟨true, others⟩
  have found := Descriptors.files_openFile_self state.kernel ⟨true, others⟩
  have flags := Descriptors.flags_openFile_self state.kernel ⟨true, others⟩
  rw [InnerFd.open_timer] at made
  dsimp only at made
  split at made
  · cases made
    exact opened
  · obtain ⟨noted, isNoted, mapped⟩ := Option.bind_eq_some_iff.mp made
    obtain ⟨entry, foundNoted, isResult⟩ := Option.map_eq_some_iff.mp mapped
    subst isResult
    have invNoted : Inv noted ∧ noted.kernel = (state.kernel.openFile ⟨true, others⟩).1 := by
      split at isNoted
      · cases isNoted
        exact ⟨opened, rfl⟩
      · exact opened.new_inner_fd found isNoted
    obtain ⟨invNoted, kernel⟩ := invNoted
    obtain ⟨file, openedNoted, own⟩ := invNoted.current _ entry foundNoted
    refine invNoted.setEntry openedNoted own fun _ => ?_
    rw [kernel, found] at openedNoted
    cases openedNoted
    rw [kernel, flags]

/-- With the hook off, the failing connect leaves nothing in the table. -/
theorem Inv.tcpConnectTillFails (inv : Inv state) {polls : Bool} {flags : Flags} {others : Nat}
    (failed : tcpConnectTillFails settable false polls state flags others = some after) :
    Inv after := by
  have opened := inv.openFile flags
  have noEntry : state.table (state.kernel.openFile flags).2 = none :=
    inv.table_of_free (state.kernel.lowest_free 0)
  rw [InnerFd.tcpConnectTillFails, InnerFd.socket] at failed
  simp only [Bool.false_eq_true, if_false, Option.bind_some, noEntry, Option.bind_none] at failed
  split at failed
  · cases failed
  · cases failed
    exact opened.close fun _ => noEntry

/-- Every careful call keeps the invariant. -/
theorem Inv.step (inv : Inv state) {call : Call} (careful : Careful state call)
    (stepped : step settable state call = some after) : Inv after := by
  cases call with
  | socket hook flags =>
    obtain ⟨result, made, isAfter⟩ := Option.map_eq_some_iff.mp stepped
    subst isAfter
    exact inv.socket made
  | accept hook sockfd flags => exact inv.accept stepped
  | setfl hook fd flags =>
    rw [InnerFd.step, InnerFd.setfl] at stepped
    cases hook with
    | true =>
      obtain ⟨result, made, isAfter⟩ := Option.map_eq_some_iff.mp stepped
      subst isAfter
      exact (inv.setflHooked careful made).1
    | false =>
      cases set : state.kernel.setfl settable fd flags with
      | none =>
        rw [set] at stepped
        cases stepped
        exact inv
      | some kernel =>
        rw [set] at stepped
        cases stepped
        refine inv.kernelSetfl set ?_
        cases nonblock : flags.nonblock with
        | true => exact Or.inl rfl
        | false => exact Or.inr (careful nonblock)
  | dupfd hook fd least => exact inv.dupfd stepped
  | close hook fd =>
    cases stepped
    exact inv.close careful
  | openTimer others =>
    obtain ⟨result, made, isAfter⟩ := Option.map_eq_some_iff.mp stepped
    subst isAfter
    exact inv.open_timer made
  | tcpConnectTillFails hook polls flags others =>
    have off : hook = false := careful
    rw [off] at stepped
    exact inv.tcpConnectTillFails stepped

end Steps

/-! ### The table and the kernel -/

/-- In every run of careful calls, whatever the process had open: when a descriptor has an entry
with `O_NONBLOCK`, the file open under it is non-blocking in the kernel, and the entry was made for
that file. -/
theorem table_agrees_of_careful (settable : Nat → Nat → Nat) (kernel : Descriptors) {state : State}
    (reached : ReachableBy (step settable) Careful (start kernel) state) {fd : Nat} {entry : Entry}
    (found : state.table fd = some entry) (nonblock : entry.flags.nonblock = true) :
    ∃ file, state.kernel.files fd = some file ∧ (state.kernel.flags file).nonblock = true ∧
      entry.madeFor = some file := by
  have inv : Inv state :=
    ReachableBy.invariant Inv (inv_start kernel)
      (fun _ _ _ inv careful stepped => inv.step careful stepped) reached
  obtain ⟨file, opened, own⟩ := inv.current fd entry found
  exact ⟨file, opened, inv.nonblock fd entry file found nonblock own, own⟩

/-- The three standard streams. -/
def standard : Descriptors :=
  (((Descriptors.closed.openFile ⟨false, 2⟩).1.openFile ⟨false, 2⟩).1.openFile ⟨false, 2⟩).1

/-- A socket opened with the hook on. -/
theorem table_agrees_after_socket :
    ∃ state, ReachableBy (step fun old _ => old) Careful (start standard) state ∧
      (∃ entry, state.table 3 = some entry ∧ entry.flags.nonblock = true) ∧
      ∃ file, state.kernel.files 3 = some file ∧ (state.kernel.flags file).nonblock = true := by
  obtain ⟨state, stepped, entry, found, nonblock⟩ : ∃ state,
      step (fun old _ => old) (start standard) (.socket true ⟨false, 2⟩) = some state ∧
        ∃ entry, state.table 3 = some entry ∧ entry.flags.nonblock = true :=
    ⟨_, rfl, _, rfl, rfl⟩
  have reached : ReachableBy (step fun old _ => old) Careful (start standard) state :=
    Relation.ReflTransGen.single ⟨.socket true ⟨false, 2⟩, trivial, stepped⟩
  obtain ⟨file, opened, isNonblock, -⟩ :=
    table_agrees_of_careful (fun old _ => old) standard reached found nonblock
  exact ⟨state, reached, ⟨entry, found, nonblock⟩, file, opened, isNonblock⟩

/-- A connect that fails, and then another socket, opened with the hook off: it gets the same
number, where the old entry says that it is non-blocking, and it stays blocking when `O_NONBLOCK`
is set with the hook on. -/
theorem table_contradicts_after_failed_connect :
    ∃ state entry file, Reachable (step fun old _ => old) (start standard) state ∧
      state.table 3 = some entry ∧ entry.flags.nonblock = true ∧
      state.kernel.files 3 = some file ∧ (state.kernel.flags file).nonblock = false ∧
      entry.madeFor ≠ some file := by
  obtain ⟨state, executed, entry, file, found, nonblock, opened, blocking, madeFor⟩ :
      ∃ state, run (step fun old _ => old) (start standard)
          [.tcpConnectTillFails true false ⟨false, 2⟩ 0, .socket false ⟨false, 2⟩,
            .setfl true 3 ⟨true, 2⟩] = some state ∧
        ∃ entry file, state.table 3 = some entry ∧ entry.flags.nonblock = true ∧
          state.kernel.files 3 = some file ∧ (state.kernel.flags file).nonblock = false ∧
          entry.madeFor ≠ some file :=
    ⟨_, rfl, _, _, rfl, rfl, rfl, rfl, by decide⟩
  exact ⟨state, entry, file, reachable_of_run executed, found, nonblock, opened, blocking,
    madeFor⟩

end InnerFd

end Nattan
