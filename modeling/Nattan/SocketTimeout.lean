/-
This file models the two copies of a socket's timeout, and proves when they agree.

`Socket::setTimeout` stores the timeout in the `Socket` and is to store it in the entry of
the descriptor, where `event_poll` finds it. The test in `set_inner_fd_timeout` is the wrong
way round: it stores into the entry exactly when there is none. So an entry keeps the
timeout it was made with, and a null pointer is followed for a descriptor in the range of
the table that has no entry. A `Socket` tells the truth only if it was given that timeout.

A descriptor gets its entry when it is opened with the hook on, and loses it when it is
closed. Which descriptors the process had open before, and what the `Socket` objects were
made from, is left open.
-/

import Mathlib.Logic.Function.Basic
import Nattan.Transition

namespace Nattan

namespace SocketTimeout

universe u

def MAX_FD_NUM : Int := 102400

/-- `FD_TIMEOUT`, a `time_t`. -/
def FD_TIMEOUT : BitVec 64 := 3

def IENONE : Nat := 0

/-- An `inner_fd`. The task is known by its number. -/
structure Entry where
  fd : Int
  task : Option Nat
  timeout : BitVec 64
  error : Nat
  deriving DecidableEq, Repr

/-- A `Socket`. -/
structure Socket where
  fSockFd : Int
  fTimeout : BitVec 64
  deriving DecidableEq, Repr

/-- The open descriptors, their entries, and the `Socket` objects. -/
structure State (Sock : Type u) where
  opened : Int → Bool
  g_inner_fd_list : Int → Option Entry
  sockets : Sock → Socket

variable {Sock : Type u} [DecidableEq Sock]

def is_fd_valid (fd : Int) : Bool :=
  decide (-1 < fd ∧ fd < MAX_FD_NUM)

/-- `new_inner_fd`. It writes behind the table for a descriptor that is too large. -/
def new_inner_fd (state : State Sock) (fd : Int) : Option (State Sock) :=
  if is_fd_valid fd then
    some { state with
      g_inner_fd_list := Function.update state.g_inner_fd_list fd
        (some ⟨fd, none, FD_TIMEOUT, IENONE⟩) }
  else none

def get_inner_fd (state : State Sock) (fd : Int) : Option Entry :=
  if is_fd_valid fd then state.g_inner_fd_list fd else none

def delete_inner_fd (state : State Sock) (fd : Int) : State Sock :=
  if is_fd_valid fd then
    { state with g_inner_fd_list := Function.update state.g_inner_fd_list fd none }
  else state

/-- `set_inner_fd_timeout`. What it stores, it stores through a null pointer. -/
def set_inner_fd_timeout (state : State Sock) (fd : Int) (_msecs : BitVec 64) :
    Option (State Sock) :=
  if is_fd_valid fd then
    match get_inner_fd state fd with
    | none => none
    | some _ => some state
  else some state

/-- The assignment `fTimeout = tm`. -/
def setReported (state : State Sock) (sock : Sock) (tm : BitVec 64) : State Sock :=
  { state with
    sockets := Function.update state.sockets sock { state.sockets sock with fTimeout := tm } }

def setTimeout (state : State Sock) (sock : Sock) (tm : BitVec 64) : Option (State Sock) :=
  (set_inner_fd_timeout state (state.sockets sock).fSockFd tm).map fun state =>
    setReported state sock tm

def getTimeout (state : State Sock) (sock : Sock) : BitVec 64 :=
  (state.sockets sock).fTimeout

/-- `socket` with the hook on, when the kernel opens this descriptor. The `F_SETFL` of
`in_set_nonblock` makes an entry where there is none. -/
def socket (state : State Sock) (fd : Int) : Option (State Sock) :=
  let state := { state with opened := Function.update state.opened fd true }
  match get_inner_fd state fd with
  | none => new_inner_fd state fd
  | some _ => some state

/-- `close` with the hook on. -/
def close (state : State Sock) (fd : Int) : State Sock :=
  let state :=
    match get_inner_fd state fd with
    | none => state
    | some _ => delete_inner_fd state fd
  { state with opened := Function.update state.opened fd false }

/-- `event_poll` of a task, up to its yield, and the timeout it passes to `wheel_update_element`,
which takes an `int`. It is a panic without an entry, and passes nothing if the events cannot be
added. -/
def event_poll (state : State Sock) (self : Nat) (fd : Int) (added : Bool) :
    Option (State Sock × Option (BitVec 32)) :=
  (get_inner_fd state fd).map fun ifd =>
    ({ state with
      g_inner_fd_list := Function.update state.g_inner_fd_list fd
        (some { ifd with error := IENONE, task := some self }) },
      if added then some (ifd.timeout.setWidth 32) else none)

/-- What happens to descriptors and `Socket` objects. -/
inductive Action (Sock : Type u) where
  | socket (fd : Int)
  | construct (sock : Sock) (fd : Int)
  | attach (sock : Sock) (fd : Int)
  | setTimeout (sock : Sock) (tm : BitVec 64)
  | close (fd : Int)
  deriving DecidableEq, Repr

/-- The kernel opens a descriptor that is not open. There is no state after an action that ends the
process. -/
def step (state : State Sock) : Action Sock → Option (State Sock)
  | .socket fd => if 0 ≤ fd ∧ state.opened fd = false then socket state fd else none
  | .construct sock fd =>
    some { state with sockets := Function.update state.sockets sock ⟨fd, 0⟩ }
  | .attach sock fd =>
    some { state with
      sockets := Function.update state.sockets sock
        { state.sockets sock with fSockFd := fd } }
  | .setTimeout sock tm => setTimeout state sock tm
  | .close fd => some (close state fd)

/-- A process that has no entry yet. -/
def start (opened : Int → Bool) (sockets : Sock → Socket) : State Sock where
  opened := opened
  g_inner_fd_list := fun _ => none
  sockets := sockets

/-! ### What is claimed -/

/-- The descriptor is open, and was opened with the hook on. -/
def Hooked (state : State Sock) (fd : Int) : Prop :=
  state.opened fd = true ∧ (get_inner_fd state fd).isSome = true

/-- Actions that have nothing to do with the `Socket` and its descriptor. -/
def Aside (sock : Sock) (fd : Int) (state : State Sock) : Action Sock → Prop
  | .socket _ => True
  | .construct other _ | .attach other _ => other ≠ sock
  | .setTimeout other _ => (state.sockets other).fSockFd ≠ fd
  | .close other => other ≠ fd

/-- The timeout is enforced that the `Socket` reports: with an open hooked descriptor, the next
`event_poll` passes it to the wheel, whatever has happened to other descriptors meanwhile. Without
an entry the call comes back and has changed nothing. -/
structure Enforced (state : State Sock) (sock : Sock) (tm : BitVec 64) : Prop where
  polled : Hooked state (state.sockets sock).fSockFd →
    ∃ after, setTimeout state sock tm = some after ∧
      ∀ later, ReachableBy step (Aside sock (state.sockets sock).fSockFd) after later →
        ∀ self, ∃ next passed,
          event_poll later self (state.sockets sock).fSockFd true = some (next, some passed) ∧
            passed.toInt = (getTimeout later sock).toInt
  unchanged : get_inner_fd state (state.sockets sock).fSockFd = none →
    setTimeout state sock tm = some state

/-- Every `setTimeout` of the sequence is enforced. -/
def EnforcedIn (first : State Sock) (actions : List (Action Sock)) : Prop :=
  ∀ before sock tm behind, actions = before ++ .setTimeout sock tm :: behind →
    ∀ state, run step first before = some state → Enforced state sock tm

/-- With an entry, the timeout is the one every entry is made with. Without one, the descriptor is
outside the table, and the timeout is the one the `Socket` has. -/
def Harmless (state : State Sock) (sock : Sock) (tm : BitVec 64) : Prop :=
  match get_inner_fd state (state.sockets sock).fSockFd with
  | some _ => tm = FD_TIMEOUT
  | none => is_fd_valid (state.sockets sock).fSockFd = false ∧ tm = getTimeout state sock

/-- Every `setTimeout` of the sequence is harmless. -/
def HarmlessIn (first : State Sock) (actions : List (Action Sock)) : Prop :=
  ∀ before sock tm behind, actions = before ++ .setTimeout sock tm :: behind →
    ∀ state, run step first before = some state → Harmless state sock tm

/-! ### The entries -/

/-- Every entry is that of an open descriptor, and has the timeout it was made with. -/
def Inv (state : State Sock) : Prop :=
  ∀ fd entry, get_inner_fd state fd = some entry →
    state.opened fd = true ∧ entry.timeout = FD_TIMEOUT

section Steps

variable {state after : State Sock} {fd : Int} {sock : Sock} {tm : BitVec 64}

omit [DecidableEq Sock] in
theorem is_fd_valid_of_get_inner_fd {entry : Entry} (found : get_inner_fd state fd = some entry) :
    is_fd_valid fd = true := by
  unfold get_inner_fd at found
  split at found
  · assumption
  · cases found

omit [DecidableEq Sock] in
/-- What `new_inner_fd` changes when it comes back. -/
theorem new_inner_fd_cases (new : new_inner_fd state fd = some after) :
    after.opened = state.opened ∧ after.sockets = state.sockets ∧
      ∀ other, get_inner_fd after other =
        if other = fd then some ⟨fd, none, FD_TIMEOUT, IENONE⟩ else get_inner_fd state other := by
  unfold new_inner_fd at new
  split at new
  · rename_i valid
    cases new
    refine ⟨rfl, rfl, fun other => ?_⟩
    by_cases own : other = fd
    · rw [own, if_pos rfl, get_inner_fd, if_pos valid]
      exact Function.update_self ..
    · rw [if_neg own, get_inner_fd, get_inner_fd]
      simp only [Function.update_of_ne own]
  · cases new

omit [DecidableEq Sock] in
/-- `set_inner_fd_timeout` comes back only where it does nothing. -/
theorem set_inner_fd_timeout_eq (state : State Sock) (fd : Int) (tm : BitVec 64) :
    set_inner_fd_timeout state fd tm =
      if is_fd_valid fd = true ∧ get_inner_fd state fd = none then none else some state := by
  unfold set_inner_fd_timeout
  by_cases valid : is_fd_valid fd = true
  · rw [if_pos valid]
    cases get_inner_fd state fd with
    | none => rw [if_pos ⟨valid, rfl⟩]
    | some entry => rw [if_neg (by simp)]
  · rw [if_neg valid, if_neg (by simp [valid])]

/-- A `setTimeout` that comes back has changed what the `Socket` reports, and nothing else. -/
theorem setTimeout_eq (state : State Sock) (sock : Sock) (tm : BitVec 64) :
    setTimeout state sock tm =
      if is_fd_valid (state.sockets sock).fSockFd = true ∧
          get_inner_fd state (state.sockets sock).fSockFd = none then none
      else some (setReported state sock tm) := by
  rw [setTimeout, set_inner_fd_timeout_eq]
  split
  · rfl
  · rfl

theorem setTimeout_cases (set : setTimeout state sock tm = some after) :
    after = setReported state sock tm := by
  rw [setTimeout_eq] at set
  split at set
  · cases set
  · exact (Option.some.inj set).symm

theorem setReported_sockets_self :
    (setReported state sock tm).sockets sock = { state.sockets sock with fTimeout := tm } :=
  Function.update_self ..

omit [DecidableEq Sock] in
/-- A socket that is opened has an entry, and the others keep theirs. -/
theorem socket_cases (opened : socket state fd = some after) :
    after.opened = Function.update state.opened fd true ∧ after.sockets = state.sockets ∧
      ∀ other, get_inner_fd after other =
        if other = fd ∧ get_inner_fd state fd = none then some ⟨fd, none, FD_TIMEOUT, IENONE⟩
        else get_inner_fd state other := by
  have same : get_inner_fd { state with opened := Function.update state.opened fd true } fd =
      get_inner_fd state fd := rfl
  unfold socket at opened
  simp only [same] at opened
  cases found : get_inner_fd state fd with
  | none =>
    rw [found] at opened
    obtain ⟨opens, kept, entries⟩ := new_inner_fd_cases opened
    refine ⟨opens, kept, fun other => (entries other).trans ?_⟩
    by_cases own : other = fd
    · rw [if_pos own, if_pos ⟨own, rfl⟩]
    · rw [if_neg own, if_neg fun both => own both.1]
      rfl
  | some entry =>
    rw [found] at opened
    cases opened
    refine ⟨rfl, rfl, fun other => ?_⟩
    rw [if_neg (by simp)]
    rfl

omit [DecidableEq Sock] in
/-- A descriptor that is closed has no entry, and the others keep theirs. -/
theorem get_inner_fd_close (state : State Sock) (fd other : Int) :
    get_inner_fd (close state fd) other =
      if other = fd then none else get_inner_fd state other := by
  unfold close
  cases found : get_inner_fd state fd with
  | none =>
    by_cases own : other = fd
    · rw [if_pos own, own]
      exact found
    · rw [if_neg own]
      rfl
  | some entry =>
    have valid := is_fd_valid_of_get_inner_fd found
    simp only [delete_inner_fd, if_pos valid]
    by_cases own : other = fd
    · rw [if_pos own, own, get_inner_fd, if_pos valid]
      exact Function.update_self ..
    · rw [if_neg own, get_inner_fd, get_inner_fd]
      simp only [Function.update_of_ne own]

omit [DecidableEq Sock] in
theorem close_opened (state : State Sock) (fd : Int) :
    (close state fd).opened = Function.update state.opened fd false ∧
      (close state fd).sockets = state.sockets := by
  unfold close delete_inner_fd
  cases get_inner_fd state fd with
  | none => exact ⟨rfl, rfl⟩
  | some entry =>
    simp only
    split
    · exact ⟨rfl, rfl⟩
    · exact ⟨rfl, rfl⟩

/-- Every action keeps the invariant. -/
theorem Inv.step (inv : Inv state) {action : Action Sock}
    (stepped : SocketTimeout.step state action = some after) : Inv after := by
  cases action with
  | socket opened =>
    obtain ⟨-, stepped⟩ := Option.ite_none_right_eq_some.mp stepped
    intro fd entry found
    obtain ⟨opens, -, entries⟩ := socket_cases stepped
    rw [entries] at found
    rw [opens]
    split at found
    · rename_i own
      cases found
      exact ⟨own.1 ▸ Function.update_self .., rfl⟩
    · obtain ⟨before, timeout⟩ := inv fd entry found
      refine ⟨?_, timeout⟩
      by_cases own : fd = opened
      · exact own ▸ Function.update_self ..
      · rw [Function.update_of_ne own]
        exact before
  | construct sock fd =>
    cases stepped
    exact inv
  | attach sock fd =>
    cases stepped
    exact inv
  | setTimeout sock tm =>
    rw [setTimeout_cases stepped]
    exact inv
  | close closed =>
    cases stepped
    intro fd entry found
    rw [get_inner_fd_close] at found
    by_cases own : fd = closed
    · rw [if_pos own] at found
      cases found
    · rw [if_neg own] at found
      rw [(close_opened state closed).1, Function.update_of_ne own]
      exact inv fd entry found

/-- An action aside leaves the `Socket`, and leaves the descriptor its entry. -/
theorem aside_step {action : Action Sock} (aside : Aside sock fd state action)
    (own : (state.sockets sock).fSockFd = fd)
    (stepped : SocketTimeout.step state action = some after) :
    after.sockets sock = state.sockets sock ∧
      ((get_inner_fd state fd).isSome = true → (get_inner_fd after fd).isSome = true) := by
  cases action with
  | socket opened =>
    obtain ⟨-, stepped⟩ := Option.ite_none_right_eq_some.mp stepped
    obtain ⟨-, kept, entries⟩ := socket_cases stepped
    refine ⟨congrFun kept sock, fun has => ?_⟩
    rw [entries]
    split
    · rfl
    · exact has
  | construct other fd =>
    cases stepped
    exact ⟨Function.update_of_ne (Ne.symm aside) .., id⟩
  | attach other fd =>
    cases stepped
    exact ⟨Function.update_of_ne (Ne.symm aside) .., id⟩
  | setTimeout other tm =>
    rw [setTimeout_cases stepped]
    have different : sock ≠ other := by
      rintro rfl
      exact aside own
    exact ⟨Function.update_of_ne different .., id⟩
  | close closed =>
    cases stepped
    refine ⟨congrFun (close_opened state closed).2 sock, fun has => ?_⟩
    rw [get_inner_fd_close, if_neg (Ne.symm aside)]
    exact has

/-- Behind a `setTimeout`, actions aside change neither what the `Socket` reports nor what the entry
has. -/
theorem aside_reaches {later : State Sock} (inv : Inv state)
    (own : (state.sockets sock).fSockFd = fd) (has : (get_inner_fd state fd).isSome = true)
    (reached : ReachableBy SocketTimeout.step (Aside sock fd) state later) :
    later.sockets sock = state.sockets sock ∧
      ∃ entry, get_inner_fd later fd = some entry ∧ entry.timeout = FD_TIMEOUT := by
  have all : Inv later ∧ later.sockets sock = state.sockets sock ∧
      (get_inner_fd later fd).isSome = true := by
    refine reached.invariant (fun later => Inv later ∧ later.sockets sock = state.sockets sock ∧
      (get_inner_fd later fd).isSome = true) ⟨inv, rfl, has⟩ ?_
    rintro before action after ⟨inv, same, has⟩ aside stepped
    obtain ⟨kept, keeps⟩ := aside_step aside (same ▸ own) stepped
    exact ⟨inv.step stepped, kept.trans same, keeps has⟩
  obtain ⟨inv, same, has⟩ := all
  obtain ⟨entry, found⟩ := Option.isSome_iff_exists.mp has
  exact ⟨same, entry, found, (inv fd entry found).2⟩

omit [DecidableEq Sock] in
/-- What is passed for an entry with the timeout it was made with. -/
theorem event_poll_of_timeout {entry : Entry} (found : get_inner_fd state fd = some entry)
    (timeout : entry.timeout = FD_TIMEOUT) (self : Nat) :
    ∃ next, event_poll state self fd true = some (next, some (FD_TIMEOUT.setWidth 32)) := by
  rw [event_poll, found, Option.map_some, timeout]
  exact ⟨_, rfl⟩

/-- With an entry, what is passed is the timeout the entry was made with. -/
theorem enforced_iff_of_entry (inv : Inv state) {entry : Entry}
    (found : get_inner_fd state (state.sockets sock).fSockFd = some entry) :
    Enforced state sock tm ↔ tm = FD_TIMEOUT := by
  have short : (FD_TIMEOUT.setWidth 32).toInt = FD_TIMEOUT.toInt := by decide
  have stored : setTimeout state sock tm = some (setReported state sock tm) := by
    rw [setTimeout_eq, if_neg (by simp [found])]
  have kept : get_inner_fd (setReported state sock tm) (state.sockets sock).fSockFd =
      some entry := found
  obtain ⟨opened, timeout⟩ := inv _ entry found
  constructor
  · intro enforced
    obtain ⟨after, same, passes⟩ := enforced.polled ⟨opened, by rw [found]; rfl⟩
    obtain rfl := Option.some.inj (stored.symm.trans same)
    obtain ⟨next, passed, polled, equal⟩ := passes _ Relation.ReflTransGen.refl 0
    obtain ⟨next', polled'⟩ := event_poll_of_timeout kept timeout 0
    rw [polled'] at polled
    cases polled
    rw [getTimeout, setReported_sockets_self, short] at equal
    exact (BitVec.eq_of_toInt_eq equal).symm
  · rintro rfl
    refine ⟨fun _ => ⟨_, stored, ?_⟩, ?_⟩
    · intro later reached self
      have inv' : Inv (setReported state sock FD_TIMEOUT) := inv
      have own : ((setReported state sock FD_TIMEOUT).sockets sock).fSockFd =
          (state.sockets sock).fSockFd := by rw [setReported_sockets_self]
      obtain ⟨same, entry', found', timeout'⟩ := aside_reaches inv' own
        (by rw [kept]; rfl) reached
      obtain ⟨next, polled⟩ := event_poll_of_timeout found' timeout' self
      refine ⟨next, _, polled, ?_⟩
      rw [getTimeout, same, setReported_sockets_self, short]
    · rw [found]
      exact fun impossible => nomatch impossible

/-- Without an entry, a null pointer is followed, or the `Socket` reports something else. -/
theorem enforced_iff_of_none (found : get_inner_fd state (state.sockets sock).fSockFd = none) :
    Enforced state sock tm ↔
      is_fd_valid (state.sockets sock).fSockFd = false ∧ tm = getTimeout state sock := by
  have outside : Enforced state sock tm ↔ setTimeout state sock tm = some state := by
    constructor
    · exact fun enforced => enforced.unchanged found
    · intro same
      refine ⟨fun hooked => ?_, fun _ => same⟩
      have has := hooked.2
      rw [found] at has
      cases has
  rw [outside, setTimeout_eq]
  cases valid : is_fd_valid (state.sockets sock).fSockFd with
  | true =>
    rw [if_pos ⟨rfl, found⟩]
    exact iff_of_false (fun impossible => nomatch impossible) fun both => nomatch both.1
  | false =>
    rw [if_neg fun both => nomatch both.1]
    constructor
    · intro same
      have stored := congrFun (congrArg State.sockets (Option.some.inj same)) sock
      rw [setReported_sockets_self] at stored
      exact ⟨rfl, congrArg Socket.fTimeout stored⟩
    · rintro ⟨-, rfl⟩
      have same : Function.update state.sockets sock (state.sockets sock) = state.sockets :=
        Function.update_eq_self ..
      exact congrArg (fun sockets => some { state with sockets }) same

/-- The whole of it in one state: a `setTimeout` is enforced exactly if it is harmless. -/
theorem enforced_iff (inv : Inv state) (sock : Sock) (tm : BitVec 64) :
    Enforced state sock tm ↔ Harmless state sock tm := by
  unfold Harmless
  cases found : get_inner_fd state (state.sockets sock).fSockFd with
  | some entry => exact enforced_iff_of_entry inv found
  | none => exact enforced_iff_of_none found

end Steps

/-! ### Runs -/

omit [DecidableEq Sock] in
theorem inv_start (opened : Int → Bool) (sockets : Sock → Socket) : Inv (start opened sockets) := by
  intro fd entry found
  unfold get_inner_fd start at found
  simp only [ite_self] at found
  cases found

theorem inv_of_run {opened : Int → Bool} {sockets : Sock → Socket} {state : State Sock}
    {actions : List (Action Sock)}
    (executed : run step (start opened sockets) actions = some state) :
    Inv state :=
  (reachable_of_run executed).invariant Inv (inv_start opened sockets)
    fun _ _ _ inv stepped => inv.step stepped

/-- In every sequence of actions, the timeouts that are set are enforced exactly if each of them is
the one the entry was made with, or the `Socket` has a descriptor outside the table and the timeout
already. -/
theorem enforcedIn_iff (opened : Int → Bool) (sockets : Sock → Socket)
    (actions : List (Action Sock)) :
    EnforcedIn (start opened sockets) actions ↔ HarmlessIn (start opened sockets) actions := by
  constructor
  · intro enforced before sock tm behind split state executed
    exact (enforced_iff (inv_of_run executed) sock tm).mp
      (enforced before sock tm behind split state executed)
  · intro harmless before sock tm behind split state executed
    exact (enforced_iff (inv_of_run executed) sock tm).mpr
      (harmless before sock tm behind split state executed)

/-- A `Socket` that reports ten seconds, of a descriptor that times out after three, and one without
an entry, on which the process ends. -/
theorem not_enforcedIn :
    ¬ EnforcedIn (start (fun fd => decide (fd < 3)) fun _ : Unit => ⟨3, 0⟩)
        [.socket 3, .setTimeout () 10] ∧
      ¬ EnforcedIn (start (fun fd => decide (fd < 3)) fun _ : Unit => ⟨3, 0⟩)
        [.setTimeout () 10] := by
  constructor
  · intro enforced
    have executed : run step (start (fun fd => decide (fd < 3)) fun _ : Unit => ⟨3, 0⟩)
        [.socket 3] = some _ := rfl
    have one := enforced [.socket 3] () 10 [] rfl _ executed
    exact absurd ((enforced_iff_of_entry (inv_of_run executed) rfl).mp one) (by decide)
  · intro enforced
    have one := enforced [] () 10 [] rfl _ rfl
    exact absurd ((enforced_iff_of_none rfl).mp one).1 (by decide)

end SocketTimeout

end Nattan
