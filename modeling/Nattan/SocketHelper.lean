/-
This file models the four functions of `SocketHelper` that create a socket, for every
outcome of the system calls in them, and proves on which outcomes they succeed completely
or leave nothing behind.

A descriptor is kept in three places: the kernel's table, a local variable and the global
table of addresses. The outcomes of the calls are given to a function from outside; the
setting of options behind the registration has no influence on any of the three.

`TcpConnect` and `TcpConnectTill` forget a new socket that has a pending error: they
return without closing it, where `TcpAccept` closes it. `TcpListen` closes the socket on
every failure and then returns its number, where the others return `INVALID_SOCKET`. And
the table of addresses has 65536 entries, but a descriptor can be larger.
-/

import Mathlib.Logic.Function.Basic
import Nattan.Memory

namespace Nattan.SocketHelper

variable {Address : Type}

/-! ### Sockets -/

abbrev SOCKET := Int

def INVALID_SOCKET : SOCKET := -1

def SOCKET_MAX_NUMBER : Nat := 65536

/-- The open descriptors, `g_sock_address`, and the entries of `g_sock_ssl_handler` in use. -/
structure Process (Address : Type) where
  opened : Nat → Bool
  g_sock_address : Nat → Option Address
  g_sock_ssl_handler : Nat → Bool

/-- What `socket` or `accept` returns: a descriptor, which is open then, or -1. -/
def create (process : Process Address) : Option Nat → Process Address × SOCKET
  | none => (process, -1)
  | some fd => ({ process with opened := Function.update process.opened fd true }, fd)

/-- The outcome of `getsockopt` with `SO_ERROR`. -/
structure Query where
  rs : Int
  error : Int
  deriving DecidableEq, Repr

/-- `Socket::valid(sockfd)`. -/
def valid (sockfd : SOCKET) (query : Query) : Bool :=
  if sockfd ≤ INVALID_SOCKET then false
  else if query.rs ≠ 0 then false
  else if query.error ≠ 0 then false
  else true

/-- An access to the entry of a descriptor in one of the two tables. -/
def entry (sockfd : SOCKET) : Except Fault Nat :=
  if 0 ≤ sockfd ∧ sockfd < SOCKET_MAX_NUMBER then .ok sockfd.toNat
  else .error (.outOfBounds sockfd)

/-- `Socket::close()`. -/
def close (process : Process Address) (sockfd : SOCKET) : Except Fault (Process Address) :=
  if sockfd < 0 then .ok process
  else do
    let fd ← entry sockfd
    return {
      opened := Function.update process.opened fd false
      g_sock_address := Function.update process.g_sock_address fd none
      g_sock_ssl_handler := Function.update process.g_sock_ssl_handler fd false }

def setupSockAddress (process : Process Address) (sockfd : SOCKET) (addr : Address) :
    Except Fault (Process Address) := do
  let fd ← entry sockfd
  return { process with g_sock_address := Function.update process.g_sock_address fd (some addr) }

/-- `sock.close(); sockfd = INVALID_SOCKET;` -/
def giveUp (process : Process Address) (sockfd : SOCKET) :
    Except Fault (Process Address × SOCKET) := do
  let process ← close process sockfd
  return (process, INVALID_SOCKET)

/-- `setupSockAddress(sockfd, addr)` at the end of a success. -/
def succeed (process : Process Address) (sockfd : SOCKET) (addr : Address) :
    Except Fault (Process Address × SOCKET) := do
  let process ← setupSockAddress process sockfd addr
  return (process, sockfd)

/-! ### The four functions -/

structure ConnectOutcome where
  created : Option Nat
  query : Query
  connect : Int
  deriving DecidableEq, Repr

def TcpConnect (process : Process Address) (addr : Address) (outcome : ConnectOutcome) :
    Except Fault (Process Address × SOCKET) :=
  let (process, sockfd) := create process outcome.created
  if valid sockfd outcome.query = false then .ok (process, INVALID_SOCKET)
  else if outcome.connect < 0 then giveUp process sockfd
  else succeed process sockfd addr

def EALREADY : Int := 114
def EINPROGRESS : Int := 115
def EPOLLOUT : Nat := 4

structure ConnectTillOutcome where
  created : Option Nat
  query : Query
  connect : Int
  errno : Int
  polled : Int
  revents : Nat
  connectError : Int
  deriving DecidableEq, Repr

def TcpConnectTill (process : Process Address) (addr : Address) (outcome : ConnectTillOutcome) :
    Except Fault (Process Address × SOCKET) :=
  let (process, sockfd) := create process outcome.created
  if valid sockfd outcome.query = false then .ok (process, INVALID_SOCKET)
  else if outcome.connect = -1 then
    if outcome.errno = EALREADY ∨ outcome.errno = EINPROGRESS then
      if outcome.polled = 1 ∧ outcome.revents &&& EPOLLOUT ≠ 0 ∧ outcome.connectError = 0 then
        succeed process sockfd addr
      else giveUp process sockfd
    else giveUp process sockfd
  else succeed process sockfd addr

structure ListenOutcome where
  created : Option Nat
  query : Query
  bind : Int
  listen : Int
  deriving DecidableEq, Repr

/-- `failed`. -/
def ListenOutcome.failed (outcome : ListenOutcome) (sockfd : SOCKET) : Bool :=
  if valid sockfd outcome.query = false then true
  else if outcome.bind < 0 then true
  else if outcome.listen < 0 then true
  else false

def TcpListen (process : Process Address) (addr : Address) (outcome : ListenOutcome) :
    Except Fault (Process Address × SOCKET) :=
  let (process, sockfd) := create process outcome.created
  if outcome.failed sockfd = true then do
    let process ← close process sockfd
    return (process, sockfd)
  else succeed process sockfd addr

structure AcceptOutcome where
  created : Option Nat
  query : Query
  deriving DecidableEq, Repr

/-- `TcpAccept(sockfd)`. The address is that of the client. -/
def TcpAccept (process : Process Address) (addr : Address) (outcome : AcceptOutcome) :
    Except Fault (Process Address × SOCKET) :=
  let (process, sockfd) := create process outcome.created
  if valid sockfd outcome.query = false then giveUp process sockfd
  else succeed process sockfd addr

/-! ### All or nothing -/

/-- A call of one of the functions, with the outcomes of its system calls. -/
inductive Invocation where
  | connect (outcome : ConnectOutcome)
  | connectTill (outcome : ConnectTillOutcome)
  | listen (outcome : ListenOutcome)
  | accept (outcome : AcceptOutcome)
  deriving DecidableEq, Repr

namespace Invocation

def invoke (process : Process Address) (addr : Address) :
    Invocation → Except Fault (Process Address × SOCKET)
  | connect outcome => TcpConnect process addr outcome
  | connectTill outcome => TcpConnectTill process addr outcome
  | listen outcome => TcpListen process addr outcome
  | accept outcome => TcpAccept process addr outcome

/-- The descriptor that the call creates. -/
def created : Invocation → Option Nat
  | connect outcome => outcome.created
  | connectTill outcome => outcome.created
  | listen outcome => outcome.created
  | accept outcome => outcome.created

end Invocation

/-- The call returned `INVALID_SOCKET`, and its descriptor is closed and has no address; or an open
descriptor, which has its address. -/
def Complete (created : Option Nat) (addr : Address)
    (result : Except Fault (Process Address × SOCKET)) : Prop :=
  ∃ process sockfd, result = .ok (process, sockfd) ∧
    ((sockfd = INVALID_SOCKET ∧ ∀ fd, created = some fd →
        process.opened fd = false ∧ process.g_sock_address fd = none) ∨
      ∃ fd : Nat, sockfd = fd ∧ process.opened fd = true ∧
        process.g_sock_address fd = some addr)

/-- The new socket has no pending error. -/
def Query.clean (query : Query) : Prop :=
  query.rs = 0 ∧ query.error = 0

/-- No descriptor was created, or it has an entry in the table and: nothing is wrong with a new
socket that is to be connected, and nothing goes wrong with one that is to listen. -/
def Invocation.Orderly (invocation : Invocation) : Prop :=
  ∀ fd, invocation.created = some fd → fd < SOCKET_MAX_NUMBER ∧
    match invocation with
    | connect outcome => outcome.query.clean
    | connectTill outcome => outcome.query.clean
    | listen outcome => outcome.query.clean ∧ 0 ≤ outcome.bind ∧ 0 ≤ outcome.listen
    | accept _ => True

theorem valid_iff (fd : Nat) (query : Query) : valid fd query = true ↔ query.clean := by
  have created : ¬ (fd : Int) ≤ INVALID_SOCKET := by
    show ¬ (fd : Int) ≤ -1
    omega
  unfold valid Query.clean
  rw [if_neg created]
  by_cases asked : query.rs = 0
  · by_cases pending : query.error = 0
    · simp [asked, pending]
    · simp [asked, pending]
  · simp [asked]

/-- The test `!sock.valid()` of a new socket. -/
theorem not_valid_iff (fd : Nat) (query : Query) : valid fd query = false ↔ ¬ query.clean := by
  rw [← valid_iff fd, Bool.not_eq_true]

theorem not_valid_invalid (query : Query) : valid INVALID_SOCKET query = false :=
  if_pos (Int.le_refl _)

theorem entry_ofNat_of_lt {fd : Nat} (small : fd < SOCKET_MAX_NUMBER) : entry fd = .ok fd := by
  rw [entry, if_pos ⟨Int.natCast_nonneg fd, Int.ofNat_lt.mpr small⟩, Int.toNat_natCast]

theorem entry_ofNat_of_not_lt {fd : Nat} (large : ¬ fd < SOCKET_MAX_NUMBER) :
    entry fd = .error (.outOfBounds fd) := by
  rw [entry, if_neg fun inside => large (Int.ofNat_lt.mp inside.2)]

theorem not_complete_error (created : Option Nat) (addr : Address) (fault : Fault) :
    ¬ Complete created addr (.error fault) := by
  rintro ⟨_, _, same, _⟩
  cases same

theorem create_none (process : Process Address) :
    create process none = (process, INVALID_SOCKET) :=
  rfl

theorem create_some (process : Process Address) (fd : Nat) :
    create process (some fd) = ((create process (some fd)).1, (fd : SOCKET)) :=
  rfl

section

variable (process : Process Address) (addr : Address) (fd : Nat)

/-- The state behind a `socket` or `accept` that created this descriptor. -/
theorem opened_create : (create process (some fd)).1.opened fd = true :=
  Function.update_self _ _ _

/-- Closing leaves nothing, if the tables have an entry. -/
theorem complete_giveUp_iff :
    Complete (some fd) addr (giveUp (create process (some fd)).1 fd) ↔ fd < SOCKET_MAX_NUMBER := by
  have nonnegative : ¬ (fd : Int) < 0 := by omega
  by_cases small : fd < SOCKET_MAX_NUMBER
  · refine iff_of_true ?_ small
    rw [giveUp, close, if_neg nonnegative, entry_ofNat_of_lt small]
    refine ⟨_, _, rfl, Or.inl ⟨rfl, fun other same => ?_⟩⟩
    cases same
    exact ⟨Function.update_self _ _ _, Function.update_self _ _ _⟩
  · refine iff_of_false ?_ small
    rw [giveUp, close, if_neg nonnegative, entry_ofNat_of_not_lt small]
    exact not_complete_error _ _ _

/-- Registering completes a success, if the table has an entry. -/
theorem complete_succeed_iff :
    Complete (some fd) addr (succeed (create process (some fd)).1 fd addr) ↔
      fd < SOCKET_MAX_NUMBER := by
  by_cases small : fd < SOCKET_MAX_NUMBER
  · refine iff_of_true ?_ small
    rw [succeed, setupSockAddress, entry_ofNat_of_lt small]
    exact ⟨_, _, rfl, Or.inr ⟨fd, rfl, opened_create process fd, Function.update_self _ _ _⟩⟩
  · refine iff_of_false ?_ small
    rw [succeed, setupSockAddress, entry_ofNat_of_not_lt small]
    exact not_complete_error _ _ _

/-- Returning without closing leaves the descriptor. -/
theorem not_complete_forgotten :
    ¬ Complete (some fd) addr (.ok ((create process (some fd)).1, INVALID_SOCKET)) := by
  rintro ⟨after, sockfd, same, ⟨-, nothing⟩ | ⟨other, number, -⟩⟩
  · cases same
    have closed := (nothing fd rfl).1
    rw [opened_create] at closed
    cases closed
  · cases same
    have negative : (-1 : Int) = other := number
    omega

/-- Closing and returning the number is neither. -/
theorem not_complete_closed :
    ¬ Complete (some fd) addr (do
      let process ← close (create process (some fd)).1 fd
      return (process, (fd : SOCKET))) := by
  have nonnegative : ¬ (fd : Int) < 0 := by omega
  by_cases small : fd < SOCKET_MAX_NUMBER
  · rw [close, if_neg nonnegative, entry_ofNat_of_lt small]
    rintro ⟨after, sockfd, same, ⟨invalid, -⟩ | ⟨other, number, opened, -⟩⟩
    · cases same
      have negative : (fd : Int) = -1 := invalid
      omega
    · cases same
      cases Int.ofNat.inj number
      have closed : Function.update (create process (some fd)).1.opened fd false fd = false :=
        Function.update_self _ _ _
      cases closed.symm.trans opened
  · rw [close, if_neg nonnegative, entry_ofNat_of_not_lt small]
    exact not_complete_error _ _ _

/-- Nothing was created. -/
theorem complete_none : Complete none addr (.ok (process, INVALID_SOCKET)) :=
  ⟨process, INVALID_SOCKET, rfl, Or.inl ⟨rfl, fun _ same => by cases same⟩⟩

end

/-! ### The functions one by one -/

section

variable (process : Process Address) (addr : Address)

/-- A call that gives up nothing when the new socket has a pending error, and is complete for
every other socket below the maximum. -/
theorem complete_checked_iff (created : Option Nat) (query : Query)
    (rest : Process Address → SOCKET → Except Fault (Process Address × SOCKET))
    (complete : ∀ fd : Nat, Complete (some fd) addr (rest (create process (some fd)).1 fd) ↔
      fd < SOCKET_MAX_NUMBER) :
    Complete created addr
        (if valid (create process created).2 query = false then
          .ok ((create process created).1, INVALID_SOCKET)
        else rest (create process created).1 (create process created).2) ↔
      ∀ fd, created = some fd → fd < SOCKET_MAX_NUMBER ∧ query.clean := by
  cases created with
  | none =>
    refine iff_of_true ?_ fun fd same => by cases same
    rw [create_none]
    simp only [not_valid_invalid, if_true]
    exact complete_none process addr
  | some fd =>
    rw [create_some]
    simp only [Option.some.injEq, forall_eq']
    split
    · rename_i invalid
      have unclean := (not_valid_iff fd _).mp invalid
      exact iff_of_false (not_complete_forgotten process addr fd) fun both => unclean both.2
    · rename_i checked
      have clean := not_not.mp (mt (not_valid_iff fd _).mpr checked)
      rw [and_iff_left clean]
      exact complete fd

theorem complete_TcpConnect_iff (outcome : ConnectOutcome) :
    Complete outcome.created addr (TcpConnect process addr outcome) ↔
      ∀ fd, outcome.created = some fd → fd < SOCKET_MAX_NUMBER ∧ outcome.query.clean := by
  refine complete_checked_iff process addr outcome.created outcome.query
    (fun process sockfd =>
      if outcome.connect < 0 then giveUp process sockfd else succeed process sockfd addr)
    fun fd => ?_
  split
  · exact complete_giveUp_iff process addr fd
  · exact complete_succeed_iff process addr fd

theorem complete_TcpConnectTill_iff (outcome : ConnectTillOutcome) :
    Complete outcome.created addr (TcpConnectTill process addr outcome) ↔
      ∀ fd, outcome.created = some fd → fd < SOCKET_MAX_NUMBER ∧ outcome.query.clean := by
  refine complete_checked_iff process addr outcome.created outcome.query
    (fun process sockfd =>
      if outcome.connect = -1 then
        if outcome.errno = EALREADY ∨ outcome.errno = EINPROGRESS then
          if outcome.polled = 1 ∧ outcome.revents &&& EPOLLOUT ≠ 0 ∧ outcome.connectError = 0 then
            succeed process sockfd addr
          else giveUp process sockfd
        else giveUp process sockfd
      else succeed process sockfd addr)
    fun fd => ?_
  split
  · split
    · split
      · exact complete_succeed_iff process addr fd
      · exact complete_giveUp_iff process addr fd
    · exact complete_giveUp_iff process addr fd
  · exact complete_succeed_iff process addr fd

theorem failed_iff (fd : Nat) (outcome : ListenOutcome) :
    outcome.failed fd = true ↔ ¬ (outcome.query.clean ∧ 0 ≤ outcome.bind ∧ 0 ≤ outcome.listen) := by
  unfold ListenOutcome.failed
  by_cases clean : outcome.query.clean
  · rw [if_neg fun invalid => (not_valid_iff fd _).mp invalid clean]
    by_cases bound : outcome.bind < 0
    · rw [if_pos bound]
      exact iff_of_true rfl fun all => by omega
    · rw [if_neg bound]
      by_cases listens : outcome.listen < 0
      · rw [if_pos listens]
        exact iff_of_true rfl fun all => by omega
      · rw [if_neg listens]
        exact iff_of_false Bool.false_ne_true fun failed =>
          failed ⟨clean, by omega, by omega⟩
  · rw [if_pos ((not_valid_iff fd _).mpr clean)]
    exact iff_of_true rfl fun all => clean all.1

theorem complete_TcpListen_iff (outcome : ListenOutcome) :
    Complete outcome.created addr (TcpListen process addr outcome) ↔
      ∀ fd, outcome.created = some fd → fd < SOCKET_MAX_NUMBER ∧
        outcome.query.clean ∧ 0 ≤ outcome.bind ∧ 0 ≤ outcome.listen := by
  unfold TcpListen
  cases outcome.created with
  | none =>
    refine iff_of_true ?_ fun fd same => by cases same
    rw [create_none]
    simp only [ListenOutcome.failed, not_valid_invalid, if_true]
    rw [close, if_pos (by decide)]
    exact complete_none process addr
  | some fd =>
    rw [create_some]
    simp only [Option.some.injEq, forall_eq']
    split
    · rename_i failed
      have unfit := (failed_iff fd _).mp failed
      exact iff_of_false (not_complete_closed process addr fd) fun both => unfit both.2
    · rename_i passed
      have fine := not_not.mp (mt (failed_iff fd _).mpr passed)
      rw [and_iff_left fine]
      exact complete_succeed_iff process addr fd

theorem complete_TcpAccept_iff (outcome : AcceptOutcome) :
    Complete outcome.created addr (TcpAccept process addr outcome) ↔
      ∀ fd, outcome.created = some fd → fd < SOCKET_MAX_NUMBER := by
  unfold TcpAccept
  cases outcome.created with
  | none =>
    refine iff_of_true ?_ fun fd same => by cases same
    rw [create_none]
    simp only [not_valid_invalid, if_true]
    rw [giveUp, close, if_pos (by decide)]
    exact complete_none process addr
  | some fd =>
    rw [create_some]
    simp only [Option.some.injEq, forall_eq']
    split
    · exact complete_giveUp_iff process addr fd
    · exact complete_succeed_iff process addr fd

end

/-- A call succeeds completely or leaves nothing if and only if it is orderly. -/
theorem complete_iff_orderly (process : Process Address) (addr : Address)
    (invocation : Invocation) :
    Complete invocation.created addr (invocation.invoke process addr) ↔ invocation.Orderly := by
  cases invocation with
  | connect outcome => exact complete_TcpConnect_iff process addr outcome
  | connectTill outcome => exact complete_TcpConnectTill_iff process addr outcome
  | listen outcome => exact complete_TcpListen_iff process addr outcome
  | accept outcome =>
    refine (complete_TcpAccept_iff process addr outcome).trans ?_
    exact forall_congr' fun fd => forall_congr' fun _ => (and_iff_left trivial).symm

/-- A process with the three standard descriptors. -/
def fresh : Process Nat where
  opened fd := decide (fd < 3)
  g_sock_address := fun _ => none
  g_sock_ssl_handler := fun _ => false

/-- `bind` fails because the port is in use. -/
def portInUse : Invocation :=
  .listen ⟨some 3, ⟨0, 0⟩, -1, 0⟩

theorem not_complete_portInUse :
    ¬ ∀ (process : Process Nat) (addr : Nat) (invocation : Invocation),
      Complete invocation.created addr (invocation.invoke process addr) := by
  intro complete
  obtain ⟨process, sockfd, same, ⟨invalid, -⟩ | ⟨fd, number, opened, -⟩⟩ :=
    complete fresh 80 portInUse
  · cases same
    exact absurd invalid (by decide)
  · cases same
    cases number
    exact absurd opened (by decide)

end Nattan.SocketHelper
