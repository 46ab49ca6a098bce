/-
This file models `SocketHelper::SpliceSSLData`, which moves what one TLS connection has
to read to another, for every sequence of outcomes of the calls in it, and proves on which
of them it forwards what it read.

The loop around the read is meant to try again after a wait, but its condition compares
`recv`, which is the function of the library and not the variable `recvn`. The address of
a function is never below zero. So a read that was refused, and whose wait succeeded, is
taken for one that is over: 0 is returned for nothing, and a negative result is handed to
`fill` as a `size_t`, which throws. The loop around the write tries again as it should.

The buffer is a queue. It is `Queue` here, and what it does with its memory is not
modelled.
-/

import Nattan.Buffer
import Nattan.SysHook

namespace Nattan.SslRelay

open Buffer (kBufferPrefixed)
open CoPoll SysHook

/-! ### The calls and their outcomes -/

def SSL_ERROR_WANT_READ : Int := 2

def SSL_ERROR_WANT_WRITE : Int := 3

/-- A call of `SSL_read` or `SSL_write` that did not succeed: what it returned, `errno` and
`SSL_get_error` behind it, and what `co_poll` will return when it is called for a descriptor, its
events and a timeout. -/
structure Refusal where
  result : Int
  errno : Errno
  getErrno : Int
  co_poll : Int → BitVec 16 → Int → Int
  result_le : result ≤ 0
  le_result : -2 ^ 31 ≤ result

/-- The outcome of a call of `SSL_read`. It reads as much of the data as there is room for. -/
inductive Read where
  | data (bytes : List UInt8) (some : bytes ≠ [])
  | refused (refusal : Refusal)

/-- The outcome of a call of `SSL_write`. It takes no more bytes than it is offered. -/
inductive Write where
  | accepted (most : Nat) (some : 0 < most)
  | refused (refusal : Refusal)

/-- A connection: its descriptor and the outcomes of the calls to come. -/
structure SSLHandler where
  getSocket : Int
  read : Nat → Read
  write : Nat → Write

/-- The outcomes behind the first. -/
def later {Outcome : Type} (calls : Nat → Outcome) (call : Nat) : Outcome :=
  calls (call + 1)

def WaitForSocketEvent (refusal : Refusal) (sockfd : Int) (event : BitVec 16)
    (timeout_ms : Int) : Int :=
  refusal.co_poll sockfd (event ||| EPOLLRDHUP ||| EPOLLERR) timeout_ms

def WaitForSocketReadable (refusal : Refusal) (sockfd timeout_ms : Int) : Int :=
  WaitForSocketEvent refusal sockfd EPOLLIN timeout_ms

def WaitForSocketWritable (refusal : Refusal) (sockfd timeout_ms : Int) : Int :=
  WaitForSocketEvent refusal sockfd EPOLLOUT timeout_ms

/-- The branch that both loops have for a refused call: whether it ends with `continue` rather
than with `return -1`. Both loops wait for the descriptor that is read. -/
def continues (refusal : Refusal) (from_fd timeout_ms : Int) : Bool :=
  if refusal.errno = .EAGAIN then
    let res :=
      if refusal.getErrno = SSL_ERROR_WANT_WRITE then
        WaitForSocketWritable refusal from_fd timeout_ms
      else if refusal.getErrno = SSL_ERROR_WANT_READ then
        WaitForSocketReadable refusal from_fd timeout_ms
      else -1
    0 < res
  else false

/-! ### The buffer -/

/-- The bytes of a buffer, those that were stored behind its end and are not part of it yet, and
the size of its memory. -/
structure Queue where
  size : Nat
  bytes : List UInt8
  beyond : List UInt8

/-- The largest size of a `std::vector<char>`. -/
def maxSize : Nat := 2 ^ 63 - 1

namespace Queue

def ofSize (init_size : Nat) : Queue where
  size := if kBufferPrefixed < init_size then init_size else 1024
  bytes := []
  beyond := []

def right (buf : Queue) : Nat :=
  buf.size - kBufferPrefixed - (kBufferPrefixed + buf.bytes.length)

/-- `fill(len)` makes the next `len` bytes behind the end part of the buffer. It resizes the
memory if there is no room for them, which throws beyond the largest size. -/
def fill (buf : Queue) (len : Nat) : Option Queue :=
  if buf.right < len ∧ maxSize < buf.bytes.length + len then none
  else
    some { buf with
      bytes := buf.bytes ++ (buf.beyond ++ List.replicate len 0).take len
      beyond := buf.beyond.drop len }

def shrink (buf : Queue) (len : Nat) : Queue :=
  { buf with bytes := buf.bytes.drop (min buf.bytes.length len) }

end Queue

/-! ### `SpliceSSLData` -/

/-- The first loop: the buffer and all bytes read when it is over, and `recvn`, or none if -1 is
returned from inside. `recv` is the address of the function of that name. -/
def readLoop (recv : BitVec 64) (from_fd timeout_ms : Int) :
    Nat → (Nat → Read) → Queue → List UInt8 → Option (Queue × List UInt8 × Option Int)
  | 0, _, _, _ => none
  | fuel + 1, calls, buf, read =>
    match calls 0 with
    | .data bytes _ =>
      let got := bytes.take buf.right
      let buf := { buf with beyond := got ++ buf.beyond.drop got.length }
      if recv < 0 then readLoop recv from_fd timeout_ms fuel (later calls) buf (read ++ got)
      else some (buf, read ++ got, some got.length)
    | .refused refusal =>
      if continues refusal from_fd timeout_ms then
        if recv < 0 then readLoop recv from_fd timeout_ms fuel (later calls) buf read
        else some (buf, read, some refusal.result)
      else some (buf, read, none)

/-- The second loop: all bytes written when it is over, and whether the buffer is empty then
rather than that -1 is returned from inside. -/
def writeLoop (from_fd timeout_ms : Int) :
    Nat → (Nat → Write) → Queue → List UInt8 → Option (List UInt8 × Bool)
  | 0, _, _, _ => none
  | fuel + 1, calls, buf, written =>
    if 0 < buf.bytes.length then
      match calls 0 with
      | .accepted most _ =>
        let sendn := min most buf.bytes.length
        writeLoop from_fd timeout_ms fuel (later calls) (buf.shrink sendn)
          (written ++ buf.bytes.take sendn)
      | .refused refusal =>
        if continues refusal from_fd timeout_ms then
          writeLoop from_fd timeout_ms fuel (later calls) buf written
        else some (written, false)
    else some (written, true)

/-- How a call ends. -/
inductive End where
  | returned (value : Int)
  | thrown

/-- A call that is over: how it ended, the bytes it read and those it wrote. -/
structure Relayed where
  ending : End
  read : List UInt8
  written : List UInt8

/-- The buffer at the start. -/
def start (max : BitVec 32) : Queue :=
  let len := Max.max max.toInt (10 * 1024)
  .ofSize len.toNat

/-- What follows the first loop. -/
def forward (fuel : Nat) (source sink : SSLHandler) (timeout_ms : Int) (buf : Queue)
    (read : List UInt8) (recvn : Int) : Option Relayed :=
  match buf.fill (recvn % 2 ^ 64).toNat with
  | none => some ⟨.thrown, read, []⟩
  | some buf =>
    (writeLoop source.getSocket timeout_ms fuel sink.write buf []).map fun (written, done) =>
      ⟨.returned (if done then recvn else -1), read, written⟩

def SpliceSSLData (recv : BitVec 64) (fuel : Nat) (source sink : Option SSLHandler)
    (max : BitVec 32) (timeout_ms : Int) : Option Relayed :=
  match source, sink with
  | some source, some sink =>
    match readLoop recv source.getSocket timeout_ms fuel source.read (start max) [] with
    | none => none
    | some (_, read, none) => some ⟨.returned (-1), read, []⟩
    | some (buf, read, some recvn) => forward fuel source sink timeout_ms buf read recvn
  | _, _ => some ⟨.returned (-1), [], []⟩

/-! ### What is wanted -/

/-- -1 is returned, or the number of the bytes read, which is not zero, and then the bytes written
are those read. -/
def Relayed.Forwards (relayed : Relayed) : Prop :=
  relayed.ending = .returned (-1) ∨
    ∃ r : Int, 0 < r ∧ relayed.ending = .returned r ∧ r = relayed.read.length ∧
      relayed.written = relayed.read

/-- The call is over some time and has forwarded then. -/
def Forwards (recv : BitVec 64) (source sink : Option SSLHandler) (max : BitVec 32)
    (timeout_ms : Int) : Prop :=
  ∃ fuel relayed, SpliceSSLData recv fuel source sink max timeout_ms = some relayed ∧
    relayed.Forwards

/-- The write is refused and not tried again. -/
def GivesUp (from_fd timeout_ms : Int) : Write → Prop
  | .accepted _ _ => False
  | .refused refusal => continues refusal from_fd timeout_ms = false

/-- The bytes that the first calls would take if enough were offered. -/
def taken : (Nat → Write) → Nat → Nat
  | _, 0 => 0
  | calls, count + 1 =>
    (match calls 0 with
      | .accepted most _ => most
      | .refused _ => 0) + taken (later calls) count

/-- The writes are not refused for ever: one of them ends the call, or they take all bytes. -/
def Settles (from_fd timeout_ms : Int) (calls : Nat → Write) (amount : Nat) : Prop :=
  ∃ count, GivesUp from_fd timeout_ms (calls count) ∨ amount ≤ taken calls count

/-- The first read is not refused and then waited for, and the writes of what it read are not
refused for ever. -/
def Orderly (source sink : Option SSLHandler) (max : BitVec 32) (timeout_ms : Int) : Prop :=
  match source, sink with
  | some source, some sink =>
    match source.read 0 with
    | .data bytes _ =>
      Settles source.getSocket timeout_ms sink.write (min (start max).right bytes.length)
    | .refused refusal => continues refusal source.getSocket timeout_ms = false
  | _, _ => True

/-! ### The first loop -/

section Loops

variable {recv : BitVec 64} {from_fd timeout_ms : Int} {fuel : Nat}

theorem not_recv_below : ¬ recv < 0 := by
  rw [BitVec.lt_def]
  exact Nat.not_lt_zero _

/-- The loop ends with its first call, whatever that one's outcome. -/
theorem readLoop_eq (calls : Nat → Read) (buf : Queue) (read : List UInt8) :
    readLoop recv from_fd timeout_ms (fuel + 1) calls buf read =
      match calls 0 with
      | .data bytes _ =>
        let got := bytes.take buf.right
        some ({ buf with beyond := got ++ buf.beyond.drop got.length }, read ++ got,
          some got.length)
      | .refused refusal =>
        some (buf, read,
          if continues refusal from_fd timeout_ms then some refusal.result else none) := by
  rw [readLoop]
  cases calls 0 with
  | data bytes nonempty => exact if_neg not_recv_below
  | refused refusal =>
    simp only [if_neg not_recv_below]
    split
    · rfl
    · rfl

/-! ### The second loop -/

variable {calls : Nat → Write} {amount : Nat}

theorem taken_of_accepted {most : Nat} {some : 0 < most} (first : calls 0 = .accepted most some)
    (count : Nat) : taken calls (count + 1) = most + taken (later calls) count := by
  rw [taken, first]

theorem taken_of_refused {refusal : Refusal} (first : calls 0 = .refused refusal) (count : Nat) :
    taken calls (count + 1) = taken (later calls) count := by
  rw [taken, first]
  exact Nat.zero_add _

theorem settles_zero : Settles from_fd timeout_ms calls 0 :=
  ⟨0, Or.inr (Nat.zero_le _)⟩

/-- What an accepted write leaves to the later ones. -/
theorem settles_of_accepted {most : Nat} {some : 0 < most} (first : calls 0 = .accepted most some)
    (positive : 0 < amount) :
    Settles from_fd timeout_ms calls amount ↔
      Settles from_fd timeout_ms (later calls) (amount - most) := by
  constructor
  · rintro ⟨count, ends⟩
    cases count with
    | zero =>
      rw [first, taken] at ends
      exact absurd (ends.resolve_left id) (Nat.not_le.mpr positive)
    | succ count =>
      rw [taken_of_accepted first] at ends
      exact ⟨count, ends.imp id fun enough => Nat.sub_le_iff_le_add'.mpr enough⟩
  · rintro ⟨count, ends⟩
    refine ⟨count + 1, ends.imp id fun enough => ?_⟩
    rw [taken_of_accepted first]
    exact Nat.sub_le_iff_le_add'.mp enough

/-- What a refused write leaves to the later ones, if there are any. -/
theorem settles_of_refused {refusal : Refusal} (first : calls 0 = .refused refusal)
    (positive : 0 < amount) :
    Settles from_fd timeout_ms calls amount ↔
      (continues refusal from_fd timeout_ms = true →
        Settles from_fd timeout_ms (later calls) amount) := by
  constructor
  · rintro ⟨count, ends⟩ goesOn
    cases count with
    | zero =>
      rw [first, GivesUp, goesOn, taken] at ends
      exact absurd (ends.resolve_left Bool.noConfusion) (Nat.not_le.mpr positive)
    | succ count =>
      rw [taken_of_refused first] at ends
      exact ⟨count, ends⟩
  · intro waits
    by_cases goesOn : continues refusal from_fd timeout_ms = true
    · obtain ⟨count, ends⟩ := waits goesOn
      refine ⟨count + 1, ends.imp id fun enough => ?_⟩
      rw [taken_of_refused first]
      exact enough
    · refine ⟨0, Or.inl ?_⟩
      rw [first, GivesUp]
      exact eq_false_of_ne_true goesOn

/-- What is left of the buffer behind a write. -/
theorem bytes_shrink (buf : Queue) (most : Nat) :
    (buf.shrink (min most buf.bytes.length)).bytes = buf.bytes.drop most := by
  show buf.bytes.drop (min buf.bytes.length (min most buf.bytes.length)) = _
  rw [Nat.min_comm most, ← Nat.min_assoc, Nat.min_self]
  by_cases within : most ≤ buf.bytes.length
  · rw [Nat.min_eq_right within]
  · rw [Nat.min_eq_left (by omega), List.drop_length, List.drop_of_length_le (by omega)]

theorem writeLoop_of_empty {buf : Queue} (empty : buf.bytes = []) (written : List UInt8) :
    writeLoop from_fd timeout_ms (fuel + 1) calls buf written = some (written, true) := by
  rw [writeLoop, empty]
  exact if_neg (Nat.lt_irrefl 0)

theorem writeLoop_of_accepted {buf : Queue} {most : Nat} {some : 0 < most}
    (first : calls 0 = .accepted most some) (more : 0 < buf.bytes.length)
    (written : List UInt8) :
    writeLoop from_fd timeout_ms (fuel + 1) calls buf written =
      writeLoop from_fd timeout_ms fuel (later calls) (buf.shrink (min most buf.bytes.length))
        (written ++ buf.bytes.take most) := by
  rw [writeLoop, if_pos more, first, List.take_eq_take_min (i := most)]

theorem writeLoop_of_refused {buf : Queue} {refusal : Refusal}
    (first : calls 0 = .refused refusal) (more : 0 < buf.bytes.length) (written : List UInt8) :
    writeLoop from_fd timeout_ms (fuel + 1) calls buf written =
      if continues refusal from_fd timeout_ms then
        writeLoop from_fd timeout_ms fuel (later calls) buf written
      else some (written, false) := by
  rw [writeLoop, if_pos more, first]

/-- A loop that is over was not refused for ever. -/
theorem settles_of_writeLoop {buf : Queue} {written : List UInt8} {result : List UInt8 × Bool}
    (ended : writeLoop from_fd timeout_ms fuel calls buf written = some result) :
    Settles from_fd timeout_ms calls buf.bytes.length := by
  induction fuel generalizing calls buf written with
  | zero => cases ended
  | succ fuel inductionHypothesis =>
    by_cases empty : buf.bytes = []
    · rw [empty]
      exact settles_zero
    · have more : 0 < buf.bytes.length := List.length_pos_iff.mpr empty
      cases first : calls 0 with
      | accepted most some =>
        rw [writeLoop_of_accepted first more] at ended
        have rest := inductionHypothesis ended
        rw [bytes_shrink, List.length_drop] at rest
        exact (settles_of_accepted first more).mpr rest
      | refused refusal =>
        rw [writeLoop_of_refused first more] at ended
        refine (settles_of_refused first more).mpr fun goesOn => ?_
        rw [if_pos goesOn] at ended
        exact inductionHypothesis ended

/-- A loop that is not refused for ever will be over. -/
theorem writeLoop_of_settles {buf : Queue} {count : Nat} (written : List UInt8)
    (ends : GivesUp from_fd timeout_ms (calls count) ∨ buf.bytes.length ≤ taken calls count) :
    ∃ result, writeLoop from_fd timeout_ms (count + 1) calls buf written = some result := by
  induction count generalizing calls buf written with
  | zero =>
    by_cases empty : buf.bytes = []
    · exact ⟨_, writeLoop_of_empty empty written⟩
    · have more : 0 < buf.bytes.length := List.length_pos_iff.mpr empty
      have gives := ends.resolve_right (Nat.not_le.mpr more)
      cases first : calls 0 with
      | accepted most some =>
        rw [first] at gives
        exact gives.elim
      | refused refusal =>
        rw [first, GivesUp] at gives
        rw [writeLoop_of_refused first more, if_neg (Bool.eq_false_iff.mp gives)]
        exact ⟨_, rfl⟩
  | succ count inductionHypothesis =>
    by_cases empty : buf.bytes = []
    · exact ⟨_, writeLoop_of_empty empty written⟩
    · have more : 0 < buf.bytes.length := List.length_pos_iff.mpr empty
      cases first : calls 0 with
      | accepted most some =>
        rw [writeLoop_of_accepted first more]
        refine inductionHypothesis _ (ends.imp id fun enough => ?_)
        rw [taken_of_accepted first] at enough
        rw [bytes_shrink, List.length_drop]
        exact Nat.sub_le_iff_le_add'.mpr enough
      | refused refusal =>
        rw [writeLoop_of_refused first more]
        by_cases goesOn : continues refusal from_fd timeout_ms = true
        · rw [if_pos goesOn]
          rw [taken_of_refused first] at ends
          exact inductionHypothesis _ ends
        · rw [if_neg goesOn]
          exact ⟨_, rfl⟩

/-- The bytes written come from the front of the buffer, in order and each once, and if the loop
went to its end they are all of them. -/
theorem writeLoop_writes {buf : Queue} {written out : List UInt8} {done : Bool}
    (ended : writeLoop from_fd timeout_ms fuel calls buf written = some (out, done)) :
    ∃ sent, out = written ++ sent ∧ sent <+: buf.bytes ∧ (done = true → sent = buf.bytes) := by
  induction fuel generalizing calls buf written with
  | zero => cases ended
  | succ fuel inductionHypothesis =>
    by_cases empty : buf.bytes = []
    · rw [writeLoop_of_empty empty, Option.some.injEq, Prod.mk.injEq] at ended
      refine ⟨[], ?_, List.nil_prefix, fun _ => empty.symm⟩
      rw [List.append_nil, ended.1]
    · have more : 0 < buf.bytes.length := List.length_pos_iff.mpr empty
      cases first : calls 0 with
      | accepted most some =>
        rw [writeLoop_of_accepted first more] at ended
        obtain ⟨sent, out_eq, inside, whole⟩ := inductionHypothesis ended
        rw [bytes_shrink] at inside whole
        refine ⟨buf.bytes.take most ++ sent, ?_, ?_, fun finished => ?_⟩
        · rw [out_eq, List.append_assoc]
        · obtain ⟨rest, joined⟩ := inside
          refine ⟨rest, ?_⟩
          rw [List.append_assoc, joined, List.take_append_drop]
        · rw [whole finished, List.take_append_drop]
      | refused refusal =>
        rw [writeLoop_of_refused first more] at ended
        split at ended
        · exact inductionHypothesis ended
        · rw [Option.some.injEq, Prod.mk.injEq] at ended
          refine ⟨[], ?_, List.nil_prefix, fun finished => ?_⟩
          · rw [List.append_nil, ended.1]
          · rw [finished] at ended
            cases ended.2

end Loops

/-! ### The whole call -/

section Calls

variable {recv : BitVec 64} {fuel : Nat} {source sink : SSLHandler} {max : BitVec 32}
  {timeout_ms : Int}

theorem right_start (max : BitVec 32) :
    0 < (start max).right ∧ (start max).right < 2 ^ 31 := by
  have below := BitVec.toInt_lt (x := max)
  have size : (start max).size = (Max.max max.toInt (10 * 1024)).toNat := by
    refine if_pos ?_
    rw [kBufferPrefixed]
    omega
  have room : (start max).right = (start max).size - 8 - (8 + 0) := rfl
  omega

/-- `fill` takes over what was read. -/
theorem fill_read {buf : Queue} {got : List UInt8} (room : got.length ≤ buf.right)
    (small : buf.right < 2 ^ 31) (beyond : List UInt8) :
    ∃ filled, ({ buf with beyond := got ++ beyond } : Queue).fill
        ((got.length : Int) % 2 ^ 64).toNat = some filled ∧ filled.bytes = buf.bytes ++ got := by
  have count : ((got.length : Int) % 2 ^ 64).toNat = got.length := by omega
  rw [count, Queue.fill, if_neg fun tooMany => Nat.not_le.mpr tooMany.1 room]
  refine ⟨_, rfl, congrArg (buf.bytes ++ ·) ?_⟩
  rw [List.append_assoc, List.take_left]

theorem spliceSSLData_of_refused {refusal : Refusal} (first : source.read 0 = .refused refusal)
    (stops : continues refusal source.getSocket timeout_ms = false) :
    SpliceSSLData recv (fuel + 1) (some source) (some sink) max timeout_ms =
      some ⟨.returned (-1), [], []⟩ := by
  rw [SpliceSSLData, readLoop_eq, first]
  simp only [stops]
  rfl

/-- A call whose first read is refused, and waited for with success. -/
theorem spliceSSLData_of_waited {refusal : Refusal} (first : source.read 0 = .refused refusal)
    (waits : continues refusal source.getSocket timeout_ms = true) :
    SpliceSSLData recv (fuel + 1) (some source) (some sink) max timeout_ms =
      some ⟨if refusal.result = 0 then .returned 0 else .thrown, [], []⟩ := by
  have most := refusal.result_le
  have least := refusal.le_result
  rw [SpliceSSLData, readLoop_eq, first]
  simp only [waits, if_true]
  by_cases zero : refusal.result = 0
  · have nothing : (start max).fill (0 % 2 ^ 64 : Int).toNat = some (start max) := rfl
    rw [forward, zero, nothing]
    simp only [writeLoop_of_empty (show (start max).bytes = [] from rfl)]
    rfl
  · have thrown : (start max).fill (refusal.result % 2 ^ 64).toNat = none := by
      have large : 2 ^ 63 ≤ (refusal.result % 2 ^ 64).toNat := by omega
      have room := (right_start max).2
      refine if_pos ⟨by omega, ?_⟩
      rw [maxSize]
      omega
    rw [forward, thrown, if_neg zero]

/-- A call whose first read succeeds. -/
theorem spliceSSLData_of_data {bytes : List UInt8} {some : bytes ≠ []}
    (first : source.read 0 = .data bytes some) :
    ∃ buf : Queue, buf.bytes = bytes.take (start max).right ∧
      SpliceSSLData recv (fuel + 1) (.some source) (.some sink) max timeout_ms =
        (writeLoop source.getSocket timeout_ms (fuel + 1) sink.write buf []).map fun result =>
          ⟨.returned (if result.2 then buf.bytes.length else -1), buf.bytes, result.1⟩ := by
  obtain ⟨filled, fills, whole⟩ := fill_read (List.length_take_le _ bytes) (right_start max).2
    ((start max).beyond.drop (bytes.take (start max).right).length)
  refine ⟨filled, whole, ?_⟩
  rw [SpliceSSLData, readLoop_eq, first, whole]
  show forward _ _ _ _ _ _ _ = _
  rw [forward, fills]
  rfl

/-- What is written was read, in this order. Nothing is written twice or made up, however the call
ends. -/
theorem written_isPrefix {source sink : Option SSLHandler} {relayed : Relayed}
    (ended : SpliceSSLData recv fuel source sink max timeout_ms = some relayed) :
    relayed.written <+: relayed.read := by
  match source, sink, fuel with
  | none, _, _ =>
    cases ended
    exact List.nil_prefix
  | some _, none, _ =>
    cases ended
    exact List.nil_prefix
  | some _, some _, 0 => cases ended
  | some source, some sink, fuel + 1 =>
    cases first : source.read 0 with
    | data bytes nonempty =>
      obtain ⟨buf, _, called⟩ := @spliceSSLData_of_data recv fuel source sink max timeout_ms bytes
        nonempty first
      rw [called, Option.map_eq_some_iff] at ended
      obtain ⟨⟨out, done⟩, looped, rfl⟩ := ended
      obtain ⟨sent, rfl, inside, _⟩ := writeLoop_writes looped
      exact inside
    | refused refusal =>
      by_cases waits : continues refusal source.getSocket timeout_ms = true
      · rw [spliceSSLData_of_waited first waits] at ended
        cases ended
        exact List.nil_prefix
      · rw [spliceSSLData_of_refused first (Bool.eq_false_iff.mpr waits)] at ended
        cases ended
        exact List.nil_prefix

/-- A call forwards what it read if and only if its first read is not refused and then waited for,
and its writes are not refused for ever. -/
theorem forwards_iff (recv : BitVec 64) (source sink : Option SSLHandler) (max : BitVec 32)
    (timeout_ms : Int) :
    Forwards recv source sink max timeout_ms ↔ Orderly source sink max timeout_ms := by
  match source, sink with
  | none, _ => exact ⟨fun _ => trivial, fun _ => ⟨0, _, rfl, Or.inl rfl⟩⟩
  | some _, none => exact ⟨fun _ => trivial, fun _ => ⟨0, _, rfl, Or.inl rfl⟩⟩
  | some source, some sink =>
    rw [Orderly]
    cases first : source.read 0 with
    | data bytes nonempty =>
      have called := fun fuel => @spliceSSLData_of_data recv fuel source sink max timeout_ms
        bytes nonempty first
      show _ ↔ Settles _ _ _ _
      rw [← List.length_take]
      constructor
      · rintro ⟨fuel, relayed, ended, _⟩
        cases fuel with
        | zero => cases ended
        | succ fuel =>
          obtain ⟨buf, content, called⟩ := called fuel
          rw [called, Option.map_eq_some_iff] at ended
          obtain ⟨result, looped, _⟩ := ended
          rw [← content]
          exact settles_of_writeLoop looped
      · rintro ⟨count, ends⟩
        obtain ⟨buf, content, called⟩ := called count
        rw [← content] at ends
        obtain ⟨⟨out, done⟩, looped⟩ := writeLoop_of_settles [] ends
        obtain ⟨sent, rfl, _, whole⟩ := writeLoop_writes looped
        refine ⟨count + 1, _, called.trans (congrArg _ looped), ?_⟩
        cases done with
        | false => exact Or.inl rfl
        | true =>
          have positive : 0 < buf.bytes.length := by
            have room := (right_start max).1
            have some := List.length_pos_iff.mpr nonempty
            rw [content, List.length_take]
            omega
          exact Or.inr ⟨_, Int.natCast_pos.mpr positive, rfl, rfl, whole rfl⟩
    | refused refusal =>
      constructor
      · rintro ⟨fuel, relayed, ended, forwards⟩
        refine Bool.eq_false_iff.mpr fun waits => ?_
        cases fuel with
        | zero => cases ended
        | succ fuel =>
          rw [spliceSSLData_of_waited first waits] at ended
          cases ended
          obtain minusOne | ⟨r, positive, value, count, _⟩ := forwards
          · split at minusOne
            · cases minusOne
            · cases minusOne
          · exact absurd count (Int.ne_of_gt positive)
      · exact fun stops => ⟨1, _, spliceSSLData_of_refused first stops, Or.inl rfl⟩

/-- There is nothing to read yet, and then there is. -/
def readable : Refusal where
  result := -1
  errno := .EAGAIN
  getErrno := SSL_ERROR_WANT_READ
  co_poll := fun _ _ _ => 1
  result_le := by decide
  le_result := by decide

/-- A connection that has something to read after the first wait, and takes what it is offered. -/
def waiting (sockfd : Int) : SSLHandler where
  getSocket := sockfd
  read
    | 0 => .refused readable
    | _ + 1 => .data [0x17] (List.cons_ne_nil _ _)
  write _ := .accepted 16384 (by decide)

/-- An exception instead of the byte that has arrived. -/
theorem not_forwards_waiting :
    ¬ Forwards 0x401000 (some (waiting 7)) (some (waiting 8)) 10240 3000 := by
  rintro ⟨fuel, relayed, ended, forwards⟩
  cases fuel with
  | zero => cases ended
  | succ fuel =>
    have waits : continues readable (waiting 7).getSocket 3000 = true := by decide
    rw [spliceSSLData_of_waited rfl waits] at ended
    cases ended
    obtain thrown | ⟨_, _, thrown, _⟩ := forwards
    · cases thrown
    · cases thrown

end Calls

end Nattan.SslRelay
