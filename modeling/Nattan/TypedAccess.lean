/-
This file models the typed accessors of `MemoryData` and `Buffer` over an ideal queue
of bytes.

Each accessor moves the bytes of one variable. A read from a queue that is too short
leaves the other bytes of the variable as they were, so what they were is a parameter.
The writers of a type write as many bytes as the type has, but the readers of a `long`
do not agree with them: `Buffer::readlong` reads the four bytes of an `int`, and
`MemoryData::readLong` reads eight bytes and returns an `int`. A peek is a read
followed by a write, and a write appends at the end of the queue.
-/

import Nattan.LittleEndian
import Mathlib.Algebra.Group.Int.Defs
import Mathlib.Data.List.Perm.Basic

namespace Nattan

namespace MemoryData

/-! ### The queue -/

/-- The bytes of a variable after a read into it, with the bytes it had before. -/
def fetch (unset : Nat → UInt8) (queue : List UInt8) (width : Nat) : List UInt8 :=
  (List.range width).map fun index => queue.getD index (unset index)

/-- `read` into a variable of `width` bytes. -/
def read (unset : Nat → UInt8) (width : Nat) (queue : List UInt8) :
    BitVec (8 * width) × List UInt8 :=
  (wordOf width (fetch unset queue width), queue.drop width)

/-- `write` from a variable, with the number of bytes written. -/
def write {width : Nat} (word : BitVec (8 * width)) (queue : List UInt8) : List UInt8 × Nat :=
  (queue ++ wordBytes word, width)

/-! ### The accessors -/

section Accessors

variable (unset : Nat → UInt8) (queue : List UInt8)

def readChar : BitVec 8 × List UInt8 :=
  read unset 1 queue

def readShort : BitVec 16 × List UInt8 :=
  read unset 2 queue

def readInt : BitVec 32 × List UInt8 :=
  read unset 4 queue

/-- `Buffer::readlong`: an `int` is read and returned as a `long`. -/
def readlong : BitVec 64 × List UInt8 :=
  let (l, rest) := read unset 4 queue
  (BitVec.signExtend 64 l, rest)

/-- `MemoryData::readLong`: a `long` is read and returned as an `int`. -/
def readLong : BitVec 32 × List UInt8 :=
  let (g, rest) := read unset 8 queue
  (BitVec.setWidth 32 g, rest)

def writeChar (c : BitVec 8) : List UInt8 × Nat :=
  @write 1 c queue

def writeShort (s : BitVec 16) : List UInt8 × Nat :=
  @write 2 s queue

def writeInt (i : BitVec 32) : List UInt8 × Nat :=
  @write 4 i queue

def writeLong (l : BitVec 64) : List UInt8 × Nat :=
  @write 8 l queue

def peekChar : BitVec 8 × List UInt8 :=
  let (c, rest) := readChar unset queue
  (c, (writeChar rest c).1)

def peekInt : BitVec 32 × List UInt8 :=
  let (v, rest) := readInt unset queue
  (v, (writeInt rest v).1)

/-- `peekLong`: what `readLong` returns is a `long` again before it is written back. -/
def peekLong : BitVec 64 × List UInt8 :=
  let (v, rest) := readLong unset queue
  let g := BitVec.signExtend 64 v
  (g, (writeLong rest g).1)

end Accessors

/-! ### Sequences of writes and the matching reads -/

/-- The two readers for a `long`. -/
inductive LongReader where
  | readlong
  | readLong
  deriving DecidableEq, Repr

/-- A value that is written, and the reader that reads it. -/
inductive Access where
  | char (c : BitVec 8)
  | short (s : BitVec 16)
  | int (i : BitVec 32)
  | long (l : BitVec 64) (reader : LongReader)
  deriving DecidableEq, Repr

namespace Access

/-- The number that is written. -/
def value : Access → Int
  | .char c => c.toInt
  | .short s => s.toInt
  | .int i => i.toInt
  | .long l _ => l.toInt

def write (access : Access) (queue : List UInt8) : List UInt8 :=
  match access with
  | .char c => (writeChar queue c).1
  | .short s => (writeShort queue s).1
  | .int i => (writeInt queue i).1
  | .long l _ => (writeLong queue l).1

/-- The matching read, with the number it returns. -/
def read (unset : Nat → UInt8) (access : Access) (queue : List UInt8) : Int × List UInt8 :=
  match access with
  | .char _ => let (c, rest) := readChar unset queue; (c.toInt, rest)
  | .short _ => let (s, rest) := readShort unset queue; (s.toInt, rest)
  | .int _ => let (i, rest) := readInt unset queue; (i.toInt, rest)
  | .long _ .readlong => let (l, rest) := readlong unset queue; (l.toInt, rest)
  | .long _ .readLong => let (g, rest) := readLong unset queue; (g.toInt, rest)

/-- The number of bytes that the read consumes. -/
def width : Access → Nat
  | .char _ => 1
  | .short _ => 2
  | .int _ => 4
  | .long _ .readlong => 4
  | .long _ .readLong => 8

/-- The bytes that are written. -/
def bytes : Access → List UInt8
  | .char c => @wordBytes 1 c
  | .short s => @wordBytes 2 s
  | .int i => @wordBytes 4 i
  | .long l _ => @wordBytes 8 l

end Access

def writeAll : List Access → List UInt8 → List UInt8
  | [], queue => queue
  | access :: rest, queue => writeAll rest (access.write queue)

def readAll (unset : Nat → UInt8) : List Access → List UInt8 → List Int × List UInt8
  | [], queue => ([], queue)
  | access :: rest, queue =>
    let (number, left) := access.read unset queue
    let (numbers, left) := readAll unset rest left
    (number :: numbers, left)

/-- The reads return the numbers that were written and consume the bytes that were written, so that
what was behind them is left. -/
def RoundTrips (unset : Nat → UInt8) (accesses : List Access) (behind : List UInt8) : Prop :=
  readAll unset accesses (writeAll accesses [] ++ behind) = (accesses.map Access.value, behind)

/-- The number of a `long` is an `int`. -/
def IsInt (l : BitVec 64) : Prop :=
  -2 ^ 31 ≤ l.toInt ∧ l.toInt < 2 ^ 31

instance (l : BitVec 64) : Decidable (IsInt l) :=
  inferInstanceAs (Decidable (_ ∧ _))

/-- No `long` is read by `readlong`, and each `long` that is written is the number of an `int`. -/
def Matched (accesses : List Access) : Prop :=
  ∀ l reader, .long l reader ∈ accesses → reader = .readLong ∧ IsInt l

/-! ### Peeks -/

inductive Peek where
  | char
  | int
  | long
  deriving DecidableEq, Repr

namespace Peek

/-- The number a peek returns and the queue after it. -/
def run (unset : Nat → UInt8) (peek : Peek) (queue : List UInt8) : Int × List UInt8 :=
  match peek with
  | .char => let (c, after) := peekChar unset queue; (c.toInt, after)
  | .int => let (v, after) := peekInt unset queue; (v.toInt, after)
  | .long => let (g, after) := peekLong unset queue; (g.toInt, after)

/-- The number the next read of the type returns. -/
def next (unset : Nat → UInt8) (peek : Peek) (queue : List UInt8) : Int :=
  match peek with
  | .char => (readChar unset queue).1.toInt
  | .int => (readInt unset queue).1.toInt
  | .long => (readLong unset queue).1.toInt

def width : Peek → Nat
  | .char => 1
  | .int => 4
  | .long => 8

/-- The peek returns what the next read returns and leaves the queue as it is. -/
def Neutral (unset : Nat → UInt8) (peek : Peek) (queue : List UInt8) : Prop :=
  peek.run unset queue = (peek.next unset queue, queue)

/-- The queue holds a value of the type, a `long` of it is the number of an `int`, and the queue is
the same when the bytes of the value are moved to its end. -/
def Settled (peek : Peek) (queue : List UInt8) : Prop :=
  peek.width ≤ queue.length ∧ queue.drop peek.width ++ queue.take peek.width = queue ∧
    (peek = .long → IsInt (wordOf 8 (queue.take 8)))

end Peek

/-! ### One value -/

section Value

variable {unset : Nat → UInt8} {queue : List UInt8} {width : Nat}

@[simp]
theorem length_fetch (unset : Nat → UInt8) (queue : List UInt8) (width : Nat) :
    (fetch unset queue width).length = width := by
  rw [fetch, List.length_map, List.length_range]

/-- Where the queue is long enough, the variable gets the first bytes of the queue. -/
theorem fetch_of_le (enough : width ≤ queue.length) :
    fetch unset queue width = queue.take width := by
  apply List.ext_getElem
  · rw [length_fetch, List.length_take, Nat.min_eq_left enough]
  · intro index here there
    rw [length_fetch] at here
    rw [List.getElem_take]
    simp only [fetch, List.getElem_map, List.getElem_range]
    rw [List.getD_eq_getElem?_getD, List.getElem?_eq_getElem (by omega)]
    rfl

theorem fetch_wordBytes (word : BitVec (8 * width)) (behind : List UInt8) :
    fetch unset (wordBytes word ++ behind) width = wordBytes word := by
  rw [fetch_of_le (by rw [List.length_append, length_wordBytes]; omega),
    List.take_left' (length_wordBytes word)]

/-- A value that was written is read. -/
theorem read_wordBytes (unset : Nat → UInt8) (word : BitVec (8 * width)) (behind : List UInt8) :
    read unset width (wordBytes word ++ behind) = (word, behind) := by
  rw [read, fetch_wordBytes, wordOf_wordBytes, List.drop_left' (length_wordBytes word)]

/-- The number of a `long` survives an `int` exactly when it is one. -/
theorem toInt_setWidth_eq_iff (l : BitVec 64) :
    (BitVec.setWidth 32 l).toInt = l.toInt ↔ IsInt l := by
  have narrow : (BitVec.setWidth 32 l).toInt = l.toInt.bmod (2 ^ 32) := by
    rw [BitVec.toInt_setWidth, BitVec.toInt_eq_toNat_bmod l, Int.bmod_bmod_of_dvd (by decide)]
  rw [narrow, IsInt]
  constructor
  · intro same
    have low := @Int.le_bmod l.toInt (2 ^ 32) (by decide)
    have high := @Int.bmod_lt l.toInt (2 ^ 32) (by decide)
    omega
  · rintro ⟨low, high⟩
    exact Int.bmod_eq_of_le (by omega) (by omega)

theorem signExtend_setWidth_eq_iff (l : BitVec 64) :
    BitVec.signExtend 64 (BitVec.setWidth 32 l) = l ↔ IsInt l := by
  rw [← BitVec.toInt_inj, BitVec.toInt_signExtend_of_le (by decide), toInt_setWidth_eq_iff]

end Value

/-! ### Round trips -/

section RoundTrips

variable {unset : Nat → UInt8}

theorem Access.write_eq (access : Access) (queue : List UInt8) :
    access.write queue = queue ++ access.bytes := by
  cases access <;> rfl

theorem Access.read_snd (access : Access) (queue : List UInt8) :
    (access.read unset queue).2 = queue.drop access.width := by
  cases access with
  | char c => rfl
  | short s => rfl
  | int i => rfl
  | long l reader => cases reader <;> rfl

theorem Access.width_le (access : Access) : access.width ≤ access.bytes.length := by
  cases access with
  | char c => exact Nat.le_of_eq (@length_wordBytes 1 c).symm
  | short s => exact Nat.le_of_eq (@length_wordBytes 2 s).symm
  | int i => exact Nat.le_of_eq (@length_wordBytes 4 i).symm
  | long l reader =>
    have bytes : (Access.long l reader).bytes.length = 8 := @length_wordBytes 8 l
    rw [bytes]
    cases reader with
    | readlong => exact (by decide : 4 ≤ 8)
    | readLong => exact Nat.le_refl 8

/-- The written bytes of all values, in order. -/
theorem writeAll_eq (accesses : List Access) (queue : List UInt8) :
    writeAll accesses queue = queue ++ (accesses.map Access.bytes).flatten := by
  induction accesses generalizing queue with
  | nil => rw [writeAll, List.map_nil, List.flatten_nil, List.append_nil]
  | cons access rest inductionHypothesis =>
    rw [writeAll, inductionHypothesis, Access.write_eq, List.map_cons, List.flatten_cons,
      List.append_assoc]

/-- The reads never consume more than was written. -/
theorem le_length_readAll (accesses : List Access) (queue behind : List UInt8)
    (enough : (accesses.map Access.bytes).flatten.length + behind.length ≤ queue.length) :
    behind.length ≤ (readAll unset accesses queue).2.length := by
  induction accesses generalizing queue with
  | nil =>
    rw [List.map_nil, List.flatten_nil, List.length_nil, Nat.zero_add] at enough
    exact enough
  | cons access rest inductionHypothesis =>
    have narrow := access.width_le
    rw [List.map_cons, List.flatten_cons, List.length_append] at enough
    refine inductionHypothesis (access.read unset queue).2 ?_
    rw [Access.read_snd, List.length_drop]
    omega

/-- A value that is read by the right reader is read exactly, or the number is not an `int`. -/
theorem Access.read_bytes (access : Access)
    (right : ∀ l reader, access = .long l reader → reader = .readLong) (behind : List UInt8) :
    ∃ number, access.read unset (access.bytes ++ behind) = (number, behind) ∧
      (number = access.value ↔ ∀ l reader, access = .long l reader → IsInt l) := by
  cases access with
  | char c =>
    refine ⟨c.toInt, ?_, iff_of_true rfl fun l reader impossible => (by cases impossible)⟩
    simp only [Access.read, Access.bytes, readChar, read_wordBytes]
  | short s =>
    refine ⟨s.toInt, ?_, iff_of_true rfl fun l reader impossible => (by cases impossible)⟩
    simp only [Access.read, Access.bytes, readShort, read_wordBytes]
  | int i =>
    refine ⟨i.toInt, ?_, iff_of_true rfl fun l reader impossible => (by cases impossible)⟩
    simp only [Access.read, Access.bytes, readInt, read_wordBytes]
  | long l reader =>
    obtain rfl := right l reader rfl
    refine ⟨(BitVec.setWidth 32 l).toInt, ?_, ?_⟩
    · simp only [Access.read, Access.bytes, readLong, read_wordBytes]
    · rw [Access.value, toInt_setWidth_eq_iff]
      exact ⟨fun isInt _ _ same => (by cases same; exact isInt), fun all => all l _ rfl⟩

/-- The round trip of the first value and that of the others. After a `readlong` four of the eight
bytes stay in the queue, and the reads end too early. -/
theorem roundTrips_cons {access : Access} {rest : List Access} {behind : List UInt8} :
    RoundTrips unset (access :: rest) behind ↔
      (∀ l reader, access = .long l reader → reader = .readLong ∧ IsInt l) ∧
        RoundTrips unset rest behind := by
  have queue : writeAll (access :: rest) [] ++ behind =
      access.bytes ++ (writeAll rest [] ++ behind) := by
    rw [writeAll_eq, writeAll_eq, List.map_cons, List.flatten_cons, List.nil_append,
      List.nil_append, List.append_assoc]
  have unfolded : RoundTrips unset (access :: rest) behind ↔
      (access.read unset (access.bytes ++ (writeAll rest [] ++ behind))).1 = access.value ∧
        readAll unset rest (access.read unset (access.bytes ++ (writeAll rest [] ++ behind))).2 =
          (rest.map Access.value, behind) := by
    rw [RoundTrips, queue, readAll, List.map_cons, Prod.mk.injEq, List.cons.injEq, Prod.ext_iff]
    exact and_assoc
  rw [unfolded]
  by_cases right : ∀ l reader, access = .long l reader → reader = .readLong
  · obtain ⟨number, exactly, value⟩ :=
      @Access.read_bytes unset access right (writeAll rest [] ++ behind)
    rw [exactly]
    refine and_congr (value.trans ⟨?_, ?_⟩) Iff.rfl
    · exact fun all l reader same => ⟨right l reader same, all l reader same⟩
    · exact fun all l reader same => (all l reader same).2
  · refine iff_of_false ?_ fun ⟨all, _⟩ => right fun l reader same => (all l reader same).1
    rintro ⟨-, others⟩
    push Not at right
    obtain ⟨l, reader, rfl, wrong⟩ := right
    cases reader with
    | readLong => exact wrong rfl
    | readlong =>
      have left : (Access.read unset (.long l .readlong)
          (Access.bytes (.long l .readlong) ++ (writeAll rest [] ++ behind))).2.length =
            4 + (writeAll rest [] ++ behind).length := by
        have bytes : (Access.long l .readlong).bytes.length = 8 := @length_wordBytes 8 l
        rw [Access.read_snd, List.length_drop, List.length_append, bytes]
        show 8 + _ - 4 = _
        omega
      have kept := @le_length_readAll unset rest
        (Access.read unset (.long l .readlong)
          (Access.bytes (.long l .readlong) ++ (writeAll rest [] ++ behind))).2
        (0 :: behind) (by
          rw [left, List.length_append, writeAll_eq, List.nil_append, List.length_cons]
          omega)
      rw [others, List.length_cons] at kept
      exact absurd kept (Nat.not_succ_le_self _)

/-- A sequence of writes and reads round-trips exactly when no `long` is read by `readlong` and
each `long` is the number of an `int`. -/
theorem roundTrips_iff (unset : Nat → UInt8) (accesses : List Access) (behind : List UInt8) :
    RoundTrips unset accesses behind ↔ Matched accesses := by
  induction accesses with
  | nil =>
    refine iff_of_true rfl ?_
    intro l reader member
    cases member
  | cons access rest inductionHypothesis =>
    rw [roundTrips_cons, inductionHypothesis]
    constructor
    · rintro ⟨first, others⟩ l reader member
      rcases List.mem_cons.mp member with same | member
      · exact first l reader same.symm
      · exact others l reader member
    · intro matched
      refine ⟨fun l reader same => matched l reader ?_, fun l reader member => ?_⟩
      · rw [same]
        exact List.mem_cons_self
      · exact matched l reader (List.mem_cons_of_mem _ member)

end RoundTrips

/-! ### Peeks leave the queue as it is -/

section Peeks

variable {unset : Nat → UInt8} {queue : List UInt8} {width : Nat}

/-- The bytes that a peek writes back. -/
def Peek.back (unset : Nat → UInt8) (peek : Peek) (queue : List UInt8) : List UInt8 :=
  match peek with
  | .char => @wordBytes 1 (readChar unset queue).1
  | .int => @wordBytes 4 (readInt unset queue).1
  | .long => @wordBytes 8 (BitVec.signExtend 64 (readLong unset queue).1)

theorem Peek.length_back (peek : Peek) : (peek.back unset queue).length = peek.width := by
  cases peek with
  | char => exact @length_wordBytes 1 _
  | int => exact @length_wordBytes 4 _
  | long => exact @length_wordBytes 8 _

theorem Peek.run_snd (peek : Peek) :
    (peek.run unset queue).2 = queue.drop peek.width ++ peek.back unset queue := by
  cases peek <;> rfl

theorem Peek.run_fst (peek : Peek) : (peek.run unset queue).1 = peek.next unset queue := by
  cases peek with
  | char => rfl
  | int => rfl
  | long =>
    simp only [Peek.run, Peek.next, peekLong, readLong, read]
    exact BitVec.toInt_signExtend_of_le (by decide)

/-- A value read and written back as it is has moved from the front of the queue to its end. -/
theorem wordBytes_read (enough : width ≤ queue.length) :
    wordBytes (read unset width queue).1 = queue.take width := by
  have length : (queue.take width).length = width := by
    rw [List.length_take, Nat.min_eq_left enough]
  rw [read, fetch_of_le enough, wordBytes_wordOf length]

/-- A word whose upper half was replaced by copies of its sign. -/
theorem wordBytes_signExtend (l : BitVec 64) :
    ∃ sign, @wordBytes 8 (BitVec.signExtend 64 (BitVec.setWidth 32 l)) =
      (@wordBytes 8 l).take 4 ++ List.replicate 4 sign := by
  have narrow : (BitVec.setWidth 32 l).toNat = l.toNat % 2 ^ 32 := BitVec.toNat_setWidth 32 l
  have split (value : Nat) : littleEndian 8 value =
      littleEndian 4 (value % 256 ^ 4) ++ littleEndian 4 (value / 256 ^ 4) := by
    rw [show 8 = 4 + 4 from rfl, littleEndian_add, littleEndian_mod]
  have low : (@wordBytes 8 l).take 4 = littleEndian 4 l.toNat := by
    rw [wordBytes, split, littleEndian_mod, List.take_left' (length_littleEndian 4 _)]
  rw [low, wordBytes, split, BitVec.toNat_signExtend, BitVec.toNat_setWidth, narrow]
  by_cases negative : (BitVec.setWidth 32 l).msb = true
  · refine ⟨255, ?_⟩
    rw [if_pos negative]
    have lower : (l.toNat % 2 ^ 32 % 2 ^ 64 + (2 ^ 64 - 2 ^ 32)) % 256 ^ 4 = l.toNat % 256 ^ 4 := by
      omega
    have upper : (l.toNat % 2 ^ 32 % 2 ^ 64 + (2 ^ 64 - 2 ^ 32)) / 256 ^ 4 = 2 ^ 32 - 1 := by
      omega
    rw [lower, upper, littleEndian_mod]
    rfl
  · refine ⟨0, ?_⟩
    rw [if_neg negative]
    have lower : (l.toNat % 2 ^ 32 % 2 ^ 64 + 0) % 256 ^ 4 = l.toNat % 256 ^ 4 := by
      omega
    have upper : (l.toNat % 2 ^ 32 % 2 ^ 64 + 0) / 256 ^ 4 = 0 := by
      omega
    rw [lower, upper, littleEndian_mod]
    rfl

/-- When a queue is what is left of it behind its first word followed by the word with its upper
half replaced, nothing was replaced. -/
theorem isInt_of_rotated (enough : 8 ≤ queue.length)
    (same : queue.drop 8 ++ @wordBytes 8
      (BitVec.signExtend 64 (BitVec.setWidth 32 (wordOf 8 (queue.take 8)))) = queue) :
    IsInt (wordOf 8 (queue.take 8)) := by
  have length : (queue.take 8).length = 8 := by
    rw [List.length_take, Nat.min_eq_left enough]
  have bytes : @wordBytes 8 (wordOf 8 (queue.take 8)) = queue.take 8 := wordBytes_wordOf length
  obtain ⟨sign, replaced⟩ := wordBytes_signExtend (wordOf 8 (queue.take 8))
  rw [bytes] at replaced
  have exchanged : (queue.drop 8 ++ ((queue.take 8).take 4 ++ List.replicate 4 sign)).Perm
      (queue.drop 8 ++ ((queue.take 8).take 4 ++ (queue.take 8).drop 4)) := by
    rw [List.take_append_drop, ← replaced, same]
    have whole := @List.perm_append_comm _ (queue.take 8) (queue.drop 8)
    rw [List.take_append_drop] at whole
    exact whole
  have upper : (queue.take 8).drop 4 = List.replicate 4 sign := by
    refine List.perm_replicate.mp ?_
    exact ((List.perm_append_left_iff _).mp ((List.perm_append_left_iff _).mp exchanged)).symm
  rw [← signExtend_setWidth_eq_iff]
  have unchanged : @wordBytes 8
      (BitVec.signExtend 64 (BitVec.setWidth 32 (wordOf 8 (queue.take 8)))) = queue.take 8 := by
    rw [replaced, ← upper, List.take_append_drop]
  rw [← @wordOf_wordBytes 8 (BitVec.signExtend 64 _), unchanged]

/-- A peek is neutral exactly when the queue holds a value of its type, which moved to the end
gives the same queue, and a `long` is the number of an `int`. -/
theorem neutral_iff (unset : Nat → UInt8) (peek : Peek) (queue : List UInt8) :
    peek.Neutral unset queue ↔ peek.Settled queue := by
  have neutral : peek.Neutral unset queue ↔
      queue.drop peek.width ++ peek.back unset queue = queue := by
    rw [Peek.Neutral, Prod.ext_iff, Peek.run_fst, Peek.run_snd]
    exact and_iff_right rfl
  rw [neutral, Peek.Settled]
  by_cases enough : peek.width ≤ queue.length
  case neg =>
    refine iff_of_false (fun same => enough ?_) fun settled => enough settled.1
    have length := congrArg List.length same
    rw [List.length_append, Peek.length_back, List.length_drop] at length
    omega
  rw [and_iff_right enough]
  cases peek with
  | char =>
    have back : Peek.char.back unset queue = queue.take 1 := wordBytes_read enough
    rw [back]
    exact (and_iff_left fun impossible => (by cases impossible)).symm
  | int =>
    have back : Peek.int.back unset queue = queue.take 4 := wordBytes_read enough
    rw [back]
    exact (and_iff_left fun impossible => (by cases impossible)).symm
  | long =>
    have length : (queue.take 8).length = 8 := by
      rw [List.length_take]
      exact Nat.min_eq_left enough
    have fetched : fetch unset queue 8 = queue.take 8 := fetch_of_le enough
    have back : Peek.long.back unset queue = @wordBytes 8
        (BitVec.signExtend 64 (BitVec.setWidth 32 (wordOf 8 (queue.take 8)))) := by
      rw [← fetched]
      rfl
    rw [back]
    constructor
    · intro same
      have isInt := isInt_of_rotated enough same
      rw [(signExtend_setWidth_eq_iff _).mpr isInt, wordBytes_wordOf length] at same
      exact ⟨same, fun _ => isInt⟩
    · rintro ⟨same, isInt⟩
      rw [(signExtend_setWidth_eq_iff _).mpr (isInt rfl), wordBytes_wordOf length]
      exact same

end Peeks

/-- Exactly when the typed accessors do what they are for: a sequence round-trips when no `long` is
read by `readlong` and each `long` is the number of an `int`; a peek is neutral when moving the
value to the end of the queue gives the same queue, and a `long` is the number of an `int`. -/
theorem typedAccess_iff (unset : Nat → UInt8) :
    (∀ accesses behind, RoundTrips unset accesses behind ↔ Matched accesses) ∧
      ∀ peek queue, Peek.Neutral unset peek queue ↔ Peek.Settled peek queue :=
  ⟨roundTrips_iff unset, neutral_iff unset⟩

/-- After `writeLong(5)` and `readlong()` four bytes are left; `peekChar` of two bytes exchanges
them. -/
theorem not_typedAccess :
    (¬ ∀ unset accesses behind, RoundTrips unset accesses behind) ∧
      ¬ ∀ unset peek queue, Peek.Neutral unset peek queue := by
  constructor
  · intro roundTrips
    have same := congrArg Prod.snd (roundTrips (fun _ => 0) [.long 5 .readlong] [])
    exact absurd same (by decide +kernel)
  · intro neutral
    have same := congrArg Prod.snd (neutral (fun _ => 0) .char [1, 2])
    exact absurd same (by decide +kernel)

end MemoryData

end Nattan
