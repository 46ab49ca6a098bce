/-
This file models `Base64` and the codec under it, and proves for which strings decoding
after encoding gives the string back.

The codec works on C buffers: every load is checked against the bytes of the string and
the zero behind them, and every `*p++ = c` against the vector that the wrapper has
allocated. Both loops are compared with functions on lists, three bytes to four digits,
and these are inverse to each other: the codec restores every byte, and neither call
leaves its buffers.

But the wrapper makes its result from `buf.data()`, up to the first zero. This does no
harm to the code, which has no zero in it; the decoded string it cuts off at its first
zero byte.
-/

import Nattan.File
import Nattan.Text

namespace Nattan.Base64

/-! ### The codec -/

def pr2six : List UInt8 :=
  [64, 64, 64, 64, 64, 64, 64, 64, 64, 64, 64, 64, 64, 64, 64, 64,
   64, 64, 64, 64, 64, 64, 64, 64, 64, 64, 64, 64, 64, 64, 64, 64,
   64, 64, 64, 64, 64, 64, 64, 64, 64, 64, 64, 62, 64, 64, 64, 63,
   52, 53, 54, 55, 56, 57, 58, 59, 60, 61, 64, 64, 64, 64, 64, 64,
   64,  0,  1,  2,  3,  4,  5,  6,  7,  8,  9, 10, 11, 12, 13, 14,
   15, 16, 17, 18, 19, 20, 21, 22, 23, 24, 25, 64, 64, 64, 64, 64,
   64, 26, 27, 28, 29, 30, 31, 32, 33, 34, 35, 36, 37, 38, 39, 40,
   41, 42, 43, 44, 45, 46, 47, 48, 49, 50, 51, 64, 64, 64, 64, 64,
   64, 64, 64, 64, 64, 64, 64, 64, 64, 64, 64, 64, 64, 64, 64, 64,
   64, 64, 64, 64, 64, 64, 64, 64, 64, 64, 64, 64, 64, 64, 64, 64,
   64, 64, 64, 64, 64, 64, 64, 64, 64, 64, 64, 64, 64, 64, 64, 64,
   64, 64, 64, 64, 64, 64, 64, 64, 64, 64, 64, 64, 64, 64, 64, 64,
   64, 64, 64, 64, 64, 64, 64, 64, 64, 64, 64, 64, 64, 64, 64, 64,
   64, 64, 64, 64, 64, 64, 64, 64, 64, 64, 64, 64, 64, 64, 64, 64,
   64, 64, 64, 64, 64, 64, 64, 64, 64, 64, 64, 64, 64, 64, 64, 64,
   64, 64, 64, 64, 64, 64, 64, 64, 64, 64, 64, 64, 64, 64, 64, 64]

def basis_64 : List UInt8 :=
  [65, 66, 67, 68, 69, 70, 71, 72, 73, 74, 75, 76, 77, 78, 79, 80, 81, 82, 83, 84, 85, 86, 87, 88,
   89, 90, 97, 98, 99, 100, 101, 102, 103, 104, 105, 106, 107, 108, 109, 110, 111, 112, 113, 114,
   115, 116, 117, 118, 119, 120, 121, 122, 48, 49, 50, 51, 52, 53, 54, 55, 56, 57, 43, 47]

/-- `'='`. -/
def padding : UInt8 := 61

/-- `pr2six[c]`, as the `int` it is promoted to. -/
def sextet (c : UInt8) : Nat := (pr2six.getD c.toNat 64).toNat

/-- `basis_64[index]`. -/
def digit (index : BitVec 32) : UInt8 := basis_64.getD index.toNat 0

/-- A `char`, which is signed, as the `int` it is promoted to. -/
def promote (c : UInt8) : BitVec 32 := c.toBitVec.signExtend 32

/-- The digits of three bytes: `basis_64[(string[i] >> 2) & 0x3F]` and the next three lines. -/
def firstDigit (c : UInt8) : UInt8 := digit ((promote c).sshiftRight 2 &&& 0x3F)

def secondDigit (c d : UInt8) : UInt8 :=
  digit (((promote c &&& 0x3) <<< 4) ||| (promote d &&& 0xF0).sshiftRight 4)

def thirdDigit (c d : UInt8) : UInt8 :=
  digit (((promote c &&& 0xF) <<< 2) ||| (promote d &&& 0xC0).sshiftRight 6)

def fourthDigit (c : UInt8) : UInt8 := digit (promote c &&& 0x3F)

/-- The bytes of four digits: `(unsigned char) (pr2six[*bufin] << 2 | pr2six[bufin[1]] >> 4)` and
the next two lines. -/
def firstByte (c d : UInt8) : UInt8 := .ofNat (sextet c <<< 2 ||| sextet d >>> 4)

def secondByte (c d : UInt8) : UInt8 := .ofNat (sextet c <<< 4 ||| sextet d >>> 2)

def thirdByte (c d : UInt8) : UInt8 := .ofNat (sextet c <<< 6 ||| sextet d)

/-- A buffer that is written from the start on: `*p++ = c`. -/
structure Output where
  buffer : List UInt8
  cursor : Nat
  deriving DecidableEq, Repr

/-- `*p++ = c`. -/
def Output.put (output : Output) (c : UInt8) : Except Fault Output :=
  if output.cursor < output.buffer.length then
    .ok ⟨output.buffer.set output.cursor c, output.cursor + 1⟩
  else .error (.outOfBounds output.cursor)

/-- `std::vector<char> buf(size, 0)`. -/
def vector (size : Int) : Except Fault Output :=
  if size < 0 then .error .lengthError else .ok ⟨List.replicate size.toNat 0, 0⟩

def Base64encode_len (len : Int) : Int := (len + 2).tdiv 3 * 4 + 1

/-- The loop of `Base64encode`, with the final value of `i`. -/
def encodeLoop (string : List UInt8) (len : Int) : Nat → Nat → Output → Except Fault (Nat × Output)
  | 0, _, _ => .error .outOfFuel
  | fuel + 1, i, output =>
    if (i : Int) < len - 2 then do
      let first ← load string i
      let second ← load string (i + 1)
      let third ← load string (i + 2)
      let output ← output.put (firstDigit first)
      let output ← output.put (secondDigit first second)
      let output ← output.put (thirdDigit second third)
      let output ← output.put (fourthDigit third)
      encodeLoop string len fuel (i + 3) output
    else .ok (i, output)

/-- What `Base64encode` does with the last one or two bytes. -/
def encodeRest (string : List UInt8) (len : Int) (i : Nat) (output : Output) :
    Except Fault Output :=
  if (i : Int) < len then do
    let first ← load string i
    let output ← output.put (firstDigit first)
    if (i : Int) = len - 1 then do
      let output ← output.put (digit ((promote first &&& 0x3) <<< 4))
      let output ← output.put padding
      output.put padding
    else do
      let second ← load string (i + 1)
      let output ← output.put (secondDigit first second)
      let output ← output.put (digit ((promote second &&& 0xF) <<< 2))
      output.put padding
  else .ok output

/-- `Base64encode(encoded, string, len)`: what it returns, `p - encoded`, is the cursor. -/
def Base64encode (encoded : Output) (string : List UInt8) (len : Int) : Except Fault Output := do
  let (i, output) ← encodeLoop string len string.length 0 encoded
  let output ← encodeRest string len i output
  output.put 0

/-- `while (pr2six[*(bufin++)] <= 63);` -/
def scan (bufcoded : List UInt8) : Nat → Nat → Except Fault Nat
  | 0, _ => .error .outOfFuel
  | fuel + 1, bufin => do
    let c ← load bufcoded bufin
    if sextet c ≤ 63 then scan bufcoded fuel (bufin + 1) else return bufin + 1

/-- `nprbytes`. -/
def countDigits (bufcoded : List UInt8) : Except Fault Nat := do
  let bufin ← scan bufcoded bufcoded.length 0
  return bufin - 1

def Base64decode_len (bufcoded : List UInt8) : Except Fault Int := do
  let nprbytes ← countDigits bufcoded
  return ((nprbytes + 3) / 4 * 3 + 1 : Nat)

/-- The loop of `Base64decode`, with the final values of `bufin` and `nprbytes`. -/
def decodeLoop (bufcoded : List UInt8) :
    Nat → Nat → Nat → Output → Except Fault (Nat × Nat × Output)
  | 0, _, _, _ => .error .outOfFuel
  | fuel + 1, bufin, nprbytes, output =>
    if 4 < nprbytes then do
      let first ← load bufcoded bufin
      let second ← load bufcoded (bufin + 1)
      let third ← load bufcoded (bufin + 2)
      let fourth ← load bufcoded (bufin + 3)
      let output ← output.put (firstByte first second)
      let output ← output.put (secondByte second third)
      let output ← output.put (thirdByte third fourth)
      decodeLoop bufcoded fuel (bufin + 4) (nprbytes - 4) output
    else .ok (bufin, nprbytes, output)

/-- One of the three bytes behind the loop, made of two neighbouring digits. -/
def decodeByte (bufcoded : List UInt8) (present : Prop) [Decidable present] (bufin : Nat)
    (byte : UInt8 → UInt8 → UInt8) (output : Output) : Except Fault Output :=
  if present then do
    let first ← load bufcoded bufin
    let second ← load bufcoded (bufin + 1)
    output.put (byte first second)
  else .ok output

/-- What `Base64decode` does with the last four digits, or fewer. -/
def decodeRest (bufcoded : List UInt8) (bufin nprbytes : Nat) (output : Output) :
    Except Fault Output := do
  let output ← decodeByte bufcoded (1 < nprbytes) bufin firstByte output
  let output ← decodeByte bufcoded (2 < nprbytes) (bufin + 1) secondByte output
  decodeByte bufcoded (3 < nprbytes) (bufin + 2) thirdByte output

/-- `Base64decode(bufplain, bufcoded)`, with the `nbytesdecoded` that it returns. -/
def Base64decode (bufplain : Output) (bufcoded : List UInt8) : Except Fault (Nat × Output) := do
  let nprbytes ← countDigits bufcoded
  let (bufin, left, output) ← decodeLoop bufcoded (nprbytes + 1) 0 nprbytes bufplain
  let output ← decodeRest bufcoded bufin left output
  let output ← output.put 0
  return ((nprbytes + 3) / 4 * 3 - ((4 - left) &&& 3), output)

/-! ### The wrapper -/

/-- `content.data()`. -/
def data (content : List UInt8) : List UInt8 := content ++ [0]

def encode (content : List UInt8) : Except Fault (List UInt8) :=
  if content.isEmpty then .ok []
  else do
    let encode_len := Base64encode_len (intOf content.length)
    let buf ← vector (encode_len + 1)
    let buf ← Base64encode buf (data content) (intOf content.length)
    cString buf.buffer

def decode (content : List UInt8) : Except Fault (List UInt8) :=
  if content.isEmpty then .ok []
  else do
    let decode_len ← Base64decode_len (data content)
    let buf ← vector (decode_len + 1)
    let (_, buf) ← Base64decode buf (data content)
    cString buf.buffer

/-! ### Three bytes and four digits -/

theorem sextet_digit {index : BitVec 32} (small : index.toNat < 64) :
    sextet (digit index) = index.toNat := by
  have inverse : ∀ index : Fin 64,
      (pr2six.getD (basis_64.getD index 0).toNat 64).toNat = index := by
    decide
  exact inverse ⟨index.toNat, small⟩

/-- The parts of a byte that the digits are made of. -/
theorem toNat_parts (c : UInt8) :
    ((promote c).sshiftRight 2 &&& 0x3F).toNat = c.toNat / 4 ∧
      ((promote c &&& 0x3) <<< 4).toNat = c.toNat % 4 * 16 ∧
      ((promote c &&& 0xF0).sshiftRight 4).toNat = c.toNat / 16 ∧
      ((promote c &&& 0xF) <<< 2).toNat = c.toNat % 16 * 4 ∧
      ((promote c &&& 0xC0).sshiftRight 6).toNat = c.toNat / 64 ∧
      (promote c &&& 0x3F).toNat = c.toNat % 64 := by
  have bytes : ∀ c : BitVec 8,
      ((c.signExtend 32).sshiftRight 2 &&& 0x3F#32).toNat = c.toNat / 4 ∧
        ((c.signExtend 32 &&& 0x3#32) <<< 4).toNat = c.toNat % 4 * 16 ∧
        ((c.signExtend 32 &&& 0xF0#32).sshiftRight 4).toNat = c.toNat / 16 ∧
        ((c.signExtend 32 &&& 0xF#32) <<< 2).toNat = c.toNat % 16 * 4 ∧
        ((c.signExtend 32 &&& 0xC0#32).sshiftRight 6).toNat = c.toNat / 64 ∧
        (c.signExtend 32 &&& 0x3F#32).toNat = c.toNat % 64 := by decide +kernel
  exact bytes c.toBitVec

/-- Two parts of a digit or a byte that do not overlap. -/
theorem or_eq_add {low : Nat} (high bits : Nat) (small : low < 2 ^ bits) :
    high * 2 ^ bits ||| low = high * 2 ^ bits + low := by
  rw [← Nat.shiftLeft_eq, Nat.shiftLeft_add_eq_or_of_lt small]

theorem sextet_firstDigit (c : UInt8) : sextet (firstDigit c) = c.toNat / 4 := by
  have value := (toNat_parts c).1
  have byte := c.toNat_lt
  rw [firstDigit, sextet_digit (by omega), value]

theorem sextet_secondDigit (c d : UInt8) :
    sextet (secondDigit c d) = c.toNat % 4 * 16 + d.toNat / 16 := by
  obtain ⟨-, high, -⟩ := toNat_parts c
  obtain ⟨-, -, low, -⟩ := toNat_parts d
  have byte := d.toNat_lt
  have value : (((promote c &&& 0x3) <<< 4) ||| (promote d &&& 0xF0).sshiftRight 4).toNat =
      c.toNat % 4 * 16 + d.toNat / 16 := by
    rw [BitVec.toNat_or, high, low]
    exact or_eq_add (c.toNat % 4) 4 (by omega)
  rw [secondDigit, sextet_digit (by omega), value]

theorem sextet_thirdDigit (c d : UInt8) :
    sextet (thirdDigit c d) = c.toNat % 16 * 4 + d.toNat / 64 := by
  obtain ⟨-, -, -, high, -⟩ := toNat_parts c
  obtain ⟨-, -, -, -, low, -⟩ := toNat_parts d
  have byte := d.toNat_lt
  have value : (((promote c &&& 0xF) <<< 2) ||| (promote d &&& 0xC0).sshiftRight 6).toNat =
      c.toNat % 16 * 4 + d.toNat / 64 := by
    rw [BitVec.toNat_or, high, low]
    exact or_eq_add (c.toNat % 16) 2 (by omega)
  rw [thirdDigit, sextet_digit (by omega), value]

theorem sextet_fourthDigit (c : UInt8) : sextet (fourthDigit c) = c.toNat % 64 := by
  have value := (toNat_parts c).2.2.2.2.2
  rw [fourthDigit, sextet_digit (by omega), value]

/-- The digits of the last byte or bytes are those in front of a zero. -/
theorem secondDigit_zero (c : UInt8) : digit ((promote c &&& 0x3) <<< 4) = secondDigit c 0 := by
  have nothing : (promote 0 &&& 0xF0).sshiftRight 4 = 0#32 := by decide
  rw [secondDigit, nothing, BitVec.or_zero]

theorem thirdDigit_zero (c : UInt8) : digit ((promote c &&& 0xF) <<< 2) = thirdDigit c 0 := by
  have nothing : (promote 0 &&& 0xC0).sshiftRight 6 = 0#32 := by decide
  rw [thirdDigit, nothing, BitVec.or_zero]

theorem firstByte_digits (c d : UInt8) : firstByte (firstDigit c) (secondDigit c d) = c := by
  have byte := d.toNat_lt
  have value : sextet (firstDigit c) <<< 2 ||| sextet (secondDigit c d) >>> 4 = c.toNat := by
    rw [sextet_firstDigit, sextet_secondDigit, Nat.shiftLeft_eq, Nat.shiftRight_eq_div_pow,
      or_eq_add _ _ (by omega)]
    omega
  rw [firstByte, value, UInt8.ofNat_toNat]

theorem secondByte_digits (c d e : UInt8) :
    secondByte (secondDigit c d) (thirdDigit d e) = d := by
  have byte := e.toNat_lt
  have value : sextet (secondDigit c d) <<< 4 ||| sextet (thirdDigit d e) >>> 2 =
      c.toNat % 4 * 256 + d.toNat := by
    rw [sextet_secondDigit, sextet_thirdDigit, Nat.shiftLeft_eq, Nat.shiftRight_eq_div_pow,
      or_eq_add _ _ (by omega)]
    omega
  rw [secondByte, value]
  exact UInt8.toNat_inj.mp (by rw [UInt8.toNat_ofNat']; have := d.toNat_lt; omega)

theorem thirdByte_digits (d e : UInt8) : thirdByte (thirdDigit d e) (fourthDigit e) = e := by
  have value : sextet (thirdDigit d e) <<< 6 ||| sextet (fourthDigit e) =
      d.toNat % 16 * 256 + e.toNat := by
    rw [sextet_thirdDigit, sextet_fourthDigit, Nat.shiftLeft_eq, or_eq_add _ _ (by omega)]
    omega
  rw [thirdByte, value]
  exact UInt8.toNat_inj.mp (by rw [UInt8.toNat_ofNat']; have := e.toNat_lt; omega)

/-! ### The code of a string -/

/-- The digits of a string. -/
def digits : List UInt8 → List UInt8
  | first :: second :: third :: rest =>
    firstDigit first :: secondDigit first second :: thirdDigit second third ::
      fourthDigit third :: digits rest
  | [first, second] => [firstDigit first, secondDigit first second, thirdDigit second 0]
  | [first] => [firstDigit first, secondDigit first 0]
  | [] => []

/-- The padding behind them. -/
def paddings : List UInt8 → List UInt8
  | _ :: _ :: _ :: rest => paddings rest
  | [_, _] => [padding]
  | [_] => [padding, padding]
  | [] => []

/-- The code of a string. -/
def code (string : List UInt8) : List UInt8 := digits string ++ paddings string

theorem length_digits (string : List UInt8) :
    (digits string).length = (4 * string.length + 2) / 3 := by
  induction string using digits.induct with
  | case1 first second third rest inductionHypothesis =>
    simp only [digits, List.length_cons, inductionHypothesis]
    omega
  | case2 first second => simp only [digits, List.length_cons, List.length_nil]
  | case3 first => simp only [digits, List.length_cons, List.length_nil]
  | case4 => rfl

theorem length_code (string : List UInt8) : (code string).length = (string.length + 2) / 3 * 4 := by
  rw [code, List.length_append]
  induction string using digits.induct with
  | case1 first second third rest inductionHypothesis =>
    simp only [digits, paddings, List.length_cons] at inductionHypothesis ⊢
    omega
  | case2 first second => simp only [digits, paddings, List.length_cons, List.length_nil]
  | case3 first => simp only [digits, paddings, List.length_cons, List.length_nil]
  | case4 => rfl

theorem sextet_of_mem_digits {string : List UInt8} {c : UInt8} (member : c ∈ digits string) :
    sextet c ≤ 63 := by
  have first (c : UInt8) : sextet (firstDigit c) ≤ 63 := by
    have byte := c.toNat_lt
    rw [sextet_firstDigit]
    omega
  have second (c d : UInt8) : sextet (secondDigit c d) ≤ 63 := by
    have byte := d.toNat_lt
    rw [sextet_secondDigit]
    omega
  have third (c d : UInt8) : sextet (thirdDigit c d) ≤ 63 := by
    have byte := d.toNat_lt
    rw [sextet_thirdDigit]
    omega
  have fourth (c : UInt8) : sextet (fourthDigit c) ≤ 63 := by
    rw [sextet_fourthDigit]
    omega
  induction string using digits.induct with
  | case1 one two three rest inductionHypothesis =>
    simp only [digits, List.mem_cons] at member
    rcases member with rfl | rfl | rfl | rfl | member
    · exact first _
    · exact second _ _
    · exact third _ _
    · exact fourth _
    · exact inductionHypothesis member
  | case2 one two =>
    simp only [digits, List.mem_cons, List.not_mem_nil, or_false] at member
    rcases member with rfl | rfl | rfl
    · exact first _
    · exact second _ _
    · exact third _ _
  | case3 one =>
    simp only [digits, List.mem_cons, List.not_mem_nil, or_false] at member
    rcases member with rfl | rfl
    · exact first _
    · exact second _ _
  | case4 => cases member

theorem eq_padding_of_mem {string : List UInt8} {c : UInt8} (member : c ∈ paddings string) :
    c = padding := by
  induction string using paddings.induct with
  | case1 one two three rest inductionHypothesis => exact inductionHypothesis member
  | case2 one two => exact List.mem_singleton.mp member
  | case3 one =>
    simp only [paddings, List.mem_cons, List.not_mem_nil, or_false, or_self] at member
    exact member
  | case4 => cases member

/-- There is no zero in the code. -/
theorem zero_not_mem_code (string : List UInt8) : 0 ∉ code string := by
  intro member
  rcases List.mem_append.mp member with member | member
  · exact absurd (sextet_of_mem_digits member) (by decide)
  · exact absurd (eq_padding_of_mem member) (by decide)

/-! ### Buffers that are written from the start on -/

/-- A buffer with `done` in it and room for `room` bytes. -/
def written (done : List UInt8) (room : Nat) : Output where
  buffer := done ++ List.replicate room 0
  cursor := done.length

theorem put_written (done : List UInt8) (room : Nat) (c : UInt8) :
    (written done (room + 1)).put c = .ok (written (done ++ [c]) room) := by
  have inside : (written done (room + 1)).cursor < (written done (room + 1)).buffer.length := by
    show done.length < (done ++ List.replicate (room + 1) 0).length
    rw [List.length_append, List.length_replicate]
    omega
  rw [Output.put, if_pos inside, written, written, List.replicate_succ,
    List.set_append_right _ _ (Nat.le_refl _), Nat.sub_self, List.set_cons_zero,
    List.length_append, List.append_assoc]
  rfl

theorem vector_ofNat (size : Nat) : vector size = .ok (written [] size) := by
  rw [vector, if_neg (by omega), Int.toNat_natCast]
  rfl

/-! ### Encoding -/

theorem load_second {before after : List UInt8} (first second : UInt8) :
    load (before ++ first :: second :: after) (before.length + 1) = .ok second := by
  rw [List.append_cons]
  exact load_append second (by simp)

theorem load_third {before after : List UInt8} (first second third : UInt8) :
    load (before ++ first :: second :: third :: after) (before.length + 2) = .ok third := by
  rw [List.append_cons, List.append_cons]
  exact load_append third (by simp)

/-- A turn of the loop writes the four digits of three bytes. -/
theorem encodeLoop_turn {before after done : List UInt8} {first second third : UInt8} {len : Int}
    (inside : (before.length : Int) < len - 2) (fuel room : Nat) :
    encodeLoop (before ++ first :: second :: third :: after) len (fuel + 1) before.length
        (written done (room + 1 + 1 + 1 + 1)) =
      encodeLoop (before ++ first :: second :: third :: after) len fuel (before.length + 3)
        (written (done ++ [firstDigit first] ++ [secondDigit first second] ++
          [thirdDigit second third] ++ [fourthDigit third]) room) := by
  rw [encodeLoop, if_pos inside, load_append first rfl, ok_bind, load_second, ok_bind, load_third,
    ok_bind, put_written, ok_bind, put_written, ok_bind, put_written, ok_bind, put_written, ok_bind]

/-- The loop and the rest write the code of what is left of the string. -/
theorem encode_written {before rest : List UInt8} (done : List UInt8) {fuel : Nat} (room : Nat)
    (enough : rest.length < fuel) :
    ∃ i output, encodeLoop (before ++ (rest ++ [0])) (before.length + rest.length : Nat) fuel
        before.length (written done (room + (code rest).length)) = .ok (i, output) ∧
      encodeRest (before ++ (rest ++ [0])) (before.length + rest.length : Nat) i output =
        .ok (written (done ++ code rest) room) := by
  obtain ⟨fuel, rfl⟩ := Nat.exists_eq_succ_of_ne_zero (Nat.ne_of_gt (Nat.zero_lt_of_lt enough))
  induction rest using digits.induct generalizing before done fuel with
  | case1 first second third rest inductionHypothesis =>
    simp only [List.length_cons] at enough
    obtain ⟨fuel, rfl⟩ := Nat.exists_eq_succ_of_ne_zero (n := fuel) (by omega)
    have size : room + (code (first :: second :: third :: rest)).length =
        room + (code rest).length + 1 + 1 + 1 + 1 := by
      rw [length_code, length_code]
      simp only [List.length_cons]
      omega
    obtain ⟨i, output, looped, finished⟩ := @inductionHypothesis (before ++ [first, second, third])
      (done ++ [firstDigit first] ++ [secondDigit first second] ++ [thirdDigit second third] ++
        [fourthDigit third]) fuel (by omega)
    have string : before ++ [first, second, third] ++ (rest ++ [0]) =
        before ++ first :: second :: third :: (rest ++ [0]) := by simp
    have length : (before ++ [first, second, third]).length + rest.length =
        before.length + (rest.length + 1 + 1 + 1) := by
      simp only [List.length_append, List.length_cons, List.length_nil]
      omega
    have index : (before ++ [first, second, third]).length = before.length + 3 := by simp
    rw [string, length, index] at looped
    rw [string, length] at finished
    refine ⟨i, output, ?_, ?_⟩
    · simp only [List.cons_append, List.length_cons]
      rw [size, encodeLoop_turn (by omega)]
      exact looped
    · simp only [List.cons_append, List.length_cons]
      rw [finished]
      simp [code, digits, paddings]
  | case2 first second =>
    have size : room + (code [first, second]).length = room + 1 + 1 + 1 + 1 := by
      simp [code, digits, paddings]
    refine ⟨before.length, written done (room + 1 + 1 + 1 + 1), ?_, ?_⟩
    · simp only [size, List.length_cons, List.length_nil]
      rw [encodeLoop, if_neg (by omega)]
    · simp only [List.cons_append, List.length_cons, List.length_nil]
      rw [encodeRest, if_pos (by omega), load_append first rfl, ok_bind, put_written, ok_bind,
        if_neg (by omega), load_second, ok_bind, put_written, ok_bind, put_written, ok_bind,
        put_written, thirdDigit_zero]
      simp [code, digits, paddings]
  | case3 first =>
    have size : room + (code [first]).length = room + 1 + 1 + 1 + 1 := by
      simp [code, digits, paddings]
    refine ⟨before.length, written done (room + 1 + 1 + 1 + 1), ?_, ?_⟩
    · simp only [size, List.length_cons, List.length_nil]
      rw [encodeLoop, if_neg (by omega)]
    · simp only [List.cons_append, List.length_cons, List.length_nil]
      rw [encodeRest, if_pos (by omega), load_append first rfl, ok_bind, put_written, ok_bind,
        if_pos (by omega), put_written, ok_bind, put_written, ok_bind, put_written,
        secondDigit_zero]
      simp [code, digits, paddings]
  | case4 =>
    refine ⟨before.length, written done room, ?_, ?_⟩
    · rw [encodeLoop, if_neg (by rw [List.length_nil]; omega)]
      rfl
    · rw [encodeRest, if_neg (by simp)]
      simp [code, digits, paddings]

/-- `encode` stays inside its buffer and returns the code. -/
theorem encode_eq {string : List UInt8} (short : string.length < 2 ^ 30) :
    encode string = .ok (code string) := by
  cases string with
  | nil => rfl
  | cons first rest =>
    generalize whole : first :: rest = string at short ⊢
    have some : ¬ string.isEmpty = true := by
      rw [← whole]
      exact Bool.false_ne_true
    have length : intOf string.length = string.length := intOf_of_lt (by omega) (by omega)
    have size : Base64encode_len string.length + 1 =
        ((1 + 1 + (code string).length : Nat) : Int) := by
      rw [Base64encode_len, length_code,
        show ((string.length : Int) + 2).tdiv 3 = ((string.length + 2) / 3 : Nat) from rfl]
      omega
    obtain ⟨i, output, looped, finished⟩ := @encode_written [] string [] (string ++ [0]).length
      (1 + 1) (by rw [List.length_append, List.length_singleton]; omega)
    simp only [List.nil_append, List.length_nil, Nat.zero_add] at looped finished
    have codec : Base64encode (written [] (1 + 1 + (code string).length)) (data string)
        string.length = .ok (written (code string ++ [0]) 1) := by
      rw [Base64encode, data, looped, ok_bind]
      show (encodeRest (string ++ [0]) string.length i output >>= fun output => output.put 0) = _
      rw [finished, ok_bind, put_written]
    rw [encode, if_neg some]
    simp only [length, size]
    rw [vector_ofNat, ok_bind, codec, ok_bind]
    have terminated : (written (code string ++ [0]) 1).buffer = code string ++ 0 :: [0] := by
      rw [written, List.append_assoc]
      rfl
    rw [terminated, cString_append, takeWhile_of_not_mem (zero_not_mem_code string)]

/-! ### Decoding -/

theorem scan_digits {before digits after : List UInt8} {stop : UInt8} {fuel : Nat}
    (below : ∀ c ∈ digits, sextet c ≤ 63) (ends : 63 < sextet stop)
    (enough : digits.length < fuel) :
    scan (before ++ (digits ++ stop :: after)) fuel before.length =
      .ok (before.length + digits.length + 1) := by
  obtain ⟨fuel, rfl⟩ := Nat.exists_eq_succ_of_ne_zero (Nat.ne_of_gt (Nat.zero_lt_of_lt enough))
  induction digits generalizing before fuel with
  | nil =>
    rw [List.nil_append, scan, load_append stop rfl, ok_bind, if_neg (by omega)]
    rfl
  | cons c digits inductionHypothesis =>
    rw [List.length_cons] at enough ⊢
    obtain ⟨fuel, rfl⟩ := Nat.exists_eq_succ_of_ne_zero (n := fuel) (by omega)
    have scanned := @inductionHypothesis (before ++ [c])
      (fun c member => below c (List.mem_cons_of_mem _ member)) fuel (by omega)
    rw [List.append_assoc, List.singleton_append, List.length_append, List.length_singleton]
      at scanned
    rw [List.cons_append, scan, load_append c rfl, ok_bind, if_pos (below c List.mem_cons_self),
      scanned]
    congr 1
    omega

theorem load_fourth {before after : List UInt8} (first second third fourth : UInt8) :
    load (before ++ first :: second :: third :: fourth :: after) (before.length + 3) =
      .ok fourth := by
  rw [List.append_cons, List.append_cons, List.append_cons]
  exact load_append fourth (by simp)

theorem load_of_getElem? {memory : List UInt8} {index : Nat} {byte : UInt8}
    (here : memory[index]? = some byte) : load memory index = .ok byte := by
  obtain ⟨inside, same⟩ := List.getElem?_eq_some_iff.mp here
  rw [load_of_within (Or.inr ⟨by omega, by omega⟩), byteAt, Int.toNat_natCast,
    List.getD_eq_getElem?_getD, here]
  rfl

/-- A byte behind the loop that is there. -/
theorem decodeByte_written {bufcoded : List UInt8} {present : Prop} [Decidable present]
    {bufin : Nat} {byte : UInt8 → UInt8 → UInt8} {done : List UInt8} {room : Nat}
    (first second : UInt8) (holds : present) (one : bufcoded[bufin]? = some first)
    (two : bufcoded[bufin + 1]? = some second) :
    decodeByte bufcoded present bufin byte (written done (room + 1)) =
      .ok (written (done ++ [byte first second]) room) := by
  have next : load bufcoded ((bufin : Int) + 1) = .ok second := load_of_getElem? two
  rw [decodeByte, if_pos holds, load_of_getElem? one, ok_bind, next, ok_bind, put_written]

/-- One that is not. -/
theorem decodeByte_of_not {bufcoded : List UInt8} {present : Prop} [Decidable present]
    (missing : ¬ present) (bufin : Nat) (byte : UInt8 → UInt8 → UInt8) (output : Output) :
    decodeByte bufcoded present bufin byte output = .ok output :=
  if_neg missing

/-- A turn of the loop writes the three bytes that four digits are made of. -/
theorem decodeLoop_turn {before after done : List UInt8} {first second third : UInt8}
    {nprbytes : Nat} (several : 4 < nprbytes) (fuel room : Nat) :
    let bufcoded := before ++ firstDigit first :: secondDigit first second ::
      thirdDigit second third :: fourthDigit third :: after
    decodeLoop bufcoded (fuel + 1) before.length nprbytes (written done (room + 1 + 1 + 1)) =
      decodeLoop bufcoded fuel (before.length + 4) (nprbytes - 4)
        (written (done ++ [first] ++ [second] ++ [third]) room) := by
  intro bufcoded
  rw [decodeLoop, if_pos several, load_append _ rfl, ok_bind, load_second, ok_bind, load_third,
    ok_bind, load_fourth, ok_bind, put_written, ok_bind, put_written, ok_bind, put_written,
    ok_bind, firstByte_digits, secondByte_digits, thirdByte_digits]

/-- The loop and the rest write the bytes that the digits are made of. -/
theorem decode_written {before rest after : List UInt8} (done : List UInt8) {fuel : Nat}
    (room : Nat) (enough : (digits rest).length < fuel) :
    ∃ bufin left output, decodeLoop (before ++ (digits rest ++ after)) fuel before.length
        (digits rest).length (written done (room + rest.length)) = .ok (bufin, left, output) ∧
      decodeRest (before ++ (digits rest ++ after)) bufin left output =
        .ok (written (done ++ rest) room) := by
  obtain ⟨fuel, rfl⟩ := Nat.exists_eq_succ_of_ne_zero (Nat.ne_of_gt (Nat.zero_lt_of_lt enough))
  induction rest using digits.induct generalizing before done fuel with
  | case1 first second third rest inductionHypothesis =>
    rw [length_digits] at enough
    simp only [List.length_cons] at enough
    obtain ⟨fuel, rfl⟩ := Nat.exists_eq_succ_of_ne_zero (n := fuel) (by omega)
    by_cases last : rest = []
    · subst last
      refine ⟨before.length, 4, written done (room + 1 + 1 + 1), ?_, ?_⟩
      · simp only [digits, List.length_cons, List.length_nil]
        rw [decodeLoop, if_neg (by omega)]
      · simp only [digits, List.cons_append, List.nil_append]
        rw [decodeRest, decodeByte_written (firstDigit first) (secondDigit first second), ok_bind,
          decodeByte_written (secondDigit first second) (thirdDigit second third), ok_bind,
          decodeByte_written (thirdDigit second third) (fourthDigit third), firstByte_digits,
          secondByte_digits, thirdByte_digits, List.append_assoc, List.append_assoc]
        · rfl
        all_goals grind
    · have more : 0 < rest.length := List.length_pos_of_ne_nil last
      have count : (digits (first :: second :: third :: rest)).length =
          (digits rest).length + 4 := by
        rw [length_digits, length_digits]
        simp only [List.length_cons]
        omega
      have several := length_digits rest
      obtain ⟨bufin, left, output, looped, finished⟩ := @inductionHypothesis
        (before ++ [firstDigit first, secondDigit first second, thirdDigit second third,
          fourthDigit third]) (done ++ [first] ++ [second] ++ [third]) fuel (by omega)
      have coded : before ++ [firstDigit first, secondDigit first second, thirdDigit second third,
          fourthDigit third] ++ (digits rest ++ after) =
          before ++ (digits (first :: second :: third :: rest) ++ after) := by
        simp [digits]
      have index : (before ++ [firstDigit first, secondDigit first second,
          thirdDigit second third, fourthDigit third]).length = before.length + 4 := by simp
      rw [coded, index] at looped
      rw [coded] at finished
      refine ⟨bufin, left, output, ?_, ?_⟩
      · rw [count, ← looped]
        simp only [digits, List.cons_append, List.length_cons]
        rw [← Nat.add_assoc, ← Nat.add_assoc, ← Nat.add_assoc, decodeLoop_turn (by omega),
          Nat.add_sub_cancel]
      · rw [finished]
        simp
  | case2 first second =>
    refine ⟨before.length, 3, written done (room + 1 + 1), ?_, ?_⟩
    · simp only [digits, List.length_cons, List.length_nil]
      rw [decodeLoop, if_neg (by omega)]
    · simp only [digits, List.cons_append, List.nil_append]
      rw [decodeRest, decodeByte_written (firstDigit first) (secondDigit first second), ok_bind,
        decodeByte_written (secondDigit first second) (thirdDigit second 0), ok_bind,
        decodeByte_of_not (by omega), firstByte_digits, secondByte_digits, List.append_assoc]
      · rfl
      all_goals grind
  | case3 first =>
    refine ⟨before.length, 2, written done (room + 1), ?_, ?_⟩
    · simp only [digits, List.length_cons, List.length_nil]
      rw [decodeLoop, if_neg (by omega)]
    · simp only [digits, List.cons_append, List.nil_append]
      rw [decodeRest, decodeByte_written (firstDigit first) (secondDigit first 0), ok_bind,
        decodeByte_of_not (by omega), ok_bind, decodeByte_of_not (by omega), firstByte_digits]
      all_goals simp
  | case4 =>
    refine ⟨before.length, 0, written done room, ?_, ?_⟩
    · simp only [digits, List.length_nil]
      rw [decodeLoop, if_neg (by omega)]
      rfl
    · rw [decodeRest, decodeByte_of_not (by omega), ok_bind, decodeByte_of_not (by omega), ok_bind,
        decodeByte_of_not (by omega), List.append_nil]

theorem countDigits_eq {digits after : List UInt8} {stop : UInt8}
    (below : ∀ c ∈ digits, sextet c ≤ 63) (ends : 63 < sextet stop) :
    countDigits (digits ++ stop :: after) = .ok digits.length := by
  have scanned := @scan_digits [] digits after stop (digits ++ stop :: after).length below ends
    (by rw [List.length_append, List.length_cons]; omega)
  rw [List.nil_append, List.length_nil, Nat.zero_add] at scanned
  rw [countDigits, scanned]
  rfl

/-- Behind the digits comes something that is none. -/
theorem exists_stop (string : List UInt8) :
    ∃ stop after, paddings string ++ [0] = stop :: after ∧ 63 < sextet stop := by
  cases pads : paddings string with
  | nil => exact ⟨0, [], rfl, by decide⟩
  | cons first rest =>
    refine ⟨first, rest ++ [0], rfl, ?_⟩
    have same : first = padding :=
      @eq_padding_of_mem string first (by rw [pads]; exact List.mem_cons_self)
    rw [same]
    decide

/-- `decode` stays inside its buffer, and returns what stands in front of the first zero of the
string. -/
theorem decode_code (string : List UInt8) :
    decode (code string) = .ok (string.takeWhile (· != 0)) := by
  cases string with
  | nil => rfl
  | cons first rest =>
    generalize whole : first :: rest = string
    have length : 0 < string.length := by
      rw [← whole]
      exact Nat.succ_pos _
    have count := length_digits string
    have some : ¬ (code string).isEmpty = true := by
      rw [List.isEmpty_iff_length_eq_zero, length_code]
      omega
    obtain ⟨stop, after, stops, ends⟩ := exists_stop string
    have whole : data (code string) = digits string ++ stop :: after := by
      rw [data, code, List.append_assoc, stops]
    have counted := @countDigits_eq _ after _
      (fun c (member : c ∈ digits string) => sextet_of_mem_digits member) ends
    obtain ⟨room, size⟩ : ∃ room, ((digits string).length + 3) / 4 * 3 + 1 + 1 =
        room + 1 + string.length :=
      ⟨((digits string).length + 3) / 4 * 3 + 1 - string.length, by omega⟩
    obtain ⟨bufin, left, output, looped, finished⟩ := @decode_written [] string (stop :: after) []
      ((digits string).length + 1) (room + 1) (Nat.lt_succ_self _)
    simp only [List.nil_append, List.length_nil] at looped finished
    have codec : Base64decode (written [] (room + 1 + string.length)) (data (code string)) =
        .ok (((digits string).length + 3) / 4 * 3 - ((4 - left) &&& 3),
          written (string ++ [0]) room) := by
      rw [Base64decode, whole, counted, ok_bind, looped, ok_bind]
      show (decodeRest (digits string ++ stop :: after) bufin left output >>= fun output =>
        output.put 0 >>= fun output => .ok (_, output)) = _
      rw [finished, ok_bind, put_written, ok_bind]
    have vectored : vector (((((digits string).length + 3) / 4 * 3 + 1 : Nat) : Int) + 1) =
        .ok (written [] (room + 1 + string.length)) := by
      rw [← size]
      exact vector_ofNat _
    have terminated : (written (string ++ [0]) room).buffer =
        string ++ 0 :: List.replicate room 0 := by
      rw [written, List.append_assoc]
      rfl
    rw [decode, if_neg some, Base64decode_len, whole, counted, ok_bind]
    show (vector (((((digits string).length + 3) / 4 * 3 + 1 : Nat) : Int) + 1) >>= fun buf =>
      Base64decode buf (digits string ++ stop :: after) >>= fun result =>
        cString result.2.buffer) = _
    rw [vectored, ok_bind, ← whole, codec, ok_bind, terminated, cString_append]

/-! ### The round trip -/

/-- Encoding and then decoding stays inside the buffers and gives the string back if and only if
the string has no zero byte. -/
theorem decode_encode_iff {string : List UInt8} (short : string.length < 2 ^ 30) :
    (encode string >>= decode) = .ok string ↔ 0 ∉ string := by
  rw [encode_eq short, ok_bind, decode_code, Except.ok.injEq, List.takeWhile_eq_self_iff]
  constructor
  · intro unequal member
    exact absurd (unequal 0 member) (by decide)
  · exact fun absent => List.takeWhile_eq_self_iff.mp (takeWhile_of_not_mem absent)

theorem decode_encode_three : ([65, 66, 255] : List UInt8).length < 2 ^ 30 ∧
    (encode [65, 66, 255] >>= decode) = .ok [65, 66, 255] :=
  ⟨by decide, (decode_encode_iff (by decide)).mpr (by decide)⟩

theorem not_decode_encode_zero : ¬ ∀ string : List UInt8, string.length < 2 ^ 30 →
    (encode string >>= decode) = .ok string := by
  intro roundTrip
  have same := roundTrip [65, 0, 66] (by decide)
  rw [encode_eq (by decide), ok_bind, decode_code] at same
  exact absurd same (by decide)

end Nattan.Base64
