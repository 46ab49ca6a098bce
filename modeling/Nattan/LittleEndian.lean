/-
This file is the small library of little-endian numbers.

A number of `width` bytes is written as its bytes from the lowest on. Encoding and
decoding are inverse in both directions: a decoded encoding is the number up to the
width, and an encoded decoding is the bytes. The bytes of a machine integer are those
of its value, so both facts hold of bit vectors of a whole number of bytes as well.
-/

import Mathlib.Algebra.Group.Nat.Defs
import Mathlib.Data.List.Basic

namespace Nattan

/-- The `width` low bytes of a number, the lowest first. -/
def littleEndian : Nat → Nat → List UInt8
  | 0, _ => []
  | width + 1, value => UInt8.ofNat value :: littleEndian width (value / 256)

/-- The number that bytes stand for. -/
def ofLittleEndian : List UInt8 → Nat
  | [] => 0
  | byte :: rest => byte.toNat + 256 * ofLittleEndian rest

@[simp]
theorem length_littleEndian (width value : Nat) : (littleEndian width value).length = width := by
  induction width generalizing value with
  | zero => rfl
  | succ width inductionHypothesis => rw [littleEndian, List.length_cons, inductionHypothesis]

theorem ofLittleEndian_littleEndian (width value : Nat) :
    ofLittleEndian (littleEndian width value) = value % 256 ^ width := by
  induction width generalizing value with
  | zero => rw [littleEndian, ofLittleEndian, Nat.pow_zero, Nat.mod_one]
  | succ width inductionHypothesis =>
    rw [littleEndian, ofLittleEndian, inductionHypothesis, UInt8.toNat_ofNat']
    show value % 256 + 256 * (value / 256 % 256 ^ width) = value % 256 ^ (width + 1)
    rw [Nat.pow_succ, Nat.mul_comm (256 ^ width), Nat.mod_mul]

theorem littleEndian_ofLittleEndian (bytes : List UInt8) :
    littleEndian bytes.length (ofLittleEndian bytes) = bytes := by
  induction bytes with
  | nil => rfl
  | cons byte rest inductionHypothesis =>
    have small := byte.toNat_lt
    have low : UInt8.ofNat (byte.toNat + 256 * ofLittleEndian rest) = byte := by
      apply UInt8.toNat_inj.mp
      rw [UInt8.toNat_ofNat']
      omega
    have high : (byte.toNat + 256 * ofLittleEndian rest) / 256 = ofLittleEndian rest := by
      omega
    rw [List.length_cons, ofLittleEndian, littleEndian, low, high, inductionHypothesis]

theorem ofLittleEndian_lt (bytes : List UInt8) : ofLittleEndian bytes < 256 ^ bytes.length := by
  rw [← littleEndian_ofLittleEndian bytes, ofLittleEndian_littleEndian, length_littleEndian]
  exact Nat.mod_lt _ (Nat.pow_pos (by decide))

/-- The bytes of a longer number begin with those of a shorter one. -/
theorem littleEndian_add (low high value : Nat) :
    littleEndian (low + high) value =
      littleEndian low value ++ littleEndian high (value / 256 ^ low) := by
  induction low generalizing value with
  | zero => rw [Nat.zero_add, Nat.pow_zero, Nat.div_one, littleEndian, List.nil_append]
  | succ low inductionHypothesis =>
    rw [Nat.succ_add, littleEndian, littleEndian, inductionHypothesis, List.cons_append,
      Nat.div_div_eq_div_mul, Nat.pow_succ, Nat.mul_comm 256]

theorem littleEndian_mod (width value : Nat) :
    littleEndian width (value % 256 ^ width) = littleEndian width value := by
  rw [← ofLittleEndian_littleEndian]
  have inverse := littleEndian_ofLittleEndian (littleEndian width value)
  rw [length_littleEndian] at inverse
  exact inverse

/-! ### Bit vectors of whole bytes -/

section Words

variable {width : Nat}

/-- The bytes of a word in memory. -/
def wordBytes (word : BitVec (8 * width)) : List UInt8 :=
  littleEndian width word.toNat

/-- The word whose bytes these are. -/
def wordOf (width : Nat) (bytes : List UInt8) : BitVec (8 * width) :=
  BitVec.ofNat (8 * width) (ofLittleEndian bytes)

@[simp]
theorem length_wordBytes (word : BitVec (8 * width)) : (wordBytes word).length = width :=
  length_littleEndian width word.toNat

theorem wordOf_wordBytes (word : BitVec (8 * width)) : wordOf width (wordBytes word) = word := by
  have small : word.toNat < 256 ^ width := by
    rw [show 256 = 2 ^ 8 from rfl, ← Nat.pow_mul]
    exact word.isLt
  apply BitVec.eq_of_toNat_eq
  rw [wordOf, wordBytes, BitVec.toNat_ofNat, ofLittleEndian_littleEndian, Nat.mod_eq_of_lt small,
    Nat.mod_eq_of_lt word.isLt]

theorem wordBytes_wordOf {bytes : List UInt8} (length : bytes.length = width) :
    wordBytes (wordOf width bytes) = bytes := by
  subst length
  have small := ofLittleEndian_lt bytes
  rw [show 256 = 2 ^ 8 from rfl, ← Nat.pow_mul] at small
  rw [wordBytes, wordOf, BitVec.toNat_ofNat, Nat.mod_eq_of_lt small, littleEndian_ofLittleEndian]

end Words

end Nattan
