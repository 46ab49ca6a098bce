/-
This file is the small library of C texts: the bytes of a literal, how a number is
written in decimal, and the bytes in front of the first zero of a memory.
-/

import Mathlib.Algebra.Group.Nat.Defs
import Mathlib.Data.List.TakeWhile
import Nattan.Memory

namespace Nattan

/-- The characters of a text, as bytes. -/
def bytesOf (text : String) : List UInt8 :=
  text.toList.map fun character => UInt8.ofNat character.toNat

theorem length_bytesOf (text : String) : (bytesOf text).length = text.toList.length :=
  List.length_map _

/-! ### Numbers -/

theorem isDigit_of_mem_repr {number : Nat} {character : Char}
    (member : character ∈ number.repr.toList) : character.isDigit = true := by
  rw [Nat.toList_repr] at member
  exact Nat.isDigit_of_mem_toDigits (Nat.zero_lt_succ 9) (Nat.le_refl 10) member

theorem toList_negSucc (number : Nat) :
    (toString (Int.negSucc number)).toList = '-' :: (number + 1).repr.toList := by
  show ("-" ++ (number + 1).repr).toList = _
  rw [String.toList_append]
  rfl

/-- The characters of a number are a sign and digits. -/
theorem mem_toString {number : Int} {character : Char}
    (member : character ∈ (toString number).toList) :
    character = '-' ∨ character.isDigit = true := by
  cases number with
  | ofNat number => exact Or.inr (isDigit_of_mem_repr member)
  | negSucc number =>
    rw [toList_negSucc] at member
    rcases List.mem_cons.mp member with sign | inDigits
    · exact Or.inl sign
    · exact Or.inr (isDigit_of_mem_repr inDigits)

theorem mem_bytesOf_toString {number : Int} {byte : UInt8}
    (member : byte ∈ bytesOf (toString number)) :
    byte = 45 ∨ (48 ≤ byte.toNat ∧ byte.toNat ≤ 57) := by
  obtain ⟨character, inText, rfl⟩ := List.mem_map.mp member
  rcases mem_toString inText with sign | digit
  · rw [sign]
    exact Or.inl rfl
  · have range := Char.isDigit_iff_toNat.mp digit
    have low : 48 ≤ character.toNat := range.1
    have high : character.toNat ≤ 57 := range.2
    rw [UInt8.toNat_ofNat', Nat.mod_eq_of_lt (by omega)]
    exact Or.inr ⟨low, high⟩

/-- A number below a power of ten has at most so many digits. -/
theorem length_repr_le {number digits : Nat} (small : number < 10 ^ digits) (some : 0 < digits) :
    number.repr.toList.length ≤ digits := by
  rw [Nat.toList_repr]
  exact (Nat.length_toDigits_le_iff (by decide) some).mpr small

/-- An integer has a sign before its digits at most. -/
theorem length_toString_le {number : Int} {digits : Nat} (small : number.natAbs < 10 ^ digits)
    (some : 0 < digits) : (toString number).toList.length ≤ digits + 1 := by
  cases number with
  | ofNat number => exact Nat.le_succ_of_le (length_repr_le small some)
  | negSucc number =>
    rw [toList_negSucc, List.length_cons]
    exact Nat.succ_le_succ (length_repr_le small some)

/-! ### Texts that end with a zero -/

/-- `std::string(memory)`, or `%s`: the bytes in front of the first zero. Without a zero the read
goes on behind the memory. -/
def cString : List UInt8 → Except Fault (List UInt8)
  | [] => .error (.outOfBounds 0)
  | 0 :: _ => .ok []
  | byte :: rest => (byte :: ·) <$> cString rest

theorem cString_of_mem {bytes : List UInt8} (member : 0 ∈ bytes) :
    cString bytes = .ok (bytes.takeWhile (· != 0)) := by
  induction bytes with
  | nil => cases member
  | cons byte bytes inductionHypothesis =>
    by_cases zero : byte = 0
    · subst zero
      rfl
    · have unequal : (byte != 0) = true := bne_iff_ne.mpr zero
      have later : 0 ∈ bytes := List.mem_of_ne_of_mem (Ne.symm zero) member
      rw [List.takeWhile_cons, if_pos unequal, cString, inductionHypothesis later]
      · rfl
      · exact zero

/-- What stands behind a zero is not read. -/
theorem takeWhile_append_zero (bytes rest : List UInt8) :
    (bytes ++ 0 :: rest).takeWhile (· != 0) = bytes.takeWhile (· != 0) := by
  induction bytes with
  | nil => rfl
  | cons byte bytes inductionHypothesis =>
    rw [List.cons_append, List.takeWhile_cons, List.takeWhile_cons, inductionHypothesis]

theorem takeWhile_append_zeros (bytes : List UInt8) (count : Nat) :
    (bytes ++ List.replicate count 0).takeWhile (· != 0) = bytes.takeWhile (· != 0) := by
  cases count with
  | zero => rw [List.replicate_zero, List.append_nil]
  | succ count => rw [List.replicate_succ, takeWhile_append_zero]

theorem cString_append (bytes rest : List UInt8) :
    cString (bytes ++ 0 :: rest) = .ok (bytes.takeWhile (· != 0)) := by
  rw [cString_of_mem (List.mem_append_right _ List.mem_cons_self), takeWhile_append_zero]

theorem takeWhile_of_not_mem {bytes : List UInt8} (absent : 0 ∉ bytes) :
    bytes.takeWhile (· != 0) = bytes :=
  List.takeWhile_eq_self_iff.mpr fun byte member => bne_iff_ne.mpr fun zero => by
    subst zero
    exact absent member

end Nattan
