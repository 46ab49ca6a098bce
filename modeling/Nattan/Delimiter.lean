/-
This file is the small library of texts that are taken apart at a separator.

A text is split at the first occurrence of a separator. What is written in front of
the separator comes back if it does not contain the separator's first element; what
is written behind it is free. A block is a list of nonempty lines, each with its
separator, behind them one empty line, and behind that anything.
-/

import Mathlib.Data.List.Basic

namespace Nattan

universe u

variable {α : Type u}

/-- A separator, which is not empty. -/
structure Separator (α : Type u) where
  head : α
  tail : List α

namespace Separator

variable [DecidableEq α] (separator : Separator α)

def toList : List α :=
  separator.head :: separator.tail

/-- The text in front of the first occurrence of the separator, and behind it. -/
def splitFirst : List α → Option (List α × List α)
  | [] => none
  | first :: rest =>
    if separator.toList <+: first :: rest then
      some ([], (first :: rest).drop separator.toList.length)
    else
      (splitFirst rest).map fun (before, after) => (first :: before, after)

/-- What is in front of the separator comes back, and what is behind it. -/
theorem splitFirst_append {before : List α} (free : separator.head ∉ before) (after : List α) :
    separator.splitFirst (before ++ (separator.toList ++ after)) = some (before, after) := by
  induction before with
  | nil =>
    rw [List.nil_append, toList, List.cons_append, splitFirst, if_pos]
    · rw [toList, ← List.cons_append, List.drop_left]
    · exact ⟨after, rfl⟩
  | cons first rest inductionHypothesis =>
    obtain ⟨notHead, freeRest⟩ := not_or.mp (mt List.mem_cons.mpr free)
    rw [List.cons_append, splitFirst, if_neg, inductionHypothesis freeRest]
    · rfl
    · rintro ⟨behind, same⟩
      exact notHead (List.cons.inj same).1

theorem length_of_splitFirst {text before after : List α}
    (split : separator.splitFirst text = some (before, after)) : after.length < text.length := by
  induction text generalizing before with
  | nil => cases split
  | cons first rest inductionHypothesis =>
    rw [splitFirst] at split
    split at split
    · cases split
      rw [List.length_drop, toList, List.length_cons, List.length_cons]
      omega
    · obtain ⟨⟨inner, behind⟩, found, same⟩ := Option.map_eq_some_iff.mp split
      cases same
      exact Nat.lt_succ_of_lt (inductionHypothesis found)

/-- The lines in front of the first empty line, and the text behind that. -/
def block (text : List α) : Option (List (List α) × List α) :=
  match _found : separator.splitFirst text with
  | none => none
  | some ([], after) => some ([], after)
  | some (first :: line, after) =>
    (block after).map fun (lines, left) => ((first :: line) :: lines, left)
termination_by text.length
decreasing_by exact separator.length_of_splitFirst ‹_›

theorem block_of_empty {text after : List α}
    (split : separator.splitFirst text = some ([], after)) :
    separator.block text = some ([], after) := by
  rw [block]
  split
  · exact absurd (split.symm.trans ‹_›) (Option.some_ne_none _)
  · cases split.symm.trans ‹_›
    rfl
  · cases split.symm.trans ‹_›

theorem block_of_line {text line after : List α} (nonempty : line ≠ [])
    (split : separator.splitFirst text = some (line, after)) :
    separator.block text =
      (separator.block after).map fun (lines, left) => (line :: lines, left) := by
  rw [block]
  split
  · exact absurd (split.symm.trans ‹_›) (Option.some_ne_none _)
  · cases split.symm.trans ‹_›
    exact absurd rfl nonempty
  · cases split.symm.trans ‹_›
    rfl

/-- The lines of a block come back, and what is behind it. -/
theorem block_lines {lines : List (List α)} (free : ∀ line ∈ lines, separator.head ∉ line)
    (nonempty : ∀ line ∈ lines, line ≠ []) (left : List α) :
    separator.block (lines.flatMap (fun line => line ++ separator.toList) ++
      (separator.toList ++ left)) = some (lines, left) := by
  induction lines with
  | nil =>
    refine separator.block_of_empty ?_
    exact separator.splitFirst_append (List.not_mem_nil) left
  | cons line rest inductionHypothesis =>
    rw [List.flatMap_cons, List.append_assoc, List.append_assoc]
    rw [separator.block_of_line (nonempty line List.mem_cons_self)
      (separator.splitFirst_append (free line List.mem_cons_self) _)]
    rw [inductionHypothesis (fun other member => free other (List.mem_cons_of_mem _ member))
      fun other member => nonempty other (List.mem_cons_of_mem _ member)]
    rfl

end Separator

end Nattan
