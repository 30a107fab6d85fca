import Mathlib.Data.List.Induction
import Mathlib.Tactic.Common

/-!
# Groups ended by a marker

A sequence whose elements may carry an end marker splits into the groups that
are complete and a rest that is not.
-/

namespace Lpc17xx.Stream

universe u

variable {α : Type u} (isLast : α → Bool)

/-- One more element joins the rest; with a marker, it completes a group. -/
def addToGroups (split : List (List α) × List α) (element : α) : List (List α) × List α :=
  if isLast element then (split.1 ++ [split.2 ++ [element]], [])
  else (split.1, split.2 ++ [element])

/-- The complete groups of a sequence, and the rest. -/
def groups (elements : List α) : List (List α) × List α :=
  elements.foldl (addToGroups isLast) ([], [])

theorem groups_snoc (elements : List α) (element : α) :
    groups isLast (elements ++ [element]) =
      addToGroups isLast (groups isLast elements) element := by
  simp [groups]

/-- A group that is complete stays so. -/
theorem groups_fst_prefix (elements more : List α) :
    (groups isLast elements).1 <+: (groups isLast (elements ++ more)).1 := by
  induction more using List.reverseRecOn with
  | nil => simp
  | append_singleton more element ih =>
      rw [← List.append_assoc, groups_snoc, addToGroups]
      split
      · exact ih.trans (List.prefix_append _ _)
      · exact ih

end Lpc17xx.Stream
