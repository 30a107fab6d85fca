import Mathlib.Data.List.Basic
import Mathlib.Tactic.Common

/-!
# Copying into a heap block

A block is the list of its bytes.  A copy that starts or ends behind the block
leaves in it what falls inside; what it does to the neighbours is not followed.
-/

namespace Lpc17xx.Memory

universe u

variable {α : Type u}

/-- `block` with `source` copied to `offset`. -/
def copyAt (block : List α) (offset : Nat) (source : List α) : List α :=
  block.take offset ++ source.take (block.length - offset) ++ block.drop (offset + source.length)

/-- Copying the first part of a block. -/
theorem copyAt_zero (first first' rest : List α) (size : first'.length = first.length) :
    copyAt (first ++ rest) 0 first' = first' ++ rest := by
  have whole : first'.take (first.length + rest.length) = first' :=
    List.take_of_length_le (by omega)
  simp [copyAt, size, whole]

/-- Copying the rest of a block. -/
theorem copyAt_rest (first rest rest' : List α) (size : rest'.length = rest.length) :
    copyAt (first ++ rest) first.length rest' = first ++ rest' := by
  have whole : rest'.take rest.length = rest' := List.take_of_length_le (by omega)
  simp [copyAt, size, whole]

theorem length_copyAt (block : List α) (offset : Nat) (source : List α) :
    (copyAt block offset source).length = block.length := by
  simp only [copyAt, List.length_append, List.length_take, List.length_drop]
  omega

/-- A copy keeps every cell that it does not reach. -/
theorem getElem?_copyAt_of_outside {block source : List α} {offset i : Nat}
    (inside : offset ≤ block.length) (outside : i < offset ∨ offset + source.length ≤ i) :
    (copyAt block offset source)[i]? = block[i]? := by
  rcases outside with before | behind
  · rw [copyAt, List.append_assoc, List.getElem?_append_left (by simp; omega),
      List.getElem?_take_of_lt before]
  · rcases Nat.lt_or_ge i block.length with held | past
    · rw [copyAt, List.getElem?_append_right (by simp; omega), List.getElem?_drop]
      congr 1
      simp only [List.length_append, List.length_take]
      omega
    · rw [List.getElem?_eq_none (by rw [length_copyAt]; exact past), List.getElem?_eq_none past]

/-- Of two copies into a block for both, the second of which goes to the offset
of its own length, some cell is reached by neither unless they are of one
length. -/
theorem exists_kept_of_length_ne {block first second : List α}
    (size : block.length = first.length + second.length) (nonempty : 0 < second.length)
    (unequal : second.length ≠ first.length) :
    ∃ i < block.length, (copyAt (copyAt block 0 first) second.length second)[i]? = block[i]? := by
  have length := length_copyAt block 0 first
  rcases Nat.lt_or_gt_of_ne unequal with shorter | longer
  · refine ⟨block.length - 1, by omega, ?_⟩
    rw [getElem?_copyAt_of_outside (by omega) (.inr (by omega)),
      getElem?_copyAt_of_outside (by omega) (.inr (by omega))]
  · refine ⟨first.length, by omega, ?_⟩
    rw [getElem?_copyAt_of_outside (by omega) (.inl longer),
      getElem?_copyAt_of_outside (by omega) (.inr (by omega))]

end Lpc17xx.Memory
