import Mathlib.Data.List.Basic
import Mathlib.Data.Nat.ModEq
import Mathlib.Tactic.Common

/-!
# Windows into a circular array

`window cells start count` lists the `count` cells met when walking from cell
`start` and continuing at cell `0` after the last one.  It is the abstraction
function of every ring buffer: appending an element writes the cell after the
window, removing elements moves the start forward.
-/

namespace Lpc17xx.Ring

universe u

variable {α : Type u} [Inhabited α]

/-- The `count` cells from `start` on, read around the end of the array. -/
def window (cells : List α) (start count : Nat) : List α :=
  (List.range count).map fun offset =>
    cells.getD ((start + offset) % cells.length) default

@[simp]
theorem window_zero (cells : List α) (start : Nat) : window cells start 0 = [] :=
  rfl

@[simp]
theorem length_window (cells : List α) (start count : Nat) :
    (window cells start count).length = count := by
  simp [window]

/-- A window splits into two consecutive ones. -/
theorem window_add (cells : List α) (start first second : Nat) :
    window cells start (first + second) =
      window cells start first ++ window cells ((start + first) % cells.length) second := by
  simp only [window, List.range_add, List.map_append, List.map_map, List.append_cancel_left_eq]
  apply List.map_congr_left
  intro offset _
  simp [Nat.add_assoc]

theorem take_window (cells : List α) (start : Nat) {first count : Nat} (le : first ≤ count) :
    (window cells start count).take first = window cells start first := by
  rcases Nat.exists_eq_add_of_le le with ⟨rest, rfl⟩
  rw [window_add, List.take_left' (length_window _ _ _)]

theorem drop_window (cells : List α) (start : Nat) {first count : Nat} (le : first ≤ count) :
    (window cells start count).drop first =
      window cells ((start + first) % cells.length) (count - first) := by
  rcases Nat.exists_eq_add_of_le le with ⟨rest, rfl⟩
  rw [window_add, List.drop_left' (length_window _ _ _), Nat.add_sub_cancel_left]

/-- Two offsets of one turn address the same cell only if they are equal. -/
theorem slot_injective {size start first second : Nat} (firstLt : first < size)
    (secondLt : second < size) (same : (start + first) % size = (start + second) % size) :
    first = second := by
  have congruent : first ≡ second [MOD size] := Nat.ModEq.add_left_cancel' start same
  exact congruent.eq_of_lt_of_lt firstLt secondLt

/-- Writing the first cell after a window that leaves room for it does not
disturb the window. -/
theorem window_set_next (cells : List α) (start : Nat) (value : α) {count : Nat}
    (room : count < cells.length) :
    window (cells.set ((start + count) % cells.length) value) start count =
      window cells start count := by
  simp only [window, List.length_set]
  apply List.map_congr_left
  intro offset offsetMem
  have offsetLt : offset < count := List.mem_range.mp offsetMem
  have apart : (start + count) % cells.length ≠ (start + offset) % cells.length := by
    intro same
    have equal := slot_injective room (by omega) same
    omega
  rw [List.getD_eq_getElem?_getD, List.getD_eq_getElem?_getD, List.getElem?_set_ne apart]

/-- Writing the first cell after the window appends its value. -/
theorem window_set_snoc (cells : List α) (start : Nat) (value : α) {count : Nat}
    (room : count < cells.length) :
    window (cells.set ((start + count) % cells.length) value) start (count + 1) =
      window cells start count ++ [value] := by
  have slotLt : (start + count) % cells.length < cells.length := Nat.mod_lt _ (by omega)
  rw [window_add, window_set_next cells start value room, List.append_cancel_left_eq]
  simp [window, slotLt]

end Lpc17xx.Ring
