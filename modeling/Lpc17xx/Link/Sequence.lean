import Mathlib.Data.List.Basic

/-!
# The lists of `list.c` as sequences

A list is the sequence of what is linked behind its head, the first element
first.
-/

namespace Lpc17xx.Link

universe u

variable {α : Type u}

/-- `list_add`: behind the head, in front of everything else. -/
def listAdd (new : α) (list : List α) : List α :=
  new :: list

/-- `list_add_tail`. -/
def listAddTail (new : α) (list : List α) : List α :=
  list ++ [new]

/-- `list_pop`: the element behind the head, and the list without it. -/
def listPop : List α → Option α × List α
  | [] => (none, [])
  | entry :: rest => (some entry, rest)

theorem eq_cons_of_listPop {list rest : List α} {entry : α}
    (popped : listPop list = (some entry, rest)) : list = entry :: rest := by
  cases list with
  | nil => cases popped
  | cons first others =>
      cases popped
      rfl

/-- `list_del`. -/
def listDel [DecidableEq α] (entry : α) (list : List α) : List α :=
  list.erase entry

/-- Deleting the entry that a search has found. -/
theorem listDel_of_find? [DecidableEq α] {wanted : α → Bool} {list : List α} {entry : α}
    (found : list.find? wanted = some entry) : listDel entry list = list.eraseP wanted := by
  induction list with
  | nil => contradiction
  | cons first rest ih =>
      by_cases here : wanted first
      · rw [List.find?_cons_of_pos here] at found
        cases found
        rw [listDel, List.erase_cons_head, List.eraseP_cons_of_pos here]
      · rw [List.find?_cons_of_neg here] at found
        have other : first ≠ entry := by
          rintro rfl
          exact here (List.find?_some found)
        rw [listDel, List.erase_cons_tail (by simpa using other), List.eraseP_cons_of_neg here,
          ← ih found, listDel]

end Lpc17xx.Link
