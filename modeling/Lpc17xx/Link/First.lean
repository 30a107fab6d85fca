import Mathlib.Data.List.Basic

/-!
# The first entry with a label

A search through a list by a label that several entries may carry finds the first of
them.  The rules say which changes of the list leave an entry the first with its
label.
-/

namespace Lpc17xx.Link

universe u v

variable {α : Type u} {κ : Type v} [DecidableEq κ] (label : α → κ)

/-- An entry is the first on the list with its label. -/
def First (list : List α) (entry : α) : Prop :=
  (list.find? fun other => label other = label entry) = some entry

variable {label} {list : List α} {entry : α}

theorem First.mem (first : First label list entry) : entry ∈ list :=
  List.mem_of_find?_eq_some first

/-- No two entries are the first with one label. -/
theorem First.unique {other : α} (first : First label list entry)
    (second : First label list other) (same : label entry = label other) : entry = other := by
  rw [First, same] at first
  exact Option.some.inj (first.symm.trans second)

theorem first_cons_self (entry : α) (list : List α) : First label (entry :: list) entry :=
  List.find?_cons_of_pos (decide_eq_true rfl)

/-- A new entry in front leaves those with other labels first. -/
theorem First.cons {new : α} (first : First label list entry) (other : label new ≠ label entry) :
    First label (new :: list) entry := by
  rw [First, List.find?_cons_of_neg (by simpa using other)]
  exact first

/-- The only entry with its label is the first one. -/
theorem first_of_unique (member : entry ∈ list)
    (unique : ∀ other ∈ list, label other = label entry → other = entry) :
    First label list entry := by
  cases found : list.find? fun other => label other = label entry with
  | none =>
      have absent := List.find?_eq_none.mp found entry member
      exact absurd (decide_eq_true rfl) absent
  | some other =>
      have same : label other = label entry := by
        simpa using List.find?_some found
      rw [First, found, unique other (List.mem_of_find?_eq_some found) same]

/-- Entries may be dropped and changed, as long as no other entry takes the label. -/
theorem First.filterMap {change : α → Option α} {entry' : α} (first : First label list entry)
    (kept : change entry = some entry')
    (labels : ∀ other ∈ list, ∀ other', change other = some other' →
      label other' = label entry' → label other = label entry) :
    First label (list.filterMap change) entry' := by
  induction list with
  | nil => contradiction
  | cons head tail ih =>
      have labelsTail := fun other member => labels other (List.mem_cons_of_mem head member)
      by_cases here : label head = label entry
      · rw [First, List.find?_cons_of_pos (by simpa using here)] at first
        cases first
        rw [List.filterMap_cons_some kept]
        exact first_cons_self entry' _
      · rw [First, List.find?_cons_of_neg (by simpa using here)] at first
        cases changed : change head with
        | none =>
            rw [List.filterMap_cons_none changed]
            exact ih first labelsTail
        | some head' =>
            rw [List.filterMap_cons_some changed]
            apply (ih first labelsTail).cons
            exact fun taken => here (labels head List.mem_cons_self head' changed taken)

end Lpc17xx.Link
