import Mathlib.Data.List.Nodup

/-!
# Lists of keyed entries

A list whose entries carry a key of their own, such as an address, and in which
no two entries share one.  An entry is found, replaced and removed by its key.
-/

namespace Lpc17xx.Link

universe u v

variable {α : Type u} {κ : Type v} [DecidableEq κ] (keyOf : α → κ)

/-- The entry with a key. -/
def lookup (key : κ) (list : List α) : Option α :=
  list.find? fun entry => keyOf entry = key

/-- Put an entry in the place of the one with the same key. -/
def store (new : α) (list : List α) : List α :=
  list.map fun entry => if keyOf entry = keyOf new then new else entry

/-- The list without the entry that has a key. -/
def remove (key : κ) (list : List α) : List α :=
  list.filter fun entry => keyOf entry ≠ key

/-- The entry behind the one with a key. -/
def successor (key : κ) : List α → Option α
  | [] => none
  | entry :: rest => if keyOf entry = key then rest.head? else successor key rest

variable {keyOf}

theorem lookup_eq_some {key : κ} {list : List α} {entry : α}
    (found : lookup keyOf key list = some entry) : entry ∈ list ∧ keyOf entry = key := by
  refine ⟨List.mem_of_find?_eq_some found, ?_⟩
  simpa using List.find?_some found

/-- What is on the list after a replacement. -/
theorem mem_store {new entry : α} {list : List α} (member : entry ∈ store keyOf new list) :
    entry = new ∨ entry ∈ list ∧ keyOf entry ≠ keyOf new := by
  rcases List.mem_map.mp member with ⟨old, oldMember, rfl⟩
  split
  · exact .inl rfl
  · rename_i other
    exact .inr ⟨oldMember, other⟩

theorem mem_store_self {new old : α} {list : List α} (member : old ∈ list)
    (same : keyOf old = keyOf new) : new ∈ store keyOf new list :=
  List.mem_map.mpr ⟨old, member, if_pos same⟩

@[simp]
theorem map_store (new : α) (list : List α) :
    (store keyOf new list).map keyOf = list.map keyOf := by
  rw [store, List.map_map]
  apply List.map_congr_left
  intro entry _
  change keyOf (if keyOf entry = keyOf new then new else entry) = keyOf entry
  split
  · rename_i same
    exact same.symm
  · rfl

theorem mem_remove {key : κ} {list : List α} {entry : α} :
    entry ∈ remove keyOf key list ↔ entry ∈ list ∧ keyOf entry ≠ key := by
  simp [remove]

theorem nodup_remove {key : κ} {list : List α} (distinct : (list.map keyOf).Nodup) :
    ((remove keyOf key list).map keyOf).Nodup :=
  distinct.sublist (List.filter_sublist.map keyOf)

omit [DecidableEq κ] in
/-- An entry is determined by its key. -/
theorem eq_of_key {list : List α} (distinct : (list.map keyOf).Nodup) {first second : α}
    (firstMember : first ∈ list) (secondMember : second ∈ list)
    (same : keyOf first = keyOf second) : first = second :=
  List.inj_on_of_nodup_map distinct firstMember secondMember same

/-- Nothing is replaced where the key does not occur. -/
theorem store_eq_self {new : α} {list : List α} (fresh : keyOf new ∉ list.map keyOf) :
    store keyOf new list = list := by
  have unchanged : ∀ entry ∈ list,
      (if keyOf entry = keyOf new then new else entry) = id entry := by
    intro entry member
    apply if_neg
    intro clash
    exact fresh (clash ▸ List.mem_map_of_mem member)
  rw [store, List.map_congr_left unchanged, List.map_id]

/-- Replacing at the position of an entry replaces by its key. -/
theorem set_eq_store {list : List α} (distinct : (list.map keyOf).Nodup) {index : Nat}
    {old new : α} (found : list[index]? = some old) (same : keyOf old = keyOf new) :
    list.set index new = store keyOf new list := by
  induction list generalizing index with
  | nil => contradiction
  | cons head tail ih =>
      rcases List.nodup_cons.mp distinct with ⟨fresh, distinctTail⟩
      cases index with
      | zero =>
          cases found
          have untouched : store keyOf new tail = tail := store_eq_self (same ▸ fresh)
          rw [List.set_cons_zero]
          change new :: tail = (if keyOf old = keyOf new then new else old) :: store keyOf new tail
          rw [if_pos same, untouched]
      | succ index =>
          have foundTail : tail[index]? = some old := found
          have member : keyOf old ∈ tail.map keyOf :=
            List.mem_map_of_mem (List.mem_of_getElem? foundTail)
          have other : keyOf head ≠ keyOf new := by
            intro clash
            exact fresh (clash.trans same.symm ▸ member)
          rw [List.set_cons_succ, ih distinctTail foundTail]
          change head :: store keyOf new tail =
            (if keyOf head = keyOf new then new else head) :: store keyOf new tail
          rw [if_neg other]

/-- An entry is found by its key. -/
theorem lookup_of_mem {list : List α} (distinct : (list.map keyOf).Nodup) {entry : α}
    (member : entry ∈ list) : lookup keyOf (keyOf entry) list = some entry := by
  cases found : lookup keyOf (keyOf entry) list with
  | none =>
      have other := List.find?_eq_none.mp found entry member
      exact absurd (decide_eq_true rfl) other
  | some same =>
      rcases lookup_eq_some found with ⟨sameMember, sameKey⟩
      rw [eq_of_key distinct sameMember member sameKey]

theorem exists_lookup {list : List α} {key : κ} (member : key ∈ list.map keyOf) :
    ∃ entry, lookup keyOf key list = some entry := by
  rcases List.mem_map.mp member with ⟨entry, entryMember, same⟩
  exact Option.isSome_iff_exists.mp
    (List.find?_isSome.mpr ⟨entry, entryMember, decide_eq_true same⟩)

/-- What was stored is found again. -/
theorem lookup_store {new : α} {list : List α} (member : keyOf new ∈ list.map keyOf) :
    lookup keyOf (keyOf new) (store keyOf new list) = some new := by
  obtain ⟨entry, found⟩ := @exists_lookup α κ _ keyOf (store keyOf new list) (keyOf new)
    (by rw [map_store]; exact member)
  rcases lookup_eq_some found with ⟨entryMember, same⟩
  rcases mem_store entryMember with rfl | ⟨_, other⟩
  · exact found
  · exact absurd same other

/-- The second of two replacements counts. -/
theorem store_store {first second : α} (same : keyOf first = keyOf second) (list : List α) :
    store keyOf second (store keyOf first list) = store keyOf second list := by
  rw [store, store, store, List.map_map]
  apply List.map_congr_left
  intro entry _
  by_cases here : keyOf entry = keyOf first
  · simp only [Function.comp_apply, if_pos here, if_pos same, if_pos (here.trans same)]
  · simp only [Function.comp_apply, if_neg here]

theorem mem_of_successor {key : κ} {list : List α} {entry : α}
    (next : successor keyOf key list = some entry) : entry ∈ list := by
  induction list with
  | nil => contradiction
  | cons first rest ih =>
      rw [successor] at next
      split at next
      · exact List.mem_cons_of_mem first (List.mem_of_head? next)
      · exact List.mem_cons_of_mem first (ih next)

/-- The successor of an entry, by its place in the list. -/
theorem successor_append {before after : List α} {entry : α}
    (distinct : ((before ++ entry :: after).map keyOf).Nodup) :
    successor keyOf (keyOf entry) (before ++ entry :: after) = after.head? := by
  induction before with
  | nil => exact if_pos rfl
  | cons first rest ih =>
      rcases List.nodup_cons.mp distinct with ⟨fresh, distinctRest⟩
      have other : keyOf first ≠ keyOf entry := by
        intro same
        apply fresh
        rw [same]
        exact List.mem_map_of_mem (List.mem_append_right rest List.mem_cons_self)
      rw [List.cons_append, successor, if_neg other]
      exact ih distinctRest

end Lpc17xx.Link