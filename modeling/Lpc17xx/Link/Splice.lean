import Lpc17xx.Link.Family

/-!
# Splicing two lists

`list_splice` is to put the nodes of one list in front of those of another.  It writes the
link of the second head before it reads it again for the link of the last node, so the last
node is led back to the first, and no walk from the head comes back to it.
-/

namespace Lpc17xx.Link

universe u

variable {α : Type u}

namespace Links

/-- What a splice should leave behind a head: the nodes in order, come by in a walk that
ends, with `prev` the inverse of `next`. -/
structure Joined [DecidableEq α] (links : Links α) (head : α) (nodes : List α) : Prop where
  walk : ∃ rounds, links.listForEach head rounds = some nodes
  inverse : links.Inverse (head :: nodes)

variable [DecidableEq α]

/-- `list_splice`, with the list `from` at `fromHead`.  The link of the head has been
written when the third and the fourth assignment read it. -/
def listSplice (links : Links α) (fromHead head : α) : Links α :=
  let first := links.next fromHead
  let last := links.prev fromHead
  let links := { links with prev := Function.update links.prev first head }
  let links := { links with next := Function.update links.next head first }
  let links := { links with next := Function.update links.next last (links.next head) }
  { links with prev := Function.update links.prev (links.next head) last }

variable {links : Links α} {fromHead head : α} {nodes nodes' : List α}

/-- A walk does not end when it starts among nodes that lead to one another only. -/
theorem visited_eq_none {inside : α → Prop} (outside : ¬inside head)
    (closed : ∀ node, inside node → inside (links.next node)) {pos : α} (within : inside pos)
    (rounds : Nat) : links.visited head rounds pos = none := by
  have notHead {node : α} (member : inside node) : node ≠ head := by
    rintro rfl
    exact outside member
  induction rounds generalizing pos with
  | zero => rw [visited, if_neg (notHead within)]
  | succ rounds ih => rw [visited, if_neg (notHead within), ih (closed pos within), Option.map_none]

/-- Where the links lead to after a splice. -/
theorem listSplice_next (node : α) :
    (links.listSplice fromHead head).next node =
      if node = links.prev fromHead ∨ node = head then links.next fromHead
      else links.next node := by
  have written : Function.update links.next head (links.next fromHead) head =
      links.next fromHead := Function.update_self _ _ _
  simp only [listSplice, written, Function.update_apply]
  by_cases last : node = links.prev fromHead
  · simp [last]
  · simp [last]

/-- The nodes that were spliced in lead to one another only. -/
theorem Ring.listSplice_closed (ring : links.Ring fromHead nodes)
    (apart : head ∉ fromHead :: nodes) {node : α} (member : node ∈ fromHead :: nodes) :
    (links.listSplice fromHead head).next node ∈ fromHead :: nodes := by
  have notHead : node ≠ head := ne_of_mem_of_not_mem member apart
  rw [listSplice_next]
  by_cases last : node = links.prev fromHead
  · rw [if_pos (.inl last)]
    exact ring.next_head_mem
  · rw [if_neg (not_or.mpr ⟨last, notHead⟩)]
    rcases List.mem_cons.mp member with rfl | inside
    · exact ring.next_head_mem
    · rcases List.append_of_mem inside with ⟨before, behind, rfl⟩
      rcases ring.neighbours.2 with later | same
      · exact List.mem_cons_of_mem fromHead
          (List.mem_append_right before (List.mem_cons_of_mem node later))
      · rw [same]
        exact List.mem_cons_self

/-- After a splice, no walk from the head ends. -/
theorem Ring.listSplice_endless (ring : links.Ring fromHead nodes)
    (apart : head ∉ fromHead :: nodes) (rounds : Nat) :
    (links.listSplice fromHead head).listForEach head rounds = none := by
  have first : (links.listSplice fromHead head).next head = links.next fromHead := by
    rw [listSplice_next, if_pos (.inr rfl)]
  rw [Links.listForEach, first]
  exact visited_eq_none apart (fun _ => ring.listSplice_closed apart) ring.next_head_mem rounds

/-- A splice joins no two lists, whatever their lengths. -/
theorem listSplice_joins_never (ring : links.Ring fromHead nodes) (_ring' : links.Ring head nodes')
    (apart : ∀ node ∈ fromHead :: nodes, node ∉ head :: nodes') :
    ¬(links.listSplice fromHead head).Joined head (nodes ++ nodes') := by
  rintro ⟨⟨rounds, ends⟩, _⟩
  have notThere : head ∉ fromHead :: nodes := fun member => apart head member List.mem_cons_self
  rw [ring.listSplice_endless notThere rounds] at ends
  contradiction

/-- Every even number the head of a list of one, the number that follows. -/
def singletons : Links Nat where
  next node := if node % 2 = 0 then node + 1 else node - 1
  prev node := if node % 2 = 0 then node + 1 else node - 1

theorem singletons_ring (i : Nat) : singletons.Ring (2 * i) [2 * i + 1] := by
  constructor
  · simp [Path, singletons]
  · simp

theorem listSplice_joins_never_singletons :
    ¬(singletons.listSplice 2 0).Joined 0 ([3] ++ [1]) :=
  listSplice_joins_never (singletons_ring 1) (singletons_ring 0) (by decide)

/-- One node in front of another: the link of the head back is not the inverse of its link
forth. -/
theorem listSplice_not_joined :
    singletons.Ring 2 [3] ∧ singletons.Ring 0 [1] ∧
      ¬(singletons.listSplice 2 0).Joined 0 [3, 1] := by
  refine ⟨singletons_ring 1, singletons_ring 0, ?_⟩
  intro joined
  have back := (joined.inverse 0 List.mem_cons_self).1
  revert back
  decide

end Links

end Lpc17xx.Link
