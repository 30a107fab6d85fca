import Lpc17xx.Link.Ring

/-!
# Histories of list calls

Which nodes the calls of `list_add` and `list_del` so far have linked, when no node is
linked that is linked already and none unlinked that is not.  Two lists in one memory are
rings of those nodes; a call on one leaves the other alone.
-/

namespace Lpc17xx.Link

universe u

variable {α : Type u}

/-- A call of `list_add` or `list_del`. -/
inductive ListCall (α : Type u) where
  | add (node : α)
  | del (node : α)

namespace ListCall

/-- The latest call for the node, if any, has linked it.  The latest call of all is the
first of the list. -/
def LinkedBy : List (ListCall α) → α → Prop
  | [], _ => False
  | .add other :: calls, node => node = other ∨ LinkedBy calls node
  | .del other :: calls, node => node ≠ other ∧ LinkedBy calls node

/-- No call links a node twice or unlinks it twice. -/
def Proper : List (ListCall α) → Prop
  | [] => True
  | .add node :: calls => ¬LinkedBy calls node ∧ Proper calls
  | .del node :: calls => LinkedBy calls node ∧ Proper calls

end ListCall

open ListCall

/-- Two lists in one memory, which hold just the nodes that the calls have linked. -/
structure Lists (links : Links α) (calls : List (ListCall α)) (head : α) (nodes : List α)
    (head' : α) (nodes' : List α) : Prop where
  ring : links.Ring head nodes
  ring' : links.Ring head' nodes'
  apart : ∀ node ∈ head :: nodes, node ∉ head' :: nodes'
  proper : Proper calls
  linked : ∀ node, LinkedBy calls node ↔ node ∈ nodes ∨ node ∈ nodes'

namespace Lists

variable {links : Links α} {calls : List (ListCall α)} {head head' new entry null : α}
  {nodes nodes' : List α}

theorem symm (lists : Lists links calls head nodes head' nodes') :
    Lists links calls head' nodes' head nodes where
  ring := lists.ring'
  ring' := lists.ring
  apart := fun node member other => lists.apart node other member
  proper := lists.proper
  linked := fun node => (lists.linked node).trans or_comm

variable [DecidableEq α]

theorem listAdd (lists : Lists links calls head nodes head' nodes') (fresh : new ∉ head :: nodes)
    (fresh' : new ∉ head' :: nodes') :
    Lists (links.listAdd new head) (.add new :: calls) head (Link.listAdd new nodes)
      head' nodes' where
  ring := lists.ring.listAdd fresh
  ring' := by
    have elsewhere {node : α} (member : node ∈ head' :: nodes') : node ∉ head :: nodes ∧
        node ≠ new :=
      ⟨fun other => lists.apart node other member, ne_of_mem_of_not_mem member fresh'⟩
    refine lists.ring'.congr ?_ ?_
    · intro node member
      rcases elsewhere member with ⟨apart, notNew⟩
      exact (lists.ring.listAdd_of_apart apart notNew).1
    · intro node member
      rcases elsewhere member with ⟨apart, notNew⟩
      exact (lists.ring.listAdd_of_apart apart notNew).2
  apart := by
    intro node member
    rcases List.mem_cons.mp member with rfl | inside
    · exact lists.apart node List.mem_cons_self
    · rcases List.mem_cons.mp inside with rfl | before
      · exact fresh'
      · exact lists.apart node (List.mem_cons_of_mem head before)
  proper := by
    refine ⟨?_, lists.proper⟩
    rw [lists.linked]
    rintro (member | member)
    · exact fresh (List.mem_cons_of_mem head member)
    · exact fresh' (List.mem_cons_of_mem head' member)
  linked := by
    intro node
    rw [LinkedBy, lists.linked, Link.listAdd, List.mem_cons, or_assoc]

theorem listDel (lists : Lists links calls head nodes head' nodes') (member : entry ∈ nodes) :
    Lists (links.listDel null entry) (.del entry :: calls) head (Link.listDel entry nodes)
      head' nodes' where
  ring := lists.ring.listDel_of_mem member
  ring' := by
    have elsewhere {node : α} (other : node ∈ head' :: nodes') : node ∉ head :: nodes :=
      fun inside => lists.apart node inside other
    refine lists.ring'.congr ?_ ?_
    · intro node other
      exact (lists.ring.listDel_of_apart member (elsewhere other)).1
    · intro node other
      exact (lists.ring.listDel_of_apart member (elsewhere other)).2
  apart := by
    intro node inside
    apply lists.apart node
    rcases List.mem_cons.mp inside with rfl | left
    · exact List.mem_cons_self
    · exact List.mem_cons_of_mem head (List.mem_of_mem_erase left)
  proper := ⟨(lists.linked entry).mpr (.inl member), lists.proper⟩
  linked := by
    intro node
    have nodup := (List.nodup_cons.mp lists.ring.nodup).2
    have notThere : entry ∉ nodes' := fun other =>
      lists.apart entry (List.mem_cons_of_mem head member) (List.mem_cons_of_mem head' other)
    rw [LinkedBy, lists.linked, Link.listDel, nodup.mem_erase_iff]
    constructor
    · rintro ⟨notEntry, inside | other⟩
      · exact .inl ⟨notEntry, inside⟩
      · exact .inr other
    · rintro (⟨notEntry, inside⟩ | other)
      · exact ⟨notEntry, .inl inside⟩
      · exact ⟨ne_of_mem_of_not_mem other notThere, .inr other⟩

/-- What is on neither list can be written. -/
theorem write {node next prev : α} (lists : Lists links calls head nodes head' nodes')
    (apart : node ∉ head :: nodes) (apart' : node ∉ head' :: nodes') :
    Lists { next := Function.update links.next node next
            prev := Function.update links.prev node prev }
      calls head nodes head' nodes' where
  ring := lists.ring.congr
    (fun _ member => Function.update_of_ne (ne_of_mem_of_not_mem member apart) _ _)
    (fun _ member => Function.update_of_ne (ne_of_mem_of_not_mem member apart) _ _)
  ring' := lists.ring'.congr
    (fun _ member => Function.update_of_ne (ne_of_mem_of_not_mem member apart') _ _)
    (fun _ member => Function.update_of_ne (ne_of_mem_of_not_mem member apart') _ _)
  apart := lists.apart
  proper := lists.proper
  linked := lists.linked

end Lists

end Lpc17xx.Link
