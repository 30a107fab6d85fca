import Lpc17xx.Packets.Record
import Mathlib.Data.List.Pairwise

/-!
# Packets side by side

No two packets share memory, and none shares any with the head of the queue.  So a packet is
queued or taken off the queue without a change to the fields of any packet.
-/

namespace Lpc17xx.Packets

open Lpc17xx.Link
open Lpc17xx.Memory
open Lpc17xx.Protocol

/-- `&pkt->cur_q`. -/
def Parcel.node (parcel : Parcel) : Nat :=
  parcel.block + 28

/-- Ranges that are apart from each other and from `pkt_rx_q`. -/
structure Layout (queue : RxQueue) (ranges : List (Nat × Nat)) : Prop where
  apart : ((queue.pktRxQ, 8) :: ranges).Pairwise Apart
  spans : ∀ range ∈ ranges, Spans range

/-- The packets are in `pkt_rx_q`, in this order, and as they were injected. -/
structure Waiting (queue : RxQueue) (memory : Bytes) (parcels : List Parcel) : Prop where
  ring : (Stored.linksIn memory).Ring queue.pktRxQ (parcels.map Parcel.node)
  recorded : ∀ parcel ∈ parcels,
    Recorded memory parcel ∧ pktHandler memory parcel.block = parcel.type

variable {queue : RxQueue} {memory memory' : Bytes} {parcel : Parcel} {parcels : List Parcel}
  {ranges ranges' : List (Nat × Nat)}

section Layout

theorem Layout.perm (layout : Layout queue ranges) (perm : ranges.Perm ranges') :
    Layout queue ranges' where
  apart := ((perm.cons _).pairwise_iff Apart.symm).mp layout.apart
  spans := fun range member => layout.spans range (perm.mem_iff.mpr member)

theorem Layout.sublist (layout : Layout queue ranges) (sublist : ranges'.Sublist ranges) :
    Layout queue ranges' where
  apart := layout.apart.sublist (sublist.cons_cons _)
  spans := fun range member => layout.spans range (sublist.subset member)

/-- Two packets are one, or they are apart. -/
theorem Layout.eq_or_apart (layout : Layout queue ranges) {other : Parcel}
    (member : (parcel.block, 36) ∈ ranges) (member' : (other.block, 36) ∈ ranges) :
    parcel.block = other.block ∨ Apart (parcel.block, 36) (other.block, 36) := by
  rcases List.pairwise_cons.mp layout.apart with ⟨_, apart⟩
  by_cases same : parcel.block = other.block
  · exact .inl same
  · exact .inr (apart.forall member member' fun equal => same (congrArg Prod.fst equal))

theorem Layout.apart_head (layout : Layout queue ranges) {range : Nat × Nat}
    (member : range ∈ ranges) : Apart (queue.pktRxQ, 8) range :=
  (List.pairwise_cons.mp layout.apart).1 range member

/-- The nodes of packets do not overlap. -/
theorem Layout.placed (layout : Layout queue ranges)
    (owners : ∀ parcel ∈ parcels, (parcel.block, 36) ∈ ranges) :
    Stored.Placed (queue.pktRxQ :: parcels.map Parcel.node) where
  below := by
    refine List.forall_mem_cons.mpr ⟨queue.below, List.forall_mem_map.mpr fun parcel member => ?_⟩
    have spans := layout.spans _ (owners parcel member)
    unfold Spans at spans
    unfold Parcel.node
    omega
  apart := by
    have heads : ∀ parcel ∈ parcels,
        queue.pktRxQ + 8 ≤ parcel.node ∨ parcel.node + 8 ≤ queue.pktRxQ := by
      intro parcel member
      have apart := layout.apart_head (owners parcel member)
      unfold Apart at apart
      unfold Parcel.node
      omega
    refine List.forall_mem_cons.mpr ⟨?_, List.forall_mem_map.mpr fun parcel member => ?_⟩
    · exact List.forall_mem_cons.mpr ⟨.inl rfl, List.forall_mem_map.mpr fun parcel member =>
        .inr (heads parcel member)⟩
    · refine List.forall_mem_cons.mpr
        ⟨.inr (Or.symm (heads parcel member)), List.forall_mem_map.mpr fun other member' => ?_⟩
      have apart := layout.eq_or_apart (owners parcel member) (owners other member')
      unfold Apart at apart
      unfold Parcel.node
      omega

/-- The fields of a packet are not among the nodes, its own included. -/
theorem Layout.fields_outside (layout : Layout queue ranges)
    (member : (parcel.block, 36) ∈ ranges)
    (owners : ∀ parcel ∈ parcels, (parcel.block, 36) ∈ ranges) {i : Nat} (bound : i < 28) :
    ∀ node ∈ queue.pktRxQ :: parcels.map Parcel.node,
      parcel.block + i < node ∨ node + 8 ≤ parcel.block + i := by
  refine List.forall_mem_cons.mpr ⟨?_, List.forall_mem_map.mpr fun other member' => ?_⟩
  · have apart := layout.apart_head member
    unfold Apart at apart
    omega
  · have apart := layout.eq_or_apart member (owners other member')
    unfold Apart at apart
    unfold Parcel.node
    omega

end Layout

section Queue

theorem block_mem_flatMap (member : parcel ∈ parcels) :
    (parcel.block, 36) ∈ parcels.flatMap Parcel.ranges :=
  List.mem_flatMap_of_mem member (List.mem_cons_of_mem _ List.mem_cons_self)

/-- Writes elsewhere leave the queue and its packets alone. -/
theorem Waiting.congr (waiting : Waiting queue memory parcels)
    (same : ∀ range ∈ (queue.pktRxQ, 8) :: parcels.flatMap Parcel.ranges,
      Same memory memory' range) : Waiting queue memory' parcels where
  ring := by
    refine Stored.ring_congr waiting.ring (List.forall_mem_cons.mpr ⟨?_, ?_⟩)
    · exact same _ List.mem_cons_self
    · refine List.forall_mem_map.mpr fun parcel member => ?_
      exact (same _ (List.mem_cons_of_mem _ (block_mem_flatMap member))).part (by decide)
  recorded := by
    intro parcel member
    have fields : Same memory memory' (parcel.block, 28) :=
      (same _ (List.mem_cons_of_mem _ (block_mem_flatMap member))).part
        (by decide : 0 + 28 ≤ 36)
    rcases waiting.recorded parcel member with ⟨recorded, type⟩
    exact ⟨recorded.congr fields, (pktHandler_congr fields).trans type⟩

/-- A new packet is queued: no field of any packet changes. -/
theorem Waiting.inject (waiting : Waiting queue memory parcels)
    (layout : Layout queue (parcel.ranges ++ ranges))
    (owners : ∀ parcel ∈ parcels, (parcel.block, 36) ∈ ranges) :
    (Stored.linksIn (Stored.listAdd memory parcel.node queue.pktRxQ)).Ring queue.pktRxQ
        ((parcel :: parcels).map Parcel.node) ∧
      ∀ other : Parcel, (other.block, 36) ∈ parcel.ranges ++ ranges →
        Same memory (Stored.listAdd memory parcel.node queue.pktRxQ) (other.block, 28) := by
  have own : (parcel.block, 36) ∈ parcel.ranges ++ ranges :=
    List.mem_cons_of_mem _ List.mem_cons_self
  have all : ∀ each ∈ parcel :: parcels, (each.block, 36) ∈ parcel.ranges ++ ranges :=
    List.forall_mem_cons.mpr
      ⟨own, fun each member => List.mem_append_right _ (owners each member)⟩
  have reordered : parcel.node :: queue.pktRxQ :: parcels.map Parcel.node ⊆
      queue.pktRxQ :: (parcel :: parcels).map Parcel.node :=
    (List.Perm.swap _ _ _).subset
  constructor
  · refine Stored.ring_listAdd waiting.ring ((layout.placed all).subset reordered) ?_
    intro known
    rcases List.mem_cons.mp known with head | queued
    · have apart := layout.apart_head own
      unfold Apart at apart
      unfold Parcel.node at head
      omega
    · rcases List.mem_map.mp queued with ⟨other, member, equal⟩
      have blocks : other.block = parcel.block := Nat.add_right_cancel equal
      rcases List.pairwise_append.mp (List.pairwise_cons.mp layout.apart).2 with ⟨_, _, apart⟩
      have twice := apart _ (List.mem_cons_of_mem _ List.mem_cons_self) _ (owners other member)
      unfold Apart at twice
      omega
  · intro other member i bound
    refine Stored.listAdd_of_outside waiting.ring fun node known => ?_
    exact layout.fields_outside member all bound node (reordered known)

/-- The latest packet is taken off the queue: again no field changes. -/
theorem Waiting.pop (waiting : Waiting queue memory (parcel :: parcels))
    (layout : Layout queue ranges)
    (owners : ∀ each ∈ parcel :: parcels, (each.block, 36) ∈ ranges) :
    (Stored.linksIn (Stored.listDel memory parcel.node)).Ring queue.pktRxQ
        (parcels.map Parcel.node) ∧
      ∀ other : Parcel, (other.block, 36) ∈ ranges →
        Same memory (Stored.listDel memory parcel.node) (other.block, 28) := by
  have placed := layout.placed owners
  have member : parcel.node ∈ (parcel :: parcels).map Parcel.node := List.mem_cons_self
  constructor
  · have rest := Stored.ring_listDel waiting.ring placed member
    rw [List.map_cons, Link.listDel, List.erase_cons_head] at rest
    exact rest
  · intro other inside i bound
    refine Stored.listDel_of_outside waiting.ring placed member fun node known => ?_
    exact layout.fields_outside inside owners bound node known

end Queue

end Lpc17xx.Packets
