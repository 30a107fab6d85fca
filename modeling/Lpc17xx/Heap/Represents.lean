import Lpc17xx.Heap.Tags

/-!
# Memory that represents a sequence of blocks

The blocks fill the heap, each stands in memory, and the free list is a ring of the nodes
of the free blocks.  What an operation of the allocator writes is its own: tags, free
blocks and the head of the list.  Everything else is foreign to it.
-/

namespace Lpc17xx.Heap

open Lpc17xx.Link
open Lpc17xx.Memory
open Lpc17xx.Tcp (memHeapSize)

variable {place : Place} {memory memory' memory'' : Bytes} {blocks before behind : List Block}
  {nodes : List Nat} {b : Block}

/-- Memory holds these blocks and, in this order, these nodes of the free list. -/
structure Represents (place : Place) (memory : Bytes) (blocks : List Block) (nodes : List Nat) :
    Prop where
  laid : Laid place.memHeap blocks place.memHeapEnd
  tagged : ∀ b ∈ blocks, Tagged memory b
  ring : (Stored.linksIn memory).Ring place.memFreeList nodes
  free : nodes.Perm (freeNodes blocks)

/-- The byte is inside one of these blocks, an allocated one, or it is neither in the heap
nor in the head of the free list. -/
def Foreign (place : Place) (kept : List Block) (address : Nat) : Prop :=
  (∃ b ∈ kept, b.allocated = true ∧ b.Inside address) ∨
    (address < place.memHeap ∨ place.memHeapEnd ≤ address) ∧
      (address < place.memFreeList ∨ place.memFreeList + 8 ≤ address)

/-- Foreign bytes are as they were. -/
def Keeps (place : Place) (kept : List Block) (memory memory' : Bytes) : Prop :=
  ∀ address, Foreign place kept address → memory' address = memory address

theorem Keeps.refl (kept : List Block) (memory : Bytes) : Keeps place kept memory memory :=
  fun _ _ => rfl

theorem Keeps.trans {kept : List Block} (first : Keeps place kept memory memory')
    (second : Keeps place kept memory' memory'') : Keeps place kept memory memory'' :=
  fun address foreign => (second address foreign).trans (first address foreign)

/-- Only the allocated blocks count. -/
theorem Keeps.of_liveBlocks {kept fewer : List Block} (keeps : Keeps place kept memory memory')
    (subset : liveBlocks fewer ⊆ liveBlocks kept) : Keeps place fewer memory memory' := by
  intro address foreign
  apply keeps
  rcases foreign with ⟨b, member, allocated, inside⟩ | outside
  · have held := subset (mem_liveBlocks.mpr ⟨member, allocated⟩)
    exact .inl ⟨b, (mem_liveBlocks.mp held).1, allocated, inside⟩
  · exact .inr outside

theorem Keeps.subset {kept fewer : List Block} (keeps : Keeps place kept memory memory')
    (subset : fewer ⊆ kept) : Keeps place fewer memory memory' :=
  keeps.of_liveBlocks fun _ member =>
    mem_liveBlocks.mpr ⟨subset (mem_liveBlocks.mp member).1, (mem_liveBlocks.mp member).2⟩

/-- A free block holds nothing that is foreign. -/
theorem Keeps.of_free (keeps : Keeps place (before ++ behind) memory memory')
    (free : b.allocated = false) : Keeps place (before ++ b :: behind) memory memory' :=
  keeps.of_liveBlocks (by simp [free])

/-- The places where list nodes can be. -/
def spots (place : Place) (blocks : List Block) : List Nat :=
  place.memFreeList :: blocks.map Block.payload

section Geometry

variable (laid : Laid place.memHeap blocks place.memHeapEnd)
include laid

theorem size_le (member : b ∈ blocks) : b.size ≤ memHeapSize := by
  have bounds := laid.bounds member
  rw [Place.memHeapEnd] at bounds
  omega

/-- A place for a node is apart from the tags and from the other places. -/
theorem spot_cases {spot : Nat} (member : spot ∈ spots place blocks) (inside : b ∈ blocks) :
    spot = b.payload ∨ spot + 8 ≤ b.start ∨ b.start + b.size ≤ spot := by
  rcases List.mem_cons.mp member with rfl | node
  · have bounds := laid.bounds inside
    have apart := place.apart
    rw [Place.memHeapEnd] at bounds
    omega
  · rcases List.mem_map.mp node with ⟨c, other, rfl⟩
    have least := c.least
    rcases laid.eq_or_apart inside other with rfl | apart
    · exact .inl rfl
    · simp only [Block.payload]
      omega

theorem placed_spots : Stored.Placed (spots place blocks) where
  below := by
    intro spot member
    rcases List.mem_cons.mp member with rfl | node
    · exact place.listBelow
    · rcases List.mem_map.mp node with ⟨c, inside, rfl⟩
      have bounds := laid.bounds inside
      have least := c.least
      have below := place.heapBelow
      rw [Place.memHeapEnd] at bounds
      simp only [Block.payload]
      omega
  apart := by
    intro spot member other member'
    rcases List.mem_cons.mp member' with rfl | node
    · rcases List.mem_cons.mp member with rfl | node
      · exact .inl rfl
      · rcases List.mem_map.mp node with ⟨c, inside, rfl⟩
        have bounds := laid.bounds inside
        have least := c.least
        have apart := place.apart
        rw [Place.memHeapEnd] at bounds
        simp only [Block.payload]
        omega
    · rcases List.mem_map.mp node with ⟨c, inside, rfl⟩
      have least := c.least
      have cases := spot_cases laid member inside
      simp only [Block.payload] at cases ⊢
      omega

/-- Tags are not written where only nodes are. -/
theorem tagged_of_spots (tagged : Tagged memory b) (inside : b ∈ blocks)
    (same : ∀ address, (∀ spot ∈ spots place blocks, address < spot ∨ spot + 8 ≤ address) →
      memory' address = memory address) : Tagged memory' b := by
  have least := b.least
  refine tagged.congr (fun i bound => same _ ?_) fun i bound => same _ ?_
  · intro spot member
    have cases := spot_cases laid member inside
    simp only [Block.payload] at cases
    omega
  · intro spot member
    have cases := spot_cases laid member inside
    simp only [Block.payload] at cases
    omega

end Geometry

section Foreign

variable {address : Nat}

theorem foreign_apart (laid : Laid place.memHeap (before ++ b :: behind) place.memHeapEnd)
    (foreign : Foreign place (before ++ behind) address) :
    address < b.start ∨ b.start + b.size ≤ address := by
  rcases foreign with ⟨c, member, _, inside⟩ | ⟨outside, _⟩
  · have apart := laid.apart member
    simp only [Block.Inside, Block.payload] at inside
    omega
  · have bounds := laid.bounds (b := b) (List.mem_append_right _ List.mem_cons_self)
    omega

/-- No foreign byte is in a node of the free list. -/
theorem foreign_node (rep : Represents place memory blocks nodes) {kept : List Block}
    (subset : kept ⊆ blocks) (foreign : Foreign place kept address) {node : Nat}
    (member : node ∈ place.memFreeList :: nodes) : address < node ∨ node + 8 ≤ address := by
  have apart := place.apart
  rcases List.mem_cons.mp member with rfl | inside
  · rcases foreign with ⟨c, kept, _, within⟩ | ⟨_, outside⟩
    · have bounds := rep.laid.bounds (subset kept)
      simp only [Block.Inside, Block.payload, Place.memHeapEnd] at within bounds
      omega
    · exact outside
  · rcases mem_freeNodes.mp (rep.free.subset inside) with ⟨f, held, free, rfl⟩
    have least := f.least
    rcases foreign with ⟨c, kept, allocated, within⟩ | ⟨outside, _⟩
    · rcases rep.laid.eq_or_apart held (subset kept) with rfl | apart
      · simp [free] at allocated
      · simp only [Block.Inside, Block.payload] at within ⊢
        omega
    · have bounds := rep.laid.bounds held
      simp only [Block.payload]
      omega

end Foreign

end Lpc17xx.Heap
