import Lpc17xx.Heap.Invariant

/-!
# What the heap looks like, and what is left alone

The representation invariant in terms of what can be read from memory: the tags, and the
free list as loops in either direction come by it.  From it follows what a client can rely
on: its bytes are its own.
-/

namespace Lpc17xx.Heap

open Lpc17xx.Link
open Lpc17xx.Memory
open Lpc17xx.Transition
open Lpc17xx.Tcp (memHeapSize)

variable {place : Place} {blocks : List Block} {nodes : List Nat} {b : Block}

namespace HeapState

variable {s s' : HeapState}

/-- These blocks tile the heap, with tags that agree; these nodes are the free list, one for
each block that is not allocated; and the allocated blocks are those of the live pointers. -/
structure WellFormed (place : Place) (s : HeapState) (blocks : List Block) (nodes : List Nat) :
    Prop where
  tiles : Laid place.memHeap blocks (place.memHeap + memHeapSize)
  sizes : ∀ b ∈ blocks, memBlockMinSize.toNat ≤ b.size ∧ b.size % 4 = 0
  tags : ∀ b ∈ blocks, ∀ btag ∈ [b.start, b.start + b.size - 4],
    (memBtagSize s.memory btag).toNat = b.size ∧ memBtagAllocated s.memory btag = b.allocated
  forth : (Stored.linksIn s.memory).listForEach place.memFreeList Place.maxRounds = some nodes
  back : (Stored.linksIn s.memory).reversed.listForEach place.memFreeList Place.maxRounds =
    some nodes.reverse
  once : nodes.Nodup
  free : nodes.Perm (freeNodes blocks)
  coalesced : Coalesced blocks
  live : (s.live.map Prod.fst).Perm ((liveBlocks blocks).map Block.payload)

/-- A tag is read. -/
theorem read_tag {memory : Bytes} {btag : Nat} (fits : b.size ≤ memHeapSize)
    (tag : load32 memory btag = b.tag) :
    (memBtagSize memory btag).toNat = b.size ∧ memBtagAllocated memory btag = b.allocated := by
  constructor
  · rw [memBtagSize, tag, memBtagSizeMask, tag_and_not_mask, toNat_ofNat_size fits]
  · rw [memBtagAllocated, tag, tag_and_mask]
    cases b.allocated <;> rfl

theorem Holds.wellFormed (holds : s.Holds place blocks nodes) :
    s.WellFormed place blocks nodes where
  tiles := holds.rep.laid
  sizes := by
    intro b _
    rw [toNat_memBlockMinSize]
    exact ⟨b.least, b.aligned⟩
  tags := by
    intro b member btag which
    have fits := size_le holds.rep.laid member
    have tagged := holds.rep.tagged b member
    rcases List.mem_cons.mp which with rfl | last
    · exact read_tag fits tagged.header
    · cases List.mem_singleton.mp last
      exact read_tag fits tagged.footer
  forth := holds.rep.ring.listForEach (length_nodes_le holds.rep)
  back := by
    refine holds.rep.ring.reversed.listForEach ?_
    rw [List.length_reverse]
    exact length_nodes_le holds.rep
  once := (List.nodup_cons.mp holds.rep.ring.nodup).2
  free := holds.rep.free
  coalesced := holds.coalesced
  live := holds.live

/-- The heap is well formed after `mem_setup`, and after every call and every write of a
client in any order. -/
theorem heap_wellFormed (place : Place) (memory : Bytes) (events : List HeapEvent) :
    (∃ blocks nodes, (start place memory).WellFormed place blocks nodes) ∧
      Along (step place)
        (fun _ _ (s : HeapState) => ∃ blocks nodes, s.WellFormed place blocks nodes)
        (start place memory) events := by
  have wellFormed {s : HeapState} (sound : s.Sound place) :
      ∃ blocks nodes, s.WellFormed place blocks nodes := by
    rcases sound with ⟨blocks, nodes, holds⟩
    exact ⟨blocks, nodes, holds.wellFormed⟩
  have initial := sound_start place memory
  refine ⟨wellFormed initial, along_of_invariant sound_step ?_ initial events⟩
  intro s event s' sound taken
  exact wellFormed (sound_step s event s' sound taken)

section Clients

/-- The bytes from `start` on, `size` many. -/
def InRange (entry : Nat × UInt32) (address : Nat) : Prop :=
  entry.1 ≤ address ∧ address < entry.1 + entry.2.toNat

/-- The allocation is aligned, inside the heap and clear of every tag. -/
structure Allotted (place : Place) (blocks : List Block) (entry : Nat × UInt32) : Prop where
  aligned : entry.1 % 4 = 0
  inHeap : place.memHeap ≤ entry.1 ∧ entry.1 + entry.2.toNat ≤ place.memHeapEnd
  clear : ∀ b ∈ blocks, ∀ btag ∈ [b.start, b.start + b.size - 4],
    entry.1 + entry.2.toNat ≤ btag ∨ btag + 4 ≤ entry.1

/-- Two allocations have no byte in common. -/
def NoOverlap (entry other : Nat × UInt32) : Prop :=
  entry.1 + entry.2.toNat ≤ other.1 ∨ other.1 + other.2.toNat ≤ entry.1

/-- Allocations of no more than the heap has: each has its place, and no two of them
overlap. -/
structure Apart (place : Place) (s : HeapState) : Prop where
  allotted : ∃ blocks nodes, s.WellFormed place blocks nodes ∧
    ∀ entry ∈ s.live, entry.2.toNat ≤ memHeapSize → Allotted place blocks entry
  disjoint : s.live.Pairwise fun entry other =>
    entry.2.toNat ≤ memHeapSize → other.2.toNat ≤ memHeapSize → NoOverlap entry other

/-- A call leaves the bytes of these allocations as they are, those that are live before
it and behind it. -/
def Untouched (s s' : HeapState) : Prop :=
  ∀ entry ∈ s.live, entry ∈ s'.live → entry.2.toNat ≤ memHeapSize →
    ∀ address, InRange entry address → s'.memory address = s.memory address

theorem Holds.allotted (holds : s.Holds place blocks nodes) {entry : Nat × UInt32}
    (member : entry ∈ s.live) (bound : entry.2.toNat ≤ memHeapSize) :
    Allotted place blocks entry := by
  rcases holds.room entry member bound with ⟨b, held, payload, room⟩
  have inside := (mem_liveBlocks.mp held).1
  have bounds := holds.rep.laid.bounds inside
  have aligned := holds.rep.laid.aligned place.aligned inside
  rw [Block.payload] at payload
  constructor
  · omega
  · omega
  · intro c member' btag which
    have least := c.least
    have apart := holds.rep.laid.eq_or_apart inside member'
    have which : btag = c.start ∨ btag = c.start + c.size - 4 := by simpa using which
    rcases apart with rfl | apart
    · omega
    · omega

theorem Holds.disjoint (holds : s.Holds place blocks nodes) :
    s.live.Pairwise fun entry other =>
      entry.2.toNat ≤ memHeapSize → other.2.toNat ≤ memHeapSize → NoOverlap entry other := by
  have distinct : s.live.Pairwise fun entry other => entry.1 ≠ other.1 :=
    List.pairwise_map.mp holds.nodup
  refine distinct.imp_of_mem ?_
  intro entry other member member' unequal bound bound'
  rcases holds.room entry member bound with ⟨b, held, payload, room⟩
  rcases holds.room other member' bound' with ⟨c, held', payload', room'⟩
  rcases holds.rep.laid.eq_or_apart (mem_liveBlocks.mp held).1 (mem_liveBlocks.mp held').1 with
    rfl | apart
  · exact absurd (payload.symm.trans payload') unequal
  · rw [Block.payload] at payload payload'
    unfold NoOverlap
    omega

theorem Holds.apart (holds : s.Holds place blocks nodes) : s.Apart place :=
  ⟨⟨blocks, nodes, holds.wellFormed, fun _ member bound => holds.allotted member bound⟩,
    holds.disjoint⟩

/-- The bytes of an allocation are foreign to the allocator. -/
theorem Holds.foreign_of_inRange (holds : s.Holds place blocks nodes) {entry : Nat × UInt32}
    (member : entry ∈ s.live) (bound : entry.2.toNat ≤ memHeapSize) {address : Nat}
    (inRange : InRange entry address) : Foreign place blocks address := by
  rcases holds.room entry member bound with ⟨b, held, payload, room⟩
  rcases mem_liveBlocks.mp held with ⟨inside, allocated⟩
  rcases inRange with ⟨low, high⟩
  refine .inl ⟨b, inside, allocated, ?_, ?_⟩
  · rw [payload]
    exact low
  · rw [Block.payload] at payload
    omega

theorem Holds.untouched_getMem (holds : s.Holds place blocks nodes) {size : UInt32}
    (taken : HeapState.step place s (.getMem size) = some s') : Untouched s s' := by
  rcases holds.getMem taken with ⟨_, _, _, kept⟩
  intro entry member _ bound address inRange
  exact kept address (holds.foreign_of_inRange member bound inRange)

theorem Holds.untouched_freeMem (holds : s.Holds place blocks nodes) {ptr : Nat}
    (taken : HeapState.step place s (.freeMem ptr) = some s') : Untouched s s' := by
  rcases holds.freeMem taken with ⟨_, _, holds', kept⟩
  intro entry _ member' bound address inRange
  exact kept address (holds'.foreign_of_inRange member' bound inRange)

/-- In every run, the allocations are apart from each other and from the allocator's tags,
and no call of `get_mem` or `free_mem` touches those that outlive it. -/
theorem heap_clients_untouched (place : Place) (memory : Bytes) (events : List HeapEvent) :
    Along (step place)
      (fun s event s' => s'.Apart place ∧
        ((∀ address byte, event ≠ .write address byte) → Untouched s s'))
      (start place memory) events := by
  refine along_of_invariant sound_step ?_ (sound_start place memory) events
  intro s event s' sound taken
  rcases sound_step s event s' sound taken with ⟨_, _, after⟩
  rcases sound with ⟨_, _, before⟩
  refine ⟨after.apart, fun call => ?_⟩
  cases event with
  | getMem size => exact before.untouched_getMem taken
  | freeMem ptr => exact before.untouched_freeMem taken
  | write address byte => exact absurd rfl (call address byte)

end Clients

end HeapState

end Lpc17xx.Heap
