import Lpc17xx.Heap.Machine

/-!
# The heap at every moment

Memory represents a sequence of blocks without free neighbours, of which the allocated ones
are those of the live pointers.  `mem_setup` makes it so, each call leaves it so, and no
client can spoil it.
-/

namespace Lpc17xx.Heap

open Lpc17xx.Link
open Lpc17xx.Memory
open Lpc17xx.Transition
open Lpc17xx.Tcp (memHeapSize)

variable {place : Place} {memory memory' : Bytes} {blocks blocks' : List Block}
  {nodes nodes' : List Nat} {b : Block}

section Setup

/-- The heap as one block, allocated. -/
def Place.whole (place : Place) : Block where
  start := place.memHeap
  size := memHeapSize
  allocated := true
  least := by decide
  aligned := by decide

theorem represents_memSetup (place : Place) (memory : Bytes) :
    Represents place (place.memSetup memory) [place.whole.freed] [place.whole.payload] := by
  let written := writeTags memory place.whole
  have init : memBlockInit memory place.memHeap (.ofNat memHeapSize) = written :=
    memBlockInit_eq (b := place.whole) (Nat.le_refl _) rfl
  have apart := place.apart
  have rep : Represents place (place.memFreeListInit written) ([] ++ place.whole :: []) [] := by
    constructor
    · exact ⟨rfl, rfl⟩
    · intro b member
      cases List.mem_singleton.mp member
      have bottom : place.whole.start = place.memHeap := rfl
      have top : place.whole.size = memHeapSize := rfl
      unfold memHeapSize at top apart
      refine (tagged_writeTags memory place.whole).congr (fun i bound => ?_) fun i bound => ?_
      · exact Stored.initList_of_outside (by omega)
      · exact Stored.initList_of_outside (by omega)
    · exact Stored.ring_initList place.listBelow
    · exact List.Perm.refl _
  rw [Place.memSetup, init]
  exact (rep.memFreeListAdd rfl).1

end Setup

section Write

variable {address : Nat}

/-- What the allocator reads is not foreign. -/
theorem Represents.congr (rep : Represents place memory blocks nodes)
    (same : ∀ address, ¬Foreign place blocks address → memory' address = memory address) :
    Represents place memory' blocks nodes where
  laid := rep.laid
  tagged := by
    intro b member
    have least := b.least
    have clear (address : Nat) (low : b.start ≤ address) (high : address < b.start + b.size)
        (tag : address < b.start + 4 ∨ b.start + b.size ≤ address + 4) :
        ¬Foreign place blocks address := by
      rintro (⟨c, held, _, inside⟩ | ⟨outside, _⟩)
      · simp only [Block.Inside, Block.payload] at inside
        rcases rep.laid.eq_or_apart member held with rfl | apart
        · omega
        · omega
      · have bounds := rep.laid.bounds member
        omega
    refine (rep.tagged b member).congr (fun i bound => ?_) fun i bound => ?_
    · exact same _ (clear _ (by omega) (by omega) (by omega))
    · exact same _ (clear _ (by omega) (by omega) (by omega))
  ring := by
    refine Stored.ring_congr rep.ring fun node member i bound => same _ fun foreign => ?_
    have outside := foreign_node rep (List.Subset.refl _) foreign member
    omega
  free := rep.free

theorem Represents.write (rep : Represents place memory blocks nodes)
    (foreign : Foreign place blocks address) (byte : UInt8) :
    Represents place (Function.update memory address byte) blocks nodes := by
  refine rep.congr fun other untouched => Function.update_of_ne ?_ _ _
  rintro rfl
  exact untouched foreign

end Write

namespace HeapState

variable {s s' : HeapState}

/-- Memory represents blocks, the allocated ones are those of the live pointers, and
each is large enough for what was asked for. -/
structure Holds (place : Place) (s : HeapState) (blocks : List Block) (nodes : List Nat) :
    Prop where
  rep : Represents place s.memory blocks nodes
  coalesced : Coalesced blocks
  live : (s.live.map Prod.fst).Perm ((liveBlocks blocks).map Block.payload)
  room : ∀ entry ∈ s.live, entry.2.toNat ≤ memHeapSize →
    ∃ b ∈ liveBlocks blocks, b.payload = entry.1 ∧ entry.2.toNat + 8 ≤ b.size

/-- The invariant. -/
def Sound (place : Place) (s : HeapState) : Prop :=
  ∃ blocks nodes, s.Holds place blocks nodes

theorem sound_start (place : Place) (memory : Bytes) :
    (start place memory).Sound place := by
  refine ⟨_, _, represents_memSetup place memory, List.isChain_singleton _, ?_, ?_⟩
  · exact List.Perm.refl _
  · intro entry member
    contradiction

/-- A live pointer is that of an allocated block. -/
theorem Holds.block (holds : s.Holds place blocks nodes) {ptr : Nat}
    (member : ptr ∈ s.live.map Prod.fst) : ∃ b ∈ liveBlocks blocks, b.payload = ptr :=
  List.mem_map.mp (holds.live.subset member)

theorem Holds.nodup (holds : s.Holds place blocks nodes) : (s.live.map Prod.fst).Nodup := by
  have distinct : ((liveBlocks blocks).map Block.payload).Nodup :=
    holds.rep.laid.nodup.sublist (List.filter_sublist.map Block.payload)
  exact holds.live.nodup_iff.mpr distinct

/-- Nobody is handed `NULL`. -/
theorem Holds.notNull (holds : s.Holds place blocks nodes) : 0 ∉ s.live.map Prod.fst := by
  intro member
  rcases holds.block member with ⟨b, _, null⟩
  exact Nat.succ_ne_zero _ null

/-- What a client may write to is foreign to the allocator. -/
theorem Holds.foreign (holds : s.Holds place blocks nodes) {address : Nat}
    (writable : s.Writable place address) : Foreign place blocks address := by
  rcases writable with ⟨entry, member, low, high⟩ | outside
  · rcases holds.block (List.mem_map_of_mem member) with ⟨b, held, payload⟩
    rcases mem_liveBlocks.mp held with ⟨inside, allocated⟩
    rw [← payload, memBlockFromPayload_payload, memBlockSize_eq (holds.rep.tagged b inside),
      toNat_ofNat_size (size_le holds.rep.laid inside)] at high
    refine .inl ⟨b, inside, allocated, ?_, ?_⟩
    · rw [payload]
      exact low
    · rw [Block.payload] at high
      omega
  · exact .inr outside

theorem Holds.getMem (holds : s.Holds place blocks nodes) {size : UInt32}
    (taken : s.getMem place size = some s') :
    ∃ blocks' nodes', s'.Holds place blocks' nodes' ∧ Keeps place blocks s.memory s'.memory := by
  rcases Option.map_eq_some_iff.mp taken with ⟨⟨ptr, memory⟩, got, rfl⟩
  by_cases zero : size = 0
  · subst zero
    rw [getMem_zero] at got
    cases got
    exact ⟨blocks, nodes, holds, .refl _ _⟩
  · rcases getMem_spec holds.rep holds.coalesced zero got with
      ⟨a, blocks', nodes', rep, coalesced, live, rfl, fits, kept⟩
    have notNull : a.payload ≠ 0 := Nat.succ_ne_zero _
    refine ⟨blocks', nodes', ⟨rep, coalesced, ?_, ?_⟩, kept⟩
    · simp only [if_neg notNull]
      exact (holds.live.cons a.payload).trans (live.map Block.payload).symm
    · simp only [if_neg notNull]
      rintro entry member bound
      rcases List.mem_cons.mp member with rfl | older
      · refine ⟨a, live.symm.subset List.mem_cons_self, rfl, ?_⟩
        exact Nat.le_trans (memConvertToBlockSize_room bound) fits
      · rcases holds.room entry older bound with ⟨b, held, payload, room⟩
        exact ⟨b, live.symm.subset (List.mem_cons_of_mem a held), payload, room⟩

theorem Holds.freeMem (holds : s.Holds place blocks nodes) {ptr : Nat}
    (taken : s.freeMem place ptr = some s') :
    ∃ blocks' nodes', s'.Holds place blocks' nodes' ∧ Keeps place blocks' s.memory s'.memory := by
  rcases Option.ite_none_right_eq_some.mp taken with ⟨live, freed⟩
  cases freed
  by_cases null : ptr = 0
  · subst null
    have same : (s.live.filter fun entry => entry.1 ≠ 0) = s.live := by
      refine List.filter_eq_self.mpr fun entry member => ?_
      have other : entry.1 ≠ 0 := by
        intro null
        exact holds.notNull (null ▸ List.mem_map_of_mem member)
      simpa using other
    have kept : place.freeMem s.memory 0 = s.memory := if_pos rfl
    rw [same, kept]
    exact ⟨blocks, nodes, holds, .refl _ _⟩
  · have member := live.resolve_left null
    rcases holds.block member with ⟨b, held, rfl⟩
    rcases mem_liveBlocks.mp held with ⟨inside, allocated⟩
    rcases freeMem_spec holds.rep holds.coalesced inside allocated with
      ⟨blocks', nodes', rep, coalesced, rest, kept⟩
    refine ⟨blocks', nodes', ⟨rep, coalesced, ?_, ?_⟩, kept⟩
    · have erased := (holds.live.trans (rest.map Block.payload)).erase b.payload
      have test : (fun other => other != b.payload) ∘ Prod.fst =
          fun entry : Nat × UInt32 => decide (entry.1 ≠ b.payload) := by
        funext entry
        simp [bne, BEq.beq]
      rw [List.map_cons, List.erase_cons_head, holds.nodup.erase_eq_filter, List.filter_map,
        test] at erased
      exact erased
    · rintro entry member bound
      rcases List.mem_filter.mp member with ⟨older, other⟩
      rcases holds.room entry older bound with ⟨c, held', payload, room⟩
      rcases List.mem_cons.mp (rest.subset held') with rfl | stays
      · simp [payload] at other
      · exact ⟨c, stays, payload, room⟩

theorem sound_step (s : HeapState) (event : HeapEvent) (s' : HeapState) (sound : s.Sound place)
    (taken : step place s event = some s') : s'.Sound place := by
  rcases sound with ⟨blocks, nodes, holds⟩
  cases event with
  | getMem size =>
      rcases holds.getMem taken with ⟨blocks', nodes', kept, _⟩
      exact ⟨blocks', nodes', kept⟩
  | freeMem ptr =>
      rcases holds.freeMem taken with ⟨blocks', nodes', kept, _⟩
      exact ⟨blocks', nodes', kept⟩
  | write address byte =>
      rcases Option.ite_none_right_eq_some.mp taken with ⟨writable, written⟩
      cases written
      exact ⟨blocks, nodes, holds.rep.write (holds.foreign writable) byte, holds.coalesced,
        holds.live, holds.room⟩

end HeapState

end Lpc17xx.Heap
