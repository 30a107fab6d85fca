import Lpc17xx.Heap.Operations

/-!
# `free_mem`

The tags lead from a block to its neighbours.  A block that is freed comes on the free list
and is then merged with the block before it and the one behind it where they are free, so
that free blocks are never neighbours.
-/

namespace Lpc17xx.Heap

open Lpc17xx.Link
open Lpc17xx.Memory
open Lpc17xx.Tcp (memHeapSize)

variable {place : Place} {memory : Bytes} {blocks before behind : List Block} {nodes : List Nat}
  {b p q : Block}

section Neighbours

theorem memBlockPrev_first (rep : Represents place memory (b :: behind) nodes) :
    place.memBlockPrev memory b.start = none :=
  if_pos rep.laid.1

/-- The tag in front of a block is the last one of the block before. -/
theorem memBlockPrev_eq (rep : Represents place memory (before ++ p :: b :: behind) nodes) :
    place.memBlockPrev memory b.start = some p.start := by
  rcases laid_middle.mp rep.laid with ⟨laidBefore, here, _⟩
  have inside : p ∈ before ++ p :: b :: behind := List.mem_append_right _ List.mem_cons_self
  have low := laidBefore.le
  have least := p.least
  have notFirst : b.start ≠ place.memHeap := by omega
  have footer : b.start - 4 = p.start + p.size - 4 := by rw [here]
  rw [Place.memBlockPrev, if_neg notFirst, memBlockHeaderBtag, memBtagSize, footer,
    (rep.tagged p inside).footer, memBtagSizeMask, tag_and_not_mask,
    toNat_ofNat_size (size_le rep.laid inside), here, Nat.add_sub_cancel]

theorem memBlockNext_last (rep : Represents place memory (before ++ [b]) nodes) :
    place.memBlockNext memory b.start = none := by
  have inside : b ∈ before ++ [b] := List.mem_append_right _ List.mem_cons_self
  rcases laid_middle.mp rep.laid with ⟨_, last⟩
  rw [Place.memBlockNext, memBlockEnd_eq (size_le rep.laid inside) (rep.tagged b inside)]
  exact if_pos last

theorem memBlockNext_eq (rep : Represents place memory (before ++ b :: q :: behind) nodes) :
    place.memBlockNext memory b.start = some q.start := by
  have inside : b ∈ before ++ b :: q :: behind := List.mem_append_right _ List.mem_cons_self
  rcases laid_middle.mp rep.laid with ⟨_, here, rest⟩
  have low := rest.le
  have least := q.least
  have notLast : q.start ≠ place.memHeapEnd := by omega
  rw [Place.memBlockNext, memBlockEnd_eq (size_le rep.laid inside) (rep.tagged b inside), ← here]
  exact if_neg notLast

end Neighbours

section Merge

variable {block1 block2 : Nat}

theorem memBlockMerge_of_allocated {c d : Block} (first : Tagged memory c)
    (second : Tagged memory d) (allocated : c.allocated = true ∨ d.allocated = true) :
    place.memBlockMerge memory c.start d.start = (none, memory) := by
  refine if_pos ?_
  rw [memBlockAllocated_eq first, memBlockAllocated_eq second, Bool.or_eq_true]
  exact allocated

/-- Both blocks come off the free list, in either order. -/
theorem remove_both (rep : Represents place memory (before ++ p :: q :: behind) nodes)
    (first : p.allocated = false) (second : q.allocated = false)
    (pair : block1 = p.start ∧ block2 = q.start ∨ block1 = q.start ∧ block2 = p.start) :
    ∃ nodes', Represents place (memFreeListRemove (memFreeListRemove memory block1) block2)
        (before ++ p.taken :: q.taken :: behind) nodes' ∧
      Keeps place (before ++ behind) memory
        (memFreeListRemove (memFreeListRemove memory block1) block2) := by
  have inFront (c : Block) : before ++ behind ⊆ (before ++ [c]) ++ behind :=
    List.append_subset.mpr ⟨fun _ held => List.mem_append_left _ (List.mem_append_left _ held),
      List.subset_append_right _ _⟩
  have inBack (c : Block) : before ++ behind ⊆ before ++ c :: behind := kept_subset
  rcases pair with ⟨rfl, rfl⟩ | ⟨rfl, rfl⟩
  · rcases rep.memFreeListRemove first with ⟨removed, kept⟩
    rw [List.append_cons] at removed
    rcases removed.memFreeListRemove second with ⟨removed', kept'⟩
    rw [← List.append_cons] at removed'
    exact ⟨_, removed', (kept.subset (inBack q)).trans (kept'.subset (inFront p.taken))⟩
  · rw [List.append_cons] at rep
    rcases rep.memFreeListRemove second with ⟨removed, kept⟩
    rw [← List.append_cons] at removed
    rcases removed.memFreeListRemove first with ⟨removed', kept'⟩
    exact ⟨_, removed', (kept.subset (inFront p)).trans (kept'.subset (inBack q.taken))⟩

/-- Two blocks that have come off the free list go back on it as one. -/
theorem join_spec (rep : Represents place memory (before ++ p.taken :: q.taken :: behind) nodes) :
    ∃ nodes', Represents place
        (place.memFreeListAdd (memBlockInit memory p.start (.ofNat (p.size + q.size))) p.start)
        (before ++ (p.joined q).freed :: behind) nodes' ∧
      Keeps place (before ++ behind) memory
        (place.memFreeListAdd (memBlockInit memory p.start (.ofNat (p.size + q.size)))
          p.start) := by
  have same : p.taken.joined q.taken = p.joined q := rfl
  rcases rep.join p.taken_allocated q.taken_allocated with ⟨joined, kept⟩
  rw [same] at joined kept
  have total : (p.joined q).size ≤ memHeapSize :=
    size_le joined.laid (List.mem_append_right _ List.mem_cons_self)
  have init : memBlockInit memory p.start (.ofNat (p.size + q.size)) =
      writeTags memory (p.joined q) := memBlockInit_eq (b := p.joined q) total rfl
  rcases joined.memFreeListAdd (p.joined_allocated q) with ⟨added, kept'⟩
  rw [Block.joined_start] at added kept'
  rw [init]
  exact ⟨_, added, kept.trans kept'⟩

/-- Two free neighbours, given in either order, become one free block. -/
theorem memBlockMerge_spec (rep : Represents place memory (before ++ p :: q :: behind) nodes)
    (first : p.allocated = false) (second : q.allocated = false)
    (pair : block1 = p.start ∧ block2 = q.start ∨ block1 = q.start ∧ block2 = p.start) :
    ∃ memory' nodes', place.memBlockMerge memory block1 block2 = (some p.start, memory') ∧
      Represents place memory' (before ++ (p.joined q).freed :: behind) nodes' ∧
      Keeps place (before ++ behind) memory memory' := by
  have pFree := memBlockAllocated_eq (rep.tagged p (List.mem_append_right _ List.mem_cons_self))
  have qFree := memBlockAllocated_eq (rep.tagged q
    (List.mem_append_right _ (List.mem_cons_of_mem p List.mem_cons_self)))
  rw [first] at pFree
  rw [second] at qFree
  rcases laid_middle.mp rep.laid with ⟨_, ordered, _⟩
  have least := p.least
  rcases remove_both rep first second pair with ⟨nodes', removed, kept⟩
  have free : (memBlockAllocated memory block1 || memBlockAllocated memory block2) = false := by
    rcases pair with ⟨rfl, rfl⟩ | ⟨rfl, rfl⟩
    · rw [pFree, qFree, Bool.or_false]
    · rw [pFree, qFree, Bool.or_false]
  have lower : (if block1 > block2 then block2 else block1) = p.start := by
    rcases pair with ⟨rfl, rfl⟩ | ⟨rfl, rfl⟩
    · exact if_neg (by omega)
    · exact if_pos (by omega)
  rw [Place.memBlockMerge, free]
  simp only [Bool.false_eq_true, if_false, lower]
  generalize memFreeListRemove (memFreeListRemove memory block1) block2 = memory2 at removed kept ⊢
  have pSize := memBlockSize_eq (removed.tagged p.taken
    (List.mem_append_right _ List.mem_cons_self))
  have qSize := memBlockSize_eq (removed.tagged q.taken
    (List.mem_append_right _ (List.mem_cons_of_mem p.taken List.mem_cons_self)))
  rw [Block.taken_start, Block.taken_size] at pSize qSize
  have size : memBlockSize memory2 block1 + memBlockSize memory2 block2 =
      .ofNat (p.size + q.size) := by
    rcases pair with ⟨rfl, rfl⟩ | ⟨rfl, rfl⟩
    · rw [pSize, qSize, UInt32.ofNat_add]
    · rw [pSize, qSize, UInt32.add_comm, UInt32.ofNat_add]
  rcases join_spec removed with ⟨nodes'', added, kept'⟩
  rw [size]
  exact ⟨_, nodes'', rfl, added, kept.trans kept'⟩

end Merge

section FreeMem

/-- The first half of `free_mem` behind the list: the block that holds what was freed, and
memory. -/
def Place.mergePrev (place : Place) (memory : Bytes) (block : Nat) : Nat × Bytes :=
  match place.memBlockPrev memory block with
  | none => (block, memory)
  | some tmp =>
      let (tmp, memory) := place.memBlockMerge memory block tmp
      (tmp.getD block, memory)

/-- The second half. -/
def Place.mergeNext (place : Place) (memory : Bytes) (block : Nat) : Bytes :=
  match place.memBlockNext memory block with
  | none => memory
  | some tmp => (place.memBlockMerge memory block tmp).2

theorem freeMem_eq {ptr : Nat} (notNull : ptr ≠ 0) :
    place.freeMem memory ptr =
      place.mergeNext
        (place.mergePrev (place.memFreeListAdd memory (memBlockFromPayload ptr))
          (memBlockFromPayload ptr)).2
        (place.mergePrev (place.memFreeListAdd memory (memBlockFromPayload ptr))
          (memBlockFromPayload ptr)).1 :=
  if_neg notNull

/-- A free block swallows the block before it if that is free, too. -/
theorem mergePrev_spec (rep : Represents place memory (before ++ b :: behind) nodes)
    (free : b.allocated = false) (coalesced : Coalesced before) :
    ∃ memory' before' c nodes', place.mergePrev memory b.start = (c.start, memory') ∧
      Represents place memory' (before' ++ c :: behind) nodes' ∧ c.allocated = false ∧
      Coalesced (before' ++ [c]) ∧ liveBlocks before' = liveBlocks before ∧
      Keeps place (before' ++ behind) memory memory' := by
  rcases before.eq_nil_or_concat' with rfl | ⟨before', p, rfl⟩
  · refine ⟨memory, [], b, nodes, ?_, rep, free, List.isChain_singleton b, rfl, .refl _ _⟩
    rw [Place.mergePrev, memBlockPrev_first rep]
  · rw [← List.append_cons] at rep
    have prev := memBlockPrev_eq rep
    have pTagged := rep.tagged p (List.mem_append_right _ List.mem_cons_self)
    have bTagged := rep.tagged b
      (List.mem_append_right _ (List.mem_cons_of_mem p List.mem_cons_self))
    cases marked : p.allocated with
    | true =>
        have whole : place.memBlockMerge memory b.start p.start = (none, memory) :=
          memBlockMerge_of_allocated bTagged pTagged (.inr marked)
        refine ⟨memory, before' ++ [p], b, nodes, ?_, ?_, free, ?_, rfl, .refl _ _⟩
        · rw [Place.mergePrev, prev]
          simp only [whole, Option.getD_none]
        · rw [← List.append_cons]
          exact rep
        · rw [← List.append_cons]
          exact coalesced_split.mpr ⟨coalesced,
            coalesced_cons_allocated marked (List.isChain_singleton b)⟩
    | false =>
        rcases memBlockMerge_spec rep marked free (.inr ⟨rfl, rfl⟩) with
          ⟨memory', nodes', merged, rep', kept⟩
        refine ⟨memory', before', (p.joined b).freed, nodes', ?_, rep', rfl, ?_, ?_, kept⟩
        · rw [Place.mergePrev, prev]
          simp only [merged, Option.getD_some, Block.freed_start, Block.joined_start]
        · exact coalesced_concat_congr (by simp [marked]) coalesced
        · simp [liveBlocks, marked]

/-- A free block swallows the block behind it if that is free, too. -/
theorem mergeNext_spec (rep : Represents place memory (before ++ b :: behind) nodes)
    (free : b.allocated = false) (left : Coalesced (before ++ [b])) (right : Coalesced behind) :
    ∃ blocks' nodes', Represents place (place.mergeNext memory b.start) blocks' nodes' ∧
      Coalesced blocks' ∧ liveBlocks blocks' = liveBlocks before ++ liveBlocks behind ∧
      Keeps place (before ++ behind) memory (place.mergeNext memory b.start) := by
  cases behind with
  | nil =>
      rw [Place.mergeNext, memBlockNext_last rep]
      exact ⟨_, nodes, rep, left, by simp [free], .refl _ _⟩
  | cons q behind =>
      have next := memBlockNext_eq rep
      have bTagged := rep.tagged b (List.mem_append_right _ List.mem_cons_self)
      have qTagged := rep.tagged q
        (List.mem_append_right _ (List.mem_cons_of_mem b List.mem_cons_self))
      cases marked : q.allocated with
      | true =>
          have whole : place.memBlockMerge memory b.start q.start = (none, memory) :=
            memBlockMerge_of_allocated bTagged qTagged (.inr marked)
          rw [Place.mergeNext, next]
          simp only [whole]
          refine ⟨_, nodes, rep, coalesced_split.mpr ⟨left, ?_⟩, by simp [free], .refl _ _⟩
          exact List.isChain_cons_cons.mpr ⟨.inr marked, right⟩
      | false =>
          rcases memBlockMerge_spec rep free marked (.inl ⟨rfl, rfl⟩) with
            ⟨memory', nodes', merged, rep', kept⟩
          rw [Place.mergeNext, next]
          simp only [merged]
          refine ⟨_, nodes', rep', coalesced_split.mpr ⟨?_, ?_⟩, ?_, kept.of_free marked⟩
          · exact coalesced_concat_congr (by simp [free]) left
          · exact coalesced_cons_congr (by simp [marked]) right
          · rw [liveBlocks_append, liveBlocks_cons_free (Block.freed_allocated _),
              liveBlocks_cons_free marked]

/-- A call of `free_mem` frees the block of the pointer and keeps the others. -/
theorem freeMem_spec (rep : Represents place memory blocks nodes) (coalesced : Coalesced blocks)
    (member : b ∈ blocks) (allocated : b.allocated = true) :
    ∃ blocks' nodes', Represents place (place.freeMem memory b.payload) blocks' nodes' ∧
      Coalesced blocks' ∧ (liveBlocks blocks).Perm (b :: liveBlocks blocks') ∧
      Keeps place blocks' memory (place.freeMem memory b.payload) := by
  rcases List.append_of_mem member with ⟨before, behind, rfl⟩
  have notNull : b.payload ≠ 0 := Nat.succ_ne_zero _
  have block : memBlockFromPayload b.payload = b.start := Nat.add_sub_cancel _ _
  rcases rep.memFreeListAdd allocated with ⟨added, kept⟩
  rcases mergePrev_spec added b.freed_allocated coalesced.left with
    ⟨memory', before', c, nodes', merged, rep', free, left, same, kept'⟩
  rcases mergeNext_spec rep' free left coalesced.right.tail with
    ⟨blocks', nodes'', rep'', whole, live, kept''⟩
  rw [Block.freed_start] at merged
  rw [freeMem_eq notNull, block, merged]
  rw [same] at live
  refine ⟨blocks', nodes'', rep'', whole, ?_, ?_⟩
  · rw [live, liveBlocks_append, liveBlocks_cons_allocated allocated]
    exact List.perm_middle
  · have first : Keeps place blocks' memory (place.memFreeListAdd memory b.start) :=
      kept.of_liveBlocks (by rw [live, liveBlocks_append]; exact List.Subset.refl _)
    have second := kept'.trans kept''
    have third : Keeps place blocks' (place.memFreeListAdd memory b.start) _ :=
      second.of_liveBlocks (by rw [live, liveBlocks_append, same]; exact List.Subset.refl _)
    exact first.trans third

end FreeMem

end Lpc17xx.Heap
