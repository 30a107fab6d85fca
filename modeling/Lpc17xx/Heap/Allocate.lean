import Lpc17xx.Heap.Operations

/-!
# `get_mem`

The search comes to an end on every heap, and finds the first free block that is large
enough if there is one.  The block found is allocated, and what is left over of it, if that
makes a block, stays free.
-/

namespace Lpc17xx.Heap

open Lpc17xx.Link
open Lpc17xx.Memory
open Lpc17xx.Tcp (memHeapSize)

variable {place : Place} {memory memory' : Bytes} {blocks before behind : List Block}
  {nodes : List Nat} {b : Block} {size : UInt32}

section Find

/-- The loop over the free list has rounds enough. -/
theorem length_nodes_le (rep : Represents place memory blocks nodes) :
    nodes.length ≤ Place.maxRounds := by
  have length := rep.laid.length
  have few : (freeNodes blocks).length ≤ blocks.length := length_freeNodes_le
  rw [Place.memHeapEnd] at length
  rw [rep.free.length_eq, Place.maxRounds]
  omega

theorem memFreeListFind_eq (rep : Represents place memory blocks nodes) (size : UInt32) :
    place.memFreeListFind memory size =
      some ((nodes.find? fun freeNode =>
        size ≤ memBlockSize memory (memBlockFromPayload freeNode)).map memBlockFromPayload) := by
  rw [Place.memFreeListFind, rep.ring.search (length_nodes_le rep), Option.map_some]

theorem memBlockFromPayload_payload (b : Block) : memBlockFromPayload b.payload = b.start := by
  rw [memBlockFromPayload, Block.payload, Nat.add_sub_cancel]

/-- A node is that of a block, whose size is read. -/
theorem free_of_mem_nodes (rep : Represents place memory blocks nodes) {node : Nat}
    (member : node ∈ nodes) : ∃ b ∈ blocks, b.allocated = false ∧ b.payload = node ∧
      (memBlockSize memory (memBlockFromPayload node)).toNat = b.size := by
  rcases mem_freeNodes.mp (rep.free.subset member) with ⟨b, inside, free, rfl⟩
  refine ⟨b, inside, free, rfl, ?_⟩
  rw [memBlockFromPayload_payload, memBlockSize_eq (rep.tagged b inside),
    toNat_ofNat_size (size_le rep.laid inside)]

theorem memFreeListFind_found (rep : Represents place memory blocks nodes) {block : Nat}
    (found : place.memFreeListFind memory size = some (some block)) :
    ∃ b ∈ blocks, b.allocated = false ∧ b.start = block ∧ size.toNat ≤ b.size := by
  rw [memFreeListFind_eq rep, Option.some_inj] at found
  rcases Option.map_eq_some_iff.mp found with ⟨node, first, rfl⟩
  rcases free_of_mem_nodes rep (List.mem_of_find?_eq_some first) with
    ⟨b, inside, free, rfl, read⟩
  refine ⟨b, inside, free, (memBlockFromPayload_payload b).symm, ?_⟩
  have fits := List.find?_some first
  rw [decide_eq_true_iff, UInt32.le_iff_toNat_le, read] at fits
  exact fits

/-- Only where no free block is large enough, nothing is found. -/
theorem memFreeListFind_none_iff (rep : Represents place memory blocks nodes) :
    place.memFreeListFind memory size = some none ↔
      ∀ b ∈ blocks, b.allocated = false → b.size < size.toNat := by
  rw [memFreeListFind_eq rep, Option.some_inj, Option.map_eq_none_iff, List.find?_eq_none]
  simp only [decide_eq_true_iff, UInt32.le_iff_toNat_le, not_le]
  constructor
  · intro none b inside free
    have member : b.payload ∈ nodes :=
      rep.free.symm.subset (mem_freeNodes.mpr ⟨b, inside, free, rfl⟩)
    have small := none b.payload member
    rw [memBlockFromPayload_payload, memBlockSize_eq (rep.tagged b inside),
      toNat_ofNat_size (size_le rep.laid inside)] at small
    exact small
  · intro small node member
    rcases free_of_mem_nodes rep member with ⟨b, inside, free, _, read⟩
    rw [read]
    exact small b inside free

end Find

section Split

/-- The first part of a block, allocated. -/
def Block.front (b : Block) (size : Nat) (least : 16 ≤ size) (aligned : size % 4 = 0) : Block where
  start := b.start
  size := size
  allocated := true
  least := least
  aligned := aligned

/-- What is left of a block behind its first part, allocated. -/
def Block.rest (b : Block) (size : Nat) (aligned : size % 4 = 0) (room : size + 16 ≤ b.size) :
    Block where
  start := b.start + size
  size := b.size - size
  allocated := true
  least := by omega
  aligned := by
    have whole := b.aligned
    omega

theorem toNat_add_memBlockMinSize (fits : size.toNat ≤ memHeapSize) :
    (size + memBlockMinSize).toNat = size.toNat + 16 := by
  unfold memHeapSize at fits
  rw [UInt32.toNat_add, toNat_memBlockMinSize]
  omega

variable (rep : Represents place memory (before ++ b :: behind) nodes)
include rep

/-- `mem_block_split` leaves a block whole when the rest would make no block. -/
theorem memBlockSplit_of_small (fits : size.toNat ≤ b.size) (small : b.size < size.toNat + 16) :
    memBlockSplit memory b.start size = (none, memory) := by
  have inside : b ∈ before ++ b :: behind := List.mem_append_right _ List.mem_cons_self
  have total := size_le rep.laid inside
  refine if_pos ?_
  rw [memBlockSize_eq (rep.tagged b inside), UInt32.lt_iff_toNat_lt, toNat_ofNat_size total,
    toNat_add_memBlockMinSize (Nat.le_trans fits total)]
  exact small

/-- `mem_block_split` cuts a block behind `size` bytes when the rest makes a block. -/
theorem memBlockSplit_of_room (least : 16 ≤ size.toNat) (aligned : size.toNat % 4 = 0)
    (room : size.toNat + 16 ≤ b.size) :
    memBlockSplit memory b.start size =
      (some (b.rest size.toNat aligned room).start,
        writeTags (writeTags memory (b.front size.toNat least aligned))
          (b.rest size.toNat aligned room)) := by
  let b' := b.front size.toNat least aligned
  let c := b.rest size.toNat aligned room
  have inside : b ∈ before ++ b :: behind := List.mem_append_right _ List.mem_cons_self
  have total := size_le rep.laid inside
  have read := memBlockSize_eq (rep.tagged b inside)
  have number := toNat_ofNat_size total
  have fits : size.toNat ≤ b.size := Nat.le_trans (Nat.le_add_right _ _) room
  have within : b'.size ≤ memHeapSize := Nat.le_trans fits total
  have remains : c.size ≤ memHeapSize := Nat.le_trans (Nat.sub_le _ _) total
  have enough : ¬memBlockSize memory b.start < size + memBlockMinSize := by
    rw [read, UInt32.lt_iff_toNat_lt, number, toNat_add_memBlockMinSize within]
    omega
  have first : memBlockInit memory b.start size = writeTags memory b' := by
    have init : memBlockInit memory b.start (.ofNat size.toNat) = writeTags memory b' :=
      memBlockInit_eq (b := b') within rfl
    rwa [UInt32.ofNat_toNat] at init
  have stop : memBlockEnd (writeTags memory b') b.start = c.start :=
    memBlockEnd_eq (b := b') within (tagged_writeTags memory b')
  have rest : memBlockSize memory b.start - size = .ofNat c.size := by
    have order : size ≤ UInt32.ofNat b.size := by
      rw [UInt32.le_iff_toNat_le, number]
      exact fits
    rw [read, ← UInt32.toNat_inj, UInt32.toNat_sub_of_le _ _ order, number,
      toNat_ofNat_size remains]
    rfl
  have second : memBlockInit (writeTags memory b') c.start (.ofNat c.size) =
      writeTags (writeTags memory b') c :=
    memBlockInit_eq remains rfl
  rw [memBlockSplit, if_neg enough]
  simp only [first, stop, rest, second]
  rfl

end Split

section GetMem

variable {ptr : Nat}

theorem getMem_zero : place.getMem memory 0 = some (0, memory) :=
  if_pos rfl

/-- What is done with the outcome of a split. -/
def Place.addRest (place : Place) : Option Nat × Bytes → Bytes
  | (some block2, memory) => place.memFreeListAdd memory block2
  | (none, memory) => memory

/-- A call that returns has found a block. -/
theorem getMem_found (positive : size ≠ 0) (got : place.getMem memory size = some (ptr, memory')) :
    ∃ block,
      place.memFreeListFind memory (memConvertToBlockSize size) = some (some block) := by
  rw [Place.getMem, if_neg positive] at got
  rcases Option.bind_eq_some_iff.mp got with ⟨_, search, rest⟩
  rcases Option.bind_eq_some_iff.mp rest with ⟨block, rfl, _⟩
  exact ⟨block, search⟩

theorem getMem_of_found (positive : size ≠ 0) {block : Nat}
    (found : place.memFreeListFind memory (memConvertToBlockSize size) = some (some block)) :
    place.getMem memory size =
      some (memBlockPayload block, place.addRest
        (memBlockSplit (memFreeListRemove memory block) block (memConvertToBlockSize size))) := by
  simp only [Place.getMem, if_neg positive, found]
  change some (memBlockPayload block, _) = _
  generalize memBlockSplit (memFreeListRemove memory block) block
    (memConvertToBlockSize size) = result
  rcases result with ⟨_ | block2, cut⟩
  · rfl
  · rfl

section Found

variable (rep : Represents place memory (before ++ b :: behind) nodes)
  (free : b.allocated = false) (positive : size ≠ 0)
  (found : place.memFreeListFind memory (memConvertToBlockSize size) = some (some b.start))
include rep free positive found

/-- The block found is handed out whole when the rest would make no block. -/
theorem getMem_whole (fits : (memConvertToBlockSize size).toNat ≤ b.size)
    (small : b.size < (memConvertToBlockSize size).toNat + 16) :
    ∃ memory', place.getMem memory size = some (b.payload, memory') ∧
      Represents place memory' (before ++ b.taken :: behind) (Link.listDel b.payload nodes) ∧
      Keeps place (before ++ behind) memory memory' := by
  rcases rep.memFreeListRemove free with ⟨removed, kept⟩
  have whole := memBlockSplit_of_small removed fits small
  rw [Block.taken_start] at whole
  refine ⟨memFreeListRemove memory b.start, ?_, removed, kept⟩
  rw [getMem_of_found positive found, whole]
  rfl

/-- Otherwise it is cut, and the rest comes to the head of the free list. -/
theorem getMem_cut (least : 16 ≤ (memConvertToBlockSize size).toNat)
    (aligned : (memConvertToBlockSize size).toNat % 4 = 0)
    (room : (memConvertToBlockSize size).toNat + 16 ≤ b.size) :
    ∃ memory', place.getMem memory size = some (b.payload, memory') ∧
      Represents place memory'
        (before ++ b.front (memConvertToBlockSize size).toNat least aligned ::
          (b.rest (memConvertToBlockSize size).toNat aligned room).freed :: behind)
        ((b.rest (memConvertToBlockSize size).toNat aligned room).payload ::
          Link.listDel b.payload nodes) ∧
      Keeps place (before ++ behind) memory memory' := by
  have whole : (memConvertToBlockSize size).toNat ≤ b.size :=
    Nat.le_trans (Nat.le_add_right _ _) room
  rcases rep.memFreeListRemove free with ⟨removed, kept⟩
  have split := memBlockSplit_of_room removed least aligned room
  rcases removed.cut (d := b.front _ least aligned) (c := b.rest _ aligned room)
    b.taken_allocated rfl rfl (Nat.add_sub_cancel' whole) rfl rfl with ⟨cut, kept'⟩
  rw [List.append_cons] at cut
  rcases cut.memFreeListAdd rfl with ⟨added, kept''⟩
  rw [← List.append_cons] at added
  rw [Block.taken_start] at split
  refine ⟨_, ?_, added, (kept.trans kept').trans (kept''.subset ?_)⟩
  · rw [getMem_of_found positive found, split]
    rfl
  · exact List.append_subset.mpr
      ⟨fun _ held => List.mem_append_left _ (List.mem_append_left _ held),
        List.subset_append_right _ _⟩

end Found

/-- A call of `get_mem` allocates one block, which is large enough, and keeps the others. -/
theorem getMem_spec (rep : Represents place memory blocks nodes) (coalesced : Coalesced blocks)
    (positive : size ≠ 0) (got : place.getMem memory size = some (ptr, memory')) :
    ∃ a blocks' nodes', Represents place memory' blocks' nodes' ∧ Coalesced blocks' ∧
      (liveBlocks blocks').Perm (a :: liveBlocks blocks) ∧ a.payload = ptr ∧
      (memConvertToBlockSize size).toNat ≤ a.size ∧ Keeps place blocks memory memory' := by
  rcases getMem_found positive got with ⟨block, found⟩
  rcases memFreeListFind_found rep found with ⟨b, inside, free, rfl, fits⟩
  rcases List.append_of_mem inside with ⟨before, behind, rfl⟩
  rcases coalesced_split.mp coalesced with ⟨inFront, inBack⟩
  rcases memConvertToBlockSize_spec size with ⟨least, aligned⟩
  by_cases small : b.size < (memConvertToBlockSize size).toNat + 16
  · rcases getMem_whole rep free positive found fits small with ⟨_, returned, rep', kept⟩
    cases Option.some.inj (got.symm.trans returned)
    refine ⟨b.taken, _, _, rep', ?_, ?_, rfl, fits, kept.of_free free⟩
    · exact coalesced_split.mpr ⟨coalesced_concat_allocated b.taken_allocated inFront.left,
        coalesced_cons_allocated b.taken_allocated inBack.tail⟩
    · simp only [liveBlocks_append, liveBlocks_cons_free free,
        liveBlocks_cons_allocated b.taken_allocated]
      exact List.perm_middle
  · have room : (memConvertToBlockSize size).toNat + 16 ≤ b.size := by omega
    rcases getMem_cut rep free positive found least aligned room with ⟨_, returned, rep', kept⟩
    cases Option.some.inj (got.symm.trans returned)
    let b' := b.front (memConvertToBlockSize size).toNat least aligned
    have first : b'.allocated = true := rfl
    refine ⟨b', _, _, rep', ?_, ?_, rfl, Nat.le_refl _, kept.of_free free⟩
    · refine coalesced_split.mpr ⟨coalesced_concat_allocated first inFront.left,
        coalesced_cons_allocated first ?_⟩
      exact coalesced_cons_congr (b := b) (by simp [free]) inBack
    · simp only [liveBlocks_append, liveBlocks_cons_free free]
      exact List.perm_middle

/-- `get_mem` returns unless every free block is too small. -/
theorem getMem_eq_none_iff (rep : Represents place memory blocks nodes) (positive : size ≠ 0) :
    place.getMem memory size = none ↔
      ∀ b ∈ blocks, b.allocated = false → b.size < (memConvertToBlockSize size).toNat := by
  have ends := memFreeListFind_eq rep (memConvertToBlockSize size)
  rw [← memFreeListFind_none_iff rep, Place.getMem, if_neg positive]
  generalize (List.find? _ nodes).map memBlockFromPayload = found at ends
  cases found with
  | none => simp [ends]
  | some block => simp [ends]

end GetMem

end Lpc17xx.Heap
