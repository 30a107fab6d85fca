import Lpc17xx.Link.Stored
import Lpc17xx.Tcp.Core

/-!
# The allocator

`memory.c`, over memory as bytes.  A block begins and ends with a tag that holds its size
and, in the lowest bit, whether it is allocated; a free block has a node of the free list
behind its first tag.  Addresses are numbers, sizes are machine words.  `assert` is
empty in the source.
-/

namespace Lpc17xx.Heap

open Lpc17xx.Link
open Lpc17xx.Memory
open Lpc17xx.Tcp (memHeapSize)

/-- Where the linker has put `mem_heap` and `mem_free_list`. -/
structure Place where
  memHeap : Nat
  memFreeList : Nat
  aligned : memHeap % 4 = 0
  notNull : 0 < memHeap
  heapBelow : memHeap + memHeapSize ≤ 2 ^ 32
  listBelow : memFreeList + 8 ≤ 2 ^ 32
  apart : memFreeList + 8 ≤ memHeap ∨ memHeap + memHeapSize ≤ memFreeList

/-- The places of `linker.ld`: the heap is all of `ram2`, the list is among the variables
in `ram1`. -/
def Place.linked (memFreeList : Nat) (ram1 : 0x10000000 ≤ memFreeList)
    (eram1 : memFreeList + 8 ≤ 0x10008000) : Place where
  memHeap := 0x2007C000
  memFreeList := memFreeList
  aligned := by decide
  notNull := by decide
  heapBelow := by decide
  listBelow := by omega
  apart := by omega

section Constants

/-- `P2ROUND`. -/
def p2round (x a : UInt32) : UInt32 :=
  -(-x &&& -a)

/-- `MEM_ALIGN`. -/
def memAlign : UInt32 := 4

/-- `MEM_BLOCK_MIN_SIZE`: two tags and a node. -/
def memBlockMinSize : UInt32 := p2round (4 * 2 + 8) memAlign

/-- `MEM_BTAG_ALLOCATED_MASK`. -/
def memBtagAllocatedMask : UInt32 := 0x1

/-- `MEM_BTAG_SIZE_MASK`. -/
def memBtagSizeMask : UInt32 := ~~~memBtagAllocatedMask

end Constants

section Blocks

variable (memory : Bytes)

/-- `mem_btag_allocated`. -/
def memBtagAllocated (btag : Nat) : Bool :=
  load32 memory btag &&& memBtagAllocatedMask ≠ 0

/-- `mem_btag_set_allocated`. -/
def memBtagSetAllocated (btag : Nat) : Bytes :=
  store32 memory btag (load32 memory btag ||| memBtagAllocatedMask)

/-- `mem_btag_clear_allocated`. -/
def memBtagClearAllocated (btag : Nat) : Bytes :=
  store32 memory btag (load32 memory btag &&& ~~~memBtagAllocatedMask)

/-- `mem_btag_size`. -/
def memBtagSize (btag : Nat) : UInt32 :=
  load32 memory btag &&& memBtagSizeMask

/-- `mem_btag_init`. -/
def memBtagInit (btag : Nat) (size : UInt32) : Bytes :=
  memBtagSetAllocated (store32 memory btag size) btag

/-- `mem_block_size`. -/
def memBlockSize (block : Nat) : UInt32 :=
  memBtagSize memory block

/-- `mem_block_from_payload`. -/
def memBlockFromPayload (payload : Nat) : Nat :=
  payload - 4

/-- `mem_block_end`. -/
def memBlockEnd (block : Nat) : Nat :=
  block + (memBlockSize memory block).toNat

/-- `mem_block_header_btag`. -/
def memBlockHeaderBtag (block : Nat) : Nat :=
  block

/-- `mem_block_footer_btag`. -/
def memBlockFooterBtag (block : Nat) : Nat :=
  memBlockEnd memory block - 4

/-- `mem_block_allocated`. -/
def memBlockAllocated (block : Nat) : Bool :=
  memBtagAllocated memory (memBlockHeaderBtag block)

/-- `mem_block_set_allocated`. -/
def memBlockSetAllocated (block : Nat) : Bytes :=
  let memory := memBtagSetAllocated memory (memBlockHeaderBtag block)
  memBtagSetAllocated memory (memBlockFooterBtag memory block)

/-- `mem_block_clear_allocated`. -/
def memBlockClearAllocated (block : Nat) : Bytes :=
  let memory := memBtagClearAllocated memory (memBlockHeaderBtag block)
  memBtagClearAllocated memory (memBlockFooterBtag memory block)

/-- `mem_block_init`. -/
def memBlockInit (block : Nat) (size : UInt32) : Bytes :=
  let memory := memBtagInit memory (memBlockHeaderBtag block) size
  memBtagInit memory (memBlockFooterBtag memory block) size

/-- `mem_block_payload`. -/
def memBlockPayload (block : Nat) : Nat :=
  block + 4

/-- `mem_block_get_free_node`. -/
def memBlockGetFreeNode (block : Nat) : Nat :=
  memBlockPayload block

/-- `mem_free_list_remove`, which has no use for the list. -/
def memFreeListRemove (block : Nat) : Bytes :=
  let memory := Stored.listDel memory (memBlockGetFreeNode block)
  memBlockSetAllocated memory block

/-- `mem_block_split`.  `none` is `NULL`. -/
def memBlockSplit (block : Nat) (size : UInt32) : Option Nat × Bytes :=
  if memBlockSize memory block < size + memBlockMinSize then (none, memory)
  else
    let totalSize := memBlockSize memory block
    let memory := memBlockInit memory block size
    let block2 := memBlockEnd memory block
    (some block2, memBlockInit memory block2 (totalSize - size))

/-- `mem_convert_to_block_size`. -/
def memConvertToBlockSize (size : UInt32) : UInt32 :=
  let size := p2round size memAlign
  let size := size + 4 * 2
  if size < memBlockMinSize then memBlockMinSize else size

end Blocks

namespace Place

variable (place : Place) (memory : Bytes)

/-- `mem_heap_end`. -/
def memHeapEnd : Nat :=
  place.memHeap + memHeapSize

/-- `mem_block_prev`.  `none` is `NULL`. -/
def memBlockPrev (block : Nat) : Option Nat :=
  if block = place.memHeap then none
  else some (block - (memBtagSize memory (memBlockHeaderBtag block - 4)).toNat)

/-- `mem_block_next`.  `none` is `NULL`. -/
def memBlockNext (block : Nat) : Option Nat :=
  let block := memBlockEnd memory block
  if block = place.memHeapEnd then none else some block

/-- `mem_free_list_add`. -/
def memFreeListAdd (block : Nat) : Bytes :=
  let memory := memBlockClearAllocated memory block
  Stored.listAdd memory (memBlockGetFreeNode block) place.memFreeList

/-- As many blocks fit in the heap, so the loop over the free list has at most as many
rounds. -/
def maxRounds : Nat :=
  memHeapSize / 16

/-- `mem_free_list_find`. -/
def memFreeListFind (size : UInt32) : Option (Option Nat) :=
  ((Stored.linksIn memory).search place.memFreeList
    (fun freeNode => size ≤ memBlockSize memory (memBlockFromPayload freeNode)) maxRounds).map
    fun freeNode => freeNode.map memBlockFromPayload

/-- `mem_free_list_init`. -/
def memFreeListInit : Bytes :=
  Stored.initList memory place.memFreeList

/-- `mem_block_merge`.  `none` is `NULL`. -/
def memBlockMerge (block1 block2 : Nat) : Option Nat × Bytes :=
  if memBlockAllocated memory block1 || memBlockAllocated memory block2 then (none, memory)
  else
    let memory := memFreeListRemove memory block1
    let memory := memFreeListRemove memory block2
    let size := memBlockSize memory block1 + memBlockSize memory block2
    let block1 := if block1 > block2 then block2 else block1
    let memory := memBlockInit memory block1 size
    (some block1, place.memFreeListAdd memory block1)

/-- `mem_setup`. -/
def memSetup : Bytes :=
  let block := place.memHeap
  let memory := memBlockInit memory block (.ofNat memHeapSize)
  let memory := place.memFreeListInit memory
  place.memFreeListAdd memory block

/-- `get_mem`: the pointer and memory.  Where the search fails, the processor stays at
`b .`, and there is no result. -/
def getMem (size : UInt32) : Option (Nat × Bytes) :=
  if size = 0 then some (0, memory)
  else do
    let size := memConvertToBlockSize size
    let found ← place.memFreeListFind memory size
    let block ← found
    let memory := memFreeListRemove memory block
    let (block2, memory) := memBlockSplit memory block size
    let memory :=
      match block2 with
      | some block2 => place.memFreeListAdd memory block2
      | none => memory
    some (memBlockPayload block, memory)

/-- `free_mem`. -/
def freeMem (ptr : Nat) : Bytes :=
  if ptr = 0 then memory
  else
    let block := memBlockFromPayload ptr
    let memory := place.memFreeListAdd memory block
    let (block, memory) :=
      match place.memBlockPrev memory block with
      | none => (block, memory)
      | some tmp =>
          let (tmp, memory) := place.memBlockMerge memory block tmp
          (tmp.getD block, memory)
    match place.memBlockNext memory block with
    | none => memory
    | some tmp => (place.memBlockMerge memory block tmp).2

end Place

end Lpc17xx.Heap
