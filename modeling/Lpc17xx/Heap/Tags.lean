import Lpc17xx.Heap.Blocks
import Lpc17xx.Heap.Core

/-!
# Boundary tags

A block stands in memory when both its tags hold its size and whether it is allocated.  The
functions of `memory.c` that set and clear the mark, and the one that makes a block, write
the two tags of a block; sizes are rounded up to whole blocks.
-/

namespace Lpc17xx.Heap

open Lpc17xx.Memory
open Lpc17xx.Tcp (memHeapSize)

/-- What the tags of a block hold. -/
def Block.tag (b : Block) : UInt32 :=
  if b.allocated then .ofNat b.size ||| memBtagAllocatedMask else .ofNat b.size

/-- The block stands in memory: its first and its last word agree with it. -/
structure Tagged (memory : Bytes) (b : Block) : Prop where
  header : load32 memory b.start = b.tag
  footer : load32 memory (b.start + b.size - 4) = b.tag

/-- Write both tags of a block. -/
def writeTags (memory : Bytes) (b : Block) : Bytes :=
  store32 (store32 memory b.start b.tag) (b.start + b.size - 4) b.tag

section Words

theorem or_and_distrib (a b mask : UInt32) :
    (a ||| b) &&& mask = (a &&& mask) ||| (b &&& mask) := by
  rw [← UInt32.toBitVec_inj]
  apply BitVec.eq_of_getLsbD_eq
  intro i _
  simp only [UInt32.toBitVec_and, UInt32.toBitVec_or, BitVec.getLsbD_and, BitVec.getLsbD_or]
  exact Bool.and_or_distrib_right _ _ _

variable {size : Nat}

/-- The lowest bit of a size is clear. -/
theorem and_mask_of_aligned (aligned : size % 4 = 0) :
    UInt32.ofNat size &&& memBtagAllocatedMask = 0 := by
  rw [← UInt32.toNat_inj]
  simp [memBtagAllocatedMask, Nat.and_one_is_mod]
  omega

theorem and_not_mask_of_aligned (aligned : size % 4 = 0) :
    UInt32.ofNat size &&& ~~~memBtagAllocatedMask = UInt32.ofNat size := by
  have parts := or_and_distrib memBtagAllocatedMask (~~~memBtagAllocatedMask) (.ofNat size)
  rw [UInt32.or_not_self, UInt32.neg_one_and, UInt32.and_comm memBtagAllocatedMask,
    and_mask_of_aligned aligned, UInt32.zero_or, UInt32.and_comm] at parts
  exact parts.symm

variable (b : Block)

/-- The size is all of a tag but its lowest bit. -/
theorem tag_and_not_mask : b.tag &&& ~~~memBtagAllocatedMask = .ofNat b.size := by
  rw [Block.tag]
  split
  · rw [or_and_distrib, UInt32.and_not_self, UInt32.or_zero, and_not_mask_of_aligned b.aligned]
  · exact and_not_mask_of_aligned b.aligned

theorem tag_and_mask : b.tag &&& memBtagAllocatedMask = if b.allocated then 1 else 0 := by
  rw [Block.tag]
  split
  · rw [or_and_distrib, UInt32.and_self, and_mask_of_aligned b.aligned, UInt32.zero_or]
    rfl
  · exact and_mask_of_aligned b.aligned

theorem tag_or_mask : b.tag ||| memBtagAllocatedMask = b.taken.tag := by
  rw [Block.tag, Block.tag, if_pos b.taken_allocated]
  split
  · rw [UInt32.or_assoc, UInt32.or_self]
    rfl
  · rfl

theorem tag_freed : b.freed.tag = .ofNat b.size :=
  if_neg (by simp)

end Words

section Round

/-- A mask that rounds down to a multiple of four. -/
theorem toNat_and_neg_four (word : UInt32) :
    (word &&& (-4 : UInt32)).toNat = word.toNat / 4 * 4 := by
  have shifted : word &&& (-4 : UInt32) = (word >>> 2) <<< 2 := by
    rw [← UInt32.toBitVec_inj]
    apply BitVec.eq_of_getLsbD_eq
    intro i bound
    interval_cases i <;> simp
  have bound := word.toNat_lt
  rw [shifted]
  simp [Nat.shiftRight_eq_div_pow, Nat.shiftLeft_eq]
  omega

theorem toNat_p2round (x : UInt32) :
    (p2round x memAlign).toNat = (x.toNat + 3) / 4 * 4 % 2 ^ 32 := by
  have bound := x.toNat_lt
  rw [p2round, memAlign, UInt32.toNat_neg, toNat_and_neg_four, UInt32.toNat_neg, UInt32.size]
  omega

theorem toNat_memBlockMinSize : memBlockMinSize.toNat = 16 := by
  rw [memBlockMinSize, toNat_p2round]
  rfl

/-- Block sizes are those of blocks. -/
theorem memConvertToBlockSize_spec (size : UInt32) :
    16 ≤ (memConvertToBlockSize size).toNat ∧ (memConvertToBlockSize size).toNat % 4 = 0 := by
  have rounded := toNat_p2round size
  have minSize := toNat_memBlockMinSize
  have sum : (p2round size memAlign + 4 * 2).toNat =
      ((p2round size memAlign).toNat + 8) % 2 ^ 32 := UInt32.toNat_add _ _
  simp only [memConvertToBlockSize, UInt32.lt_iff_toNat_lt, minSize]
  split
  · rw [minSize]
    omega
  · omega

/-- Except near the end of the range of `size_t`, they have room for what is asked for and
the two tags. -/
theorem memConvertToBlockSize_room {size : UInt32} (fits : size.toNat ≤ memHeapSize) :
    size.toNat + 8 ≤ (memConvertToBlockSize size).toNat := by
  have rounded := toNat_p2round size
  have minSize := toNat_memBlockMinSize
  have sum : (p2round size memAlign + 4 * 2).toNat =
      ((p2round size memAlign).toNat + 8) % 2 ^ 32 := UInt32.toNat_add _ _
  unfold memHeapSize at fits
  simp only [memConvertToBlockSize, UInt32.lt_iff_toNat_lt, minSize]
  split <;> omega

end Round

section Tagged

variable {memory memory' : Bytes} {b c : Block}

/-- A block stands in memory by its tags alone. -/
theorem Tagged.congr (tagged : Tagged memory b)
    (header : ∀ i < 4, memory' (b.start + i) = memory (b.start + i))
    (footer : ∀ i < 4, memory' (b.start + b.size - 4 + i) = memory (b.start + b.size - 4 + i)) :
    Tagged memory' b where
  header := (load32_congr header).trans tagged.header
  footer := (load32_congr footer).trans tagged.footer

theorem tagged_writeTags (memory : Bytes) (b : Block) : Tagged (writeTags memory b) b where
  header := by
    have least := b.least
    rw [writeTags, load32_store32_of_apart (by omega), load32_store32]
  footer := load32_store32 _

theorem writeTags_of_outside {address : Nat}
    (header : address < b.start ∨ b.start + 4 ≤ address)
    (footer : address + 4 < b.start + b.size ∨ b.start + b.size ≤ address) :
    writeTags memory b address = memory address := by
  have least := b.least
  rw [writeTags, store32_of_outside (by omega), store32_of_outside header]

theorem writeTags_of_apart {address : Nat}
    (apart : address < b.start ∨ b.start + b.size ≤ address) :
    writeTags memory b address = memory address := by
  have least := b.least
  exact writeTags_of_outside (by omega) (by omega)

theorem Tagged.writeTags (tagged : Tagged memory c)
    (apart : c.start + c.size ≤ b.start ∨ b.start + b.size ≤ c.start) :
    Tagged (writeTags memory b) c := by
  have least := b.least
  have least' := c.least
  refine tagged.congr (fun i bound => ?_) fun i bound => ?_
  · exact writeTags_of_apart (by omega)
  · exact writeTags_of_apart (by omega)

end Tagged

section Code

variable {memory : Bytes} {b : Block}

theorem memBlockSize_eq (tagged : Tagged memory b) :
    memBlockSize memory b.start = .ofNat b.size := by
  rw [memBlockSize, memBtagSize, memBtagSizeMask, tagged.header, tag_and_not_mask]

theorem memBlockAllocated_eq (tagged : Tagged memory b) :
    memBlockAllocated memory b.start = b.allocated := by
  rw [memBlockAllocated, memBlockHeaderBtag, memBtagAllocated, tagged.header, tag_and_mask]
  cases b.allocated <;> rfl

variable (fits : b.size ≤ memHeapSize)
include fits

theorem toNat_ofNat_size : (UInt32.ofNat b.size).toNat = b.size := by
  unfold memHeapSize at fits
  exact UInt32.toNat_ofNat_of_lt' (by rw [UInt32.size]; omega)

theorem memBlockEnd_eq (tagged : Tagged memory b) :
    memBlockEnd memory b.start = b.start + b.size := by
  rw [memBlockEnd, memBlockSize_eq tagged, toNat_ofNat_size fits]

/-- Once the first tag is written, the last one is found. -/
theorem memBlockFooterBtag_eq (memory : Bytes) {word : UInt32}
    (size : word &&& ~~~memBtagAllocatedMask = .ofNat b.size) :
    memBlockFooterBtag (store32 memory b.start word) b.start = b.start + b.size - 4 := by
  rw [memBlockFooterBtag, memBlockEnd, memBlockSize, memBtagSize, memBtagSizeMask, load32_store32,
    size, toNat_ofNat_size fits]

theorem memBlockSetAllocated_eq (tagged : Tagged memory b) :
    memBlockSetAllocated memory b.start = writeTags memory b.taken := by
  have least := b.least
  have footer := memBlockFooterBtag_eq fits memory (tag_and_not_mask b.taken)
  simp only [memBlockSetAllocated, memBlockHeaderBtag, memBtagSetAllocated, tagged.header,
    tag_or_mask, footer]
  rw [load32_store32_of_apart (by omega), tagged.footer, tag_or_mask]
  rfl

theorem memBlockClearAllocated_eq (tagged : Tagged memory b) :
    memBlockClearAllocated memory b.start = writeTags memory b.freed := by
  have least := b.least
  have footer := memBlockFooterBtag_eq fits memory (and_not_mask_of_aligned b.aligned)
  simp only [memBlockClearAllocated, memBlockHeaderBtag, memBtagClearAllocated, tagged.header,
    tag_and_not_mask, footer]
  rw [load32_store32_of_apart (by omega), tagged.footer, tag_and_not_mask]
  simp only [writeTags, tag_freed, Block.freed_start, Block.freed_size]

/-- A new block is an allocated one. -/
theorem memBlockInit_eq (allocated : b.allocated = true) :
    memBlockInit memory b.start (.ofNat b.size) = writeTags memory b := by
  have tag : UInt32.ofNat b.size ||| memBtagAllocatedMask = b.tag := (if_pos allocated).symm
  have init (memory : Bytes) (btag : Nat) :
      memBtagInit memory btag (.ofNat b.size) = store32 memory btag b.tag := by
    rw [memBtagInit, memBtagSetAllocated, load32_store32, store32_store32, tag]
  have footer := memBlockFooterBtag_eq fits memory (tag_and_not_mask b)
  simp only [memBlockInit, init, memBlockHeaderBtag, footer]
  rfl

end Code

end Lpc17xx.Heap
