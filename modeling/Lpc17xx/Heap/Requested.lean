import Lpc17xx.Heap.Exhaustion

/-!
# What was asked for

`mem_convert_to_block_size` rounds a request up and adds two tags, in words of 32 bits.  For
the last few requests of that range the sum is zero or so, and a block of the smallest size
is handed out for them.
-/

namespace Lpc17xx.Heap

open Lpc17xx.Memory
open Lpc17xx.Transition
open Lpc17xx.Tcp (memHeapSize)

/-- The largest request that can be rounded up and tagged: `SIZE_MAX` less eleven. -/
def maxRequest : Nat := 2 ^ 32 - 12

/-- Bytes from `ptr` on, `size` many, end before the last tag of the block. -/
def InPayload (memory : Bytes) (ptr : Nat) (size : UInt32) : Prop :=
  ptr + size.toNat + 4 ≤ memBlockEnd memory (memBlockFromPayload ptr)

instance (memory : Bytes) (ptr : Nat) (size : UInt32) : Decidable (InPayload memory ptr size) :=
  inferInstanceAs (Decidable (_ ≤ _))

/-- A pointer that is returned has room for what was asked for. -/
def HasRoom (place : Place) (memory : Bytes) (size : UInt32) : Prop :=
  ∀ ptr memory', place.getMem memory size = some (ptr, memory') → ptr ≠ 0 →
    InPayload memory' ptr size

/-- The request is honoured, and the block size has room for it and for two tags. -/
structure Honoured (place : Place) (memory : Bytes) (size : UInt32) : Prop where
  room : HasRoom place memory size
  large : size.toNat + 8 ≤ (memConvertToBlockSize size).toNat

section Convert

variable {size : UInt32}

theorem toNat_memConvertToBlockSize (fits : size.toNat ≤ maxRequest) :
    (memConvertToBlockSize size).toNat = max ((size.toNat + 3) / 4 * 4 + 8) 16 := by
  have rounded := toNat_p2round size
  have minSize := toNat_memBlockMinSize
  have sum : (p2round size memAlign + 4 * 2).toNat =
      ((p2round size memAlign).toNat + 8) % 2 ^ 32 := UInt32.toNat_add _ _
  unfold maxRequest at fits
  simp only [memConvertToBlockSize, UInt32.lt_iff_toNat_lt, minSize]
  split
  · rw [minSize]
    omega
  · omega

/-- The sum wraps around, and the smallest size is taken. -/
theorem memConvertToBlockSize_of_wrap (wraps : maxRequest < size.toNat) :
    (memConvertToBlockSize size).toNat = 16 := by
  have rounded := toNat_p2round size
  have minSize := toNat_memBlockMinSize
  have bound := size.toNat_lt
  have sum : (p2round size memAlign + 4 * 2).toNat =
      ((p2round size memAlign).toNat + 8) % 2 ^ 32 := UInt32.toNat_add _ _
  unfold maxRequest at wraps
  simp only [memConvertToBlockSize, UInt32.lt_iff_toNat_lt, minSize]
  rw [if_pos (by omega), minSize]

theorem large_iff :
    size.toNat + 8 ≤ (memConvertToBlockSize size).toNat ↔ size.toNat ≤ maxRequest := by
  constructor
  · intro large
    by_contra wraps
    have small := memConvertToBlockSize_of_wrap (Nat.lt_of_not_le wraps)
    unfold maxRequest at wraps
    omega
  · intro fits
    rw [toNat_memConvertToBlockSize fits]
    omega

end Convert

section Room

variable {place : Place} {memory memory' : Bytes} {blocks : List Block} {nodes : List Nat}
  {size : UInt32} {ptr : Nat}

/-- The block handed out is as large as its tag says. -/
theorem inPayload_iff (rep : Represents place memory blocks nodes) {a : Block}
    (member : a ∈ blocks) : InPayload memory a.payload size ↔ size.toNat + 8 ≤ a.size := by
  rw [InPayload, memBlockFromPayload_payload,
    memBlockEnd_eq (size_le rep.laid member) (rep.tagged a member), Block.payload]
  omega

/-- No block is free, so that nothing is handed out. -/
theorem getMem_of_none_free (rep : Represents place memory blocks nodes) (positive : size ≠ 0)
    (full : ∀ e ∈ place.division memory, e.allocated = true) :
    place.getMem memory size = none := by
  rw [division_eq rep] at full
  refine (getMem_eq_none_iff rep positive).mpr fun b member free => ?_
  have allocated : b.allocated = true := full b.extent (List.mem_map_of_mem member)
  simp [free] at allocated

/-- A pointer has room unless the block size was wrapped around. -/
theorem hasRoom_iff (rep : Represents place memory blocks nodes) (coalesced : Coalesced blocks)
    (positive : size ≠ 0) : HasRoom place memory size ↔
      size.toNat ≤ maxRequest ∨ ∀ e ∈ place.division memory, e.allocated = true := by
  constructor
  · intro room
    by_contra neither
    rcases not_or.mp neither with ⟨wraps, someFree⟩
    have small := memConvertToBlockSize_of_wrap (Nat.lt_of_not_le wraps)
    have returns : place.getMem memory size ≠ none := by
      intro halts
      apply someFree
      rw [division_eq rep]
      intro e member
      rcases List.mem_map.mp member with ⟨b, inside, rfl⟩
      have least := b.least
      cases marked : b.allocated with
      | true => exact marked
      | false =>
          have tooSmall := (getMem_eq_none_iff rep positive).mp halts b inside marked
          omega
    rcases Option.ne_none_iff_exists'.mp returns with ⟨⟨ptr, memory'⟩, got⟩
    rcases getMem_spec rep coalesced positive got with ⟨a, _, _, rep', _, live, rfl, _, _⟩
    have member := (mem_liveBlocks.mp (live.symm.subset List.mem_cons_self)).1
    have total := size_le rep'.laid member
    have fits := (inPayload_iff rep' member).mp (room _ _ got (Nat.succ_ne_zero _))
    unfold maxRequest at wraps
    unfold memHeapSize at total
    omega
  · rintro (fits | full) ptr memory' got notNull
    · rcases getMem_spec rep coalesced positive got with ⟨a, _, _, rep', _, live, rfl, enough, _⟩
      have member := (mem_liveBlocks.mp (live.symm.subset List.mem_cons_self)).1
      exact (inPayload_iff rep' member).mpr (Nat.le_trans (large_iff.mpr fits) enough)
    · rw [getMem_of_none_free rep positive full] at got
      contradiction

end Room

namespace HeapState

variable {place : Place} {memory : Bytes} {s : HeapState} {size : UInt32}

/-- In every reachable state, a request is honoured if and only if it can be rounded up and
tagged.  Beyond that, a pointer without room is returned as long as any block is free. -/
theorem request_honoured_iff (reached : Reachable (step place) (start place memory) s)
    (positive : size ≠ 0) :
    (Honoured place s.memory size ↔ size.toNat ≤ maxRequest) ∧
      (HasRoom place s.memory size ↔
        size.toNat ≤ maxRequest ∨ ∀ e ∈ place.division s.memory, e.allocated = true) := by
  rcases sound_of_reachable reached with ⟨blocks, nodes, holds⟩
  have room := hasRoom_iff holds.rep holds.coalesced positive
  refine ⟨⟨?_, ?_⟩, room⟩
  · intro honoured
    exact large_iff.mp honoured.large
  · intro fits
    exact ⟨room.mpr (.inl fits), large_iff.mpr fits⟩

theorem request_honoured_iff_start :
    Honoured linkedPlace (start linkedPlace fun _ => 0).memory 100 := by
  have positive : (100 : UInt32) ≠ 0 := by decide
  exact (request_honoured_iff ⟨[], rfl⟩ positive).1.mpr (by decide)

/-- What `get_mem` returns for a request of `SIZE_MAX` bytes. -/
def largest : Option (Nat × Bytes) :=
  linkedPlace.getMem (start linkedPlace fun _ => 0).memory 0xFFFFFFFF

theorem largest_isSome : largest.isSome := by
  decide +kernel

/-- A block of sixteen bytes is handed out for four gigabytes. -/
theorem request_not_honoured :
    (memConvertToBlockSize 0xFFFFFFFF).toNat = 16 ∧
      (largest.get largest_isSome).1 = 0x2007C004 ∧
      memBlockSize (largest.get largest_isSome).2 0x2007C000 = 16 ∧
      ¬Honoured linkedPlace (start linkedPlace fun _ => 0).memory 0xFFFFFFFF := by
  have first : (largest.get largest_isSome).1 = 0x2007C004 := by decide +kernel
  refine ⟨by decide, first, by decide +kernel, ?_⟩
  intro honoured
  have got : linkedPlace.getMem (start linkedPlace fun _ => 0).memory 0xFFFFFFFF =
      some ((largest.get largest_isSome).1, (largest.get largest_isSome).2) :=
    (Option.some_get largest_isSome).symm
  have notNull : (largest.get largest_isSome).1 ≠ 0 := by
    rw [first]
    decide
  have room := honoured.room _ _ got notNull
  revert room
  decide +kernel

end HeapState

end Lpc17xx.Heap
