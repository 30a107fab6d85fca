import Lpc17xx.Heap.Invariant
import Mathlib.Algebra.BigOperators.Group.List.Basic

/-!
# Allocations that are never freed

A program that allocates at start-up and frees nothing is handed one block behind the
other, from the bottom of the heap on.  The calls return exactly if the blocks fit the
heap.
-/

namespace Lpc17xx.Heap

open Lpc17xx.Link
open Lpc17xx.Memory
open Lpc17xx.Transition
open Lpc17xx.Tcp (memHeapSize)

/-- The size of the block for a request. -/
def blockSize (size : UInt32) : Nat :=
  (memConvertToBlockSize size).toNat

/-- What is left of a free block.  Less than a block is handed out with the last one. -/
def remains (room need : Nat) : Nat :=
  if room - need < 16 then 0 else room - need

/-- The allocations, when the first of their blocks begins at `start`. -/
def layout : Nat → List UInt32 → List (Nat × UInt32)
  | _, [] => []
  | start, size :: sizes => (start + 4, size) :: layout (start + blockSize size) sizes

/-- Allocated blocks only, but for one free block of `room` bytes from `start` on, when
there is any room. -/
inductive Packed (place : Place) (memory : Bytes) : Nat → Nat → Prop
  | room {blocks : List Block} {nodes : List Nat} {b : Block}
      (rep : Represents place memory (blocks ++ [b]) nodes)
      (taken : ∀ c ∈ blocks, c.allocated = true) (free : b.allocated = false) :
      Packed place memory b.start b.size
  | full {blocks : List Block} {nodes : List Nat} {start : Nat}
      (rep : Represents place memory blocks nodes) (taken : ∀ c ∈ blocks, c.allocated = true) :
      Packed place memory start 0

variable {place : Place} {memory : Bytes} {start room : Nat} {size : UInt32} {sizes : List UInt32}

theorem packed_memSetup (place : Place) (memory : Bytes) :
    Packed place (place.memSetup memory) place.memHeap memHeapSize :=
  @Packed.room place _ [] _ _ (represents_memSetup place memory) nofun rfl

theorem sixteen_le_blockSize (size : UInt32) : 16 ≤ blockSize size :=
  (memConvertToBlockSize_spec size).1

/-- Blocks fit what remains exactly if they fit all of it. -/
theorem sum_le_remains {need : Nat} (fits : need ≤ room) :
    (sizes.map blockSize).sum ≤ remains room need ↔ need + (sizes.map blockSize).sum ≤ room := by
  unfold remains
  cases sizes with
  | nil =>
      simp only [List.map_nil, List.sum_nil]
      omega
  | cons size sizes =>
      have least := sixteen_le_blockSize size
      rw [List.map_cons, List.sum_cons]
      split <;> omega

/-- The next block is cut off the free one. -/
theorem Packed.getMem (packed : Packed place memory start room) (positive : size ≠ 0)
    (fits : blockSize size ≤ room) :
    ∃ memory', place.getMem memory size = some (start + 4, memory') ∧
      Packed place memory' (start + blockSize size) (remains room (blockSize size)) := by
  rcases memConvertToBlockSize_spec size with ⟨least, aligned⟩
  cases packed with
  | full rep taken =>
      unfold blockSize at fits
      omega
  | @room blocks nodes b rep taken free =>
      have nodes' : nodes = [b.payload] := by
        have perm := rep.free
        rw [freeNodes_append, freeNodes_of_allocated taken, freeNodes_cons_free free] at perm
        exact List.perm_singleton.mp perm
      have read : memConvertToBlockSize size ≤ memBlockSize memory b.start := by
        have inside : b ∈ blocks ++ [b] := List.mem_append_right _ List.mem_cons_self
        rw [memBlockSize_eq (rep.tagged b inside), UInt32.le_iff_toNat_le,
          toNat_ofNat_size (size_le rep.laid inside)]
        exact fits
      have found : place.memFreeListFind memory (memConvertToBlockSize size) =
          some (some b.start) := by
        rw [memFreeListFind_eq rep, nodes']
        simp [memBlockFromPayload_payload, read]
      by_cases small : b.size < blockSize size + 16
      · rcases getMem_whole rep free positive found fits small with ⟨memory', got, rep', _⟩
        have none : remains b.size (blockSize size) = 0 := if_pos (by omega)
        refine ⟨memory', got, ?_⟩
        rw [none]
        refine .full rep' fun c member => ?_
        rcases List.mem_append.mp member with older | last
        · exact taken c older
        · rw [List.mem_singleton.mp last]
          exact b.taken_allocated
      · have room : blockSize size + 16 ≤ b.size := by omega
        rcases getMem_cut rep free positive found least aligned room with
          ⟨memory', got, rep', _⟩
        have some_ : remains b.size (blockSize size) = b.size - blockSize size :=
          if_neg (by omega)
        rw [List.append_cons] at rep'
        rw [some_]
        refine ⟨memory', got, .room (b := (b.rest _ aligned room).freed) rep' ?_ rfl⟩
        intro c member
        rcases List.mem_append.mp member with older | last
        · exact taken c older
        · rw [List.mem_singleton.mp last]
          rfl

theorem Packed.exhausted (packed : Packed place memory start room) (positive : size ≠ 0)
    (short : room < blockSize size) : place.getMem memory size = none := by
  cases packed with
  | full rep taken =>
      refine (getMem_eq_none_iff rep positive).mpr fun c member free => ?_
      rw [taken c member] at free
      cases free
  | @room blocks nodes b rep taken free =>
      refine (getMem_eq_none_iff rep positive).mpr fun c member free => ?_
      rcases List.mem_append.mp member with older | last
      · rw [taken c older] at free
        cases free
      · rw [List.mem_singleton.mp last]
        exact short

namespace HeapState

variable {s : HeapState}

/-- Calls that fit return, each with the block behind the one before. -/
theorem run_getMem (packed : Packed place s.memory start room) (positive : ∀ size ∈ sizes, size ≠ 0)
    (fits : (sizes.map blockSize).sum ≤ room) :
    ∃ memory, run (step place) s (sizes.map .getMem) =
      some ⟨memory, (layout start sizes).reverse ++ s.live⟩ := by
  induction sizes generalizing s start room with
  | nil => exact ⟨s.memory, rfl⟩
  | cons size sizes ih =>
      rcases List.forall_mem_cons.mp positive with ⟨here, others⟩
      rw [List.map_cons, List.sum_cons] at fits
      have enough : blockSize size ≤ room := by omega
      rcases packed.getMem here enough with ⟨memory, got, packed'⟩
      have taken : step place s (.getMem size) =
          some ⟨memory, (start + 4, size) :: s.live⟩ := by
        change (place.getMem s.memory size).map _ = _
        rw [got]
        rfl
      rcases ih (s := ⟨memory, (start + 4, size) :: s.live⟩) packed' others
        ((sum_le_remains enough).mpr fits) with ⟨memory', executed⟩
      refine ⟨memory', ?_⟩
      rw [List.map_cons, run_cons, taken]
      refine executed.trans ?_
      rw [layout, List.reverse_cons, List.append_assoc]
      rfl

/-- One call that does not fit stops the program. -/
theorem run_getMem_eq_none (packed : Packed place s.memory start room)
    (positive : ∀ size ∈ sizes, size ≠ 0) (exceeds : room < (sizes.map blockSize).sum) :
    run (step place) s (sizes.map .getMem) = none := by
  induction sizes generalizing s start room with
  | nil => exact absurd exceeds (Nat.not_lt_zero _)
  | cons size sizes ih =>
      rcases List.forall_mem_cons.mp positive with ⟨here, others⟩
      rw [List.map_cons, List.sum_cons] at exceeds
      rw [List.map_cons, run_cons]
      change ((place.getMem s.memory size).map _).bind _ = none
      by_cases enough : blockSize size ≤ room
      · rcases packed.getMem here enough with ⟨memory, got, packed'⟩
        rw [got]
        refine ih (s := ⟨memory, (start + 4, size) :: s.live⟩) packed' others ?_
        by_contra fits
        have whole := (sum_le_remains enough).mp (Nat.le_of_not_lt fits)
        omega
      · rw [packed.exhausted here (Nat.lt_of_not_le enough)]
        rfl

end HeapState

end Lpc17xx.Heap
