import Lpc17xx.Heap.Requested
import Lpc17xx.Heap.Reserve
import Lpc17xx.Memory.Ownership

/-!
# The heap as an allocator

The states of the heap that satisfy its invariant, with `get_mem` and `free_mem` between
them, are an allocator.  Its clients write where it does not look, so their writes are left
out.  It serves requests as long as one of its free blocks has room for all of them.
-/

namespace Lpc17xx.Heap

open Lpc17xx.Memory
open Lpc17xx.Transition

namespace HeapState

variable {place : Place} {s : HeapState} {size : UInt32} {ptr : Nat} {memory : Bytes}

/-- The heap after a block was handed out. -/
def handOut (s : HeapState) (size : UInt32) (ptr : Nat) (memory : Bytes) : HeapState where
  memory := memory
  live := (ptr, size) :: s.live

/-- Nobody is handed `NULL`, or a pointer that is live. -/
theorem Sound.fresh (sound : s.Sound place) (positive : size ≠ 0)
    (got : place.getMem s.memory size = some (ptr, memory)) :
    ptr ≠ 0 ∧ ptr ∉ s.live.map Prod.fst := by
  rcases sound with ⟨blocks, nodes, holds⟩
  rcases getMem_spec holds.rep holds.coalesced positive got with
    ⟨a, blocks', nodes', rep, _, live, rfl, _, _⟩
  have distinct := (live.map Block.payload).nodup_iff.mp (nodup_live rep)
  refine ⟨Nat.succ_ne_zero _, fun held => ?_⟩
  exact (List.nodup_cons.mp distinct).1 (holds.live.subset held)

theorem Sound.handOut (sound : s.Sound place) (positive : size ≠ 0)
    (got : place.getMem s.memory size = some (ptr, memory)) :
    (s.handOut size ptr memory).Sound place := by
  have notNull := (sound.fresh positive got).1
  have taken : step place s (.getMem size) = some (s.handOut size ptr memory) := by
    simp [step, HeapState.getMem, got, notNull, HeapState.handOut]
  exact sound_step s _ _ sound taken

/-- The heap after a block was taken back. -/
def takeBack (place : Place) (s : HeapState) (ptr : Nat) : HeapState where
  memory := place.freeMem s.memory ptr
  live := s.live.filter fun entry => entry.1 ≠ ptr

theorem Sound.takeBack (sound : s.Sound place) (live : ptr ∈ s.live.map Prod.fst) :
    (s.takeBack place ptr).Sound place :=
  sound_step s (.freeMem ptr) _ sound (if_pos (.inr live))

end HeapState

/-- A state of the heap with its invariant. -/
structure SoundHeap (place : Place) where
  state : HeapState
  sound : state.Sound place

namespace SoundHeap

variable {place : Place} (heap : SoundHeap place)

/-- The heap after `mem_setup`. -/
def start (place : Place) (memory : Bytes) : SoundHeap place :=
  ⟨.start place memory, HeapState.sound_start place memory⟩

/-- `get_mem`, of a `size_t` that is not zero. -/
def getMem (size : Nat) : Option (Nat × SoundHeap place) :=
  if positive : UInt32.ofNat size ≠ 0 then
    (place.getMem heap.state.memory (.ofNat size)).pmap
      (fun got taken => (got.1, ⟨_, heap.sound.handOut positive taken⟩)) fun _ taken => taken
  else none

/-- `free_mem`, of a pointer that is live. -/
def freeMem (ptr : Nat) : SoundHeap place :=
  if live : ptr ∈ heap.state.live.map Prod.fst then ⟨_, heap.sound.takeBack live⟩ else heap

variable {heap} {heap' : SoundHeap place} {size ptr : Nat}

theorem getMem_eq_some (got : heap.getMem size = some (ptr, heap')) :
    ∃ memory, UInt32.ofNat size ≠ 0 ∧
      place.getMem heap.state.memory (.ofNat size) = some (ptr, memory) ∧
      heap'.state = heap.state.handOut (.ofNat size) ptr memory := by
  unfold getMem at got
  split at got
  · rename_i positive
    rcases Option.pmap_eq_some_iff.mp got with ⟨⟨ptr, memory⟩, taken, allocated, same⟩
    cases same
    exact ⟨memory, positive, allocated, rfl⟩
  · contradiction

end SoundHeap

/-- The heap of the program as an allocator. -/
def allocator (place : Place) : Allocator (SoundHeap place) Nat where
  live heap := (heap.state.live.map Prod.fst).toFinset
  getMem heap size := heap.getMem size
  freeMem heap ptr := heap.freeMem ptr
  fresh := by
    intro heap size ptr heap' got
    rcases SoundHeap.getMem_eq_some got with ⟨memory, positive, allocated, _⟩
    rw [List.mem_toFinset]
    exact (heap.sound.fresh positive allocated).2
  live_getMem := by
    intro heap size ptr heap' got
    rcases SoundHeap.getMem_eq_some got with ⟨memory, _, _, same⟩
    rw [same]
    exact List.toFinset_cons
  live_freeMem := by
    intro heap ptr live
    rw [SoundHeap.freeMem, dif_pos (List.mem_toFinset.mp live)]
    ext other
    simp only [HeapState.takeBack, List.mem_toFinset, List.mem_map, List.mem_filter,
      Finset.mem_erase, decide_eq_true_eq]
    constructor
    · rintro ⟨entry, ⟨held, apart⟩, rfl⟩
      exact ⟨apart, entry, held, rfl⟩
    · rintro ⟨apart, entry, held, rfl⟩
      exact ⟨entry, ⟨held, apart⟩, rfl⟩

/-- The heap of `linker.ld`. -/
def linkedHeap : Allocator (SoundHeap HeapState.linkedPlace) Nat :=
  allocator HeapState.linkedPlace

/-- Some free block has so many bytes. -/
def Place.HasFree (place : Place) (memory : Bytes) (bytes : Nat) : Prop :=
  ∃ e ∈ place.division memory, e.allocated = false ∧ bytes ≤ e.size

instance (place : Place) (memory : Bytes) (bytes : Nat) : Decidable (place.HasFree memory bytes) :=
  inferInstanceAs (Decidable (∃ e ∈ _, _))

theorem Place.HasFree.of_le {place : Place} {memory : Bytes} {fewer bytes : Nat}
    (free : place.HasFree memory bytes) (le : fewer ≤ bytes) : place.HasFree memory fewer := by
  rcases free with ⟨e, member, freed, large⟩
  exact ⟨e, member, freed, Nat.le_trans le large⟩

section Free

variable {place : Place} {memory memory' : Bytes} {blocks : List Block} {nodes : List Nat}
  {size : UInt32} {ptr need n : Nat}

theorem hasFree_iff (rep : Represents place memory blocks nodes) {bytes : Nat} :
    place.HasFree memory bytes ↔ ∃ b ∈ blocks, b.allocated = false ∧ bytes ≤ b.size := by
  rw [Place.HasFree, division_eq rep]
  simp [Block.extent]

/-- The larger the request, the larger the block. -/
theorem blockSize_le {limit : Nat} (bound : limit ≤ maxRequest) {size : Nat} (le : size ≤ limit) :
    blockSize (.ofNat size) ≤ blockSize (.ofNat limit) := by
  have below : limit < 2 ^ 32 := Nat.lt_of_le_of_lt bound (by decide)
  have small : (UInt32.ofNat size).toNat = size :=
    UInt32.toNat_ofNat_of_lt' (Nat.lt_of_le_of_lt le below)
  have large : (UInt32.ofNat limit).toNat = limit := UInt32.toNat_ofNat_of_lt' below
  unfold blockSize
  rw [toNat_memConvertToBlockSize (by omega), toNat_memConvertToBlockSize (by omega), small, large]
  omega

/-- A request takes from a free block no more than a block of its own. -/
theorem hasFree_getMem (rep : Represents place memory blocks nodes) (positive : size ≠ 0)
    (fits : blockSize size ≤ need)
    (free : place.HasFree memory ((n + 2) * need))
    (got : place.getMem memory size = some (ptr, memory')) :
    place.HasFree memory' ((n + 1) * need) := by
  rcases getMem_found positive got with ⟨block, found⟩
  rcases memFreeListFind_found rep found with ⟨b, inside, freeFound, rfl, enough⟩
  rcases List.append_of_mem inside with ⟨before, behind, rfl⟩
  rcases memConvertToBlockSize_spec size with ⟨least, aligned⟩
  rcases (hasFree_iff rep).mp free with ⟨d, member, freed, large⟩
  have more : (n + 2) * need = (n + 1) * need + need := Nat.succ_mul (n + 1) need
  have twice : (n + 1) * need = n * need + need := Nat.succ_mul n need
  unfold blockSize at fits
  by_cases small : b.size < (memConvertToBlockSize size).toNat + 16
  · rcases getMem_whole rep freeFound positive found enough small with ⟨_, returned, rep', _⟩
    cases Option.some.inj (got.symm.trans returned)
    rw [hasFree_iff rep']
    refine ⟨d, ?_, freed, by omega⟩
    rcases List.mem_append.mp member with inFront | rest
    · exact List.mem_append_left _ inFront
    · rcases List.mem_cons.mp rest with rfl | inBack
      · omega
      · exact List.mem_append_right _ (List.mem_cons_of_mem _ inBack)
  · have room : (memConvertToBlockSize size).toNat + 16 ≤ b.size := by omega
    rcases getMem_cut rep freeFound positive found least aligned room with ⟨_, returned, rep', _⟩
    cases Option.some.inj (got.symm.trans returned)
    rw [hasFree_iff rep']
    rcases List.mem_append.mp member with inFront | rest
    · exact ⟨d, List.mem_append_left _ inFront, freed, by omega⟩
    · rcases List.mem_cons.mp rest with rfl | inBack
      · refine ⟨_, List.mem_append_right _ (List.mem_cons_of_mem _ List.mem_cons_self), rfl, ?_⟩
        simp only [Block.freed_size, Block.rest]
        omega
      · exact ⟨d, List.mem_append_right _
          (List.mem_cons_of_mem _ (List.mem_cons_of_mem _ inBack)), freed, by omega⟩

end Free

namespace SoundHeap

variable {place : Place} {heap heap' : SoundHeap place} {limit size ptr n : Nat}

/-- What was handed out last is taken back, and the division is what it was. -/
theorem division_freeMem (got : heap.getMem size = some (ptr, heap')) :
    place.division (heap'.freeMem ptr).state.memory = place.division heap.state.memory := by
  rcases getMem_eq_some got with ⟨memory, _, allocated, same⟩
  rcases heap.sound with ⟨blocks, nodes, holds⟩
  have live : ptr ∈ heap'.state.live.map Prod.fst := by
    rw [same]
    exact List.mem_cons_self
  rw [freeMem, dif_pos live]
  change place.division (place.freeMem heap'.state.memory ptr) = _
  rw [same]
  exact division_freeMem_getMem holds.rep holds.coalesced allocated

theorem hasFree_freeMem {bytes : Nat} (got : heap.getMem size = some (ptr, heap')) :
    place.HasFree (heap'.freeMem ptr).state.memory bytes ↔
      place.HasFree heap.state.memory bytes := by
  rw [Place.HasFree, division_freeMem got]
  rfl

theorem ofNat_ne_zero (bound : limit ≤ maxRequest) (positive : 0 < size) (le : size ≤ limit) :
    UInt32.ofNat size ≠ 0 := by
  intro zero
  have small : (UInt32.ofNat size).toNat = size :=
    UInt32.toNat_ofNat_of_lt' (Nat.lt_of_le_of_lt (Nat.le_trans le bound) (by decide))
  rw [zero] at small
  exact absurd small (Nat.ne_of_lt positive)

/-- A free block that is large enough serves the request. -/
theorem exists_getMem (bound : limit ≤ maxRequest) (positive : 0 < size) (le : size ≤ limit)
    (free : place.HasFree heap.state.memory (blockSize (.ofNat limit))) :
    ∃ ptr heap', heap.getMem size = some (ptr, heap') := by
  rcases heap.sound with ⟨blocks, nodes, holds⟩
  have nonzero := ofNat_ne_zero bound positive le
  have served : place.getMem heap.state.memory (.ofNat size) ≠ none := by
    rw [Ne, getMem_eq_none_iff holds.rep nonzero]
    intro full
    rcases (hasFree_iff holds.rep).mp free with ⟨b, member, freed, large⟩
    exact absurd (Nat.le_trans (blockSize_le bound le) large)
      (Nat.not_le.mpr (full b member freed))
  rcases Option.ne_none_iff_exists'.mp served with ⟨⟨ptr, memory⟩, allocated⟩
  refine ⟨ptr, ⟨_, heap.sound.handOut nonzero allocated⟩, ?_⟩
  rw [SoundHeap.getMem, dif_pos nonzero]
  exact Option.pmap_eq_some_iff.mpr ⟨(ptr, memory), allocated, allocated, rfl⟩

/-- Then there is room for one less. -/
theorem hasFree_of_getMem (bound : limit ≤ maxRequest) (le : size ≤ limit)
    (free : place.HasFree heap.state.memory ((n + 2) * blockSize (.ofNat limit)))
    (got : heap.getMem size = some (ptr, heap')) :
    place.HasFree heap'.state.memory ((n + 1) * blockSize (.ofNat limit)) := by
  rcases getMem_eq_some got with ⟨memory, nonzero, allocated, same⟩
  rcases heap.sound with ⟨blocks, nodes, holds⟩
  rw [same]
  exact hasFree_getMem holds.rep nonzero (blockSize_le bound le) free allocated

/-- A free block serves as many requests as blocks of their size fit in it. -/
theorem spares_of_hasFree (bound : limit ≤ maxRequest)
    (free : place.HasFree heap.state.memory (n * blockSize (.ofNat limit))) :
    (allocator place).Spares limit n heap := by
  induction n generalizing heap with
  | zero => trivial
  | succ n ih =>
      intro size positive le
      have enough : place.HasFree heap.state.memory (blockSize (.ofNat limit)) :=
        free.of_le (Nat.le_mul_of_pos_left _ (Nat.succ_pos n))
      rcases exists_getMem bound positive le enough with ⟨ptr, heap', got⟩
      cases n with
      | zero => exact ⟨ptr, heap', got, trivial, trivial⟩
      | succ n =>
          refine ⟨ptr, heap', got, ih (hasFree_of_getMem bound le free got), ih ?_⟩
          have less : (n + 1) * blockSize (.ofNat limit) ≤ (n + 2) * blockSize (.ofNat limit) :=
            Nat.mul_le_mul_right _ (Nat.le_succ _)
          exact (hasFree_freeMem got).mpr (free.of_le less)

end SoundHeap

end Lpc17xx.Heap
