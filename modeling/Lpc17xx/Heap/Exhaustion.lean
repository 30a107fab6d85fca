import Lpc17xx.Heap.Division

/-!
# When the heap is exhausted

Blocks without free neighbours are the longest runs of free bytes there are, and the free
list has a node of each.  So a search that finds nothing has nothing to find.
-/

namespace Lpc17xx.Heap

open Lpc17xx.Link
open Lpc17xx.Memory
open Lpc17xx.Transition
open Lpc17xx.Tcp (memHeapSize)

namespace Place

variable (place : Place) (memory : Bytes)

/-- The byte belongs to an allocated block. -/
def Occupied (address : Nat) : Prop :=
  ∃ e ∈ place.division memory, e.allocated = true ∧ e.start ≤ address ∧
    address < e.start + e.size

/-- A run of bytes of the heap that belong to no allocated block, and cannot be made longer
on either side. -/
structure FreeRun (first length : Nat) : Prop where
  positive : 0 < length
  inHeap : place.memHeap ≤ first ∧ first + length ≤ place.memHeapEnd
  free : ∀ address, first ≤ address → address < first + length →
    ¬place.Occupied memory address
  left : first = place.memHeap ∨ place.Occupied memory (first - 1)
  right : first + length = place.memHeapEnd ∨ place.Occupied memory (first + length)

/-- The nodes of the free list, as a loop comes by them. -/
def freeList : Option (List Nat) :=
  (Stored.linksIn memory).listForEach place.memFreeList maxRounds

/-- What becomes of a free block that is handed out for `need` bytes: it is allocated, whole
or without the rest behind those bytes, and the rest comes to the head of the free list
unless it would be smaller than `MEM_BLOCK_MIN_SIZE`. -/
structure HandedOut (place : Place) (memory memory' : Bytes) (block need : Nat)
    (before behind : List Extent) (total : Nat) (nodes : List Nat) : Prop where
  found : place.division memory = before ++ ⟨block, total, false⟩ :: behind
  fits : need ≤ total
  whole : total - need < memBlockMinSize.toNat →
    place.division memory' = before ++ ⟨block, total, true⟩ :: behind ∧
      place.freeList memory' = some (nodes.erase (memBlockPayload block))
  cut : memBlockMinSize.toNat ≤ total - need →
    place.division memory' =
        before ++ ⟨block, need, true⟩ :: ⟨block + need, total - need, false⟩ :: behind ∧
      place.freeList memory' =
        some (memBlockPayload (block + need) :: nodes.erase (memBlockPayload block))

end Place

variable {place : Place} {memory : Bytes} {blocks before behind : List Block} {nodes : List Nat}
  {b : Block} {address first length : Nat} {size : UInt32}

/-- Blocks leave no byte out. -/
theorem Laid.covers {start stop : Nat} (laid : Laid start blocks stop) (low : start ≤ address)
    (high : address < stop) :
    ∃ b ∈ blocks, b.start ≤ address ∧ address < b.start + b.size := by
  induction blocks generalizing start with
  | nil =>
      have empty : start = stop := laid
      omega
  | cons b blocks ih =>
      rcases laid with ⟨rfl, rest⟩
      by_cases here : address < b.start + b.size
      · exact ⟨b, List.mem_cons_self, low, here⟩
      · rcases ih rest (Nat.le_of_not_lt here) with ⟨c, member, bounds⟩
        exact ⟨c, List.mem_cons_of_mem b member, bounds⟩

section Runs

variable (rep : Represents place memory blocks nodes)
include rep

theorem freeList_eq : place.freeList memory = some nodes :=
  rep.ring.listForEach (length_nodes_le rep)

theorem occupied_iff : place.Occupied memory address ↔
    ∃ b ∈ blocks, b.allocated = true ∧ b.start ≤ address ∧ address < b.start + b.size := by
  rw [Place.Occupied, division_eq rep]
  simp [Block.extent]

/-- No byte of a free block belongs to an allocated one. -/
theorem not_occupied_of_free (member : b ∈ blocks) (free : b.allocated = false)
    (low : b.start ≤ address) (high : address < b.start + b.size) :
    ¬place.Occupied memory address := by
  rw [occupied_iff rep]
  rintro ⟨c, held, allocated, low', high'⟩
  rcases rep.laid.eq_or_apart member held with rfl | apart
  · simp [free] at allocated
  · omega

variable (coalesced : Coalesced blocks)
include coalesced

/-- A free block is a run: on either side the heap ends or an allocated block begins. -/
theorem freeRun_of_free (member : b ∈ blocks) (free : b.allocated = false) :
    place.FreeRun memory b.start b.size where
  positive := Nat.lt_of_lt_of_le (by decide) b.least
  inHeap := rep.laid.bounds member
  free := fun _ => not_occupied_of_free rep member free
  left := by
    rcases List.append_of_mem member with ⟨before, behind, rfl⟩
    rcases before.eq_nil_or_concat' with rfl | ⟨before, p, rfl⟩
    · exact .inl rep.laid.1
    · right
      rw [← List.append_cons] at rep coalesced
      have allocated : p.allocated = true := by
        have either := (List.isChain_cons_cons.mp (coalesced_split.mp coalesced).2).1
        simpa [free] using either
      have next := (laid_middle.mp rep.laid).2.1
      have least := p.least
      rw [occupied_iff rep]
      exact ⟨p, List.mem_append_right _ List.mem_cons_self, allocated, by omega, by omega⟩
  right := by
    rcases List.append_of_mem member with ⟨before, behind, rfl⟩
    have rest := (laid_middle.mp rep.laid).2
    cases behind with
    | nil => exact .inl rest
    | cons q behind =>
        right
        have allocated : q.allocated = true := by
          have either := (List.isChain_cons_cons.mp (coalesced_split.mp coalesced).2).1
          simpa [free] using either
        have next := rest.1
        have least := q.least
        rw [occupied_iff rep]
        exact ⟨q, List.mem_append_right _ (List.mem_cons_of_mem b List.mem_cons_self), allocated,
          by omega, by omega⟩

/-- The runs are the free blocks. -/
theorem freeRun_iff : place.FreeRun memory first length ↔
    ∃ b ∈ blocks, b.allocated = false ∧ b.start = first ∧ b.size = length := by
  constructor
  · intro run
    have positive := run.positive
    have inHeap := run.inHeap
    rcases rep.laid.covers inHeap.1 (by omega) with ⟨b, member, low, high⟩
    have free : b.allocated = false := by
      cases marked : b.allocated with
      | false => rfl
      | true =>
          have here : place.Occupied memory first :=
            (occupied_iff rep).mpr ⟨b, member, marked, low, high⟩
          exact absurd here (run.free first (Nat.le_refl _) (by omega))
    have inside {address : Nat} := @not_occupied_of_free _ _ _ _ _ address rep member free
    have whole := freeRun_of_free rep coalesced member free
    have bounds := whole.inHeap
    have begins : b.start = first := by
      by_contra other
      rcases run.left with bottom | taken
      · omega
      · exact inside (by omega) (by omega) taken
    have ends : b.start + b.size = first + length := by
      rcases Nat.lt_trichotomy (b.start + b.size) (first + length) with shorter | same | longer
      · rcases whole.right with top | taken
        · omega
        · exact absurd taken (run.free _ (by omega) shorter)
      · exact same
      · rcases run.right with top | taken
        · omega
        · exact absurd taken (inside (by omega) longer)
    exact ⟨b, member, free, begins, by omega⟩
  · rintro ⟨b, member, free, rfl, rfl⟩
    exact freeRun_of_free rep coalesced member free

/-- The search finds a block whenever there is a run that is long enough. -/
theorem find_isSome_iff {found : Option Nat}
    (ends : place.memFreeListFind memory size = some found) :
    found.isSome ↔ ∃ first length, place.FreeRun memory first length ∧ size.toNat ≤ length := by
  have none_iff : place.memFreeListFind memory size = some none ↔
      ∀ b ∈ blocks, b.allocated = false → b.size < size.toNat := memFreeListFind_none_iff rep
  cases found with
  | none =>
      have small := none_iff.mp ends
      simp only [Option.isSome_none, Bool.false_eq_true, false_iff]
      rintro ⟨first, length, run, enough⟩
      rcases (freeRun_iff rep coalesced).mp run with ⟨b, member, free, _, rfl⟩
      exact absurd (small b member free) (Nat.not_lt.mpr enough)
  | some block =>
      rcases memFreeListFind_found rep ends with ⟨b, member, free, _, enough⟩
      simp only [Option.isSome_some, true_iff]
      exact ⟨b.start, b.size, freeRun_of_free rep coalesced member free, enough⟩

end Runs

section Search

variable {wanted : Nat → Bool}

/-- The payload of the block of a node is the node. -/
theorem payload_of_find (rep : Represents place memory blocks nodes) :
    ((nodes.find? wanted).map memBlockFromPayload).map memBlockPayload = nodes.find? wanted := by
  cases found : nodes.find? wanted with
  | none => rfl
  | some node =>
      rcases free_of_mem_nodes rep (List.mem_of_find?_eq_some found) with ⟨b, _, _, rfl, _⟩
      rw [Option.map_some, Option.map_some, memBlockFromPayload_payload]
      rfl

/-- The call returns if the search finds a block. -/
theorem getMem_eq_none_iff_find (positive : size ≠ 0) {found : Option Nat}
    (ends : place.memFreeListFind memory (memConvertToBlockSize size) = some found) :
    place.getMem memory size = none ↔ found = none := by
  cases found with
  | none => simp [Place.getMem, positive, ends]
  | some block => simp [getMem_of_found positive ends]

end Search

section HandedOut

/-- What `get_mem` does with the block found. -/
theorem handedOut (rep : Represents place memory blocks nodes) (positive : size ≠ 0) {block : Nat}
    (found : place.memFreeListFind memory (memConvertToBlockSize size) = some (some block)) :
    ∃ memory' before behind total,
      place.getMem memory size = some (memBlockPayload block, memory') ∧
      place.HandedOut memory memory' block (memConvertToBlockSize size).toNat before behind total
        nodes := by
  rcases memFreeListFind_found rep found with ⟨b, inside, free, rfl, fits⟩
  rcases List.append_of_mem inside with ⟨before, behind, rfl⟩
  rcases memConvertToBlockSize_spec size with ⟨least, aligned⟩
  have least' := toNat_memBlockMinSize
  have here : place.division memory =
      before.map Block.extent ++ ⟨b.start, b.size, false⟩ :: behind.map Block.extent := by
    rw [division_eq rep, List.map_append, List.map_cons, Block.extent, free]
  by_cases small : b.size < (memConvertToBlockSize size).toNat + 16
  · rcases getMem_whole rep free positive found fits small with ⟨memory', returned, rep', _⟩
    refine ⟨memory', _, _, b.size, returned, here, fits, fun _ => ⟨?_, freeList_eq rep'⟩, ?_⟩
    · rw [division_eq rep', List.map_append, List.map_cons]
      rfl
    · intro room
      omega
  · have room : (memConvertToBlockSize size).toNat + 16 ≤ b.size := by omega
    rcases getMem_cut rep free positive found least aligned room with ⟨memory', returned, rep', _⟩
    refine ⟨memory', _, _, b.size, returned, here, fits, ?_, fun _ => ⟨?_, freeList_eq rep'⟩⟩
    · intro short
      omega
    · rw [division_eq rep', List.map_append, List.map_cons, List.map_cons]
      rfl

end HandedOut

namespace HeapState

variable {s : HeapState}

/-- The search of `get_mem` comes to an end; it finds a block if and only if some longest
run of free bytes has room; the block is the first on the free list that is large enough;
and what is left of it is free. -/
theorem no_spurious_exhaustion (reached : Reachable (step place) (start place memory) s)
    (positive : size ≠ 0) :
    ∃ nodes found, place.freeList s.memory = some nodes ∧
      place.memFreeListFind s.memory (memConvertToBlockSize size) = some found ∧
      (found.isSome ↔ ∃ first length, place.FreeRun s.memory first length ∧
        (memConvertToBlockSize size).toNat ≤ length) ∧
      found.map memBlockPayload = nodes.find? (fun freeNode =>
        memConvertToBlockSize size ≤ memBlockSize s.memory (memBlockFromPayload freeNode)) ∧
      (found = none ↔ place.getMem s.memory size = none) ∧
      ∀ block, found = some block → ∃ memory' before behind total,
        place.getMem s.memory size = some (memBlockPayload block, memory') ∧
        place.HandedOut s.memory memory' block (memConvertToBlockSize size).toNat before behind
          total nodes := by
  rcases sound_of_reachable reached with ⟨blocks, nodes, holds⟩
  have rep := holds.rep
  have ends := memFreeListFind_eq rep (memConvertToBlockSize size)
  refine ⟨nodes, _, freeList_eq rep, ends, find_isSome_iff rep holds.coalesced ends, ?_, ?_, ?_⟩
  · exact payload_of_find rep
  · exact (getMem_eq_none_iff_find positive ends).symm
  · intro block found
    rw [found] at ends
    exact handedOut rep positive ends

theorem no_spurious_exhaustion_twoLive :
    ∃ found, linkedPlace.memFreeListFind (twoLive.get twoLive_isSome).memory
      (memConvertToBlockSize 8) = some found := by
  have reached : Reachable (step linkedPlace) (start linkedPlace fun _ => 0)
      (twoLive.get twoLive_isSome) := ⟨_, (Option.some_get twoLive_isSome).symm⟩
  have positive : (8 : UInt32) ≠ 0 := by decide
  rcases no_spurious_exhaustion reached positive with ⟨_, found, _, ends, _⟩
  exact ⟨found, ends⟩

end HeapState

end Lpc17xx.Heap
