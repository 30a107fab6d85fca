import Lpc17xx.Heap.Invariant

/-!
# The division of the heap

What a walk from tag to tag finds.  Blocks without free neighbours are determined by the
allocated ones among them, so the division of the heap is determined by what is allocated,
however that came about: by which calls, and in which order.
-/

namespace Lpc17xx.Heap

open Lpc17xx.Memory
open Lpc17xx.Transition
open Lpc17xx.Tcp (memHeapSize)

/-- A block, as its first tag has it. -/
structure Extent where
  start : Nat
  size : Nat
  allocated : Bool
  deriving DecidableEq, Repr

/-- The block as its tags would have it. -/
def Block.extent (b : Block) : Extent where
  start := b.start
  size := b.size
  allocated := b.allocated

namespace Place

variable (place : Place) (memory : Bytes)

/-- The blocks from `block` on, led to by `mem_block_next`. -/
def extentsFrom : Nat → Nat → List Extent
  | 0, _ => []
  | rounds + 1, block =>
      { start := block
        size := (memBlockSize memory block).toNat
        allocated := memBlockAllocated memory block } ::
      match place.memBlockNext memory block with
      | none => []
      | some next => extentsFrom rounds next

/-- The blocks of the heap, in the order of their addresses. -/
def division : List Extent :=
  place.extentsFrom memory maxRounds place.memHeap

end Place

section Unique

variable {start stop : Nat} {blocks blocks' : List Block} {b c : Block}

/-- A block is no more than its extent. -/
theorem eq_of_extent (same : b.extent = c.extent) : b = c := by
  rcases b with ⟨start, size, allocated, _, _⟩
  rcases c with ⟨start', size', allocated', _, _⟩
  rcases Extent.mk.inj same with ⟨rfl, rfl, rfl⟩
  rfl

/-- A block that begins where the first one does is the first one. -/
theorem eq_first (laid : Laid start (c :: blocks) stop) (member : b ∈ c :: blocks)
    (same : b.start = c.start) : b = c := by
  have least := b.least
  have least' := c.least
  rcases laid.eq_or_apart List.mem_cons_self member with equal | apart
  · exact equal
  · omega

/-- Behind a free block is an allocated one or nothing, and a free block reaches so far at
least. -/
theorem size_le_of_free (laid : Laid start (b :: blocks) stop)
    (laid' : Laid start (c :: blocks') stop) (coalesced : Coalesced (b :: blocks))
    (free : b.allocated = false) (free' : c.allocated = false)
    (live : liveBlocks (b :: blocks) ⊆ liveBlocks (c :: blocks')) : c.size ≤ b.size := by
  rcases laid with ⟨here, rest⟩
  have here' := laid'.1
  have reach := laid'.2.le
  cases blocks with
  | nil =>
      have last : b.start + b.size = stop := rest
      omega
  | cons d blocks =>
      have allocated : d.allocated = true := by
        have either := (List.isChain_cons_cons.mp coalesced).1
        simpa [free] using either
      have next : d.start = b.start + b.size := rest.1
      have least := d.least
      have held : d ∈ liveBlocks (b :: d :: blocks) :=
        mem_liveBlocks.mpr ⟨List.mem_cons_of_mem b List.mem_cons_self, allocated⟩
      have inside := (mem_liveBlocks.mp (live held)).1
      rcases laid'.eq_or_apart List.mem_cons_self inside with rfl | apart
      · simp [free'] at allocated
      · omega

/-- The first blocks are the same. -/
theorem first_eq (laid : Laid start (b :: blocks) stop) (laid' : Laid start (c :: blocks') stop)
    (coalesced : Coalesced (b :: blocks)) (coalesced' : Coalesced (c :: blocks'))
    (live : (liveBlocks (b :: blocks)).Perm (liveBlocks (c :: blocks'))) : b = c := by
  have same : b.start = c.start := laid.1.trans laid'.1.symm
  cases first : b.allocated with
  | true =>
      have held := live.subset (mem_liveBlocks.mpr ⟨List.mem_cons_self, first⟩)
      exact eq_first laid' (mem_liveBlocks.mp held).1 same
  | false =>
      cases second : c.allocated with
      | true =>
          have held := live.symm.subset (mem_liveBlocks.mpr ⟨List.mem_cons_self, second⟩)
          exact (eq_first laid (mem_liveBlocks.mp held).1 same.symm).symm
      | false =>
          have size : b.size = c.size := Nat.le_antisymm
            (size_le_of_free laid' laid coalesced' second first live.symm.subset)
            (size_le_of_free laid laid' coalesced first second live.subset)
          apply eq_of_extent
          rw [Block.extent, Block.extent, same, size, first, second]

/-- Blocks without free neighbours are determined by the allocated ones. -/
theorem eq_of_liveBlocks (laid : Laid start blocks stop) (laid' : Laid start blocks' stop)
    (coalesced : Coalesced blocks) (coalesced' : Coalesced blocks')
    (live : (liveBlocks blocks).Perm (liveBlocks blocks')) : blocks = blocks' := by
  induction blocks generalizing start blocks' with
  | nil =>
      cases blocks' with
      | nil => rfl
      | cons c blocks' =>
          have here : start = stop := laid
          have bounds := laid'.bounds List.mem_cons_self
          have least := c.least
          omega
  | cons b blocks ih =>
      cases blocks' with
      | nil =>
          have here : start = stop := laid'
          have bounds := laid.bounds List.mem_cons_self
          have least := b.least
          omega
      | cons c blocks' =>
          rcases first_eq laid laid' coalesced coalesced' live with rfl
          have rest : (liveBlocks blocks).Perm (liveBlocks blocks') := by
            cases marked : b.allocated with
            | true =>
                rw [liveBlocks_cons_allocated marked, liveBlocks_cons_allocated marked] at live
                exact live.cons_inv
            | false =>
                rw [liveBlocks_cons_free marked, liveBlocks_cons_free marked] at live
                exact live
          rw [ih laid.2 laid'.2 coalesced.tail coalesced'.tail rest]

end Unique

section Walk

variable {place : Place} {memory : Bytes} {blocks before behind : List Block} {nodes : List Nat}
  {b : Block}

/-- The tags lead from one block to the next, up to the end of the heap. -/
theorem extentsFrom_eq (rep : Represents place memory (before ++ b :: behind) nodes)
    {rounds : Nat} (enough : (b :: behind).length ≤ rounds) :
    place.extentsFrom memory rounds b.start = (b :: behind).map Block.extent := by
  induction behind generalizing before b rounds with
  | nil =>
      cases rounds with
      | zero => simp at enough
      | succ rounds =>
          have inside : b ∈ before ++ [b] := List.mem_append_right _ List.mem_cons_self
          have tagged := rep.tagged b inside
          rw [Place.extentsFrom, memBlockNext_last rep, memBlockSize_eq tagged,
            toNat_ofNat_size (size_le rep.laid inside), memBlockAllocated_eq tagged]
          rfl
  | cons q behind ih =>
      cases rounds with
      | zero => simp at enough
      | succ rounds =>
          have inside : b ∈ before ++ b :: q :: behind :=
            List.mem_append_right _ List.mem_cons_self
          have tagged := rep.tagged b inside
          have next := memBlockNext_eq rep
          rw [List.append_cons] at rep
          have rest := ih rep (Nat.le_of_succ_le_succ enough)
          rw [← List.append_cons] at rep
          rw [Place.extentsFrom, next, memBlockSize_eq tagged,
            toNat_ofNat_size (size_le rep.laid inside), memBlockAllocated_eq tagged]
          simp only [rest]
          rfl

/-- A walk finds the blocks that are represented. -/
theorem division_eq (rep : Represents place memory blocks nodes) :
    place.division memory = blocks.map Block.extent := by
  have length := rep.laid.length
  cases blocks with
  | nil =>
      have empty : place.memHeap = place.memHeapEnd := rep.laid
      rw [Place.memHeapEnd, memHeapSize] at empty
      omega
  | cons b blocks =>
      have first : b.start = place.memHeap := rep.laid.1
      rw [Place.memHeapEnd] at length
      rw [Place.division, ← first]
      refine @extentsFrom_eq place memory [] blocks nodes b rep _ ?_
      rw [Place.maxRounds]
      omega

end Walk

section Frees

variable {place : Place} {memory memory' : Bytes} {blocks blocks' : List Block}
  {nodes nodes' : List Nat}

/-- The same blocks are allocated, so the division is the same. -/
theorem division_eq_of_liveBlocks (rep : Represents place memory blocks nodes)
    (rep' : Represents place memory' blocks' nodes') (coalesced : Coalesced blocks)
    (coalesced' : Coalesced blocks') (live : (liveBlocks blocks).Perm (liveBlocks blocks')) :
    place.division memory = place.division memory' := by
  rw [division_eq rep, division_eq rep',
    eq_of_liveBlocks rep.laid rep'.laid coalesced coalesced' live]

/-- Without the block of a pointer, the others are left. -/
theorem filter_of_perm {b : Block} {rest : List Block}
    (live : (liveBlocks blocks).Perm (b :: rest))
    (distinct : ((liveBlocks blocks).map Block.payload).Nodup) :
    rest.Perm ((liveBlocks blocks).filter (·.payload ≠ b.payload)) := by
  have apart := (List.nodup_cons.mp ((live.map Block.payload).nodup_iff.mp distinct)).1
  have kept := live.filter (·.payload ≠ b.payload)
  have all : rest.filter (·.payload ≠ b.payload) = rest := by
    refine List.filter_eq_self.mpr fun c member => decide_eq_true ?_
    intro same
    exact apart (same ▸ List.mem_map_of_mem member)
  rw [List.filter_cons_of_neg (by simp), all] at kept
  exact kept.symm

theorem nodup_live (rep : Represents place memory blocks nodes) :
    ((liveBlocks blocks).map Block.payload).Nodup :=
  rep.laid.nodup.sublist (List.filter_sublist.map Block.payload)

/-- Calls of `free_mem`, one after the other: the blocks of the pointers are free, the others
are as they were. -/
theorem foldl_freeMem_spec (rep : Represents place memory blocks nodes)
    (coalesced : Coalesced blocks) {ptrs : List Nat} (nodup : ptrs.Nodup)
    (live : ptrs ⊆ (liveBlocks blocks).map Block.payload) :
    ∃ blocks' nodes', Represents place (ptrs.foldl place.freeMem memory) blocks' nodes' ∧
      Coalesced blocks' ∧
      (liveBlocks blocks').Perm ((liveBlocks blocks).filter (·.payload ∉ ptrs)) := by
  induction ptrs generalizing memory blocks nodes with
  | nil =>
      refine ⟨blocks, nodes, rep, coalesced, ?_⟩
      simp
  | cons ptr ptrs ih =>
      rcases List.nodup_cons.mp nodup with ⟨fresh, others⟩
      rcases List.mem_map.mp (live List.mem_cons_self) with ⟨b, held, rfl⟩
      rcases mem_liveBlocks.mp held with ⟨inside, allocated⟩
      rcases freeMem_spec rep coalesced inside allocated with
        ⟨blocks', nodes', rep', coalesced', left, _⟩
      have kept := filter_of_perm left (nodup_live rep)
      have live' : ptrs ⊆ (liveBlocks blocks').map Block.payload := by
        intro ptr member
        rcases List.mem_map.mp (live (List.mem_cons_of_mem _ member)) with ⟨c, older, rfl⟩
        have other : c.payload ≠ b.payload := ne_of_mem_of_not_mem member fresh
        exact List.mem_map_of_mem
          (kept.symm.subset (List.mem_filter.mpr ⟨older, decide_eq_true other⟩))
      rcases ih rep' coalesced' others live' with ⟨last, nodes'', rep'', coalesced'', rest⟩
      refine ⟨last, nodes'', rep'', coalesced'', rest.trans ?_⟩
      refine (kept.filter _).trans ?_
      rw [List.filter_filter]
      refine List.Perm.of_eq (List.filter_congr fun c _ => ?_)
      simp [Bool.and_comm]

/-- Everything that was live is freed, and the heap is one free block. -/
theorem division_of_none_live (rep : Represents place memory blocks nodes)
    (coalesced : Coalesced blocks) (none : liveBlocks blocks = []) :
    place.division memory =
      [{ start := place.memHeap, size := memHeapSize, allocated := false }] := by
  have initial := represents_memSetup place memory
  have single : Coalesced [place.whole.freed] := List.isChain_singleton _
  have live : (liveBlocks blocks).Perm (liveBlocks [place.whole.freed]) := by
    rw [none]
    exact List.Perm.refl _
  rw [division_eq_of_liveBlocks rep initial coalesced single live, division_eq initial]
  rfl

/-- What was allocated last is freed, and the division is what it was. -/
theorem division_freeMem_getMem (rep : Represents place memory blocks nodes)
    (coalesced : Coalesced blocks) {size : UInt32} {ptr : Nat}
    (got : place.getMem memory size = some (ptr, memory')) :
    place.division (place.freeMem memory' ptr) = place.division memory := by
  by_cases zero : size = 0
  · subst zero
    rw [getMem_zero] at got
    cases got
    rw [Place.freeMem, if_pos rfl]
  · rcases getMem_spec rep coalesced zero got with
      ⟨a, blocks1, nodes1, rep1, coalesced1, live1, rfl, _, _⟩
    rcases mem_liveBlocks.mp (live1.symm.subset List.mem_cons_self) with ⟨inside, allocated⟩
    rcases freeMem_spec rep1 coalesced1 inside allocated with
      ⟨blocks2, nodes2, rep2, coalesced2, live2, _⟩
    exact division_eq_of_liveBlocks rep2 rep coalesced2 coalesced
      (live2.symm.trans live1).cons_inv

end Frees

namespace HeapState

variable {place : Place} {memory : Bytes} {s : HeapState}

theorem sound_of_reachable (reached : Reachable (step place) (start place memory) s) :
    s.Sound place :=
  invariant_of_reachable sound_step (sound_start place memory) reached

/-- Live pointers may be freed in any order: the division is the same, and that of an empty
heap when all were freed.  To free what was just allocated is to go back. -/
theorem division_any_order (reached : Reachable (step place) (start place memory) s) :
    (∀ ptrs ptrs' : List Nat, ptrs.Nodup → ptrs ⊆ s.live.map Prod.fst → ptrs.Perm ptrs' →
      place.division (ptrs.foldl place.freeMem s.memory) =
        place.division (ptrs'.foldl place.freeMem s.memory) ∧
      (s.live.map Prod.fst ⊆ ptrs →
        place.division (ptrs.foldl place.freeMem s.memory) =
          [{ start := place.memHeap, size := memHeapSize, allocated := false }])) ∧
    ∀ size ptr memory', place.getMem s.memory size = some (ptr, memory') →
      place.division (place.freeMem memory' ptr) = place.division s.memory := by
  rcases sound_of_reachable reached with ⟨blocks, nodes, holds⟩
  constructor
  · intro ptrs ptrs' nodup subset perm
    have live : ptrs ⊆ (liveBlocks blocks).map Block.payload :=
      fun _ member => holds.live.subset (subset member)
    rcases foldl_freeMem_spec holds.rep holds.coalesced nodup live with
      ⟨blocks1, nodes1, rep1, coalesced1, live1⟩
    rcases foldl_freeMem_spec holds.rep holds.coalesced (perm.nodup_iff.mp nodup)
        (fun _ member => live (perm.symm.subset member)) with
      ⟨blocks2, nodes2, rep2, coalesced2, live2⟩
    constructor
    · refine division_eq_of_liveBlocks rep1 rep2 coalesced1 coalesced2 ?_
      refine live1.trans (List.Perm.trans (List.Perm.of_eq ?_) live2.symm)
      refine List.filter_congr fun b _ => ?_
      simp only [perm.mem_iff]
    · intro all
      refine division_of_none_live rep1 coalesced1 (List.Perm.eq_nil ?_)
      refine live1.trans (List.Perm.of_eq (List.filter_eq_nil_iff.mpr fun b held => ?_))
      have freed : b.payload ∈ ptrs :=
        all (holds.live.symm.subset (List.mem_map_of_mem held))
      simp [freed]
  · intro size ptr memory' got
    exact division_freeMem_getMem holds.rep holds.coalesced got

section Linked

/-- The heap of `linker.ld`, with the head of the free list at the bottom of `ram1`. -/
def linkedPlace : Place :=
  .linked 0x10000000 (by decide) (by decide)

/-- Two blocks of eight bytes are live. -/
def twoLive : Option HeapState :=
  run (step linkedPlace) (start linkedPlace fun _ => 0) [.getMem 8, .getMem 8]

theorem twoLive_isSome : twoLive.isSome := by
  decide +kernel

theorem division_any_order_twoLive :
    linkedPlace.division
        ([0x2007C004, 0x2007C014].foldl linkedPlace.freeMem (twoLive.get twoLive_isSome).memory) =
      linkedPlace.division
        ([0x2007C014, 0x2007C004].foldl linkedPlace.freeMem
          (twoLive.get twoLive_isSome).memory) :=
  ((division_any_order ⟨_, (Option.some_get twoLive_isSome).symm⟩).1 _ _ (by decide)
    (by
      intro ptr member
      revert ptr
      decide +kernel)
    (List.Perm.swap _ _ _)).1

end Linked

end HeapState

end Lpc17xx.Heap
