import Lpc17xx.Heap.Represents

/-!
# Steps inside the allocator

What `get_mem` and `free_mem` are made of: a block comes on the free list or off it, and
allocated blocks are cut in two or joined.  Each step leads from a represented sequence to
a represented sequence and keeps what is foreign to it.
-/

namespace Lpc17xx.Heap

open Lpc17xx.Link
open Lpc17xx.Memory
open Lpc17xx.Tcp (memHeapSize)

variable {place : Place} {memory memory' : Bytes} {blocks before behind : List Block}
  {nodes : List Nat} {b c d : Block}

theorem Represents.within (rep : Represents place memory blocks nodes) :
    place.memFreeList :: nodes ⊆ spots place blocks := by
  intro node member
  rcases List.mem_cons.mp member with rfl | inside
  · exact List.mem_cons_self
  · rcases mem_freeNodes.mp (rep.free.subset inside) with ⟨f, held, _, rfl⟩
    exact List.mem_cons_of_mem _ (List.mem_map_of_mem held)

theorem kept_subset : before ++ behind ⊆ before ++ b :: behind :=
  List.append_subset.mpr ⟨List.subset_append_left _ _,
    fun _ other => List.mem_append_right _ (List.mem_cons_of_mem b other)⟩

section Retag

variable (laid : Laid place.memHeap (before ++ b :: behind) place.memHeapEnd)
  (start : d.start = b.start) (size : d.size = b.size)
include laid start size

theorem laid_retag : Laid place.memHeap (before ++ d :: behind) place.memHeapEnd := by
  rw [laid_middle, start, size]
  exact laid_middle.mp laid

theorem tagged_retag (tagged : ∀ c ∈ before ++ b :: behind, Tagged memory c) :
    ∀ c ∈ before ++ d :: behind, Tagged (writeTags memory d) c := by
  intro c member
  have others (inside : c ∈ before ++ behind) : Tagged (writeTags memory d) c := by
    have apart := laid.apart inside
    rw [← start, ← size] at apart
    refine (tagged c ?_).writeTags apart
    rcases List.mem_append.mp inside with inFront | inBack
    · exact List.mem_append_left _ inFront
    · exact List.mem_append_right _ (List.mem_cons_of_mem b inBack)
  rcases List.mem_append.mp member with inFront | rest
  · exact others (List.mem_append_left _ inFront)
  · rcases List.mem_cons.mp rest with rfl | inBack
    · exact tagged_writeTags memory c
    · exact others (List.mem_append_right _ inBack)

theorem ring_retag (ring : (Stored.linksIn memory).Ring place.memFreeList nodes)
    (within : place.memFreeList :: nodes ⊆ spots place (before ++ b :: behind)) :
    (Stored.linksIn (writeTags memory d)).Ring place.memFreeList nodes := by
  have least := d.least
  refine Stored.ring_congr ring fun node member i bound => ?_
  have cases := spot_cases laid (within member) (List.mem_append_right _ List.mem_cons_self)
  rw [← start, ← size, Block.payload, ← start] at cases
  exact writeTags_of_outside (by omega) (by omega)

theorem keeps_retag : Keeps place (before ++ behind) memory (writeTags memory d) := by
  intro address foreign
  have apart := foreign_apart laid foreign
  rw [← start, ← size] at apart
  exact writeTags_of_apart apart

end Retag

section Free

variable (rep : Represents place memory (before ++ b :: behind) nodes)
include rep

theorem memFreeListAdd_eq : place.memFreeListAdd memory b.start =
    Stored.listAdd (writeTags memory b.freed) b.payload place.memFreeList := by
  have member : b ∈ before ++ b :: behind := List.mem_append_right _ List.mem_cons_self
  rw [Place.memFreeListAdd, memBlockClearAllocated_eq (size_le rep.laid member)
    (rep.tagged b member)]
  rfl

/-- An allocated block is not on the free list. -/
theorem payload_not_mem_nodes (allocated : b.allocated = true) :
    b.payload ∉ place.memFreeList :: nodes := by
  have free := rep.free
  rw [freeNodes_append, freeNodes_cons_allocated allocated, ← freeNodes_append] at free
  intro member
  rcases List.mem_cons.mp member with same | inside
  · have bounds := rep.laid.bounds (b := b) (List.mem_append_right _ List.mem_cons_self)
    have least := b.least
    have apart := place.apart
    rw [Place.memHeapEnd] at bounds
    simp only [Block.payload] at same
    omega
  · exact payload_not_mem_freeNodes rep.laid (free.subset inside)

/-- An allocated block comes on the free list. -/
theorem Represents.memFreeListAdd (allocated : b.allocated = true) :
    Represents place (place.memFreeListAdd memory b.start) (before ++ b.freed :: behind)
        (b.payload :: nodes) ∧
      Keeps place (before ++ behind) memory (place.memFreeListAdd memory b.start) := by
  have laid := laid_retag (d := b.freed) rep.laid rfl rfl
  have tagged := tagged_retag (d := b.freed) rep.laid rfl rfl rep.tagged
  have ring := ring_retag (d := b.freed) rep.laid rfl rfl rep.ring rep.within
  have places :
      spots place (before ++ b.freed :: behind) = spots place (before ++ b :: behind) := by
    simp [spots]
  have within : b.payload :: place.memFreeList :: nodes ⊆
      spots place (before ++ b.freed :: behind) := by
    rw [places]
    intro spot member
    rcases List.mem_cons.mp member with rfl | rest
    · exact List.mem_cons_of_mem _
        (List.mem_map_of_mem (List.mem_append_right _ List.mem_cons_self))
    · exact rep.within rest
  have free := rep.free
  rw [freeNodes_append, freeNodes_cons_allocated allocated] at free
  have fresh := payload_not_mem_nodes rep allocated
  rw [memFreeListAdd_eq rep]
  constructor
  · exact {
      laid := laid
      tagged := fun c member => tagged_of_spots laid (tagged c member) member
        fun address outside => Stored.listAdd_of_outside ring
          fun node inside => outside node (within inside)
      ring := Stored.ring_listAdd ring ((placed_spots laid).subset within) fresh
      free := by
        rw [freeNodes_append, freeNodes_cons_free b.freed_allocated, Block.freed_payload]
        exact (free.cons b.payload).trans List.perm_middle.symm }
  · refine (keeps_retag (d := b.freed) rep.laid rfl rfl).trans fun address foreign => ?_
    refine Stored.listAdd_of_outside ring fun node member => ?_
    rcases List.mem_cons.mp member with rfl | inside
    · have apart := foreign_apart rep.laid foreign
      have least := b.least
      simp only [Block.payload]
      omega
    · exact foreign_node rep kept_subset foreign inside

theorem payload_mem_nodes (free : b.allocated = false) : b.payload ∈ nodes := by
  apply rep.free.symm.subset
  rw [freeNodes_append, freeNodes_cons_free free]
  exact List.mem_append_right _ List.mem_cons_self

/-- A free block comes off the free list and is allocated. -/
theorem Represents.memFreeListRemove (free : b.allocated = false) :
    Represents place (memFreeListRemove memory b.start) (before ++ b.taken :: behind)
        (Link.listDel b.payload nodes) ∧
      Keeps place (before ++ behind) memory (Heap.memFreeListRemove memory b.start) := by
  have inside : b ∈ before ++ b :: behind := List.mem_append_right _ List.mem_cons_self
  have member := payload_mem_nodes rep free
  have placed := (placed_spots rep.laid).subset rep.within
  have outside (address : Nat)
      (clear : ∀ spot ∈ place.memFreeList :: nodes, address < spot ∨ spot + 8 ≤ address) :
      Stored.listDel memory b.payload address = memory address :=
    Stored.listDel_of_outside rep.ring placed member clear
  have tagged : ∀ c ∈ before ++ b :: behind, Tagged (Stored.listDel memory b.payload) c :=
    fun c held => tagged_of_spots rep.laid (rep.tagged c held) held
      fun address clear => outside address fun node within => clear node (rep.within within)
  have ring := Stored.ring_listDel rep.ring placed member
  have within : place.memFreeList :: Link.listDel b.payload nodes ⊆
      spots place (before ++ b :: behind) := by
    intro spot held
    rcases List.mem_cons.mp held with rfl | rest
    · exact List.mem_cons_self
    · exact rep.within (List.mem_cons_of_mem _ (List.mem_of_mem_erase rest))
  have written : Heap.memFreeListRemove memory b.start =
      writeTags (Stored.listDel memory b.payload) b.taken :=
    memBlockSetAllocated_eq (size_le rep.laid inside) (tagged b inside)
  rw [written]
  constructor
  · exact {
      laid := laid_retag (d := b.taken) rep.laid rfl rfl
      tagged := tagged_retag (d := b.taken) rep.laid rfl rfl tagged
      ring := ring_retag (d := b.taken) rep.laid rfl rfl ring within
      free := by
        have perm := rep.free
        rw [freeNodes_append, freeNodes_cons_free free] at perm
        rw [freeNodes_append, freeNodes_cons_allocated b.taken_allocated]
        have erased := (perm.trans List.perm_middle).erase b.payload
        rw [List.erase_cons_head] at erased
        exact erased }
  · refine Keeps.trans (fun address foreign => ?_) (keeps_retag (d := b.taken) rep.laid rfl rfl)
    exact outside address fun node held => foreign_node rep kept_subset foreign held

end Free

section Refill

variable {first last : Nat} {old new : List Block}

/-- Allocated blocks give way to allocated blocks in the same place. -/
theorem Represents.refill (rep : Represents place memory (before ++ (old ++ behind)) nodes)
    (laidBefore : Laid place.memHeap before first) (laidNew : Laid first new last)
    (laidBehind : Laid last behind place.memHeapEnd)
    (allocatedOld : ∀ b ∈ old, b.allocated = true) (allocatedNew : ∀ b ∈ new, b.allocated = true)
    (tagged : ∀ b ∈ new, Tagged memory' b)
    (same : ∀ address, address < first ∨ last ≤ address → memory' address = memory address) :
    Represents place memory' (before ++ (new ++ behind)) nodes ∧
      Keeps place (before ++ behind) memory memory' := by
  have around (c : Block) (member : c ∈ before ++ behind) :
      c.start + c.size ≤ first ∨ last ≤ c.start := by
    rcases List.mem_append.mp member with inFront | inBack
    · exact .inl (laidBefore.bounds inFront).2
    · exact .inr (laidBehind.bounds inBack).1
  have subset : before ++ behind ⊆ before ++ (old ++ behind) :=
    List.append_subset.mpr ⟨List.subset_append_left _ _,
      fun _ inBack => List.mem_append_right _ (List.mem_append_right _ inBack)⟩
  have kept (c : Block) (member : c ∈ before ++ behind) : Tagged memory' c := by
    have apart := around c member
    have least := c.least
    refine (rep.tagged c (subset member)).congr (fun i bound => ?_) fun i bound => ?_
    · exact same _ (by omega)
    · exact same _ (by omega)
  have free := rep.free
  rw [freeNodes_append, freeNodes_append, freeNodes_of_allocated allocatedOld,
    List.nil_append] at free
  have bounds := laidBefore.le
  have bounds' := laidBehind.le
  constructor
  · exact {
      laid := laid_append.mpr ⟨first, laidBefore, laid_append.mpr ⟨last, laidNew, laidBehind⟩⟩
      tagged := by
        intro c member
        rcases List.mem_append.mp member with inFront | rest
        · exact kept c (List.mem_append_left _ inFront)
        · rcases List.mem_append.mp rest with inside | inBack
          · exact tagged c inside
          · exact kept c (List.mem_append_right _ inBack)
      ring := by
        refine Stored.ring_congr rep.ring fun node member i bound => same _ ?_
        rcases List.mem_cons.mp member with rfl | inside
        · have apart := place.apart
          have ordered := laidNew.le
          rw [Place.memHeapEnd] at bounds'
          omega
        · have held := free.subset inside
          rw [← freeNodes_append] at held
          rcases mem_freeNodes.mp held with ⟨c, member', _, rfl⟩
          have apart := around c member'
          have least := c.least
          simp only [Block.payload]
          omega
      free := by
        rw [freeNodes_append, freeNodes_append, freeNodes_of_allocated allocatedNew,
          List.nil_append]
        exact free }
  · intro address foreign
    apply same
    rcases foreign with ⟨c, member, _, inside⟩ | ⟨outside, _⟩
    · have apart := around c member
      simp only [Block.Inside, Block.payload] at inside
      omega
    · omega

/-- Two allocated neighbours become one block. -/
theorem Represents.join (rep : Represents place memory (before ++ b :: c :: behind) nodes)
    (first : b.allocated = true) (second : c.allocated = true) :
    Represents place (writeTags memory (b.joined c)) (before ++ b.joined c :: behind) nodes ∧
      Keeps place (before ++ behind) memory (writeTags memory (b.joined c)) := by
  rcases laid_middle.mp rep.laid with ⟨laidBefore, here, laidBehind⟩
  have size : (b.joined c).start + (b.joined c).size = c.start + c.size := by
    simp only [Block.joined_start, Block.joined_size]
    omega
  refine @Represents.refill _ _ _ before behind nodes b.start (c.start + c.size) [b, c] [b.joined c]
    rep laidBefore ⟨rfl, size⟩ laidBehind ?_ ?_ ?_ ?_
  · simp [first, second]
  · simp
  · simp only [List.mem_singleton]
    rintro _ rfl
    exact tagged_writeTags _ _
  · intro address outside
    apply writeTags_of_apart
    rw [size]
    exact outside

/-- An allocated block is cut in two. -/
theorem Represents.cut (rep : Represents place memory (before ++ b :: behind) nodes)
    (allocated : b.allocated = true) (start : d.start = b.start)
    (next : c.start = d.start + d.size) (size : d.size + c.size = b.size)
    (first : d.allocated = true) (second : c.allocated = true) :
    Represents place (writeTags (writeTags memory d) c) (before ++ d :: c :: behind) nodes ∧
      Keeps place (before ++ behind) memory (writeTags (writeTags memory d) c) := by
  rcases laid_middle.mp rep.laid with ⟨laidBefore, laidBehind⟩
  refine @Represents.refill _ _ _ before behind nodes b.start (b.start + b.size) [b] [d, c]
    rep laidBefore ⟨start, next, ?_⟩ laidBehind ?_ ?_ ?_ ?_
  · change c.start + c.size = b.start + b.size
    omega
  · simp [allocated]
  · simp [first, second]
  · simp only [List.mem_cons, List.not_mem_nil, or_false]
    rintro _ (rfl | rfl)
    · exact (tagged_writeTags _ _).writeTags (.inl (by omega))
    · exact tagged_writeTags _ _
  · intro address outside
    rw [writeTags_of_apart (by omega), writeTags_of_apart (by omega)]

end Refill

end Lpc17xx.Heap
