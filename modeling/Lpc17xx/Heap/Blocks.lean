import Mathlib.Data.List.Chain
import Mathlib.Data.List.Nodup
import Mathlib.Data.List.Perm.Basic
import Mathlib.Tactic.Common

/-!
# A heap as a sequence of blocks

What an allocator keeps, apart from memory: blocks one behind the other, each allocated or
free, from one address to another.  No block can be built that is too small for two tags
and a list node, or that has a size that is not a multiple of four.
-/

namespace Lpc17xx.Heap

/-- A block of `size` bytes from `start` on, tags included. -/
structure Block where
  start : Nat
  size : Nat
  allocated : Bool
  least : 16 ≤ size
  aligned : size % 4 = 0
  deriving DecidableEq

namespace Block

/-- The address behind the first tag. -/
def payload (b : Block) : Nat :=
  b.start + 4

/-- The address is that of a byte between the two tags. -/
def Inside (b : Block) (address : Nat) : Prop :=
  b.payload ≤ address ∧ address + 4 < b.start + b.size

instance (b : Block) (address : Nat) : Decidable (b.Inside address) :=
  inferInstanceAs (Decidable (_ ∧ _))

/-- The block, allocated. -/
def taken (b : Block) : Block :=
  { b with allocated := true }

/-- The block, free. -/
def freed (b : Block) : Block :=
  { b with allocated := false }

/-- A block and the one behind it as one, allocated. -/
def joined (b c : Block) : Block where
  start := b.start
  size := b.size + c.size
  allocated := true
  least := Nat.le_trans b.least (Nat.le_add_right _ _)
  aligned := by rw [Nat.add_mod, b.aligned, c.aligned]

section Simp

variable (b c : Block)

@[simp]
theorem taken_start : b.taken.start = b.start :=
  rfl

@[simp]
theorem taken_size : b.taken.size = b.size :=
  rfl

@[simp]
theorem taken_allocated : b.taken.allocated = true :=
  rfl

@[simp]
theorem freed_start : b.freed.start = b.start :=
  rfl

@[simp]
theorem freed_size : b.freed.size = b.size :=
  rfl

@[simp]
theorem freed_allocated : b.freed.allocated = false :=
  rfl

@[simp]
theorem freed_payload : b.freed.payload = b.payload :=
  rfl

@[simp]
theorem joined_start : (b.joined c).start = b.start :=
  rfl

@[simp]
theorem joined_size : (b.joined c).size = b.size + c.size :=
  rfl

@[simp]
theorem joined_allocated : (b.joined c).allocated = true :=
  rfl

end Simp

end Block

/-- Each block begins where the one before it ends, the first at `start`, and the last ends
at `stop`. -/
def Laid : Nat → List Block → Nat → Prop
  | start, [], stop => start = stop
  | start, b :: blocks, stop => b.start = start ∧ Laid (b.start + b.size) blocks stop

/-- No two neighbours are both free. -/
def Coalesced (blocks : List Block) : Prop :=
  blocks.IsChain fun b c => b.allocated = true ∨ c.allocated = true

/-- The payloads of the free blocks. -/
def freeNodes (blocks : List Block) : List Nat :=
  (blocks.filter fun b => !b.allocated).map Block.payload

/-- The allocated blocks. -/
def liveBlocks (blocks : List Block) : List Block :=
  blocks.filter fun b => b.allocated

section Laid

variable {start stop : Nat} {blocks before behind : List Block} {b c : Block}

theorem Laid.le (laid : Laid start blocks stop) : start ≤ stop := by
  induction blocks generalizing start with
  | nil => exact Nat.le_of_eq laid
  | cons b blocks ih =>
      rcases laid with ⟨rfl, rest⟩
      exact Nat.le_trans (Nat.le_add_right _ _) (ih rest)

/-- Blocks are laid in parts. -/
theorem laid_append : Laid start (before ++ behind) stop ↔
    ∃ middle, Laid start before middle ∧ Laid middle behind stop := by
  induction before generalizing start with
  | nil => exact ⟨fun laid => ⟨start, rfl, laid⟩, by rintro ⟨_, rfl, laid⟩; exact laid⟩
  | cons first before ih =>
      constructor
      · rintro ⟨here, rest⟩
        rcases ih.mp rest with ⟨middle, left, right⟩
        exact ⟨middle, ⟨here, left⟩, right⟩
      · rintro ⟨middle, ⟨here, left⟩, right⟩
        exact ⟨here, ih.mpr ⟨middle, left, right⟩⟩

theorem laid_middle : Laid start (before ++ b :: behind) stop ↔
    Laid start before b.start ∧ Laid (b.start + b.size) behind stop := by
  rw [laid_append]
  constructor
  · rintro ⟨_, left, rfl, right⟩
    exact ⟨left, right⟩
  · rintro ⟨left, right⟩
    exact ⟨b.start, left, rfl, right⟩

theorem Laid.bounds (laid : Laid start blocks stop) (member : b ∈ blocks) :
    start ≤ b.start ∧ b.start + b.size ≤ stop := by
  rcases List.append_of_mem member with ⟨before, behind, rfl⟩
  rcases laid_middle.mp laid with ⟨left, right⟩
  exact ⟨left.le, right.le⟩

/-- A block in front ends before, and one behind begins after. -/
theorem Laid.apart (laid : Laid start (before ++ b :: behind) stop)
    (member : c ∈ before ++ behind) :
    c.start + c.size ≤ b.start ∨ b.start + b.size ≤ c.start := by
  rcases laid_middle.mp laid with ⟨left, right⟩
  rcases List.mem_append.mp member with inFront | behind
  · exact .inl (left.bounds inFront).2
  · exact .inr (right.bounds behind).1

theorem Laid.eq_or_apart (laid : Laid start blocks stop) (member : b ∈ blocks)
    (member' : c ∈ blocks) :
    c = b ∨ c.start + c.size ≤ b.start ∨ b.start + b.size ≤ c.start := by
  rcases List.append_of_mem member with ⟨before, behind, rfl⟩
  rcases List.mem_append.mp member' with inFront | rest
  · exact .inr (laid.apart (List.mem_append_left _ inFront))
  · rcases List.mem_cons.mp rest with same | behind
    · exact .inl same
    · exact .inr (laid.apart (List.mem_append_right _ behind))

theorem Laid.aligned (laid : Laid start blocks stop) (first : start % 4 = 0)
    (member : b ∈ blocks) : b.start % 4 = 0 := by
  induction blocks generalizing start with
  | nil => contradiction
  | cons head blocks ih =>
      rcases laid with ⟨rfl, rest⟩
      rcases List.mem_cons.mp member with rfl | inside
      · exact first
      · have second : (head.start + head.size) % 4 = 0 := by
          rw [Nat.add_mod, first, head.aligned]
        exact ih rest second inside

/-- There is room for so many blocks only. -/
theorem Laid.length (laid : Laid start blocks stop) : start + 16 * blocks.length ≤ stop := by
  induction blocks generalizing start with
  | nil => exact Nat.le_of_eq laid
  | cons b blocks ih =>
      rcases laid with ⟨rfl, rest⟩
      have least := b.least
      have bound := ih rest
      rw [List.length_cons]
      omega

theorem Laid.nodup (laid : Laid start blocks stop) : (blocks.map Block.payload).Nodup := by
  induction blocks generalizing start with
  | nil => exact List.nodup_nil
  | cons b blocks ih =>
      rcases laid with ⟨rfl, rest⟩
      refine List.nodup_cons.mpr ⟨?_, ih rest⟩
      intro member
      rcases List.mem_map.mp member with ⟨c, inside, same⟩
      have bounds := rest.bounds inside
      have least := b.least
      simp only [Block.payload] at same
      omega

end Laid

section Nodes

variable {blocks before behind : List Block} {b : Block}

@[simp]
theorem freeNodes_append : freeNodes (before ++ behind) = freeNodes before ++ freeNodes behind := by
  simp [freeNodes]

@[simp]
theorem freeNodes_cons_free (free : b.allocated = false) :
    freeNodes (b :: blocks) = b.payload :: freeNodes blocks := by
  simp [freeNodes, free]

@[simp]
theorem freeNodes_cons_allocated (allocated : b.allocated = true) :
    freeNodes (b :: blocks) = freeNodes blocks := by
  simp [freeNodes, allocated]

theorem freeNodes_of_allocated (allocated : ∀ b ∈ blocks, b.allocated = true) :
    freeNodes blocks = [] := by
  rw [freeNodes, List.map_eq_nil_iff, List.filter_eq_nil_iff]
  intro b member
  simp [allocated b member]

theorem mem_freeNodes {node : Nat} :
    node ∈ freeNodes blocks ↔ ∃ b ∈ blocks, b.allocated = false ∧ b.payload = node := by
  simp [freeNodes, and_assoc]

@[simp]
theorem liveBlocks_append :
    liveBlocks (before ++ behind) = liveBlocks before ++ liveBlocks behind :=
  List.filter_append _ _

@[simp]
theorem liveBlocks_cons_free (free : b.allocated = false) :
    liveBlocks (b :: blocks) = liveBlocks blocks := by
  simp [liveBlocks, free]

@[simp]
theorem liveBlocks_cons_allocated (allocated : b.allocated = true) :
    liveBlocks (b :: blocks) = b :: liveBlocks blocks := by
  simp [liveBlocks, allocated]

theorem mem_liveBlocks : b ∈ liveBlocks blocks ↔ b ∈ blocks ∧ b.allocated = true :=
  List.mem_filter

theorem length_freeNodes_le : (freeNodes blocks).length ≤ blocks.length := by
  rw [freeNodes, List.length_map]
  exact List.length_filter_le _ _

/-- The free node of a block stands for it alone. -/
theorem payload_not_mem_freeNodes {start stop : Nat}
    (laid : Laid start (before ++ b :: behind) stop) :
    b.payload ∉ freeNodes (before ++ behind) := by
  intro member
  rcases mem_freeNodes.mp member with ⟨c, inside, _, same⟩
  have apart := laid.apart inside
  have least := b.least
  have least' := c.least
  simp only [Block.payload] at same
  omega

end Nodes

section Coalesced

variable {blocks before behind : List Block} {b b' c : Block}

theorem coalesced_split : Coalesced (before ++ b :: behind) ↔
    Coalesced (before ++ [b]) ∧ Coalesced (b :: behind) :=
  List.isChain_split

/-- Behind an allocated block may be anything. -/
theorem coalesced_cons_allocated (allocated : b.allocated = true) (rest : Coalesced blocks) :
    Coalesced (b :: blocks) := by
  cases blocks with
  | nil => exact List.isChain_singleton b
  | cons c blocks => exact List.isChain_cons_cons.mpr ⟨.inl allocated, rest⟩

/-- In front of an allocated block may be anything. -/
theorem coalesced_concat_allocated (allocated : b.allocated = true) (rest : Coalesced blocks) :
    Coalesced (blocks ++ [b]) := by
  refine List.isChain_append.mpr ⟨rest, List.isChain_singleton b, ?_⟩
  intro c _ d last
  cases last
  exact .inr allocated

/-- Only the marks count. -/
theorem coalesced_cons_congr (same : b'.allocated = b.allocated) (rest : Coalesced (b :: blocks)) :
    Coalesced (b' :: blocks) := by
  cases blocks with
  | nil => exact List.isChain_singleton b'
  | cons c blocks =>
      rcases List.isChain_cons_cons.mp rest with ⟨here, behind⟩
      rw [← same] at here
      exact List.isChain_cons_cons.mpr ⟨here, behind⟩

theorem coalesced_concat_congr (same : b'.allocated = b.allocated)
    (rest : Coalesced (blocks ++ [b])) : Coalesced (blocks ++ [b']) := by
  rcases List.isChain_append.mp rest with ⟨inFront, _, junction⟩
  refine List.isChain_append.mpr ⟨inFront, List.isChain_singleton b', ?_⟩
  intro c last d first
  cases first
  rw [same]
  exact junction c last b rfl

theorem Coalesced.left (coalesced : Coalesced (before ++ behind)) : Coalesced before :=
  (List.isChain_append.mp coalesced).1

theorem Coalesced.right (coalesced : Coalesced (before ++ behind)) : Coalesced behind :=
  (List.isChain_append.mp coalesced).2.1

theorem Coalesced.tail (coalesced : Coalesced (b :: blocks)) : Coalesced blocks :=
  List.IsChain.tail coalesced

end Coalesced

end Lpc17xx.Heap
