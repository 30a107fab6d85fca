import Lpc17xx.Link.Ring
import Lpc17xx.Memory.Word

/-!
# Rings in byte-addressed memory

A list node is two words: the address of the next node and that of the one before.  Where
nodes do not overlap, the list functions do to the words what they do to the links, so
that rings in memory follow the rules for rings; and they write nothing but nodes.
-/

namespace Lpc17xx.Link.Stored

open Lpc17xx.Memory

/-- `_list_add`. -/
def listAddBetween (memory : Bytes) (new prev next : Nat) : Bytes :=
  let memory := store32 memory (next + 4) (.ofNat new)
  let memory := store32 memory (new + 4) (.ofNat prev)
  let memory := store32 memory new (.ofNat next)
  store32 memory prev (.ofNat new)

/-- `list_add`. -/
def listAdd (memory : Bytes) (new head : Nat) : Bytes :=
  listAddBetween memory new head (load32 memory head).toNat

/-- `list_del`. -/
def listDel (memory : Bytes) (entry : Nat) : Bytes :=
  let memory := store32 memory (load32 memory (entry + 4)).toNat (load32 memory entry)
  let memory := store32 memory ((load32 memory entry).toNat + 4) (load32 memory (entry + 4))
  let memory := store32 memory entry 0
  store32 memory (entry + 4) 0

/-- `INIT_LIST`. -/
def initList (memory : Bytes) (ptr : Nat) : Bytes :=
  store32 (store32 memory ptr (.ofNat ptr)) (ptr + 4) (.ofNat ptr)

/-- The links that stand in memory. -/
def linksIn (memory : Bytes) : Links Nat where
  next node := (load32 memory node).toNat
  prev node := (load32 memory (node + 4)).toNat

/-- Nodes of which no two overlap, in an address space of 32 bits. -/
structure Placed (spots : List Nat) : Prop where
  below : ∀ node ∈ spots, node + 8 ≤ 2 ^ 32
  apart : ∀ node ∈ spots, ∀ other ∈ spots, node = other ∨ node + 8 ≤ other ∨ other + 8 ≤ node

theorem Placed.subset {spots fewer : List Nat} (placed : Placed spots) (subset : fewer ⊆ spots) :
    Placed fewer where
  below := fun node member => placed.below node (subset member)
  apart := fun node member other member' =>
    placed.apart node (subset member) other (subset member')

/-- On these nodes, the links in memory are the links given. -/
def Agree (spots : List Nat) (links : Links Nat) (memory : Bytes) : Prop :=
  ∀ node ∈ spots, (linksIn memory).next node = links.next node ∧
    (linksIn memory).prev node = links.prev node

section Agreement

variable {spots : List Nat} {links : Links Nat} {memory : Bytes} {node target : Nat}

theorem agree_refl (memory : Bytes) : Agree spots (linksIn memory) memory :=
  fun _ _ => ⟨rfl, rfl⟩

theorem toNat_ofNat_of_placed (placed : Placed spots) (member : target ∈ spots) :
    (UInt32.ofNat target).toNat = target := by
  have below := placed.below target member
  exact UInt32.toNat_ofNat_of_lt' (by rw [UInt32.size]; omega)

/-- A word that is stored at a node is its `next`. -/
theorem Agree.store_next (agree : Agree spots links memory) (placed : Placed spots)
    (member : node ∈ spots) (word : UInt32) :
    Agree spots { links with next := Function.update links.next node word.toNat }
      (store32 memory node word) := by
  intro other member'
  have apart := placed.apart node member other member'
  constructor
  · by_cases same : other = node
    · subst same
      simp [linksIn]
    · simp only [Function.update_of_ne same]
      rw [← (agree other member').1]
      exact congrArg UInt32.toNat (load32_store32_of_apart (by omega))
  · rw [← (agree other member').2]
    exact congrArg UInt32.toNat (load32_store32_of_apart (by omega))

/-- A word that is stored four bytes behind a node is its `prev`. -/
theorem Agree.store_prev (agree : Agree spots links memory) (placed : Placed spots)
    (member : node ∈ spots) (word : UInt32) :
    Agree spots { links with prev := Function.update links.prev node word.toNat }
      (store32 memory (node + 4) word) := by
  intro other member'
  have apart := placed.apart node member other member'
  constructor
  · rw [← (agree other member').1]
    exact congrArg UInt32.toNat (load32_store32_of_apart (by omega))
  · by_cases same : other = node
    · subst same
      simp [linksIn]
    · simp only [Function.update_of_ne same]
      rw [← (agree other member').2]
      exact congrArg UInt32.toNat (load32_store32_of_apart (by omega))

/-- A ring of the links is a ring in memory. -/
theorem Agree.ring {head : Nat} {nodes : List Nat} (agree : Agree spots links memory)
    (ring : links.Ring head nodes) (within : head :: nodes ⊆ spots) :
    (linksIn memory).Ring head nodes :=
  ring.congr (fun node member => (agree node (within member)).1)
    (fun node member => (agree node (within member)).2)

end Agreement

section Operations

variable {memory : Bytes} {head new entry : Nat} {nodes : List Nat}

/-- Words elsewhere may change. -/
theorem ring_congr {memory' : Bytes} (ring : (linksIn memory).Ring head nodes)
    (same : ∀ node ∈ head :: nodes, ∀ i < 8, memory' (node + i) = memory (node + i)) :
    (linksIn memory').Ring head nodes := by
  refine ring.congr (fun node member => ?_) fun node member => ?_
  · exact congrArg UInt32.toNat (load32_congr fun i bound => same node member i (by omega))
  · refine congrArg UInt32.toNat (load32_congr fun i bound => ?_)
    rw [Nat.add_assoc]
    exact same node member (4 + i) (by omega)

theorem ring_initList (below : head + 8 ≤ 2 ^ 32) :
    (linksIn (initList memory head)).Ring head [] := by
  have fits : (UInt32.ofNat head).toNat = head :=
    UInt32.toNat_ofNat_of_lt' (by rw [UInt32.size]; omega)
  refine Links.ring_nil ?_ ?_
  · change (load32 (initList memory head) head).toNat = head
    rw [initList, load32_store32_of_apart (.inl (Nat.le_refl _)), load32_store32, fits]
  · change (load32 (initList memory head) (head + 4)).toNat = head
    rw [initList, load32_store32, fits]

theorem initList_of_outside {address : Nat} (outside : address < head ∨ head + 8 ≤ address) :
    initList memory head address = memory address := by
  rw [initList, store32_of_outside (by omega), store32_of_outside (by omega)]

theorem agree_listAdd (ring : (linksIn memory).Ring head nodes)
    (placed : Placed (new :: head :: nodes)) :
    Agree (new :: head :: nodes) ((linksIn memory).listAdd new head)
      (listAdd memory new head) := by
  have newMem : new ∈ new :: head :: nodes := List.mem_cons_self
  have headMem : head ∈ new :: head :: nodes := List.mem_cons_of_mem new List.mem_cons_self
  have nextMem : (linksIn memory).next head ∈ new :: head :: nodes :=
    List.mem_cons_of_mem new ring.next_head_mem
  have first := (agree_refl memory).store_prev placed nextMem (.ofNat new)
  have second := first.store_prev placed newMem (.ofNat head)
  have third := second.store_next placed newMem (.ofNat ((linksIn memory).next head))
  have fourth := third.store_next placed headMem (.ofNat new)
  simp only [toNat_ofNat_of_placed placed newMem, toNat_ofNat_of_placed placed headMem,
    toNat_ofNat_of_placed placed nextMem] at fourth
  exact fourth

theorem ring_listAdd (ring : (linksIn memory).Ring head nodes)
    (placed : Placed (new :: head :: nodes)) (fresh : new ∉ head :: nodes) :
    (linksIn (listAdd memory new head)).Ring head (new :: nodes) := by
  refine (agree_listAdd ring placed).ring (ring.listAdd fresh) ?_
  intro node member
  rcases List.mem_cons.mp member with rfl | rest
  · exact List.mem_cons_of_mem new List.mem_cons_self
  · rcases List.mem_cons.mp rest with rfl | inside
    · exact List.mem_cons_self
    · exact List.mem_cons_of_mem new (List.mem_cons_of_mem head inside)

/-- An addition writes to the new node and to nodes of the ring. -/
theorem listAdd_of_outside (ring : (linksIn memory).Ring head nodes) {address : Nat}
    (outside : ∀ node ∈ new :: head :: nodes, address < node ∨ node + 8 ≤ address) :
    listAdd memory new head address = memory address := by
  have atNew := outside new List.mem_cons_self
  have atHead := outside head (List.mem_cons_of_mem new List.mem_cons_self)
  have atNext := outside _ (List.mem_cons_of_mem new ring.next_head_mem)
  change address < (load32 memory head).toNat ∨ (load32 memory head).toNat + 8 ≤ address at atNext
  unfold listAdd listAddBetween
  rw [store32_of_outside (by omega), store32_of_outside (by omega), store32_of_outside (by omega),
    store32_of_outside (by omega)]

/-- The neighbours of a node of the ring are on it. -/
theorem neighbours_mem (ring : (linksIn memory).Ring head nodes) (member : entry ∈ nodes) :
    (linksIn memory).prev entry ∈ head :: nodes ∧ (linksIn memory).next entry ∈ head :: nodes := by
  rcases List.append_of_mem member with ⟨before, behind, rfl⟩
  rcases ring.neighbours with ⟨prev, next⟩
  constructor
  · rcases List.mem_cons.mp prev with same | inside
    · rw [same]
      exact List.mem_cons_self
    · exact List.mem_cons_of_mem head (List.mem_append_left _ inside)
  · rcases next with inside | same
    · exact List.mem_cons_of_mem head
        (List.mem_append_right _ (List.mem_cons_of_mem entry inside))
    · rw [same]
      exact List.mem_cons_self

/-- The second half of `list_del`: the entry that comes behind is led back, and the entry's
own links are cleared. -/
theorem Agree.unlink {spots : List Nat} {links : Links Nat} (agree : Agree spots links memory)
    (placed : Placed spots) (entryMem : entry ∈ spots) (nextMem : links.next entry ∈ spots) :
    Agree spots
      { next := Function.update links.next entry 0
        prev := Function.update
          (Function.update links.prev (links.next entry) (links.prev entry)) entry 0 }
      (store32 (store32 (store32 memory ((load32 memory entry).toNat + 4)
        (load32 memory (entry + 4))) entry 0) (entry + 4) 0) := by
  rcases agree entry entryMem with ⟨readNext, readPrev⟩
  have led := agree.store_prev placed nextMem (load32 memory (entry + 4))
  have cleared := (led.store_next placed entryMem 0).store_prev placed entryMem 0
  have next : (load32 memory entry).toNat = links.next entry := readNext
  have prev : (load32 memory (entry + 4)).toNat = links.prev entry := readPrev
  rw [next]
  rw [prev] at cleared
  exact cleared

theorem agree_listDel (ring : (linksIn memory).Ring head nodes)
    (placed : Placed (head :: nodes)) (member : entry ∈ nodes) :
    Agree (head :: nodes) ((linksIn memory).listDel 0 entry) (listDel memory entry) := by
  have entryMem : entry ∈ head :: nodes := List.mem_cons_of_mem head member
  rcases neighbours_mem ring member with ⟨prevMem, nextMem⟩
  have first := (agree_refl memory).store_next placed prevMem (load32 memory entry)
  have kept := Links.next_kept (linksIn memory) entry
  rw [← kept] at nextMem
  exact first.unlink placed entryMem nextMem

theorem ring_listDel (ring : (linksIn memory).Ring head nodes)
    (placed : Placed (head :: nodes)) (member : entry ∈ nodes) :
    (linksIn (listDel memory entry)).Ring head (Link.listDel entry nodes) := by
  refine (agree_listDel ring placed member).ring (ring.listDel_of_mem member) ?_
  intro node inside
  rcases List.mem_cons.mp inside with rfl | rest
  · exact List.mem_cons_self
  · exact List.mem_cons_of_mem head (List.mem_of_mem_erase rest)

/-- A deletion writes to nodes of the ring. -/
theorem listDel_of_outside (ring : (linksIn memory).Ring head nodes)
    (placed : Placed (head :: nodes)) (member : entry ∈ nodes) {address : Nat}
    (outside : ∀ node ∈ head :: nodes, address < node ∨ node + 8 ≤ address) :
    listDel memory entry address = memory address := by
  have entryMem : entry ∈ head :: nodes := List.mem_cons_of_mem head member
  rcases neighbours_mem ring member with ⟨prevMem, nextMem⟩
  have first := (agree_refl memory).store_next placed prevMem (load32 memory entry)
  have readNext := (first entry entryMem).1.trans (Links.next_kept (linksIn memory) entry)
  have atEntry := outside entry entryMem
  have atPrev := outside _ prevMem
  have atNext := outside _ nextMem
  rw [← readNext] at atNext
  simp only [linksIn] at atPrev atNext
  unfold listDel
  rw [store32_of_outside (by omega), store32_of_outside (by omega), store32_of_outside (by omega),
    store32_of_outside (by omega)]

end Operations

end Lpc17xx.Link.Stored
