import Lpc17xx.Emac.ReceiveRuns
import Lpc17xx.Heap.Requested
import Lpc17xx.Heap.Reserve
import Lpc17xx.Heap.WellFormed

/-!
# The memory that is allocated at start-up

`_start` sets the heap up, `emac_init` allocates the fragment buffers, and `process_init`
a process and its stack for each thread of the link map and for the idle task.  None of
the initcalls but `emac_init` allocates anything, so their order does not matter here.
Interrupts that come in between are left out: `irq_enet` allocates, too, once `emac_init` has
enabled it.
-/

namespace Lpc17xx.System

open Lpc17xx.Emac
open Lpc17xx.Heap
open Lpc17xx.Memory
open Lpc17xx.Transition
open Lpc17xx.Tcp (memHeapSize)

/-- `sizeof(process_t)`. -/
def processSize : UInt32 := 20

/-- `STACK_SZ`. -/
def stackSz : UInt32 := 0x400

/-- The calls of `get_mem` by `emac_init`. -/
def emacInitRequests : List UInt32 :=
  List.replicate descLen 127

/-- The calls of `get_mem` by `create_process`. -/
def createProcessRequests : List UInt32 :=
  [processSize, stackSz]

/-- The calls of `get_mem` by `process_init`: one process for each thread, then the idle
task. -/
def processInitRequests (threads : Nat) : List UInt32 :=
  (List.replicate (threads + 1) createProcessRequests).flatten

/-- The calls of `get_mem` by `_start`. -/
def startRequests (threads : Nat) : List UInt32 :=
  emacInitRequests ++ processInitRequests threads

/-- `_start`, as far as it concerns the heap. -/
def bootHeap (place : Place) (memory : Bytes) (threads : Nat) : Option HeapState :=
  run (HeapState.step place) (HeapState.start place memory)
    ((startRequests threads).map HeapEvent.getMem)

section Sizes

theorem blockSize_fragment : blockSize 127 = 136 := by
  rw [blockSize, toNat_memConvertToBlockSize (by decide)]
  rfl

theorem blockSize_process : blockSize processSize = 28 := by
  rw [blockSize, toNat_memConvertToBlockSize (by decide)]
  rfl

theorem blockSize_stack : blockSize stackSz = 1032 := by
  rw [blockSize, toNat_memConvertToBlockSize (by decide)]
  rfl

theorem sum_processInitRequests (count : Nat) :
    ((List.replicate count createProcessRequests).flatten.map blockSize).sum = 1060 * count := by
  induction count with
  | zero => rfl
  | succ count ih =>
      rw [List.replicate_succ, List.flatten_cons, List.map_append, List.sum_append, ih]
      simp only [createProcessRequests, List.map_cons, List.map_nil, List.sum_cons, List.sum_nil,
        blockSize_process, blockSize_stack]
      omega

theorem sum_startRequests (threads : Nat) :
    ((startRequests threads).map blockSize).sum = 1632 + 1060 * (threads + 1) := by
  rw [startRequests, List.map_append, List.sum_append, processInitRequests,
    sum_processInitRequests, emacInitRequests, List.map_replicate, List.sum_replicate,
    blockSize_fragment]
  rfl

theorem emacInitRequests_positive : ∀ size ∈ emacInitRequests, size ≠ 0 := by
  intro size member
  rw [List.eq_of_mem_replicate member]
  decide

theorem startRequests_positive (threads : Nat) : ∀ size ∈ startRequests threads, size ≠ 0 := by
  intro size member
  rcases List.mem_append.mp member with fragment | process
  · exact emacInitRequests_positive size fragment
  · rcases List.mem_flatten.mp process with ⟨pair, some_, here⟩
    rw [List.eq_of_mem_replicate some_] at here
    rcases List.mem_pair.mp here with rfl | rfl
    · decide
    · decide

end Sizes

section Layout

/-- The allocations of a program part by part. -/
theorem layout_append (start : Nat) (sizes sizes' : List UInt32) :
    layout start (sizes ++ sizes') =
      layout start sizes ++ layout (start + (sizes.map blockSize).sum) sizes' := by
  induction sizes generalizing start with
  | nil => rfl
  | cons size sizes ih =>
      rw [List.cons_append, layout, ih, layout, List.map_cons, List.sum_cons, Nat.add_assoc]
      rfl

theorem layout_replicate (start count : Nat) (size : UInt32) :
    layout start (List.replicate count size) =
      (List.range count).map fun i => (start + blockSize size * i + 4, size) := by
  induction count generalizing start with
  | zero => rfl
  | succ count ih =>
      rw [List.replicate_succ, layout, ih, List.range_succ_eq_map, List.map_cons, List.map_map]
      congr 1
      apply List.map_congr_left
      intro i _
      simp only [Function.comp, Prod.mk.injEq, and_true]
      rw [Nat.mul_succ]
      omega

/-- The processes and their stacks, when the first of their blocks begins at `start`. -/
theorem layout_processes (start count : Nat) :
    layout start (List.replicate count createProcessRequests).flatten =
      (List.range count).flatMap fun i =>
        [(start + 1060 * i + 4, processSize), (start + 1060 * i + 32, stackSz)] := by
  induction count generalizing start with
  | zero => rfl
  | succ count ih =>
      rw [List.replicate_succ, List.flatten_cons, createProcessRequests, List.cons_append,
        List.cons_append, List.nil_append, layout, layout, blockSize_process, blockSize_stack]
      change _ :: _ :: layout _ (List.replicate count createProcessRequests).flatten = _
      rw [ih, List.range_succ_eq_map, List.flatMap_cons, List.flatMap_map]
      simp only [Nat.mul_zero, Nat.add_zero, List.cons_append, List.nil_append]
      congr 2
      apply List.flatMap_congr
      intro i _
      simp only [Nat.mul_succ]
      congr 2
      · congr 1
        omega
      · congr 2
        omega

end Layout

section Capacity

variable {place : Place} {memory : Bytes} {threads : Nat} {s : HeapState}

/-- The fragment buffer that `emac_init` allocates for a receive descriptor. -/
def fragmentBuffer (place : Place) (index : Nat) : Nat :=
  place.memHeap + 136 * index + 4

/-- The process that `process_init` creates for a thread, or at last for the idle task, and
behind it the stack. -/
def processAt (place : Place) (number : Nat) : List (Nat × UInt32) :=
  [(place.memHeap + 1632 + 1060 * number + 4, processSize),
    (place.memHeap + 1632 + 1060 * number + 32, stackSz)]

/-- What `_start` allocates, in this order. -/
def startLive (place : Place) (threads : Nat) : List (Nat × UInt32) :=
  (List.range descLen).map (fun index => (fragmentBuffer place index, 127)) ++
    (List.range (threads + 1)).flatMap (processAt place)

theorem layout_startRequests (place : Place) (threads : Nat) :
    layout place.memHeap (startRequests threads) = startLive place threads := by
  have sum : (emacInitRequests.map blockSize).sum = 1632 := by
    rw [emacInitRequests, List.map_replicate, List.sum_replicate, blockSize_fragment]
    rfl
  rw [startRequests, layout_append, sum, emacInitRequests, layout_replicate, blockSize_fragment,
    processInitRequests, layout_processes]
  rfl

/-- There is memory for the start-up of at most 28 threads. -/
theorem bootHeap_of_fits (fits : threads ≤ 28) :
    ∃ memory', bootHeap place memory threads =
      some ⟨memory', (startLive place threads).reverse⟩ := by
  have enough : ((startRequests threads).map blockSize).sum ≤ memHeapSize := by
    rw [sum_startRequests]
    unfold memHeapSize
    omega
  rcases HeapState.run_getMem (s := HeapState.start place memory) (packed_memSetup place memory)
    (startRequests_positive threads) enough with ⟨memory', executed⟩
  rw [layout_startRequests] at executed
  refine ⟨memory', executed.trans ?_⟩
  rw [HeapState.start, List.append_nil]

theorem bootHeap_of_exceeds (exceeds : 28 < threads) : bootHeap place memory threads = none := by
  refine HeapState.run_getMem_eq_none (packed_memSetup place memory)
    (startRequests_positive threads) ?_
  rw [sum_startRequests]
  unfold memHeapSize
  omega

/-- Unless a frame comes in meanwhile, `_start` gets to its end exactly if the link map has at
most 28 threads, and then every process and every buffer is where the arithmetic of the
allocator puts it, whatever was in memory before. -/
theorem boot_completes_iff (place : Place) (memory : Bytes) (threads : Nat) :
    ((bootHeap place memory threads).isSome ↔ threads ≤ 28) ∧
      ∀ s, bootHeap place memory threads = some s →
        s.live = (startLive place threads).reverse ∧ s.Sound place := by
  constructor
  · constructor
    · intro completes
      by_contra exceeds
      rw [bootHeap_of_exceeds (Nat.lt_of_not_le exceeds)] at completes
      contradiction
    · intro fits
      rcases bootHeap_of_fits fits with ⟨memory', booted⟩
      exact Option.isSome_of_eq_some booted
  · intro s booted
    constructor
    · have fits : threads ≤ 28 := by
        by_contra exceeds
        rw [bootHeap_of_exceeds (Nat.lt_of_not_le exceeds)] at booted
        contradiction
      rcases bootHeap_of_fits fits with ⟨memory', booted'⟩
      rw [booted'] at booted
      cases booted
      rfl
    · exact invariant_of_reachable HeapState.sound_step (HeapState.sound_start place memory)
        ⟨_, booted⟩

end Capacity

end Lpc17xx.System
