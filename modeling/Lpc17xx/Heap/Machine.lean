import Lpc17xx.Heap.Allocate
import Lpc17xx.Heap.Release
import Lpc17xx.Transition.Labelled

/-!
# The heap and its clients

After `mem_setup`, calls of `get_mem` and `free_mem` in any order, and between them writes
of the clients: to the payloads of live blocks, and to memory that is not the allocator's at
all.  A pointer is freed while it is live, or it is `NULL`.
-/

namespace Lpc17xx.Heap

open Lpc17xx.Link
open Lpc17xx.Memory
open Lpc17xx.Transition
open Lpc17xx.Tcp (memHeapSize)

/-- Memory, and the pointers that were handed out and are not freed yet, each with the
number of bytes asked for.  Nobody keeps these. -/
structure HeapState where
  memory : Bytes
  live : List (Nat × UInt32)

/-- A call, or a write to a byte. -/
inductive HeapEvent where
  | getMem (size : UInt32)
  | freeMem (ptr : Nat)
  | write (address : Nat) (byte : UInt8)
  deriving DecidableEq

namespace HeapState

variable (place : Place)

/-- After `mem_setup`, whatever was in memory. -/
def start (memory : Bytes) : HeapState where
  memory := place.memSetup memory
  live := []

/-- The byte is in the payload of a live block, or neither in the heap nor in
`mem_free_list`. -/
def Writable (s : HeapState) (address : Nat) : Prop :=
  (∃ entry ∈ s.live, entry.1 ≤ address ∧
      address + 8 < entry.1 + (memBlockSize s.memory (memBlockFromPayload entry.1)).toNat) ∨
    (address < place.memHeap ∨ place.memHeapEnd ≤ address) ∧
      (address < place.memFreeList ∨ place.memFreeList + 8 ≤ address)

instance (s : HeapState) (address : Nat) : Decidable (s.Writable place address) :=
  inferInstanceAs (Decidable (_ ∨ _))

/-- `get_mem`. -/
def getMem (s : HeapState) (size : UInt32) : Option HeapState :=
  (place.getMem s.memory size).map fun (ptr, memory) =>
    { memory, live := if ptr = 0 then s.live else (ptr, size) :: s.live }

/-- `free_mem`. -/
def freeMem (s : HeapState) (ptr : Nat) : Option HeapState :=
  if ptr = 0 ∨ ptr ∈ s.live.map Prod.fst then
    some
      { memory := place.freeMem s.memory ptr
        live := s.live.filter fun entry => entry.1 ≠ ptr }
  else none

/-- One event. -/
def step : Step HeapState HeapEvent
  | s, .getMem size => s.getMem place size
  | s, .freeMem ptr => s.freeMem place ptr
  | s, .write address byte =>
      if s.Writable place address then
        some { s with memory := Function.update s.memory address byte }
      else none

end HeapState

end Lpc17xx.Heap
