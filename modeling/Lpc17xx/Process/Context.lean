import Lpc17xx.Memory.Word
import Lpc17xx.Transition.Labelled

/-!
# Contexts on stacks

`create_process`, `irq_pendsv` and the part of `pick_new_task` that has to do with stacks.
Which process is selected is left open.  A process runs until the next PendSV has been
entered, so that the hardware has stacked its frame; it writes to no stack but its own,
and stays within that.  Stack pointers are addresses, and wrap nowhere.
-/

namespace Lpc17xx.Process

open Lpc17xx.Memory
open Lpc17xx.Transition

/-- `STACK_SZ`. -/
def stackSz : Nat := 0x400

/-- `hw_stack_ctx`. -/
structure HwStackCtx where
  r0 : UInt32
  r1 : UInt32
  r2 : UInt32
  r3 : UInt32
  r12 : UInt32
  lr : UInt32
  pc : UInt32
  psr : UInt32
  deriving DecidableEq, Repr

/-- `sw_stack_ctx`, and the registers that it is for. -/
structure SwStackCtx where
  r4 : UInt32
  r5 : UInt32
  r6 : UInt32
  r7 : UInt32
  r8 : UInt32
  r9 : UInt32
  r10 : UInt32
  r11 : UInt32
  deriving DecidableEq, Repr

/-- The frame that the hardware has stacked at an address. -/
def hwStackCtxAt (memory : Bytes) (address : Nat) : HwStackCtx where
  r0 := load32 memory address
  r1 := load32 memory (address + 4)
  r2 := load32 memory (address + 8)
  r3 := load32 memory (address + 12)
  r12 := load32 memory (address + 16)
  lr := load32 memory (address + 20)
  pc := load32 memory (address + 24)
  psr := load32 memory (address + 28)

/-- The registers that `ldmia r0!, {r4 - r11}` loads. -/
def ldmia (memory : Bytes) (r0 : Nat) : SwStackCtx where
  r4 := load32 memory r0
  r5 := load32 memory (r0 + 4)
  r6 := load32 memory (r0 + 8)
  r7 := load32 memory (r0 + 12)
  r8 := load32 memory (r0 + 16)
  r9 := load32 memory (r0 + 20)
  r10 := load32 memory (r0 + 24)
  r11 := load32 memory (r0 + 28)

/-- Memory after `stmfd r0!, {r4 - r11}`, with `r0` as it is afterwards. -/
def stmfd (memory : Bytes) (r0 : Nat) (registers : SwStackCtx) : Bytes :=
  let memory := store32 memory r0 registers.r4
  let memory := store32 memory (r0 + 4) registers.r5
  let memory := store32 memory (r0 + 8) registers.r6
  let memory := store32 memory (r0 + 12) registers.r7
  let memory := store32 memory (r0 + 16) registers.r8
  let memory := store32 memory (r0 + 20) registers.r9
  let memory := store32 memory (r0 + 24) registers.r10
  store32 memory (r0 + 28) registers.r11

/-- `process_t`, without its queue node and its state. -/
structure ProcessT where
  curStack : Nat
  stackAlloc : Nat
  deriving DecidableEq, Repr

/-- What a process has when PendSV has been entered. -/
structure Context where
  registers : SwStackCtx
  psp : Nat
  frame : HwStackCtx
  deriving DecidableEq, Repr

/-- Memory, the registers, and the processes by their number.  `saved` is kept by nobody:
what each process had when it was last switched out, or is to start with. -/
structure Cpu where
  memory : Bytes
  psp : Nat
  registers : SwStackCtx
  process : Nat → Option ProcessT
  created : Nat
  currentTsk : Option Nat
  saved : Nat → Context

/-- A process is created on a block from the heap, the current one runs, PendSV is taken,
or the idle task frees a process that has finished. -/
inductive SwitchEvent where
  | createProcess (pc r0 : UInt32) (stackAlloc : Nat)
  | run (writes : List (Nat × UInt8)) (registers : SwStackCtx) (psp : Nat)
  | pendSv (next : Nat)
  | free (proc : Nat)

namespace ProcessT

/-- The address is in the stack of the process. -/
def Owns (process : ProcessT) (address : Nat) : Prop :=
  process.stackAlloc ≤ address ∧ address < process.stackAlloc + stackSz

/-- A frame at `psp` is in the stack of the process, and there is room for the rest of the
context below it. -/
def Holds (process : ProcessT) (psp : Nat) : Prop :=
  process.stackAlloc + 32 ≤ psp ∧ psp + 32 ≤ process.stackAlloc + stackSz

/-- A block does not meet the stack of the process. -/
def ClearOf (process : ProcessT) (stackAlloc : Nat) : Prop :=
  stackAlloc + stackSz ≤ process.stackAlloc ∨ process.stackAlloc + stackSz ≤ stackAlloc

instance (process : ProcessT) (address : Nat) : Decidable (process.Owns address) :=
  inferInstanceAs (Decidable (_ ∧ _))

instance (process : ProcessT) (psp : Nat) : Decidable (process.Holds psp) :=
  inferInstanceAs (Decidable (_ ∧ _))

instance (process : ProcessT) (stackAlloc : Nat) : Decidable (process.ClearOf stackAlloc) :=
  inferInstanceAs (Decidable (_ ∨ _))

end ProcessT

namespace Cpu

/-- Before the first process, with PSP cleared by `process_init`. -/
def start (memory : Bytes) (registers : SwStackCtx) (saved : Nat → Context) : Cpu where
  memory := memory
  psp := 0
  registers := registers
  process := fun _ => none
  created := 0
  currentTsk := none
  saved := saved

/-- What the thread has that PendSV has interrupted. -/
def context (s : Cpu) : Context where
  registers := s.registers
  psp := s.psp
  frame := hwStackCtxAt s.memory s.psp

/-- The frame that a new process starts from. -/
def firstFrame (processFinish pc r0 : UInt32) : HwStackCtx where
  r0 := r0
  r1 := 0
  r2 := 0
  r3 := 0
  r12 := 0
  lr := processFinish
  pc := pc
  psr := 0x01000000

/-- What a new process starts from. -/
def firstContext (processFinish pc r0 : UInt32) (stackAlloc : Nat) : Context where
  registers := ⟨0, 0, 0, 0, 0, 0, 0, 0⟩
  psp := stackAlloc + stackSz - 32
  frame := firstFrame processFinish pc r0

/-- The stack of a new process in memory. -/
def firstStack (memory : Bytes) (processFinish pc r0 : UInt32) (stackAlloc : Nat) : Bytes :=
  let newHwStackCtx := stackAlloc + stackSz - 32
  let newSwStackCtx := newHwStackCtx - 32
  let memory := storeBytes memory newHwStackCtx (List.replicate 32 0)
  let memory := storeBytes memory newSwStackCtx (List.replicate 32 0)
  let memory := store32 memory (newHwStackCtx + 24) pc
  let memory := store32 memory (newHwStackCtx + 20) processFinish
  let memory := store32 memory newHwStackCtx r0
  store32 memory (newHwStackCtx + 28) 0x01000000

/-- `create_process`, on the block that `get_mem` has returned for the stack. -/
def createProcess (processFinish : UInt32) (s : Cpu) (pc r0 : UInt32) (stackAlloc : Nat) : Cpu :=
  { s with
    memory := firstStack s.memory processFinish pc r0 stackAlloc
    process := Function.update s.process s.created
      (some { curStack := stackAlloc + stackSz - 32 - 32, stackAlloc })
    created := s.created + 1
    saved := Function.update s.saved s.created (firstContext processFinish pc r0 stackAlloc) }

/-- The first instructions of `irq_pendsv`, with `r0` as they leave it. -/
def saveContext (s : Cpu) : Cpu × Nat :=
  if s.psp = 0 then (s, 0)
  else ({ s with memory := stmfd s.memory (s.psp - 32) s.registers }, s.psp - 32)

/-- The first half of `pick_new_task`, which hangs when the current process returns no
stack. -/
def switchOut (s : Cpu) (currentStack : Nat) : Option Cpu :=
  match s.currentTsk with
  | some current =>
      if currentStack = 0 then none
      else some { s with
        process := Function.update s.process current
          ((s.process current).map fun process => { process with curStack := currentStack })
        saved := Function.update s.saved current s.context }
  | none => some s

/-- `pick_new_task`, with the stack of the process selected. -/
def pickNewTask (s : Cpu) (currentStack next : Nat) : Option (Cpu × Nat) := do
  let s ← s.switchOut currentStack
  let process ← s.process next
  some ({ s with currentTsk := some next }, process.curStack)

/-- The last instructions of `irq_pendsv`. -/
def restoreContext (s : Cpu) (r0 : Nat) : Cpu :=
  { s with registers := ldmia s.memory r0, psp := r0 + 32 }

/-- `irq_pendsv`. -/
def irqPendSv (s : Cpu) (next : Nat) : Option Cpu := do
  let (s, r0) := s.saveContext
  let (s, r0) ← s.pickNewTask r0 next
  some (s.restoreContext r0)

/-- A block that meets no stack, and is not at `NULL`. -/
def Fresh (s : Cpu) (stackAlloc : Nat) : Prop :=
  0 < stackAlloc ∧
    ∀ other < s.created, ∀ process ∈ s.process other, process.ClearOf stackAlloc

/-- The writes and the stack pointer are those of a process that keeps to its stack. -/
def WithinBounds (s : Cpu) (writes : List (Nat × UInt8)) (psp : Nat) : Prop :=
  (∃ current ∈ s.currentTsk, ∃ process ∈ s.process current, process.Holds psp) ∧
    ∀ write ∈ writes, ∀ other < s.created, s.currentTsk ≠ some other →
      ∀ process ∈ s.process other, ¬process.Owns write.1

instance (s : Cpu) (stackAlloc : Nat) : Decidable (s.Fresh stackAlloc) :=
  inferInstanceAs (Decidable (_ ∧ _))

instance (s : Cpu) (writes : List (Nat × UInt8)) (psp : Nat) :
    Decidable (s.WithinBounds writes psp) :=
  inferInstanceAs (Decidable (_ ∧ _))

def store (memory : Bytes) (write : Nat × UInt8) : Bytes :=
  Function.update memory write.1 write.2

/-- One event. -/
def step (processFinish : UInt32) : Step Cpu SwitchEvent
  | s, .createProcess pc r0 stackAlloc =>
      if s.Fresh stackAlloc then some (s.createProcess processFinish pc r0 stackAlloc) else none
  | s, .run writes registers psp =>
      if s.WithinBounds writes psp then
        some { s with memory := writes.foldl store s.memory, registers, psp }
      else none
  | s, .pendSv next => if (s.process next).isSome then s.irqPendSv next else none
  | s, .free proc =>
      if s.currentTsk ≠ some proc then
        some { s with process := Function.update s.process proc none }
      else none

end Cpu

end Lpc17xx.Process
