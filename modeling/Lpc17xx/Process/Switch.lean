import Lpc17xx.Process.Context

/-!
# Context switches are transparent

The stack pointer that `pick_new_task` keeps for a process that is not current points to
its registers, and behind them lies its frame.  Stacks do not meet, so this lasts until the
process is selected; what `irq_pendsv` loads then is what it stored, or what
`create_process` wrote.
-/

namespace Lpc17xx.Process

open Lpc17xx.Memory
open Lpc17xx.Transition

section Contexts

variable {memory memory' : Bytes} {address other : Nat}

/-- Each word of a frame lies in the frame. -/
theorem load32_frame_congr (same : ∀ i < 32, memory' (address + i) = memory (address + i))
    {offset : Nat} (inside : offset + 4 ≤ 32) :
    load32 memory' (address + offset) = load32 memory (address + offset) := by
  apply load32_congr
  intro i bound
  rw [Nat.add_assoc]
  exact same (offset + i) (by omega)

/-- A frame is read from its own bytes only. -/
theorem hwStackCtxAt_congr (same : ∀ i < 32, memory' (address + i) = memory (address + i)) :
    hwStackCtxAt memory' address = hwStackCtxAt memory address := by
  have word (offset : Nat) (inside : offset + 4 ≤ 32) :
      load32 memory' (address + offset) = load32 memory (address + offset) :=
    load32_frame_congr same inside
  have first : load32 memory' address = load32 memory address := word 0 (by omega)
  simp only [hwStackCtxAt, first, word 4 (by omega), word 8 (by omega), word 12 (by omega),
    word 16 (by omega), word 20 (by omega), word 24 (by omega), word 28 (by omega)]

theorem ldmia_congr (same : ∀ i < 32, memory' (address + i) = memory (address + i)) :
    ldmia memory' address = ldmia memory address := by
  have word (offset : Nat) (inside : offset + 4 ≤ 32) :
      load32 memory' (address + offset) = load32 memory (address + offset) :=
    load32_frame_congr same inside
  have first : load32 memory' address = load32 memory address := word 0 (by omega)
  simp only [ldmia, first, word 4 (by omega), word 8 (by omega), word 12 (by omega),
    word 16 (by omega), word 20 (by omega), word 24 (by omega), word 28 (by omega)]

/-- Registers that are stored are loaded again. -/
@[simp]
theorem ldmia_stmfd (registers : SwStackCtx) :
    ldmia (stmfd memory address registers) address = registers := by
  simp (disch := omega) only [ldmia, stmfd, load32_store32_of_apart, load32_store32]

theorem stmfd_of_outside {registers : SwStackCtx}
    (outside : other < address ∨ address + 32 ≤ other) :
    stmfd memory address registers other = memory other := by
  simp (disch := omega) only [stmfd, store32_of_outside]

/-- Cleared memory reads as zero. -/
theorem load32_cleared {size : Nat} (inside : address ≤ other ∧ other + 4 ≤ address + size) :
    load32 (storeBytes memory address (List.replicate size 0)) other = 0 := by
  have cleared (i : Nat) (bound : i < 4) :
      storeBytes memory address (List.replicate size 0) (other + i) = 0 := by
    have place : other + i = address + (other + i - address) := by omega
    have within : other + i - address < (List.replicate size (0 : UInt8)).length := by
      rw [List.length_replicate]
      omega
    rw [place, storeBytes_of_inside within, List.getD_eq_getElem?_getD, List.getElem?_replicate]
    split
    · rfl
    · rfl
  have whole : load32 (storeBytes memory address (List.replicate size 0)) other =
      load32 (fun _ => 0) other := load32_congr cleared
  rw [whole]
  simp only [load32]
  decide

theorem load32_storeBytes_of_apart {bytes : List UInt8}
    (apart : other + 4 ≤ address ∨ address + bytes.length ≤ other) :
    load32 (storeBytes memory address bytes) other = load32 memory other :=
  load32_congr fun _ _ => storeBytes_of_outside (by omega)

end Contexts

namespace Cpu

section FirstStack

variable {memory : Bytes} {processFinish pc r0 : UInt32} {stackAlloc other : Nat}

/-- A new stack holds the first frame. -/
theorem hwStackCtxAt_firstStack :
    hwStackCtxAt (firstStack memory processFinish pc r0 stackAlloc)
      (stackAlloc + stackSz - 32) = firstFrame processFinish pc r0 := by
  have size : (List.replicate 32 (0 : UInt8)).length = 32 := List.length_replicate
  have below : 64 ≤ stackAlloc + stackSz := by
    unfold stackSz
    omega
  simp (disch := omega) only [hwStackCtxAt, firstStack, firstFrame, load32_store32_of_apart,
    load32_store32, load32_storeBytes_of_apart, load32_cleared]

/-- And cleared registers in front of it. -/
theorem ldmia_firstStack :
    ldmia (firstStack memory processFinish pc r0 stackAlloc) (stackAlloc + stackSz - 32 - 32) =
      ⟨0, 0, 0, 0, 0, 0, 0, 0⟩ := by
  have below : 64 ≤ stackAlloc + stackSz := by
    unfold stackSz
    omega
  simp (disch := omega) only [ldmia, firstStack, load32_store32_of_apart, load32_cleared]

/-- `create_process` writes to the stack of the new process only. -/
theorem firstStack_of_outside (outside : other < stackAlloc ∨ stackAlloc + stackSz ≤ other) :
    firstStack memory processFinish pc r0 stackAlloc other = memory other := by
  have size : (List.replicate 32 (0 : UInt8)).length = 32 := List.length_replicate
  have apart : other < stackAlloc + stackSz - 32 - 32 ∨ stackAlloc + stackSz ≤ other := by
    unfold stackSz at outside ⊢
    omega
  have below : 64 ≤ stackAlloc + stackSz := by
    unfold stackSz
    omega
  simp (disch := omega) only [firstStack, store32_of_outside, storeBytes_of_outside]

end FirstStack

/-- What is kept of a process in memory is its context. -/
structure Keeps (memory : Bytes) (process : ProcessT) (context : Context) : Prop where
  holds : process.Holds context.psp
  curStack : process.curStack + 32 = context.psp
  registers : ldmia memory process.curStack = context.registers
  frame : hwStackCtxAt memory context.psp = context.frame

/-- Only the bytes of the stack count. -/
theorem Keeps.congr {memory memory' : Bytes} {process : ProcessT} {context : Context}
    (keeps : Keeps memory process context)
    (same : ∀ address, process.Owns address → memory' address = memory address) :
    Keeps memory' process context where
  holds := keeps.holds
  curStack := keeps.curStack
  registers := by
    have holds := keeps.holds
    have curStack := keeps.curStack
    unfold ProcessT.Holds at holds
    rw [← keeps.registers]
    apply ldmia_congr
    intro i bound
    apply same
    unfold ProcessT.Owns
    omega
  frame := by
    have holds := keeps.holds
    unfold ProcessT.Holds at holds
    rw [← keeps.frame]
    apply hwStackCtxAt_congr
    intro i bound
    apply same
    unfold ProcessT.Owns
    omega

/-- The stacks of the processes do not meet, every process that is not current has its
context on its stack, and the current one has room for it. -/
structure Sound (s : Cpu) : Prop where
  apart : ∀ a b first second, s.process a = some first → s.process b = some second → a ≠ b →
    first.ClearOf second.stackAlloc
  known : ∀ a process, s.process a = some process → a < s.created
  notNull : ∀ a process, s.process a = some process → 0 < process.stackAlloc
  suspended : ∀ a process, s.process a = some process → s.currentTsk ≠ some a →
    Keeps s.memory process (s.saved a)
  running : ∀ a, s.currentTsk = some a → ∃ process, s.process a = some process ∧
    process.Holds s.psp
  nobody : s.currentTsk = none → s.psp = 0

/-- A process that is resumed has the context that was saved last, and no stack is written
to but that of the process that is switched out. -/
structure Transparent (before : Cpu) (event : SwitchEvent) (after : Cpu) : Prop where
  resumes : ∀ next, event = .pendSv next →
    after.currentTsk = some next ∧ after.context = after.saved next
  saves : ∀ next, event = .pendSv next → ∀ current, before.currentTsk = some current →
    after.saved current = before.context
  keeps : ∀ next, event = .pendSv next → ∀ other process, before.process other = some process →
    before.currentTsk ≠ some other →
    after.saved other = before.saved other ∧
      ∀ address, process.Owns address → after.memory address = before.memory address

section Step

variable {s after : Cpu} {processFinish : UInt32}

theorem sound_start (memory : Bytes) (registers : SwStackCtx) (saved : Nat → Context) :
    (start memory registers saved).Sound where
  apart := fun _ _ _ _ found => by simp [start] at found
  known := fun _ _ found => by simp [start] at found
  notNull := fun _ _ found => by simp [start] at found
  suspended := fun _ _ found => by simp [start] at found
  running := fun _ current => by simp [start] at current
  nobody := fun _ => rfl

section Create

variable {pc r0 : UInt32} {stackAlloc : Nat}

/-- A process is the new one or an old one. -/
theorem process_createProcess {a : Nat} {process : ProcessT}
    (found : (s.createProcess processFinish pc r0 stackAlloc).process a = some process) :
    (a = s.created ∧ process = ⟨stackAlloc + stackSz - 32 - 32, stackAlloc⟩) ∨
      (a ≠ s.created ∧ s.process a = some process) := by
  by_cases same : a = s.created
  · subst same
    simp only [Cpu.createProcess, Function.update_self, Option.some.injEq] at found
    exact .inl ⟨rfl, found.symm⟩
  · simp only [Cpu.createProcess, Function.update_of_ne same] at found
    exact .inr ⟨same, found⟩

/-- The new process has its first context on its stack. -/
theorem keeps_createProcess :
    Keeps (s.createProcess processFinish pc r0 stackAlloc).memory
      ⟨stackAlloc + stackSz - 32 - 32, stackAlloc⟩
      ((s.createProcess processFinish pc r0 stackAlloc).saved s.created) := by
  have saved : (s.createProcess processFinish pc r0 stackAlloc).saved s.created =
      firstContext processFinish pc r0 stackAlloc := Function.update_self _ _ _
  rw [saved]
  refine ⟨?_, ?_, ldmia_firstStack, hwStackCtxAt_firstStack⟩
  · change _ ∧ _
    simp only [firstContext, stackSz]
    omega
  · simp only [firstContext, stackSz]
    omega

/-- Its stack is apart from those of the old processes. -/
theorem createProcess_of_clear {process : ProcessT} (clear : process.ClearOf stackAlloc)
    (address : Nat) (owns : process.Owns address) :
    (s.createProcess processFinish pc r0 stackAlloc).memory address = s.memory address := by
  apply firstStack_of_outside
  unfold ProcessT.ClearOf at clear
  unfold ProcessT.Owns at owns
  omega

end Create

theorem Sound.createProcess (sound : s.Sound) (pc r0 : UInt32) {stackAlloc : Nat}
    (fresh : s.Fresh stackAlloc) :
    (s.createProcess processFinish pc r0 stackAlloc).Sound := by
  have clear {a : Nat} {process : ProcessT} (found : s.process a = some process) :
      process.ClearOf stackAlloc := fresh.2 a (sound.known a process found) process found
  constructor
  · intro a b first second foundFirst foundSecond other
    rcases process_createProcess foundFirst with ⟨rfl, rfl⟩ | ⟨_, old⟩
    · rcases process_createProcess foundSecond with ⟨rfl, _⟩ | ⟨_, old⟩
      · exact absurd rfl other
      · exact (clear old).symm
    · rcases process_createProcess foundSecond with ⟨rfl, rfl⟩ | ⟨_, old'⟩
      · exact clear old
      · exact sound.apart a b first second old old' other
  · intro a process found
    change a < s.created + 1
    rcases process_createProcess found with ⟨rfl, _⟩ | ⟨_, old⟩
    · exact Nat.lt_succ_self _
    · exact Nat.lt_succ_of_lt (sound.known a process old)
  · intro a process found
    rcases process_createProcess found with ⟨_, rfl⟩ | ⟨_, old⟩
    · exact fresh.1
    · exact sound.notNull a process old
  · intro a process found away
    rcases process_createProcess found with ⟨rfl, rfl⟩ | ⟨other, old⟩
    · exact keeps_createProcess
    · have saved : (s.createProcess processFinish pc r0 stackAlloc).saved a = s.saved a :=
        Function.update_of_ne other _ _
      rw [saved]
      exact (sound.suspended a process old away).congr (createProcess_of_clear (clear old))
  · intro a current
    rcases sound.running a current with ⟨process, found, holds⟩
    refine ⟨process, ?_, holds⟩
    have other : a ≠ s.created := Nat.ne_of_lt (sound.known a process found)
    exact (Function.update_of_ne other _ _).trans found
  · exact sound.nobody

/-- Writes are made one after the other, by induction on what is left of them. -/
theorem foldl_store_of_not_mem {writes : List (Nat × UInt8)} {memory : Bytes} {address : Nat}
    (elsewhere : ∀ write ∈ writes, write.1 ≠ address) :
    writes.foldl store memory address = memory address := by
  induction writes generalizing memory with
  | nil => rfl
  | cons write writes ih =>
      rw [List.foldl_cons, ih fun other member => elsewhere other (List.mem_cons_of_mem _ member)]
      exact Function.update_of_ne (Ne.symm (elsewhere write List.mem_cons_self)) _ _

theorem Sound.run {writes : List (Nat × UInt8)} {registers : SwStackCtx} {psp : Nat}
    (sound : s.Sound) (bounded : s.WithinBounds writes psp) :
    Sound { s with memory := writes.foldl store s.memory, registers, psp } where
  apart := sound.apart
  known := sound.known
  notNull := sound.notNull
  suspended := by
    intro a process found away
    apply (sound.suspended a process found away).congr
    intro address owns
    apply foldl_store_of_not_mem
    rintro write member rfl
    exact bounded.2 write member a (sound.known a process found) away process found owns
  running := by
    intro a current
    rcases bounded.1 with ⟨current', isCurrent, process, found, holds⟩
    have same : a = current' := Option.some.inj (current.symm.trans isCurrent)
    exact ⟨process, same ▸ found, holds⟩
  nobody := by
    intro nobody
    rcases bounded.1 with ⟨current', isCurrent, _⟩
    rw [nobody] at isCurrent
    contradiction

theorem Sound.free {proc : Nat} (sound : s.Sound) (other : s.currentTsk ≠ some proc) :
    Sound { s with process := Function.update s.process proc none } := by
  have old {a : Nat} {process : ProcessT}
      (found : Function.update s.process proc none a = some process) :
      s.process a = some process := by
    by_cases same : a = proc
    · subst same
      rw [Function.update_self] at found
      contradiction
    · rwa [Function.update_of_ne same] at found
  constructor
  · intro a b first second foundFirst foundSecond
    exact sound.apart a b first second (old foundFirst) (old foundSecond)
  · exact fun a process found => sound.known a process (old found)
  · exact fun a process found => sound.notNull a process (old found)
  · exact fun a process found => sound.suspended a process (old found)
  · intro a current
    rcases sound.running a current with ⟨process, found, holds⟩
    have apart : a ≠ proc := by
      rintro rfl
      exact other current
    exact ⟨process, (Function.update_of_ne apart _ _).trans found, holds⟩
  · exact sound.nobody

/-- All processes are switched out: the current one with the context that PendSV has
found, the others as they were. -/
structure SwitchedOut (s out : Cpu) : Prop where
  created : out.created = s.created
  present : ∀ a process, s.process a = some process → ∃ kept, out.process a = some kept
  blocks : ∀ a kept, out.process a = some kept →
    ∃ process, s.process a = some process ∧ process.stackAlloc = kept.stackAlloc
  keeps : ∀ a kept, out.process a = some kept → Keeps out.memory kept (out.saved a)
  saves : ∀ current, s.currentTsk = some current → out.saved current = s.context
  others : ∀ other process, s.process other = some process → s.currentTsk ≠ some other →
    out.saved other = s.saved other ∧
      ∀ address, process.Owns address → out.memory address = s.memory address

/-- Nothing is current before the first selection. -/
theorem Sound.switchOut_of_none (sound : s.Sound) (nobody : s.currentTsk = none) :
    s.saveContext = (s, 0) ∧ s.switchOut 0 = some s ∧ SwitchedOut s s := by
  have cleared := sound.nobody nobody
  refine ⟨if_pos cleared, by simp [switchOut, nobody], rfl, ?_, ?_, ?_, ?_, ?_⟩
  · exact fun _ process found => ⟨process, found⟩
  · exact fun _ kept found => ⟨kept, found, rfl⟩
  · exact fun a kept found => sound.suspended a kept found (by simp [nobody])
  · exact fun current isCurrent => by simp [nobody] at isCurrent
  · exact fun _ _ _ _ => ⟨rfl, fun _ _ => rfl⟩

/-- The state when the registers of the current process are on its stack, and its context is
kept. -/
def putAway (s : Cpu) (current : Nat) (process : ProcessT) : Cpu :=
  { s with
    memory := stmfd s.memory (s.psp - 32) s.registers
    process := Function.update s.process current (some { process with curStack := s.psp - 32 })
    saved := Function.update s.saved current s.context }

section PutAway

variable {current : Nat} {process : ProcessT}

theorem putAway_process_self : (s.putAway current process).process current =
    some { process with curStack := s.psp - 32 } :=
  Function.update_self _ _ _

theorem putAway_process_of_ne {a : Nat} (apart : a ≠ current) :
    (s.putAway current process).process a = s.process a :=
  Function.update_of_ne apart _ _

theorem putAway_saved_self : (s.putAway current process).saved current = s.context :=
  Function.update_self _ _ _

theorem putAway_saved_of_ne {a : Nat} (apart : a ≠ current) :
    (s.putAway current process).saved a = s.saved a :=
  Function.update_of_ne apart _ _

/-- The frame lies behind what the process stores. -/
theorem frame_kept (registers : SwStackCtx) (room : 32 ≤ s.psp) :
    hwStackCtxAt (stmfd s.memory (s.psp - 32) registers) s.psp = hwStackCtxAt s.memory s.psp := by
  apply hwStackCtxAt_congr
  intro i _
  exact stmfd_of_outside (by omega)

/-- The stacks of the others are left alone. -/
theorem Sound.putAway_outside (sound : s.Sound) (found : s.process current = some process)
    (holds : process.Holds s.psp) {other : Nat} {kept : ProcessT}
    (there : s.process other = some kept) (away : other ≠ current) (address : Nat)
    (owns : kept.Owns address) :
    (s.putAway current process).memory address = s.memory address := by
  have apart := sound.apart current other process kept found there (Ne.symm away)
  apply stmfd_of_outside
  unfold ProcessT.ClearOf at apart
  unfold ProcessT.Owns at owns
  unfold ProcessT.Holds at holds
  omega

/-- This is what `irq_pendsv` and `pick_new_task` make of the current process. -/
theorem Sound.switchOut_eq (sound : s.Sound) (isCurrent : s.currentTsk = some current)
    (found : s.process current = some process) (holds : process.Holds s.psp) :
    ∃ stored, s.saveContext = (stored, s.psp - 32) ∧
      stored.switchOut (s.psp - 32) = some (s.putAway current process) := by
  have notNull := sound.notNull current process found
  unfold ProcessT.Holds at holds
  have inUse : s.psp ≠ 0 := by omega
  have returned : s.psp - 32 ≠ 0 := by omega
  have frame := frame_kept s.registers (by omega : 32 ≤ s.psp)
  refine ⟨{ s with memory := stmfd s.memory (s.psp - 32) s.registers }, if_neg inUse, ?_⟩
  simp only [switchOut, isCurrent, if_neg returned, found, Option.map_some, putAway, context,
    frame]

theorem Sound.switchedOut_putAway (sound : s.Sound) (isCurrent : s.currentTsk = some current)
    (found : s.process current = some process) (holds : process.Holds s.psp) :
    SwitchedOut s (s.putAway current process) := by
  have bounds := holds
  unfold ProcessT.Holds at bounds
  have notNull := sound.notNull current process found
  have other {a : Nat} (away : a ≠ current) : s.currentTsk ≠ some a := by
    rw [isCurrent]
    exact fun equal => away (Option.some.inj equal).symm
  constructor
  · rfl
  · intro a before there
    by_cases same : a = current
    · subst same
      exact ⟨_, putAway_process_self⟩
    · exact ⟨before, (putAway_process_of_ne same).trans there⟩
  · intro a kept there
    by_cases same : a = current
    · subst same
      cases putAway_process_self.symm.trans there
      exact ⟨process, found, rfl⟩
    · exact ⟨kept, (putAway_process_of_ne same).symm.trans there, rfl⟩
  · intro a kept there
    by_cases same : a = current
    · subst same
      cases putAway_process_self.symm.trans there
      rw [putAway_saved_self]
      exact ⟨holds, Nat.sub_add_cancel (by omega), ldmia_stmfd _, frame_kept _ (by omega)⟩
    · have before := (putAway_process_of_ne same).symm.trans there
      rw [putAway_saved_of_ne same]
      exact (sound.suspended a kept before (other same)).congr
        (sound.putAway_outside found holds before same)
  · intro a isOther
    have same : a = current := Option.some.inj (isOther.symm.trans isCurrent)
    rw [same]
    exact putAway_saved_self
  · intro a kept there away
    have apart : a ≠ current := by
      rintro rfl
      exact away isCurrent
    exact ⟨putAway_saved_of_ne apart, sound.putAway_outside found holds there apart⟩

end PutAway

/-- The current process is switched out. -/
theorem Sound.switchOut_of_some {current : Nat} (sound : s.Sound)
    (isCurrent : s.currentTsk = some current) :
    ∃ stored out, s.saveContext = (stored, s.psp - 32) ∧
      stored.switchOut (s.psp - 32) = some out ∧ SwitchedOut s out := by
  rcases sound.running current isCurrent with ⟨process, found, holds⟩
  rcases sound.switchOut_eq isCurrent found holds with ⟨stored, saved, switched⟩
  exact ⟨stored, _, saved, switched, sound.switchedOut_putAway isCurrent found holds⟩

/-- PendSV switches everybody out and the selected process in. -/
theorem Sound.irqPendSv_eq {next : Nat} {selected : ProcessT} (sound : s.Sound)
    (found : s.process next = some selected) :
    ∃ out kept, SwitchedOut s out ∧ out.process next = some kept ∧
      s.irqPendSv next = some { out with
        currentTsk := some next
        registers := (out.saved next).registers
        psp := (out.saved next).psp } := by
  have switched : ∃ stored r0 out, s.saveContext = (stored, r0) ∧
      stored.switchOut r0 = some out ∧ SwitchedOut s out := by
    cases current : s.currentTsk with
    | none =>
        rcases sound.switchOut_of_none current with ⟨saved, switched, all⟩
        exact ⟨s, 0, s, saved, switched, all⟩
    | some running =>
        rcases sound.switchOut_of_some current with ⟨stored, out, saved, switched, all⟩
        exact ⟨stored, _, out, saved, switched, all⟩
  rcases switched with ⟨stored, r0, out, saved, switched, all⟩
  rcases all.present next selected found with ⟨kept, there⟩
  have keeps := all.keeps next kept there
  refine ⟨out, kept, all, there, ?_⟩
  simp only [irqPendSv, saved, pickNewTask, switched, bind, Option.bind_some, there,
    restoreContext, keeps.registers, keeps.curStack]

theorem Sound.irqPendSv {next : Nat} {selected : ProcessT} (sound : s.Sound)
    (found : s.process next = some selected) (taken : s.irqPendSv next = some after) :
    after.Sound ∧ Transparent s (.pendSv next) after := by
  rcases sound.irqPendSv_eq found with ⟨out, kept, all, there, ran⟩
  rw [ran] at taken
  cases taken
  have keeps := all.keeps next kept there
  constructor
  · constructor
    · intro a b first second foundFirst foundSecond other
      rcases all.blocks a first foundFirst with ⟨first', before, stack⟩
      rcases all.blocks b second foundSecond with ⟨second', before', stack'⟩
      have apart := sound.apart a b first' second' before before' other
      unfold ProcessT.ClearOf at apart ⊢
      rwa [stack, stack'] at apart
    · intro a process found'
      rcases all.blocks a process found' with ⟨process', before, _⟩
      exact all.created ▸ sound.known a process' before
    · intro a process found'
      rcases all.blocks a process found' with ⟨process', before, stack⟩
      exact stack ▸ sound.notNull a process' before
    · exact fun a process found' _ => all.keeps a process found'
    · intro a current
      cases current
      exact ⟨kept, there, keeps.holds⟩
    · intro nobody
      contradiction
  · constructor
    · rintro _ ⟨⟩
      refine ⟨rfl, ?_⟩
      simp only [context, keeps.frame]
    · rintro _ ⟨⟩
      exact all.saves
    · rintro _ ⟨⟩
      exact all.others

theorem Sound.step {event : SwitchEvent} (sound : s.Sound)
    (taken : Cpu.step processFinish s event = some after) :
    after.Sound ∧ Transparent s event after := by
  cases event with
  | createProcess pc r0 stackAlloc =>
      rcases Option.ite_none_right_eq_some.mp taken with ⟨fresh, created⟩
      cases created
      exact ⟨sound.createProcess pc r0 fresh, by simp, by simp, by simp⟩
  | run writes registers psp =>
      rcases Option.ite_none_right_eq_some.mp taken with ⟨bounded, ran⟩
      cases ran
      exact ⟨sound.run bounded, by simp, by simp, by simp⟩
  | pendSv next =>
      rcases Option.ite_none_right_eq_some.mp taken with ⟨present, switched⟩
      rcases Option.isSome_iff_exists.mp present with ⟨selected, found⟩
      exact sound.irqPendSv found switched
  | free proc =>
      rcases Option.ite_none_right_eq_some.mp taken with ⟨other, freed⟩
      cases freed
      exact ⟨sound.free other, by simp, by simp, by simp⟩

end Step

end Cpu

end Lpc17xx.Process
