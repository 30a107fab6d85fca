import Lpc17xx.Transition.Code

/-!
# Masked interrupts on one processor

Code runs on a processor with a memory that it shares with interrupt handlers and
other processes.  They come through only while interrupts are not masked, and
then do to the memory what they like.  A section that masks interrupts, keeps the
old state of the mask and restores it behind its body is as neutral as its body;
such sections nest.
-/

namespace Lpc17xx.Interrupt

open Lpc17xx.Transition

/-- A processor as the code of one process sees it.  `others` is what happens to the
memory each time interrupts become enabled, as long as anything happens.  `slept`
is kept by nobody: the process has been taken off the processor. -/
structure Processor (μ : Type) where
  memory : μ
  masked : Bool
  others : List (μ → μ)
  slept : Bool

namespace Processor

variable {μ : Type}

/-- The processor at the call of a function. -/
def enter (memory : μ) (masked : Bool) (others : List (μ → μ)) : Processor μ where
  memory := memory
  masked := masked
  others := others
  slept := false

/-- Interrupts and other processes come through. -/
def interfere (cpu : Processor μ) : Processor μ :=
  { cpu with
    memory := (cpu.others.headD id) cpu.memory
    others := cpu.others.tail }

end Processor

/-- Code of a process. -/
abbrev Routine (μ : Type) :=
  Code (Processor μ)

section Operations

variable {μ α β : Type}

/-- Read and write the memory. -/
def access (operation : μ → α × μ) : Routine μ α := fun cpu =>
  let (result, memory) := operation cpu.memory
  some (result, { cpu with memory })

/-- Read the memory. -/
def load (read : μ → α) : Routine μ α :=
  access fun memory => (read memory, memory)

/-- Write the memory. -/
def store (write : μ → μ) : Routine μ Unit :=
  access fun memory => ((), write memory)

/-- The state of the mask. -/
def readMask : Routine μ Bool := fun cpu =>
  some (cpu.masked, cpu)

/-- Set the mask.  What has waited for interrupts to be enabled happens now. -/
def writeMask (flags : Bool) : Routine μ Unit := fun cpu =>
  let cpu := { cpu with masked := flags }
  some ((), if flags then cpu else cpu.interfere)

/-- Leave the processor to the others.  They run with interrupts enabled, and so does
the process when it comes back. -/
def sleep : Routine μ Unit := fun cpu =>
  some ((), { cpu with masked := false, slept := true }.interfere)

/-- Mask interrupts, and say whether they were masked. -/
def disable : Routine μ Bool := do
  let flags ← readMask
  writeMask true
  pure flags

/-- Put the mask back. -/
def restore (flags : Bool) : Routine μ Unit :=
  writeMask flags

end Operations

section Discipline

variable {μ α β : Type}

/-- The mask is as it was, and the process has not slept. -/
def Steady (cpu after : Processor μ) : Prop :=
  after.masked = cpu.masked ∧ after.slept = cpu.slept

/-- The mask is as it was, or the process has slept and interrupts are enabled. -/
def Balanced (cpu after : Processor μ) : Prop :=
  Steady cpu after ∨ after.slept = true ∧ after.masked = false

instance : Std.Refl (@Steady μ) :=
  ⟨fun _ => ⟨rfl, rfl⟩⟩

instance : IsTrans (Processor μ) Steady :=
  ⟨fun _ _ _ first second => ⟨second.1.trans first.1, second.2.trans first.2⟩⟩

instance : Std.Refl (@Balanced μ) :=
  ⟨fun _ => .inl ⟨rfl, rfl⟩⟩

instance : IsTrans (Processor μ) Balanced where
  trans cpu middle after first second := by
    rcases second with ⟨mask, slept⟩ | asleep
    · rcases first with ⟨firstMask, firstSlept⟩ | ⟨firstSlept, firstMask⟩
      · exact .inl ⟨mask.trans firstMask, slept.trans firstSlept⟩
      · exact .inr ⟨slept.trans firstSlept, mask.trans firstMask⟩
    · exact .inr asleep

theorem balanced_of_steady {code : Routine μ α} (steady : code.Respects Steady) :
    code.Respects Balanced :=
  steady.mono fun _ _ => .inl

theorem steady_access (operation : μ → α × μ) : (access operation).Respects Steady := by
  intro cpu result after returned
  cases returned
  exact ⟨rfl, rfl⟩

theorem writeMask_eq_some {flags : Bool} {cpu after : Processor μ} {result : Unit}
    (returned : writeMask flags cpu = some (result, after)) :
    after.masked = flags ∧ after.slept = cpu.slept := by
  cases returned
  cases flags <;> exact ⟨rfl, rfl⟩

/-- A process that has slept finds interrupts enabled. -/
theorem slept_sleep :
    (sleep : Routine μ Unit).Respects fun _ after => after.slept = true ∧ after.masked = false := by
  intro cpu result after returned
  cases returned
  exact ⟨rfl, rfl⟩

theorem steady_load (read : μ → α) : (load read).Respects Steady :=
  steady_access _

theorem steady_store (write : μ → μ) : (store write).Respects Steady :=
  steady_access _

theorem disable_eq_some {cpu after : Processor μ} {flags : Bool}
    (returned : disable cpu = some (flags, after)) :
    flags = cpu.masked ∧ after.masked = true ∧ after.slept = cpu.slept := by
  cases returned
  exact ⟨rfl, rfl, rfl⟩

/-- What is left of a section that was entered on the processor `origin`: it ends in a
state related to it. -/
def Within (R : Processor μ → Processor μ → Prop) (origin : Processor μ)
    (code : Routine μ α) : Prop :=
  ∀ cpu result after, cpu.masked = true → cpu.slept = origin.slept →
    code cpu = some (result, after) → R origin after

/-- A section, whatever it does to the memory and however many sections it contains. -/
theorem respects_disable {R : Processor μ → Processor μ → Prop} {rest : Bool → Routine μ α}
    (inside : ∀ origin, Within R origin (rest origin.masked)) :
    Code.Respects R (disable >>= rest) := by
  intro cpu result after returned
  rcases Code.bind_eq_some.mp returned with ⟨flags, begun, entered, ended⟩
  rcases disable_eq_some entered with ⟨same, masked, slept⟩
  rw [same] at ended
  exact inside cpu begun result after masked slept ended

namespace Within

variable {R : Processor μ → Processor μ → Prop} {origin : Processor μ}

/-- A statement inside a section. -/
theorem bind {first : Routine μ α} {second : α → Routine μ β} (steady : first.Respects Steady)
    (inside : ∀ value, Within R origin (second value)) : Within R origin (first >>= second) := by
  intro cpu result after masked slept returned
  rcases Code.bind_eq_some.mp returned with ⟨value, middle, here, there⟩
  rcases steady cpu value middle here with ⟨sameMask, sameSlept⟩
  exact inside value middle result after (sameMask.trans masked) (sameSlept.trans slept) there

theorem ite {condition : Prop} [Decidable condition] {yes no : Routine μ α}
    (taken : Within R origin yes) (passed : Within R origin no) :
    Within R origin (if condition then yes else no) := by
  split
  · exact taken
  · exact passed

theorem never : Within R origin (Code.never : Routine μ α) := by
  intro cpu result after masked slept returned
  cases returned

/-- The end of a section, and what comes behind it. -/
theorem restore [IsTrans (Processor μ) R] {rest : Unit → Routine μ α}
    (neutral : ∀ cpu after, Steady cpu after → R cpu after)
    (onward : ∀ value, (rest value).Respects R) :
    Within R origin (Interrupt.restore origin.masked >>= rest) := by
  intro cpu result after masked slept returned
  rcases Code.bind_eq_some.mp returned with ⟨value, middle, here, there⟩
  rcases writeMask_eq_some here with ⟨sameMask, sameSlept⟩
  exact IsTrans.trans origin middle after (neutral origin middle ⟨sameMask, sameSlept.trans slept⟩)
    (onward value middle result after there)

/-- The end of a section that is the end of its function. -/
theorem last (neutral : ∀ cpu after, Steady cpu after → R cpu after) :
    Within R origin (Interrupt.restore origin.masked) := by
  intro cpu result after masked slept returned
  rcases writeMask_eq_some returned with ⟨sameMask, sameSlept⟩
  exact neutral origin after ⟨sameMask, sameSlept.trans slept⟩

/-- A section that is left by sleeping. -/
theorem slept {first : Routine μ α} {second : α → Routine μ β}
    (sleeps : first.Respects fun _ after => after.slept = true ∧ after.masked = false)
    (onward : ∀ value, (second value).Respects Balanced) :
    Within Balanced origin (first >>= second) := by
  intro cpu result after _ _ returned
  rcases Code.bind_eq_some.mp returned with ⟨value, middle, here, there⟩
  have asleep : Balanced origin middle := .inr (sleeps cpu value middle here)
  exact IsTrans.trans origin middle after asleep (onward value middle result after there)

end Within

end Discipline

end Lpc17xx.Interrupt
