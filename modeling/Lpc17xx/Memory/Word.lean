import Mathlib.Data.UInt
import Mathlib.Logic.Function.Basic
import Mathlib.Tactic.IntervalCases

/-!
# Words in byte-addressed memory

A memory maps addresses to bytes.  Words are loaded and stored in little-endian
order.  Exchanging the bytes of a word by shifts turns the little-endian reading
of a place into its big-endian reading.
-/

namespace Lpc17xx.Memory

/-- The contents of memory from some base address on. -/
abbrev Bytes := Nat → UInt8

/-- The 16-bit word at `address`, least significant byte first. -/
def load16 (memory : Bytes) (address : Nat) : UInt16 :=
  .ofBitVec ((memory (address + 1)).toBitVec ++ (memory address).toBitVec)

/-- The 32-bit word at `address`, least significant byte first. -/
def load32 (memory : Bytes) (address : Nat) : UInt32 :=
  .ofBitVec (((memory (address + 3)).toBitVec ++ (memory (address + 2)).toBitVec) ++
    ((memory (address + 1)).toBitVec ++ (memory address).toBitVec))

/-- The 16-bit word at `address`, most significant byte first. -/
def big16 (memory : Bytes) (address : Nat) : UInt16 :=
  .ofBitVec ((memory address).toBitVec ++ (memory (address + 1)).toBitVec)

/-- The 32-bit word at `address`, most significant byte first. -/
def big32 (memory : Bytes) (address : Nat) : UInt32 :=
  .ofBitVec (((memory address).toBitVec ++ (memory (address + 1)).toBitVec) ++
    ((memory (address + 2)).toBitVec ++ (memory (address + 3)).toBitVec))

/-- Store a 16-bit word, least significant byte first. -/
def store16 (memory : Bytes) (address : Nat) (word : UInt16) : Bytes := fun other =>
  if other = address then word.toUInt8
  else if other = address + 1 then (word >>> 8).toUInt8
  else memory other

/-- Store a 32-bit word, least significant byte first. -/
def store32 (memory : Bytes) (address : Nat) (word : UInt32) : Bytes := fun other =>
  if other = address then word.toUInt8
  else if other = address + 1 then (word >>> 8).toUInt8
  else if other = address + 2 then (word >>> 16).toUInt8
  else if other = address + 3 then (word >>> 24).toUInt8
  else memory other

/-- Copy bytes to `address`. -/
def storeBytes (memory : Bytes) (address : Nat) (bytes : List UInt8) : Bytes := fun other =>
  if address ≤ other ∧ other < address + bytes.length then bytes.getD (other - address) 0
  else memory other

section Store

variable {memory : Bytes} {address other : Nat}

theorem storeBytes_of_outside {bytes : List UInt8}
    (outside : other < address ∨ address + bytes.length ≤ other) :
    storeBytes memory address bytes other = memory other := by
  unfold storeBytes
  rw [if_neg (by omega)]

theorem storeBytes_of_inside {bytes : List UInt8} {i : Nat} (inside : i < bytes.length) :
    storeBytes memory address bytes (address + i) = bytes.getD i 0 := by
  unfold storeBytes
  rw [if_pos (by omega), Nat.add_sub_cancel_left]

theorem store16_of_outside {word : UInt16} (outside : other < address ∨ address + 2 ≤ other) :
    store16 memory address word other = memory other := by
  unfold store16
  rw [if_neg (by omega), if_neg (by omega)]

theorem store32_of_outside {word : UInt32} (outside : other < address ∨ address + 4 ≤ other) :
    store32 memory address word other = memory other := by
  unfold store32
  rw [if_neg (by omega), if_neg (by omega), if_neg (by omega), if_neg (by omega)]

@[simp]
theorem load16_store16 (word : UInt16) : load16 (store16 memory address word) address = word := by
  rw [← UInt16.toBitVec_inj]
  apply BitVec.eq_of_getLsbD_eq
  intro i bound
  simp only [load16, store16, BitVec.getLsbD_append]
  interval_cases i <;> simp

@[simp]
theorem load32_store32 (word : UInt32) : load32 (store32 memory address word) address = word := by
  rw [← UInt32.toBitVec_inj]
  apply BitVec.eq_of_getLsbD_eq
  intro i bound
  simp only [load32, store32, BitVec.getLsbD_append]
  interval_cases i <;> simp

/-- A word overwrites the word before it. -/
theorem store32_store32 (word word' : UInt32) :
    store32 (store32 memory address word) address word' = store32 memory address word' := by
  funext other
  by_cases inside : address ≤ other ∧ other < address + 4
  · obtain ⟨i, rfl⟩ := Nat.exists_eq_add_of_le inside.1
    have bound : i < 4 := by omega
    interval_cases i <;> simp [store32]
  · rw [store32_of_outside (by omega), store32_of_outside (by omega),
      store32_of_outside (by omega)]

end Store

section Congruence

variable {memory memory' : Bytes} {address : Nat}

/-- A word is read from its own bytes only. -/
theorem load16_congr (same : ∀ i < 2, memory' (address + i) = memory (address + i)) :
    load16 memory' address = load16 memory address := by
  have first : memory' address = memory address := same 0 (by omega)
  rw [load16, first, same 1 (by omega), load16]

theorem load32_congr (same : ∀ i < 4, memory' (address + i) = memory (address + i)) :
    load32 memory' address = load32 memory address := by
  have first : memory' address = memory address := same 0 (by omega)
  rw [load32, first, same 1 (by omega), same 2 (by omega), same 3 (by omega), load32]

theorem big16_congr (same : ∀ i < 2, memory' (address + i) = memory (address + i)) :
    big16 memory' address = big16 memory address := by
  have first : memory' address = memory address := same 0 (by omega)
  rw [big16, first, same 1 (by omega), big16]

theorem big32_congr (same : ∀ i < 4, memory' (address + i) = memory (address + i)) :
    big32 memory' address = big32 memory address := by
  have first : memory' address = memory address := same 0 (by omega)
  rw [big32, first, same 1 (by omega), same 2 (by omega), same 3 (by omega), big32]

theorem load16_store16_of_apart {other : Nat} {word : UInt16}
    (apart : other + 2 ≤ address ∨ address + 2 ≤ other) :
    load16 (store16 memory address word) other = load16 memory other :=
  load16_congr fun _ _ => store16_of_outside (by omega)

theorem load16_store32_of_apart {other : Nat} {word : UInt32}
    (apart : other + 2 ≤ address ∨ address + 4 ≤ other) :
    load16 (store32 memory address word) other = load16 memory other :=
  load16_congr fun _ _ => store32_of_outside (by omega)

theorem load32_store32_of_apart {other : Nat} {word : UInt32}
    (apart : other + 4 ≤ address ∨ address + 4 ≤ other) :
    load32 (store32 memory address word) other = load32 memory other :=
  load32_congr fun _ _ => store32_of_outside (by omega)

theorem load32_store16_of_apart {other : Nat} {word : UInt16}
    (apart : other + 4 ≤ address ∨ address + 2 ≤ other) :
    load32 (store16 memory address word) other = load32 memory other :=
  load32_congr fun _ _ => store16_of_outside (by omega)

theorem load32_update_of_apart {other : Nat} {byte : UInt8}
    (apart : other + 4 ≤ address ∨ address + 1 ≤ other) :
    load32 (Function.update memory address byte) other = load32 memory other :=
  load32_congr fun _ _ => Function.update_of_ne (by omega) _ _

theorem load16_storeBytes_of_apart {other : Nat} {bytes : List UInt8}
    (apart : other + 2 ≤ address ∨ address + bytes.length ≤ other) :
    load16 (storeBytes memory address bytes) other = load16 memory other :=
  load16_congr fun _ _ => storeBytes_of_outside (by omega)

theorem load16_update_of_apart {other : Nat} {byte : UInt8}
    (apart : other + 2 ≤ address ∨ address + 1 ≤ other) :
    load16 (Function.update memory address byte) other = load16 memory other :=
  load16_congr fun _ _ => Function.update_of_ne (by omega) _ _

end Congruence

section Exchange

/-- Two bytes change places by two shifts. -/
theorem exchange16 (high low : BitVec 8) :
    ((high ++ low : BitVec 16) <<< 8 ||| (high ++ low : BitVec 16) >>> 8) = low ++ high := by
  apply BitVec.eq_of_getLsbD_eq
  intro i bound
  simp only [BitVec.getLsbD_or, BitVec.getLsbD_shiftLeft, BitVec.getLsbD_ushiftRight,
    BitVec.getLsbD_append]
  interval_cases i <;> simp

/-- Four bytes change places by four shifts and two masks. -/
theorem exchange32 (a b c d : BitVec 8) :
    (((d ++ c) ++ (b ++ a) : BitVec 32) <<< 24 |||
      ((((d ++ c) ++ (b ++ a) : BitVec 32) <<< 8) &&& 0x00ff0000#32) |||
      ((((d ++ c) ++ (b ++ a) : BitVec 32) >>> 8) &&& 0x0000ff00#32) |||
      ((d ++ c) ++ (b ++ a) : BitVec 32) >>> 24) = ((a ++ b) ++ (c ++ d) : BitVec 32) := by
  apply BitVec.eq_of_getLsbD_eq
  intro i bound
  simp only [BitVec.getLsbD_or, BitVec.getLsbD_and, BitVec.getLsbD_shiftLeft,
    BitVec.getLsbD_ushiftRight, BitVec.getLsbD_append]
  interval_cases i <;> simp

end Exchange

end Lpc17xx.Memory
