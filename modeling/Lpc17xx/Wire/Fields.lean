import Lpc17xx.Cbuf.Fifo
import Lpc17xx.Memory.Word
import Lpc17xx.Wire.Format
import Mathlib.Tactic.Ring

/-!
# Fields of bytes that lie in memory

A field in network order is what the big-endian load of its place gives.
-/

namespace Lpc17xx.Wire

open Lpc17xx.Cbuf
open Lpc17xx.Memory

section Numbers

variable {memory : Bytes}

/-- A half-word from its two bytes, the high one first. -/
theorem toNat_append (high low : UInt8) :
    (high.toBitVec ++ low.toBitVec).toNat = networkNat [high, low] := by
  have bound : low.toBitVec.toNat < 2 ^ 8 := low.toBitVec.isLt
  rw [BitVec.toNat_append, ← Nat.shiftLeft_add_eq_or_of_lt bound, Nat.shiftLeft_eq]
  simp [networkNat]

theorem toNat_big16 (address : Nat) :
    (big16 memory address).toNat = networkNat [memory address, memory (address + 1)] :=
  toNat_append _ _

theorem toNat_load16 (address : Nat) :
    (load16 memory address).toNat = networkNat [memory (address + 1), memory address] :=
  toNat_append _ _

theorem toNat_big32 (address : Nat) :
    (big32 memory address).toNat =
      networkNat [memory address, memory (address + 1), memory (address + 2),
        memory (address + 3)] := by
  let high := (memory address).toBitVec ++ (memory (address + 1)).toBitVec
  let low := (memory (address + 2)).toBitVec ++ (memory (address + 3)).toBitVec
  have bound : low.toNat < 2 ^ 16 := low.isLt
  have highNat : high.toNat = networkNat [memory address, memory (address + 1)] :=
    toNat_append _ _
  have lowNat : low.toNat = networkNat [memory (address + 2), memory (address + 3)] :=
    toNat_append _ _
  change (high ++ low).toNat = _
  rw [BitVec.toNat_append, ← Nat.shiftLeft_add_eq_or_of_lt bound, Nat.shiftLeft_eq, highNat,
    lowNat]
  simp only [networkNat, List.foldl_cons, List.foldl_nil]
  ring

end Numbers

section Fields

variable {memory : Bytes} {rest : List UInt8} {len start : Nat}

/-- The words of a block with an even number of bytes, by induction on their number. -/
theorem networkWords_bytesAt (memory : Bytes) (count : Nat) :
    networkWords (bytesAt memory (2 * count)) =
      (List.range count).map fun i => (big16 memory (2 * i)).toNat := by
  induction count generalizing memory with
  | zero => rfl
  | succ count ih =>
      have parts : 2 * (count + 1) = 2 + 2 * count := by ring
      rw [parts, bytesAt_add, List.range_succ_eq_map, List.map_cons, List.map_map]
      change networkNat [memory 0, memory 1] ::
        networkWords (bytesAt (fun i => memory (2 + i)) (2 * count)) = _
      rw [ih, toNat_big16]
      congr 1
      apply List.map_congr_left
      intro i _
      have shifted : 2 * (i + 1) = 2 + 2 * i := by ring
      rw [Function.comp_apply, toNat_big16, toNat_big16, shifted]
      rfl

end Fields

end Lpc17xx.Wire
