import Lpc17xx.Checksum.OnesComplement
import Lpc17xx.Queue.Transmit
import Lpc17xx.Wire.Fields

/-!
# The checksum of an IPv4 header

The loops of the code add half-words as the processor loads them, least significant
byte first, and store the complement in the same order.  Whoever reads the block in
network order finds a sum of all ones.  `ip4_compute_checksum` does so for a header.
-/

namespace Lpc17xx.Wire

open Lpc17xx.Cbuf
open Lpc17xx.Checksum
open Lpc17xx.Memory
open Lpc17xx.Protocol
open Lpc17xx.Queue

/-- The first half-words of a block as the processor loads them. -/
def loadedWords (memory : Bytes) (count : Nat) : List Nat :=
  (List.range count).map fun i => (load16 memory (2 * i)).toNat

/-- The sum of them that a loop over the block computes. -/
def halvesSum (memory : Bytes) (count : Nat) : UInt32 :=
  (List.range count).foldl (fun sum i => sum + (load16 memory (2 * i)).toUInt32) 0

/-- The complement of that sum, once its carries are added. -/
def halvesChecksum (memory : Bytes) (count : Nat) : UInt16 :=
  (~~~ addCarries 2 (halvesSum memory count)).toUInt16

/-- The two readings of a half-word have their bytes exchanged. -/
theorem toNat_big16_eq_exchange (memory : Bytes) (address : Nat) :
    (big16 memory address).toNat = exchangeDigits 256 (load16 memory address).toNat := by
  have low := (memory address).toNat_lt
  have high := (memory (address + 1)).toNat_lt
  simp only [toNat_big16, toNat_load16, networkNat, List.foldl_cons, List.foldl_nil,
    exchangeDigits]
  omega

/-- The loop that adds the carries keeps the sum modulo the greatest half-word. -/
theorem addCarries_modEq (fuel : Nat) (sum : UInt32) :
    (addCarries fuel sum).toNat ≡ sum.toNat [MOD 65535] := by
  induction fuel generalizing sum with
  | zero => rfl
  | succ fuel ih =>
      rw [addCarries]
      split
      · rfl
      · have carried := ih ((sum &&& (0xffff : UInt32)) + (sum >>> 16))
        rw [toNat_addCarry] at carried
        exact carried.trans (foldCarry_modEq sum.toNat)

/-- The sum of the half-words does not overflow. -/
theorem toNat_sumHalves (header : Bytes) (places : List Nat) (start : UInt32)
    (room : start.toNat + 65535 * places.length < 2 ^ 32) :
    (places.foldl (fun sum i => sum + (load16 header (2 * i)).toUInt32) start).toNat =
      start.toNat + (places.map fun i => (load16 header (2 * i)).toNat).sum := by
  induction places generalizing start with
  | nil => rfl
  | cons place places ih =>
      have word := (load16 header (2 * place)).toNat_lt
      rw [List.length_cons] at room
      have added : (start + (load16 header (2 * place)).toUInt32).toNat =
          start.toNat + (load16 header (2 * place)).toNat := by
        rw [UInt32.toNat_add, UInt16.toNat_toUInt32]
        exact Nat.mod_eq_of_lt (by omega)
      rw [List.foldl_cons, ih _ (by rw [added]; omega), added, List.map_cons, List.sum_cons,
        Nat.add_assoc]

theorem toNat_halvesSum (memory : Bytes) {count : Nat} (room : 65535 * count < 2 ^ 32) :
    (halvesSum memory count).toNat = (loadedWords memory count).sum := by
  have total := toNat_sumHalves memory (List.range count) 0
    (by rwa [UInt32.toNat_zero, Nat.zero_add, List.length_range])
  rwa [UInt32.toNat_zero, Nat.zero_add] at total

/-- The checksum makes up the sum of the half-words to a multiple of the greatest. -/
theorem sum_add_checksum (memory : Bytes) {count : Nat} (room : 65535 * count < 2 ^ 32) :
    (loadedWords memory count).sum + (halvesChecksum memory count).toNat ≡ 0 [MOD 65535] := by
  let sum := halvesSum memory count
  have sumNat : sum.toNat = (loadedWords memory count).sum := toNat_halvesSum memory room
  have carried : (addCarries 2 sum).toNat ≡ (loadedWords memory count).sum [MOD 65535] :=
    sumNat ▸ addCarries_modEq 2 sum
  have bound := addCarries_two sum
  have complement : (addCarries 2 sum).toNat + (halvesChecksum memory count).toNat = 65535 := by
    change (addCarries 2 sum).toNat + (~~~ addCarries 2 sum).toUInt16.toNat = 65535
    rw [UInt32.toNat_toUInt16, UInt32.toNat_not, UInt32.size]
    omega
  calc
    (loadedWords memory count).sum + (halvesChecksum memory count).toNat
    _ ≡ (addCarries 2 sum).toNat + (halvesChecksum memory count).toNat [MOD 65535] :=
        carried.symm.add_right _
    _ = 65535 := complement
    _ ≡ 0 [MOD 65535] := rfl

/-- The words of a block in network order. -/
theorem networkWords_loaded (memory : Bytes) (count : Nat) :
    networkWords (bytesAt memory (2 * count)) =
      (loadedWords memory count).map (exchangeDigits 256) := by
  rw [networkWords_bytesAt memory count, loadedWords, List.map_map]
  apply List.map_congr_left
  intro i _
  exact toNat_big16_eq_exchange memory (2 * i)

theorem loadedWords_succ (memory : Bytes) (count : Nat) :
    loadedWords memory (count + 1) =
      loadedWords memory count ++ [(load16 memory (2 * count)).toNat] := by
  rw [loadedWords, List.range_succ, List.map_append, List.map_singleton, loadedWords]

/-- A half-word behind the block is no part of it. -/
theorem loadedWords_store16_behind {memory : Bytes} {count index : Nat} {word : UInt16}
    (behind : count ≤ index) :
    loadedWords (store16 memory (2 * index) word) count = loadedWords memory count := by
  apply List.map_congr_left
  intro i member
  have before := List.mem_range.mp member
  rw [load16_store16_of_apart (by omega)]

/-- Storing the checksum into a cleared field adds it to the sum, by induction on the
half-words behind it. -/
theorem sum_stored {memory : Bytes} {count index : Nat} (inside : index < count)
    (cleared : load16 memory (2 * index) = 0) (checksum : UInt16) :
    (loadedWords (store16 memory (2 * index) checksum) count).sum =
      (loadedWords memory count).sum + checksum.toNat := by
  induction count with
  | zero => exact absurd inside (Nat.not_lt_zero _)
  | succ count ih =>
      rw [loadedWords_succ, loadedWords_succ, List.sum_append, List.sum_append,
        List.sum_singleton, List.sum_singleton]
      rcases Nat.lt_succ_iff_lt_or_eq.mp inside with before | rfl
      · rw [ih before, load16_store16_of_apart (by omega)]
        omega
      · rw [loadedWords_store16_behind (Nat.le_refl _), load16_store16, cleared,
          UInt16.toNat_zero, Nat.add_zero]

/-- A block with its checksum stored adds up to all ones in network order, unless all
the rest of it is zero. -/
theorem onesSum_checksum {memory : Bytes} {count index : Nat} (room : 65535 * count < 2 ^ 32)
    (inside : index < count) (cleared : load16 memory (2 * index) = 0)
    (nonzero : ∃ i < count, i ≠ index ∧ big16 memory (2 * i) ≠ 0) :
    onesSum 0xffff (networkWords (bytesAt
      (store16 memory (2 * index) (halvesChecksum memory count)) (2 * count))) = 0xffff := by
  have sum := sum_stored inside cleared (halvesChecksum memory count)
  rcases nonzero with ⟨i, bound, other, nonzero⟩
  have kept : big16 (store16 memory (2 * index) (halvesChecksum memory count)) (2 * i) =
      big16 memory (2 * i) :=
    big16_congr fun _ _ => store16_of_outside (by omega)
  generalize store16 memory (2 * index) (halvesChecksum memory count) = summed at sum kept
  apply onesSum_eq_top
  · intro word member
    rw [networkWords_bytesAt _ count] at member
    rcases List.mem_map.mp member with ⟨i, _, rfl⟩
    exact Nat.le_of_lt_succ (big16 _ _).toNat_lt
  · refine ⟨(big16 summed (2 * i)).toNat, ?_, ?_⟩
    · rw [networkWords_bytesAt _ count]
      exact List.mem_map.mpr ⟨i, List.mem_range.mpr bound, rfl⟩
    · rw [kept]
      intro zero
      exact nonzero (UInt16.toNat_inj.mp zero)
  · have vanishes : (loadedWords summed count).sum ≡ 0 [MOD 65535] := by
      rw [sum]
      exact sum_add_checksum memory room
    rw [networkWords_loaded]
    exact (sum_exchangeDigits_modEq (by decide) _).trans (vanishes.mul_left 256)

end Lpc17xx.Wire
