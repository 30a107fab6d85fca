import Lpc17xx.Arp.Handler

/-!
# ARP packets on the wire

`resolve_address` and `arp_rx_packet` fill in a packet in a block from the heap and
swap it in place before they hand it to `ether_tx`.  The node that receives the 28
bytes swaps them back.
-/

namespace Lpc17xx.Arp

open Lpc17xx.Cbuf
open Lpc17xx.Memory
open Lpc17xx.Protocol

/-- `sizeof(arp_packet)`. -/
def arpPacketSz : Nat := 28

/-- Memory with the fields of a packet filled in. -/
def arpFilled (memory : Bytes) (packet : Nat) (fields : ArpPacket) : Bytes :=
  let memory := store16 memory packet fields.HTYPE
  let memory := store16 memory (packet + 2) fields.PTYPE
  let memory := Function.update memory (packet + 4) fields.HLEN
  let memory := Function.update memory (packet + 5) fields.PLEN
  let memory := store16 memory (packet + 6) fields.OPER
  let memory := storeBytes memory (packet + 8) fields.SHA
  let memory := storeBytes memory (packet + 18) fields.THA
  let memory := store32 memory (packet + 14) fields.SPA
  store32 memory (packet + 24) fields.TPA

/-- The payload of `ether_tx`: the block of the packet, which held `block` before. -/
def arpWire (block : Bytes) (fields : ArpPacket) : List UInt8 :=
  bytesAt (arpSwapped (arpFilled block 0 fields) 0) arpPacketSz

@[simp]
theorem length_arpWire (block : Bytes) (fields : ArpPacket) :
    (arpWire block fields).length = 28 :=
  length_bytesAt _ _

/-- Both hardware addresses have six bytes. -/
def WellFormed (fields : ArpPacket) : Prop :=
  fields.SHA.length = 6 ∧ fields.THA.length = 6

section Wire

variable {block : Bytes} {fields : ArpPacket}

/-- A packet is read in network order from its own bytes only. -/
theorem arpPacketFrom_congr {memory memory' : Bytes} {packet : Nat}
    (same : ∀ i < 28, memory' (packet + i) = memory (packet + i)) :
    arpPacketFrom memory' packet = arpPacketFrom memory packet := by
  have byte (i : Nat) (bound : i < 28) : memory' (packet + i) = memory (packet + i) := same i bound
  have half (i : Nat) (bound : i + 2 ≤ 28) :
      big16 memory' (packet + i) = big16 memory (packet + i) :=
    big16_congr fun j _ => by rw [Nat.add_assoc, byte _ (by omega)]
  have word (i : Nat) (bound : i + 4 ≤ 28) :
      big32 memory' (packet + i) = big32 memory (packet + i) :=
    big32_congr fun j _ => by rw [Nat.add_assoc, byte _ (by omega)]
  have address (start : Nat) (bound : start + 6 ≤ 28) :
      bytesAt (fun i => memory' (packet + start + i)) 6 =
        bytesAt (fun i => memory (packet + start + i)) 6 :=
    bytesAt_congr fun j _ => by rw [Nat.add_assoc, byte _ (by omega)]
  have first : big16 memory' packet = big16 memory packet := half 0 (by omega)
  simp (disch := omega) only [arpPacketFrom, first, half, word, byte, address]

/-- Where a packet starts does not matter. -/
theorem arpPacketFrom_shift (memory : Bytes) (packet : Nat) :
    arpPacketFrom (fun i => memory (packet + i)) 0 = arpPacketFrom memory packet := by
  simp only [arpPacketFrom, Nat.zero_add, ← Nat.add_assoc]
  rfl

/-- What `arp_swap_endian` leaves in network order is what stood there. -/
theorem arpPacketFrom_arpSwapped (memory : Bytes) (packet : Nat) :
    arpPacketFrom (arpSwapped memory packet) packet =
      { HTYPE := load16 memory packet
        PTYPE := load16 memory (packet + 2)
        HLEN := memory (packet + 4)
        PLEN := memory (packet + 5)
        OPER := load16 memory (packet + 6)
        SHA := bytesAt (fun i => memory (packet + 8 + i)) 6
        SPA := load32 memory (packet + 14)
        THA := bytesAt (fun i => memory (packet + 18 + i)) 6
        TPA := load32 memory (packet + 24) } := by
  have sha : bytesAt (fun i => arpSwapped memory packet (packet + 8 + i)) 6 =
      bytesAt (fun i => memory (packet + 8 + i)) 6 :=
    bytesAt_congr fun i _ => arpSwapped_of_outside (.inl (by omega))
  have tha : bytesAt (fun i => arpSwapped memory packet (packet + 18 + i)) 6 =
      bytesAt (fun i => memory (packet + 18 + i)) 6 :=
    bytesAt_congr fun i _ => arpSwapped_of_outside (.inr (by omega))
  rw [arpPacketFrom, sha, tha]
  simp (disch := omega) only [arpSwapped, big16_swap32_of_apart, big16_swap16_of_apart,
    big16_swap16, big32_swap32_of_apart, big32_swap32, load16_swap16_of_apart,
    load32_swap16_of_apart, load32_swap32_of_apart, swap16_of_outside, swap32_of_outside]

/-- The fields of a packet that has just been filled in. -/
theorem arpPacketFrom_arpFilled (wellFormed : WellFormed fields) :
    arpPacketFrom (arpSwapped (arpFilled block 0 fields) 0) 0 = fields := by
  rcases fields with ⟨htype, ptype, hlen, plen, oper, sha, spa, tha, tpa⟩
  rcases wellFormed with ⟨shaSize, thaSize⟩
  change sha.length = 6 at shaSize
  change tha.length = 6 at thaSize
  rw [arpPacketFrom_arpSwapped]
  simp only [arpFilled]
  simp (disch := omega) only [load16_store32_of_apart, load16_storeBytes_of_apart,
    load16_update_of_apart, load16_store16_of_apart, load16_store16, load32_store32,
    load32_store32_of_apart, store32_of_outside, storeBytes_of_outside, store16_of_outside]
  rw [Function.update_self, Function.update_of_ne (by decide), Function.update_self]
  have shaStands := bytesAt_stored shaSize fun i (bound : i < 6) => show
      arpFilled block 0 ⟨htype, ptype, hlen, plen, oper, sha, spa, tha, tpa⟩ (0 + 8 + i) =
        sha.getD i 0 by
    simp (disch := omega) only [arpFilled, store32_of_outside, storeBytes_of_outside,
      storeBytes_of_inside]
  have thaStands := bytesAt_stored thaSize fun i (bound : i < 6) => show
      arpFilled block 0 ⟨htype, ptype, hlen, plen, oper, sha, spa, tha, tpa⟩ (0 + 18 + i) =
        tha.getD i 0 by
    simp (disch := omega) only [arpFilled, store32_of_outside, storeBytes_of_inside]
  simp only [arpFilled] at shaStands thaStands
  rw [shaStands, thaStands]

/-- Whoever receives the bytes of a packet reads its fields. -/
theorem arpPacketFrom_arpWire (wellFormed : WellFormed fields) {memory : Bytes} {packet : Nat}
    (received : ∀ i < 28, memory (packet + i) = (arpWire block fields).getD i 0) :
    arpPacketFrom memory packet = fields := by
  rw [← arpPacketFrom_shift, ← @arpPacketFrom_arpFilled block fields wellFormed]
  apply arpPacketFrom_congr
  intro i bound
  rw [Nat.zero_add, received i bound]
  simp [arpWire, bytesAt, arpPacketSz, bound]

end Wire

end Lpc17xx.Arp
