import Lpc17xx.Packets.Core

/-!
# What stands in a packet

The fields of a `packet_t` as they are created, and as they are left by writes elsewhere and
by a handler.
-/

namespace Lpc17xx.Packets

open Lpc17xx.Memory
open Lpc17xx.Protocol

/-- The `packet_t` tells where the frame is and how long. -/
structure Recorded (memory : Bytes) (parcel : Parcel) : Prop where
  data : pktData memory parcel.block = parcel.frame
  dataLength : pktDataLength memory parcel.block = parcel.len

section Fields

variable {memory memory' : Bytes} {pkt : Nat} {parcel : Parcel}

theorem Recorded.congr (recorded : Recorded memory parcel)
    (same : Same memory memory' (parcel.block, 28)) : Recorded memory' parcel where
  data := (congrArg UInt32.toNat (same.load32 0 (by decide))).trans recorded.data
  dataLength := (congrArg UInt32.toNat (same.load32 8 (by decide))).trans recorded.dataLength

theorem pktHandler_congr (same : Same memory memory' (pkt, 28)) :
    pktHandler memory' pkt = pktHandler memory pkt :=
  congrArg resolvePktProtocol (same 16 (by simp))

@[simp]
theorem pktHandler_storeHandler (handler : ProtocolType) :
    pktHandler (storeHandler memory pkt handler) pkt = handler := by
  rw [pktHandler, storeHandler, Function.update_self, resolvePktProtocol_protocolNumber]

theorem storeHandler_of_ne {handler : ProtocolType} {address : Nat} (other : address ≠ pkt + 16) :
    storeHandler memory pkt handler address = memory address :=
  Function.update_of_ne other _ _

theorem Recorded.storeHandler (recorded : Recorded memory parcel) (handler : ProtocolType) :
    Recorded (storeHandler memory parcel.block handler) parcel where
  data := by
    rw [← recorded.data, pktData, pktData]
    exact congrArg UInt32.toNat (load32_congr fun i _ => storeHandler_of_ne (by omega))
  dataLength := by
    rw [← recorded.dataLength, pktDataLength, pktDataLength]
    exact congrArg UInt32.toNat (load32_congr fun i _ => storeHandler_of_ne (by omega))

end Fields

section Create

variable {memory : Bytes} {parcel : Parcel}

theorem toNat_ofNat_of_lt {value : Nat} (bound : value < 2 ^ 32) :
    (UInt32.ofNat value).toNat = value :=
  UInt32.toNat_ofNat_of_lt' bound

theorem recorded_packetCreate (frame : parcel.frame < 2 ^ 32) (len : parcel.len < 2 ^ 32) :
    Recorded (packetCreate memory parcel.block parcel.frame (.ofNat parcel.len)) parcel where
  data := by
    unfold pktData packetCreate
    rw [load32_store32_of_apart (by omega), load32_store32_of_apart (by omega), load32_store32,
      toNat_ofNat_of_lt frame]
  dataLength := by
    unfold pktDataLength packetCreate
    rw [load32_store32, toNat_ofNat_of_lt len]

theorem packetCreate_of_outside {ret frame address : Nat} {frameLen : UInt32}
    (outside : address < ret ∨ ret + 16 ≤ address) :
    packetCreate memory ret frame frameLen address = memory address := by
  unfold packetCreate
  rw [store32_of_outside (by omega), store32_of_outside (by omega), store32_of_outside (by omega),
    store32_of_outside (by omega)]

end Create

section Store

variable {packet : Packet} {pkt : Nat} {parcel : Parcel}

@[simp]
theorem pktHandler_storePacket : pktHandler (storePacket packet pkt) pkt = packet.handler := by
  unfold pktHandler storePacket
  rw [store32_of_outside (by omega), store32_of_outside (by omega)]
  exact pktHandler_storeHandler packet.handler

/-- What handlers do not assign to stays as it is. -/
theorem storePacket_of_outside {address : Nat}
    (outside : address < pkt + 4 ∨ pkt + 8 ≤ address ∧ address < pkt + 12 ∨ pkt + 28 ≤ address) :
    storePacket packet pkt address = packet.memory address := by
  unfold storePacket
  rw [store32_of_outside (by omega), store32_of_outside (by omega),
    storeHandler_of_ne (by omega), store32_of_outside (by omega), store32_of_outside (by omega)]

theorem Recorded.storePacket (recorded : Recorded packet.memory parcel) :
    Recorded (storePacket packet parcel.block) parcel where
  data := by
    rw [← recorded.data, pktData, pktData]
    exact congrArg UInt32.toNat (load32_congr fun i _ => storePacket_of_outside (by omega))
  dataLength := by
    rw [← recorded.dataLength, pktDataLength, pktDataLength]
    exact congrArg UInt32.toNat (load32_congr fun i _ => storePacket_of_outside (by omega))

end Store

end Lpc17xx.Packets
