import Lpc17xx.Protocol.Handlers

/-!
# From a payload to a frame

What `ip4_tx_task` makes of an entry of its queue, and `ether_tx_task` of one of
the next.
-/

namespace Lpc17xx.Queue

open Lpc17xx.Cbuf
open Lpc17xx.Memory
open Lpc17xx.Protocol
open Lpc17xx.Tcp

/-- `DEFAULT_TTL`. -/
def defaultTtl : UInt8 := 10

def netMask : UInt32 := 0xFFFFFF00

def ipGateway : UInt32 := 0xC0A80001

/-- `ip4_tx_q_t`. -/
structure Ip4TxPkt where
  protocol : UInt8
  dstIp : UInt32
  payload : List UInt8
  fits : payload.length ≤ memHeapSize
  deriving DecidableEq

/-- `struct ether_tx_q_t`. -/
structure EtherTxPkt where
  dhost : List UInt8
  etherType : UInt16
  payload : List UInt8
  deriving DecidableEq, Repr

/-- `ip4_get_pkt_dst`. -/
def ip4GetPktDst (dstIp : UInt32) : UInt32 :=
  if dstIp &&& netMask = ourIpAddress &&& netMask then dstIp else ipGateway

/-- The loop that adds the carries of a sum back to it. -/
def addCarries : Nat → UInt32 → UInt32
  | 0, sum => sum
  | fuel + 1, sum =>
      if sum >>> 16 = 0 then sum else addCarries fuel ((sum &&& (0xffff : UInt32)) + (sum >>> 16))

/-- One round adds the high half of a sum to its low half. -/
theorem toNat_addCarry (sum : UInt32) :
    ((sum &&& (0xffff : UInt32)) + (sum >>> 16)).toNat =
      sum.toNat % 2 ^ 16 + sum.toNat / 2 ^ 16 := by
  have bound := sum.toNat_lt
  have high : (sum >>> 16).toNat = sum.toNat / 2 ^ 16 := by
    simp [UInt32.toNat_shiftRight, Nat.shiftRight_eq_div_pow]
  have low : (sum &&& (0xffff : UInt32)).toNat = sum.toNat % 2 ^ 16 := by
    rw [UInt32.toNat_and]
    exact Nat.and_two_pow_sub_one_eq_mod _ 16
  rw [UInt32.toNat_add, low, high]
  omega

/-- No sum has a carry left after two rounds. -/
theorem addCarries_two (sum : UInt32) : (addCarries 2 sum).toNat < 2 ^ 16 := by
  have done {word : UInt32} (ends : word >>> 16 = 0) : word.toNat < 2 ^ 16 := by
    have zero : (word >>> 16).toNat = 0 := by rw [ends, UInt32.toNat_zero]
    simp [UInt32.toNat_shiftRight, Nat.shiftRight_eq_div_pow] at zero
    omega
  have bound := sum.toNat_lt
  rw [addCarries]
  split
  · exact done ‹_›
  · rw [addCarries]
    split
    · exact done ‹_›
    · rw [addCarries, toNat_addCarry, toNat_addCarry]
      omega

/-- `ip4_compute_checksum`. -/
def ip4ComputeChecksum (header : Bytes) : UInt16 :=
  let sum := (List.range 10).foldl (fun sum i => sum + (load16 header (2 * i)).toUInt32) 0
  (~~~ addCarries 2 sum).toUInt16

/-- The header of `ip4_do_xmit_packet`. -/
def ip4Header (protocol : UInt8) (dstIp : UInt32) (payloadLen : Nat) : Bytes :=
  let header : Bytes := fun _ => 0
  let header := Function.update header 0 0x45
  let header := store16 header 2 (.ofNat (20 + payloadLen))
  let header := Function.update header 8 defaultTtl
  let header := Function.update header 9 protocol
  let header := store32 header 12 ourIpAddress
  let header := store32 header 16 dstIp
  let header := ip4Swapped header 0
  store16 header 10 (ip4ComputeChecksum header)

/-- `ip4_do_xmit_packet`: the call of `ether_tx`, when `resolve_address` knows
the next hop. -/
def ip4DoXmitPacket (resolveAddress : UInt32 → Option (List UInt8)) (txPkt : Ip4TxPkt) :
    Option EtherTxPkt :=
  (resolveAddress (ip4GetPktDst txPkt.dstIp)).map fun dstHwAddr =>
    { dhost := dstHwAddr
      etherType := etherTypeIp
      payload :=
        bytesAt (ip4Header txPkt.protocol txPkt.dstIp txPkt.payload.length) 20 ++ txPkt.payload }

/-- `ether_xmit_payload`: the bytes that `emac_xmit_frame` is given. -/
def etherXmitPayload (txdPkt : EtherTxPkt) : List UInt8 :=
  txdPkt.dhost ++ etherAddr ++
    bytesAt (swap16 (store16 (fun _ => 0) 0 txdPkt.etherType) 0) 2 ++ txdPkt.payload

end Lpc17xx.Queue
