import Lpc17xx.Wire.HeaderChecksum

/-!
# `udp_xmit_packet`

The buffer that `udp_xmit_packet` fills in, the frame that `ip4_do_xmit_packet` and
`ether_xmit_payload` make of it, and what a reader who knows only the standards finds in
that frame.
-/

namespace Lpc17xx.Udp

open Lpc17xx.Cbuf
open Lpc17xx.Checksum
open Lpc17xx.Memory
open Lpc17xx.Protocol
open Lpc17xx.Queue
open Lpc17xx.Tcp
open Lpc17xx.Wire

/-- The header of `udp_xmit_packet`, in a block that held `block` before. -/
def udpHeader (block : Bytes) (dstPort : UInt16) (payloadLen : Nat) : Bytes :=
  let header := store16 block 0 0
  let header := store16 header 2 dstPort
  let header := store16 header 4 (.ofNat (8 + payloadLen))
  let header := store16 header 6 0
  swap16 (swap16 header 2) 4

/-- `packet_buf` of `udp_xmit_packet`. -/
def udpPacketBuf (block : Bytes) (dstPort : UInt16) (payload : List UInt8) : List UInt8 :=
  bytesAt (udpHeader block dstPort payload.length) 8 ++ payload

/-- The copy that `ip4_xmit_packet` makes of it.  Its `payload_len` has 16 bits. -/
def udpPayloadCopy (block : Bytes) (dstPort : UInt16) (payload : List UInt8) : List UInt8 :=
  (udpPacketBuf block dstPort payload).take (UInt16.ofNat (8 + payload.length)).toNat

/-- The packet that `ip4_do_xmit_packet` gives to `ether_tx`. -/
def ip4Packet (protocol : UInt8) (dstIp : UInt32) (payload : List UInt8) : List UInt8 :=
  bytesAt (ip4Header protocol dstIp payload.length) 20 ++ payload

/-- The frame of a call of `udp_xmit_packet`. -/
def udpFrame (dstHwAddr : List UInt8) (block : Bytes) (dstPort : UInt16) (dstIp : UInt32)
    (payload : List UInt8) : List UInt8 :=
  etherXmitPayload
    { dhost := dstHwAddr
      etherType := etherTypeIp
      payload := ip4Packet ipProtoUdp dstIp (udpPayloadCopy block dstPort payload) }

section Udp

variable {block : Bytes} {dstPort : UInt16}

end Udp

section Ip

variable {protocol : UInt8} {dstIp : UInt32} {payloadLen : Nat}

end Ip

section Frame

variable {dstHwAddr payload : List UInt8}

theorem etherXmitPayload_eq (payload : List UInt8) :
    etherXmitPayload { dhost := dstHwAddr, etherType := etherTypeIp, payload } =
      dstHwAddr ++ (etherAddr ++ ([8, 0] ++ payload)) := by
  have typeBytes : bytesAt (swap16 (store16 (fun _ => 0) 0 etherTypeIp) 0) 2 = [8, 0] := by decide
  rw [etherXmitPayload, List.append_assoc, List.append_assoc, typeBytes]

end Frame

end Lpc17xx.Udp
