import Lpc17xx.Protocol.Padding
import Lpc17xx.Queue.Conservation
import Lpc17xx.Udp.Transmit
import Mathlib.Data.List.GetD

/-!
# From `udp_xmit_packet` to a listener

Each call of `udp_xmit_packet` becomes one frame, and the receive chain takes a frame
for this host apart again: a listener on the port that has room for the payload is given
exactly that.
-/

namespace Lpc17xx.Udp

open Lpc17xx.Cbuf
open Lpc17xx.Memory
open Lpc17xx.Protocol
open Lpc17xx.Queue
open Lpc17xx.Tcp
open Lpc17xx.Transition

/-! ## The receive chain on a UDP datagram without options -/

/-- A UDP datagram for this host in memory, with an IPv4 header of 20 bytes. -/
structure HoldsUdp (memory : Bytes) : Prop where
  etherType : big16 memory 12 = etherTypeIp
  ihl : ihlBytes (memory 14) = 20
  ttl : memory 22 ≠ 0
  ours : big32 memory 30 = ourIpAddress
  protocol : memory 23 = ipProtoUdp

/-- The packet has come to the header at `start`, with `left` bytes to go.  Everything
behind is as it was received. -/
structure Arrived (memory : Bytes) (tables : Tables) (layer : ProtocolType) (start : Nat)
    (left : UInt32) (s : Stack) : Prop where
  handler : s.pkt.handler = layer
  curData : s.pkt.curData = start
  curDataLength : s.pkt.curDataLength = left
  running : s.stopped = false
  tables : s.tables = tables
  behind : ∀ i, start ≤ i → s.pkt.memory i = memory i

section Chain

variable {memory : Bytes} {tables : Tables} {left : UInt32} {s : Stack}

theorem Arrived.ethernet (holds : HoldsUdp memory)
    (here : Arrived memory tables .ethernet 0 left s) :
    Arrived memory tables .ipv4 14 (left - 14) s.handle := by
  have etherType : big16 s.pkt.memory (s.pkt.curData + 12) = etherTypeIp := by
    rw [here.curData, ← holds.etherType]
    exact big16_congr fun i _ => here.behind _ (Nat.zero_le _)
  have other : etherTypeIp ≠ etherTypeArp := by decide
  rw [handle_ethernet here.handler]
  constructor
  · rw [ethernet_handler, etherType, if_neg other, if_pos rfl]
  · rw [ethernet_curData, here.curData]
  · rw [← here.curDataLength]
    exact (ethernet_after_advance s _ (Nat.le_refl _)).curDataLength
  · rw [ethernet_stopped, here.running]
  · rw [ethernet_tables, here.tables]
  · intro i behind
    rw [ethernet_memory, here.curData, swap16_of_outside (by omega)]
    exact here.behind i (Nat.zero_le _)

theorem Arrived.ipv4 (holds : HoldsUdp memory) (here : Arrived memory tables .ipv4 14 left s) :
    Arrived memory tables .udp 34 (left - 20) s.handle := by
  have length : headerLen s = 20 := by
    rw [headerLen, here.curData, here.behind 14 (Nat.le_refl _), holds.ihl]
  have ttl : s.pkt.memory (s.pkt.curData + 8) ≠ 0 := by
    rw [here.curData, here.behind _ (by omega)]
    exact holds.ttl
  have ours : big32 s.pkt.memory (s.pkt.curData + 16) = ourIpAddress := by
    rw [here.curData, ← holds.ours]
    exact big32_congr fun i _ => here.behind _ (by omega)
  have protocol : s.pkt.memory (s.pkt.curData + 9) = ipProtoUdp := by
    rw [here.curData, here.behind _ (by omega)]
    exact holds.protocol
  have other : ipProtoUdp ≠ ipProtoTcp := by decide
  rw [handle_ipv4 here.handler]
  constructor
  · rw [ipv4_handler, if_neg ttl, if_neg (not_not_intro ours), protocol, if_neg other, if_pos rfl]
  · rw [ipv4_curData, here.curData, length]
    rfl
  · rw [← here.curDataLength, ← length]
    exact (ipv4_after_advance s _ (Nat.le_refl _)).curDataLength
  · rw [ipv4_stopped, here.running]
  · rw [ipv4_tables, here.tables]
  · intro i behind
    rw [ipv4_memory, here.curData, ip4Swapped_of_outside (by omega)]
    exact here.behind i (by omega)

/-- The listeners are given everything behind the UDP header. -/
theorem Arrived.udp (here : Arrived memory tables .udp 34 left s) :
    s.handle.pkt.handler = .drop ∧
      (s.handle.tables, s.handle.stopped) =
        udpDelivered tables (big16 memory 36)
          (bytesAt (fun i => memory (42 + i)) (left - 8).toNat) := by
  have port : big16 s.pkt.memory (34 + 2) = big16 memory 36 :=
    big16_congr fun i _ => here.behind _ (by omega)
  have payload : bytesAt (fun i => s.pkt.memory (34 + 8 + i)) (left - 8).toNat =
      bytesAt (fun i => memory (42 + i)) (left - 8).toNat :=
    bytesAt_congr fun i _ => here.behind _ (by omega)
  rw [handle_udp here.handler]
  constructor
  · exact udp_handler s
  · rw [udp_delivers s here.running, udp_workedOn, here.tables, here.curData, here.curDataLength,
      port, payload]

end Chain

/-! ## The frame in memory -/

section Frame

variable {dstHwAddr payload : List UInt8} {block heap : Bytes} {dstPort : UInt16}

theorem getD_bytesAt_append (memory : Bytes) (rest : List UInt8) {len i : Nat} (within : i < len)
    (fallback : UInt8) : (bytesAt memory len ++ rest).getD i fallback = memory i := by
  rw [List.getD_append _ _ _ _ (by rw [length_bytesAt]; exact within)]
  simp [bytesAt, within]

/-- Bytes behind those that come first. -/
theorem getD_append_add (front rest : List UInt8) {start : Nat} (size : front.length = start)
    (i : Nat) (fallback : UInt8) :
    (front ++ rest).getD (start + i) fallback = rest.getD i fallback := by
  rw [List.getD_append_right _ _ _ _ (by omega), size, Nat.add_sub_cancel_left]

/-- A word of a part of memory. -/
theorem big16_shift (memory : Bytes) (base offset : Nat) :
    big16 memory (base + offset) = big16 (fun i => memory (base + i)) offset := by
  simp only [big16, Nat.add_assoc]

theorem big32_shift (memory : Bytes) (base offset : Nat) :
    big32 memory (base + offset) = big32 (fun i => memory (base + i)) offset := by
  simp only [big32, Nat.add_assoc]

end Frame

/-! ## The listeners -/

/-- The buffer of the listener has room for so many bytes. -/
def HasRoom (i : UdpListener) (count : Nat) : Prop :=
  i.dstBufPtr.toNat + count ≤ i.dstBufSz.toNat

/-- What a payload for `dstPort` does to the listeners and to nothing else: a listener on
the port that has room is given all of it, and those on other ports nothing. -/
structure Delivered (dstPort : UInt16) (payload : List UInt8) (before after : Tables) : Prop where
  others : after = { before with udpRxRequests := after.udpRxRequests }
  listener : ∀ (index : Nat) (i : UdpListener), before.udpRxRequests[index]? = some i →
    i.port = dstPort → HasRoom i payload.length →
      after.udpRxRequests[index]? = some (i.append payload)
  apart : ∀ (index : Nat) (i : UdpListener), before.udpRxRequests[index]? = some i →
    i.port ≠ dstPort → after.udpRxRequests[index]? = some i

end Lpc17xx.Udp
