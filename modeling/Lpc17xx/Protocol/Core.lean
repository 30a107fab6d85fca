import Lpc17xx.Memory.Word
import Lpc17xx.Tcp.Receive

/-!
# Packets and the receive chain's view of memory

A received frame is one heap block.  Handlers address it through `cur_data`, an
offset from `data` here; memory continues behind the frame with whatever the
heap holds.  Every load, in-place byte swap and copy is recorded, so that what a
handler touches can be compared with what the frame owns.
-/

namespace Lpc17xx.Protocol

open Lpc17xx.Memory
open Lpc17xx.Tcp

/-- `enum protocol_type`. -/
inductive ProtocolType where
  | ethernet
  | ipv4
  | udp
  | tcp
  | arp
  | drop
  deriving DecidableEq, Repr

/-- `struct ipv4_pkt_info`. -/
structure Ipv4PktInfo where
  srcIp : UInt32
  dstIp : UInt32
  deriving DecidableEq, Repr

/-- A range of bytes, counted from `data`. -/
structure Access where
  start : Nat
  size : Nat
  deriving DecidableEq, Repr

/-- `struct packet_t`, with the memory from `data` on and the accesses made so
far, the latest first. -/
structure Packet where
  memory : Bytes
  curData : Nat
  dataLength : UInt32
  curDataLength : UInt32
  handler : ProtocolType
  ip4Info : Ipv4PktInfo
  accesses : List Access

/-- `packet_create`.  The block of the packet itself still holds `stale`. -/
def packetCreate (memory : Bytes) (frameLen : UInt32) (stale : Ipv4PktInfo) : Packet where
  memory := memory
  curData := 0
  dataLength := frameLen
  curDataLength := frameLen
  handler := .drop
  ip4Info := stale
  accesses := []

/-- `udp_listener`.  `received` are the bytes at `dst_buf` below
`dst_buf_ptr`. -/
structure UdpListener where
  received : List UInt8
  dstBufSz : UInt16
  dstBufPtr : UInt16
  port : UInt16
  deriving DecidableEq, Repr

/-- `struct arp_entry`. -/
structure ArpEntry where
  etherAddr : List UInt8
  ipaddr : UInt32
  deriving DecidableEq, Repr

/-- `struct arp_pending_request`. -/
structure ArpPendingRequest where
  tickCount : UInt32
  TPA : UInt32
  timedOut : Bool
  finished : Bool
  answer : Option ArpEntry
  deriving DecidableEq, Repr

/-- `arp_packet`, in host order. -/
structure ArpPacket where
  HTYPE : UInt16
  PTYPE : UInt16
  HLEN : UInt8
  PLEN : UInt8
  OPER : UInt16
  SHA : List UInt8
  SPA : UInt32
  THA : List UInt8
  TPA : UInt32
  deriving DecidableEq, Repr

/-- The state of the protocols.  `arpFinished` are the requests taken off
`arp_pending_requests`, which their threads still hold; `arpSent` and `tcpSent`
are the calls of `ether_tx` and `tcp_tx`. -/
structure Tables where
  udpRxRequests : List UdpListener
  tcbHead : List Tcb
  arpTableHead : List ArpEntry
  arpPendingRequests : List ArpPendingRequest
  arpFinished : List ArpPendingRequest
  arpSent : List (List UInt8 × ArpPacket)
  tcpSent : List TcpTx
  deriving DecidableEq

/-- A packet in the hands of `rx_task`.  `stopped` is the endless loop that a
segment for a TCB in `CLOSE_WAIT` enters. -/
structure Stack where
  pkt : Packet
  tables : Tables
  stopped : Bool

/-- A part of a handler. -/
abbrev Rx :=
  StateM Stack

/-- Record one access. -/
def touch (start size : Nat) : Rx Unit := fun s =>
  ((), { s with pkt := { s.pkt with accesses := ⟨start, size⟩ :: s.pkt.accesses } })

/-- `pkt->cur_data`. -/
def curData : Rx Nat := fun s => (s.pkt.curData, s)

/-- `pkt->cur_data_length`. -/
def curDataLength : Rx UInt32 := fun s => (s.pkt.curDataLength, s)

/-- Move `cur_data` on and shrink `cur_data_length` by as much. -/
def advance (count : UInt32) : Rx Unit := fun s =>
  ((), { s with pkt := { s.pkt with
    curData := s.pkt.curData + count.toNat
    curDataLength := s.pkt.curDataLength - count } })

/-- Assign `pkt->handler`. -/
def setHandler (handler : ProtocolType) : Rx Unit := fun s =>
  ((), { s with pkt := { s.pkt with handler := handler } })

/-- Read a byte. -/
def read8 (address : Nat) : Rx UInt8 := do
  touch address 1
  fun s => (s.pkt.memory address, s)

/-- Read a half-word. -/
def read16 (address : Nat) : Rx UInt16 := do
  touch address 2
  fun s => (load16 s.pkt.memory address, s)

/-- Read a word. -/
def read32 (address : Nat) : Rx UInt32 := do
  touch address 4
  fun s => (load32 s.pkt.memory address, s)

/-- Copy bytes out of the packet. -/
def readBytes (address size : Nat) : Rx (List UInt8) := do
  touch address size
  fun s => (Cbuf.bytesAt (fun offset => s.pkt.memory (address + offset)) size, s)

/-- The new value of `*val` in `swap_endian16`. -/
def swapped16 (val : UInt16) : UInt16 :=
  val <<< 8 ||| val >>> 8

/-- The new value of `*val` in `swap_endian32`. -/
def swapped32 (val : UInt32) : UInt32 :=
  val <<< 24 ||| ((val <<< 8) &&& (0x00ff0000 : UInt32)) |||
    ((val >>> 8) &&& (0x0000ff00 : UInt32)) ||| val >>> 24

/-- Memory after `swap_endian16`. -/
def swap16 (memory : Bytes) (address : Nat) : Bytes :=
  store16 memory address (swapped16 (load16 memory address))

/-- Memory after `swap_endian32`. -/
def swap32 (memory : Bytes) (address : Nat) : Bytes :=
  store32 memory address (swapped32 (load32 memory address))

/-- `swap_endian16`. -/
def swapEndian16 (address : Nat) : Rx Unit := do
  touch address 2
  fun s => ((), { s with pkt := { s.pkt with memory := swap16 s.pkt.memory address } })

/-- `swap_endian32`. -/
def swapEndian32 (address : Nat) : Rx Unit := do
  touch address 4
  fun s => ((), { s with pkt := { s.pkt with memory := swap32 s.pkt.memory address } })

/-- Bytes that are exchanged twice stand where they stood. -/
theorem swapped16_swapped16 (val : UInt16) : swapped16 (swapped16 val) = val := by
  rw [← UInt16.toBitVec_inj]
  apply BitVec.eq_of_getLsbD_eq
  intro i bound
  simp only [swapped16, UInt16.toBitVec_or, UInt16.toBitVec_shiftLeft, UInt16.toBitVec_shiftRight,
    BitVec.getLsbD_or]
  interval_cases i <;> simp

theorem swapped32_swapped32 (val : UInt32) : swapped32 (swapped32 val) = val := by
  rw [← UInt32.toBitVec_inj]
  apply BitVec.eq_of_getLsbD_eq
  intro i bound
  simp only [swapped32, UInt32.toBitVec_or, UInt32.toBitVec_and, UInt32.toBitVec_shiftLeft,
    UInt32.toBitVec_shiftRight, BitVec.getLsbD_or, BitVec.getLsbD_and]
  interval_cases i <;> simp

section Swap

variable {memory : Bytes} {address other : Nat}

/-- A swapped half-word reads as the big-endian half-word that stood there. -/
@[simp]
theorem load16_swap16 : load16 (swap16 memory address) address = big16 memory address := by
  rw [swap16, load16_store16, ← UInt16.toBitVec_inj]
  simpa [swapped16, load16, big16] using exchange16 _ _

/-- A swapped word reads as the big-endian word that stood there. -/
@[simp]
theorem load32_swap32 : load32 (swap32 memory address) address = big32 memory address := by
  rw [swap32, load32_store32, ← UInt32.toBitVec_inj]
  simpa [swapped32, load32, big32] using exchange32 _ _ _ _

/-- A half-word that is swapped in place stands there in network order. -/
@[simp]
theorem big16_swap16 : big16 (swap16 memory address) address = load16 memory address := by
  rw [← load16_swap16, swap16, load16_store16, swap16, load16_store16, swapped16_swapped16]

@[simp]
theorem big32_swap32 : big32 (swap32 memory address) address = load32 memory address := by
  rw [← load32_swap32, swap32, load32_store32, swap32, load32_store32, swapped32_swapped32]

/-- The reading in network order is the loaded word with its bytes exchanged. -/
theorem big16_eq_swapped16 (memory : Bytes) (address : Nat) :
    big16 memory address = swapped16 (load16 memory address) := by
  rw [← load16_swap16, swap16, load16_store16]

theorem load16_eq_swapped16 (memory : Bytes) (address : Nat) :
    load16 memory address = swapped16 (big16 memory address) := by
  rw [big16_eq_swapped16, swapped16_swapped16]

theorem swap16_of_outside (outside : other < address ∨ address + 2 ≤ other) :
    swap16 memory address other = memory other :=
  store16_of_outside outside

theorem swap32_of_outside (outside : other < address ∨ address + 4 ≤ other) :
    swap32 memory address other = memory other :=
  store32_of_outside outside

theorem load16_swap16_of_apart (apart : other + 2 ≤ address ∨ address + 2 ≤ other) :
    load16 (swap16 memory address) other = load16 memory other :=
  load16_congr fun _ _ => swap16_of_outside (by omega)

theorem load16_swap32_of_apart (apart : other + 2 ≤ address ∨ address + 4 ≤ other) :
    load16 (swap32 memory address) other = load16 memory other :=
  load16_congr fun _ _ => swap32_of_outside (by omega)

theorem load32_swap16_of_apart (apart : other + 4 ≤ address ∨ address + 2 ≤ other) :
    load32 (swap16 memory address) other = load32 memory other :=
  load32_congr fun _ _ => swap16_of_outside (by omega)

theorem load32_swap32_of_apart (apart : other + 4 ≤ address ∨ address + 4 ≤ other) :
    load32 (swap32 memory address) other = load32 memory other :=
  load32_congr fun _ _ => swap32_of_outside (by omega)

theorem big16_swap16_of_apart (apart : other + 2 ≤ address ∨ address + 2 ≤ other) :
    big16 (swap16 memory address) other = big16 memory other :=
  big16_congr fun _ _ => swap16_of_outside (by omega)

theorem big16_swap32_of_apart (apart : other + 2 ≤ address ∨ address + 4 ≤ other) :
    big16 (swap32 memory address) other = big16 memory other :=
  big16_congr fun _ _ => swap32_of_outside (by omega)

theorem big32_swap16_of_apart (apart : other + 4 ≤ address ∨ address + 2 ≤ other) :
    big32 (swap16 memory address) other = big32 memory other :=
  big32_congr fun _ _ => swap16_of_outside (by omega)

theorem big32_swap32_of_apart (apart : other + 4 ≤ address ∨ address + 4 ≤ other) :
    big32 (swap32 memory address) other = big32 memory other :=
  big32_congr fun _ _ => swap32_of_outside (by omega)

end Swap

end Lpc17xx.Protocol
