import Lpc17xx.Link.Stored
import Lpc17xx.Memory.Range
import Lpc17xx.Packets.Custody

/-!
# The receive task and its packets in memory

`protocol.c`, over memory as bytes: the driver injects packets while `rx_task` pops, handles
and destroys them.  A `packet_t` is its bytes, among them the node by which it is in
`pkt_rx_q`; a handler works on the fields that are read from there.  The blocks that a
handler allocates are not followed: they are apart from those of the packets, as long as the
tags of the heap are as `get_mem` and `free_mem` have left them.  A handler that swaps bytes
behind its frame may hit them, and is followed only if it allocates nothing.
-/

namespace Lpc17xx.Packets

open Lpc17xx.Link
open Lpc17xx.Memory
open Lpc17xx.Protocol
open Lpc17xx.Transition

/-- Where the linker has put `pkt_rx_q`. -/
structure RxQueue where
  pktRxQ : Nat
  below : pktRxQ + 8 ≤ 2 ^ 32

/-- The byte that stands for a `protocol_type`. -/
def protocolNumber : ProtocolType → UInt8
  | .ethernet => 0
  | .ipv4 => 1
  | .udp => 2
  | .tcp => 3
  | .arp => 4
  | .drop => 5

/-- The protocol whose handler `resolve_pkt_protocol` finds.  For all other numbers it finds
none, as for `DROP`. -/
def resolvePktProtocol (number : UInt8) : ProtocolType :=
  match number.toNat with
  | 0 => .ethernet
  | 1 => .ipv4
  | 2 => .udp
  | 3 => .tcp
  | 4 => .arp
  | _ => .drop

@[simp]
theorem resolvePktProtocol_protocolNumber (protocol : ProtocolType) :
    resolvePktProtocol (protocolNumber protocol) = protocol := by
  cases protocol <;> rfl

section Fields

variable (memory : Bytes) (pkt : Nat)

/-- `pkt->data`. -/
def pktData : Nat :=
  (load32 memory pkt).toNat

/-- `pkt->data_length`. -/
def pktDataLength : Nat :=
  (load32 memory (pkt + 8)).toNat

/-- `pkt->handler`. -/
def pktHandler : ProtocolType :=
  resolvePktProtocol (memory (pkt + 16))

/-- The packet as its handler finds it. -/
def loadPacket : Packet where
  memory := memory
  curData := (load32 memory (pkt + 4)).toNat
  dataLength := load32 memory (pkt + 8)
  curDataLength := load32 memory (pkt + 12)
  handler := pktHandler memory pkt
  ip4Info :=
    { srcIp := load32 memory (pkt + 20)
      dstIp := load32 memory (pkt + 24) }
  accesses := []

/-- Assign `pkt->handler`. -/
def storeHandler (handler : ProtocolType) : Bytes :=
  Function.update memory (pkt + 16) (protocolNumber handler)

/-- The fields that handlers assign to, after a handler.  No handler assigns to `data` and
`data_length`. -/
def storePacket (packet : Packet) (pkt : Nat) : Bytes :=
  let memory := store32 packet.memory (pkt + 4) (.ofNat packet.curData)
  let memory := store32 memory (pkt + 12) packet.curDataLength
  let memory := storeHandler memory pkt packet.handler
  let memory := store32 memory (pkt + 20) packet.ip4Info.srcIp
  store32 memory (pkt + 24) packet.ip4Info.dstIp

/-- `packet_create`, in the block that `get_mem` returns. -/
def packetCreate (ret frame : Nat) (frameLen : UInt32) : Bytes :=
  let memory := store32 memory (ret + 4) (.ofNat frame)
  let memory := store32 memory ret (.ofNat frame)
  let memory := store32 memory (ret + 12) frameLen
  store32 memory (ret + 8) frameLen

/-- `packet_inject`, less the waking of `rx_task`. -/
def packetInject (queue : RxQueue) (type : ProtocolType) : Bytes :=
  Stored.listAdd (storeHandler memory pkt type) (pkt + 28) queue.pktRxQ

end Fields

/-- Where `rx_task` is: before `list_pop`, at the head of the inner loop, in a handler, and
before either call of `free_mem` in `packet_destroy`. -/
inductive RxPoint where
  | popping
  | dispatching
  | handling
  | freeingFrame
  | freeingPacket
  deriving DecidableEq

/-- Memory, the tables of the protocols, and `rx_task`: its place and its `pkt`.  Nobody keeps
the ranges that packets and their frames own, first address and size, nor the calls made, in
their order. -/
structure RxState where
  memory : Bytes
  tables : Tables
  point : RxPoint
  pkt : Nat
  owned : List (Nat × Nat)
  log : List PacketCall

/-- The driver injects a frame that it has copied into a block of its own; `rx_task` goes on;
others write to memory that is no packet's, and use the tables. -/
inductive RxEvent where
  | inject (parcel : Parcel) (bytes : List UInt8)
  | rx
  | write (address : Nat) (byte : UInt8)
  | others (tables : Tables)

/-- What a packet owns. -/
def Parcel.ranges (parcel : Parcel) : List (Nat × Nat) :=
  [(parcel.frame, parcel.len), (parcel.block, 36)]

namespace RxState

variable (queue : RxQueue)

/-- Before the first packet, after `protocol.c` has been loaded into memory. -/
def start (memory : Bytes) (tables : Tables) : RxState where
  memory := Stored.initList memory queue.pktRxQ
  tables := tables
  point := .popping
  pkt := 0
  owned := []
  log := []

/-- All that other code does not write to. -/
def reserved (s : RxState) : List (Nat × Nat) :=
  (queue.pktRxQ, 8) :: s.owned

/-- The blocks are new: this is what `get_mem` promises. -/
def Fresh (s : RxState) (parcel : Parcel) : Prop :=
  (∀ range ∈ parcel.ranges, Spans range) ∧
    (parcel.ranges ++ s.reserved queue).Pairwise Apart

instance (s : RxState) (parcel : Parcel) : Decidable (s.Fresh queue parcel) :=
  inferInstanceAs (Decidable (_ ∧ _))

/-- `emac_rx` with a whole frame: the bytes are copied, and `packet_create` and
`packet_inject` follow. -/
def inject (s : RxState) (parcel : Parcel) (bytes : List UInt8) : Option RxState :=
  if s.Fresh queue parcel ∧ bytes.length = parcel.len then
    let memory := storeBytes s.memory parcel.frame bytes
    let memory := packetCreate memory parcel.block parcel.frame (.ofNat parcel.len)
    some
      { s with
        memory := packetInject memory parcel.block queue parcel.type
        owned := parcel.ranges ++ s.owned
        log := s.log ++ [.inject parcel] }
  else none

/-- The handlers' view of the packet in hand. -/
def stack (s : RxState) : Stack where
  pkt := loadPacket s.memory s.pkt
  tables := s.tables
  stopped := false

/-- The handler finds in the frame all that it swaps of its header. -/
def HeaderInFrame (s : RxState) : Prop :=
  pktData s.memory s.pkt ≤ s.stack.pkt.curData ∧
    s.stack.pkt.curData + s.stack.pkt.handler.swappedSize ≤
      pktData s.memory s.pkt + pktDataLength s.memory s.pkt

instance (s : RxState) : Decidable s.HeaderInFrame :=
  inferInstanceAs (Decidable (_ ∧ _))

/-- How often handlers have allocated: for replies, segments and entries of the ARP
table. -/
def allocations (tables : Tables) : Nat :=
  tables.arpSent.length + tables.tcpSent.length + tables.arpTableHead.length

/-- The handler allocates on a heap whose tags it may have swapped. -/
def Strays (s : RxState) : Prop :=
  ¬s.HeaderInFrame ∧ allocations s.stack.handle.tables ≠ allocations s.tables

instance (s : RxState) : Decidable s.Strays :=
  inferInstanceAs (Decidable (_ ∧ _))

/-- `free_mem`. -/
def freeMem (s : RxState) (ptr : Nat) : RxState :=
  { s with
    owned := s.owned.filter fun range => range.1 ≠ ptr
    log := s.log ++ [.free ptr] }

/-- The next step of `rx_task`.  It sleeps while `pkt_rx_q` is empty. -/
def rx (s : RxState) : Option RxState :=
  match s.point with
  | .popping =>
      let next := (load32 s.memory queue.pktRxQ).toNat
      if next = queue.pktRxQ then none
      else
        some
          { s with
            memory := Stored.listDel s.memory next
            point := .dispatching
            pkt := next - 28
            log := s.log ++ [.pop (next - 28)] }
  | .dispatching =>
      if pktHandler s.memory s.pkt = .drop then
        some
          { s with
            memory := storeHandler s.memory s.pkt .drop
            point := .freeingFrame }
      else
        some
          { s with
            point := .handling
            log := s.log ++ [.handle s.pkt (pktHandler s.memory s.pkt)] }
  | .handling =>
      let after := s.stack.handle
      if after.stopped ∨ s.Strays then none
      else
        some
          { s with
            memory := storePacket after.pkt s.pkt
            tables := after.tables
            point := if after.pkt.handler = .drop then .freeingFrame else .dispatching }
  | .freeingFrame =>
      some { s.freeMem (pktData s.memory s.pkt) with point := .freeingPacket }
  | .freeingPacket =>
      some { s.freeMem s.pkt with point := .popping }

/-- One event. -/
def step : Step RxState RxEvent
  | s, .inject parcel bytes => s.inject queue parcel bytes
  | s, .rx => s.rx queue
  | s, .write address byte =>
      if Outside (s.reserved queue) address then
        some { s with memory := Function.update s.memory address byte }
      else none
  | s, .others tables => some { s with tables }

/-- A handler that returns finds in the frame all that it swaps of its header. -/
def SwapsInFrame (s : RxState) : RxEvent → Prop
  | .rx => s.point = .handling → s.HeaderInFrame
  | _ => True

instance (s : RxState) : (event : RxEvent) → Decidable (s.SwapsInFrame event)
  | .rx => inferInstanceAs (Decidable (_ → _))
  | .inject _ _ => inferInstanceAs (Decidable True)
  | .write _ _ => inferInstanceAs (Decidable True)
  | .others _ => inferInstanceAs (Decidable True)

end RxState

end Lpc17xx.Packets
