import Lpc17xx.Arp.Handler
import Lpc17xx.Emac.Core
import Lpc17xx.Memory.Ownership
import Lpc17xx.Protocol.Stores
import Lpc17xx.Queue.Transmit
import Lpc17xx.Tcp.Allocation

/-!
# The network tasks and the heap

`irq_enet`, `rx_task`, `ip4_tx_task`, `ether_tx_task` and the tick, over the queues
between them and the heap that all of them allocate from.  What handlers do to the
protocols' tables is taken from `Protocol`; here stands what they do to the heap.
Entries of the transmit queues are followed as blocks, without the bytes they hold.
A handler whose header reaches behind its frame swaps bytes of other blocks, which is not
followed here: what depends on it is said of runs in which headers lie in their frames.
The allocator is a parameter.  Where it finds no block, `get_mem` never returns,
and no event comes any more.
-/

namespace Lpc17xx.Net

open Lpc17xx.Arp
open Lpc17xx.Link
open Lpc17xx.Memory
open Lpc17xx.Protocol
open Lpc17xx.Queue
open Lpc17xx.Tcp
open Lpc17xx.Transition

/-- The processes that sleep on the queues below: the three tasks, and the threads
that use TCP. -/
inductive Task where
  | rx
  | ip4Tx
  | etherTx
  | thread (id : Nat)
  deriving DecidableEq, Repr

/-- `rx_waitq`, `ip4_tx_waitq`, `ether_tx_waitq`, `arp_waitqueue` and
`tcp_waitq`. -/
inductive Waitq where
  | rx
  | ip4Tx
  | etherTx
  | arp
  | tcp
  deriving DecidableEq, Repr

section Entries

variable (B : Type)

/-- `waiting_proc_t` and the queue it is on. -/
structure WaitingProc where
  queue : Waitq
  proc : Task
  block : B
  deriving DecidableEq

/-- A packet with the block of its `packet_t` and that of the frame. -/
structure RxPkt where
  pkt : Packet
  block : B
  data : B

/-- `ip4_tx_q_t`. -/
structure Ip4Entry where
  dstIp : UInt32
  payloadLen : UInt16
  block : B
  payload : B
  deriving DecidableEq

/-- `struct ether_tx_q_t`. -/
structure EtherEntry where
  block : B
  payload : B
  deriving DecidableEq

/-- What `ip4_tx_task` has popped, before `resolve_address` or inside it, waiting
for its request to be finished. -/
inductive TxPkt where
  | popped (txPkt : Ip4Entry B)
  | resolving (txPkt : Ip4Entry B)
  deriving DecidableEq

end Entries

/-- The state of the network code.  `rxPkt`, `txPkt` and `txdPkt` are what the tasks
have popped.  `arpTable` are the blocks of the entries of `arp_table_head`, and
`others` those of everybody else: the TCBs, the buffers of the driver, the stacks
and what the threads hold. -/
structure State (H B : Type) where
  heap : H
  tables : Tables
  currentFrame : Option (B × Nat)
  pktRxQ : List (RxPkt B)
  rxPkt : Option (RxPkt B)
  ip4TxQueue : List (Ip4Entry B)
  txPkt : Option (TxPkt B)
  etherTxQueue : List (EtherEntry B)
  txdPkt : Option (EtherEntry B)
  arpTable : List B
  waiting : List (WaitingProc B)
  others : List B

/-- What can happen: an interrupt of the driver for one fragment, a step of a task,
a process that begins to wait, the tick, and what everybody else does.  `memory`
is what memory holds from the frame's block on, and `stale` what the new `packet_t`
still holds. -/
inductive NetEvent (B : Type) where
  | fragment (statusInfo : UInt32) (memory : Bytes) (stale : Ipv4PktInfo)
  | rxPop
  | rxHandle
  | ip4Pop
  | ip4Xmit
  | ip4Resume
  | etherPop
  | etherXmit
  | wait (proc : Task)
  | arpTick
  | getOther (size : Nat)
  | freeOther (block : B)
  | xmitOther (dstIp : UInt32) (payloadLen : UInt16)
  | setOther (tcbHead : List Tcb) (udpRxRequests : List UdpListener)
  | wakeupOther

namespace State

variable {H : Type} {B : Type} [DecidableEq B] (mem : Allocator H B)

def getMem (s : State H B) (size : Nat) : Option (B × State H B) :=
  (mem.getMem s.heap size).map fun (block, heap) => (block, { s with heap })

def freeMem (s : State H B) (block : B) : State H B :=
  { s with heap := mem.freeMem s.heap block }

/-- `waitqueue_wakeup`. -/
def waitqueueWakeup (s : State H B) (waitq : Waitq) : State H B :=
  let woken := s.waiting.filter (·.queue = waitq)
  { s with
    heap := woken.foldl (fun heap waitproc => mem.freeMem heap waitproc.block) s.heap
    waiting := s.waiting.filter (·.queue ≠ waitq) }

/-- `ether_tx`, of a payload of `len` bytes. -/
def etherTx (s : State H B) (len : Nat) : Option (State H B) := do
  let (newPacket, s) ← s.getMem mem 24
  let (payloadCopy, s) ← s.getMem mem len
  let s := { s with etherTxQueue := listAdd ⟨newPacket, payloadCopy⟩ s.etherTxQueue }
  some (s.waitqueueWakeup mem .etherTx)

/-- `ip4_xmit_packet`. -/
def ip4XmitPacket (s : State H B) (dstIp : UInt32) (payloadLen : UInt16) :
    Option (State H B) := do
  let (newPacket, s) ← s.getMem mem 24
  let (payloadCopy, s) ← s.getMem mem payloadLen.toNat
  let s := { s with
    ip4TxQueue := listAdd ⟨dstIp, payloadLen, newPacket, payloadCopy⟩ s.ip4TxQueue }
  some (s.waitqueueWakeup mem .ip4Tx)

/-- `tcp_tx`. -/
def tcpTx (s : State H B) (tx : TcpTx) : Option (State H B) := do
  let (sumBuf, s) ← s.getMem mem (checksumBufSz tx.payload.length)
  let s := s.freeMem mem sumBuf
  let (buf, s) ← s.getMem mem (20 + tx.payload.length)
  let s ← s.ip4XmitPacket mem tx.destIp (.ofNat (20 + tx.payload.length))
  some (s.freeMem mem buf)

/-- The calls of `tcp_tx` that a handler makes. -/
def tcpTxs (s : State H B) : List TcpTx → Option (State H B)
  | [] => some s
  | tx :: sent => (s.tcpTx mem tx).bind fun s => s.tcpTxs sent

/-- "Gather the new fragment out of DMA memory": the block and the length of the
frame.  `current_frame` is assigned behind it. -/
def gather (s : State H B) (fragLen : Nat) : Option ((B × Nat) × State H B) :=
  match s.currentFrame with
  | some (currentFrame, currentFrameLen) => do
      let (newFrameBuf, s) ← s.getMem mem (currentFrameLen + fragLen)
      let s := { s with currentFrame := none }
      some ((newFrameBuf, currentFrameLen + fragLen), s.freeMem mem currentFrame)
  | none => do
      let (newFrameBuf, s) ← s.getMem mem fragLen
      some ((newFrameBuf, fragLen), s)

/-- `packet_create` and `packet_inject`. -/
def packetInject (s : State H B) (frame : B) (frameLen : Nat) (memory : Bytes)
    (stale : Ipv4PktInfo) : Option (State H B) := do
  let (block, s) ← s.getMem mem 36
  let pkt := { packetCreate memory (.ofNat frameLen) stale with handler := .ethernet }
  let s := { s with pktRxQ := listAdd ⟨pkt, block, frame⟩ s.pktRxQ }
  some (s.waitqueueWakeup mem .rx)

/-- One round of the loop of `irq_enet`. -/
def irqEnet (s : State H B) (statusInfo : UInt32) (memory : Bytes) (stale : Ipv4PktInfo) :
    Option (State H B) := do
  let ((frame, frameLen), s) ← s.gather mem (Emac.fragLen statusInfo)
  if statusInfo &&& (1 : UInt32) <<< 30 ≠ 0 then
    s.packetInject mem frame frameLen memory stale
  else some { s with currentFrame := some (frame, frameLen) }

/-- `packet_destroy`. -/
def packetDestroy (s : State H B) (pkt : RxPkt B) : State H B :=
  (s.freeMem mem pkt.data).freeMem mem pkt.block

/-- What `case OPER_REQUEST` does to the heap, once the request is known to be for
us. -/
def arpRespond (s : State H B) : Option (State H B) := do
  let (_resp, s) ← s.getMem mem 28
  -- `resp` is not freed when `ether_tx` has copied it
  s.etherTx mem 28

/-- What the loop of `case OPER_REPLY` does to the heap. -/
def arpFulfil (s : State H B) (pending : List ArpPendingRequest) (packet : ArpPacket) :
    Option (State H B) :=
  if ∃ arpReq ∈ pending, arpReq.TPA = packet.SPA then do
    let (newArpEntry, s) ← s.getMem mem 20
    some { s with arpTable := listAdd newArpEntry s.arpTable }
  else some s

/-- What `arp_rx_packet` does to the heap. -/
def arpRxPacket (s : State H B) (pending : List ArpPendingRequest) (packet : ArpPacket) :
    Option (State H B) :=
  if packet.HTYPE = 1 then
    if packet.OPER = 1 then
      if packet.TPA = ourIpAddress then s.arpRespond mem else some s
    else if packet.OPER = 2 then
      if packet.THA = etherAddr then
        (s.arpFulfil mem pending packet).map fun s => s.waitqueueWakeup mem .arp
      else some s
    else some s
  else some s

/-- What `tcp_rx_packet` does to the heap.  A segment for no TCB wakes nobody. -/
def tcpRxPacket (s : State H B) (sent : List TcpTx) (referenced : Bool) : Option (State H B) :=
  (s.tcpTxs mem sent).map fun s => if referenced then s.waitqueueWakeup mem .tcp else s

/-- A packet in the hands of a handler, with no transmission noted yet. -/
def handed (s : State H B) (pkt : Packet) : Stack where
  pkt := pkt
  tables := { s.tables with arpSent := [], tcpSent := [] }
  stopped := false

/-- The ARP packet at the cursor. -/
def arpPacketOf (pkt : Packet) : ArpPacket :=
  arpPacketFrom pkt.memory pkt.curData

/-- Whether a TCB is found for the segment at the cursor. -/
def tcbReferenced (tables : Tables) (pkt : Packet) : Bool :=
  (findTcb tables.tcbHead pkt.ip4Info.srcIp (tcpHeaderFrom pkt.memory pkt.curData)).isSome

/-- What the handler of a packet does to the heap, with the tables as it found and
as it leaves them. -/
def handlerMem (s : State H B) (before after : Stack) : Option (State H B) :=
  match before.pkt.handler with
  | .arp => s.arpRxPacket mem before.tables.arpPendingRequests (arpPacketOf before.pkt)
  | .tcp => s.tcpRxPacket mem after.tables.tcpSent (tcbReferenced before.tables before.pkt)
  | _ => some s

/-- One round of the inner loop of `rx_task`.  A segment for a TCB in `CLOSE_WAIT`
stops the processor. -/
def rxHandle (s : State H B) : Option (State H B) :=
  match s.rxPkt with
  | none => none
  | some pkt =>
      let before := s.handed pkt.pkt
      let after := before.handle
      if after.stopped then none
      else
        let s := { s with tables := after.tables }
        (s.handlerMem mem before after).map fun s =>
          if after.pkt.handler = .drop then { s.packetDestroy mem pkt with rxPkt := none }
          else { s with rxPkt := some { pkt with pkt := after.pkt } }

/-- `ip4_do_xmit_packet` behind `resolve_address`, which has found an address. -/
def ip4DoXmit (s : State H B) (txPkt : Ip4Entry B) : Option (State H B) := do
  let (packetBuf, s) ← s.getMem mem (20 + txPkt.payloadLen.toNat)
  let s ← s.etherTx mem (20 + txPkt.payloadLen.toNat)
  some (s.freeMem mem packetBuf)

/-- The end of a round of `ip4_tx_task`. -/
def ip4Done (s : State H B) (txPkt : Ip4Entry B) : State H B :=
  { (s.freeMem mem txPkt.payload).freeMem mem txPkt.block with txPkt := none }

/-- `resolve_address` behind the search of the table, up to its wait. -/
def sendRequest (s : State H B) (ipAddress : UInt32) : Option (State H B) := do
  let (_arpRequest, s) ← s.getMem mem 28
  let s := { s with tables := { s.tables with
    arpPendingRequests := listAdd (pendingRequest ipAddress) s.tables.arpPendingRequests } }
  -- `arp_request` is not freed when `ether_tx` has copied it
  s.etherTx mem 28

/-- `ip4_do_xmit_packet` on the entry popped, up to the wait of
`resolve_address`. -/
def ip4Xmit (s : State H B) : Option (State H B) :=
  match s.txPkt with
  | some (.popped txPkt) =>
      let pktDstIp := ip4GetPktDst txPkt.dstIp
      if ∃ entry ∈ s.tables.arpTableHead, entry.ipaddr = pktDstIp then
        (s.ip4DoXmit mem txPkt).map fun s => s.ip4Done mem txPkt
      else
        (s.sendRequest mem pktDstIp).map fun s => { s with txPkt := some (.resolving txPkt) }
  | _ => none

/-- `resolve_address` returns.  Only `ip4_tx_task` calls it, so a finished request is
its own. -/
def ip4Resume (s : State H B) : Option (State H B) :=
  match s.txPkt, s.tables.arpFinished with
  | some (.resolving txPkt), arpReq :: arpFinished =>
      let s := { s with tables := { s.tables with arpFinished } }
      if arpReq.timedOut then some (s.ip4Done mem txPkt)
      else (s.ip4DoXmit mem txPkt).map fun s => s.ip4Done mem txPkt
  | _, _ => none

/-- `ether_xmit_payload` on the entry popped, and the rest of the round. -/
def etherXmit (s : State H B) : Option (State H B) := do
  let txdPkt ← s.txdPkt
  let (header, s) ← s.getMem mem 14
  let s := s.freeMem mem header
  some { (s.freeMem mem txdPkt.payload).freeMem mem txdPkt.block with txdPkt := none }

/-- `list_pop` from `pkt_rx_q`. -/
def rxPop (s : State H B) : Option (State H B) :=
  match s.rxPkt, listPop s.pktRxQ with
  | none, (some pkt, rest) => some { s with pktRxQ := rest, rxPkt := some pkt }
  | _, _ => none

/-- `list_pop` from `ip4_tx_queue`. -/
def ip4Pop (s : State H B) : Option (State H B) :=
  match s.txPkt, listPop s.ip4TxQueue with
  | none, (some txPkt, rest) => some { s with ip4TxQueue := rest, txPkt := some (.popped txPkt) }
  | _, _ => none

/-- `list_pop` from `ether_tx_queue`. -/
def etherPop (s : State H B) : Option (State H B) :=
  match s.txdPkt, listPop s.etherTxQueue with
  | none, (some txdPkt, rest) => some { s with etherTxQueue := rest, txdPkt := some txdPkt }
  | _, _ => none

/-- The queue that a process waits on, when the condition it waits for does not
hold.  The conditions of the threads are their own. -/
def waitsOn (s : State H B) : Task → Option Waitq
  | .rx => if s.rxPkt.isNone ∧ s.pktRxQ.isEmpty then some .rx else none
  | .ip4Tx =>
      match s.txPkt with
      | none => if s.ip4TxQueue.isEmpty then some .ip4Tx else none
      | some (.popped _) => none
      | some (.resolving _) => if s.tables.arpFinished.isEmpty then some .arp else none
  | .etherTx => if s.txdPkt.isNone ∧ s.etherTxQueue.isEmpty then some .etherTx else none
  | .thread _ => some .tcp

/-- `__waitqueue_wait`. -/
def waitqueueWait (s : State H B) (proc : Task) : Option (State H B) := do
  let queue ← s.waitsOn proc
  let (block, s) ← s.getMem mem 12
  some { s with waiting := listAdd ⟨queue, proc, block⟩ s.waiting }

/-- `arp_tick`. -/
def arpTick (s : State H B) : State H B :=
  let expired := fun arpReq : ArpPendingRequest => arpTimeout ≤ arpReq.tickCount
  { s with tables := { s.tables with
    arpPendingRequests :=
      (s.tables.arpPendingRequests.filter fun arpReq => ¬expired arpReq).map tickRequest
    arpFinished :=
      (s.tables.arpPendingRequests.filter fun arpReq => expired arpReq).map tickRequest ++
        s.tables.arpFinished } }

/-- The process is on no wait queue. -/
def Runs (s : State H B) (proc : Task) : Prop :=
  ∀ waitproc ∈ s.waiting, waitproc.proc ≠ proc

instance (s : State H B) (proc : Task) : Decidable (s.Runs proc) :=
  inferInstanceAs (Decidable (∀ _ ∈ _, _))

/-- One event.  A process that sleeps takes no step. -/
def step : Step (State H B) (NetEvent B)
  | s, .fragment statusInfo memory stale => s.irqEnet mem statusInfo memory stale
  | s, .rxPop => if s.Runs .rx then s.rxPop else none
  | s, .rxHandle => if s.Runs .rx then s.rxHandle mem else none
  | s, .ip4Pop => if s.Runs .ip4Tx then s.ip4Pop else none
  | s, .ip4Xmit => if s.Runs .ip4Tx then s.ip4Xmit mem else none
  | s, .ip4Resume => if s.Runs .ip4Tx then s.ip4Resume mem else none
  | s, .etherPop => if s.Runs .etherTx then s.etherPop else none
  | s, .etherXmit => if s.Runs .etherTx then s.etherXmit mem else none
  | s, .wait proc => if s.Runs proc then s.waitqueueWait mem proc else none
  | s, .arpTick => some s.arpTick
  | s, .getOther size =>
      (s.getMem mem size).map fun (block, s) => { s with others := block :: s.others }
  | s, .freeOther block =>
      if block ∈ s.others then
        some ({ s with others := s.others.erase block }.freeMem mem block)
      else none
  | s, .xmitOther dstIp payloadLen => s.ip4XmitPacket mem dstIp payloadLen
  | s, .setOther tcbHead udpRxRequests =>
      some { s with tables := { s.tables with tcbHead, udpRxRequests } }
  | s, .wakeupOther => some (s.waitqueueWakeup mem .tcp)

/-- A handler finds in the frame all that it swaps of its header. -/
def HeaderInFrame (s : State H B) : NetEvent B → Prop
  | .rxHandle => ∀ pkt, s.rxPkt = some pkt →
      pkt.pkt.curData + pkt.pkt.handler.swappedSize ≤ pkt.pkt.dataLength.toNat
  | _ => True

instance (s : State H B) : ∀ event, Decidable (s.HeaderInFrame event)
  | .rxHandle => inferInstanceAs (Decidable (∀ pkt ∈ s.rxPkt, _))
  | .fragment .. | .rxPop | .ip4Pop | .ip4Xmit | .ip4Resume | .etherPop | .etherXmit | .wait _
  | .arpTick | .getOther _ | .freeOther _ | .xmitOther .. | .setOther .. | .wakeupOther =>
      inferInstanceAs (Decidable True)

/-- A run in which every handler finds its header in its frame, so that no block changes but
as its owner wants. -/
structure Followed (start : State H B) (events : List (NetEvent B)) (last : State H B) :
    Prop where
  executed : run (step mem) start events = some last
  inside : Guarded (step mem) HeaderInFrame start events

end State

end Lpc17xx.Net
