import Lpc17xx.Link.Sequence
import Lpc17xx.Queue.Transmit
import Lpc17xx.Transition.Labelled

/-!
# The packet queues

`pkt_rx_q` on the way in, `ip4_tx_queue` and `ether_tx_queue` on the way out,
each with the task that drains it.  Insertions and pops have interrupts masked,
so they are single steps; between them any producer and any task may run.  Every
queue is filled by `list_add` and drained by `list_pop`.
-/

namespace Lpc17xx.Queue

open Lpc17xx.Link
open Lpc17xx.Protocol
open Lpc17xx.Transition

/-- An entry of a queue and the number of the call that made it, which the code
does not keep. -/
structure Entry (α : Type) where
  call : Nat
  item : α
  deriving DecidableEq

/-- An entry of `ether_tx_queue`.  `call` is the call of `ip4_xmit_packet` that
it comes from, and none for ARP. -/
structure EtherEntry where
  call : Option Nat
  item : EtherTxPkt
  deriving DecidableEq

/-- The queues and what their tasks have in hand.  `injected`, `handed`,
`requested` and `transmitted` are what has entered and left so far. -/
structure Queues where
  pktRxQ : List (Entry (List UInt8))
  rxPkt : Option (Entry (List UInt8))
  ip4TxQueue : List (Entry Ip4TxPkt)
  txPkt : Option (Entry Ip4TxPkt)
  etherTxQueue : List EtherEntry
  txdPkt : Option EtherEntry
  injected : List (Entry (List UInt8))
  handed : List (Entry (List UInt8))
  requested : List (Entry Ip4TxPkt)
  transmitted : List (Option Nat × List UInt8)
  deriving DecidableEq

/-- What can happen.  `rxDrop`, `ip4Xmit` and `etherXmit` are what the tasks do
with the packet they popped before they pop another. -/
inductive QueueEvent where
  | packetInject (frame : List UInt8)
  | rxPop
  | rxDrop
  | ip4XmitPacket (packet : Ip4TxPkt)
  | ip4Pop
  | ip4Xmit
  | arpTx (packet : EtherTxPkt)
  | etherPop
  | etherXmit
  deriving DecidableEq

namespace Queues

/-- No packets anywhere. -/
def empty : Queues where
  pktRxQ := []
  rxPkt := none
  ip4TxQueue := []
  txPkt := none
  etherTxQueue := []
  txdPkt := none
  injected := []
  handed := []
  requested := []
  transmitted := []

/-- `packet_inject`. -/
def packetInject (s : Queues) (frame : List UInt8) : Queues :=
  let pkt : Entry (List UInt8) := ⟨s.injected.length, frame⟩
  { s with pktRxQ := listAdd pkt s.pktRxQ, injected := s.injected ++ [pkt] }

/-- `rx_task` pops a packet and calls its first handler. -/
def rxPop (s : Queues) : Option Queues :=
  if s.rxPkt.isNone then
    match listPop s.pktRxQ with
    | (none, _) => none
    | (some pkt, rest) =>
        some { s with pktRxQ := rest, rxPkt := some pkt, handed := s.handed ++ [pkt] }
  else none

/-- `ip4_xmit_packet`. -/
def ip4XmitPacket (s : Queues) (packet : Ip4TxPkt) : Queues :=
  let newPacket : Entry Ip4TxPkt := ⟨s.requested.length, packet⟩
  { s with ip4TxQueue := listAdd newPacket s.ip4TxQueue, requested := s.requested ++ [newPacket] }

/-- `ip4_tx_task` pops an entry. -/
def ip4Pop (s : Queues) : Option Queues :=
  if s.txPkt.isNone then
    match listPop s.ip4TxQueue with
    | (none, _) => none
    | (some txPkt, rest) => some { s with ip4TxQueue := rest, txPkt := some txPkt }
  else none

/-- `ether_tx`. -/
def etherTx (s : Queues) (newPacket : EtherEntry) : Queues :=
  { s with etherTxQueue := listAdd newPacket s.etherTxQueue }

/-- `ip4_do_xmit_packet` on the entry popped.  Without a next hop nothing is
sent. -/
def ip4Xmit (resolveAddress : UInt32 → Option (List UInt8)) (s : Queues) : Option Queues :=
  s.txPkt.map fun txPkt =>
    match ip4DoXmitPacket resolveAddress txPkt.item with
    | some packet => { etherTx s ⟨some txPkt.call, packet⟩ with txPkt := none }
    | none => { s with txPkt := none }

/-- `ether_tx_task` pops an entry. -/
def etherPop (s : Queues) : Option Queues :=
  if s.txdPkt.isNone then
    match listPop s.etherTxQueue with
    | (none, _) => none
    | (some txdPkt, rest) => some { s with etherTxQueue := rest, txdPkt := some txdPkt }
  else none

/-- `ether_xmit_payload` on the entry popped. -/
def etherXmit (s : Queues) : Option Queues :=
  s.txdPkt.map fun txdPkt =>
    { s with
      txdPkt := none
      transmitted := s.transmitted ++ [(txdPkt.call, etherXmitPayload txdPkt.item)] }

/-- One event. -/
def step (resolveAddress : UInt32 → Option (List UInt8)) : Step Queues QueueEvent
  | s, .packetInject frame => some (s.packetInject frame)
  | s, .rxPop => s.rxPop
  | s, .rxDrop => s.rxPkt.map fun _ => { s with rxPkt := none }
  | s, .ip4XmitPacket packet => some (s.ip4XmitPacket packet)
  | s, .ip4Pop => s.ip4Pop
  | s, .ip4Xmit => s.ip4Xmit resolveAddress
  | s, .arpTx packet => some (s.etherTx ⟨none, packet⟩)
  | s, .etherPop => s.etherPop
  | s, .etherXmit => s.etherXmit

end Queues

end Lpc17xx.Queue
