import Lpc17xx.Emac.Core
import Lpc17xx.Memory.Range
import Lpc17xx.Queue.Core
import Lpc17xx.Transition.Refinement

/-!
# The transmit ring of the Ethernet controller

`ether_tx` puts a copy of a payload in a queue, `ether_tx_task` takes it out, builds
the header, and `emac_xmit_frame` hands both to the controller by two descriptors and
spins until the controller has consumed them.  The controller fetches the bytes one by
one while every other task and interrupt goes on.  Memory is one for all.  The state
keeps the blocks that `get_mem` has returned to the transmit path and that `free_mem` has
not taken back.
-/

namespace Lpc17xx.Emac

open Lpc17xx.Cbuf
open Lpc17xx.Link
open Lpc17xx.Memory
open Lpc17xx.Protocol
open Lpc17xx.Queue
open Lpc17xx.Tcp (memHeapSize)
open Lpc17xx.Transition

instance : NeZero descLen :=
  ⟨by decide⟩

/-- `txrx_descriptor`. -/
structure TxrxDescriptor where
  packet : Nat
  control : UInt32
  deriving DecidableEq

/-- The number of bytes that the controller fetches for a descriptor. -/
def TxrxDescriptor.size (desc : TxrxDescriptor) : Nat :=
  (desc.control &&& 0x7FF).toNat + 1

/-- The LAST bit. -/
def TxrxDescriptor.isLast (desc : TxrxDescriptor) : Bool :=
  (desc.control &&& (1 : UInt32) <<< 30) ≠ 0

/-- The arguments of `ether_tx`: a whole address, and a payload for which there can be
a block. -/
structure EtherRequest extends EtherTxPkt where
  addressed : dhost.length = 6
  fits : payload.length ≤ memHeapSize
  deriving DecidableEq

/-- `struct ether_tx_q_t`, with its own address and the payload in memory. -/
structure TxdPkt where
  address : Nat
  dhost : List UInt8
  etherType : UInt16
  payload : Nat
  payloadLen : UInt16
  deriving DecidableEq

/-- The block with the copy of the payload. -/
def TxdPkt.payloadBlock (txdPkt : TxdPkt) : Nat × Nat :=
  (txdPkt.payload, txdPkt.payloadLen.toNat)

/-- The copy of the payload, and the entry itself. -/
def TxdPkt.blocks (txdPkt : TxdPkt) : List (Nat × Nat) :=
  [txdPkt.payloadBlock, (txdPkt.address, 24)]

/-- What is to be sent, as memory holds it. -/
def TxdPkt.packetIn (txdPkt : TxdPkt) (memory : Bytes) : EtherTxPkt where
  dhost := txdPkt.dhost
  etherType := txdPkt.etherType
  payload := bytesAt (fun i => memory (txdPkt.payload + i)) txdPkt.payloadLen.toNat

/-- The statements of `emac_xmit_frame`, each named by what it writes, and the loop at
its end. -/
inductive XmitStage where
  | headerPacket
  | headerControl
  | payloadPacket
  | payloadControl
  | payloadLast
  | produceIndex
  | wait
  deriving DecidableEq

/-- `ether_tx_task` in a call of `emac_xmit_frame`: the entry it popped, the block of
the header, and the statement it has come to. -/
structure Xmit where
  txdPkt : TxdPkt
  header : Nat
  stage : XmitStage
  deriving DecidableEq

def Xmit.headerBlock (xmit : Xmit) : Nat × Nat :=
  (xmit.header, 14)

/-- The header, the payload and the entry, as they are freed. -/
def Xmit.pointers (xmit : Xmit) : List Nat :=
  [xmit.header, xmit.txdPkt.payload, xmit.txdPkt.address]

/-- Memory and the blocks held, the queue and its task, the descriptors and the indices, and
the controller: how many bytes it has fetched for the descriptor at hand, what it has of the
frame, and the frames that it has sent. -/
structure Transmitter where
  memory : Bytes
  held : List (Nat × Nat)
  etherTxQueue : List TxdPkt
  xmit : Option Xmit
  txDesc : Fin descLen → TxrxDescriptor
  txProduceIndex : Fin descLen
  txConsumeIndex : Fin descLen
  offset : Nat
  frame : List UInt8
  wire : List (List UInt8)

/-- What can happen.  `get_mem` returns the addresses that `etherTx` and `pop` carry;
`write` is anyone else's, to memory of its own. -/
inductive TransmitEvent where
  | etherTx (request : EtherRequest) (newPacket payloadCopy : Nat)
  | pop (header : Nat)
  | task
  | fetch
  | write (address : Nat) (byte : UInt8)

namespace Transmitter

/-- `get_mem` returns a block apart from all that are held. -/
def getMem (s : Transmitter) (block : Nat × Nat) : Option Transmitter :=
  if ∀ held ∈ s.held, Apart block held then some { s with held := block :: s.held } else none

/-- `free_mem` of one of the blocks. -/
def freeMem (held : List (Nat × Nat)) (ptr : Nat) : List (Nat × Nat) :=
  held.filter (·.1 ≠ ptr)

/-- `ether_tx` with its two blocks.  Nobody else knows the copy before it is in the queue. -/
def etherTx (s : Transmitter) (request : EtherRequest) (newPacket payloadCopy : Nat) :
    Transmitter :=
  let txdPkt : TxdPkt :=
    { address := newPacket
      dhost := request.dhost
      etherType := request.etherType
      payload := payloadCopy
      payloadLen := .ofNat request.payload.length }
  { s with
    memory := storeBytes s.memory payloadCopy request.payload
    etherTxQueue := listAdd txdPkt s.etherTxQueue }

/-- Memory after `ether_xmit_payload` has filled the header in. -/
def headerBuilt (memory : Bytes) (header : Nat) (txdPkt : TxdPkt) : Bytes :=
  let memory := storeBytes memory header txdPkt.dhost
  let memory := storeBytes memory (header + 6) etherAddr
  swap16 (store16 memory (header + 12) txdPkt.etherType) (header + 12)

/-- `ether_tx_task` pops an entry and calls `ether_xmit_payload`, up to the call of
`emac_xmit_frame`. -/
def pop (s : Transmitter) (header : Nat) : Option Transmitter :=
  if s.xmit.isNone then
    match listPop s.etherTxQueue with
    | (none, _) => none
    | (some txdPkt, rest) =>
        some { s with
          memory := headerBuilt s.memory header txdPkt
          etherTxQueue := rest
          xmit := some { txdPkt, header, stage := .headerPacket } }
  else none

/-- One statement of `emac_xmit_frame`.  Nobody else writes `TxProduceIndex`, so
`desc_idx` is read off it again.  When the loop is left, `ether_xmit_payload` frees the
header, and `ether_tx_task` the payload and the entry. -/
def emacXmitFrame (s : Transmitter) (xmit : Xmit) : Transmitter :=
  let header := s.txProduceIndex
  let payload := s.txProduceIndex + 1
  match xmit.stage with
  | .headerPacket =>
      { s with
        txDesc := Function.update s.txDesc header
          { s.txDesc header with packet := xmit.header }
        xmit := some { xmit with stage := .headerControl } }
  | .headerControl =>
      { s with
        txDesc := Function.update s.txDesc header { s.txDesc header with control := 14 - 1 }
        xmit := some { xmit with stage := .payloadPacket } }
  | .payloadPacket =>
      { s with
        txDesc := Function.update s.txDesc payload
          { s.txDesc payload with packet := xmit.txdPkt.payload }
        xmit := some { xmit with stage := .payloadControl } }
  | .payloadControl =>
      { s with
        txDesc := Function.update s.txDesc payload
          { s.txDesc payload with control := xmit.txdPkt.payloadLen.toUInt32 - 1 }
        xmit := some { xmit with stage := .payloadLast } }
  | .payloadLast =>
      { s with
        txDesc := Function.update s.txDesc payload
          { s.txDesc payload with
            control := (s.txDesc payload).control ||| (1 : UInt32) <<< 30 }
        xmit := some { xmit with stage := .produceIndex } }
  | .produceIndex =>
      { s with
        txProduceIndex := payload + 1
        xmit := some { xmit with stage := .wait } }
  | .wait =>
      if s.txProduceIndex ≠ s.txConsumeIndex then s
      else { s with held := xmit.pointers.foldl freeMem s.held, xmit := none }

/-- Where the controller fetches its next byte from. -/
def fetchAddress (s : Transmitter) : Nat :=
  (s.txDesc s.txConsumeIndex).packet + s.offset

/-- The controller fetches a byte.  With the last one of a descriptor it consumes the
descriptor, and with the last one of a frame it has sent the frame. -/
def fetch (s : Transmitter) : Transmitter :=
  let desc := s.txDesc s.txConsumeIndex
  let frame := s.frame ++ [s.memory s.fetchAddress]
  if s.offset + 1 < desc.size then { s with offset := s.offset + 1, frame }
  else
    let s := { s with offset := 0, txConsumeIndex := s.txConsumeIndex + 1 }
    if desc.isLast then { s with frame := [], wire := s.wire ++ [frame] } else { s with frame }

/-- One event.  The rest of the program writes to no block that is held here. -/
def step : Step Transmitter TransmitEvent
  | s, .etherTx request newPacket payloadCopy => do
      let s ← s.getMem (newPacket, 24)
      let s ← s.getMem (payloadCopy, request.payload.length)
      some (s.etherTx request newPacket payloadCopy)
  | s, .pop header => do
      let s ← s.getMem (header, 14)
      s.pop header
  | s, .task => s.xmit.map s.emacXmitFrame
  | s, .fetch => if s.txConsumeIndex ≠ s.txProduceIndex then some s.fetch else none
  | s, .write address byte =>
      if Outside s.held address then
        some { s with memory := Function.update s.memory address byte }
      else none

/-- The transmitter when `emac_init` has run: nothing to send, and the descriptors as
they happen to be. -/
def start (memory : Bytes) (txDesc : Fin descLen → TxrxDescriptor) : Transmitter where
  memory
  held := []
  etherTxQueue := []
  xmit := none
  txDesc
  txProduceIndex := 0
  txConsumeIndex := 0
  offset := 0
  frame := []
  wire := []

end Transmitter

end Lpc17xx.Emac
