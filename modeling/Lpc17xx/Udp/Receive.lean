import Lpc17xx.Link.Sequence
import Lpc17xx.Protocol.Delivery
import Lpc17xx.Transition.Labelled

/-!
# Receiving datagrams

`udp_rx` in the hands of any number of processes and `udp_rx_packet` in those of
`rx_task`.  A process is cut at every point where it enables interrupts or sleeps.  A
port in use returns with interrupts still masked; until they are enabled again, only the
process that returned goes on.  Each process has one listener, on its stack, and a buffer
of its own for each call.
-/

namespace Lpc17xx.Udp

open Lpc17xx.Cbuf
open Lpc17xx.Link
open Lpc17xx.Memory
open Lpc17xx.Protocol
open Lpc17xx.Transition

/-- `EINUSE`. -/
def eInUse : Int := 1

/-- Where a process is in `udp_rx`: not in it, before the test of its wait, asleep on
`udp_waitq`, or behind the wait with its listener still linked. -/
inductive Place where
  | idle
  | waiting
  | asleep
  | filled
  deriving DecidableEq, Repr

/-- `udp_listener`.  `dstBuf` is what the memory behind `dst_buf` holds. -/
structure Listener where
  dstBuf : Bytes
  dstBufSz : UInt16
  dstBufPtr : UInt16
  port : UInt16

/-- A process: its place, `newListener`, and what its last call returned.  `given` and
`arrived` are kept by nobody: the buffer as it was at the call, and the payloads of the
datagrams for the port since then, in order. -/
structure Caller where
  place : Place
  newListener : Listener
  result : Option Int
  given : Bytes
  arrived : List UInt8

/-- The state of `udp.c`.  `requests` are the processes whose listeners are linked on
`udp_rx_requests`, `waitq` those on `udp_waitq`, and `masked` is the one that has
interrupts disabled. -/
structure Receiver where
  requests : List Nat
  caller : Nat → Caller
  waitq : List Nat
  masked : Option Nat

/-- A packet at its UDP header, in network order.  Of a packet shorter than that, whatever
follows in memory is taken for the rest. -/
structure Datagram where
  memory : Bytes
  curData : Nat
  curDataLength : UInt32

/-- A call of `udp_rx`, the next step of a process inside it, the return of interrupts, or
a packet for `udp_rx_packet`. -/
inductive UdpEvent where
  | call (proc : Nat) (port : UInt16) (dstBuf : Bytes) (dstBufSz : UInt16)
  | step (proc : Nat)
  | unmask
  | rx (datagram : Datagram)

namespace Datagram

/-- `dst_port`. -/
def dstPort (datagram : Datagram) : UInt16 :=
  big16 datagram.memory (datagram.curData + 2)

/-- `udp_payload_sz`. -/
def payloadSz (datagram : Datagram) : UInt32 :=
  datagram.curDataLength - 8

/-- The bytes after the header. -/
def payload (datagram : Datagram) : List UInt8 :=
  bytesAt (fun i => datagram.memory (datagram.curData + 8 + i)) datagram.payloadSz.toNat

end Datagram

namespace Listener

/-- The listener as the receive handlers see it, with the bytes that it has received. -/
def view (listener : Listener) : UdpListener where
  received := bytesAt listener.dstBuf listener.dstBufPtr.toNat
  dstBufSz := listener.dstBufSz
  dstBufPtr := listener.dstBufPtr
  port := listener.port

/-- The copy of `udp_rx_packet`. -/
def copy (listener : Listener) (datagram : Datagram) : Listener :=
  let noBytesToCopy := listener.view.noBytesToCopy datagram.payloadSz
  { listener with
    dstBuf := storeBytes listener.dstBuf listener.dstBufPtr.toNat
      (datagram.payload.take noBytesToCopy.toNat)
    dstBufPtr := listener.dstBufPtr + UInt16.ofNat noBytesToCopy.toNat }

end Listener

namespace Receiver

/-- Before the first call.  The stack of a process holds anything, but no process is in a
call. -/
def start (caller : Nat → Caller) : Receiver where
  requests := []
  caller := fun proc =>
    { caller proc with place := .idle, given := (caller proc).newListener.dstBuf }
  waitq := []
  masked := none

def put (s : Receiver) (proc : Nat) (caller : Caller) : Receiver :=
  { s with caller := Function.update s.caller proc caller }

/-- A process runs unless another one has interrupts disabled. -/
def Runs (s : Receiver) (proc : Nat) : Prop :=
  s.masked = none ∨ s.masked = some proc

instance (s : Receiver) (proc : Nat) : Decidable (s.Runs proc) :=
  inferInstanceAs (Decidable (_ ∨ _))

/-- The return of `-EINUSE`. -/
def refuse (s : Receiver) (proc : Nat) : Receiver :=
  { s.put proc { s.caller proc with result := some (-eInUse) } with masked := some proc }

/-- The new listener is filled in and linked. -/
def register (s : Receiver) (proc : Nat) (port : UInt16) (dstBuf : Bytes) (dstBufSz : UInt16) :
    Receiver :=
  { s.put proc { s.caller proc with
      place := .waiting
      newListener := { dstBuf, dstBufSz, dstBufPtr := 0, port }
      given := dstBuf
      arrived := [] } with
    requests := listAdd proc s.requests }

/-- The first section of `udp_rx`. -/
def udpRx (s : Receiver) (proc : Nat) (port : UInt16) (dstBuf : Bytes) (dstBufSz : UInt16) :
    Receiver :=
  if s.requests.any fun i => (s.caller i).newListener.port = port then s.refuse proc
  else s.register proc port dstBuf dstBufSz

/-- The next step of a process inside `udp_rx`. -/
def udpRxStep (s : Receiver) (proc : Nat) : Option Receiver :=
  let cur := s.caller proc
  match cur.place with
  | .idle => none
  | .waiting =>
      if cur.newListener.dstBufPtr = cur.newListener.dstBufSz then
        some (s.put proc { cur with place := .filled })
      else
        some { s.put proc { cur with place := .asleep } with
          waitq := listAdd proc s.waitq
          masked := none }
  | .asleep => none
  | .filled =>
      some { s.put proc { cur with
          place := .idle, result := some cur.newListener.dstBufPtr.toNat } with
        requests := listDel proc s.requests }

/-- `waitqueue_wakeup` of `udp_waitq`. -/
def wakeup (s : Receiver) : Receiver :=
  { s with
    caller := fun proc =>
      if proc ∈ s.waitq then { s.caller proc with place := .waiting } else s.caller proc
    waitq := [] }

/-- A round of the loop of `udp_rx_packet`. -/
def rxListener (datagram : Datagram) (s : Receiver) (i : Nat) : Receiver :=
  let cur := s.caller i
  if cur.newListener.port = datagram.dstPort then
    (s.put i { cur with newListener := cur.newListener.copy datagram }).wakeup
  else s

/-- The datagram has arrived for the listeners on its port. -/
def noteArrival (s : Receiver) (datagram : Datagram) : Receiver :=
  { s with
    caller := fun proc =>
      let cur := s.caller proc
      if proc ∈ s.requests ∧ cur.newListener.port = datagram.dstPort then
        { cur with arrived := cur.arrived ++ datagram.payload }
      else cur }

/-- `udp_rx_packet`. -/
def udpRxPacket (s : Receiver) (datagram : Datagram) : Receiver :=
  s.requests.foldl (rxListener datagram) (s.noteArrival datagram)

/-- One event.  With interrupts disabled `rx_task` does not come through. -/
def step : Step Receiver UdpEvent
  | s, .call proc port dstBuf dstBufSz =>
      if s.Runs proc ∧ (s.caller proc).place = .idle then
        some (s.udpRx proc port dstBuf dstBufSz)
      else none
  | s, .step proc => if s.Runs proc then s.udpRxStep proc else none
  | s, .unmask => if s.masked = none then none else some { s with masked := none }
  | s, .rx datagram => if s.masked = none then some (s.udpRxPacket datagram) else none

end Receiver

end Lpc17xx.Udp
