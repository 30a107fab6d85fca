import Lpc17xx.Arp.Wire
import Lpc17xx.Interrupt.Mask
import Lpc17xx.Memory.Ownership
import Lpc17xx.Process.Core
import Lpc17xx.Queue.Transmit

/-!
# The functions that mask interrupts

Every function of the kernel and of the network stack that calls `irq_disable`, over
the lists that it protects with it.  Interrupt handlers and other processes come
through wherever interrupts become enabled.  The allocator is a parameter.  A
request that it cannot serve does not return.
-/

namespace Lpc17xx.Irq

open Lpc17xx.Arp
open Lpc17xx.Interrupt
open Lpc17xx.Link
open Lpc17xx.Memory
open Lpc17xx.Process
open Lpc17xx.Protocol
open Lpc17xx.Queue
open Lpc17xx.Transition

/-- The wait queues: `rx_waitq`, `ip4_tx_waitq`, `ether_tx_waitq`, `arp_waitqueue`,
`udp_waitq` and `tcp_waitq`. -/
inductive Waitq where
  | rx
  | ip4Tx
  | etherTx
  | arp
  | udp
  | tcp
  deriving DecidableEq, Repr

/-- `waiting_proc_t`, with its block. -/
structure WaitingProc (B : Type) where
  proc : Task
  block : Option B

/-- The entries of `ip4_tx_queue` as `ip4_xmit_packet` makes them. -/
structure Ip4Entry where
  protocol : UInt8
  dstIp : UInt32
  payload : List UInt8

/-- The data that the functions share.  Pending requests and listeners are linked by the
address of the stack frame they stand in. -/
structure Kernel (H B : Type) where
  heap : H
  arpTable : List ArpEntry
  arpPending : List Nat
  request : Nat → ArpPendingRequest
  udpRxRequests : List Nat
  listener : Nat → UdpListener
  pktRxQ : List Packet
  ip4TxQueue : List Ip4Entry
  etherTxQueue : List EtherTxPkt
  waiting : Waitq → List (WaitingProc B)
  runqueue : List Task
  waitqueue : List Task
  deadqueue : List Task
  procState : Task → ProcState
  curStack : Task → Option Nat
  currentTsk : Option Task
  spawned : Nat

section Functions

variable {H B : Type}

/-- `irq_disable`. -/
abbrev irqDisable : Routine (Kernel H B) Bool :=
  disable

/-- `irq_enable`. -/
abbrev irqEnable (flags : Bool) : Routine (Kernel H B) Unit :=
  restore flags

/-! ## The scheduler -/

/-- `list_del` of a `cur_sched_queue` node. -/
def Kernel.unlink (kernel : Kernel H B) (proc : Task) : Kernel H B :=
  { kernel with
    runqueue := listDel proc kernel.runqueue
    waitqueue := listDel proc kernel.waitqueue
    deadqueue := listDel proc kernel.deadqueue }

/-- `list_add` to the run queue of a process that is set `RUNNING`. -/
def Kernel.run (kernel : Kernel H B) (proc : Task) : Kernel H B :=
  { kernel with
    runqueue := listAdd proc kernel.runqueue
    procState := Function.update kernel.procState proc .running }

/-- `process_wakeup`. -/
def processWakeup (proc : Task) : Routine (Kernel H B) Unit := do
  let flags ← irqDisable
  store fun kernel => (kernel.unlink proc).run proc
  irqEnable flags

/-- `process_wait`.  `reschedule` enables interrupts and gives up the processor. -/
def processWait : Routine (Kernel H B) Unit := do
  writeMask true
  store fun kernel =>
    match kernel.currentTsk with
    | some current =>
        { kernel with
          waitqueue := listAdd current kernel.waitqueue
          procState := Function.update kernel.procState current .waiting }
    | none => kernel
  sleep

/-- The current process goes back to the end of the run queue, if it is running. -/
def Kernel.requeue (kernel : Kernel H B) (currentStack : Option Nat) : Kernel H B :=
  match kernel.currentTsk with
  | some current =>
      let kernel := { kernel with
        curStack := Function.update kernel.curStack current currentStack }
      if kernel.procState current = .running then
        { kernel with runqueue := listAddTail current kernel.runqueue }
      else kernel
  | none => kernel

/-- The head of the run queue, or the idle task, becomes current. -/
def Kernel.pick (kernel : Kernel H B) : Option Nat × Kernel H B :=
  let (next, rest) := listPop kernel.runqueue
  let next := next.getD .idle
  (kernel.curStack next, { kernel with runqueue := rest, currentTsk := some next })

/-- `pick_new_task`.  An active process without a stack is a fatal error, an endless
loop. -/
def pickNewTask (currentStack : Option Nat) : Routine (Kernel H B) (Option Nat) := do
  let flags ← irqDisable
  let current ← load Kernel.currentTsk
  if current.isSome ∧ currentStack = none then Code.never
  else do
    let stack ← access fun kernel => (kernel.requeue currentStack).pick
    irqEnable flags
    pure stack

/-! ## The heap and the wait queues -/

variable [DecidableEq B] (mem : Allocator H B)

/-- The search of the free list, and the loop for ever when it fails. -/
def takeBlock (size : Nat) : Routine (Kernel H B) B := fun cpu =>
  (mem.getMem cpu.memory.heap size).map fun (block, heap) =>
    (block, { cpu with memory := { cpu.memory with heap } })

/-- `get_mem`. -/
def getMem (size : Nat) : Routine (Kernel H B) (Option B) :=
  if size = 0 then pure none
  else do
    let flags ← irqDisable
    let block ← takeBlock mem size
    irqEnable flags
    pure (some block)

/-- `free_mem`. -/
def freeMem : Option B → Routine (Kernel H B) Unit
  | none => pure ()
  | some block => do
      let flags ← irqDisable
      store fun kernel => { kernel with heap := mem.freeMem kernel.heap block }
      irqEnable flags

/-- The loop of `waitqueue_wakeup`. -/
def wakeWaiting (waitq : Waitq) (waitproc : WaitingProc B) : Routine (Kernel H B) Unit := do
  processWakeup waitproc.proc
  store fun kernel => { kernel with
    waiting := Function.update kernel.waiting waitq (kernel.waiting waitq).tail }
  freeMem mem waitproc.block

/-- `waitqueue_wakeup`. -/
def waitqueueWakeup (waitq : Waitq) : Routine (Kernel H B) Unit := do
  let flags ← irqDisable
  let waiting ← load fun kernel => kernel.waiting waitq
  waiting.forM (wakeWaiting mem waitq)
  irqEnable flags

/-- `__waitqueue_wait`. -/
def waitqueueWait (waitq : Waitq) : Routine (Kernel H B) Unit := do
  let newwait ← getMem mem 12
  store fun kernel =>
    match kernel.currentTsk with
    | some current =>
        { kernel with
          waiting := Function.update kernel.waiting waitq
            (listAdd ⟨current, newwait⟩ (kernel.waiting waitq)) }
    | none => kernel
  processWait

/-- `wait_for_volatile_condition`, of a process that is put to sleep fewer than `sleeps`
times. -/
def waitForVolatileCondition (condition : Kernel H B → Bool) (waitq : Waitq) :
    Nat → Routine (Kernel H B) Unit
  | 0 => Code.never
  | sleeps + 1 => do
      let flags ← irqDisable
      let holds ← load condition
      if holds then irqEnable flags
      else do
        waitqueueWait mem waitq
        waitForVolatileCondition condition waitq sleeps

/-- `process_spawn`, with the two allocations of `create_process`. -/
def processSpawn (stack : Nat) : Routine (Kernel H B) Unit := do
  let _newProcess ← getMem mem 20
  let _stackAlloc ← getMem mem 0x400
  let flags ← irqDisable
  store fun kernel =>
    let newproc := Task.proc kernel.spawned
    { kernel.run newproc with
      curStack := Function.update kernel.curStack newproc (some stack)
      spawned := kernel.spawned + 1 }
  irqEnable flags

/-! ## The queues -/

/-- `ether_tx`. -/
def etherTx (dhost : List UInt8) (etherType : UInt16) (payload : List UInt8) :
    Routine (Kernel H B) Unit := do
  let _newPacket ← getMem mem 24
  let _payloadCopy ← getMem mem payload.length
  let flags ← irqDisable
  store fun kernel => { kernel with
    etherTxQueue := listAdd ⟨dhost, etherType, payload⟩ kernel.etherTxQueue }
  irqEnable flags
  waitqueueWakeup mem .etherTx

/-- `ip4_xmit_packet`. -/
def ip4XmitPacket (protocol : UInt8) (dstIp : UInt32) (payload : List UInt8) :
    Routine (Kernel H B) Unit := do
  let _newPacket ← getMem mem 24
  let _payloadCopy ← getMem mem payload.length
  let flags ← irqDisable
  store fun kernel => { kernel with
    ip4TxQueue := listAdd ⟨protocol, dstIp, payload⟩ kernel.ip4TxQueue }
  irqEnable flags
  waitqueueWakeup mem .ip4Tx

/-- `packet_inject`. -/
def packetInject (pkt : Packet) (type : ProtocolType) : Routine (Kernel H B) Unit := do
  let flags ← irqDisable
  store fun kernel => { kernel with
    pktRxQ := listAdd { pkt with handler := type } kernel.pktRxQ }
  waitqueueWakeup mem .rx
  irqEnable flags

/-! ## ARP -/

/-- One round of the loop of `arp_tick`. -/
def tickPending (arpReq : Nat) : Routine (Kernel H B) Unit :=
  store fun kernel =>
    let expired := arpTimeout ≤ (kernel.request arpReq).tickCount
    { kernel with
      request := Function.update kernel.request arpReq (tickRequest (kernel.request arpReq))
      arpPending := if expired then listDel arpReq kernel.arpPending else kernel.arpPending }

/-- `arp_tick`. -/
def arpTick : Routine (Kernel H B) Unit := do
  let flags ← irqDisable
  let pending ← load Kernel.arpPending
  pending.forM tickPending
  irqEnable flags

/-- `resolve_address` from "Need to send out ARP packet" on, with its `arp_p_req` at
`arpPReq`.  The block of the request held `block`. -/
def sendRequest (ipAddress : UInt32) (arpPReq : Nat) (block : Bytes) (sleeps : Nat) :
    Routine (Kernel H B) (Option (List UInt8)) := do
  let _arpRequest ← getMem mem arpPacketSz
  let flags ← irqDisable
  store fun kernel => { kernel with
    request := Function.update kernel.request arpPReq (pendingRequest ipAddress)
    arpPending := listAdd arpPReq kernel.arpPending }
  irqEnable flags
  etherTx mem broadcastAddr etherTypeArp (arpWire block (requestPacket ipAddress))
  waitForVolatileCondition mem (fun kernel => (kernel.request arpPReq).finished) .arp sleeps
  load fun kernel => answered (kernel.request arpPReq)

/-- `resolve_address`.  A hit returns out of the search. -/
def resolveAddress (ipAddress : UInt32) (arpPReq : Nat) (block : Bytes) (sleeps : Nat) :
    Routine (Kernel H B) (Option (List UInt8)) := do
  let flags ← irqDisable
  let table ← load Kernel.arpTable
  match table.find? fun cur => cur.ipaddr = ipAddress with
  | some cur => pure (some cur.etherAddr)
  | none => do
      irqEnable flags
      sendRequest mem ipAddress arpPReq block sleeps

/-- `case OPER_REQUEST` of `arp_rx_packet`. -/
def arpRequest (packet : ArpPacket) (block : Bytes) : Routine (Kernel H B) Unit :=
  if packet.TPA = ourIpAddress then do
    let _resp ← getMem mem arpPacketSz
    etherTx mem packet.SHA etherTypeArp (arpWire block (arpReply packet.SHA packet.SPA))
  else pure ()

/-- The loop of `case OPER_REPLY`, up to the first request that the packet fulfils. -/
def arpFulfil (packet : ArpPacket) : List Nat → Routine (Kernel H B) Unit
  | [] => pure ()
  | arpReq :: requests => do
      let request ← load fun kernel => kernel.request arpReq
      if request.TPA = packet.SPA then do
        let _newArpEntry ← getMem mem 20
        store fun kernel =>
          let newArpEntry : ArpEntry := { etherAddr := packet.SHA, ipaddr := packet.SPA }
          { kernel with
            arpTable := listAdd newArpEntry kernel.arpTable
            request := Function.update kernel.request arpReq (fulfilled request newArpEntry)
            arpPending := listDel arpReq kernel.arpPending }
      else arpFulfil packet requests

/-- `case OPER_REPLY` of `arp_rx_packet`. -/
def arpReplied (packet : ArpPacket) : Routine (Kernel H B) Unit :=
  if packet.THA = etherAddr then do
    let flags ← irqDisable
    let pending ← load Kernel.arpPending
    arpFulfil mem packet pending
    waitqueueWakeup mem .arp
    irqEnable flags
  else pure ()

/-- `arp_rx_packet`, on a packet that is swapped already. -/
def arpRxPacket (packet : ArpPacket) (block : Bytes) : Routine (Kernel H B) Unit :=
  if packet.HTYPE = 1 then
    if packet.OPER = 1 then arpRequest mem packet block
    else if packet.OPER = 2 then arpReplied mem packet
    else pure ()
  else pure ()

/-! ## UDP -/

/-- `EINUSE`. -/
def eInUse : Int := 1

/-- `udp_rx` behind its first section, with its `newListener` at `newListener`. -/
def udpWait (newListener : Nat) (sleeps : Nat) : Routine (Kernel H B) Int := do
  waitForVolatileCondition mem (fun kernel =>
    (kernel.listener newListener).dstBufPtr = (kernel.listener newListener).dstBufSz) .udp sleeps
  let flags ← irqDisable
  store fun kernel => { kernel with
    udpRxRequests := listDel newListener kernel.udpRxRequests }
  irqEnable flags
  load fun kernel => (kernel.listener newListener).dstBufPtr.toNat

/-- A listener is filled in and linked. -/
def Kernel.listen (port dstBufSz : UInt16) (newListener : Nat) (kernel : Kernel H B) :
    Kernel H B :=
  { kernel with
    listener := Function.update kernel.listener newListener
      { received := [], dstBufSz, dstBufPtr := 0, port }
    udpRxRequests := listAdd newListener kernel.udpRxRequests }

/-- `udp_rx`.  A port in use returns out of the search. -/
def udpRx (port dstBufSz : UInt16) (newListener : Nat) (sleeps : Nat) :
    Routine (Kernel H B) Int := do
  let flags ← irqDisable
  let listeners ← load fun kernel => kernel.udpRxRequests.map kernel.listener
  if listeners.any fun i => i.port = port then pure (-eInUse)
  else do
    store (Kernel.listen port dstBufSz newListener)
    irqEnable flags
    udpWait mem newListener sleeps

/-- One round of the loop of `udp_rx_packet`. -/
def udpCopy (dstPort : UInt16) (udpPayload : List UInt8) (i : Nat) :
    Routine (Kernel H B) Unit := do
  let listener ← load fun kernel => kernel.listener i
  if listener.port = dstPort then do
    let noBytesToCopy := (listener.noBytesToCopy (.ofNat udpPayload.length)).toNat
    store fun kernel => { kernel with
      listener := Function.update kernel.listener i
        (listener.append (udpPayload.take noBytesToCopy)) }
    waitqueueWakeup mem .udp
  else pure ()

/-- `udp_rx_packet`, behind its header. -/
def udpRxPacket (dstPort : UInt16) (udpPayload : List UInt8) : Routine (Kernel H B) Unit := do
  let flags ← irqDisable
  let listeners ← load Kernel.udpRxRequests
  listeners.forM (udpCopy mem dstPort udpPayload)
  irqEnable flags

end Functions

end Lpc17xx.Irq
