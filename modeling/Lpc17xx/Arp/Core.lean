import Lpc17xx.Link.Sequence
import Lpc17xx.Protocol.Handlers
import Lpc17xx.Transition.Labelled

/-!
# Address resolution

`resolve_address` in the hands of any number of processes, `arp_rx_packet` in
those of `rx_task`, and the tick interrupt.  A process is cut at every point
where it enables interrupts or sleeps.  A hit in the table returns with
interrupts still masked; until they are enabled again, only the process that
returned goes on.  Each process has one pending request, on its stack.
-/

namespace Lpc17xx.Arp

open Lpc17xx.Link
open Lpc17xx.Protocol
open Lpc17xx.Transition

/-- `ARP_TIMEOUT`. -/
def arpTimeout : UInt32 := 250

/-- `broadcast_addr`. -/
def broadcastAddr : List UInt8 := [0xFF, 0xFF, 0xFF, 0xFF, 0xFF, 0xFF]

/-- Where a process is in `resolve_address`: not in it, before the search of the
table, before the request is linked, before it is transmitted, before the test
of its wait, or asleep on `arp_waitqueue`. -/
inductive Place where
  | idle
  | searching
  | missed
  | linked
  | waiting
  | asleep
  deriving DecidableEq, Repr

/-- A process: its place, the argument of its call, `arp_p_req`, and what its last
call returned. -/
structure Caller where
  place : Place
  ipAddress : UInt32
  request : ArpPendingRequest
  result : Option (List UInt8)

/-- The state of `arp.c`.  `pending` are the processes whose requests are linked on
`arp_pending_requests`, `waitq` those on `arp_waitqueue`, `masked` is the one
that has interrupts disabled, and `sent` are the calls of `ether_tx`. -/
structure Resolver where
  tableHead : List ArpEntry
  pending : List Nat
  caller : Nat → Caller
  waitq : List Nat
  masked : Option Nat
  sent : List (List UInt8 × ArpPacket)

/-- A call of `resolve_address`, the next step of a process inside it, the return
of interrupts, a packet for `arp_rx_packet`, or a tick. -/
inductive ArpEvent where
  | call (proc : Nat) (ipAddress : UInt32)
  | step (proc : Nat)
  | unmask
  | rx (packet : ArpPacket)
  | tick

/-- A request cleared by `memset`. -/
def pendingRequest (ipAddress : UInt32) : ArpPendingRequest where
  tickCount := 0
  TPA := ipAddress
  timedOut := false
  finished := false
  answer := none

/-- The request that `resolve_address` transmits. -/
def requestPacket (ipAddress : UInt32) : ArpPacket where
  HTYPE := 1
  PTYPE := etherTypeIp
  HLEN := 6
  PLEN := 4
  OPER := 1
  SHA := etherAddr
  SPA := ourIpAddress
  THA := [0, 0, 0, 0, 0, 0]
  TPA := ipAddress

/-- One round of `arp_tick` on a pending request. -/
def tickRequest (arpReq : ArpPendingRequest) : ArpPendingRequest :=
  let expired := arpTimeout ≤ arpReq.tickCount
  let arpReq := { arpReq with tickCount := arpReq.tickCount + 1 }
  if expired then { arpReq with finished := true, timedOut := true } else arpReq

/-- The value that `resolve_address` returns once its request is finished. -/
def answered (arpReq : ArpPendingRequest) : Option (List UInt8) :=
  if arpReq.timedOut then none else arpReq.answer.map ArpEntry.etherAddr

namespace Resolver

/-- Before the first call.  The stack of a process holds anything, but no
process is in a call. -/
def start (caller : Nat → Caller) : Resolver where
  tableHead := []
  pending := []
  caller := fun proc => { caller proc with place := .idle }
  waitq := []
  masked := none
  sent := []

def put (s : Resolver) (proc : Nat) (caller : Caller) : Resolver :=
  { s with caller := Function.update s.caller proc caller }

/-- A process runs unless another one has interrupts disabled. -/
def Runs (s : Resolver) (proc : Nat) : Prop :=
  s.masked = none ∨ s.masked = some proc

instance (s : Resolver) (proc : Nat) : Decidable (s.Runs proc) :=
  inferInstanceAs (Decidable (_ ∨ _))

/-- The next step of a process inside `resolve_address`. -/
def resolveStep (s : Resolver) (proc : Nat) : Option Resolver :=
  let cur := s.caller proc
  match cur.place with
  | .idle => none
  | .searching =>
      match s.tableHead.find? fun entry => entry.ipaddr = cur.ipAddress with
      | some entry =>
          some { s.put proc { cur with place := .idle, result := some entry.etherAddr } with
            masked := some proc }
      | none => some (s.put proc { cur with place := .missed })
  | .missed =>
      some { s.put proc { cur with place := .linked, request := pendingRequest cur.ipAddress } with
        pending := listAdd proc s.pending }
  | .linked =>
      some { s.put proc { cur with place := .waiting } with
        sent := s.sent ++ [(broadcastAddr, requestPacket cur.ipAddress)] }
  | .waiting =>
      if cur.request.finished then
        some (s.put proc { cur with place := .idle, result := answered cur.request })
      else
        some { s.put proc { cur with place := .asleep } with
          waitq := listAdd proc s.waitq
          masked := none }
  | .asleep => none

/-- `waitqueue_wakeup` of `arp_waitqueue`. -/
def wakeup (s : Resolver) : Resolver :=
  { s with
    caller := fun proc =>
      if proc ∈ s.waitq then { s.caller proc with place := .waiting } else s.caller proc
    waitq := [] }

/-- The loop of `case OPER_REPLY` over the pending requests. -/
def fulfil (s : Resolver) (packet : ArpPacket) : Resolver :=
  match s.pending.find? fun proc => (s.caller proc).request.TPA = packet.SPA with
  | some proc =>
      let newArpEntry : ArpEntry := { etherAddr := packet.SHA, ipaddr := packet.SPA }
      let cur := s.caller proc
      { s.put proc { cur with
          request := { cur.request with answer := some newArpEntry, finished := true } } with
        tableHead := listAdd newArpEntry s.tableHead
        pending := listDel proc s.pending }
  | none => s

/-- `arp_rx_packet`, on a packet in host order. -/
def rxPacket (s : Resolver) (packet : ArpPacket) : Resolver :=
  if packet.HTYPE = 1 then
    if packet.OPER = 1 then
      if packet.TPA = ourIpAddress then
        { s with sent := s.sent ++ [(packet.SHA, arpReply packet.SHA packet.SPA)] }
      else s
    else if packet.OPER = 2 then
      if packet.THA = etherAddr then (s.fulfil packet).wakeup else s
    else s
  else s

/-- `arp_tick`. -/
def tick (s : Resolver) : Resolver :=
  { s with
    caller := fun proc =>
      let cur := s.caller proc
      if proc ∈ s.pending then { cur with request := tickRequest cur.request } else cur
    pending := s.pending.filter fun proc => ¬arpTimeout ≤ (s.caller proc).request.tickCount }

/-- One event.  With interrupts disabled neither the tick nor `rx_task` comes
through. -/
def step : Step Resolver ArpEvent
  | s, .call proc ipAddress =>
      if s.Runs proc ∧ (s.caller proc).place = .idle then
        some (s.put proc { s.caller proc with place := .searching, ipAddress })
      else none
  | s, .step proc => if s.Runs proc then s.resolveStep proc else none
  | s, .unmask => if s.masked = none then none else some { s with masked := none }
  | s, .rx packet => if s.masked = none then some (s.rxPacket packet) else none
  | s, .tick => if s.masked = none then some s.tick else none

end Resolver

end Lpc17xx.Arp
