import Lpc17xx.Arp.Concurrent
import Lpc17xx.Link.History
import Lpc17xx.Udp.Reception

/-!
# Requests on the stacks of their callers

`udp_rx_requests` and `arp_pending_requests` as they lie in memory: the heads are static,
every other node is in the frame of a call of `udp_rx` or `resolve_address`.  The loops
follow the pointers and the list functions write them.  When a process is not in the call,
its frame is anybody's: whatever is there is overwritten at any time.
-/

namespace Lpc17xx.Requests

open Lpc17xx.Arp
open Lpc17xx.Link
open Lpc17xx.Memory
open Lpc17xx.Protocol
open Lpc17xx.Transition
open Lpc17xx.Udp

/-- What a pointer in one of the two lists can be: `NULL`, a head, or the node in the frame
of a process. -/
inductive Node where
  | null
  | udpRxRequests
  | arpPendingRequests
  | newListener (proc : Nat)
  | arpPReq (proc : Nat)
  deriving DecidableEq, Repr

/-- The list nodes, and the rest of `udp.c` and `arp.c`.  What `udp` and `arp` say about
their lists is read by no loop, except that it bounds the rounds; `calls` are the list calls
so far, the latest first, and are read by nobody. -/
structure Frames where
  links : Links Node
  udp : Receiver
  arp : Resolver
  calls : List (ListCall Node)

/-- A call, the next step of a process inside it, the return of interrupts, a packet for
one of the two handlers, a tick, or a write to a frame that is not in use. -/
inductive FrameEvent where
  | udpRx (proc : Nat) (port : UInt16) (dstBuf : Bytes) (dstBufSz : UInt16)
  | udpRxStep (proc : Nat)
  | resolveAddress (proc : Nat) (ipAddress : UInt32)
  | resolveStep (proc : Nat)
  | unmask
  | udpRxPacket (datagram : Datagram)
  | arpRxPacket (packet : ArpPacket)
  | arpTick
  | overwrite (node next prev : Node)

/-- `list_entry` for `udp_listener`: the process in whose frame it is. -/
def listenerOf : Node → Option Nat
  | .newListener proc => some proc
  | _ => none

/-- `list_entry` for `struct arp_pending_request`. -/
def requestOf : Node → Option Nat
  | .arpPReq proc => some proc
  | _ => none

namespace Frames

/-- Before the first call.  The heads are as `LIST` initialises them; everything else is
whatever it is. -/
def start (links : Links Node) (listeners : Nat → Udp.Caller) (requests : Nat → Arp.Caller) :
    Frames where
  links :=
    { next := Function.update (Function.update links.next .udpRxRequests .udpRxRequests)
        .arpPendingRequests .arpPendingRequests
      prev := Function.update (Function.update links.prev .udpRxRequests .udpRxRequests)
        .arpPendingRequests .arpPendingRequests }
  udp := .start listeners
  arp := .start requests
  calls := []

/-- `list_add`. -/
def listAdd (s : Frames) (new head : Node) : Frames :=
  { s with links := s.links.listAdd new head, calls := .add new :: s.calls }

/-- `list_del`. -/
def listDel (s : Frames) (entry : Node) : Frames :=
  { s with links := s.links.listDel .null entry, calls := .del entry :: s.calls }

/-- Both pointers of a node are written. -/
def write (s : Frames) (node next prev : Node) : Frames :=
  { s with links :=
      { next := Function.update s.links.next node next
        prev := Function.update s.links.prev node prev } }

/-- A process runs unless another one has interrupts disabled. -/
def Runs (s : Frames) (proc : Nat) : Prop :=
  s.udp.Runs proc ∧ s.arp.Runs proc

/-- A process is in neither call. -/
def Outside (s : Frames) (proc : Nat) : Prop :=
  (s.udp.caller proc).place = .idle ∧ (s.arp.caller proc).place = .idle

/-- Interrupts are enabled. -/
def Unmasked (s : Frames) : Prop :=
  s.udp.masked = none ∧ s.arp.masked = none

/-- The node is in a frame that is not in use. -/
def Dead (s : Frames) : Node → Prop
  | .newListener proc => (s.udp.caller proc).place = .idle
  | .arpPReq proc => (s.arp.caller proc).place = .idle
  | _ => False

section Decidable

variable (s : Frames) (proc : Nat)

instance : Decidable (s.Runs proc) :=
  inferInstanceAs (Decidable (_ ∧ _))

instance : Decidable (s.Outside proc) :=
  inferInstanceAs (Decidable (_ ∧ _))

instance : Decidable s.Unmasked :=
  inferInstanceAs (Decidable (_ ∧ _))

instance (node : Node) : Decidable (s.Dead node) :=
  match node with
  | .null => inferInstanceAs (Decidable False)
  | .udpRxRequests => inferInstanceAs (Decidable False)
  | .arpPendingRequests => inferInstanceAs (Decidable False)
  | .newListener proc => inferInstanceAs (Decidable ((s.udp.caller proc).place = .idle))
  | .arpPReq proc => inferInstanceAs (Decidable ((s.arp.caller proc).place = .idle))

end Decidable

/-- There is one interrupt mask: here it was written through `udp`. -/
def maskedByUdp (s : Frames) : Frames :=
  { s with arp := { s.arp with masked := s.udp.masked } }

/-- And here through `arp`. -/
def maskedByArp (s : Frames) : Frames :=
  { s with udp := { s.udp with masked := s.arp.masked } }

/-- The first section of `udp_rx`. -/
def udpRx (s : Frames) (proc : Nat) (port : UInt16) (dstBuf : Bytes) (dstBufSz : UInt16) :
    Option Frames := do
  let nodes ← s.links.listForEach .udpRxRequests s.udp.requests.length
  let listeners ← nodes.mapM listenerOf
  if listeners.any fun i => (s.udp.caller i).newListener.port = port then
    some { s with udp := s.udp.refuse proc }
  else
    some (listAdd { s with udp := s.udp.register proc port dstBuf dstBufSz }
      (.newListener proc) .udpRxRequests)

/-- The next step of a process inside `udp_rx`, which takes its listener off the list in the
last one. -/
def udpRxStep (s : Frames) (proc : Nat) : Option Frames := do
  let udp ← s.udp.udpRxStep proc
  if (s.udp.caller proc).place = .filled then
    some (listDel { s with udp } (.newListener proc))
  else some { s with udp }

/-- `udp_rx_packet`. -/
def udpRxPacket (s : Frames) (datagram : Datagram) : Option Frames := do
  let nodes ← s.links.listForEach .udpRxRequests s.udp.requests.length
  let listeners ← nodes.mapM listenerOf
  some { s with udp :=
    listeners.foldl (Receiver.rxListener datagram) (s.udp.noteArrival datagram) }

/-- The next step of a process inside `resolve_address`.  `memset` clears the node before
it is linked. -/
def resolveStep (s : Frames) (proc : Nat) : Option Frames := do
  let arp ← s.arp.resolveStep proc
  if (s.arp.caller proc).place = .missed then
    some ((write { s with arp } (.arpPReq proc) .null .null).listAdd (.arpPReq proc)
      .arpPendingRequests)
  else some { s with arp }

/-- A round of the loop of `case OPER_REPLY`. -/
def fulfilRound (packet : ArpPacket) (i : Node) (s : Frames) : Option (Frames × Bool) := do
  let proc ← requestOf i
  let cur := s.arp.caller proc
  if cur.request.TPA = packet.SPA then
    let newArpEntry : ArpEntry := { etherAddr := packet.SHA, ipaddr := packet.SPA }
    let arp := { s.arp.put proc { cur with request := fulfilled cur.request newArpEntry } with
      tableHead := Link.listAdd newArpEntry s.arp.tableHead
      pending := Link.listDel proc s.arp.pending }
    some (listDel { s with arp } i, true)
  else some (s, false)

/-- `arp_rx_packet`. -/
def arpRxPacket (s : Frames) (packet : ArpPacket) : Option Frames :=
  if packet.HTYPE = 1 ∧ packet.OPER = 2 ∧ packet.THA = etherAddr then do
    let s ← Links.listForEachSafe links (fulfilRound packet) .arpPendingRequests
      s.arp.pending.length s
    some { s with arp := s.arp.wakeup }
  else some { s with arp := s.arp.rxPacket packet }

/-- A round of the loop of `arp_tick`. -/
def tickRound (i : Node) (s : Frames) : Option (Frames × Bool) := do
  let proc ← requestOf i
  let cur := s.arp.caller proc
  let arp := s.arp.put proc { cur with request := tickRequest cur.request }
  if arpTimeout ≤ cur.request.tickCount then
    some (listDel { s with arp := { arp with pending := Link.listDel proc arp.pending } } i, false)
  else some ({ s with arp }, false)

/-- `arp_tick`. -/
def arpTick (s : Frames) : Option Frames :=
  Links.listForEachSafe links tickRound .arpPendingRequests s.arp.pending.length s

/-- One event.  A process is in one call at a time. -/
def step : Step Frames FrameEvent
  | s, .udpRx proc port dstBuf dstBufSz =>
      if s.Runs proc ∧ s.Outside proc then
        (s.udpRx proc port dstBuf dstBufSz).map maskedByUdp
      else none
  | s, .udpRxStep proc =>
      if s.Runs proc then (s.udpRxStep proc).map maskedByUdp else none
  | s, .resolveAddress proc ipAddress =>
      if s.Runs proc ∧ s.Outside proc then
        some { s with
          arp := s.arp.put proc { s.arp.caller proc with place := .searching, ipAddress } }
      else none
  | s, .resolveStep proc =>
      if s.Runs proc then (s.resolveStep proc).map maskedByArp else none
  | s, .unmask =>
      if s.Unmasked then none
      else some { s with
        udp := { s.udp with masked := none }
        arp := { s.arp with masked := none } }
  | s, .udpRxPacket datagram => if s.Unmasked then s.udpRxPacket datagram else none
  | s, .arpRxPacket packet => if s.Unmasked then s.arpRxPacket packet else none
  | s, .arpTick => if s.Unmasked then s.arpTick else none
  | s, .overwrite node next prev => if s.Dead node then some (s.write node next prev) else none

end Frames

end Lpc17xx.Requests
