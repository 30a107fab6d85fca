import Lpc17xx.Tcp.Api
import Lpc17xx.Transition.Labelled

/-!
# Two hosts and the channels between them

One host calls `tcp_connect`, the other `tcp_listen`, and both then send and
receive.  Each direction is a first-in first-out channel of exactly the segments
given to `tcp_tx`.  One event is one run of `tcp_rx_packet`, one step of a
calling thread, the sending part of one `tcp_tx_data` or its return, or one pop
of `tcp_rx_data`.  Each `get_mem` on the way is taken to find its block.
-/

namespace Lpc17xx.Tcp

open Lpc17xx.Transition

/-- The two hosts, named after the call they make. -/
inductive Side where
  | connecting
  | listening
  deriving DecidableEq, Repr

namespace Side

/-- The peer. -/
def other : Side → Side
  | .connecting => .listening
  | .listening => .connecting

@[simp]
theorem other_other (side : Side) : side.other.other = side := by
  cases side <;> rfl

@[simp]
theorem other_ne (side : Side) : side.other ≠ side := by
  cases side <;> decide

@[simp]
theorem ne_other (side : Side) : side ≠ side.other := by
  cases side <;> decide

theorem eq_or_eq_other (side each : Side) : each = side ∨ each = side.other := by
  cases side <;> cases each <;> simp [other]

/-- What holds of a side and of its peer holds of both. -/
theorem forall_of {P : Side → Prop} (side : Side) (here : P side) (there : P side.other) :
    ∀ each, P each := by
  intro each
  cases side <;> cases each
  · exact here
  · exact there
  · exact there
  · exact here

end Side

/-- One host: the TCB on its `tcb_head`, the thread that called `tcp_connect` or
`tcp_listen` and, once that returned, `tcp_tx_data`.  `lastWindow` is the
window of the last segment received, `sent` what was handed to `tcp_tx_data`,
`popped` what `tcp_rx_data` returned. -/
structure Endpoint where
  tcb : Option Tcb
  thread : Option OpeningThread
  sending : Bool
  lastWindow : UInt16
  sent : List UInt8
  popped : List UInt8

/-- A host before its call. -/
def Endpoint.start : Endpoint where
  tcb := none
  thread := none
  sending := false
  lastWindow := 0
  sent := []
  popped := []

/-- Both hosts, and the segments that each has transmitted and the other has not
taken yet, oldest first. -/
structure Pair where
  ends : Side → Endpoint
  wire : Side → List TcpTx

/-- The addresses of the hosts and the port of the listener. -/
structure Addresses where
  ip : Side → UInt32
  port : UInt16

/-- The events of the pair.  A call brings the heap blocks it allocates. -/
inductive PairEvent where
  | connect (addr : Nat) (block : List UInt8) (size : block.length = tcpBufSz.toNat)
  | listen (addr : Nat) (block : List UInt8) (size : block.length = tcpBufSz.toNat)
  | thread (side : Side)
  | deliver (side : Side)
  | txData (side : Side) (data : List UInt8)
  | txReturn (side : Side)
  | rxData (side : Side) (len : UInt32)

namespace Pair

def start : Pair where
  ends := fun _ => Endpoint.start
  wire := fun _ => []

/-- One host moves on to `endpoint` and transmits `sent`. -/
def put (s : Pair) (side : Side) (endpoint : Endpoint) (sent : List TcpTx) : Pair where
  ends := Function.update s.ends side endpoint
  wire := Function.update s.wire side (s.wire side ++ sent)

/-- The oldest segment under way to `side` is taken off the channel. -/
def take (s : Pair) (side : Side) (rest : List TcpTx) : Pair :=
  { s with wire := Function.update s.wire side.other rest }

/-- `tcp_tx_data` may be called: the connection is open, no earlier call is
still waiting, and the length is between one and the last window received. -/
def MaySend (endpoint : Endpoint) (data : List UInt8) : Prop :=
  endpoint.thread = some (.returned true) ∧ endpoint.sending = false ∧
    1 ≤ data.length ∧ data.length ≤ endpoint.lastWindow.toNat

instance (endpoint : Endpoint) (data : List UInt8) : Decidable (MaySend endpoint data) :=
  inferInstanceAs (Decidable (_ ∧ _))

/-- `tcp_rx_packet` of a host on a segment from `srcIp`. -/
def rxPacket (endpoint : Endpoint) (srcIp : UInt32) (tx : TcpTx) : Option HostOutcome :=
  rxSegment endpoint.tcb.toList srcIp tx.header (fun offset => tx.payload.getD offset 0)
    (UInt32.ofNat tx.payload.length)

/-- One event.  A thread that returns without a connection has freed its TCB. -/
def step (hosts : Addresses) : Step Pair PairEvent
  | s, .connect addr block size =>
      let endpoint := s.ends .connecting
      if endpoint.thread = none then
        let t := tcpConnectTcb addr hosts.port (hosts.ip .listening) block size
        some (s.put .connecting
          { endpoint with tcb := some t, thread := some (.connectLinked (tcpConnectSyn t)) } [])
      else none
  | s, .listen addr block size =>
      let endpoint := s.ends .listening
      if endpoint.thread = none then
        some (s.put .listening
          { endpoint with
            tcb := some (tcpListenTcb addr hosts.port block size)
            thread := some .listenWaiting } [])
      else none
  | s, .thread side => do
      let endpoint := s.ends side
      let t ← endpoint.tcb
      let thread ← endpoint.thread
      let (next, sent) ← thread.step t
      some (s.put side
        { endpoint with
          tcb := if next = .returned false then none else some t
          thread := some next } sent.toList)
  | s, .deliver side =>
      match s.wire side.other with
      | [] => none
      | tx :: rest =>
          (rxPacket (s.ends side) (hosts.ip side.other) tx).map fun outcome =>
            (s.take side rest).put side
              { s.ends side with
                tcb := outcome.tcbHead.head?
                lastWindow := tx.header.windowSz } outcome.sent
  | s, .txData side data => do
      let endpoint := s.ends side
      let t ← endpoint.tcb
      let (after, tx) ← tcpTxData t data
      if MaySend endpoint data then
        some (s.put side
          { endpoint with tcb := some after, sending := true, sent := endpoint.sent ++ data } [tx])
      else none
  | s, .txReturn side => do
      let endpoint := s.ends side
      let t ← endpoint.tcb
      if endpoint.sending ∧ tcpTxDataDone t then
        some (s.put side { endpoint with sending := false } [])
      else none
  | s, .rxData side len => do
      let endpoint := s.ends side
      let t ← endpoint.tcb
      let (bytes, after) ← tcpRxDataRound t len
      if endpoint.thread = some (.returned true) ∧ tcpRxDataReady t then
        some (s.put side
          { endpoint with tcb := some after, popped := endpoint.popped ++ bytes } [])
      else none

/-- What each event can do. -/
inductive Stepped (hosts : Addresses) (s : Pair) : PairEvent → Pair → Prop
  | connect {addr : Nat} {block : List UInt8} {size : block.length = tcpBufSz.toNat} {t : Tcb} :
      (s.ends .connecting).thread = none →
      t = tcpConnectTcb addr hosts.port (hosts.ip .listening) block size →
      Stepped hosts s (.connect addr block size)
        (s.put .connecting
          { s.ends .connecting with
            tcb := some t
            thread := some (.connectLinked (tcpConnectSyn t)) } [])
  | listen {addr : Nat} {block : List UInt8} {size : block.length = tcpBufSz.toNat} :
      (s.ends .listening).thread = none →
      Stepped hosts s (.listen addr block size)
        (s.put .listening
          { s.ends .listening with
            tcb := some (tcpListenTcb addr hosts.port block size)
            thread := some .listenWaiting } [])
  | thread {side : Side} {t : Tcb} {thread next : OpeningThread} {sent : Option TcpTx} :
      (s.ends side).tcb = some t → (s.ends side).thread = some thread →
      thread.Moves t next sent →
      Stepped hosts s (.thread side)
        (s.put side
          { s.ends side with
            tcb := if next = .returned false then none else some t
            thread := some next } sent.toList)
  | deliver {side : Side} {tx : TcpTx} {rest : List TcpTx} {outcome : HostOutcome} :
      s.wire side.other = tx :: rest →
      rxPacket (s.ends side) (hosts.ip side.other) tx = some outcome →
      Stepped hosts s (.deliver side)
        ((s.take side rest).put side
          { s.ends side with
            tcb := outcome.tcbHead.head?
            lastWindow := tx.header.windowSz } outcome.sent)
  | txData {side : Side} {data : List UInt8} {t : Tcb} :
      (s.ends side).tcb = some t → MaySend (s.ends side) data →
      Stepped hosts s (.txData side data)
        (s.put side
          { s.ends side with
            tcb := some { t with
              unackedByteCount := t.unackedByteCount + UInt32.ofNat data.length }
            sending := true
            sent := (s.ends side).sent ++ data } [⟨t.ackHeader, t.dstIp, data⟩])
  | txReturn {side : Side} {t : Tcb} :
      (s.ends side).tcb = some t → (s.ends side).sending = true → t.unackedByteCount = 0 →
      Stepped hosts s (.txReturn side) (s.put side { s.ends side with sending := false } [])
  | rxData {side : Side} {len : UInt32} {t after : Tcb} {bytes : List UInt8} :
      (s.ends side).tcb = some t → (s.ends side).thread = some (.returned true) →
      tcpRxDataRound t len = some (bytes, after) →
      Stepped hosts s (.rxData side len)
        (s.put side
          { s.ends side with
            tcb := some after
            popped := (s.ends side).popped ++ bytes } [])

theorem stepped_of_step {hosts : Addresses} {s after : Pair} {event : PairEvent}
    (taken : step hosts s event = some after) : Stepped hosts s event after := by
  cases event with
  | connect addr block size =>
      rcases Option.ite_none_right_eq_some.mp taken with ⟨unused, taken⟩
      cases taken
      exact .connect unused rfl
  | listen addr block size =>
      rcases Option.ite_none_right_eq_some.mp taken with ⟨unused, taken⟩
      cases taken
      exact .listen unused
  | thread side =>
      rcases Option.bind_eq_some_iff.mp taken with ⟨t, tcb, taken⟩
      rcases Option.bind_eq_some_iff.mp taken with ⟨thread, position, taken⟩
      rcases Option.bind_eq_some_iff.mp taken with ⟨⟨next, sent⟩, moved, taken⟩
      cases taken
      exact .thread tcb position (OpeningThread.moves_of_step moved)
  | deliver side =>
      simp only [step] at taken
      split at taken
      · contradiction
      · rename_i tx rest pending
        rcases Option.map_eq_some_iff.mp taken with ⟨outcome, received, taken⟩
        subst taken
        exact .deliver pending received
  | txData side data =>
      rcases Option.bind_eq_some_iff.mp taken with ⟨t, tcb, taken⟩
      rcases Option.bind_eq_some_iff.mp taken with ⟨⟨next, tx⟩, transmitted, taken⟩
      rcases Option.ite_none_right_eq_some.mp taken with ⟨may, taken⟩
      rcases tcpTxData_eq_some transmitted with ⟨_, sent⟩
      cases sent
      cases taken
      exact .txData tcb may
  | txReturn side =>
      rcases Option.bind_eq_some_iff.mp taken with ⟨t, tcb, taken⟩
      rcases Option.ite_none_right_eq_some.mp taken with ⟨⟨sending, done⟩, taken⟩
      cases taken
      exact .txReturn tcb sending (by simpa [tcpTxDataDone] using done)
  | rxData side len =>
      rcases Option.bind_eq_some_iff.mp taken with ⟨t, tcb, taken⟩
      rcases Option.bind_eq_some_iff.mp taken with ⟨⟨bytes, next⟩, popped, taken⟩
      rcases Option.ite_none_right_eq_some.mp taken with ⟨⟨returned, _⟩, taken⟩
      cases taken
      exact .rxData tcb returned popped

end Pair

end Lpc17xx.Tcp
