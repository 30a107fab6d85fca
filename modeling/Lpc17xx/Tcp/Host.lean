import Lpc17xx.Link.Keyed
import Lpc17xx.Link.Sequence
import Lpc17xx.Tcp.Allocation
import Lpc17xx.Transition.Labelled

/-!
# The connections of one host

All TCBs on `tcb_head`, the calls that own them, the tick interrupt and the heap
blocks they give back.  A TCB is named by the order of its creation, so no
address is used twice.  A segment is answered out of the heap, which everything else
uses too, so it comes with the heap that `tcp_rx_packet` finds and with what is done to it
meanwhile.  The calls of the threads are followed where `get_mem` has found their blocks.
-/

namespace Lpc17xx.Tcp

open Lpc17xx.Link
open Lpc17xx.Memory
open Lpc17xx.Transition

/-- The two heap blocks of a connection. -/
inductive Block where
  | tcb (addr : Nat)
  | rxBuf (addr : Nat)
  deriving DecidableEq, Repr

/-- The connection that a block belongs to. -/
def Block.addr : Block → Nat
  | .tcb addr | .rxBuf addr => addr

/-- A call of `tcp_connect` or `tcp_listen`, whether its thread sleeps on
`tcp_waitq`, and what a thread inside `tcp_close` of its connection has left
to do. -/
structure Call where
  thread : OpeningThread
  asleep : Bool
  closing : Option ClosingThread

/-- The host.  `stopped` is an endless loop with interrupts off, that of `tcp_rx_packet`
or that of `get_mem`.  Nothing reads the last three: `freed` are the blocks given to
`free_mem`, `quiet` the ticks since a connection was created or last heard of, and
`peerClosed` says that the peer's FIN has ended `ESTABLISHED` and no `tcp_close` has
returned since. -/
structure Host where
  tcbHead : List Tcb
  created : Nat
  call : Nat → Call
  stopped : Bool
  freed : List Block
  quiet : Nat → Nat
  peerClosed : Nat → Bool

/-- What happens: a call of `tcp_connect` or `tcp_listen`, the next step of the
thread inside it, a segment with the heap behind its answer, a call on an open
connection, with `tcp_close` in its two parts, or a tick. -/
inductive HostEvent (H : Type) where
  | connect (port : UInt16) (ip : UInt32) (block : List UInt8)
      (size : block.length = tcpBufSz.toNat)
  | listen (port : UInt16) (block : List UInt8) (size : block.length = tcpBufSz.toNat)
  | thread (addr : Nat)
  | rx (segment : Segment) (heap : SharedHeap H)
  | txData (addr : Nat) (data : List UInt8)
  | rxData (addr : Nat) (len : UInt32)
  | close (addr : Nat)
  | closeReturn (addr : Nat)
  | tick

/-- The TCB that a segment is for. -/
def selected (tcbHead : List Tcb) (segment : Segment) : Option Tcb :=
  (findTcb tcbHead segment.srcIp segment.header).bind fun index => tcbHead[index]?

/-- What one round of `tcp_tick` gives back. -/
def tickTcbFreed (cur : Tcb) : List Block :=
  if (tickTcb cur).isNone then [.rxBuf cur.addr, .tcb cur.addr] else []

namespace Host

variable {H B : Type} [DecidableEq B] (mem : Allocator H B)

/-- Before the first call. -/
def start : Host where
  tcbHead := []
  created := 0
  call := fun _ => { thread := .returned false, asleep := false, closing := none }
  stopped := false
  freed := []
  quiet := fun _ => 0
  peerClosed := fun _ => false

/-- Link a new TCB for a thread inside `tcp_connect` or `tcp_listen`. -/
def link (s : Host) (new : Tcb) (thread : OpeningThread) : Host :=
  { s with
    tcbHead := listAdd new s.tcbHead
    created := s.created + 1
    call := Function.update s.call s.created { thread, asleep := false, closing := none }
    quiet := Function.update s.quiet s.created 0
    peerClosed := Function.update s.peerClosed s.created false }

/-- Put a TCB back. -/
def putTcb (s : Host) (t : Tcb) : Host :=
  { s with tcbHead := store Tcb.addr t s.tcbHead }

/-- Change what is known of a call. -/
def putCall (s : Host) (addr : Nat) (call : Call) : Host :=
  { s with call := Function.update s.call addr call }

/-- The next step of the thread inside `tcp_connect` or `tcp_listen`.  It goes to
sleep when the condition it waits for is false.  A `tcp_connect` that fails
unlinks its TCB and frees it, but not the receive buffer. -/
def threadStep (s : Host) (addr : Nat) : Option Host :=
  let call := s.call addr
  if call.asleep then none
  else
    (lookup Tcb.addr addr s.tcbHead).bind fun t =>
      match call.thread.step t with
      | some (.returned false, _) =>
          some { s.putCall addr { call with thread := .returned false } with
            tcbHead := remove Tcb.addr addr s.tcbHead
            freed := s.freed ++ [.tcb addr] }
      | some (next, _) => some (s.putCall addr { call with thread := next })
      | none =>
          match call.thread with
          | .returned _ => none
          | _ => some (s.putCall addr { call with asleep := true })

/-- Wake everybody on `tcp_waitq`. -/
def wakeup (s : Host) : Host :=
  { s with call := fun addr => { s.call addr with asleep := false } }

/-- Note that a connection has been heard of. -/
def hear (s : Host) (segment : Segment) : Host :=
  match selected s.tcbHead segment with
  | none => s
  | some t =>
      { s with
        quiet := Function.update s.quiet t.addr 0
        peerClosed := Function.update s.peerClosed t.addr
          (s.peerClosed t.addr || t.state = .established && segment.header.fin) }

/-- `tcp_rx_packet`.  It does not come back from `get_mem` when the heap has no room for
the answer. -/
def rxPacket (s : Host) (segment : Segment) (heap : SharedHeap H) : Host :=
  match rxSegment s.tcbHead segment.srcIp segment.header segment.data segment.dataLen with
  | none => { s with stopped := true }
  | some outcome =>
      match tcpTxsHeap mem heap outcome.sent with
      | none => { s with stopped := true }
      | some _ =>
          let s := { s.hear segment with tcbHead := outcome.tcbHead }
          if outcome.wakeup then s.wakeup else s

/-- The TCB of a connection that `tcp_connect` or `tcp_listen` has returned. -/
def connection (s : Host) (addr : Nat) : Option Tcb :=
  if (s.call addr).thread = .returned true then lookup Tcb.addr addr s.tcbHead else none

/-- `tcp_close`, up to the transmitted FIN. -/
def close (s : Host) (addr : Nat) : Option Host :=
  if (s.call addr).closing = none then
    (s.connection addr).bind fun t =>
      (tcpClose t).map fun called =>
        s.putCall addr { s.call addr with closing := some called.1 }
  else none

/-- The rest of `tcp_close`. -/
def closeReturn (s : Host) (addr : Nat) : Option Host :=
  (s.call addr).closing.bind fun thread =>
    (s.connection addr).map fun t =>
      { (s.putTcb (tcpCloseReturn t thread)).putCall addr { s.call addr with closing := none } with
        peerClosed := Function.update s.peerClosed addr false }

/-- `tcp_tick`. -/
def tick (s : Host) : Host :=
  { s with
    tcbHead := tcpTick s.tcbHead
    freed := s.freed ++ s.tcbHead.flatMap tickTcbFreed
    quiet := fun addr => s.quiet addr + 1 }

/-- One event on a host that has not stopped. -/
def act (s : Host) : HostEvent H → Option Host
  | .connect port ip block size =>
      let new := tcpConnectTcb s.created port ip block size
      some (s.link new (.connectLinked (tcpConnectSyn new)))
  | .listen port block size =>
      some (s.link (tcpListenTcb s.created port block size) .listenWaiting)
  | .thread addr => s.threadStep addr
  | .rx segment heap => some (s.rxPacket mem segment heap)
  | .txData addr data =>
      (s.connection addr).bind fun t => (tcpTxData t data).map fun sent => s.putTcb sent.1
  | .rxData addr len =>
      (s.connection addr).bind fun t => (tcpRxDataRound t len).map fun read => s.putTcb read.2
  | .close addr => s.close addr
  | .closeReturn addr => s.closeReturn addr
  | .tick => some s.tick

/-- Nothing happens on a host that has stopped. -/
def step : Step Host (HostEvent H)
  | s, event => if s.stopped then none else s.act mem event

/-- `tcp_rx_packet` answers the segment. -/
def Answers (s : Host) (segment : Segment) : Prop :=
  match selected s.tcbHead segment with
  | none => segment.header.rst = false
  | some t => t.Answers segment

end Host

section Receive

variable {tcbHead : List Tcb} {segment : Segment}

theorem findTcb_lt {index : Nat} {srcIp : UInt32} {incoming : TcpHeader}
    (position : findTcb tcbHead srcIp incoming = some index) : index < tcbHead.length := by
  rcases Option.or_eq_some_iff.mp position with connected | ⟨_, listening⟩
  · rcases List.findIdx?_eq_some_iff_getElem.mp connected with ⟨within, _⟩
    exact within
  · rcases List.findIdx?_eq_some_iff_getElem.mp listening with ⟨within, _⟩
    exact within

/-- The two searches, one after the other. -/
theorem selected_eq :
    selected tcbHead segment =
      (tcbHead.find? fun i => i.matchesConnection segment.srcIp segment.header).or
        (tcbHead.find? fun i => i.acceptsConnection segment.header) := by
  rw [selected, findTcb, List.find?_eq_bind_findIdx?_getElem?,
    List.find?_eq_bind_findIdx?_getElem?]
  cases connected : tcbHead.findIdx? fun i => i.matchesConnection segment.srcIp segment.header with
  | none => rfl
  | some index =>
      rcases List.findIdx?_eq_some_iff_getElem.mp connected with ⟨within, _⟩
      rw [Option.some_or, Option.bind_some, List.getElem?_eq_getElem within, Option.some_or]

theorem selected_mem {t : Tcb} (found : selected tcbHead segment = some t) : t ∈ tcbHead := by
  rcases Option.bind_eq_some_iff.mp found with ⟨index, _, entry⟩
  exact List.mem_of_getElem? entry

/-- The receive function on a list of TCBs with distinct addresses. -/
theorem rxSegment_of_selected {t : Tcb} (distinct : (tcbHead.map Tcb.addr).Nodup)
    (found : selected tcbHead segment = some t) :
    rxSegment tcbHead segment.srcIp segment.header segment.data segment.dataLen =
      if t.state = .closeWait then none
      else some
        { tcbHead := store Tcb.addr (t.after segment) tcbHead
          sent := t.answer segment
          wakeup := true } := by
  rcases Option.bind_eq_some_iff.mp found with ⟨index, position, entry⟩
  have received : rxTcb t segment.srcIp segment.header segment.data segment.dataLen =
      t.receive segment := rfl
  simp only [rxSegment, position, entry, received]
  split
  · rename_i closeWait
    rw [receive_closeWait segment closeWait]
    rfl
  · rename_i open_
    rw [receive_eq segment open_, Option.map_some]
    simp only
    rw [set_eq_store distinct entry (after_addr segment).symm]

theorem rxSegment_of_none (nobody : selected tcbHead segment = none) :
    rxSegment tcbHead segment.srcIp segment.header segment.data segment.dataLen = some
      { tcbHead
        sent := rxNoTcb segment.srcIp segment.header segment.dataLen
        wakeup := false } := by
  cases position : findTcb tcbHead segment.srcIp segment.header with
  | none => simp only [rxSegment, position]
  | some index =>
      rw [selected, position, Option.bind_some, List.getElem?_eq_none_iff] at nobody
      exact absurd (findTcb_lt position) (Nat.not_lt.mpr nobody)

end Receive

/-- A connection as the host sees it. -/
structure View where
  tcb : Tcb
  call : Call
  quiet : Nat
  peerClosed : Bool

/-- A thread inside `tcp_connect`. -/
def OpeningThread.Connecting : OpeningThread → Prop
  | .connectLinked _ | .connectWaiting => True
  | .listenWaiting | .listenWoken | .listenPrepared _ | .listenAnswered | .returned _ => False

/-- No step leads back into `tcp_connect`. -/
theorem OpeningThread.Moves.connecting {t : Tcb} {thread next : OpeningThread}
    {sent : Option TcpTx} (moves : OpeningThread.Moves t thread next sent)
    (inside : next.Connecting) : thread.Connecting := by
  cases moves with
  | synSent syn => trivial
  | connectReturns _ => trivial
  | woken _ => exact inside
  | prepared => exact inside
  | synAckSent synAck => exact inside
  | listenReturns _ => exact inside

namespace Host

variable {H B : Type} [DecidableEq B] {mem : Allocator H B}

/-- The connection of a TCB. -/
def view (s : Host) (t : Tcb) : View where
  tcb := t
  call := s.call t.addr
  quiet := s.quiet t.addr
  peerClosed := s.peerClosed t.addr

/-- What a step can make of the connection of `t`, if its TCB stays on the
list. -/
inductive Evolves (s : Host) (t : Tcb) : HostEvent H → View → Prop
  | unchanged {event : HostEvent H} : Evolves s t event (s.view t)
  | moved {addr : Nat} {next : OpeningThread} {sent : Option TcpTx} :
      OpeningThread.Moves t (s.call t.addr).thread next sent →
      Evolves s t (.thread addr) { s.view t with call := { s.call t.addr with thread := next } }
  | slept {addr : Nat} : (s.call t.addr).thread.step t = none →
      Evolves s t (.thread addr) { s.view t with call := { s.call t.addr with asleep := true } }
  | woken {segment : Segment} {heap : SharedHeap H} :
      Evolves s t (.rx segment heap)
        { s.view t with call := { s.call t.addr with asleep := false } }
  | heard {segment : Segment} {heap : SharedHeap H} :
      selected s.tcbHead segment = some t → t.state ≠ .closeWait →
      Evolves s t (.rx segment heap)
        { tcb := t.after segment
          call := { s.call t.addr with asleep := false }
          quiet := 0
          peerClosed := s.peerClosed t.addr || t.state = .established && segment.header.fin }
  | sent {addr : Nat} {data : List UInt8} {unackedByteCount : UInt32} :
      Evolves s t (.txData addr data) { s.view t with tcb := { t with unackedByteCount } }
  | read {addr : Nat} {len : UInt32} {rxBuf : Cbuf.LiveBuf} :
      Evolves s t (.rxData addr len) { s.view t with tcb := { t with rxBuf } }
  | closing {addr : Nat} {thread : ClosingThread} : (s.call t.addr).thread = .returned true →
      t.state = .established ∨ t.state = .closeWait →
      Evolves s t (.close addr)
        { s.view t with call := { s.call t.addr with closing := some thread } }
  | closed {addr : Nat} {thread : ClosingThread} : (s.call t.addr).closing = some thread →
      Evolves s t (.closeReturn addr)
        { s.view t with
          tcb := tcpCloseReturn t thread
          call := { s.call t.addr with closing := none }
          peerClosed := false }
  | ticked {after : Tcb} : tickTcb t = some after →
      Evolves s t .tick { s.view t with tcb := after, quiet := s.quiet t.addr + 1 }

/-- A connection that has just been created. -/
inductive Created (s : Host) : HostEvent H → View → Prop
  | connect {port : UInt16} {ip : UInt32} {block : List UInt8}
      {size : block.length = tcpBufSz.toNat} :
      Created s (.connect port ip block size)
        { tcb := tcpConnectTcb s.created port ip block size
          call :=
            { thread := .connectLinked (tcpConnectSyn (tcpConnectTcb s.created port ip block size))
              asleep := false
              closing := none }
          quiet := 0
          peerClosed := false }
  | listen {port : UInt16} {block : List UInt8} {size : block.length = tcpBufSz.toNat} :
      Created s (.listen port block size)
        { tcb := tcpListenTcb s.created port block size
          call := { thread := .listenWaiting, asleep := false, closing := none }
          quiet := 0
          peerClosed := false }

section Step

variable {s after : Host}

theorem step_eq_some {event : HostEvent H} (taken : step mem s event = some after) :
    s.stopped = false ∧ s.act mem event = some after := by
  rcases Option.ite_none_left_eq_some.mp taken with ⟨going, taken⟩
  exact ⟨eq_false_of_ne_true going, taken⟩

/-- The connection of a TCB that another call does not own. -/
theorem view_putCall_of_ne {addr : Nat} {call : Call} {t : Tcb} (other : t.addr ≠ addr) :
    (s.putCall addr call).view t = s.view t := by
  simp [view, putCall, Function.update_of_ne other]

theorem view_putCall {addr : Nat} {call : Call} {t : Tcb} (same : t.addr = addr) :
    (s.putCall addr call).view t = { s.view t with call } := by
  simp [view, putCall, same]

/-- Only `tcp_connect` fails. -/
theorem failed_of_step {thread : OpeningThread} {t : Tcb} {sent : Option TcpTx}
    (moved : thread.step t = some (.returned false, sent)) :
    thread = .connectWaiting ∧ t.state ≠ .synSent ∧ t.state ≠ .established := by
  cases thread with
  | connectWaiting =>
      rcases Option.ite_none_right_eq_some.mp moved with ⟨answered, moved⟩
      refine ⟨rfl, answered, ?_⟩
      intro established
      simp [established] at moved
  | connectLinked syn => cases moved
  | listenWaiting =>
      rcases Option.ite_none_right_eq_some.mp moved with ⟨_, moved⟩
      cases moved
  | listenWoken => cases moved
  | listenPrepared synAck => cases moved
  | listenAnswered =>
      rcases Option.ite_none_right_eq_some.mp moved with ⟨_, moved⟩
      cases moved
  | returned success => cases moved

/-- What the next step of a thread inside `tcp_connect` or `tcp_listen` does. -/
inductive ThreadStepped (s : Host) (addr : Nat) (t : Tcb) : Host → Prop
  | moved {next : OpeningThread} {sent : Option TcpTx} :
      OpeningThread.Moves t (s.call addr).thread next sent → next ≠ .returned false →
      ThreadStepped s addr t (s.putCall addr { s.call addr with thread := next })
  | failed : (s.call addr).thread = .connectWaiting → t.state ≠ .synSent →
      t.state ≠ .established →
      ThreadStepped s addr t
        { s.putCall addr { s.call addr with thread := .returned false } with
          tcbHead := remove Tcb.addr addr s.tcbHead
          freed := s.freed ++ [.tcb addr] }
  | slept : (s.call addr).thread.step t = none →
      ThreadStepped s addr t (s.putCall addr { s.call addr with asleep := true })

theorem threadStepped_of_step {addr : Nat} (taken : s.threadStep addr = some after) :
    ∃ t ∈ s.tcbHead, t.addr = addr ∧ ThreadStepped s addr t after := by
  simp only [threadStep] at taken
  split at taken
  · contradiction
  · rcases Option.bind_eq_some_iff.mp taken with ⟨t, found, taken⟩
    rcases lookup_eq_some found with ⟨member, same⟩
    refine ⟨t, member, same, ?_⟩
    split at taken
    · rename_i sent moved
      cases taken
      rcases failed_of_step moved with ⟨waiting, answered, refused⟩
      exact .failed waiting answered refused
    · rename_i next sent notFailed moved
      cases taken
      exact .moved (OpeningThread.moves_of_step moved) notFailed
    · rename_i asleep
      split at taken
      · contradiction
      · cases taken
        exact .slept asleep

theorem connection_eq_some {addr : Nat} {t : Tcb} (found : s.connection addr = some t) :
    (s.call addr).thread = .returned true ∧ t ∈ s.tcbHead ∧ t.addr = addr := by
  rcases Option.ite_none_right_eq_some.mp found with ⟨returned, found⟩
  exact ⟨returned, lookup_eq_some found⟩

theorem close_eq_some {addr : Nat} (taken : s.close addr = some after) :
    ∃ t ∈ s.tcbHead, t.addr = addr ∧ (s.call addr).thread = .returned true ∧
      (t.state = .established ∨ t.state = .closeWait) ∧ ∃ thread,
        after = s.putCall addr { s.call addr with closing := some thread } := by
  rcases Option.ite_none_right_eq_some.mp taken with ⟨_, taken⟩
  rcases Option.bind_eq_some_iff.mp taken with ⟨t, found, taken⟩
  rcases Option.map_eq_some_iff.mp taken with ⟨⟨thread, tx⟩, called, rfl⟩
  rcases connection_eq_some found with ⟨returned, member, same⟩
  rcases tcpClose_eq_some called with ⟨state, _⟩
  refine ⟨t, member, same, returned, ?_, thread, rfl⟩
  rcases state with ⟨closeWait, _⟩ | ⟨established, _⟩
  · exact .inr closeWait
  · exact .inl established

theorem closeReturn_eq_some {addr : Nat} (taken : s.closeReturn addr = some after) :
    ∃ t ∈ s.tcbHead, t.addr = addr ∧ ∃ thread, (s.call addr).closing = some thread ∧
      after =
        { (s.putTcb (tcpCloseReturn t thread)).putCall addr
            { s.call addr with closing := none } with
          peerClosed := Function.update s.peerClosed addr false } := by
  rcases Option.bind_eq_some_iff.mp taken with ⟨thread, closing, taken⟩
  rcases Option.map_eq_some_iff.mp taken with ⟨t, found, rfl⟩
  rcases connection_eq_some found with ⟨_, member, same⟩
  exact ⟨t, member, same, thread, closing, rfl⟩

variable (mem) in
/-- What a segment does to the host. -/
inductive Received (s : Host) (segment : Segment) (heap : SharedHeap H) : Host → Prop
  | nobody : selected s.tcbHead segment = none →
      (s.Answers segment → RoomForSegment mem heap) → Received s segment heap s
  | trapped {t : Tcb} : selected s.tcbHead segment = some t → t.state = .closeWait →
      Received s segment heap { s with stopped := true }
  | exhausted : s.Answers segment → ¬RoomForSegment mem heap →
      Received s segment heap { s with stopped := true }
  | heard {t : Tcb} : selected s.tcbHead segment = some t → t.state ≠ .closeWait →
      (s.Answers segment → RoomForSegment mem heap) →
      Received s segment heap
        { s with
          tcbHead := store Tcb.addr (t.after segment) s.tcbHead
          call := fun addr => { s.call addr with asleep := false }
          quiet := Function.update s.quiet t.addr 0
          peerClosed := Function.update s.peerClosed t.addr
            (s.peerClosed t.addr || t.state = .established && segment.header.fin) }

/-- Nothing is asked of the heap for a segment that is not answered, and room for one
segment for any other. -/
theorem sent_of_rxSegment (mem : Allocator H B) (distinct : (s.tcbHead.map Tcb.addr).Nodup)
    {segment : Segment} {outcome : HostOutcome}
    (received : rxSegment s.tcbHead segment.srcIp segment.header segment.data segment.dataLen =
      some outcome) (heap : SharedHeap H) :
    tcpTxsHeap mem heap outcome.sent = none ↔
      s.Answers segment ∧ ¬RoomForSegment mem heap := by
  unfold Answers
  have silent : tcpTxsHeap mem heap [] ≠ none := Option.some_ne_none _
  cases found : selected s.tcbHead segment with
  | none =>
      rw [rxSegment_of_none found] at received
      cases received
      dsimp only
      by_cases rst : segment.header.rst = true
      · rw [rxNoTcb_of_rst rst]
        simp [silent, rst]
      · have noRst := eq_false_of_ne_true rst
        rcases rxNoTcb_of_not_rst noRst with ⟨header, destIp, answer⟩
        rw [answer, tcpTxsHeap_eq_none_iff]
        simp [noRst]
  | some t =>
      rw [rxSegment_of_selected distinct found] at received
      rcases Option.ite_none_left_eq_some.mp received with ⟨_, received⟩
      cases received
      dsimp only
      by_cases answers : t.Answers segment
      · rcases answer_of_answers answers with ⟨header, destIp, answer⟩
        rw [answer, tcpTxsHeap_eq_none_iff]
        simp [answers]
      · rw [answer_of_not_answers answers]
        simp [silent, answers]

theorem received_rxPacket (mem : Allocator H B) (distinct : (s.tcbHead.map Tcb.addr).Nodup)
    (segment : Segment) (heap : SharedHeap H) :
    Received mem s segment heap (s.rxPacket mem segment heap) := by
  unfold rxPacket
  cases found : selected s.tcbHead segment with
  | none =>
      have received := rxSegment_of_none found
      have asked := sent_of_rxSegment mem distinct received heap
      rw [received]
      dsimp only at asked ⊢
      split
      · rename_i exhausted
        have short := asked.mp exhausted
        exact .exhausted short.1 short.2
      · rename_i room
        simp only [hear, found, Bool.false_eq_true, if_false]
        refine .nobody found fun answers => ?_
        by_contra short
        rw [asked.mpr ⟨answers, short⟩] at room
        contradiction
  | some t =>
      have received := rxSegment_of_selected distinct found
      rw [received]
      by_cases closeWait : t.state = .closeWait
      · rw [if_pos closeWait]
        exact .trapped found closeWait
      · rw [if_neg closeWait] at received ⊢
        have asked := sent_of_rxSegment mem distinct received heap
        dsimp only at asked ⊢
        split
        · rename_i exhausted
          have short := asked.mp exhausted
          exact .exhausted short.1 short.2
        · rename_i room
          simp only [hear, found, if_true]
          refine .heard found closeWait fun answers => ?_
          by_contra short
          rw [asked.mpr ⟨answers, short⟩] at room
          contradiction

/-- A new TCB takes an address that no TCB has. -/
theorem view_link_of_lt {new t : Tcb} {thread : OpeningThread} (below : t.addr < s.created) :
    (s.link new thread).view t = s.view t := by
  have other := Nat.ne_of_lt below
  simp [view, link, Function.update_of_ne other]

theorem view_link {new : Tcb} {thread : OpeningThread} (addr : new.addr = s.created) :
    (s.link new thread).view new =
      { tcb := new
        call := { thread, asleep := false, closing := none }
        quiet := 0
        peerClosed := false } := by
  simp [view, link, addr]

/-- A TCB that is put back, among the others. -/
theorem evolves_putTcb {event : HostEvent H} {t new t' : Tcb} (member : t ∈ s.tcbHead)
    (same : t.addr = new.addr) (evolves : Evolves s t event (s.view new))
    (member' : t' ∈ store Tcb.addr new s.tcbHead) :
    ∃ t ∈ s.tcbHead, t.addr = t'.addr ∧ Evolves s t event (s.view t') := by
  rcases mem_store member' with rfl | ⟨untouched, _⟩
  · exact ⟨t, member, same, evolves⟩
  · exact ⟨t', untouched, rfl, .unchanged⟩

/-- A call that moves on, among the others. -/
theorem evolves_putCall {event : HostEvent H} {addr : Nat} {call : Call} {t t' : Tcb}
    (distinct : (s.tcbHead.map Tcb.addr).Nodup) (member : t ∈ s.tcbHead) (same : t.addr = addr)
    (evolves : Evolves s t event { s.view t with call }) (member' : t' ∈ s.tcbHead) :
    Evolves s t' event ((s.putCall addr call).view t') := by
  by_cases own : t'.addr = addr
  · cases eq_of_key distinct member member' (same.trans own.symm)
    rw [view_putCall own]
    exact evolves
  · rw [view_putCall_of_ne own]
    exact .unchanged

theorem evolves_of_threadStepped {addr : Nat} {t t' : Tcb}
    (distinct : (s.tcbHead.map Tcb.addr).Nodup) (member : t ∈ s.tcbHead) (same : t.addr = addr)
    (stepped : ThreadStepped s addr t after) (member' : t' ∈ after.tcbHead) :
    t' ∈ s.tcbHead ∧ Evolves (H := H) s t' (.thread addr) (after.view t') := by
  subst same
  cases stepped with
  | moved moves _ =>
      exact ⟨member', evolves_putCall distinct member rfl (.moved moves) member'⟩
  | slept asleep =>
      exact ⟨member', evolves_putCall distinct member rfl (.slept asleep) member'⟩
  | failed _ _ _ =>
      rcases mem_remove.mp member' with ⟨kept, other⟩
      refine ⟨kept, ?_⟩
      have unchanged : (s.putCall t.addr
          { s.call t.addr with thread := .returned false }).view t' = s.view t' :=
        view_putCall_of_ne other
      change Evolves s t' _ ((s.putCall t.addr
        { s.call t.addr with thread := .returned false }).view t')
      rw [unchanged]
      exact .unchanged

theorem evolves_of_received {segment : Segment} {heap : SharedHeap H} {t' : Tcb}
    (received : Received mem s segment heap after) (member : t' ∈ after.tcbHead) :
    ∃ t ∈ s.tcbHead, t.addr = t'.addr ∧ Evolves s t (.rx segment heap) (after.view t') := by
  cases received with
  | nobody _ _ => exact ⟨t', member, rfl, .unchanged⟩
  | trapped _ _ => exact ⟨t', member, rfl, .unchanged⟩
  | exhausted _ _ => exact ⟨t', member, rfl, .unchanged⟩
  | @heard t found open_ _ =>
      have addr : (t.after segment).addr = t.addr := after_addr segment
      rcases mem_store member with rfl | ⟨untouched, other⟩
      · refine ⟨t, selected_mem found, addr.symm, ?_⟩
        have heard : Evolves s t (.rx segment heap) _ := .heard found open_
        simpa [view, addr] using heard
      · refine ⟨t', untouched, rfl, ?_⟩
        rw [addr] at other
        have woken : Evolves s t' (.rx segment heap) _ := .woken
        simpa [view, Function.update_of_ne other] using woken

/-- Every connection on the list after a step is new, or has evolved from the one
with the same address. -/
theorem evolves_of_step {event : HostEvent H} {t' : Tcb}
    (distinct : (s.tcbHead.map Tcb.addr).Nodup) (below : ∀ t ∈ s.tcbHead, t.addr < s.created)
    (taken : step mem s event = some after) (member : t' ∈ after.tcbHead) :
    Created s event (after.view t') ∨
      ∃ t ∈ s.tcbHead, t.addr = t'.addr ∧ Evolves s t event (after.view t') := by
  rcases step_eq_some taken with ⟨_, taken⟩
  cases event with
  | connect port ip block size =>
      cases taken
      rcases List.mem_cons.mp member with rfl | old
      · left
        rw [view_link rfl]
        exact .connect
      · right
        refine ⟨t', old, rfl, ?_⟩
        rw [view_link_of_lt (below t' old)]
        exact .unchanged
  | listen port block size =>
      cases taken
      rcases List.mem_cons.mp member with rfl | old
      · left
        rw [view_link rfl]
        exact .listen
      · right
        refine ⟨t', old, rfl, ?_⟩
        rw [view_link_of_lt (below t' old)]
        exact .unchanged
  | thread addr =>
      rcases threadStepped_of_step taken with ⟨t, tMember, same, stepped⟩
      rcases evolves_of_threadStepped distinct tMember same stepped member with ⟨kept, evolves⟩
      exact .inr ⟨t', kept, rfl, evolves⟩
  | rx segment heap =>
      cases taken
      exact .inr (evolves_of_received (received_rxPacket mem distinct segment heap) member)
  | txData addr data =>
      rcases Option.bind_eq_some_iff.mp taken with ⟨t, found, taken⟩
      rcases Option.map_eq_some_iff.mp taken with ⟨sent, transmitted, rfl⟩
      rcases tcpTxData_eq_some transmitted with ⟨_, rfl⟩
      rcases connection_eq_some found with ⟨_, tMember, _⟩
      have evolves : Evolves (H := H) s t (.txData addr data) (s.view { t with
          unackedByteCount := t.unackedByteCount + UInt32.ofNat data.length }) := .sent
      right
      apply evolves_putTcb tMember _ evolves member
      rfl
  | rxData addr len =>
      rcases Option.bind_eq_some_iff.mp taken with ⟨t, found, taken⟩
      rcases Option.map_eq_some_iff.mp taken with ⟨⟨bytes, read⟩, popped, rfl⟩
      rcases tcpRxDataRound_eq_some popped with ⟨rxBuf, rfl, _, _⟩
      rcases connection_eq_some found with ⟨_, tMember, _⟩
      have evolves : Evolves (H := H) s t (.rxData addr len) (s.view { t with rxBuf }) := .read
      right
      apply evolves_putTcb tMember _ evolves member
      rfl
  | close addr =>
      rcases close_eq_some taken with ⟨t, tMember, same, returned, state, thread, rfl⟩
      subst same
      exact .inr ⟨t', member, rfl,
        evolves_putCall distinct tMember rfl (.closing returned state) member⟩
  | closeReturn addr =>
      rcases closeReturn_eq_some taken with ⟨t, tMember, same, thread, closing, rfl⟩
      subst same
      right
      rcases mem_store member with rfl | ⟨untouched, other⟩
      · have own : (tcpCloseReturn t thread).addr = t.addr := by
          cases thread <;> rfl
        refine ⟨t, tMember, own.symm, ?_⟩
        have closed : Evolves (H := H) s t (.closeReturn t.addr) _ := .closed closing
        simpa [view, putTcb, putCall, own] using closed
      · have own : (tcpCloseReturn t thread).addr = t.addr := by
          cases thread <;> rfl
        rw [own] at other
        refine ⟨t', untouched, rfl, ?_⟩
        have unchanged : Evolves (H := H) s t' (.closeReturn t.addr) _ := .unchanged
        simpa [view, putTcb, putCall, Function.update_of_ne other] using unchanged
  | tick =>
      cases taken
      rcases List.mem_filterMap.mp member with ⟨t, tMember, ticked⟩
      rcases tickTcb_frame ticked with ⟨addr, _⟩
      refine .inr ⟨t, tMember, addr.symm, ?_⟩
      have evolved : Evolves (H := H) s t .tick _ := .ticked ticked
      simpa [view, tick, addr] using evolved

end Step

end Host

end Lpc17xx.Tcp
