import Lpc17xx.Tcp.PairOpen

/-!
# Two endpoints agree

Every state that the pair can reach is either one of the stages in which the
connection is opened or refused, where nothing has been sent, or represents two
sound flows.  What the two hosts know of each other follows from the flows.
-/

namespace Lpc17xx.Tcp

open Lpc17xx.Cbuf
open Lpc17xx.Serial
open Lpc17xx.Stream
open Lpc17xx.Transition

/-- The bytes returned by `tcp_rx_data` followed by the content of `rx_buf`. -/
def Endpoint.delivered (endpoint : Endpoint) : List UInt8 :=
  endpoint.popped ++ (endpoint.tcb.map fun t => t.rxBuf.contents).getD []

/-- A host with its TCB and the thread of its call, before anything was sent. -/
def Endpoint.called (t : Tcb) (thread : OpeningThread) (lastWindow : UInt16) : Endpoint :=
  { Endpoint.start with tcb := some t, thread := some thread, lastWindow := lastWindow }

namespace Pair

/-- Both ends are `ESTABLISHED`. -/
def Open (s : Pair) : Prop :=
  ∀ side, ∃ t, (s.ends side).tcb = some t ∧ t.state = .established

/-- What the two hosts guarantee each other.  The counters of an open connection
account for all bytes sent; the receiver has a prefix of the bytes sent, and all
of them once nothing is unacknowledged; and the next payload for an established
TCB fits into its `rx_buf`. -/
structure Consistent (s : Pair) : Prop where
  accounted : s.Open → ∀ side t, (s.ends side).tcb = some t →
    t.curSeqN + t.unackedByteCount = isn + 1 + UInt32.ofNat (s.ends side).sent.length
  ordered : ∀ side, (s.ends side.other).delivered <+: (s.ends side).sent
  complete : ∀ side t, (s.ends side).tcb = some t → t.unackedByteCount = 0 →
    (s.ends side.other).delivered = (s.ends side).sent
  accepted : ∀ side t tx rest, (s.ends side).tcb = some t → t.state = .established →
    s.wire side.other = tx :: rest → tx.payload.length ≤ t.rxBuf.curCapacity.toNat

variable (hosts : Addresses)

/-- The TCB of `tcp_connect`. -/
def Calls (t : Tcb) : Prop :=
  ∃ addr block size, t = tcpConnectTcb addr hosts.port (hosts.ip .listening) block size

/-- The TCB of `tcp_listen`. -/
def Listens (t : Tcb) : Prop :=
  ∃ addr block size, t = tcpListenTcb addr hosts.port block size

/-- The connecting host and its channel until the SYN is taken. -/
inductive Caller : Endpoint → List TcpTx → Prop
  | idle : Caller Endpoint.start []
  | linked {t : Tcb} : Calls hosts t → Caller (.called t (.connectLinked (tcpConnectSyn t)) 0) []
  | waiting {t : Tcb} : Calls hosts t → Caller (.called t .connectWaiting 0) [tcpConnectSyn t]

/-- The listening host before it takes a SYN. -/
inductive Callee : Endpoint → Prop
  | idle {lastWindow : UInt16} : Callee { Endpoint.start with lastWindow := lastWindow }
  | waiting {t : Tcb} {lastWindow : UInt16} : Listens hosts t →
      Callee (.called t .listenWaiting lastWindow)

/-- The connecting host, and the channel to it, after a SYN that came before
`tcp_listen`. -/
inductive Refused : Endpoint → List TcpTx → Prop
  | pending {t : Tcb} : Calls hosts t →
      Refused (.called t .connectWaiting 0)
        (rxNoTcb (hosts.ip .connecting) (tcpConnectSyn t).header 0)
  | closed {t : Tcb} {lastWindow : UInt16} : t.state = .closed → t.rxBuf.contents = [] →
      Refused (.called t .connectWaiting lastWindow) []
  | freed {lastWindow : UInt16} :
      Refused { Endpoint.start with
        thread := some (.returned false), lastWindow := lastWindow } []

/-- The TCB of the listener once it has taken the SYN. -/
structure Answers (t : Tcb) : Prop where
  named : Named hosts .listening t
  state : t.state = .synReceived
  curSeqN : t.curSeqN = isn
  curAckN : t.curAckN = isn + 1
  unacked : t.unackedByteCount = 0
  contents : t.rxBuf.contents = []
  capacity : t.rxBuf.curCapacity = tcpBufSz

/-- The listening host and its channel between the SYN and the SYN+ACK being
taken. -/
inductive Answering : Endpoint → List TcpTx → Prop
  | waiting {t : Tcb} : Answers hosts t → Answering (.called t .listenWaiting 127) []
  | woken {t : Tcb} : Answers hosts t → Answering (.called t .listenWoken 127) []
  | prepared {t : Tcb} : Answers hosts t →
      Answering (.called t (.listenPrepared (tcpListenSynAck t)) 127) []
  | answered {t : Tcb} : Answers hosts t →
      Answering (.called t .listenAnswered 127) [⟨tcpListenSynAck t, t.dstIp, []⟩]

/-- The stages of the pair. -/
inductive Stage (s : Pair) : Prop
  | calling : Caller hosts (s.ends .connecting) (s.wire .connecting) →
      Callee hosts (s.ends .listening) → s.wire .listening = [] → Stage s
  | refused : Refused hosts (s.ends .connecting) (s.wire .listening) →
      Callee hosts (s.ends .listening) → s.wire .connecting = [] → Stage s
  | answering {t : Tcb} : Calls hosts t → s.ends .connecting = .called t .connectWaiting 0 →
      s.wire .connecting = [] → Answering hosts (s.ends .listening) (s.wire .listening) → Stage s
  | talking {flow : Side → Flow UInt8} : Talking hosts s flow → Stage s

theorem stage_start : Stage hosts start :=
  .calling .idle .idle rfl

/-- An end that has neither sent nor received a byte and is not open. -/
structure Silent (endpoint : Endpoint) : Prop where
  sending : endpoint.sending = false
  sent : endpoint.sent = []
  delivered : endpoint.delivered = []
  thread : endpoint.thread ≠ some (.returned true)
  tcb : ∀ t, endpoint.tcb = some t → t.state ≠ .established

theorem silent_called {t : Tcb} {thread : OpeningThread} {lastWindow : UInt16}
    (closed : t.state ≠ .established) (empty : t.rxBuf.contents = [])
    (opening : thread ≠ .returned true) : Silent (.called t thread lastWindow) where
  sending := rfl
  sent := rfl
  delivered := empty
  thread same := opening (Option.some.inj same)
  tcb _ same := Option.some.inj same ▸ closed

theorem silent_start (lastWindow : UInt16) :
    Silent { Endpoint.start with lastWindow := lastWindow } where
  sending := rfl
  sent := rfl
  delivered := rfl
  thread same := nomatch same
  tcb _ same := nomatch same

section

variable {hosts} {endpoint : Endpoint} {wire : List TcpTx}

theorem silent_calls {t : Tcb} {thread : OpeningThread} {lastWindow : UInt16}
    (calls : Calls hosts t) (opening : thread ≠ .returned true) :
    Silent (.called t thread lastWindow) := by
  rcases calls with ⟨addr, block, size, rfl⟩
  refine silent_called (fun same => nomatch same) ?_ opening
  exact contents_newRxBuf block size

theorem Caller.silent (caller : Caller hosts endpoint wire) : Silent endpoint := by
  cases caller with
  | idle => exact silent_start _
  | linked calls => exact silent_calls calls fun same => nomatch same
  | waiting calls => exact silent_calls calls fun same => nomatch same

theorem Callee.silent (callee : Callee hosts endpoint) : Silent endpoint := by
  cases callee with
  | idle => exact silent_start _
  | waiting listens =>
      rcases listens with ⟨addr, block, size, rfl⟩
      refine silent_called (fun same => nomatch same) ?_ fun same => nomatch same
      exact contents_newRxBuf block size

theorem Refused.silent (refused : Refused hosts endpoint wire) : Silent endpoint := by
  cases refused with
  | pending calls => exact silent_calls calls fun same => nomatch same
  | closed closed empty =>
      refine silent_called ?_ empty fun same => nomatch same
      rw [closed]
      exact fun same => nomatch same
  | freed => exact ⟨rfl, rfl, rfl, fun same => (nomatch same), fun _ same => nomatch same⟩

theorem Answering.silent (answering : Answering hosts endpoint wire) : Silent endpoint := by
  have closed {t : Tcb} (answers : Answers hosts t) : t.state ≠ .established := by
    rw [answers.state]
    exact fun same => nomatch same
  cases answering with
  | waiting answers | woken answers | prepared answers | answered answers =>
      exact silent_called (closed answers) answers.contents fun same => nomatch same

/-- Before the connection is open both ends are silent. -/
theorem Stage.silent_or_talking {s : Pair} (stage : Stage hosts s) :
    (∀ side, Silent (s.ends side)) ∨ ∃ flow, Talking hosts s flow := by
  cases stage with
  | calling caller callee _ => exact .inl (Side.forall_of .connecting caller.silent callee.silent)
  | refused refused callee _ =>
      exact .inl (Side.forall_of .connecting refused.silent callee.silent)
  | answering calls called _ answering =>
      refine .inl (Side.forall_of .connecting ?_ answering.silent)
      rw [called]
      exact silent_calls calls fun same => nomatch same
  | talking talking => exact .inr ⟨_, talking⟩

/-! ## The calls -/

theorem Caller.idle_of_unused (caller : Caller hosts endpoint wire)
    (unused : endpoint.thread = none) : endpoint = Endpoint.start ∧ wire = [] := by
  cases caller with
  | idle => exact ⟨rfl, rfl⟩
  | linked _ | waiting _ => exact nomatch unused

theorem Callee.idle_of_unused (callee : Callee hosts endpoint) (unused : endpoint.thread = none) :
    endpoint = { Endpoint.start with lastWindow := endpoint.lastWindow } := by
  cases callee with
  | idle => rfl
  | waiting _ => exact nomatch unused

theorem Refused.used (refused : Refused hosts endpoint wire) : endpoint.thread ≠ none := by
  cases refused with
  | pending _ | closed _ _ | freed => exact fun unused => nomatch unused

theorem Answering.used (answering : Answering hosts endpoint wire) : endpoint.thread ≠ none := by
  cases answering with
  | waiting _ | woken _ | prepared _ | answered _ => exact fun unused => nomatch unused

variable {s : Pair}

theorem used_of_talking {flow : Side → Flow UInt8} (talking : Talking hosts s flow) (side : Side) :
    (s.ends side).thread ≠ none := by
  intro unused
  rcases talking.speaks side with ⟨t, speaks⟩
  rcases speaks.phase with opened | answered
  · rcases opened.thread with thread | thread | thread
    · exact nomatch unused.symm.trans thread
    · exact nomatch unused.symm.trans thread
    · exact nomatch unused.symm.trans thread
  · exact nomatch unused.symm.trans answered.thread

theorem Stage.connect {t : Tcb} (stage : Stage hosts s) (calls : Calls hosts t)
    (unused : (s.ends .connecting).thread = none) :
    Stage hosts (s.put .connecting
      { s.ends .connecting with
        tcb := some t
        thread := some (.connectLinked (tcpConnectSyn t)) } []) := by
  cases stage with
  | calling caller callee quiet =>
      rcases caller.idle_of_unused unused with ⟨idle, empty⟩
      refine .calling ?_ callee quiet
      rw [put_ends_self, put_wire_self, idle, empty]
      exact .linked calls
  | refused refused _ _ => exact absurd unused refused.used
  | answering _ called _ _ =>
      rw [called] at unused
      exact nomatch unused
  | talking talking => exact absurd unused (used_of_talking talking .connecting)

theorem Stage.listen {t : Tcb} (stage : Stage hosts s) (listens : Listens hosts t)
    (unused : (s.ends .listening).thread = none) :
    Stage hosts (s.put .listening
      { s.ends .listening with tcb := some t, thread := some .listenWaiting } []) := by
  cases stage with
  | calling caller callee quiet =>
      refine .calling caller ?_ ?_
      · rw [put_ends_self, callee.idle_of_unused unused]
        exact .waiting listens
      · rw [put_wire_self, quiet, List.append_nil]
  | refused refused callee quiet =>
      refine .refused ?_ ?_ quiet
      · rw [put_wire_self, List.append_nil]
        exact refused
      · rw [put_ends_self, callee.idle_of_unused unused]
        exact .waiting listens
  | answering _ _ _ answering => exact absurd unused answering.used
  | talking talking => exact absurd unused (used_of_talking talking .listening)

/-! ## The steps of the calling threads -/

theorem Caller.thread {t : Tcb} {thread next : OpeningThread} {sent : Option TcpTx}
    (caller : Caller hosts endpoint wire) (tcb : endpoint.tcb = some t)
    (position : endpoint.thread = some thread) (moved : thread.Moves t next sent) :
    Caller hosts
      { endpoint with
        tcb := if next = .returned false then none else some t
        thread := some next } (wire ++ sent.toList) := by
  cases caller with
  | idle => exact nomatch tcb
  | linked calls =>
      cases tcb
      cases position
      cases moved
      exact .waiting calls
  | waiting calls =>
      cases tcb
      cases position
      rcases calls with ⟨addr, block, size, rfl⟩
      cases moved with
      | connectReturns answered => exact absurd rfl answered

theorem Callee.thread {t : Tcb} {thread next : OpeningThread} {sent : Option TcpTx}
    (callee : Callee hosts endpoint) (tcb : endpoint.tcb = some t)
    (position : endpoint.thread = some thread) : ¬thread.Moves t next sent := by
  intro moved
  cases callee with
  | idle => exact nomatch tcb
  | waiting listens =>
      cases tcb
      cases position
      rcases listens with ⟨addr, block, size, rfl⟩
      cases moved with
      | woken synReceived => exact nomatch synReceived

theorem Refused.thread {t : Tcb} {thread next : OpeningThread} {sent : Option TcpTx}
    (refused : Refused hosts endpoint wire) (tcb : endpoint.tcb = some t)
    (position : endpoint.thread = some thread) (moved : thread.Moves t next sent) :
    sent = none ∧
      Refused hosts
        { endpoint with
          tcb := if next = .returned false then none else some t
          thread := some next } wire := by
  cases refused with
  | pending calls =>
      cases tcb
      cases position
      rcases calls with ⟨addr, block, size, rfl⟩
      cases moved with
      | connectReturns answered => exact absurd rfl answered
  | closed closed _ =>
      cases tcb
      cases position
      cases moved with
      | connectReturns answered =>
          have failed : decide (t.state = .established) = false := by simp [closed]
          rw [failed]
          exact ⟨rfl, .freed⟩
  | freed => exact nomatch tcb

theorem Answering.thread {t : Tcb} {thread next : OpeningThread} {sent : Option TcpTx}
    (answering : Answering hosts endpoint wire) (tcb : endpoint.tcb = some t)
    (position : endpoint.thread = some thread) (moved : thread.Moves t next sent) :
    Answering hosts
      { endpoint with
        tcb := if next = .returned false then none else some t
        thread := some next } (wire ++ sent.toList) := by
  cases answering with
  | waiting answers =>
      cases tcb
      cases position
      cases moved
      exact .woken answers
  | woken answers =>
      cases tcb
      cases position
      cases moved
      exact .prepared answers
  | prepared answers =>
      cases tcb
      cases position
      cases moved
      exact .answered answers
  | answered answers =>
      cases tcb
      cases position
      cases moved with
      | listenReturns established => exact nomatch established.symm.trans answers.state

theorem Stage.thread {side : Side} {t : Tcb} {thread next : OpeningThread} {sent : Option TcpTx}
    (stage : Stage hosts s) (tcb : (s.ends side).tcb = some t)
    (position : (s.ends side).thread = some thread) (moved : thread.Moves t next sent) :
    Stage hosts (s.put side
      { s.ends side with
        tcb := if next = .returned false then none else some t
        thread := some next } sent.toList) := by
  cases stage with
  | calling caller callee quiet =>
      cases side with
      | connecting =>
          refine .calling ?_ callee quiet
          rw [put_ends_self, put_wire_self]
          exact caller.thread tcb position moved
      | listening => exact absurd moved (callee.thread tcb position)
  | refused refused callee quiet =>
      cases side with
      | connecting =>
          rcases refused.thread tcb position moved with ⟨rfl, refused⟩
          refine .refused ?_ callee ?_
          · rw [put_ends_self]
            exact refused
          · rw [put_wire_self, quiet]
            rfl
      | listening => exact absurd moved (callee.thread tcb position)
  | answering calls called quiet answering =>
      cases side with
      | connecting =>
          rw [called] at tcb position
          cases tcb
          cases position
          rcases calls with ⟨addr, block, size, rfl⟩
          cases moved with
          | connectReturns answered => exact absurd rfl answered
      | listening =>
          refine .answering calls called quiet ?_
          rw [put_ends_self, put_wire_self]
          exact answering.thread tcb position moved
  | talking talking =>
      rcases talking.speaks side with ⟨t', speaks⟩
      cases tcb.symm.trans speaks.tcb
      exact .talking (talking.thread speaks position moved)

/-! ## Delivery -/

/-- The only segment of a caller is its SYN. -/
theorem Caller.sent_of_pending {tx : TcpTx} {rest : List TcpTx}
    (caller : Caller hosts endpoint wire) (pending : wire = tx :: rest) :
    ∃ t, Calls hosts t ∧ endpoint = .called t .connectWaiting 0 ∧ tx = tcpConnectSyn t ∧
      rest = [] := by
  cases caller with
  | idle | linked _ => exact nomatch pending
  | waiting calls =>
      cases pending
      exact ⟨_, calls, rfl, rfl, rfl⟩

/-- A SYN that finds no listener is answered with a reset. -/
theorem Callee.refuses {t : Tcb} {lastWindow : UInt16} {srcIp : UInt32} :
    rxPacket { Endpoint.start with lastWindow := lastWindow } srcIp (tcpConnectSyn t) =
      some { tcbHead := [], sent := rxNoTcb srcIp (tcpConnectSyn t).header 0, wakeup := false } :=
  rfl

/-- A SYN that finds the listener is taken. -/
theorem Callee.takes {t caller : Tcb} {lastWindow : UInt16} {outcome : HostOutcome}
    (listens : Listens hosts t) (calls : Calls hosts caller)
    (received : rxPacket (.called t .listenWaiting lastWindow) (hosts.ip .connecting)
      (tcpConnectSyn caller) = some outcome) :
    ∃ after, outcome.tcbHead = [after] ∧ outcome.sent = [] ∧ Answers hosts after := by
  rcases listens with ⟨addr, block, size, rfl⟩
  rcases calls with ⟨addr', block', size', rfl⟩
  generalize listener : tcpListenTcb addr hosts.port block size = t at received
  generalize connector : tcpConnectTcb addr' hosts.port (hosts.ip .listening) block' size' = caller
    at received
  have other :
      t.matchesConnection (hosts.ip .connecting) (tcpConnectSyn caller).header = false := by
    rw [← listener, ← connector]
    simp [Tcb.matchesConnection, tcpConnectSyn, tcpConnectTcb, tcpListenTcb, tcpHeaderPrepopulate]
  have accepts : t.acceptsConnection (tcpConnectSyn caller).header = true := by
    rw [← listener, ← connector]
    simp [Tcb.acceptsConnection, tcpConnectSyn, tcpConnectTcb, tcpListenTcb, tcpHeaderPrepopulate]
  rw [rxPacket_of_found rfl (by simp [findTcb, other, accepts]),
    receive_listen _ (by rw [← listener]; rfl), Option.map_some, Option.some.injEq] at received
  cases received
  refine ⟨_, rfl, rfl, ?_⟩
  rw [← listener, ← connector]
  exact
    { named := ⟨rfl, rfl, rfl⟩
      state := rfl
      curSeqN := rfl
      curAckN := rfl
      unacked := rfl
      contents := contents_newRxBuf block size
      capacity := curCapacity_newRxBuf block size }

/-- A segment that answers the caller reaches its TCB. -/
theorem receive_of_rxPacket {t : Tcb} {tx : TcpTx} {outcome : HostOutcome} (calls : Calls hosts t)
    (sourcePort : tx.header.sourcePort = hosts.port) (destPort : tx.header.destPort = 65355)
    (received : rxPacket (.called t .connectWaiting 0) (hosts.ip .listening) tx = some outcome) :
    ∃ segment : Segment, segment.header = tx.header ∧
      outcome.tcbHead = [t.afterSynSent segment] ∧
      outcome.sent = if tx.header.syn && tx.header.ack then
        [⟨(t.afterSynSent segment).ackHeader, t.dstIp, []⟩] else [] := by
  have synSent : t.state = .synSent := by
    rcases calls with ⟨addr, block, size, rfl⟩
    rfl
  have named : Named hosts .connecting t := by
    rcases calls with ⟨addr, block, size, rfl⟩
    exact ⟨rfl, rfl, rfl⟩
  have answer := (rxPacket_named rfl named sourcePort destPort).symm.trans received
  rw [receive_synSent _ synSent, Option.map_some, Option.some.injEq] at answer
  cases answer
  exact ⟨_, rfl, rfl, rfl⟩

/-- A reset closes the connecting end. -/
theorem Refused.takes {t : Tcb} {tx : TcpTx} {rest : List TcpTx} {outcome : HostOutcome}
    (calls : Calls hosts t)
    (pending : rxNoTcb (hosts.ip .connecting) (tcpConnectSyn t).header 0 = tx :: rest)
    (received : rxPacket (.called t .connectWaiting 0) (hosts.ip .listening) tx = some outcome) :
    ∃ after, outcome.tcbHead = [after] ∧ outcome.sent = [] ∧ rest = [] ∧
      after.state = .closed ∧ after.rxBuf.contents = [] := by
  have shape : rest = [] ∧ tx.header.sourcePort = hosts.port ∧ tx.header.destPort = 65355 ∧
      tx.header.syn = false := by
    rcases calls with ⟨addr, block, size, rfl⟩
    cases pending
    exact ⟨rfl, rfl, rfl, rfl⟩
  rcases shape with ⟨last, sourcePort, destPort, noSyn⟩
  obtain ⟨segment, header, tcbHead, sent⟩ :=
    receive_of_rxPacket calls sourcePort destPort received
  have closes : t.afterSynSent segment = { t.disarm with state := .closed } := by
    simp [Tcb.afterSynSent, header, noSyn]
  refine ⟨_, tcbHead, by simpa [noSyn] using sent, last, ?_, ?_⟩
  · rw [closes]
  · rw [closes]
    rcases calls with ⟨addr, block, size, rfl⟩
    exact contents_newRxBuf block size

/-- The SYN+ACK opens the connecting end. -/
theorem Answering.opens {t caller : Tcb} {outcome : HostOutcome} (calls : Calls hosts caller)
    (answers : Answers hosts t)
    (received : rxPacket (.called caller .connectWaiting 0) (hosts.ip .listening)
      ⟨tcpListenSynAck t, t.dstIp, []⟩ = some outcome) :
    ∃ after, outcome.tcbHead = [after] ∧
      outcome.sent = [⟨after.ackHeader, caller.dstIp, []⟩] ∧
      Speaks hosts .connecting (.called after .connectWaiting 127)
        ((Flow.opening 127).transmit []) (Flow.opening 127).acknowledge after := by
  obtain ⟨segment, header, tcbHead, sent⟩ :=
    receive_of_rxPacket calls answers.named.srcPort answers.named.dstPort received
  have opens : caller.afterSynSent segment =
      { caller.disarm with
        curSeqN := caller.curSeqN + 1
        curAckN := segment.header.seqN + 1
        hostWindowSz := segment.header.windowSz
        state := .established } := by
    apply if_pos
    rw [header]
    rfl
  have seqN : segment.header.seqN = isn := by
    rw [header]
    exact answers.curSeqN
  refine ⟨_, tcbHead, sent, ?_⟩
  rw [opens]
  rcases calls with ⟨addr, block, size, rfl⟩
  exact
    { tcb := rfl
      named := ⟨rfl, rfl, rfl⟩
      sent := rfl
      unacked := rfl
      bounded := Nat.zero_le _
      quiet := fun _ => rfl
      credit := rfl
      curAckN := by
        change segment.header.seqN + 1 = place (isn + 1) 0
        rw [seqN, place_zero]
      received := by
        change [] = [] ++ (newRxBuf block size).contents
        rw [contents_newRxBuf]
        rfl
      room := congrArg UInt32.toNat (curCapacity_newRxBuf block size)
      capacity := by
        change (newRxBuf block size).contents.length + 127 = 127
        rw [contents_newRxBuf]
        rfl
      phase := .inl ⟨rfl, (place_zero _).symm, .inl rfl⟩ }

/-- The listening end while the acknowledgement of its SYN+ACK is under way. -/
theorem Answers.speaks {t : Tcb} (answers : Answers hosts t) :
    Speaks hosts .listening (.called t .listenAnswered 127)
      (Flow.opening 127).acknowledge ((Flow.opening 127).transmit []) t where
  tcb := rfl
  named := answers.named
  sent := rfl
  unacked := by
    rw [answers.unacked]
    rfl
  bounded := by
    rw [answers.unacked]
    exact Nat.zero_le _
  quiet _ := answers.unacked
  credit := rfl
  curAckN := answers.curAckN.trans (place_zero _).symm
  received := answers.contents.symm
  room := congrArg UInt32.toNat answers.capacity
  capacity := by
    rw [answers.contents]
    rfl
  phase := .inr ⟨answers.state, rfl, rfl, [], rfl⟩

/-- The listening host takes the SYN of the caller. -/
theorem Stage.deliver_syn {t : Tcb} {outcome : HostOutcome} (calls : Calls hosts t)
    (here : s.ends .connecting = .called t .connectWaiting 0)
    (callee : Callee hosts (s.ends .listening)) (quiet : s.wire .listening = [])
    (received : rxPacket (s.ends .listening) (hosts.ip .connecting) (tcpConnectSyn t) =
      some outcome) :
    Stage hosts ((s.take .listening []).put .listening
      { s.ends .listening with
        tcb := outcome.tcbHead.head?
        lastWindow := (tcpConnectSyn t).header.windowSz } outcome.sent) := by
  generalize listener : s.ends .listening = endpoint at callee received
  cases callee with
  | idle =>
      cases Callee.refuses.symm.trans received
      refine .refused ?_ ?_ ?_
      · change Refused hosts (s.ends .connecting) _
        rw [here, put_wire_self, take_wire_self, quiet]
        exact .pending calls
      · rw [put_ends_self]
        exact .idle
      · rfl
  | waiting listens =>
      rcases Callee.takes listens calls received with ⟨after, tcbHead, sent, answers⟩
      refine .answering calls here rfl ?_
      rw [put_ends_self, put_wire_self, take_wire_self, quiet, tcbHead, sent]
      have window : (tcpConnectSyn t).header.windowSz = 127 := by
        rcases calls with ⟨addr, block, size, rfl⟩
        rfl
      rw [window]
      exact .waiting answers

/-- The connecting host takes the SYN+ACK. -/
theorem Stage.deliver_synAck {caller t : Tcb} {outcome : HostOutcome} (calls : Calls hosts caller)
    (answers : Answers hosts t) (here : s.ends .connecting = .called caller .connectWaiting 0)
    (there : s.ends .listening = .called t .listenAnswered 127) (quiet : s.wire .connecting = [])
    (received : rxPacket (s.ends .connecting) (hosts.ip .listening)
      ⟨tcpListenSynAck t, t.dstIp, []⟩ = some outcome) :
    Stage hosts ((s.take .connecting []).put .connecting
      { s.ends .connecting with
        tcb := outcome.tcbHead.head?
        lastWindow := (tcpListenSynAck t).windowSz } outcome.sent) := by
  rw [here] at received ⊢
  rcases Answering.opens calls answers received with ⟨after, tcbHead, sent, speaks⟩
  have window : (tcpListenSynAck t).windowSz = 127 := by
    change t.rxBuf.curCapacity.toUInt16 = 127
    rw [answers.capacity]
    rfl
  rw [tcbHead, sent, window]
  refine .talking (.put ?_ ?_ ?_ ?_ speaks ⟨t, ?_⟩)
  · exact (Flow.sound_opening 127).transmit_nil
  · exact (Flow.sound_opening 127).acknowledge
  · rw [take_wire_self, quiet]
    exact .cons (speaks.carries caller.dstIp []) .nil
  · rw [take_wire_other]
    exact .nil
  · change Speaks hosts .listening (s.ends .listening) _ _ t
    rw [there]
    exact answers.speaks

/-- A segment delivered at any stage. -/
theorem Stage.deliver {side : Side} {tx : TcpTx} {rest : List TcpTx} {outcome : HostOutcome}
    (stage : Stage hosts s) (pending : s.wire side.other = tx :: rest)
    (received : rxPacket (s.ends side) (hosts.ip side.other) tx = some outcome) :
    Stage hosts ((s.take side rest).put side
      { s.ends side with
        tcb := outcome.tcbHead.head?
        lastWindow := tx.header.windowSz } outcome.sent) := by
  cases stage with
  | calling caller callee quiet =>
      cases side with
      | connecting => exact nomatch quiet.symm.trans pending
      | listening =>
          rcases caller.sent_of_pending pending with ⟨t, calls, here, rfl, rfl⟩
          exact deliver_syn calls here callee quiet received
  | refused refused callee quiet =>
      cases side with
      | listening => exact nomatch quiet.symm.trans pending
      | connecting =>
          change s.wire .listening = tx :: rest at pending
          generalize here : s.ends .connecting = endpoint at refused received ⊢
          rw [pending] at refused
          generalize wire : tx :: rest = sent at refused
          cases refused with
          | pending calls =>
              obtain ⟨after, tcbHead, unanswered, rfl, closed, empty⟩ :=
                Refused.takes calls wire.symm received
              rw [tcbHead, unanswered]
              refine .refused ?_ callee ?_
              · rw [put_ends_self]
                exact .closed closed empty
              · rw [put_wire_self, take_wire_self, quiet]
                rfl
          | closed _ _ | freed => exact nomatch wire
  | answering calls called quiet answering =>
      cases side with
      | listening => exact nomatch quiet.symm.trans pending
      | connecting =>
          change s.wire .listening = tx :: rest at pending
          rw [pending] at answering
          generalize there : s.ends .listening = endpoint at answering
          generalize wire : tx :: rest = sent at answering
          cases answering with
          | waiting _ | woken _ | prepared _ => exact nomatch wire
          | answered answers =>
              cases wire
              exact deliver_synAck calls answers called there quiet received
  | talking talking =>
      rcases talking.speaks side with ⟨t, speaks⟩
      rcases talking.deliver speaks pending received with ⟨flow', delivered⟩
      exact .talking delivered

/-- Every event leads from stage to stage. -/
theorem Stage.step {event : PairEvent} {after : Pair} (stage : Stage hosts s)
    (taken : Pair.step hosts s event = some after) : Stage hosts after := by
  cases stepped_of_step taken with
  | connect unused same => exact stage.connect ⟨_, _, _, same⟩ unused
  | listen unused => exact stage.listen ⟨_, _, _, rfl⟩ unused
  | thread tcb position moved => exact stage.thread tcb position moved
  | deliver pending received => exact stage.deliver pending received
  | txData tcb may =>
      rcases stage.silent_or_talking with silent | ⟨flow, talking⟩
      · exact absurd may.1 (silent _).thread
      · rcases talking.speaks _ with ⟨t, speaks⟩
        cases tcb.symm.trans speaks.tcb
        exact .talking (talking.txData speaks may)
  | txReturn tcb sending done =>
      rcases stage.silent_or_talking with silent | ⟨flow, talking⟩
      · exact nomatch sending.symm.trans (silent _).sending
      · rcases talking.speaks _ with ⟨t, speaks⟩
        cases tcb.symm.trans speaks.tcb
        exact .talking (talking.txReturn speaks done)
  | rxData tcb returned popped =>
      rcases stage.silent_or_talking with silent | ⟨flow, talking⟩
      · exact absurd returned (silent _).thread
      · rcases talking.speaks _ with ⟨t, speaks⟩
        cases tcb.symm.trans speaks.tcb
        exact .talking (talking.rxData speaks popped)

/-! ## What follows from a stage -/

/-- Two silent ends agree on nothing sent. -/
theorem consistent_of_silent (silent : ∀ side, Silent (s.ends side)) : Consistent s where
  accounted opened := by
    rcases opened .connecting with ⟨t, tcb, established⟩
    exact absurd established ((silent _).tcb t tcb)
  ordered side := by
    rw [(silent side).sent, (silent side.other).delivered]
  complete side _ _ _ := by
    rw [(silent side).sent, (silent side.other).delivered]
  accepted side t _ _ tcb established := absurd established ((silent side).tcb t tcb)

/-- What an end has delivered is what its flow has received. -/
theorem delivered_of_speaks {side : Side} {out inward : Flow UInt8} {t : Tcb}
    (speaks : Speaks hosts side endpoint out inward t) : endpoint.delivered = inward.received := by
  rw [Endpoint.delivered, speaks.tcb, speaks.received]
  rfl

/-- Two ends that represent sound flows agree. -/
theorem consistent_of_talking {flow : Side → Flow UInt8} (talking : Talking hosts s flow) :
    Consistent s where
  accounted opened side t tcb := by
    rcases talking.speaks side with ⟨t', speaks⟩
    cases tcb.symm.trans speaks.tcb
    rcases opened side with ⟨t', tcb', established⟩
    cases tcb.symm.trans tcb'
    rcases speaks.phase with open_ | answered
    · calc
        t.curSeqN + t.unackedByteCount =
            place (isn + 1) (flow side).acked + UInt32.ofNat t.unackedByteCount.toNat := by
          rw [open_.curSeqN, UInt32.ofNat_toNat]
        _ = place (isn + 1) (s.ends side).sent.length := by
          rw [← place_add, Nat.add_comm, speaks.unacked, speaks.sent]
    · exact nomatch established.symm.trans answered.state
  ordered side := by
    rcases talking.speaks side with ⟨t, speaks⟩
    rcases talking.there side with ⟨peer, there⟩
    rw [delivered_of_speaks there, speaks.sent]
    exact (talking.sound side).received_le_sent
  complete side t tcb acknowledged := by
    rcases talking.speaks side with ⟨t', speaks⟩
    cases tcb.symm.trans speaks.tcb
    rcases talking.there side with ⟨peer, there⟩
    rw [delivered_of_speaks there, speaks.sent]
    apply (talking.sound side).received_eq_sent
    rw [← speaks.unacked, acknowledged]
    exact (Nat.zero_add _).symm
  accepted side t tx rest tcb _ pending := by
    rcases talking.speaks side with ⟨t', speaks⟩
    cases tcb.symm.trans speaks.tcb
    have carried := talking.carried_other side
    rw [pending] at carried
    rcases carried.head with ⟨pieces, _, _, next, _⟩
    rw [speaks.room]
    exact (talking.sound side.other).length_le_room next

theorem Stage.consistent (stage : Stage hosts s) : Consistent s := by
  rcases stage.silent_or_talking with silent | ⟨flow, talking⟩
  · exact consistent_of_silent silent
  · exact consistent_of_talking talking

end

end Pair

/-- In every state that the two hosts can reach, whatever the delays and
however many times the sequence numbers wrap, they are consistent. -/
theorem pair_consistent (hosts : Addresses) (s : Pair)
    (reached : Reachable (Pair.step hosts) Pair.start s) : s.Consistent := by
  have stage : Pair.Stage hosts s :=
    invariant_of_reachable (fun _ _ _ stage taken => stage.step taken) (Pair.stage_start hosts)
      reached
  exact stage.consistent

/-- The hosts of the run below. -/
def exampleHosts : Addresses where
  ip
    | .connecting => 0xc0a80402
    | .listening => 0xc0a80476
  port := 5757

/-- A handshake, then two bytes sent, read and acknowledged. -/
def exampleRun : List PairEvent :=
  [.listen 0 _ length_clearedBlock, .connect 0 _ length_clearedBlock,
    .thread .connecting, .deliver .listening,
    .thread .listening, .thread .listening, .thread .listening, .deliver .connecting,
    .deliver .listening, .thread .connecting, .thread .listening,
    .txData .connecting [72, 105], .deliver .listening, .rxData .listening 2,
    .deliver .connecting, .txReturn .connecting]

theorem pair_consistent_example :
    ∃ s, run (Pair.step exampleHosts) Pair.start exampleRun = some s ∧
      (s.ends .listening).popped = [72, 105] ∧ s.Consistent := by
  refine ⟨_, rfl, rfl, ?_⟩
  exact pair_consistent exampleHosts _ ⟨exampleRun, rfl⟩

end Lpc17xx.Tcp
