import Lpc17xx.Net.Bystanders
import Lpc17xx.Net.Release

/-!
# What the tasks queue, and whom they wake

The functions that the tasks call put packets into the transmit queues, and wake those who
wait for them.  So a task sleeps only while there is nothing for it in its queue, or inside
`resolve_address`.
-/

namespace Lpc17xx.Tcp

/-- No segment, or a single one without payload. -/
def BareAnswer (sent : List TcpTx) : Prop :=
  sent = [] ∨ ∃ header destIp, sent = [⟨header, destIp, []⟩]

theorem BareAnswer.length_le {sent : List TcpTx} (bare : BareAnswer sent) : sent.length ≤ 1 := by
  rcases bare with rfl | ⟨header, destIp, rfl⟩
  · exact Nat.zero_le 1
  · exact Nat.le_refl 1

/-- Either a case of the switch transmits a segment, or it leaves that to the end. -/
theorem sent_rxSwitch (t : Tcb) (srcIp : UInt32) (incoming : TcpHeader) (data : Nat → UInt8)
    (dataLen : UInt32) :
    let switched := rxSwitch t srcIp incoming data dataLen
    switched.sent = [] ∨
      switched.sendAck = false ∧ ∃ header destIp, switched.sent = [⟨header, destIp, []⟩] := by
  cases state : t.state with
  | synSent =>
      simp only [rxSwitch, state, rxSynSent]
      split
      · exact .inr ⟨rfl, _, _, rfl⟩
      · exact .inl rfl
  | closed | lastAck | timeWait =>
      simp only [rxSwitch, state]
      exact .inl rfl
  | _ =>
      simp only [rxSwitch, state, rxListen, rxSynReceived, rxEstablished, rxCloseWait, rxFinWait1,
        rxFinWait2, rxClosing]
      repeat' split
      all_goals exact .inl rfl

theorem sent_rxNoTcb (srcIp : UInt32) (incoming : TcpHeader) (dataLen : UInt32) :
    BareAnswer (rxNoTcb srcIp incoming dataLen) := by
  cases rst : incoming.rst with
  | true => exact .inl (rxNoTcb_of_rst rst)
  | false => exact .inr (rxNoTcb_of_not_rst rst)

/-- A segment is answered by one at most. -/
theorem sent_rxSegment {tcbHead : List Tcb} {srcIp : UInt32} {incoming : TcpHeader}
    {data : Nat → UInt8} {dataLen : UInt32} {outcome : HostOutcome}
    (received : rxSegment tcbHead srcIp incoming data dataLen = some outcome) :
    BareAnswer outcome.sent := by
  unfold rxSegment at received
  split at received
  · cases received
    exact sent_rxNoTcb srcIp incoming dataLen
  · split at received
    · contradiction
    · rename_i t _
      rcases Option.map_eq_some_iff.mp received with ⟨tcbOutcome, handled, rfl⟩
      change BareAnswer tcbOutcome.sent
      unfold rxTcb at handled
      split at handled
      · contradiction
      · dsimp only at handled
        rcases sent_rxSwitch t.disarm srcIp incoming data dataLen with
          silent | ⟨noAck, header, destIp, sent⟩
        · split at handled
          · cases handled
            exact .inl silent
          · cases handled
            rw [silent, List.nil_append]
            split
            · exact .inr ⟨_, _, rfl⟩
            · exact .inl rfl
        · split at handled
          · cases handled
            exact .inr ⟨header, destIp, sent⟩
          · cases handled
            rw [sent, noAck]
            exact .inr ⟨header, destIp, rfl⟩

end Lpc17xx.Tcp

namespace Lpc17xx.Protocol

open Lpc17xx.Tcp

/-- Unless it stops the processor, `tcp_rx_packet` transmits one segment at most. -/
theorem tcp_tcpSent (s : Stack) (running : s.stopped = false)
    (goesOn : (after tcpRxPacket s).stopped = false) :
    ∃ sent : List TcpTx, BareAnswer sent ∧
      (after tcpRxPacket s).tables.tcpSent = s.tables.tcpSent ++ sent := by
  let ready := after (readTcpHeader s.pkt.curData) (tcpSwapped s)
  let incoming := tcpHeaderAt (tcpSwapped s).pkt.memory s.pkt.curData
  let data := s.pkt.curData + (tcpHeaderLen s).toNat
  let dataLen := s.pkt.curDataLength - tcpHeaderLen s
  have still : ready.stopped = false := running
  have delivered := tcpDeliver_outcome ready incoming data dataLen still
  cases received : rxSegment ready.tables.tcbHead ready.pkt.ip4Info.srcIp incoming
      (fun i => ready.pkt.memory (data + i)) dataLen with
  | none =>
      rw [received] at delivered
      have stopped : (after tcpRxPacket s).stopped = true := (Prod.mk.inj delivered).2
      rw [stopped] at goesOn
      contradiction
  | some outcome =>
      rw [received] at delivered
      have tables : (after tcpRxPacket s).tables =
          { s.tables with
            tcbHead := outcome.tcbHead
            tcpSent := s.tables.tcpSent ++ outcome.sent } := (Prod.mk.inj delivered).1
      exact ⟨outcome.sent, sent_rxSegment received, by rw [tables]⟩

end Lpc17xx.Protocol

namespace Lpc17xx.Net

open Lpc17xx.Arp
open Lpc17xx.Link
open Lpc17xx.Memory
open Lpc17xx.Protocol
open Lpc17xx.Queue
open Lpc17xx.Tcp
open Lpc17xx.Transition

/-- A reply with our hardware address, for any request. -/
def RepliesToUs (packet : ArpPacket) : Prop :=
  packet.HTYPE = 1 ∧ packet.OPER = 2 ∧ packet.THA = etherAddr

instance (packet : ArpPacket) : Decidable (RepliesToUs packet) :=
  inferInstanceAs (Decidable (_ ∧ _))

namespace State

variable {H B : Type}

/-- A function has queued so many packets for `ip4_tx_task` and for `ether_tx_task`, and has
woken those who sleep on the queues in `woken`, among them the task if there are any. -/
structure Queues (s after : State H B) (ip4 ether : Nat) (woken : List Waitq) : Prop where
  pktRxQ : after.pktRxQ = s.pktRxQ
  rxPkt : after.rxPkt = s.rxPkt
  txPkt : after.txPkt = s.txPkt
  txdPkt : after.txdPkt = s.txdPkt
  ip4TxQueue : ∃ newer, after.ip4TxQueue = newer ++ s.ip4TxQueue ∧ newer.length = ip4
  etherTxQueue : after.etherTxQueue.length = s.etherTxQueue.length + ether
  waiting : after.waiting = s.waiting.filter (·.queue ∉ woken)
  ip4Woken : 0 < ip4 → .ip4Tx ∈ woken
  etherWoken : 0 < ether → .etherTx ∈ woken

/-- A process of the three tasks sleeps on its own queue, and has nothing to do.  Only
`ip4_tx_task` sleeps with a packet in hand, in `resolve_address`. -/
def WaitsRightly (s : State H B) (waitproc : WaitingProc B) : Prop :=
  match waitproc.proc with
  | .rx => waitproc.queue = .rx ∧ s.rxPkt = none ∧ s.pktRxQ = []
  | .ip4Tx =>
      waitproc.queue = .ip4Tx ∧ s.txPkt = none ∧ s.ip4TxQueue = [] ∨
        waitproc.queue = .arp ∧ ∃ txPkt, s.txPkt = some (.resolving txPkt)
  | .etherTx => waitproc.queue = .etherTx ∧ s.txdPkt = none ∧ s.etherTxQueue = []
  | .thread _ => waitproc.queue = .tcp

/-- Nobody sleeps beside work. -/
def Served (s : State H B) : Prop :=
  ∀ waitproc ∈ s.waiting, s.WaitsRightly waitproc

variable {s middle after : State H B} {ip4 ip4' ether ether' : Nat} {woken woken' : List Waitq}

section Queues

/-- What touches neither the queues, nor the tasks, nor the processes that sleep. -/
theorem queues_of_eq (pktRxQ : after.pktRxQ = s.pktRxQ) (rxPkt : after.rxPkt = s.rxPkt)
    (txPkt : after.txPkt = s.txPkt) (txdPkt : after.txdPkt = s.txdPkt)
    (ip4TxQueue : after.ip4TxQueue = s.ip4TxQueue)
    (etherTxQueue : after.etherTxQueue = s.etherTxQueue) (waiting : after.waiting = s.waiting) :
    Queues s after 0 0 [] where
  pktRxQ := pktRxQ
  rxPkt := rxPkt
  txPkt := txPkt
  txdPkt := txdPkt
  ip4TxQueue := ⟨[], ip4TxQueue, rfl⟩
  etherTxQueue := congrArg List.length etherTxQueue
  waiting := by simpa using waiting
  ip4Woken some := absurd some (Nat.lt_irrefl 0)
  etherWoken some := absurd some (Nat.lt_irrefl 0)

theorem Queues.refl : Queues s s 0 0 [] :=
  queues_of_eq rfl rfl rfl rfl rfl rfl rfl

theorem Queues.trans (first : Queues s middle ip4 ether woken)
    (second : Queues middle after ip4' ether' woken') :
    Queues s after (ip4 + ip4') (ether + ether') (woken ++ woken') where
  pktRxQ := second.pktRxQ.trans first.pktRxQ
  rxPkt := second.rxPkt.trans first.rxPkt
  txPkt := second.txPkt.trans first.txPkt
  txdPkt := second.txdPkt.trans first.txdPkt
  ip4TxQueue := by
    rcases first.ip4TxQueue with ⟨older, grown, count⟩
    rcases second.ip4TxQueue with ⟨newer, further, more⟩
    refine ⟨newer ++ older, ?_, ?_⟩
    · rw [further, grown, List.append_assoc]
    · rw [List.length_append, count, more, Nat.add_comm]
  etherTxQueue := by rw [second.etherTxQueue, first.etherTxQueue, Nat.add_assoc]
  waiting := by
    rw [second.waiting, first.waiting, List.filter_filter]
    apply List.filter_congr
    intro waitproc _
    simp [Bool.and_comm]
  ip4Woken some := by
    rcases Nat.add_pos_iff_pos_or_pos.mp some with here | later
    · exact List.mem_append_left _ (first.ip4Woken here)
    · exact List.mem_append_right _ (second.ip4Woken later)
  etherWoken some := by
    rcases Nat.add_pos_iff_pos_or_pos.mp some with here | later
    · exact List.mem_append_left _ (first.etherWoken here)
    · exact List.mem_append_right _ (second.etherWoken later)

theorem Queues.quiet_trans (first : Queues s middle 0 0 [])
    (second : Queues middle after ip4 ether woken) : Queues s after ip4 ether woken := by
  simpa only [Nat.zero_add, List.nil_append] using first.trans second

theorem Queues.trans_quiet (first : Queues s middle ip4 ether woken)
    (second : Queues middle after 0 0 []) : Queues s after ip4 ether woken := by
  simpa only [Nat.add_zero, List.append_nil] using first.trans second

/-- Nobody has gone to sleep. -/
theorem Queues.asleep (queues : Queues s after ip4 ether woken) {waitproc : WaitingProc B}
    (member : waitproc ∈ after.waiting) : waitproc ∈ s.waiting ∧ waitproc.queue ∉ woken := by
  rw [queues.waiting] at member
  rcases List.mem_filter.mp member with ⟨before, kept⟩
  exact ⟨before, of_decide_eq_true kept⟩

theorem Queues.runs (queues : Queues s after ip4 ether woken) {proc : Task} (runs : s.Runs proc) :
    after.Runs proc :=
  fun waitproc member => runs waitproc (queues.asleep member).1

variable [DecidableEq B] {mem : Allocator H B}

theorem queues_getMem {size : Nat} {block : B} (got : s.getMem mem size = some (block, after)) :
    Queues s after 0 0 [] := by
  rw [getMem_eq got]
  exact queues_of_eq rfl rfl rfl rfl rfl rfl rfl

theorem queues_waitqueueWakeup (waitq : Waitq) :
    Queues s (s.waitqueueWakeup mem waitq) 0 0 [waitq] :=
  ⟨rfl, rfl, rfl, rfl, ⟨[], rfl, rfl⟩, rfl, by simp [waitqueueWakeup],
    fun some => absurd some (Nat.lt_irrefl 0), fun some => absurd some (Nat.lt_irrefl 0)⟩

theorem queues_etherTx {len : Nat} (sent : s.etherTx mem len = some after) :
    Queues s after 0 1 [.etherTx] := by
  simp only [etherTx, Option.bind_eq_bind, Option.bind_eq_some_iff, Prod.exists,
    Option.some.injEq] at sent
  rcases sent with ⟨newPacket, first, got, payloadCopy, second, copied, rfl⟩
  refine (queues_getMem got).quiet_trans ((queues_getMem copied).quiet_trans ?_)
  exact ⟨rfl, rfl, rfl, rfl, ⟨[], rfl, rfl⟩, rfl, by simp [waitqueueWakeup],
    fun some => absurd some (Nat.lt_irrefl 0), fun _ => List.mem_cons_self⟩

theorem queues_ip4XmitPacket {dstIp : UInt32} {payloadLen : UInt16}
    (sent : s.ip4XmitPacket mem dstIp payloadLen = some after) :
    Queues s after 1 0 [.ip4Tx] := by
  simp only [ip4XmitPacket, Option.bind_eq_bind, Option.bind_eq_some_iff, Prod.exists,
    Option.some.injEq] at sent
  rcases sent with ⟨newPacket, first, got, payloadCopy, second, copied, rfl⟩
  refine (queues_getMem got).quiet_trans ((queues_getMem copied).quiet_trans ?_)
  exact ⟨rfl, rfl, rfl, rfl, ⟨[_], rfl, rfl⟩, rfl, by simp [waitqueueWakeup],
    fun _ => List.mem_cons_self, fun some => absurd some (Nat.lt_irrefl 0)⟩

theorem queues_tcpTx {tx : TcpTx} (sent : s.tcpTx mem tx = some after) :
    Queues s after 1 0 [.ip4Tx] := by
  simp only [tcpTx, Option.bind_eq_bind, Option.bind_eq_some_iff, Prod.exists,
    Option.some.injEq] at sent
  rcases sent with ⟨sumBuf, first, got, buf, second, copied, third, queued, rfl⟩
  have freed : Queues first (first.freeMem mem sumBuf) 0 0 [] :=
    queues_of_eq rfl rfl rfl rfl rfl rfl rfl
  have freedBuf : Queues third (third.freeMem mem buf) 0 0 [] :=
    queues_of_eq rfl rfl rfl rfl rfl rfl rfl
  exact (queues_getMem got).quiet_trans (freed.quiet_trans ((queues_getMem copied).quiet_trans
    ((queues_ip4XmitPacket queued).trans_quiet freedBuf)))

theorem queues_tcpTxs {sent : List TcpTx} (transmitted : s.tcpTxs mem sent = some after) :
    Queues s after sent.length 0 (List.replicate sent.length .ip4Tx) := by
  induction sent generalizing s with
  | nil =>
      cases transmitted
      exact .refl
  | cons tx sent ih =>
      rcases Option.bind_eq_some_iff.mp transmitted with ⟨first, one, rest⟩
      change Queues s after (sent.length + 1) 0 (.ip4Tx :: List.replicate sent.length .ip4Tx)
      rw [Nat.add_comm]
      exact (queues_tcpTx one).trans (ih rest)

theorem queues_tcpRxPacket {sent : List TcpTx} {referenced : Bool}
    (received : s.tcpRxPacket mem sent referenced = some after) :
    ∃ woken, .arp ∉ woken ∧ Queues s after sent.length 0 woken := by
  rcases Option.map_eq_some_iff.mp received with ⟨first, transmitted, rfl⟩
  have queues := queues_tcpTxs transmitted
  split
  · refine ⟨_, ?_, queues.trans (queues_waitqueueWakeup .tcp)⟩
    simp
  · exact ⟨_, by simp, queues⟩

/-- A request for us is answered, and a reply to us wakes those who have asked. -/
theorem queues_arpRxPacket {pending : List ArpPendingRequest} {packet : ArpPacket}
    (received : s.arpRxPacket mem pending packet = some after) :
    ∃ replies woken, replies ≤ 1 ∧ (.arp ∈ woken ↔ RepliesToUs packet) ∧
      Queues s after 0 replies woken := by
  have nothing (same : some s = some after) (foreign : ¬RepliesToUs packet) :
      ∃ replies woken, replies ≤ 1 ∧ (.arp ∈ woken ↔ RepliesToUs packet) ∧
        Queues s after 0 replies woken := by
    cases same
    exact ⟨0, [], Nat.zero_le 1, iff_of_false List.not_mem_nil foreign, .refl⟩
  unfold arpRxPacket at received
  split at received
  · rename_i ethernet
    split at received
    · rename_i request
      have foreign : ¬RepliesToUs packet := by
        rintro ⟨_, reply, _⟩
        rw [request] at reply
        exact absurd reply (by decide)
      split at received
      · simp only [arpRespond, Option.bind_eq_bind, Option.bind_eq_some_iff,
          Prod.exists] at received
        rcases received with ⟨resp, first, got, sent⟩
        exact ⟨1, [.etherTx], Nat.le_refl 1, iff_of_false (by simp) foreign,
          (queues_getMem got).quiet_trans (queues_etherTx sent)⟩
      · exact nothing received foreign
    · split at received
      · rename_i reply
        split at received
        · rename_i ours
          rcases Option.map_eq_some_iff.mp received with ⟨first, fulfilled, rfl⟩
          have entered : Queues s first 0 0 [] := by
            unfold arpFulfil at fulfilled
            split at fulfilled
            · simp only [Option.bind_eq_bind, Option.bind_eq_some_iff, Prod.exists,
                Option.some.injEq] at fulfilled
              rcases fulfilled with ⟨newArpEntry, second, got, rfl⟩
              exact (queues_getMem got).trans_quiet (queues_of_eq rfl rfl rfl rfl rfl rfl rfl)
            · cases fulfilled
              exact .refl
          exact ⟨0, [.arp], Nat.zero_le 1, iff_of_true List.mem_cons_self ⟨ethernet, reply, ours⟩,
            entered.quiet_trans (queues_waitqueueWakeup .arp)⟩
        · rename_i foreign
          exact nothing received fun replies => foreign replies.2.2
      · rename_i other
        exact nothing received fun replies => other replies.2.1
  · rename_i other
    exact nothing received fun replies => other replies.1

/-- A handler queues the segments that it transmits, or one reply. -/
theorem queues_handlerMem {before handled : Stack} {sent : Nat}
    (bounded : before.pkt.handler = .tcp → handled.tables.tcpSent.length ≤ sent)
    (managed : s.handlerMem mem before handled = some after) :
    ∃ segments replies woken, segments ≤ sent ∧ replies ≤ 1 ∧
      (.arp ∈ woken ↔ before.pkt.handler = .arp ∧ RepliesToUs (arpPacketOf before.pkt)) ∧
      Queues s after segments replies woken := by
  unfold handlerMem at managed
  split at managed
  · rename_i arp
    rcases queues_arpRxPacket managed with ⟨replies, woken, few, wakes, queues⟩
    exact ⟨0, replies, woken, Nat.zero_le sent, few, by simp [arp, wakes], queues⟩
  · rename_i tcp
    rcases queues_tcpRxPacket managed with ⟨woken, spares, queues⟩
    exact ⟨_, 0, woken, bounded tcp, Nat.zero_le 1, by simp [tcp, spares], queues⟩
  · rename_i other _
    cases managed
    exact ⟨0, 0, [], Nat.zero_le sent, Nat.zero_le 1,
      iff_of_false List.not_mem_nil fun replies => other replies.1, .refl⟩

theorem queues_ip4DoXmit {txPkt : Ip4Entry B} (sent : s.ip4DoXmit mem txPkt = some after) :
    Queues s after 0 1 [.etherTx] := by
  simp only [ip4DoXmit, Option.bind_eq_bind, Option.bind_eq_some_iff, Prod.exists,
    Option.some.injEq] at sent
  rcases sent with ⟨packetBuf, first, got, second, queued, rfl⟩
  have freed : Queues second (second.freeMem mem packetBuf) 0 0 [] :=
    queues_of_eq rfl rfl rfl rfl rfl rfl rfl
  exact (queues_getMem got).quiet_trans ((queues_etherTx queued).trans_quiet freed)

theorem queues_sendRequest {ipAddress : UInt32} (sent : s.sendRequest mem ipAddress = some after) :
    Queues s after 0 1 [.etherTx] := by
  simp only [sendRequest, Option.bind_eq_bind, Option.bind_eq_some_iff, Prod.exists] at sent
  rcases sent with ⟨arpRequest, first, got, queued⟩
  refine (queues_getMem got).quiet_trans (Queues.quiet_trans ?_ (queues_etherTx queued))
  exact queues_of_eq rfl rfl rfl rfl rfl rfl rfl

theorem queues_gather {fragLen : Nat} {frame : B × Nat}
    (gathered : s.gather mem fragLen = some (frame, after)) : Queues s after 0 0 [] := by
  unfold gather at gathered
  split at gathered
  · simp only [Option.bind_eq_bind, Option.bind_eq_some_iff, Prod.exists, Option.some.injEq,
      Prod.mk.injEq] at gathered
    rcases gathered with ⟨newFrameBuf, first, got, _, rfl⟩
    exact (queues_getMem got).trans_quiet (queues_of_eq rfl rfl rfl rfl rfl rfl rfl)
  · simp only [Option.bind_eq_bind, Option.bind_eq_some_iff, Prod.exists, Option.some.injEq,
      Prod.mk.injEq] at gathered
    rcases gathered with ⟨newFrameBuf, first, got, _, rfl⟩
    exact queues_getMem got

end Queues

/-- What `rx_task` has `tcp_rx_packet` transmit. -/
theorem bareAnswer_handed {pkt : Packet} (tcp : pkt.handler = .tcp)
    (running : (s.handed pkt).handle.stopped = false) :
    BareAnswer (s.handed pkt).handle.tables.tcpSent := by
  rw [handle_tcp tcp] at running ⊢
  rcases tcp_tcpSent (s.handed pkt) rfl running with ⟨sent, bare, transmitted⟩
  rw [transmitted]
  exact bare

/-! What the steps of the tasks come to, but for the heap and the tables. -/

section Steps

variable [DecidableEq B] {mem : Allocator H B}

/-- An interrupt leaves a fragment behind, or a packet and `rx_task` awake. -/
theorem irqEnet_eq_some {statusInfo : UInt32} {memory : Bytes} {stale : Ipv4PktInfo}
    (taken : s.irqEnet mem statusInfo memory stale = some after) :
    ∃ middle, Queues s middle 0 0 [] ∧
      ((∃ currentFrame, after = { middle with currentFrame }) ∨
        ∃ pkt, after = { middle with pktRxQ := pkt :: middle.pktRxQ }.waitqueueWakeup mem .rx) := by
  simp only [irqEnet, Option.bind_eq_bind, Option.bind_eq_some_iff, Prod.exists] at taken
  rcases taken with ⟨frame, frameLen, first, gathered, taken⟩
  split at taken
  · simp only [packetInject, Option.bind_eq_bind, Option.bind_eq_some_iff, Prod.exists,
      Option.some.injEq] at taken
    rcases taken with ⟨block, second, got, rfl⟩
    exact ⟨second, (queues_gather gathered).trans_quiet (queues_getMem got), .inr ⟨_, rfl⟩⟩
  · cases taken
    exact ⟨first, queues_gather gathered, .inl ⟨_, rfl⟩⟩

/-- A round of `rx_task` queues what the handler transmits, wakes those on `arp_waitqueue`
exactly if it handles a reply to us, and drops the packet or passes it down. -/
theorem rxHandle_eq_some (handled : s.rxHandle mem = some after) :
    ∃ pkt middle heap rxPkt segments replies woken, s.rxPkt = some pkt ∧
      segments ≤ 1 ∧ replies ≤ 1 ∧ (.arp ∈ woken ↔ ∃ packet ∈ s.arpPacket, RepliesToUs packet) ∧
      Queues s middle segments replies woken ∧ after = { middle with heap, rxPkt } ∧
      ∀ passed ∈ rxPkt, passed.pkt.handler.handlersLeft < pkt.pkt.handler.handlersLeft := by
  unfold rxHandle at handled
  split at handled
  · contradiction
  · rename_i pkt held
    rcases Option.ite_none_left_eq_some.mp handled with ⟨goesOn, handled⟩
    rcases Option.map_eq_some_iff.mp handled with ⟨first, managed, done⟩
    have running : (s.handed pkt.pkt).handle.stopped = false := Bool.eq_false_iff.mpr goesOn
    have bounded (tcp : (s.handed pkt.pkt).pkt.handler = .tcp) :
        (s.handed pkt.pkt).handle.tables.tcpSent.length ≤ 1 :=
      (bareAnswer_handed tcp running).length_le
    rcases queues_handlerMem bounded managed with
      ⟨segments, replies, woken, few, one, wakes, queues⟩
    have retabled : Queues s { s with tables := (s.handed pkt.pkt).handle.tables } 0 0 [] :=
      queues_of_eq rfl rfl rfl rfl rfl rfl rfl
    have replied : .arp ∈ woken ↔ ∃ packet ∈ s.arpPacket, RepliesToUs packet := by
      rw [wakes]
      by_cases arp : pkt.pkt.handler = .arp
      · rw [arpPacket_of_arp held arp]
        simp [handed, arp]
      · rw [arpPacket_of_other held arp]
        simp [handed, arp]
    have queued := retabled.quiet_trans queues
    split at done
    · exact ⟨pkt, first, _, none, segments, replies, woken, held, few, one, replied, queued,
        done.symm, by simp⟩
    · rename_i passed
      refine ⟨pkt, first, first.heap, _, segments, replies, woken, held, few, one, replied, queued,
        done.symm, ?_⟩
      rintro _ ⟨⟩
      exact handlersLeft_handle.resolve_left passed

/-- `ip4_tx_task` queues the packet for `ether_tx_task`, or a request for its next hop. -/
theorem ip4Xmit_eq_some (sent : s.ip4Xmit mem = some after) :
    ∃ txPkt middle heap rest, s.txPkt = some (.popped txPkt) ∧
      (rest = none ∨ rest = some (.resolving txPkt)) ∧ Queues s middle 0 1 [.etherTx] ∧
      after = { middle with heap, txPkt := rest } := by
  unfold ip4Xmit at sent
  split at sent
  · rename_i txPkt popped
    dsimp only at sent
    split at sent
    · rcases Option.map_eq_some_iff.mp sent with ⟨first, transmitted, done⟩
      exact ⟨txPkt, first, _, none, popped, .inl rfl, queues_ip4DoXmit transmitted, done.symm⟩
    · rcases Option.map_eq_some_iff.mp sent with ⟨first, requested, done⟩
      exact ⟨txPkt, first, first.heap, _, popped, .inr rfl, queues_sendRequest requested,
        done.symm⟩
  · contradiction

/-- After a time-out nothing is transmitted. -/
theorem ip4Resume_eq_some (resumed : s.ip4Resume mem = some after) :
    ∃ txPkt middle heap sent woken, s.txPkt = some (.resolving txPkt) ∧ sent ≤ 1 ∧
      Queues s middle 0 sent woken ∧ after = { middle with heap, txPkt := none } := by
  unfold ip4Resume at resumed
  split at resumed
  · rename_i txPkt _ arpFinished resolving _
    have unlinked : Queues s { s with tables := { s.tables with arpFinished } } 0 0 [] :=
      queues_of_eq rfl rfl rfl rfl rfl rfl rfl
    dsimp only at resumed
    split at resumed
    · cases resumed
      exact ⟨txPkt, _, _, 0, [], resolving, Nat.zero_le 1, unlinked, rfl⟩
    · rcases Option.map_eq_some_iff.mp resumed with ⟨first, transmitted, done⟩
      exact ⟨txPkt, first, _, 1, _, resolving, Nat.le_refl 1,
        unlinked.quiet_trans (queues_ip4DoXmit transmitted), done.symm⟩
  · contradiction

theorem etherXmit_eq_some (sent : s.etherXmit mem = some after) :
    ∃ txdPkt heap, s.txdPkt = some txdPkt ∧ after = { s with heap, txdPkt := none } := by
  simp only [etherXmit, Option.bind_eq_bind, Option.bind_eq_some_iff, Prod.exists,
    Option.some.injEq] at sent
  rcases sent with ⟨txdPkt, held, header, first, got, rfl⟩
  rw [getMem_eq got]
  exact ⟨txdPkt, _, held, rfl⟩

theorem waitqueueWait_eq_some {proc : Task} (slept : s.waitqueueWait mem proc = some after) :
    ∃ queue block heap, s.waitsOn proc = some queue ∧
      after = { s with heap, waiting := listAdd ⟨queue, proc, block⟩ s.waiting } := by
  simp only [waitqueueWait, Option.bind_eq_bind, Option.bind_eq_some_iff, Prod.exists,
    Option.some.injEq] at slept
  rcases slept with ⟨queue, waits, block, first, got, rfl⟩
  rw [getMem_eq got]
  exact ⟨queue, block, _, waits, rfl⟩

end Steps

section Served

/-- Who has been given work is awake. -/
theorem Served.queues (served : s.Served) (queues : Queues s after ip4 ether woken) :
    after.Served := by
  intro waitproc member
  rcases queues.asleep member with ⟨slept, unwoken⟩
  have before := served waitproc slept
  unfold WaitsRightly at before ⊢
  cases proc : waitproc.proc with
  | rx =>
      rw [proc] at before
      rcases before with ⟨queue, rxPkt, pktRxQ⟩
      exact ⟨queue, queues.rxPkt.trans rxPkt, queues.pktRxQ.trans pktRxQ⟩
  | ip4Tx =>
      rw [proc] at before
      rcases before with ⟨queue, txPkt, ip4TxQueue⟩ | ⟨queue, txPkt, resolving⟩
      · rcases queues.ip4TxQueue with ⟨newer, grown, count⟩
        have none : newer = [] := by
          by_contra some
          rw [queue] at unwoken
          exact unwoken (queues.ip4Woken (count ▸ List.length_pos_iff.mpr some))
        rw [none, ip4TxQueue] at grown
        exact .inl ⟨queue, queues.txPkt.trans txPkt, grown⟩
      · exact .inr ⟨queue, txPkt, queues.txPkt.trans resolving⟩
  | etherTx =>
      rw [proc] at before
      rcases before with ⟨queue, txdPkt, etherTxQueue⟩
      refine ⟨queue, queues.txdPkt.trans txdPkt, List.eq_nil_of_length_eq_zero ?_⟩
      have none : ether = 0 := by
        by_contra some
        rw [queue] at unwoken
        exact unwoken (queues.etherWoken (Nat.pos_of_ne_zero some))
      rw [queues.etherTxQueue, etherTxQueue, none]
      rfl
  | thread id =>
      rw [proc] at before
      exact before

/-- What the task of the process does with its own packet does not matter to those that
sleep. -/
theorem Served.of_others (served : s.Served) {proc : Task} (runs : s.Runs proc)
    (waiting : after.waiting = s.waiting)
    (rx : proc ≠ .rx → after.rxPkt = s.rxPkt ∧ after.pktRxQ = s.pktRxQ)
    (ip4Tx : proc ≠ .ip4Tx → after.txPkt = s.txPkt ∧ after.ip4TxQueue = s.ip4TxQueue)
    (etherTx : proc ≠ .etherTx → after.txdPkt = s.txdPkt ∧ after.etherTxQueue = s.etherTxQueue) :
    after.Served := by
  intro waitproc member
  rw [waiting] at member
  have before := served waitproc member
  have apart := runs waitproc member
  unfold WaitsRightly at before ⊢
  cases other : waitproc.proc with
  | rx =>
      rw [other] at before apart
      rwa [(rx apart.symm).1, (rx apart.symm).2]
  | ip4Tx =>
      rw [other] at before apart
      rwa [(ip4Tx apart.symm).1, (ip4Tx apart.symm).2]
  | etherTx =>
      rw [other] at before apart
      rwa [(etherTx apart.symm).1, (etherTx apart.symm).2]
  | thread id =>
      rw [other] at before
      exact before

variable [DecidableEq B] {mem : Allocator H B}

theorem Served.irqEnet {statusInfo : UInt32} {memory : Bytes} {stale : Ipv4PktInfo}
    (served : s.Served) (taken : s.irqEnet mem statusInfo memory stale = some after) :
    after.Served := by
  rcases irqEnet_eq_some taken with ⟨middle, queues, ⟨currentFrame, rfl⟩ | ⟨pkt, rfl⟩⟩
  · have servedMiddle := served.queues queues
    exact servedMiddle
  · intro waitproc member
    rcases List.mem_filter.mp member with ⟨slept, woken⟩
    have before := served.queues queues waitproc slept
    unfold WaitsRightly at before ⊢
    cases proc : waitproc.proc with
    | rx =>
        rw [proc] at before
        exact absurd before.1 (of_decide_eq_true woken)
    | _ =>
        rw [proc] at before
        exact before

theorem Served.rxHandle (served : s.Served) (runs : s.Runs .rx)
    (handled : s.rxHandle mem = some after) : after.Served := by
  rcases rxHandle_eq_some handled with ⟨_, _, _, _, _, _, _, _, _, _, _, queues, rfl, _⟩
  exact (served.queues queues).of_others (queues.runs runs) rfl (absurd rfl)
    (fun _ => ⟨rfl, rfl⟩) fun _ => ⟨rfl, rfl⟩

theorem Served.ip4Xmit (served : s.Served) (runs : s.Runs .ip4Tx)
    (sent : s.ip4Xmit mem = some after) : after.Served := by
  rcases ip4Xmit_eq_some sent with ⟨_, _, _, _, _, _, queues, rfl⟩
  exact (served.queues queues).of_others (queues.runs runs) rfl (fun _ => ⟨rfl, rfl⟩)
    (absurd rfl) fun _ => ⟨rfl, rfl⟩

theorem Served.ip4Resume (served : s.Served) (runs : s.Runs .ip4Tx)
    (resumed : s.ip4Resume mem = some after) : after.Served := by
  rcases ip4Resume_eq_some resumed with ⟨_, _, _, _, _, _, _, queues, rfl⟩
  exact (served.queues queues).of_others (queues.runs runs) rfl (fun _ => ⟨rfl, rfl⟩)
    (absurd rfl) fun _ => ⟨rfl, rfl⟩

theorem Served.etherXmit (served : s.Served) (runs : s.Runs .etherTx)
    (sent : s.etherXmit mem = some after) : after.Served := by
  rcases etherXmit_eq_some sent with ⟨_, _, _, rfl⟩
  exact served.of_others runs rfl (fun _ => ⟨rfl, rfl⟩) (fun _ => ⟨rfl, rfl⟩) (absurd rfl)

/-- Who goes to sleep has found nothing to do. -/
theorem Served.waitqueueWait {proc : Task} (served : s.Served)
    (slept : s.waitqueueWait mem proc = some after) : after.Served := by
  rcases waitqueueWait_eq_some slept with ⟨queue, block, heap, waits, rfl⟩
  intro waitproc member
  rcases List.mem_cons.mp member with rfl | before
  · cases proc with
    | rx =>
        rcases Option.ite_none_right_eq_some.mp waits with ⟨⟨idle, empty⟩, ⟨⟩⟩
        exact ⟨rfl, Option.isNone_iff_eq_none.mp idle, List.isEmpty_iff.mp empty⟩
    | ip4Tx =>
        unfold waitsOn at waits
        dsimp only at waits
        split at waits
        · rename_i idle
          rcases Option.ite_none_right_eq_some.mp waits with ⟨empty, ⟨⟩⟩
          exact .inl ⟨rfl, idle, List.isEmpty_iff.mp empty⟩
        · contradiction
        · rename_i txPkt resolving
          rcases Option.ite_none_right_eq_some.mp waits with ⟨_, ⟨⟩⟩
          exact .inr ⟨rfl, txPkt, resolving⟩
    | etherTx =>
        rcases Option.ite_none_right_eq_some.mp waits with ⟨⟨idle, empty⟩, ⟨⟩⟩
        exact ⟨rfl, Option.isNone_iff_eq_none.mp idle, List.isEmpty_iff.mp empty⟩
    | thread id =>
        cases waits
        rfl
  · exact served waitproc before

theorem Served.step {event : NetEvent B} (served : s.Served)
    (taken : State.step mem s event = some after) : after.Served := by
  cases event with
  | fragment statusInfo memory stale => exact served.irqEnet taken
  | rxPop =>
      rcases Option.ite_none_right_eq_some.mp taken with ⟨runs, popped⟩
      rcases rxPop_eq_some popped with ⟨_, _, _, _, rfl⟩
      exact served.of_others runs rfl (absurd rfl) (fun _ => ⟨rfl, rfl⟩) fun _ => ⟨rfl, rfl⟩
  | rxHandle =>
      rcases Option.ite_none_right_eq_some.mp taken with ⟨runs, handled⟩
      exact served.rxHandle runs handled
  | ip4Pop =>
      rcases Option.ite_none_right_eq_some.mp taken with ⟨runs, popped⟩
      rcases ip4Pop_eq_some popped with ⟨_, _, _, _, rfl⟩
      exact served.of_others runs rfl (fun _ => ⟨rfl, rfl⟩) (absurd rfl) fun _ => ⟨rfl, rfl⟩
  | ip4Xmit =>
      rcases Option.ite_none_right_eq_some.mp taken with ⟨runs, sent⟩
      exact served.ip4Xmit runs sent
  | ip4Resume =>
      rcases Option.ite_none_right_eq_some.mp taken with ⟨runs, resumed⟩
      exact served.ip4Resume runs resumed
  | etherPop =>
      rcases Option.ite_none_right_eq_some.mp taken with ⟨runs, popped⟩
      rcases etherPop_eq_some popped with ⟨_, _, _, _, rfl⟩
      exact served.of_others runs rfl (fun _ => ⟨rfl, rfl⟩) (fun _ => ⟨rfl, rfl⟩) (absurd rfl)
  | etherXmit =>
      rcases Option.ite_none_right_eq_some.mp taken with ⟨runs, sent⟩
      exact served.etherXmit runs sent
  | wait proc => exact served.waitqueueWait (Option.ite_none_right_eq_some.mp taken).2
  | arpTick =>
      cases taken
      exact served
  | getOther size =>
      rcases Option.map_eq_some_iff.mp taken with ⟨⟨block, first⟩, got, rfl⟩
      have servedFirst := served.queues (queues_getMem got)
      exact servedFirst
  | freeOther block =>
      rcases Option.ite_none_right_eq_some.mp taken with ⟨_, freed⟩
      cases freed
      exact served
  | xmitOther dstIp payloadLen => exact served.queues (queues_ip4XmitPacket taken)
  | setOther tcbHead udpRxRequests =>
      cases taken
      exact served
  | wakeupOther =>
      cases taken
      exact served.queues (queues_waitqueueWakeup .tcp)

end Served

end State

end Lpc17xx.Net
