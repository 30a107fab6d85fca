import Lpc17xx.Net.Blocks
import Lpc17xx.Protocol.Isolation

/-!
# What the network code leaves to the threads

The blocks of everybody else, and the TCBs on `tcb_head`: a segment changes what stands
in a TCB, but no packet puts one on the list or takes one off it.
-/

namespace Lpc17xx.Tcp

/-- Each segment that does not stop the processor leaves the list in its order. -/
theorem rxSegment_linked {tcbHead : List Tcb} {srcIp : UInt32} {incoming : TcpHeader}
    {data : Nat → UInt8} {dataLen : UInt32} {outcome : HostOutcome}
    (received : rxSegment tcbHead srcIp incoming data dataLen = some outcome) :
    outcome.tcbHead.map Tcb.addr = tcbHead.map Tcb.addr := by
  have open_ (index : Nat) (t : Tcb) (selected : SelectedAt tcbHead srcIp incoming index t) :
      t.state ≠ .closeWait := by
    intro closeWait
    rcases selectedAt_iff.mp selected with ⟨position, entry⟩
    simp only [rxSegment, position, entry, rxTcb, closeWait, if_true, Option.map_none] at received
    contradiction
  rcases @rxSegment_isolated _ _ _ data dataLen open_ with ⟨outcome', same, isolated, untouched⟩
  cases received.symm.trans same
  by_cases selected : ∃ index t, SelectedAt tcbHead srcIp incoming index t
  · rcases selected with ⟨index, t, selected⟩
    exact (isolated index t selected).linked
  · rw [untouched fun index t chosen => selected ⟨index, t, chosen⟩]

end Lpc17xx.Tcp

namespace Lpc17xx.Protocol

open Lpc17xx.Arp
open Lpc17xx.Tcp

/-- The places on `tcb_head`. -/
abbrev linkedTcbs (s : Stack) : List Nat :=
  s.tables.tcbHead.map Tcb.addr

theorem udp_linkedTcbs (s : Stack) : linkedTcbs (after udpRxPacket s) = linkedTcbs s := by
  rw [udp_eq]
  exact @keeps_udpRest _ linkedTcbs (fun _ _ _ => rfl) (fun _ _ => rfl) _ _ _ _

/-- Unless it stops the processor, `tcp_rx_packet` leaves the list in its order. -/
theorem tcp_linkedTcbs (s : Stack) (running : s.stopped = false)
    (goesOn : (after tcpRxPacket s).stopped = false) :
    linkedTcbs (after tcpRxPacket s) = linkedTcbs s := by
  let ready := after (readTcpHeader s.pkt.curData) (tcpSwapped s)
  let incoming := tcpHeaderAt (tcpSwapped s).pkt.memory s.pkt.curData
  let data := s.pkt.curData + (tcpHeaderLen s).toNat
  let dataLen := s.pkt.curDataLength - tcpHeaderLen s
  have still : ready.stopped = false := running
  have delivered := tcpDeliver_outcome ready incoming data dataLen still
  cases received : rxSegment ready.tables.tcbHead ready.pkt.ip4Info.srcIp incoming
      (fun i => ready.pkt.memory (data + i)) dataLen with
  | none =>
      rw [received] at delivered
      have stopped : (after tcpRxPacket s).stopped = true := (Prod.mk.inj delivered).2
      rw [stopped] at goesOn
      contradiction
  | some outcome =>
      rw [received] at delivered
      have tables : (after tcpRxPacket s).tables =
          { s.tables with
            tcbHead := outcome.tcbHead
            tcpSent := s.tables.tcpSent ++ outcome.sent } := (Prod.mk.inj delivered).1
      rw [linkedTcbs, tables]
      exact rxSegment_linked received

theorem arpDelivered_tcbHead (tables : Tables) (packet : ArpPacket) :
    (arpDelivered tables packet).tcbHead = tables.tcbHead := by
  unfold arpDelivered arpFulfilled
  split
  · split
    · split
      · rfl
      · rfl
    · split
      · split
        · split
          · rfl
          · rfl
        · rfl
      · rfl
  · rfl

/-- No handler puts a TCB on the list or takes one off it. -/
theorem handle_linkedTcbs (s : Stack) (running : s.stopped = false)
    (goesOn : s.handle.stopped = false) : linkedTcbs s.handle = linkedTcbs s := by
  cases layer : s.pkt.handler with
  | ethernet => rw [handle_ethernet layer, linkedTcbs, ethernet_tables]
  | ipv4 => rw [handle_ipv4 layer, linkedTcbs, ipv4_tables]
  | udp => rw [handle_udp layer, udp_linkedTcbs]
  | tcp =>
      rw [handle_tcp layer] at goesOn ⊢
      exact tcp_linkedTcbs s running goesOn
  | arp => rw [handle_arp layer, linkedTcbs, arp_delivers, arpDelivered_tcbHead]
  | drop =>
      rw [Stack.handle, layer]
      rfl

end Lpc17xx.Protocol

namespace Lpc17xx.Net

open Lpc17xx.Arp
open Lpc17xx.Link
open Lpc17xx.Memory
open Lpc17xx.Protocol
open Lpc17xx.Queue
open Lpc17xx.Tcp

namespace State

variable {H B : Type}

/-- The blocks of everybody else and the list of TCBs are as they were. -/
structure Spares (s after : State H B) : Prop where
  others : after.others = s.others
  tcbHead : after.tables.tcbHead = s.tables.tcbHead

variable [DecidableEq B] {mem : Allocator H B} {s middle after : State H B}

omit [DecidableEq B] in
theorem Spares.refl : Spares s s :=
  ⟨rfl, rfl⟩

omit [DecidableEq B] in
theorem Spares.trans (first : Spares s middle) (second : Spares middle after) :
    Spares s after :=
  ⟨second.others.trans first.others, second.tcbHead.trans first.tcbHead⟩

theorem spares_getMem {size : Nat} {block : B} (got : s.getMem mem size = some (block, after)) :
    Spares s after := by
  rw [getMem_eq got]
  exact ⟨rfl, rfl⟩

theorem spares_etherTx {len : Nat} (sent : s.etherTx mem len = some after) : Spares s after := by
  simp only [etherTx, Option.bind_eq_bind, Option.bind_eq_some_iff, Prod.exists,
    Option.some.injEq] at sent
  rcases sent with ⟨newPacket, first, got, payloadCopy, second, copied, rfl⟩
  exact (spares_getMem got).trans ((spares_getMem copied).trans ⟨rfl, rfl⟩)

theorem spares_ip4XmitPacket {dstIp : UInt32} {payloadLen : UInt16}
    (sent : s.ip4XmitPacket mem dstIp payloadLen = some after) : Spares s after := by
  simp only [ip4XmitPacket, Option.bind_eq_bind, Option.bind_eq_some_iff, Prod.exists,
    Option.some.injEq] at sent
  rcases sent with ⟨newPacket, first, got, payloadCopy, second, copied, rfl⟩
  exact (spares_getMem got).trans ((spares_getMem copied).trans ⟨rfl, rfl⟩)

theorem spares_tcpTx {tx : TcpTx} (sent : s.tcpTx mem tx = some after) : Spares s after := by
  simp only [tcpTx, Option.bind_eq_bind, Option.bind_eq_some_iff, Prod.exists,
    Option.some.injEq] at sent
  rcases sent with ⟨sumBuf, first, got, buf, second, copied, third, queued, rfl⟩
  have freed : Spares first (first.freeMem mem sumBuf) := ⟨rfl, rfl⟩
  exact (spares_getMem got).trans (freed.trans ((spares_getMem copied).trans
    ((spares_ip4XmitPacket queued).trans ⟨rfl, rfl⟩)))

theorem spares_tcpTxs {sent : List TcpTx} (transmitted : s.tcpTxs mem sent = some after) :
    Spares s after := by
  induction sent generalizing s with
  | nil =>
      cases transmitted
      exact .refl
  | cons tx sent ih =>
      rcases Option.bind_eq_some_iff.mp transmitted with ⟨first, one, rest⟩
      exact (spares_tcpTx one).trans (ih rest)

theorem spares_tcpRxPacket {sent : List TcpTx} {referenced : Bool}
    (received : s.tcpRxPacket mem sent referenced = some after) : Spares s after := by
  rcases Option.map_eq_some_iff.mp received with ⟨first, transmitted, rfl⟩
  apply (spares_tcpTxs transmitted).trans
  split
  · exact ⟨rfl, rfl⟩
  · exact .refl

theorem spares_gather {fragLen : Nat} {frame : B × Nat}
    (gathered : s.gather mem fragLen = some (frame, after)) : Spares s after := by
  unfold gather at gathered
  split at gathered
  · simp only [Option.bind_eq_bind, Option.bind_eq_some_iff, Prod.exists, Option.some.injEq,
      Prod.mk.injEq] at gathered
    rcases gathered with ⟨newFrameBuf, first, got, _, rfl⟩
    exact (spares_getMem got).trans ⟨rfl, rfl⟩
  · simp only [Option.bind_eq_bind, Option.bind_eq_some_iff, Prod.exists, Option.some.injEq,
      Prod.mk.injEq] at gathered
    rcases gathered with ⟨newFrameBuf, first, got, _, rfl⟩
    exact spares_getMem got

theorem spares_irqEnet {statusInfo : UInt32} {memory : Bytes} {stale : Ipv4PktInfo}
    (taken : s.irqEnet mem statusInfo memory stale = some after) : Spares s after := by
  simp only [irqEnet, Option.bind_eq_bind, Option.bind_eq_some_iff, Prod.exists] at taken
  rcases taken with ⟨frame, frameLen, first, gathered, taken⟩
  apply (spares_gather gathered).trans
  split at taken
  · simp only [packetInject, Option.bind_eq_bind, Option.bind_eq_some_iff, Prod.exists,
      Option.some.injEq] at taken
    rcases taken with ⟨block, second, got, rfl⟩
    exact (spares_getMem got).trans ⟨rfl, rfl⟩
  · cases taken
    exact ⟨rfl, rfl⟩

theorem spares_arpRxPacket {pending : List ArpPendingRequest} {packet : ArpPacket}
    (received : s.arpRxPacket mem pending packet = some after) : Spares s after := by
  unfold arpRxPacket at received
  split at received
  · split at received
    · split at received
      · simp only [arpRespond, Option.bind_eq_bind, Option.bind_eq_some_iff,
          Prod.exists] at received
        rcases received with ⟨resp, first, got, sent⟩
        exact (spares_getMem got).trans (spares_etherTx sent)
      · cases received
        exact .refl
    · split at received
      · split at received
        · rcases Option.map_eq_some_iff.mp received with ⟨first, fulfilled, rfl⟩
          unfold arpFulfil at fulfilled
          split at fulfilled
          · simp only [Option.bind_eq_bind, Option.bind_eq_some_iff, Prod.exists,
              Option.some.injEq] at fulfilled
            rcases fulfilled with ⟨newArpEntry, second, got, rfl⟩
            exact (spares_getMem got).trans ⟨rfl, rfl⟩
          · cases fulfilled
            exact ⟨rfl, rfl⟩
        · cases received
          exact .refl
      · cases received
        exact .refl
  · cases received
    exact .refl

theorem spares_handlerMem {before handled : Stack}
    (managed : s.handlerMem mem before handled = some after) : Spares s after := by
  unfold handlerMem at managed
  split at managed
  · exact spares_arpRxPacket managed
  · exact spares_tcpRxPacket managed
  · cases managed
    exact .refl

theorem spares_ip4DoXmit {txPkt : Ip4Entry B} (sent : s.ip4DoXmit mem txPkt = some after) :
    Spares s after := by
  simp only [ip4DoXmit, Option.bind_eq_bind, Option.bind_eq_some_iff, Prod.exists,
    Option.some.injEq] at sent
  rcases sent with ⟨packetBuf, first, got, second, queued, rfl⟩
  exact (spares_getMem got).trans ((spares_etherTx queued).trans ⟨rfl, rfl⟩)

theorem spares_ip4Xmit (sent : s.ip4Xmit mem = some after) : Spares s after := by
  unfold ip4Xmit at sent
  split at sent
  · dsimp only at sent
    split at sent
    · rcases Option.map_eq_some_iff.mp sent with ⟨first, transmitted, rfl⟩
      exact (spares_ip4DoXmit transmitted).trans ⟨rfl, rfl⟩
    · rcases Option.map_eq_some_iff.mp sent with ⟨first, requested, rfl⟩
      simp only [sendRequest, Option.bind_eq_bind, Option.bind_eq_some_iff,
        Prod.exists] at requested
      rcases requested with ⟨arpRequest, second, got, queued⟩
      have transmitted := spares_etherTx queued
      have linked : Spares second first := ⟨transmitted.others, transmitted.tcbHead⟩
      exact (spares_getMem got).trans (linked.trans ⟨rfl, rfl⟩)
  · contradiction

theorem spares_ip4Resume (resumed : s.ip4Resume mem = some after) : Spares s after := by
  unfold ip4Resume at resumed
  split at resumed
  · rename_i arpFinished _ _
    have unlinked : Spares s { s with tables := { s.tables with arpFinished } } := ⟨rfl, rfl⟩
    dsimp only at resumed
    split at resumed
    · cases resumed
      exact ⟨rfl, rfl⟩
    · rcases Option.map_eq_some_iff.mp resumed with ⟨first, transmitted, rfl⟩
      exact unlinked.trans ((spares_ip4DoXmit transmitted).trans ⟨rfl, rfl⟩)
  · contradiction

theorem spares_etherXmit (sent : s.etherXmit mem = some after) : Spares s after := by
  simp only [etherXmit, Option.bind_eq_bind, Option.bind_eq_some_iff, Prod.exists,
    Option.some.injEq] at sent
  rcases sent with ⟨txdPkt, held, header, first, got, rfl⟩
  exact (spares_getMem got).trans ⟨rfl, rfl⟩

theorem spares_waitqueueWait {proc : Task} (slept : s.waitqueueWait mem proc = some after) :
    Spares s after := by
  simp only [waitqueueWait, Option.bind_eq_bind, Option.bind_eq_some_iff, Prod.exists,
    Option.some.injEq] at slept
  rcases slept with ⟨queue, _, block, first, got, rfl⟩
  exact (spares_getMem got).trans ⟨rfl, rfl⟩

theorem spares_rxHandle (handled : s.rxHandle mem = some after) :
    after.others = s.others ∧
      after.tables.tcbHead.map Tcb.addr = s.tables.tcbHead.map Tcb.addr := by
  unfold rxHandle at handled
  split at handled
  · contradiction
  · rename_i pkt held
    rcases Option.ite_none_left_eq_some.mp handled with ⟨goesOn, handled⟩
    rcases Option.map_eq_some_iff.mp handled with ⟨first, managed, rfl⟩
    have spared := spares_handlerMem managed
    have listed : linkedTcbs (s.handed pkt.pkt).handle = s.tables.tcbHead.map Tcb.addr :=
      handle_linkedTcbs (s.handed pkt.pkt) rfl (Bool.eq_false_iff.mpr goesOn)
    have middle : first.others = s.others ∧
        first.tables.tcbHead.map Tcb.addr = s.tables.tcbHead.map Tcb.addr :=
      ⟨spared.others, by rw [spared.tcbHead]; exact listed⟩
    split
    · exact middle
    · exact middle

/-- Everybody else's blocks stay until they are freed, and the list of TCBs changes only
where somebody sets it. -/
theorem linked_step {event : NetEvent B} (taken : step mem s event = some after)
    (unset : ∀ tcbHead udpRxRequests, event ≠ .setOther tcbHead udpRxRequests) :
    after.tables.tcbHead.map Tcb.addr = s.tables.tcbHead.map Tcb.addr ∧
      ∀ block ∈ s.others, event ≠ .freeOther block → block ∈ after.others := by
  have spared (spares : Spares s after) :
      after.tables.tcbHead.map Tcb.addr = s.tables.tcbHead.map Tcb.addr ∧
        ∀ block ∈ s.others, event ≠ .freeOther block → block ∈ after.others := by
    rw [spares.tcbHead, spares.others]
    exact ⟨rfl, fun _ member _ => member⟩
  cases event with
  | fragment statusInfo memory stale => exact spared (spares_irqEnet taken)
  | rxPop =>
      rcases Option.ite_none_right_eq_some.mp taken with ⟨_, popped⟩
      rcases rxPop_eq_some popped with ⟨_, _, _, _, rfl⟩
      exact spared ⟨rfl, rfl⟩
  | rxHandle =>
      rcases spares_rxHandle (Option.ite_none_right_eq_some.mp taken).2 with ⟨others, listed⟩
      rw [others]
      exact ⟨listed, fun _ member _ => member⟩
  | ip4Pop =>
      rcases Option.ite_none_right_eq_some.mp taken with ⟨_, popped⟩
      rcases ip4Pop_eq_some popped with ⟨_, _, _, _, rfl⟩
      exact spared ⟨rfl, rfl⟩
  | ip4Xmit => exact spared (spares_ip4Xmit (Option.ite_none_right_eq_some.mp taken).2)
  | ip4Resume => exact spared (spares_ip4Resume (Option.ite_none_right_eq_some.mp taken).2)
  | etherPop =>
      rcases Option.ite_none_right_eq_some.mp taken with ⟨_, popped⟩
      rcases etherPop_eq_some popped with ⟨_, _, _, _, rfl⟩
      exact spared ⟨rfl, rfl⟩
  | etherXmit => exact spared (spares_etherXmit (Option.ite_none_right_eq_some.mp taken).2)
  | wait proc => exact spared (spares_waitqueueWait (Option.ite_none_right_eq_some.mp taken).2)
  | arpTick =>
      cases taken
      exact spared ⟨rfl, rfl⟩
  | getOther size =>
      rcases Option.map_eq_some_iff.mp taken with ⟨⟨block, first⟩, got, rfl⟩
      have spares := spares_getMem got
      refine ⟨congrArg (List.map Tcb.addr) spares.tcbHead, ?_⟩
      intro other member _
      exact List.mem_cons_of_mem block (spares.others ▸ member)
  | freeOther block =>
      rcases Option.ite_none_right_eq_some.mp taken with ⟨_, taken⟩
      cases taken
      refine ⟨rfl, ?_⟩
      intro other member kept
      have apart : other ≠ block := by
        rintro rfl
        exact kept rfl
      exact (List.mem_erase_of_ne apart).mpr member
  | xmitOther dstIp payloadLen => exact spared (spares_ip4XmitPacket taken)
  | setOther tcbHead udpRxRequests => exact absurd rfl (unset tcbHead udpRxRequests)
  | wakeupOther =>
      cases taken
      exact spared ⟨rfl, rfl⟩

end State

end Lpc17xx.Net
