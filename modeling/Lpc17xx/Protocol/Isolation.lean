import Lpc17xx.Protocol.Padding
import Lpc17xx.Tcp.Isolation

/-!
# `tcp_rx_packet` on a packet

The ports that select the TCB are read from the packet in network order, and the source
address is the one that `ipv4_rx_packet` has left in the packet.
-/

namespace Lpc17xx.Protocol

open Lpc17xx.Memory
open Lpc17xx.Tcp

/-- The TCB that the packet is for. -/
def Stack.SelectedTcb (s : Stack) (index : Nat) (t : Tcb) : Prop :=
  SelectedAt s.tables.tcbHead s.pkt.ip4Info.srcIp
    (tcpHeaderFrom s.pkt.memory s.pkt.curData) index t

/-- `tcp_rx_packet` as a function of the segment. -/
theorem tcp_outcome {s : Stack} (running : s.stopped = false) {outcome : HostOutcome}
    (received : rxSegment s.tables.tcbHead s.pkt.ip4Info.srcIp
      (tcpHeaderFrom s.pkt.memory s.pkt.curData)
      (fun i => (tcpSwapped s).pkt.memory (s.pkt.curData + (tcpHeaderLen s).toNat + i))
      (s.pkt.curDataLength - tcpHeaderLen s) = some outcome) :
    (after tcpRxPacket s).tables =
        { s.tables with
          tcbHead := outcome.tcbHead
          tcpSent := s.tables.tcpSent ++ outcome.sent } ∧
      (after tcpRxPacket s).stopped = false := by
  let ready := after (readTcpHeader s.pkt.curData) (tcpSwapped s)
  have incoming : tcpHeaderAt (tcpSwapped s).pkt.memory s.pkt.curData =
      tcpHeaderFrom s.pkt.memory s.pkt.curData := by
    rw [tcpSwapped_memory, tcpHeaderAt_swapped]
  have still : ready.stopped = false := running
  have delivered := tcpDeliver_outcome ready (tcpHeaderAt (tcpSwapped s).pkt.memory s.pkt.curData)
    (s.pkt.curData + (tcpHeaderLen s).toNat) (s.pkt.curDataLength - tcpHeaderLen s) still
  have segment : rxSegment ready.tables.tcbHead ready.pkt.ip4Info.srcIp
      (tcpHeaderAt (tcpSwapped s).pkt.memory s.pkt.curData)
      (fun i => ready.pkt.memory (s.pkt.curData + (tcpHeaderLen s).toNat + i))
      (s.pkt.curDataLength - tcpHeaderLen s) = some outcome := by
    rw [incoming]
    exact received
  rw [segment] at delivered
  exact Prod.mk.inj delivered

/-- A segment changes the TCB it is for and no other, keeps the list of TCBs in its
order, and is answered only to the peer of that TCB; a segment for no TCB changes none.
The TCBs lie apart from the frame, in which the header is swapped: this speaks of the code
for packets with all 20 bytes of their header, and of no shorter ones. -/
theorem tcpRxPacket_isolated (s : Stack) (running : s.stopped = false)
    (open_ : ∀ index t, s.SelectedTcb index t → t.state ≠ .closeWait) :
    ∃ tcbHead replies,
      (after tcpRxPacket s).tables =
        { s.tables with tcbHead, tcpSent := s.tables.tcpSent ++ replies } ∧
      (after tcpRxPacket s).stopped = false ∧
      (∀ index t, s.SelectedTcb index t → Isolated s.tables.tcbHead index t tcbHead replies) ∧
      ((∀ index t, ¬s.SelectedTcb index t) → tcbHead = s.tables.tcbHead) := by
  rcases @rxSegment_isolated _ _ _ _ _ open_ with ⟨outcome, received, isolated, untouched⟩
  rcases tcp_outcome running received with ⟨tables, still⟩
  exact ⟨outcome.tcbHead, outcome.sent, tables, still, isolated, untouched⟩

/-- The acknowledgement that `main` is sent, at `tcp_rx_packet`, on a host that also
listens on the port of the connection. -/
def ackAtTcp : Stack where
  pkt :=
    { packetCreate (paddedAck.memory fun _ => 0) paddedAck.length ⟨0xc0a80476, ourIpAddress⟩ with
      curData := 34
      curDataLength := 26 }
  tables :=
    { emptyTables with
      tcbHead := [tcpListenTcb 1 65355 (List.replicate 127 0) length_clearedBlock,
        mainConnection] }
  stopped := false

theorem selectedTcb_ackAtTcp : ackAtTcp.SelectedTcb 1 mainConnection := by
  apply selectedAt_iff.mpr
  decide +kernel

/-- The acknowledgement leaves the listener alone. -/
theorem tcpRxPacket_isolated_ackAtTcp :
    (after tcpRxPacket ackAtTcp).tables.tcbHead[0]? = ackAtTcp.tables.tcbHead[0]? := by
  have open_ : ∀ index t, ackAtTcp.SelectedTcb index t → t.state ≠ .closeWait := by
    intro index t selected
    have here := (selectedAt_iff.mp selected).2
    rcases List.mem_pair.mp (List.mem_of_getElem? here) with rfl | rfl
    · decide
    · decide
  rcases tcpRxPacket_isolated ackAtTcp rfl open_ with ⟨tcbHead, replies, tables, _, isolated, _⟩
  rw [tables]
  exact (isolated 1 mainConnection selectedTcb_ackAtTcp).others 0 (by decide)

end Lpc17xx.Protocol
