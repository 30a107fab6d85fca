import Lpc17xx.Protocol.Delivery
import Lpc17xx.Tcp.Api

/-!
# Bytes behind the datagram

A frame can be longer than the datagram it carries, and a short one always is:
the sender pads it to the minimum of Ethernet.  `ipv4_rx_packet` swaps
`tot_length` and `udp_rx_packet` the length of its header, but nobody reads
them, so whatever follows the datagram becomes payload.
-/

namespace Lpc17xx.Protocol

open Lpc17xx.Cbuf
open Lpc17xx.Memory
open Lpc17xx.Tcp

namespace Frame

variable (frame : Frame)

/-- The bytes of the frame by their position. -/
abbrev received : Bytes :=
  frame.memory fun _ => 0

theorem memory_eq_received (heap : Bytes) {i : Nat} (bound : i < frame.bytes.length) :
    frame.memory heap i = frame.received i := by
  simp [memory, bound]

/-- From some position on, the frame is what was received from there. -/
theorem bytesAt_received (start : Nat) :
    bytesAt (fun i => frame.received (start + i)) (frame.bytes.length - start) =
      frame.bytes.drop start := by
  rw [← List.length_drop]
  refine Eq.trans ?_ (bytesAt_getD (frame.bytes.drop start) 0)
  apply bytesAt_congr
  intro i _
  simp [memory, List.getD_eq_getElem?_getD, List.getElem?_drop]

/-- The length of the IPv4 header. -/
def ipHeaderLen : Nat :=
  (ihlBytes (frame.received 14)).toNat

/-- `tot_length`. -/
def totLength : Nat :=
  (big16 frame.received 16).toNat

/-- The length of the transport's header. -/
def transportHeaderLen : Nat :=
  if frame.received 23 = ipProtoTcp then
    (dataOffsetBytes (frame.received (14 + frame.ipHeaderLen + 12))).toNat
  else 8

/-- The position of the payload. -/
def payloadStart : Nat :=
  14 + frame.ipHeaderLen + frame.transportHeaderLen

end Frame

/-- A frame that carries a UDP or TCP datagram for this host.  The headers are
whole, the lengths they state fit each other, and the frame holds all of the
datagram. -/
structure DatagramFrame extends Frame where
  etherType : big16 toFrame.received 12 = etherTypeIp
  ihl : 20 ≤ toFrame.ipHeaderLen
  ttl : toFrame.received 22 ≠ 0
  ours : big32 toFrame.received 30 = ourIpAddress
  transport : toFrame.received 23 = ipProtoTcp ∨ toFrame.received 23 = ipProtoUdp
  dataOffset : toFrame.received 23 = ipProtoTcp → 20 ≤ toFrame.transportHeaderLen
  total : toFrame.ipHeaderLen + toFrame.transportHeaderLen ≤ toFrame.totLength
  whole : 14 + toFrame.totLength ≤ toFrame.bytes.length

namespace DatagramFrame

variable (frame : DatagramFrame)

/-- The payload of the datagram. -/
def payload : List UInt8 :=
  (frame.bytes.drop frame.payloadStart).take
    (frame.totLength - frame.ipHeaderLen - frame.transportHeaderLen)

/-- What the frame holds behind the datagram. -/
def trailing : List UInt8 :=
  frame.bytes.drop (14 + frame.totLength)

/-- The tables after the datagram's transport has seen `payload`, and whether
`rx_task` hangs in it. -/
def delivered (tables : Tables) (payload : List UInt8) : Tables × Bool :=
  if frame.received 23 = ipProtoTcp then
    tcpDelivered tables (big32 frame.received 26)
      (tcpHeaderFrom frame.received (14 + frame.ipHeaderLen)) payload
  else udpDelivered tables (big16 frame.received (14 + frame.ipHeaderLen + 2)) payload

theorem length_payload :
    frame.payload.length = frame.totLength - frame.ipHeaderLen - frame.transportHeaderLen := by
  have total := frame.total
  have whole := frame.whole
  have start : frame.payloadStart = 14 + frame.ipHeaderLen + frame.transportHeaderLen := rfl
  rw [payload, List.length_take, List.length_drop]
  omega

theorem payload_append_trailing :
    frame.payload ++ frame.trailing = frame.bytes.drop frame.payloadStart := by
  have total := frame.total
  have behind : frame.payloadStart +
      (frame.totLength - frame.ipHeaderLen - frame.transportHeaderLen) = 14 + frame.totLength := by
    change 14 + frame.ipHeaderLen + frame.transportHeaderLen + _ = _
    omega
  rw [payload, trailing, ← behind, ← List.drop_drop]
  exact List.take_append_drop _ _

end DatagramFrame

/-- The packet has come to the header at `start`.  That header and everything
behind it are as they were received. -/
structure Reached (frame : Frame) (tables : Tables) (layer : ProtocolType) (start : Nat)
    (s : Stack) : Prop where
  handler : s.pkt.handler = layer
  curData : s.pkt.curData = start
  inside : InFrame frame.bytes.length s.pkt
  running : s.stopped = false
  tables : s.tables = tables
  behind : ∀ i, start ≤ i → i < frame.bytes.length → s.pkt.memory i = frame.received i

section Chain

variable {frame : DatagramFrame} {tables : Tables} {s : Stack}

theorem reached_ethernet (heap : Bytes) (stale : Ipv4PktInfo) :
    Reached frame.toFrame tables .ethernet 0
      (inject tables (frame.memory heap) frame.length stale) where
  handler := rfl
  curData := rfl
  inside := frame.inFrame_inject tables heap stale
  running := rfl
  tables := rfl
  behind := fun _ _ bound => frame.memory_eq_received heap bound

theorem Reached.ethernet (here : Reached frame.toFrame tables .ethernet 0 s) :
    Reached frame.toFrame tables .ipv4 14 s.handle := by
  have total := frame.total
  have whole := frame.whole
  have ihl := frame.ihl
  have etherType : big16 s.pkt.memory (s.pkt.curData + 12) = etherTypeIp := by
    rw [here.curData, ← frame.etherType]
    exact big16_congr fun i _ => here.behind _ (by omega) (by omega)
  have other : etherTypeIp ≠ etherTypeArp := by decide
  rw [handle_ethernet here.handler]
  constructor
  · rw [ethernet_handler, etherType, if_neg other, if_pos rfl]
  · rw [ethernet_curData, here.curData]
  · rw [ethernet_inFrame_iff s here.inside, here.curData]
    omega
  · rw [ethernet_stopped, here.running]
  · rw [ethernet_tables, here.tables]
  · intro i low bound
    rw [ethernet_memory, here.curData, swap16_of_outside (by omega)]
    exact here.behind i (by omega) bound

/-- The transport that the datagram names. -/
def DatagramFrame.layer (frame : DatagramFrame) : ProtocolType :=
  if frame.received 23 = ipProtoTcp then .tcp else .udp

theorem Reached.ipv4 (here : Reached frame.toFrame tables .ipv4 14 s) :
    Reached frame.toFrame tables frame.layer (14 + frame.ipHeaderLen) s.handle ∧
      s.handle.pkt.ip4Info.srcIp = big32 frame.received 26 := by
  have total := frame.total
  have whole := frame.whole
  have ihl := frame.ihl
  have byte (i : Nat) (low : 14 ≤ i) (high : i < 34) : s.pkt.memory i = frame.received i :=
    here.behind i low (by omega)
  have word (i : Nat) (low : 14 ≤ i) (high : i < 31) :
      big32 s.pkt.memory i = big32 frame.received i :=
    big32_congr fun j _ => byte (i + j) (by omega) (by omega)
  have length : headerLen s = ihlBytes (frame.received 14) := by
    rw [headerLen, here.curData, byte 14 (by omega) (by omega)]
  have lengthNat : (headerLen s).toNat = frame.ipHeaderLen := by rw [length]; rfl
  have ttl : s.pkt.memory (s.pkt.curData + 8) ≠ 0 := by
    rw [here.curData, byte _ (by omega) (by omega)]
    exact frame.ttl
  have ours : big32 s.pkt.memory (s.pkt.curData + 16) = ourIpAddress := by
    rw [here.curData, word _ (by omega) (by omega)]
    exact frame.ours
  rw [handle_ipv4 here.handler]
  constructor
  · constructor
    · rw [ipv4_handler, if_neg ttl, if_neg (not_not_intro ours), here.curData,
        byte _ (by omega) (by omega), DatagramFrame.layer]
      rcases frame.transport with tcp | udp
      · rw [if_pos tcp, if_pos tcp]
      · have other : ipProtoUdp ≠ ipProtoTcp := by decide
        rw [udp, if_neg other, if_neg other, if_pos rfl]
    · rw [ipv4_curData, here.curData, lengthNat]
    · rw [ipv4_inFrame_iff s here.inside, here.curData, lengthNat]
      omega
    · rw [ipv4_stopped, here.running]
    · rw [ipv4_tables, here.tables]
    · intro i low bound
      rw [ipv4_memory, here.curData, ip4Swapped_of_outside (by omega)]
      exact here.behind i (by omega) bound
  · rw [ipv4_ip4Info s ttl ours, here.curData]
    exact word _ (by omega) (by omega)

/-- With the cursor at the payload, the packet works on all the rest of the
frame. -/
theorem workedOn_eq {pkt : Packet} (cursor : pkt.curData = frame.payloadStart)
    (inside : InFrame frame.bytes.length pkt)
    (behind : ∀ i, frame.payloadStart ≤ i → i < frame.bytes.length →
      pkt.memory i = frame.received i) :
    pkt.workedOn = frame.payload ++ frame.trailing := by
  rw [frame.payload_append_trailing, ← frame.bytesAt_received, Packet.workedOn,
    inside.curDataLength, cursor]
  apply bytesAt_congr
  intro i bound
  exact behind _ (by omega) (by omega)

/-- What the last handler leaves: everything behind the headers was the payload
it worked on. -/
structure Finished (frame : DatagramFrame) (tables : Tables) (s : Stack) : Prop where
  dropped : s.pkt.handler = .drop
  workedOn : s.pkt.workedOn = frame.payload ++ frame.trailing
  delivered : (s.tables, s.stopped) = frame.delivered tables s.pkt.workedOn

theorem Reached.udp (here : Reached frame.toFrame tables .udp (14 + frame.ipHeaderLen) s)
    (udp : frame.received 23 ≠ ipProtoTcp) : Finished frame tables s.handle := by
  have total := frame.total
  have whole := frame.whole
  have size : frame.transportHeaderLen = 8 := if_neg udp
  have start : frame.payloadStart = 14 + frame.ipHeaderLen + 8 := by
    rw [Frame.payloadStart, size]
  have port : big16 s.pkt.memory (14 + frame.ipHeaderLen + 2) =
      big16 frame.received (14 + frame.ipHeaderLen + 2) :=
    big16_congr fun i _ => here.behind _ (by omega) (by omega)
  rw [handle_udp here.handler]
  constructor
  · exact udp_handler s
  · apply workedOn_eq
    · rw [udp_curData, here.curData, start]
    · rw [udp_inFrame_iff s here.inside, here.curData]
      omega
    · intro i low bound
      rw [udp_memory_behind s (by rw [here.curData]; omega)]
      exact here.behind i (by omega) bound
  · rw [udp_delivers s here.running, here.tables, here.curData, port, DatagramFrame.delivered,
      if_neg udp]

theorem tcpHeaderFrom_congr {memory memory' : Bytes} {header : Nat}
    (same : ∀ i < 20, memory' (header + i) = memory (header + i)) :
    tcpHeaderFrom memory' header = tcpHeaderFrom memory header := by
  have half (i : Nat) (bound : i + 2 ≤ 20) :
      big16 memory' (header + i) = big16 memory (header + i) :=
    big16_congr fun j _ => by rw [Nat.add_assoc, same _ (by omega)]
  have word (i : Nat) (bound : i + 4 ≤ 20) :
      big32 memory' (header + i) = big32 memory (header + i) :=
    big32_congr fun j _ => by rw [Nat.add_assoc, same _ (by omega)]
  have first : big16 memory' header = big16 memory header := half 0 (by omega)
  simp (disch := omega) only [tcpHeaderFrom, tcpHeaderAt, first, half, word, same]

theorem Reached.tcp (here : Reached frame.toFrame tables .tcp (14 + frame.ipHeaderLen) s)
    (source : s.pkt.ip4Info.srcIp = big32 frame.received 26)
    (tcp : frame.received 23 = ipProtoTcp) : Finished frame tables s.handle := by
  have total := frame.total
  have whole := frame.whole
  have sized := frame.dataOffset tcp
  have start : frame.payloadStart = 14 + frame.ipHeaderLen + frame.transportHeaderLen := rfl
  have offset : s.pkt.memory (14 + frame.ipHeaderLen + 12) =
      frame.received (14 + frame.ipHeaderLen + 12) := here.behind _ (by omega) (by omega)
  have length : (tcpHeaderLen s).toNat = frame.transportHeaderLen := by
    rw [tcpHeaderLen, here.curData, offset, Frame.transportHeaderLen, if_pos tcp]
  have header : tcpHeaderFrom s.pkt.memory (14 + frame.ipHeaderLen) =
      tcpHeaderFrom frame.received (14 + frame.ipHeaderLen) :=
    tcpHeaderFrom_congr fun i _ => here.behind _ (by omega) (by omega)
  rw [handle_tcp here.handler]
  constructor
  · exact tcp_handler s
  · apply workedOn_eq
    · rw [tcp_curData, here.curData, length, start]
    · rw [tcp_inFrame_iff s here.inside, here.curData, length]
      omega
    · intro i low bound
      rw [tcp_memory_behind s (by rw [here.curData]; omega)]
      exact here.behind i (by omega) bound
  · rw [tcp_delivers s (by rw [length]; exact sized) here.running, here.tables, here.curData,
      source, header, DatagramFrame.delivered, if_pos tcp]

/-- Whatever is in the tables, the chain takes the padding for payload. -/
theorem rxTask_finished (frame : DatagramFrame) (tables : Tables) (heap : Bytes)
    (stale : Ipv4PktInfo) :
    ∃ last, (rxTask tables (frame.memory heap) frame.length stale).getLast? = some last ∧
      Finished frame tables last := by
  have first : Reached frame.toFrame tables .ethernet 0
      (inject tables (frame.memory heap) frame.length stale) := reached_ethernet heap stale
  have second := first.ethernet
  rcases second.ipv4 with ⟨third, source⟩
  have passed : frame.layer ≠ .drop := by
    unfold DatagramFrame.layer
    split
    · decide
    · decide
  have last : Finished frame tables
      (inject tables (frame.memory heap) frame.length stale).handle.handle.handle := by
    rcases Decidable.em (frame.received 23 = ipProtoTcp) with tcp | udp
    · rw [DatagramFrame.layer, if_pos tcp] at third
      exact third.tcp source tcp
    · rw [DatagramFrame.layer, if_neg udp] at third
      exact third.udp udp
  refine ⟨_, ?_, last⟩
  rw [rxTask, rxLoop_next (by rw [second.handler]; decide) second.running,
    rxLoop_next (by rw [third.handler]; exact passed) third.running, rxLoop_last last.dropped]
  rfl

end Chain

/-- The chain has ended, and its transport has worked on the payload of the
datagram and nothing else. -/
def OwnPayload (frame : DatagramFrame) (tables : Tables) (states : List Stack) : Prop :=
  ∃ last, states.getLast? = some last ∧
    last.pkt.curDataLength.toNat =
      frame.totLength - frame.ipHeaderLen - frame.transportHeaderLen ∧
    last.pkt.workedOn = frame.payload ∧
    (last.tables, last.stopped) = frame.delivered tables frame.payload

/-- For every datagram to this host, all table states and whatever the heap
holds: the transport works on the payload of the datagram exactly when the frame
ends with it. -/
theorem rxTask_ownPayload_iff (frame : DatagramFrame) (tables : Tables) (heap : Bytes)
    (stale : Ipv4PktInfo) :
    OwnPayload frame tables (rxTask tables (frame.memory heap) frame.length stale) ↔
      frame.trailing = [] := by
  rcases rxTask_finished frame tables heap stale with ⟨last, isLast, finished⟩
  have worked := finished.workedOn
  constructor
  · rintro ⟨_, isLast', _, own, _⟩
    rw [Option.some.inj (isLast'.symm.trans isLast), worked] at own
    exact List.append_right_eq_self.mp own
  · intro ends
    rw [ends, List.append_nil] at worked
    refine ⟨last, isLast, ?_, worked, ?_⟩
    · rw [← frame.length_payload, ← worked, Packet.workedOn, length_bytesAt]
    · rw [finished.delivered, worked]

/-- A bare acknowledgement from the peer of `main`, 40 bytes long and padded by
six. -/
def paddedAck : DatagramFrame where
  bytes :=
    [0, 1, 2, 3, 4, 5, 2, 0, 0, 0, 0, 1, 8, 0] ++
    [69, 0, 0, 40, 0, 0, 0, 0, 64, 6, 244, 94, 192, 168, 4, 118, 192, 168, 0, 171] ++
    [22, 125, 255, 75, 0, 0, 4, 1, 0, 0, 4, 1, 80, 16, 0, 127, 11, 25, 0, 0] ++
    [0, 0, 0, 0, 0, 0]
  nonempty := by simp
  fits := by decide
  etherType := by decide
  ihl := by decide
  ttl := by decide
  ours := by decide
  transport := by decide
  dataOffset := by decide
  total := by decide
  whole := by decide

/-- The six bytes of padding are taken for data: the connection stores and
acknowledges them. -/
theorem rxTask_not_ownPayload_paddedAck :
    ¬ OwnPayload paddedAck { emptyTables with tcbHead := [mainConnection] }
      (rxTask { emptyTables with tcbHead := [mainConnection] } (paddedAck.memory fun _ => 0)
        paddedAck.length ⟨0, 0⟩) := by
  rintro ⟨last, isLast, _, own, _⟩
  rcases rxTask_finished paddedAck { emptyTables with tcbHead := [mainConnection] } (fun _ => 0)
    ⟨0, 0⟩ with ⟨last', isLast', finished⟩
  have worked := finished.workedOn
  rw [← Option.some.inj (isLast.symm.trans isLast'), own] at worked
  have padding : paddedAck.trailing = [] := List.append_right_eq_self.mp worked.symm
  revert padding
  decide

end Lpc17xx.Protocol
