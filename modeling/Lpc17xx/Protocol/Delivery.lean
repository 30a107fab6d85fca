import Lpc17xx.Protocol.FrameBounds

/-!
# What the transports hand on

`udp_rx_packet` and `tcp_rx_packet` take as payload whatever `cur_data_length`
leaves behind their header.  Each is described here as a function of that
payload: the bytes are those that were received, for no header in front of them
reaches into them.
-/

namespace Lpc17xx.Protocol

open Lpc17xx.Cbuf
open Lpc17xx.Memory
open Lpc17xx.Tcp

/-- The header of a segment, read in network order. -/
def tcpHeaderFrom (memory : Bytes) (header : Nat) : TcpHeader :=
  { tcpHeaderAt memory header with
    sourcePort := big16 memory header
    destPort := big16 memory (header + 2)
    seqN := big32 memory (header + 4)
    ackN := big32 memory (header + 8)
    windowSz := big16 memory (header + 14)
    checksum := big16 memory (header + 16)
    urgPtr := big16 memory (header + 18) }

/-- The listeners after a payload for `dstPort`. -/
def udpAccepted (dstPort : UInt16) (payload : List UInt8) (listeners : List UdpListener) :
    List UdpListener :=
  listeners.map fun i =>
    if i.port = dstPort then
      i.append (payload.take (i.noBytesToCopy (.ofNat payload.length)).toNat)
    else i

/-- The tables after a datagram with this payload, and whether `rx_task` hangs
in it. -/
def udpDelivered (tables : Tables) (dstPort : UInt16) (payload : List UInt8) : Tables × Bool :=
  ({ tables with udpRxRequests := udpAccepted dstPort payload tables.udpRxRequests }, false)

/-- The tables after a segment with this payload, and whether `rx_task` hangs in
it. -/
def tcpDelivered (tables : Tables) (srcIp : UInt32) (incoming : TcpHeader)
    (payload : List UInt8) : Tables × Bool :=
  match rxSegment tables.tcbHead srcIp incoming (fun i => payload.getD i 0)
      (.ofNat payload.length) with
  | none => (tables, true)
  | some outcome =>
      ({ tables with
        tcbHead := outcome.tcbHead
        tcpSent := tables.tcpSent ++ outcome.sent }, false)

/-- The payload that the packet's cursor delimits. -/
def Packet.workedOn (pkt : Packet) : List UInt8 :=
  bytesAt (fun i => pkt.memory (pkt.curData + i)) pkt.curDataLength.toNat

section Swaps

variable {address other : Nat}

/-- The byte at `other`. -/
abbrev byteOf (other : Nat) (s : Stack) : UInt8 :=
  s.pkt.memory other

theorem keeps_swapEndian16 (outside : other < address ∨ address + 2 ≤ other) :
    Keeps (byteOf other) (swapEndian16 address) :=
  fun _ => swap16_of_outside outside

end Swaps

section Udp

variable (s : Stack)

theorem udpCopy_value (udpPayload : Nat) (udpPayloadSz : UInt32) (dstPort : UInt16)
    (i : UdpListener) :
    (udpCopy udpPayload udpPayloadSz dstPort i s).1 =
      if i.port = dstPort then
        i.append (bytesAt (fun offset => s.pkt.memory (udpPayload + offset))
          (i.noBytesToCopy udpPayloadSz).toNat)
      else i := by
  unfold udpCopy
  split
  · rfl
  · rfl

/-- The listeners after the loop, by induction on those before it. -/
theorem udpDeliver_value (header udpPayload : Nat) (udpPayloadSz : UInt32)
    (listeners : List UdpListener) :
    (udpDeliver header udpPayload udpPayloadSz listeners s).1 =
      udpAccepted (load16 s.pkt.memory (header + 2))
        (bytesAt (fun i => s.pkt.memory (udpPayload + i)) udpPayloadSz.toNat) listeners := by
  induction listeners generalizing s with
  | nil => rfl
  | cons i listeners ih =>
      let dstPort := load16 s.pkt.memory (header + 2)
      let read := after (read16 (header + 2)) s
      let copied := after (udpCopy udpPayload udpPayloadSz dstPort i) read
      have kept : copied.pkt.memory = s.pkt.memory :=
        (Keeps.ite (.map (fun _ => rfl) _) fun _ => rfl : Keeps (fun s => s.pkt.memory)
          (udpCopy udpPayload udpPayloadSz dstPort i)) read
      have whole : UInt32.ofNat udpPayloadSz.toNat = udpPayloadSz := UInt32.ofNat_toNat
      change (udpCopy udpPayload udpPayloadSz dstPort i read).1 ::
        (udpDeliver header udpPayload udpPayloadSz listeners copied).1 = _
      rw [ih, kept, udpCopy_value, udpAccepted, udpAccepted, List.map_cons, length_bytesAt, whole,
        take_bytesAt _ (noBytesToCopy_le i udpPayloadSz)]
      rfl

/-- What lies behind the header is as it was received. -/
theorem udp_memory_behind {other : Nat} (behind : s.pkt.curData + 8 ≤ other) :
    (after udpRxPacket s).pkt.memory other = s.pkt.memory other := by
  have swaps : Keeps (byteOf other) (udpSwapEndian s.pkt.curData) :=
    .bind (keeps_swapEndian16 (.inr (by omega))) fun _ => keeps_swapEndian16 (.inr (by omega))
  have rest : Keeps (byteOf other)
      (udpRest s.pkt.curData (s.pkt.curData + 8) (s.pkt.curDataLength - 8)) :=
    keeps_udpRest (fun _ _ _ => rfl) (fun _ _ => rfl) _ _ _
  rw [udp_eq]
  exact (rest _).trans (swaps (after (advance 8) s))

theorem udp_workedOn :
    (after udpRxPacket s).pkt.workedOn =
      bytesAt (fun i => s.pkt.memory (s.pkt.curData + 8 + i)) (s.pkt.curDataLength - 8).toNat := by
  rw [Packet.workedOn, udp_curData, udp_curDataLength]
  apply bytesAt_congr
  intro i _
  exact udp_memory_behind s (by omega)

/-- The listeners are given the payload that the cursor delimits. -/
theorem udp_delivers (running : s.stopped = false) :
    ((after udpRxPacket s).tables, (after udpRxPacket s).stopped) =
      udpDelivered s.tables (big16 s.pkt.memory (s.pkt.curData + 2))
        (after udpRxPacket s).pkt.workedOn := by
  let swapped := after (setHandler .drop)
    (after (udpSwapEndian s.pkt.curData) (after (advance 8) s))
  let delivery := udpDeliver s.pkt.curData (s.pkt.curData + 8) (s.pkt.curDataLength - 8)
    s.tables.udpRxRequests
  have port : load16 swapped.pkt.memory (s.pkt.curData + 2) =
      big16 s.pkt.memory (s.pkt.curData + 2) := by
    rw [← load16_swap16]
    exact load16_swap16_of_apart (.inl (by omega))
  have payload : bytesAt (fun i => swapped.pkt.memory (s.pkt.curData + 8 + i))
      (s.pkt.curDataLength - 8).toNat = (after udpRxPacket s).pkt.workedOn := by
    rw [udp_workedOn]
    apply bytesAt_congr
    intro i _
    exact (swap16_of_outside (.inr (by omega))).trans (swap16_of_outside (.inr (by omega)))
  have value : (delivery swapped).1 = udpAccepted (big16 s.pkt.memory (s.pkt.curData + 2))
      (after udpRxPacket s).pkt.workedOn s.tables.udpRxRequests := by
    rw [udpDeliver_value, port, payload]
  have tables : (after delivery swapped).tables = s.tables :=
    @keeps_udpDeliver _ Stack.tables (fun _ _ _ => rfl) _ _ _ _ swapped
  have goesOn : (after delivery swapped).stopped = false :=
    (@keeps_udpDeliver _ Stack.stopped (fun _ _ _ => rfl) _ _ _ _ swapped).trans running
  change ({ (after delivery swapped).tables with udpRxRequests := (delivery swapped).1 },
    (after delivery swapped).stopped) = _
  rw [value, tables, goesOn, udpDelivered]

end Udp

section Tcp

variable (s : Stack)

/-- A segment is taken for its header and payload, wherever the payload lies. -/
theorem rxSegment_congr {tcbHead : List Tcb} {srcIp : UInt32} {incoming : TcpHeader}
    {data data' : Nat → UInt8} {dataLen : UInt32}
    (same : bytesAt data' dataLen.toNat = bytesAt data dataLen.toNat) :
    rxSegment tcbHead srcIp incoming data' dataLen =
      rxSegment tcbHead srcIp incoming data dataLen := by
  have payload (t : Tcb) : rxPayload t data' dataLen = rxPayload t data dataLen := by
    rw [rxPayload, LiveBuf.push_congr same, rxPayload]
  have switched (t : Tcb) :
      rxSwitch t srcIp incoming data' dataLen = rxSwitch t srcIp incoming data dataLen := by
    simp only [rxSwitch, rxEstablished, payload]
  simp only [rxSegment, rxTcb, switched]

/-- Memory after `tcp_swap_endian`. -/
def tcpSwappedMemory (memory : Bytes) (header : Nat) : Bytes :=
  swap16 (swap16 (swap16 (swap32 (swap32 (swap16 (swap16 memory header) (header + 2))
    (header + 4)) (header + 8)) (header + 14)) (header + 16)) (header + 18)

theorem tcpSwapped_memory :
    (tcpSwapped s).pkt.memory = tcpSwappedMemory s.pkt.memory s.pkt.curData :=
  rfl

/-- Each field that `tcp_swap_endian` exchanges reads as it stood in the
segment. -/
theorem tcpHeaderAt_swapped (memory : Bytes) (header : Nat) :
    tcpHeaderAt (tcpSwappedMemory memory header) header = tcpHeaderFrom memory header := by
  have bits (i : Nat) (low : 12 ≤ i) (high : i < 14) :
      tcpSwappedMemory memory header (header + i) = memory (header + i) := by
    simp (disch := omega) only [tcpSwappedMemory, swap16_of_outside, swap32_of_outside]
  simp (disch := omega) only [tcpHeaderFrom, tcpHeaderAt, bits]
  simp (disch := omega) only [tcpSwappedMemory, load16_swap16, load32_swap32,
    load16_swap16_of_apart, load16_swap32_of_apart, load32_swap16_of_apart,
    load32_swap32_of_apart, big16_swap16_of_apart, big16_swap32_of_apart,
    big32_swap16_of_apart, big32_swap32_of_apart]

theorem tcpSwapped_of_behind {other : Nat} (behind : s.pkt.curData + 20 ≤ other) :
    (tcpSwapped s).pkt.memory other = s.pkt.memory other := by
  rw [tcpSwapped_memory]
  simp (disch := omega) only [tcpSwappedMemory, swap16_of_outside, swap32_of_outside]

/-- What lies behind the fixed part of the header is as it was received. -/
theorem tcp_memory_behind {other : Nat} (behind : s.pkt.curData + 20 ≤ other) :
    (after tcpRxPacket s).pkt.memory other = s.pkt.memory other := by
  have rest (header data : Nat) (dataLen : UInt32) :
      Keeps (byteOf other) (tcpRest header data dataLen) :=
    .bind (fun _ => rfl) fun incoming =>
      @keeps_tcpDeliver _ (fun pkt => pkt.memory other) (fun _ _ _ => rfl) incoming data dataLen
  rw [tcp_eq]
  exact (rest _ _ _ _).trans (tcpSwapped_of_behind s behind)

/-- The tables and the run after the search for the TCB. -/
theorem tcpDeliver_outcome (incoming : TcpHeader) (data : Nat) (dataLen : UInt32)
    (running : s.stopped = false) :
    ((after (tcpDeliver incoming data dataLen) s).tables,
      (after (tcpDeliver incoming data dataLen) s).stopped) =
      match rxSegment s.tables.tcbHead s.pkt.ip4Info.srcIp incoming
        (fun i => s.pkt.memory (data + i)) dataLen with
      | none => (s.tables, true)
      | some outcome =>
          ({ s.tables with
            tcbHead := outcome.tcbHead
            tcpSent := s.tables.tcpSent ++ outcome.sent }, false) := by
  unfold tcpDeliver
  cases delivered : rxSegment s.tables.tcbHead s.pkt.ip4Info.srcIp incoming
      (fun i => s.pkt.memory (data + i)) dataLen with
  | none =>
      simp only [after, bind, StateT.bind, get, getThe, MonadStateOf.get, StateT.get, touch, pure,
        delivered]
      rfl
  | some outcome =>
      simp only [after, bind, StateT.bind, get, getThe, MonadStateOf.get, StateT.get, touch, pure,
        delivered]
      rw [← running]
      rfl

variable (sized : 20 ≤ (tcpHeaderLen s).toNat)

include sized

theorem tcp_workedOn :
    (after tcpRxPacket s).pkt.workedOn =
      bytesAt (fun i => s.pkt.memory (s.pkt.curData + (tcpHeaderLen s).toNat + i))
        (s.pkt.curDataLength - tcpHeaderLen s).toNat := by
  rw [Packet.workedOn, tcp_curData, tcp_curDataLength]
  apply bytesAt_congr
  intro i _
  exact tcp_memory_behind s (by omega)

/-- The tables are given the payload that the cursor delimits. -/
theorem tcp_delivers (running : s.stopped = false) :
    ((after tcpRxPacket s).tables, (after tcpRxPacket s).stopped) =
      tcpDelivered s.tables s.pkt.ip4Info.srcIp (tcpHeaderFrom s.pkt.memory s.pkt.curData)
        (after tcpRxPacket s).pkt.workedOn := by
  let data := s.pkt.curData + (tcpHeaderLen s).toNat
  let dataLen := s.pkt.curDataLength - tcpHeaderLen s
  have incoming : tcpHeaderAt (tcpSwapped s).pkt.memory s.pkt.curData =
      tcpHeaderFrom s.pkt.memory s.pkt.curData := by
    rw [tcpSwapped_memory, tcpHeaderAt_swapped]
  have payload : (after tcpRxPacket s).pkt.workedOn =
      bytesAt (fun i => s.pkt.memory (data + i)) dataLen.toNat := tcp_workedOn s sized
  have size : (UInt32.ofNat (after tcpRxPacket s).pkt.workedOn.length) = dataLen := by
    rw [payload, length_bytesAt]
    exact UInt32.ofNat_toNat
  have segment : rxSegment s.tables.tcbHead s.pkt.ip4Info.srcIp
      (tcpHeaderAt (tcpSwapped s).pkt.memory s.pkt.curData)
      (fun i => (tcpSwapped s).pkt.memory (data + i)) dataLen =
      rxSegment s.tables.tcbHead s.pkt.ip4Info.srcIp (tcpHeaderFrom s.pkt.memory s.pkt.curData)
        (fun i => (after tcpRxPacket s).pkt.workedOn.getD i 0) dataLen := by
    rw [incoming]
    apply rxSegment_congr
    have whole := bytesAt_getD (after tcpRxPacket s).pkt.workedOn 0
    rw [payload, length_bytesAt] at whole
    rw [payload, whole]
    apply bytesAt_congr
    intro i _
    exact tcpSwapped_of_behind s (by omega)
  have still : (tcpSwapped s).stopped = false := running
  let read := after (readTcpHeader s.pkt.curData) (tcpSwapped s)
  have outcome := tcpDeliver_outcome read (tcpHeaderAt (tcpSwapped s).pkt.memory s.pkt.curData)
    data dataLen still
  rw [tcpDelivered, size, ← segment, tcp_eq, tcpRest, after_bind]
  exact outcome

end Tcp

end Lpc17xx.Protocol
