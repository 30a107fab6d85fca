import Lpc17xx.Tcp.Pair
import Lpc17xx.Tcp.Transmit
import Lpc17xx.Udp.Loopback

/-!
# A segment as a frame

`ip4_do_xmit_packet` and `ether_xmit_payload` wrap what `tcp_tx` has built, and the receive
chain of the host that it is for unwraps it.  What `tcp_rx_packet` works on there is the
segment that was given to `tcp_tx`, with whatever the frame holds behind it.
-/

namespace Lpc17xx.Tcp

open Lpc17xx.Cbuf
open Lpc17xx.Memory
open Lpc17xx.Protocol
open Lpc17xx.Queue
open Lpc17xx.Udp

/-- The header of `ip4_do_xmit_packet` before its checksum is stored, on a host whose
`OUR_IP_ADDRESS` is `own`. -/
def ip4UnsummedOf (own : UInt32) (protocol : UInt8) (dstIp : UInt32) (payloadLen : Nat) : Bytes :=
  let header : Bytes := fun _ => 0
  let header := Function.update header 0 0x45
  let header := store16 header 2 (.ofNat (20 + payloadLen))
  let header := Function.update header 8 defaultTtl
  let header := Function.update header 9 protocol
  let header := store32 header 12 own
  let header := store32 header 16 dstIp
  ip4Swapped header 0

/-- The header of `ip4_do_xmit_packet` on such a host. -/
def ip4HeaderOf (own : UInt32) (protocol : UInt8) (dstIp : UInt32) (payloadLen : Nat) : Bytes :=
  let header := ip4UnsummedOf own protocol dstIp payloadLen
  store16 header 10 (ip4ComputeChecksum header)

theorem ip4HeaderOf_ourIpAddress : ip4HeaderOf ourIpAddress = ip4Header :=
  rfl

/-- A segment on its way to this host, from one whose `OUR_IP_ADDRESS` is `own`.  `segment`
is what `tcp_tx` has made of the call `tx` there, and `trailer` what the frame holds
behind. -/
structure WireSegment where
  own : UInt32
  dstHwAddr : List UInt8
  tx : TcpTx
  segment : List UInt8
  trailer : List UInt8
  address : dstHwAddr.length = 6
  carries : SegmentCarries tx segment
  offset : tx.header.dataOffset = 5
  toUs : tx.destIp = ourIpAddress
  fits : 54 + tx.payload.length + trailer.length ≤ memHeapSize

section Header

variable {own dstIp : UInt32} {protocol : UInt8} {payloadLen : Nat}

theorem ip4UnsummedOf_fields :
    ip4UnsummedOf own protocol dstIp payloadLen 0 = 0x45 ∧
      big16 (ip4UnsummedOf own protocol dstIp payloadLen) 2 = .ofNat (20 + payloadLen) ∧
      ip4UnsummedOf own protocol dstIp payloadLen 8 = defaultTtl ∧
      ip4UnsummedOf own protocol dstIp payloadLen 9 = protocol ∧
      big32 (ip4UnsummedOf own protocol dstIp payloadLen) 12 = own ∧
      big32 (ip4UnsummedOf own protocol dstIp payloadLen) 16 = dstIp := by
  have byte (i : Nat) (plain : i < 2 ∨ 6 ≤ i ∧ i < 12) :
      ip4UnsummedOf own protocol dstIp payloadLen i =
        Function.update (Function.update (store16 (Function.update (fun _ => 0) 0 0x45) 2
          (.ofNat (20 + payloadLen))) 8 defaultTtl) 9 protocol i := by
    simp (disch := omega) only [ip4UnsummedOf, ip4Swapped, swap16_of_outside, swap32_of_outside,
      store32_of_outside]
  refine ⟨byte 0 (by decide), ?_, byte 8 (by decide), byte 9 (by decide), ?_, ?_⟩
  · simp (disch := omega) only [ip4UnsummedOf, ip4Swapped, big16_swap32_of_apart,
      big16_swap16_of_apart, big16_swap16, load16_store32_of_apart, load16_update_of_apart,
      load16_store16]
  · simp (disch := omega) only [ip4UnsummedOf, ip4Swapped, big32_swap32_of_apart, big32_swap32,
      load32_swap16_of_apart, load32_store32_of_apart, load32_store32]
  · simp (disch := omega) only [ip4UnsummedOf, ip4Swapped, big32_swap32, load32_swap32_of_apart,
      load32_swap16_of_apart, load32_store32]

/-- What the receiver reads in the header. -/
theorem ip4HeaderOf_fields :
    ip4HeaderOf own protocol dstIp payloadLen 0 = 0x45 ∧
      big16 (ip4HeaderOf own protocol dstIp payloadLen) 2 = .ofNat (20 + payloadLen) ∧
      ip4HeaderOf own protocol dstIp payloadLen 8 = defaultTtl ∧
      ip4HeaderOf own protocol dstIp payloadLen 9 = protocol ∧
      big32 (ip4HeaderOf own protocol dstIp payloadLen) 12 = own ∧
      big32 (ip4HeaderOf own protocol dstIp payloadLen) 16 = dstIp := by
  rcases @ip4UnsummedOf_fields own dstIp protocol payloadLen with
    ⟨ihl, length, ttl, proto, source, destination⟩
  unfold ip4HeaderOf
  refine ⟨?_, ?_, ?_, ?_, ?_, ?_⟩
  · rw [store16_of_outside (by decide), ihl]
  · exact (big16_congr fun _ _ => store16_of_outside (by omega)).trans length
  · rw [store16_of_outside (by decide), ttl]
  · rw [store16_of_outside (by decide), proto]
  · exact (big32_congr fun _ _ => store16_of_outside (by omega)).trans source
  · exact (big32_congr fun _ _ => store16_of_outside (by omega)).trans destination

end Header

theorem defaultTtl_ne_zero : defaultTtl ≠ 0 := by
  decide

namespace WireSegment

variable (wire : WireSegment)

/-- The segment of a call of `tcp_tx` on this host, to itself. -/
def ofTcpTx (block : Bytes) (tx : TcpTx) (dstHwAddr : List UInt8) (address : dstHwAddr.length = 6)
    (offset : tx.header.dataOffset = 5) (toUs : tx.destIp = ourIpAddress)
    (fits : 54 + tx.payload.length ≤ memHeapSize) : WireSegment where
  own := ourIpAddress
  dstHwAddr := dstHwAddr
  tx := tx
  segment := (tcpTx block tx).payload
  trailer := []
  address := address
  carries := segmentCarries_tcpTx (by unfold memHeapSize at fits; omega)
  offset := offset
  toUs := toUs
  fits := fits

/-- The bytes that come in: the frame of `ether_xmit_payload`, and what is behind it. -/
def bytes : List UInt8 :=
  etherXmitPayload
    { dhost := wire.dstHwAddr
      etherType := etherTypeIp
      payload := bytesAt (ip4HeaderOf wire.own ipProtoTcp wire.tx.destIp wire.segment.length) 20 ++
        wire.segment } ++ wire.trailer

theorem length_segment : wire.segment.length = 20 + wire.tx.payload.length :=
  wire.carries.1

theorem bytes_eq :
    wire.bytes = wire.dstHwAddr ++ etherAddr ++ ([8, 0] ++
      (bytesAt (ip4HeaderOf wire.own ipProtoTcp wire.tx.destIp wire.segment.length) 20 ++
        (wire.segment ++ wire.trailer))) := by
  rw [bytes, etherXmitPayload_eq]
  simp only [List.append_assoc]

theorem length_bytes : wire.bytes.length = 54 + wire.tx.payload.length + wire.trailer.length := by
  rw [bytes_eq]
  simp only [List.length_append, length_bytesAt, wire.address, wire.length_segment, etherAddr,
    List.length_cons, List.length_nil]
  omega

/-- Behind the two addresses. -/
theorem getD_bytes (i : Nat) :
    wire.bytes.getD (12 + i) 0 = ([8, 0] ++
      (bytesAt (ip4HeaderOf wire.own ipProtoTcp wire.tx.destIp wire.segment.length) 20 ++
        (wire.segment ++ wire.trailer))).getD i 0 := by
  have size : (wire.dstHwAddr ++ etherAddr).length = 12 := by
    rw [List.length_append, wire.address]
    rfl
  rw [bytes_eq, getD_append_add _ _ size]

theorem getD_header {i : Nat} (inside : i < 20) :
    wire.bytes.getD (14 + i) 0 =
      ip4HeaderOf wire.own ipProtoTcp wire.tx.destIp wire.segment.length i := by
  have here := wire.getD_bytes (2 + i)
  rwa [@getD_append_add [8, 0] _ 2 rfl, getD_bytesAt_append _ _ inside, ← Nat.add_assoc] at here

theorem getD_segment (i : Nat) :
    wire.bytes.getD (34 + i) 0 = (wire.segment ++ wire.trailer).getD i 0 := by
  have here := wire.getD_bytes (2 + (20 + i))
  rwa [@getD_append_add [8, 0] _ 2 rfl, getD_append_add _ _ (length_bytesAt _ _), ← Nat.add_assoc,
    ← Nat.add_assoc] at here

/-- The header of the segment, as it stands in the frame. -/
theorem tcpHeaderFrom_bytes : ∃ checksum,
    tcpHeaderFrom (fun i => wire.bytes.getD i 0) 34 = { wire.tx.header with checksum } := by
  rcases wire.carries.2.2 with ⟨checksum, header⟩
  refine ⟨checksum, ?_⟩
  have shifted : tcpHeaderFrom (fun i => wire.bytes.getD i 0) 34 =
      tcpHeaderFrom (fun i => wire.bytes.getD (34 + i) 0) 0 := rfl
  rw [shifted, ← header]
  apply tcpHeaderFrom_congr
  intro i inside
  have within : 0 + i < wire.segment.length := by
    rw [wire.length_segment]
    omega
  rw [wire.getD_segment, List.getD_append _ _ _ _ within]

/-- `data_offset * 4`, for the offset that all segments of this code have. -/
theorem dataOffsetBytes_eq {byte : UInt8} (five : (byte.toBitVec >>> 4).setWidth 4 = 5#4) :
    (dataOffsetBytes byte).toNat = 20 := by
  have value := congrArg BitVec.toNat five
  simp only [BitVec.toNat_setWidth, BitVec.toNat_ushiftRight, UInt8.toNat_toBitVec,
    Nat.shiftRight_eq_div_pow] at value
  have bound := byte.toNat_lt
  have quarter : (byte >>> 4).toNat = 5 := by
    rw [UInt8.toNat_shiftRight, Nat.shiftRight_eq_div_pow]
    change byte.toNat / 2 ^ 4 % 2 ^ 4 = 5 at value
    change byte.toNat / 2 ^ 4 = 5
    omega
  rw [dataOffsetBytes, UInt32.toNat_mul, UInt8.toNat_toUInt32, quarter]
  rfl

/-- The frame that comes in. -/
def toFrame : Frame where
  bytes := wire.bytes
  nonempty := by
    have length := wire.length_bytes
    rintro empty
    rw [empty, List.length_nil] at length
    omega
  fits := wire.length_bytes ▸ wire.fits

theorem received_header {i : Nat} (inside : i < 20) :
    wire.toFrame.received (14 + i) =
      ip4HeaderOf wire.own ipProtoTcp wire.tx.destIp wire.segment.length i :=
  wire.getD_header inside

theorem ipHeaderLen_eq : wire.toFrame.ipHeaderLen = 20 := by
  rw [Frame.ipHeaderLen, show 14 = 14 + 0 from rfl, wire.received_header (by decide),
    ip4HeaderOf_fields.1]
  rfl

theorem totLength_eq : wire.toFrame.totLength = 40 + wire.tx.payload.length := by
  have fits := wire.fits
  have field : big16 wire.toFrame.received (14 + 2) = .ofNat (20 + wire.segment.length) := by
    rw [big16_shift, big16_congr fun i _ => wire.received_header (by omega)]
    exact ip4HeaderOf_fields.2.1
  unfold memHeapSize at fits
  rw [Frame.totLength, field, wire.length_segment, UInt16.toNat_ofNat_of_lt' (by
    rw [UInt16.size]
    omega)]
  omega

theorem received_protocol : wire.toFrame.received 23 = ipProtoTcp :=
  (wire.received_header (i := 9) (by decide)).trans ip4HeaderOf_fields.2.2.2.1

theorem transportHeaderLen_eq : wire.toFrame.transportHeaderLen = 20 := by
  rcases wire.tcpHeaderFrom_bytes with ⟨checksum, header⟩
  have five : (tcpHeaderFrom wire.toFrame.received 34).dataOffset = 5 :=
    (congrArg TcpHeader.dataOffset header).trans wire.offset
  rw [Frame.transportHeaderLen, if_pos wire.received_protocol, wire.ipHeaderLen_eq]
  exact dataOffsetBytes_eq five

theorem received_etherType : big16 wire.toFrame.received 12 = etherTypeIp := by
  have high : wire.toFrame.received 12 = 8 := wire.getD_bytes 0
  have low : wire.toFrame.received 13 = 0 := wire.getD_bytes 1
  rw [big16, high, low]
  rfl

theorem received_ttl : wire.toFrame.received 22 = defaultTtl :=
  (wire.received_header (i := 8) (by decide)).trans ip4HeaderOf_fields.2.2.1

theorem received_srcIp : big32 wire.toFrame.received 26 = wire.own := by
  rw [show 26 = 14 + 12 from rfl, big32_shift,
    big32_congr fun i _ => wire.received_header (by omega)]
  exact ip4HeaderOf_fields.2.2.2.2.1

theorem received_dstIp : big32 wire.toFrame.received 30 = ourIpAddress := by
  rw [show 30 = 14 + 16 from rfl, big32_shift,
    big32_congr fun i _ => wire.received_header (by omega), ip4HeaderOf_fields.2.2.2.2.2, wire.toUs]

/-- The headers lie inside the datagram, and this inside the frame. -/
theorem headers_inside :
    wire.toFrame.ipHeaderLen + wire.toFrame.transportHeaderLen ≤ wire.toFrame.totLength ∧
      14 + wire.toFrame.totLength ≤ wire.toFrame.bytes.length := by
  have length : wire.toFrame.bytes.length = _ := wire.length_bytes
  rw [wire.ipHeaderLen_eq, wire.transportHeaderLen_eq, wire.totLength_eq, length]
  omega

/-- The frame carries a datagram for this host. -/
def frame : DatagramFrame where
  toFrame := wire.toFrame
  etherType := wire.received_etherType
  ihl := Nat.le_of_eq wire.ipHeaderLen_eq.symm
  ttl := wire.received_ttl ▸ defaultTtl_ne_zero
  ours := wire.received_dstIp
  transport := .inl wire.received_protocol
  dataOffset _ := Nat.le_of_eq wire.transportHeaderLen_eq.symm
  total := wire.headers_inside.1
  whole := wire.headers_inside.2

/-- The payload and what is behind it. -/
theorem drop_bytes : wire.bytes.drop 54 = wire.tx.payload ++ wire.trailer := by
  have size : (wire.dstHwAddr ++ etherAddr ++ ([8, 0] ++
      bytesAt (ip4HeaderOf wire.own ipProtoTcp wire.tx.destIp wire.segment.length) 20)).length =
        34 := by
    simp [length_bytesAt, wire.address, etherAddr]
  have parts : wire.bytes = (wire.dstHwAddr ++ etherAddr ++ ([8, 0] ++
      bytesAt (ip4HeaderOf wire.own ipProtoTcp wire.tx.destIp wire.segment.length) 20)) ++
        (wire.segment ++ wire.trailer) := by
    rw [bytes_eq]
    simp only [List.append_assoc]
  rw [show 54 = 34 + 20 from rfl, ← List.drop_drop, parts, List.drop_left' size,
    List.drop_append_of_le_length (by rw [wire.length_segment]; omega), wire.carries.2.1]

/-- The chain works on the payload that was sent and on what is behind it. -/
theorem workedOn_eq : wire.frame.payload ++ wire.frame.trailing =
    wire.tx.payload ++ wire.trailer := by
  rw [wire.frame.payload_append_trailing, ← wire.drop_bytes]
  change wire.bytes.drop (14 + wire.toFrame.ipHeaderLen + wire.toFrame.transportHeaderLen) = _
  rw [wire.ipHeaderLen_eq, wire.transportHeaderLen_eq]

/-- The checksum does not matter to the receiver. -/
theorem delivered_eq (tables : Tables) (payload : List UInt8) :
    wire.frame.delivered tables payload = tcpDelivered tables wire.own wire.tx.header payload := by
  rcases wire.tcpHeaderFrom_bytes with ⟨checksum, header⟩
  have tcp : wire.frame.received 23 = ipProtoTcp := wire.received_protocol
  have source : big32 wire.frame.received 26 = wire.own := wire.received_srcIp
  have incoming : tcpHeaderFrom wire.frame.received (14 + wire.frame.ipHeaderLen) =
      { wire.tx.header with checksum } := by
    have length : wire.frame.ipHeaderLen = 20 := wire.ipHeaderLen_eq
    rw [length]
    exact header
  rw [DatagramFrame.delivered, if_pos tcp, source, incoming]
  rfl

end WireSegment

/-- A segment goes over the wire as it is: the tables after `rx_task` has taken the frame
apart are those that `tcp_rx_packet` leaves of the header and the payload that were given to
`tcp_tx`, followed by what the frame holds behind the segment.  With nothing behind it, this
is the step that a host takes when a segment is delivered to it. -/
theorem segment_goes_over_the_wire (wire : WireSegment) (tables : Tables) (heap : Bytes)
    (stale : Ipv4PktInfo) :
    ∃ last, (rxTask tables (wire.frame.memory heap) wire.frame.length stale).getLast? = some last ∧
      last.pkt.handler = .drop ∧
      (last.tables, last.stopped) =
        tcpDelivered tables wire.own wire.tx.header (wire.tx.payload ++ wire.trailer) ∧
      (wire.trailer = [] → ∀ endpoint : Endpoint, tables.tcbHead = endpoint.tcb.toList →
        (last.stopped = true ↔ Pair.rxPacket endpoint wire.own wire.tx = none) ∧
        ∀ outcome, Pair.rxPacket endpoint wire.own wire.tx = some outcome →
          last.tables.tcbHead = outcome.tcbHead ∧
          last.tables.tcpSent = tables.tcpSent ++ outcome.sent) := by
  rcases rxTask_finished wire.frame tables heap stale with ⟨last, isLast, finished⟩
  have delivered := finished.delivered
  rw [finished.workedOn, wire.workedOn_eq, wire.delivered_eq] at delivered
  refine ⟨last, isLast, finished.dropped, delivered, fun bare endpoint here => ?_⟩
  have rx : rxSegment endpoint.tcb.toList wire.own wire.tx.header
      (fun i => wire.tx.payload.getD i 0) (.ofNat wire.tx.payload.length) =
        Pair.rxPacket endpoint wire.own wire.tx := rfl
  rw [bare, List.append_nil, tcpDelivered, here, rx] at delivered
  cases received : Pair.rxPacket endpoint wire.own wire.tx with
  | none =>
      rw [received] at delivered
      cases last
      cases delivered
      exact ⟨iff_of_true rfl rfl, fun _ other => by cases other⟩
  | some outcome =>
      rw [received] at delivered
      rcases Prod.mk.inj delivered with ⟨lastTables, running⟩
      refine ⟨iff_of_false (by simp [running]) (Option.some_ne_none outcome), ?_⟩
      rintro _ ⟨⟩
      rw [lastTables]
      exact ⟨rfl, rfl⟩

/-- A segment of three bytes that the host sends to itself. -/
def oddSegment : WireSegment :=
  .ofTcpTx (fun _ => 0xff) { oddTx with destIp := ourIpAddress } [0, 1, 2, 3, 4, 5] rfl rfl rfl
    (by decide)

theorem segment_goes_over_the_wire_example :
    ∃ last, (rxTask emptyTables (oddSegment.frame.memory fun _ => 0xff) oddSegment.frame.length
        ⟨0, 0⟩).getLast? = some last ∧
      last.pkt.handler = .drop ∧
      (last.tables, last.stopped) =
        tcpDelivered emptyTables ourIpAddress oddTx.header [0x68, 0x69, 0x21] := by
  rcases segment_goes_over_the_wire oddSegment emptyTables (fun _ => 0xff) ⟨0, 0⟩ with
    ⟨last, isLast, dropped, delivered, _⟩
  exact ⟨last, isLast, dropped, delivered⟩

end Lpc17xx.Tcp
