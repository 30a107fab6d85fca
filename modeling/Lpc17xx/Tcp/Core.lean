import Lpc17xx.Cbuf.Fifo

/-!
# Segments and transmission control blocks

The data of `tcp.h`.  Header fields are kept in host order, as they are after
`tcp_swap_endian`.  A TCB carries its receive buffer as a live buffer: the only
code that frees a receive buffer frees the TCB in the same breath.  The fields
`last_msg`, which nothing reads, and `tcb_next`, whose place is taken by lists
of TCBs, are left out; `addr` stands for the address of the heap block, by
which a calling thread refers to its connection.
-/

namespace Lpc17xx.Tcp

open Lpc17xx.Cbuf

/-- `TCP_TIMEOUT`, in ticks. -/
def tcpTimeout : UInt16 := 250

/-- `TCP_BUF_SZ`. -/
def tcpBufSz : UInt32 := 127

/-- `MEM_HEAP_SIZE` of `memory.c`.  Every frame and every transmit buffer is a
block of this heap. -/
def memHeapSize : Nat := 32 * 1024

/-- `tcp_header`. -/
structure TcpHeader where
  sourcePort : UInt16
  destPort : UInt16
  seqN : UInt32
  ackN : UInt32
  reserved0 : BitVec 4
  dataOffset : BitVec 4
  fin : Bool
  syn : Bool
  rst : Bool
  psh : Bool
  ack : Bool
  urg : Bool
  ece : Bool
  cwr : Bool
  windowSz : UInt16
  checksum : UInt16
  urgPtr : UInt16
  deriving DecidableEq, Repr

/-- A header cleared by `memset`. -/
def TcpHeader.zero : TcpHeader where
  sourcePort := 0
  destPort := 0
  seqN := 0
  ackN := 0
  reserved0 := 0
  dataOffset := 0
  fin := false
  syn := false
  rst := false
  psh := false
  ack := false
  urg := false
  ece := false
  cwr := false
  windowSz := 0
  checksum := 0
  urgPtr := 0

/-- `enum tcp_state`. -/
inductive TcpState where
  | closed
  | listen
  | synSent
  | synReceived
  | established
  | closeWait
  | lastAck
  | finWait1
  | finWait2
  | closing
  | timeWait
  deriving DecidableEq, Repr

/-- `tcb`. -/
structure Tcb where
  addr : Nat
  curSeqN : UInt32
  curAckN : UInt32
  unackedByteCount : UInt32
  rxBuf : LiveBuf
  state : TcpState
  timeout : UInt16
  srcPort : UInt16
  dstPort : UInt16
  hostWindowSz : UInt16
  dstIp : UInt32
  decrementTimeout : Bool
  timedOut : Bool
  deriving DecidableEq

/-- The arguments of one call of `tcp_tx`. -/
structure TcpTx where
  header : TcpHeader
  destIp : UInt32
  payload : List UInt8
  deriving DecidableEq, Repr

/-- `tcp_header_prepopulate`. -/
def tcpHeaderPrepopulate (t : Tcb) (header : TcpHeader) : TcpHeader :=
  { header with
    sourcePort := t.srcPort
    destPort := t.dstPort
    seqN := t.curSeqN
    ackN := t.curAckN
    dataOffset := 5
    windowSz := t.rxBuf.curCapacity.toUInt16 }

/-- A segment as `tcp_rx_packet` sees it once the header has been split off:
the sender's address from the IP header, the header in host order, the bytes from
`pkt->cur_data` on, and `data_len`.  `data_len` is any word: it wraps where the data
offset of the header reaches behind the end of the packet. -/
structure Segment where
  srcIp : UInt32
  header : TcpHeader
  data : Nat → UInt8
  dataLen : UInt32

namespace Segment

/-- The `data_len` bytes at `cur_data`. -/
def payload (segment : Segment) : List UInt8 :=
  bytesAt segment.data segment.dataLen.toNat

/-- A segment whose header ends before its payload. -/
def ofPayload (srcIp : UInt32) (header : TcpHeader) (payload : List UInt8) : Segment where
  srcIp := srcIp
  header := header
  data offset := payload.getD offset 0
  dataLen := .ofNat payload.length

section

variable (segment : Segment)

@[simp]
theorem toNat_dataLen : segment.dataLen.toNat = segment.payload.length :=
  (length_bytesAt _ _).symm

theorem ofNat_length : UInt32.ofNat segment.payload.length = segment.dataLen := by
  rw [← toNat_dataLen, UInt32.ofNat_toNat]

/-- Reading `data_len` bytes at `cur_data` yields the payload. -/
@[simp]
theorem bytesAt_data : bytesAt segment.data segment.payload.length = segment.payload := by
  rw [← toNat_dataLen, payload]

theorem dataLen_eq_zero_iff : segment.dataLen = 0 ↔ segment.payload = [] := by
  rw [← UInt32.toNat_inj, toNat_dataLen]
  exact List.length_eq_zero_iff

/-- What a frame or a transmit buffer holds is the payload of its segment. -/
theorem payload_ofPayload {srcIp : UInt32} {header : TcpHeader} {payload : List UInt8}
    (fits : payload.length ≤ memHeapSize) : (ofPayload srcIp header payload).payload = payload := by
  unfold memHeapSize at fits
  have len : (UInt32.ofNat payload.length).toNat = payload.length :=
    Serial.toNat_ofNat (by omega)
  rw [Segment.payload, ofPayload, len, bytesAt_getD]

end

end Segment

end Lpc17xx.Tcp
