import Lpc17xx.Tcp.Receive

/-!
# The calls an application makes

`tcp_connect`, `tcp_listen`, `tcp_tx_data` and `tcp_rx_data` of `tcp.c`, cut at
the points where the calling thread sleeps on `tcp_waitq`.  A transmission
copies the segment into heap blocks; `get_mem` never returns when the heap is
too small for the request, which is the `none` of `tcpTxData`.
-/

namespace Lpc17xx.Tcp

open Lpc17xx.Cbuf

/-- The initial sequence number of every connection. -/
def isn : UInt32 := 1024

/-- The receive buffer of a new TCB: `circular_buf_init(&rx_buf, TCP_BUF_SZ)`
on a heap block with arbitrary contents. -/
def newRxBuf (block : List UInt8) (size : block.length = tcpBufSz.toNat) : LiveBuf :=
  LiveBuf.init tcpBufSz (by decide) block size

@[simp]
theorem contents_newRxBuf (block : List UInt8) (size : block.length = tcpBufSz.toNat) :
    (newRxBuf block size).contents = [] :=
  LiveBuf.contents_init tcpBufSz (by decide) block size

@[simp]
theorem curCapacity_newRxBuf (block : List UInt8) (size : block.length = tcpBufSz.toNat) :
    (newRxBuf block size).curCapacity = tcpBufSz :=
  LiveBuf.curCapacity_init tcpBufSz (by decide) block size

/-- The TCB that `tcp_connect` links before it transmits. -/
def tcpConnectTcb (addr : Nat) (port : UInt16) (ip : UInt32) (block : List UInt8)
    (size : block.length = tcpBufSz.toNat) : Tcb where
  addr := addr
  curSeqN := isn
  curAckN := 0
  unackedByteCount := 0
  rxBuf := newRxBuf block size
  state := .synSent
  timeout := tcpTimeout
  srcPort := 65355
  dstPort := port
  hostWindowSz := 0
  dstIp := ip
  decrementTimeout := true
  timedOut := false

/-- The SYN that `tcp_connect` transmits. -/
def tcpConnectSyn (t : Tcb) : TcpTx where
  header := { tcpHeaderPrepopulate t TcpHeader.zero with syn := true }
  destIp := t.dstIp
  payload := []

/-- The TCB that `tcp_listen` links before it sleeps. -/
def tcpListenTcb (addr : Nat) (port : UInt16) (block : List UInt8)
    (size : block.length = tcpBufSz.toNat) : Tcb where
  addr := addr
  curSeqN := isn
  curAckN := 0
  unackedByteCount := 0
  rxBuf := newRxBuf block size
  state := .listen
  timeout := 0
  srcPort := port
  dstPort := 0
  hostWindowSz := 0
  dstIp := 0
  decrementTimeout := false
  timedOut := false

/-- The header that `tcp_listen` prepares once it finds `SYN_RECEIVED`. -/
def tcpListenSynAck (t : Tcb) : TcpHeader :=
  { tcpHeaderPrepopulate t TcpHeader.zero with syn := true, ack := true }

/-- Where a thread inside `tcp_connect` or `tcp_listen` is.  A linked
`tcp_connect` holds its SYN, a prepared `tcp_listen` the header of its
SYN+ACK. -/
inductive OpeningThread where
  | connectLinked (syn : TcpTx)
  | connectWaiting
  | listenWaiting
  | listenWoken
  | listenPrepared (synAck : TcpHeader)
  | listenAnswered
  | returned (success : Bool)
  deriving DecidableEq

/-- The next step of the thread, with the segment it hands to `tcp_tx`.  A thread
sleeps while the condition it waits for is false. -/
def OpeningThread.step (t : Tcb) : OpeningThread → Option (OpeningThread × Option TcpTx)
  | .connectLinked syn => some (.connectWaiting, some syn)
  | .connectWaiting =>
      if t.state ≠ .synSent then some (.returned (t.state = .established), none) else none
  | .listenWaiting => if t.state = .synReceived then some (.listenWoken, none) else none
  | .listenWoken => some (.listenPrepared (tcpListenSynAck t), none)
  | .listenPrepared synAck => some (.listenAnswered, some ⟨synAck, t.dstIp, []⟩)
  | .listenAnswered => if t.state = .established then some (.returned true, none) else none
  | .returned _ => none

/-- The steps that such a thread can take. -/
inductive OpeningThread.Moves (t : Tcb) :
    OpeningThread → OpeningThread → Option TcpTx → Prop
  | synSent (syn : TcpTx) : Moves t (.connectLinked syn) .connectWaiting (some syn)
  | connectReturns : t.state ≠ .synSent →
      Moves t .connectWaiting (.returned (t.state = .established)) none
  | woken : t.state = .synReceived → Moves t .listenWaiting .listenWoken none
  | prepared : Moves t .listenWoken (.listenPrepared (tcpListenSynAck t)) none
  | synAckSent (synAck : TcpHeader) :
      Moves t (.listenPrepared synAck) .listenAnswered (some ⟨synAck, t.dstIp, []⟩)
  | listenReturns : t.state = .established → Moves t .listenAnswered (.returned true) none

theorem OpeningThread.moves_of_step {t : Tcb} {thread next : OpeningThread} {sent : Option TcpTx}
    (taken : thread.step t = some (next, sent)) : Moves t thread next sent := by
  cases thread with
  | connectLinked syn =>
      cases taken
      exact .synSent syn
  | connectWaiting =>
      rcases Option.ite_none_right_eq_some.mp taken with ⟨answered, taken⟩
      cases taken
      exact .connectReturns answered
  | listenWaiting =>
      rcases Option.ite_none_right_eq_some.mp taken with ⟨synReceived, taken⟩
      cases taken
      exact .woken synReceived
  | listenWoken =>
      cases taken
      exact .prepared
  | listenPrepared synAck =>
      cases taken
      exact .synAckSent synAck
  | listenAnswered =>
      rcases Option.ite_none_right_eq_some.mp taken with ⟨established, taken⟩
      cases taken
      exact .listenReturns established
  | returned success => contradiction

/-- The sending part of `tcp_tx_data`, up to the wait for the
acknowledgement. -/
def tcpTxData (connection : Tcb) (data : List UInt8) : Option (Tcb × TcpTx) :=
  if 12 + 20 + data.length ≤ memHeapSize then
    some
      ({ connection with
          unackedByteCount := connection.unackedByteCount + UInt32.ofNat data.length },
        ⟨connection.ackHeader, connection.dstIp, data⟩)
  else
    none

theorem tcpTxData_eq_some {connection : Tcb} {data : List UInt8} {sent : Tcb × TcpTx}
    (transmitted : tcpTxData connection data = some sent) :
    12 + 20 + data.length ≤ memHeapSize ∧
      sent =
        ({ connection with
            unackedByteCount := connection.unackedByteCount + UInt32.ofNat data.length },
          ⟨connection.ackHeader, connection.dstIp, data⟩) := by
  unfold tcpTxData at transmitted
  split at transmitted
  · rename_i allocated
    exact ⟨allocated, (Option.some.inj transmitted).symm⟩
  · contradiction

/-- The condition on which `tcp_tx_data` returns. -/
def tcpTxDataDone (connection : Tcb) : Bool :=
  connection.unackedByteCount == 0

/-- The condition on which `tcp_rx_data` stops sleeping. -/
def tcpRxDataReady (connection : Tcb) : Bool :=
  connection.rxBuf.curUsage != 0 || connection.state == .closeWait

/-- One round of the loop of `tcp_rx_data` after the wait, with `len` bytes
still wanted: the bytes copied to `dst_buf` and the TCB, or `none` for the
return value `-1`. -/
def tcpRxDataRound (connection : Tcb) (len : UInt32) : Option (List UInt8 × Tcb) :=
  if connection.state = .closeWait then
    none
  else
    let bytesInBuf := connection.rxBuf.curUsage
    let noBytesToCopy := if len < bytesInBuf then len else bytesInBuf
    let (bytes, rxBuf) := connection.rxBuf.pop noBytesToCopy
    some (bytes, { connection with rxBuf })

/-- A round moves the front of the queue to `dst_buf` and touches nothing else of
the TCB. -/
theorem tcpRxDataRound_eq_some {connection after : Tcb} {len : UInt32} {bytes : List UInt8}
    (popped : tcpRxDataRound connection len = some (bytes, after)) :
    ∃ rxBuf, after = { connection with rxBuf } ∧
      connection.rxBuf.contents = bytes ++ rxBuf.contents ∧
      rxBuf.curCapacity.toNat = connection.rxBuf.curCapacity.toNat + bytes.length := by
  simp only [tcpRxDataRound] at popped
  split at popped
  · contradiction
  · cases popped
    have held : (if len < connection.rxBuf.curUsage then len else connection.rxBuf.curUsage) ≤
        connection.rxBuf.curUsage := by
      split
      · rename_i less
        exact UInt32.le_of_lt less
      · exact UInt32.le_refl _
    have heldNat := UInt32.le_iff_toNat_le.mp held
    rw [LiveBuf.toNat_curUsage] at heldNat
    refine ⟨_, rfl, ?_, ?_⟩
    · rw [LiveBuf.pop_fst held, LiveBuf.contents_pop held, List.take_append_drop]
    · rw [LiveBuf.toNat_curCapacity_pop held, LiveBuf.pop_fst held, List.length_take,
        Nat.min_eq_left heldNat]

/-- A cleared block is as large as `rx_buf`. -/
theorem length_clearedBlock : (List.replicate 127 (0 : UInt8)).length = tcpBufSz.toNat :=
  List.length_replicate

/-- The connection that `main` opens, as the handshake with a peer that also
starts at 1024 leaves it. -/
def mainConnection : Tcb :=
  { tcpConnectTcb 0 5757 0xc0a80476 (List.replicate 127 0) length_clearedBlock with
    state := .established
    curSeqN := 1025
    curAckN := 1025
    hostWindowSz := 127
    timeout := 0
    decrementTimeout := false }

/-- A segment from the peer of `main`. -/
def mainPeerSegment (seqN ackN : UInt32) (payload : List UInt8) : Segment :=
  .ofPayload 0xc0a80476
    { TcpHeader.zero with
      sourcePort := 5757
      destPort := 65355
      seqN := seqN
      ackN := ackN
      dataOffset := 5
      ack := true
      windowSz := 127 }
    payload

/-- A bare acknowledgement from the peer of `main`. -/
def mainPeerAck (ackN : UInt32) : Segment :=
  mainPeerSegment 1025 ackN []

end Lpc17xx.Tcp
