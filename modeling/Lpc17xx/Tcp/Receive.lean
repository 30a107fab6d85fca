import Lpc17xx.Tcp.Core

/-!
# `tcp_rx_packet`

The receive function of `tcp.c` from the point where the header has been split
off the packet.  Each case of its `switch` is a definition of its own; the
cases without a `break` call the next one.  `none` is the endless loop with
interrupts off that a segment for a TCB in `CLOSE_WAIT` enters.
-/

namespace Lpc17xx.Tcp

/-- What one case of the switch leaves behind. -/
structure Switched where
  tcb : Tcb
  sent : List TcpTx
  sendAck : Bool
  freed : Bool
  deriving DecidableEq

/-- A case that transmits nothing and keeps the TCB. -/
def Switched.keep (t : Tcb) (sendAck : Bool) : Switched where
  tcb := t
  sent := []
  sendAck := sendAck
  freed := false

/-- Stop any timeout counters. -/
def Tcb.disarm (t : Tcb) : Tcb :=
  { t with decrementTimeout := false, timedOut := false, timeout := 0 }

/-- Enter `TIME_WAIT` with the timer running. -/
def Tcb.enterTimeWait (t : Tcb) : Tcb :=
  { t with state := .timeWait, timeout := tcpTimeout, decrementTimeout := true }

/-- A bare acknowledgement built from the TCB. -/
def Tcb.ackHeader (t : Tcb) : TcpHeader :=
  { tcpHeaderPrepopulate t TcpHeader.zero with ack := true }

/-- `case SYN_SENT`. -/
def rxSynSent (t : Tcb) (incoming : TcpHeader) : Switched :=
  if incoming.syn && incoming.ack then
    let t := { t with
      curSeqN := t.curSeqN + 1
      curAckN := incoming.seqN + 1
      hostWindowSz := incoming.windowSz }
    { tcb := { t with state := .established }
      sent := [⟨t.ackHeader, t.dstIp, []⟩]
      sendAck := false
      freed := false }
  else
    .keep { t with state := .closed } false

/-- `case LISTEN`. -/
def rxListen (t : Tcb) (srcIp : UInt32) (incoming : TcpHeader) : Switched :=
  if incoming.syn then
    .keep { t with
      dstIp := srcIp
      curAckN := incoming.seqN + 1
      dstPort := incoming.sourcePort
      state := .synReceived } false
  else
    .keep t false

/-- `case SYN_RECEIVED`. -/
def rxSynReceived (t : Tcb) (incoming : TcpHeader) : Switched :=
  if incoming.ack then
    .keep { t with curSeqN := incoming.ackN, state := .established } false
  else
    .keep t false

/-- `no_acked_bytes`: the signed distance of an acknowledgement from
`cur_seq_n`, and zero when the segment carries none. -/
def noAckedBytes (t : Tcb) (incoming : TcpHeader) : Int32 :=
  if incoming.ack then (incoming.ackN - t.curSeqN).toInt32 else 0

/-- The acknowledgement part of `case ESTABLISHED`. -/
def rxAck (t : Tcb) (incoming : TcpHeader) : Tcb :=
  if incoming.ack then
    { t with
      unackedByteCount :=
        if 0 < noAckedBytes t incoming then
          t.unackedByteCount - (noAckedBytes t incoming).toUInt32
        else t.unackedByteCount
      curSeqN := incoming.ackN }
  else t

/-- The FIN part of `case ESTABLISHED`. -/
def rxFin (t : Tcb) (incoming : TcpHeader) : Tcb :=
  if incoming.fin then { t with state := .closeWait, curAckN := t.curAckN + 1 } else t

/-- The data part of `case ESTABLISHED`. -/
def rxPayload (t : Tcb) (data : Nat → UInt8) (dataLen : UInt32) : Tcb :=
  if dataLen ≠ 0 then
    { t with rxBuf := t.rxBuf.push data dataLen, curAckN := t.curAckN + dataLen }
  else t

/-- `case ESTABLISHED`. -/
def rxEstablished (t : Tcb) (incoming : TcpHeader) (data : Nat → UInt8) (dataLen : UInt32) :
    Switched :=
  .keep (rxPayload (rxFin (rxAck t incoming) incoming) data dataLen)
    (incoming.fin || dataLen ≠ 0 || (dataLen = 0 && noAckedBytes t incoming = 0))

/-- `case FIN_WAIT2`.  The assignment to `cur_ack_n` is written as a comparison
in the source and has no effect. -/
def rxFinWait2 (t : Tcb) (incoming : TcpHeader) : Switched :=
  if incoming.fin && incoming.ack then .keep t.enterTimeWait true else .keep t false

/-- `case FIN_WAIT1`, falling through to `FIN_WAIT2`. -/
def rxFinWait1 (t : Tcb) (incoming : TcpHeader) : Switched :=
  if incoming.fin && incoming.ack && incoming.ackN == t.curSeqN then
    .keep { t with curAckN := incoming.seqN + 1 }.enterTimeWait true
  else if incoming.ack && incoming.ackN == t.curSeqN then
    .keep { t with curAckN := incoming.seqN, state := .finWait2 } false
  else if incoming.fin then
    .keep { t with curAckN := t.curAckN + 1, state := .closing } true
  else
    rxFinWait2 t incoming

/-- `case CLOSE_WAIT`, falling through to `FIN_WAIT1`.  The test before the
switch keeps it from being reached. -/
def rxCloseWait (t : Tcb) (incoming : TcpHeader) : Switched :=
  if incoming.ack && incoming.ackN == t.curAckN + 1 then
    { tcb := t, sent := [], sendAck := false, freed := true }
  else
    rxFinWait1 t incoming

/-- `case CLOSING`.  The source assigns the ACK bit, not the acknowledgement
number. -/
def rxClosing (t : Tcb) (incoming : TcpHeader) : Switched :=
  let t := if incoming.ack then { t with curAckN := 1 } else t
  .keep t.enterTimeWait false

/-- The `switch` of `tcp_rx_packet`. -/
def rxSwitch (t : Tcb) (srcIp : UInt32) (incoming : TcpHeader) (data : Nat → UInt8)
    (dataLen : UInt32) : Switched :=
  match t.state with
  | .synSent => rxSynSent t incoming
  | .listen => rxListen t srcIp incoming
  | .synReceived => rxSynReceived t incoming
  | .established => rxEstablished t incoming data dataLen
  | .closeWait => rxCloseWait t incoming
  | .finWait1 => rxFinWait1 t incoming
  | .finWait2 => rxFinWait2 t incoming
  | .closing => rxClosing t incoming
  | .closed | .lastAck | .timeWait => .keep t false

/-- What `tcp_rx_packet` does to the TCB it selected: the TCB afterwards, or
`none` when it was unlinked and freed, the calls of `tcp_tx` in order, and
whether the sleepers on `tcp_waitq` are woken. -/
structure TcbOutcome where
  tcb : Option Tcb
  sent : List TcpTx
  wakeup : Bool
  deriving DecidableEq

/-- `tcp_rx_packet` from the choice of the TCB to the end. -/
def rxTcb (t : Tcb) (srcIp : UInt32) (incoming : TcpHeader) (data : Nat → UInt8)
    (dataLen : UInt32) : Option TcbOutcome :=
  if t.state = .closeWait then
    none
  else
    let switched := rxSwitch t.disarm srcIp incoming data dataLen
    if switched.freed then
      some { tcb := none, sent := switched.sent, wakeup := false }
    else
      some
        { tcb := some switched.tcb
          sent := switched.sent ++
            (if switched.sendAck then [⟨switched.tcb.ackHeader, srcIp, []⟩] else [])
          wakeup := true }

/-- The test of the first search: the TCB of the segment's connection. -/
def Tcb.matchesConnection (t : Tcb) (srcIp : UInt32) (incoming : TcpHeader) : Bool :=
  incoming.destPort == t.srcPort && incoming.sourcePort == t.dstPort && t.dstIp == srcIp

/-- The test of the second search: a TCB that accepts new connections. -/
def Tcb.acceptsConnection (t : Tcb) (incoming : TcpHeader) : Bool :=
  t.state == .listen && incoming.destPort == t.srcPort

/-- The position on `tcb_head` of the TCB the segment is for. -/
def findTcb (tcbHead : List Tcb) (srcIp : UInt32) (incoming : TcpHeader) : Option Nat :=
  (tcbHead.findIdx? fun i => i.matchesConnection srcIp incoming).or
    (tcbHead.findIdx? fun i => i.acceptsConnection incoming)

/-- The answer to a segment for no connection. -/
def rxNoTcb (srcIp : UInt32) (incoming : TcpHeader) (dataLen : UInt32) : List TcpTx :=
  if incoming.rst then
    []
  else
    let response := { TcpHeader.zero with
      rst := true
      dataOffset := 5
      destPort := incoming.sourcePort
      sourcePort := incoming.destPort }
    let dataLen := if incoming.syn then dataLen + 1 else dataLen
    if incoming.ack then
      [⟨{ response with seqN := incoming.ackN }, srcIp, []⟩]
    else
      [⟨{ response with ackN := incoming.seqN + dataLen, ack := true }, srcIp, []⟩]

/-- What one segment does to the host. -/
structure HostOutcome where
  tcbHead : List Tcb
  sent : List TcpTx
  wakeup : Bool
  deriving DecidableEq

/-- `tcp_rx_packet` on the list of TCBs, with the header already split off. -/
def rxSegment (tcbHead : List Tcb) (srcIp : UInt32) (incoming : TcpHeader)
    (data : Nat → UInt8) (dataLen : UInt32) : Option HostOutcome :=
  match findTcb tcbHead srcIp incoming with
  | none => some { tcbHead, sent := rxNoTcb srcIp incoming dataLen, wakeup := false }
  | some index =>
      match tcbHead[index]? with
      | none => none
      | some t =>
          (rxTcb t srcIp incoming data dataLen).map fun outcome =>
            { tcbHead :=
                match outcome.tcb with
                | some t => tcbHead.set index t
                | none => tcbHead.eraseIdx index
              sent := outcome.sent
              wakeup := outcome.wakeup }

/-- `rxTcb` on a segment. -/
def Tcb.receive (t : Tcb) (segment : Segment) : Option TcbOutcome :=
  rxTcb t segment.srcIp segment.header segment.data segment.dataLen

end Lpc17xx.Tcp
