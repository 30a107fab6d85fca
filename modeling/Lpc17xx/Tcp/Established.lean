import Lpc17xx.Tcp.Api

/-!
# One segment in `ESTABLISHED`

Every result about established connections reads the receive function through
the equations of this module: one for each field that `case ESTABLISHED`
changes, and one for the segments it transmits.
-/

namespace Lpc17xx.Tcp

open Lpc17xx.Cbuf

/-- The TCB after a segment in `ESTABLISHED`. -/
def Tcb.afterEstablished (t : Tcb) (segment : Segment) : Tcb :=
  rxPayload (rxFin (rxAck t.disarm segment.header) segment.header) segment.data segment.dataLen

/-- Whether a segment in `ESTABLISHED` is answered. -/
def Tcb.answersEstablished (t : Tcb) (segment : Segment) : Bool :=
  segment.header.fin || segment.dataLen ≠ 0 ||
    (segment.dataLen = 0 && noAckedBytes t segment.header = 0)

theorem rxAck_curAckN (t : Tcb) (incoming : TcpHeader) :
    (rxAck t incoming).curAckN = t.curAckN := by
  unfold rxAck
  split <;> rfl

theorem rxFin_curAckN (t : Tcb) (incoming : TcpHeader) :
    (rxFin t incoming).curAckN = t.curAckN + if incoming.fin then 1 else 0 := by
  unfold rxFin
  split <;> simp

theorem rxPayload_curAckN (t : Tcb) (data : Nat → UInt8) (dataLen : UInt32) :
    (rxPayload t data dataLen).curAckN = t.curAckN + dataLen := by
  unfold rxPayload
  split
  · rfl
  · rename_i empty
    rw [not_not.mp empty, UInt32.add_zero]

section

variable {t : Tcb} (segment : Segment)

theorem receive_established (established : t.state = .established) :
    t.receive segment = some
      { tcb := some (t.afterEstablished segment)
        sent := if t.answersEstablished segment then
            [⟨(t.afterEstablished segment).ackHeader, segment.srcIp, []⟩] else []
        wakeup := true } := by
  have disarmed : t.disarm.state = .established := established
  have open_ : t.state ≠ .closeWait := by
    rw [established]
    decide
  simp only [Tcb.receive, rxTcb, if_neg open_, rxSwitch, disarmed, rxEstablished,
    Switched.keep, Bool.false_eq_true, if_false, List.nil_append]
  rfl

@[simp]
theorem afterEstablished_state :
    (t.afterEstablished segment).state =
      if segment.header.fin then .closeWait else t.state := by
  unfold Tcb.afterEstablished rxPayload rxFin rxAck
  split <;> split <;> split <;> rfl

@[simp]
theorem afterEstablished_curSeqN :
    (t.afterEstablished segment).curSeqN =
      if segment.header.ack then segment.header.ackN else t.curSeqN := by
  unfold Tcb.afterEstablished rxPayload rxFin rxAck
  split <;> split <;> split <;> rfl

/-- The counter of unacknowledged bytes drops by a positive signed distance and
ignores any other. -/
theorem afterEstablished_unackedByteCount :
    (t.afterEstablished segment).unackedByteCount =
      if segment.header.ack ∧ 0 < (segment.header.ackN - t.curSeqN).toInt32 then
        t.unackedByteCount - (segment.header.ackN - t.curSeqN)
      else t.unackedByteCount := by
  have unchanged : (t.afterEstablished segment).unackedByteCount =
      (rxAck t.disarm segment.header).unackedByteCount := by
    unfold Tcb.afterEstablished rxPayload rxFin
    split <;> split <;> rfl
  rw [unchanged]
  by_cases acks : segment.header.ack
  · simp [rxAck, noAckedBytes, acks, Tcb.disarm]
  · simp [rxAck, acks, Tcb.disarm]

/-- An acknowledgement within the outstanding bytes is subtracted from them. -/
theorem toNat_afterEstablished_unackedByteCount (acks : segment.header.ack = true)
    (within : (segment.header.ackN - t.curSeqN).toNat ≤ t.unackedByteCount.toNat)
    (small : t.unackedByteCount.toNat < 2 ^ 31) :
    (t.afterEstablished segment).unackedByteCount.toNat =
      t.unackedByteCount.toNat - (segment.header.ackN - t.curSeqN).toNat := by
  rw [afterEstablished_unackedByteCount]
  by_cases advances : 0 < (segment.header.ackN - t.curSeqN).toInt32
  · rw [if_pos ⟨acks, advances⟩, UInt32.toNat_sub_of_le]
    exact UInt32.le_iff_toNat_le.mpr within
  · rw [if_neg (fun both => advances both.2)]
    have notPositive := (Serial.toInt32_pos_iff _).not.mp advances
    omega

/-- FIN and payload each advance the acknowledgement number. -/
theorem afterEstablished_curAckN :
    (t.afterEstablished segment).curAckN =
      t.curAckN + (if segment.header.fin then 1 else 0) + segment.dataLen := by
  rw [Tcb.afterEstablished, rxPayload_curAckN, rxFin_curAckN, rxAck_curAckN]
  rfl

@[simp]
theorem afterEstablished_rxBuf :
    (t.afterEstablished segment).rxBuf =
      if segment.dataLen ≠ 0 then t.rxBuf.push segment.data segment.dataLen else t.rxBuf := by
  unfold Tcb.afterEstablished rxPayload rxFin rxAck
  split <;> split <;> split <;> rfl

/-- The fields that name the connection are not touched. -/
theorem afterEstablished_frame :
    (t.afterEstablished segment).addr = t.addr ∧
      (t.afterEstablished segment).srcPort = t.srcPort ∧
      (t.afterEstablished segment).dstPort = t.dstPort ∧
      (t.afterEstablished segment).dstIp = t.dstIp := by
  unfold Tcb.afterEstablished rxPayload rxFin rxAck
  split <;> split <;> split <;> exact ⟨rfl, rfl, rfl, rfl⟩

/-- The queue after a segment whose payload fits. -/
theorem afterEstablished_contents (fits : segment.dataLen ≤ t.rxBuf.curCapacity) :
    (t.afterEstablished segment).rxBuf.contents = t.rxBuf.contents ++ segment.payload := by
  rw [afterEstablished_rxBuf]
  split
  · rw [LiveBuf.contents_push fits, Segment.toNat_dataLen, Segment.bytesAt_data]
  · rename_i empty
    rw [(segment.dataLen_eq_zero_iff).mp (not_not.mp empty), List.append_nil]

/-- A payload that does not fit leaves the queue as it was. -/
theorem afterEstablished_contents_of_lt (full : t.rxBuf.curCapacity < segment.dataLen) :
    (t.afterEstablished segment).rxBuf.contents = t.rxBuf.contents := by
  rw [afterEstablished_rxBuf]
  split
  · rw [LiveBuf.push_of_lt full]
  · rfl

/-- The free space after a segment whose payload fits. -/
theorem afterEstablished_curCapacity (fits : segment.dataLen ≤ t.rxBuf.curCapacity) :
    (t.afterEstablished segment).rxBuf.curCapacity =
      t.rxBuf.curCapacity - segment.dataLen := by
  rw [afterEstablished_rxBuf]
  split
  · exact LiveBuf.curCapacity_push fits
  · rename_i empty
    rw [not_not.mp empty, UInt32.sub_zero]

end

@[simp]
theorem ackHeader_seqN (t : Tcb) : t.ackHeader.seqN = t.curSeqN :=
  rfl

end Lpc17xx.Tcp
