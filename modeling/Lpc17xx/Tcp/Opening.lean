import Lpc17xx.Tcp.Established

/-!
# One segment before `ESTABLISHED`

The equations through which the results about opening connections read the
receive function: the TCB after a segment in `SYN_SENT`, `LISTEN` and
`SYN_RECEIVED`, and which of these can lead to `ESTABLISHED`.
-/

namespace Lpc17xx.Tcp

/-- The TCB after a segment in `SYN_SENT`. -/
def Tcb.afterSynSent (t : Tcb) (segment : Segment) : Tcb :=
  if segment.header.syn && segment.header.ack then
    { t.disarm with
      curSeqN := t.curSeqN + 1
      curAckN := segment.header.seqN + 1
      hostWindowSz := segment.header.windowSz
      state := .established }
  else
    { t.disarm with state := .closed }

/-- The TCB after a segment in `LISTEN`. -/
def Tcb.afterListen (t : Tcb) (segment : Segment) : Tcb :=
  if segment.header.syn then
    { t.disarm with
      dstIp := segment.srcIp
      curAckN := segment.header.seqN + 1
      dstPort := segment.header.sourcePort
      state := .synReceived }
  else
    t.disarm

/-- The TCB after a segment in `SYN_RECEIVED`. -/
def Tcb.afterSynReceived (t : Tcb) (segment : Segment) : Tcb :=
  if segment.header.ack then
    { t.disarm with curSeqN := segment.header.ackN, state := .established }
  else
    t.disarm

section

variable {t : Tcb} (segment : Segment)

/-- The only answer before `ESTABLISHED` is the acknowledgement of a SYN+ACK. -/
theorem receive_synSent (synSent : t.state = .synSent) :
    t.receive segment = some
      { tcb := some (t.afterSynSent segment)
        sent := if segment.header.syn && segment.header.ack then
            [⟨(t.afterSynSent segment).ackHeader, t.dstIp, []⟩] else []
        wakeup := true } := by
  have disarmed : t.disarm.state = .synSent := synSent
  have open_ : t.state ≠ .closeWait := by
    rw [synSent]
    decide
  simp only [Tcb.receive, rxTcb, if_neg open_, rxSwitch, disarmed, rxSynSent, Tcb.afterSynSent]
  by_cases answered : (segment.header.syn && segment.header.ack) = true
  · simp only [answered, if_true, Bool.false_eq_true, if_false, List.append_nil]
    rfl
  · simp only [answered, Bool.false_eq_true, if_false, Switched.keep, List.append_nil]

theorem receive_listen (listen : t.state = .listen) :
    t.receive segment = some
      { tcb := some (t.afterListen segment), sent := [], wakeup := true } := by
  have disarmed : t.disarm.state = .listen := listen
  have open_ : t.state ≠ .closeWait := by
    rw [listen]
    decide
  simp only [Tcb.receive, rxTcb, if_neg open_, rxSwitch, disarmed, rxListen, Tcb.afterListen]
  by_cases syn : segment.header.syn = true <;> simp [syn, Switched.keep]

theorem receive_synReceived (synReceived : t.state = .synReceived) :
    t.receive segment = some
      { tcb := some (t.afterSynReceived segment), sent := [], wakeup := true } := by
  have disarmed : t.disarm.state = .synReceived := synReceived
  have open_ : t.state ≠ .closeWait := by
    rw [synReceived]
    decide
  simp only [Tcb.receive, rxTcb, if_neg open_, rxSwitch, disarmed, rxSynReceived,
    Tcb.afterSynReceived]
  by_cases ack : segment.header.ack = true <;> simp [ack, Switched.keep]

/-- A closed TCB ignores every segment. -/
theorem receive_closed (closed : t.state = .closed) :
    t.receive segment = some { tcb := some t.disarm, sent := [], wakeup := true } := by
  have disarmed : t.disarm.state = .closed := closed
  have open_ : t.state ≠ .closeWait := by
    rw [closed]
    decide
  simp only [Tcb.receive, rxTcb, if_neg open_, rxSwitch, disarmed, Switched.keep,
    Bool.false_eq_true, if_false, List.append_nil]

/-- A segment for a TCB in `CLOSE_WAIT` stops the machine. -/
theorem receive_closeWait (closeWait : t.state = .closeWait) : t.receive segment = none := by
  simp [Tcb.receive, rxTcb, closeWait]

end

end Lpc17xx.Tcp
