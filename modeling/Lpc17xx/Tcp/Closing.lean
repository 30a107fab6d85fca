import Lpc17xx.Tcp.Opening

/-!
# Closing a connection

`tcp_close` and `tcp_tick`, and the equations through which the results about
closing connections read the receive function: the TCB after a segment in each
of the closing states, and then after a segment in any state.
-/

namespace Lpc17xx.Tcp

open Lpc17xx.Cbuf

/-- What `tcp_close` has left to do once its FIN is transmitted: the branch for
`CLOSE_WAIT` or the one for `ESTABLISHED`. -/
inductive ClosingThread where
  | lastAck
  | finWait1
  deriving DecidableEq, Repr

/-- The segment that either branch of `tcp_close` transmits. -/
def tcpCloseFin (connection : Tcb) : TcpTx where
  header := { tcpHeaderPrepopulate connection TcpHeader.zero with fin := true, ack := true }
  destIp := connection.dstIp
  payload := []

/-- `tcp_close` up to the point where its FIN is transmitted. -/
def tcpClose (connection : Tcb) : Option (ClosingThread × TcpTx) :=
  if connection.state = .closeWait then some (.lastAck, tcpCloseFin connection)
  else if connection.state = .established then some (.finWait1, tcpCloseFin connection)
  else none

/-- The rest of `tcp_close`.  The state is assigned, not tested again. -/
def tcpCloseReturn (connection : Tcb) : ClosingThread → Tcb
  | .lastAck => { connection with state := .lastAck }
  | .finWait1 => { connection with curSeqN := connection.curSeqN + 1, state := .finWait1 }

theorem tcpClose_eq_some {connection : Tcb} {thread : ClosingThread} {tx : TcpTx}
    (called : tcpClose connection = some (thread, tx)) :
    (connection.state = .closeWait ∧ thread = .lastAck ∨
      connection.state = .established ∧ thread = .finWait1) ∧ tx = tcpCloseFin connection := by
  unfold tcpClose at called
  split at called
  · rename_i closeWait
    cases called
    exact ⟨.inl ⟨closeWait, rfl⟩, rfl⟩
  · split at called
    · rename_i established
      cases called
      exact ⟨.inr ⟨established, rfl⟩, rfl⟩
    · contradiction

/-- One round of `tcp_tick`: the TCB afterwards, or `none` when it was unlinked
and freed. -/
def tickTcb (cur : Tcb) : Option Tcb :=
  if cur.decrementTimeout then
    let expired := cur.timeout == 0
    let cur := { cur with timeout := cur.timeout - 1 }
    if expired then
      let cur := { cur with timedOut := true, decrementTimeout := false }
      if cur.state = .timeWait then none else some cur
    else some cur
  else some cur

/-- `tcp_tick`: the TCBs that stay on `tcb_head`. -/
def tcpTick (tcbHead : List Tcb) : List Tcb :=
  tcbHead.filterMap tickTcb

/-- A TCB whose timer runs out on the next tick. -/
def Tcb.Expires (t : Tcb) : Prop :=
  t.decrementTimeout = true ∧ t.timeout = 0

instance (t : Tcb) : Decidable t.Expires :=
  inferInstanceAs (Decidable (_ ∧ _))

section Tick

variable {t : Tcb}

theorem tickTcb_of_idle (idle : t.decrementTimeout = false) : tickTcb t = some t := by
  simp [tickTcb, idle]

theorem tickTcb_of_running (armed : t.decrementTimeout = true) (running : t.timeout ≠ 0) :
    tickTcb t = some { t with timeout := t.timeout - 1 } := by
  simp [tickTcb, armed, running]

/-- A timer that has one tick more to go is counted down to the rest. -/
theorem tickTcb_of_left {ticks : Nat} (armed : t.decrementTimeout = true)
    (left : t.timeout.toNat = ticks + 1) :
    tickTcb t = some { t with timeout := t.timeout - 1 } ∧ (t.timeout - 1).toNat = ticks := by
  have running : t.timeout ≠ 0 := by
    intro zero
    rw [zero] at left
    contradiction
  have one : (1 : UInt16) ≤ t.timeout := by
    rw [UInt16.le_iff_toNat_le, left]
    exact Nat.le_add_left 1 ticks
  refine ⟨tickTcb_of_running armed running, ?_⟩
  rw [UInt16.toNat_sub_of_le _ _ one, left]
  rfl

theorem tickTcb_of_expires (expires : t.Expires) (other : t.state ≠ .timeWait) :
    tickTcb t = some
      { t with timeout := t.timeout - 1, timedOut := true, decrementTimeout := false } := by
  simp [tickTcb, expires.1, expires.2, other]

theorem tickTcb_of_timeWait (expires : t.Expires) (timeWait : t.state = .timeWait) :
    tickTcb t = none := by
  simp [tickTcb, expires.1, expires.2, timeWait]

/-- What a tick does to a TCB that stays on the list. -/
theorem tickTcb_eq_some {after : Tcb} (ticked : tickTcb t = some after) :
    (t.decrementTimeout = false ∧ after = t) ∨
    (t.decrementTimeout = true ∧ t.timeout ≠ 0 ∧ after = { t with timeout := t.timeout - 1 }) ∨
    (t.Expires ∧ t.state ≠ .timeWait ∧ after =
      { t with timeout := t.timeout - 1, timedOut := true, decrementTimeout := false }) := by
  by_cases armed : t.decrementTimeout = true
  · by_cases zero : t.timeout = 0
    · by_cases timeWait : t.state = .timeWait
      · rw [tickTcb_of_timeWait ⟨armed, zero⟩ timeWait] at ticked
        contradiction
      · rw [tickTcb_of_expires ⟨armed, zero⟩ timeWait] at ticked
        exact .inr (.inr ⟨⟨armed, zero⟩, timeWait, (Option.some.inj ticked).symm⟩)
    · rw [tickTcb_of_running armed zero] at ticked
      exact .inr (.inl ⟨armed, zero, (Option.some.inj ticked).symm⟩)
  · have idle := eq_false_of_ne_true armed
    rw [tickTcb_of_idle idle] at ticked
    exact .inl ⟨idle, (Option.some.inj ticked).symm⟩

/-- Only a TCB in `TIME_WAIT` whose timer runs out is removed. -/
theorem tickTcb_eq_none_iff : tickTcb t = none ↔ t.Expires ∧ t.state = .timeWait := by
  constructor
  · intro removed
    by_cases armed : t.decrementTimeout = true
    · by_cases zero : t.timeout = 0
      · by_cases timeWait : t.state = .timeWait
        · exact ⟨⟨armed, zero⟩, timeWait⟩
        · rw [tickTcb_of_expires ⟨armed, zero⟩ timeWait] at removed
          contradiction
      · rw [tickTcb_of_running armed zero] at removed
        contradiction
    · rw [tickTcb_of_idle (eq_false_of_ne_true armed)] at removed
      contradiction
  · rintro ⟨expires, timeWait⟩
    exact tickTcb_of_timeWait expires timeWait

/-- A tick changes nothing but the timer. -/
theorem tickTcb_frame {after : Tcb} (ticked : tickTcb t = some after) :
    after.addr = t.addr ∧ after.state = t.state ∧ after.curSeqN = t.curSeqN ∧
      after.curAckN = t.curAckN ∧ after.rxBuf = t.rxBuf ∧
      after.unackedByteCount = t.unackedByteCount ∧ after.srcPort = t.srcPort ∧
      after.dstPort = t.dstPort ∧ after.dstIp = t.dstIp := by
  rcases tickTcb_eq_some ticked with ⟨_, rfl⟩ | ⟨_, _, rfl⟩ | ⟨_, _, rfl⟩
  · exact ⟨rfl, rfl, rfl, rfl, rfl, rfl, rfl, rfl, rfl⟩
  · exact ⟨rfl, rfl, rfl, rfl, rfl, rfl, rfl, rfl, rfl⟩
  · exact ⟨rfl, rfl, rfl, rfl, rfl, rfl, rfl, rfl, rfl⟩

end Tick

/-- The TCB after a segment in `FIN_WAIT1`. -/
def Tcb.afterFinWait1 (t : Tcb) (segment : Segment) : Tcb :=
  if segment.header.ack && segment.header.ackN == t.curSeqN then
    if segment.header.fin then
      { t.disarm with curAckN := segment.header.seqN + 1 }.enterTimeWait
    else
      { t.disarm with curAckN := segment.header.seqN, state := .finWait2 }
  else if segment.header.fin then
    { t.disarm with curAckN := t.curAckN + 1, state := .closing }
  else
    t.disarm

/-- The TCB after a segment in `FIN_WAIT2`. -/
def Tcb.afterFinWait2 (t : Tcb) (segment : Segment) : Tcb :=
  if segment.header.fin && segment.header.ack then t.disarm.enterTimeWait else t.disarm

/-- The TCB after a segment in `CLOSING`. -/
def Tcb.afterClosing (t : Tcb) (segment : Segment) : Tcb :=
  { t.disarm with curAckN := if segment.header.ack then 1 else t.curAckN }.enterTimeWait

/-- The TCB after a segment in any state but `CLOSE_WAIT`, in which the machine
stops. -/
def Tcb.after (t : Tcb) (segment : Segment) : Tcb :=
  match t.state with
  | .synSent => t.afterSynSent segment
  | .listen => t.afterListen segment
  | .synReceived => t.afterSynReceived segment
  | .established => t.afterEstablished segment
  | .finWait1 => t.afterFinWait1 segment
  | .finWait2 => t.afterFinWait2 segment
  | .closing => t.afterClosing segment
  | .closed | .closeWait | .lastAck | .timeWait => t.disarm

/-- What a segment is answered with. -/
def Tcb.answer (t : Tcb) (segment : Segment) : List TcpTx :=
  match t.state with
  | .synSent =>
      if segment.header.syn && segment.header.ack then
        [⟨(t.after segment).ackHeader, t.dstIp, []⟩] else []
  | .established =>
      if t.answersEstablished segment then
        [⟨(t.after segment).ackHeader, segment.srcIp, []⟩] else []
  | .finWait1 =>
      if segment.header.fin then [⟨(t.after segment).ackHeader, segment.srcIp, []⟩] else []
  | .finWait2 =>
      if segment.header.fin && segment.header.ack then
        [⟨(t.after segment).ackHeader, segment.srcIp, []⟩] else []
  | .listen | .synReceived | .closing | .closed | .closeWait | .lastAck | .timeWait => []

section Receive

variable {t : Tcb} (segment : Segment)

theorem receive_finWait1 (finWait1 : t.state = .finWait1) :
    t.receive segment = some
      { tcb := some (t.afterFinWait1 segment)
        sent := if segment.header.fin then
            [⟨(t.afterFinWait1 segment).ackHeader, segment.srcIp, []⟩] else []
        wakeup := true } := by
  have disarmed : t.disarm.state = .finWait1 := finWait1
  have seqN : t.disarm.curSeqN = t.curSeqN := rfl
  have open_ : t.state ≠ .closeWait := by
    rw [finWait1]
    decide
  simp only [Tcb.receive, rxTcb, if_neg open_, rxSwitch, disarmed, rxFinWait1, rxFinWait2,
    Tcb.afterFinWait1, seqN]
  by_cases fin : segment.header.fin = true
  · by_cases acks : (segment.header.ack && segment.header.ackN == t.curSeqN) = true
    · simp only [fin, acks, Bool.true_and, if_true, Switched.keep, Bool.false_eq_true, if_false,
        List.nil_append]
    · simp only [fin, acks, Bool.true_and, Bool.false_eq_true, if_true, if_false, Switched.keep,
        List.nil_append]
      rfl
  · by_cases acks : (segment.header.ack && segment.header.ackN == t.curSeqN) = true
    · simp only [fin, acks, Bool.false_and, Bool.false_eq_true, if_true, if_false, Switched.keep,
        List.append_nil]
    · simp only [fin, acks, Bool.false_and, Bool.false_eq_true, if_false, Switched.keep,
        List.append_nil]

theorem receive_finWait2 (finWait2 : t.state = .finWait2) :
    t.receive segment = some
      { tcb := some (t.afterFinWait2 segment)
        sent := if segment.header.fin && segment.header.ack then
            [⟨(t.afterFinWait2 segment).ackHeader, segment.srcIp, []⟩] else []
        wakeup := true } := by
  have disarmed : t.disarm.state = .finWait2 := finWait2
  have open_ : t.state ≠ .closeWait := by
    rw [finWait2]
    decide
  simp only [Tcb.receive, rxTcb, if_neg open_, rxSwitch, disarmed, rxFinWait2, Tcb.afterFinWait2]
  by_cases both : (segment.header.fin && segment.header.ack) = true
  · simp only [both, if_true, Switched.keep, Bool.false_eq_true, if_false, List.nil_append]
  · simp only [both, Bool.false_eq_true, if_false, Switched.keep, List.append_nil]

theorem receive_closing (closing : t.state = .closing) :
    t.receive segment = some
      { tcb := some (t.afterClosing segment), sent := [], wakeup := true } := by
  have disarmed : t.disarm.state = .closing := closing
  have open_ : t.state ≠ .closeWait := by
    rw [closing]
    decide
  simp only [Tcb.receive, rxTcb, if_neg open_, rxSwitch, disarmed, rxClosing, Tcb.afterClosing]
  by_cases ack : segment.header.ack = true
  · simp [ack, Switched.keep]
  · simp only [ack, Switched.keep, Bool.false_eq_true, if_false, List.append_nil]
    rfl

/-- The states that have no case in the switch. -/
theorem receive_idle (idle : t.state = .closed ∨ t.state = .lastAck ∨ t.state = .timeWait) :
    t.receive segment = some { tcb := some t.disarm, sent := [], wakeup := true } := by
  have open_ : t.state ≠ .closeWait := by
    rcases idle with closed | lastAck | timeWait <;> simp_all
  have switched : rxSwitch t.disarm segment.srcIp segment.header segment.data segment.dataLen =
      .keep t.disarm false := by
    rcases idle with closed | lastAck | timeWait <;> simp_all [rxSwitch, Tcb.disarm]
  simp [Tcb.receive, rxTcb, open_, switched, Switched.keep]

/-- The receive function on a TCB in any state but `CLOSE_WAIT`. -/
theorem receive_eq (open_ : t.state ≠ .closeWait) :
    t.receive segment = some
      { tcb := some (t.after segment), sent := t.answer segment, wakeup := true } := by
  unfold Tcb.answer Tcb.after
  cases state : t.state with
  | synSent => exact receive_synSent segment state
  | listen => exact receive_listen segment state
  | synReceived => exact receive_synReceived segment state
  | established => exact receive_established segment state
  | finWait1 => exact receive_finWait1 segment state
  | finWait2 => exact receive_finWait2 segment state
  | closing => exact receive_closing segment state
  | closed => exact receive_idle segment (.inl state)
  | lastAck => exact receive_idle segment (.inr (.inl state))
  | timeWait => exact receive_idle segment (.inr (.inr state))
  | closeWait => exact absurd state open_

/-- Only `CLOSE_WAIT` stops the machine. -/
theorem receive_eq_none_iff : t.receive segment = none ↔ t.state = .closeWait := by
  constructor
  · intro stopped
    by_contra open_
    rw [receive_eq segment open_] at stopped
    contradiction
  · exact receive_closeWait segment

end Receive

section After

variable {t : Tcb} (segment : Segment)

theorem afterFinWait1_state :
    (t.afterFinWait1 segment).state = .timeWait ∨ (t.afterFinWait1 segment).state = .finWait2 ∨
      (t.afterFinWait1 segment).state = .closing ∨
      (t.afterFinWait1 segment).state = t.state := by
  unfold Tcb.afterFinWait1
  split
  · split
    · exact .inl rfl
    · exact .inr (.inl rfl)
  · split
    · exact .inr (.inr (.inl rfl))
    · exact .inr (.inr (.inr rfl))

theorem afterFinWait2_state :
    (t.afterFinWait2 segment).state = .timeWait ∨ (t.afterFinWait2 segment).state = t.state := by
  unfold Tcb.afterFinWait2
  split
  · exact .inl rfl
  · exact .inr rfl

/-- The state diagram of the switch: the states before and after a segment, with
or without FIN. -/
inductive StateAfter (fin : Bool) : TcpState → TcpState → Prop
  | unchanged {state : TcpState} : state ≠ .synSent → state ≠ .closing →
      (state = .established → fin = false) → StateAfter fin state state
  | connected : StateAfter fin .synSent .established
  | refused : StateAfter fin .synSent .closed
  | requested : StateAfter fin .listen .synReceived
  | accepted : StateAfter fin .synReceived .established
  | ended : fin = true → StateAfter fin .established .closeWait
  | acked : StateAfter fin .finWait1 .finWait2
  | crossed : StateAfter fin .finWait1 .closing
  | closed {state : TcpState} : state = .finWait1 ∨ state = .finWait2 ∨ state = .closing →
      StateAfter fin state .timeWait

theorem StateAfter.disarm {fin : Bool} {state : TcpState} (here : t.state = state)
    (other : state ≠ .synSent ∧ state ≠ .closing ∧ state ≠ .established) :
    StateAfter fin state t.disarm.state := by
  have same : t.disarm.state = state := here
  rw [same]
  exact .unchanged other.1 other.2.1 (fun established => absurd established other.2.2)

/-- Every segment moves the state along the diagram. -/
theorem after_state : StateAfter segment.header.fin t.state (t.after segment).state := by
  unfold Tcb.after
  cases state : t.state with
  | synSent =>
      simp only [Tcb.afterSynSent]
      split
      · exact .connected
      · exact .refused
  | listen =>
      simp only [Tcb.afterListen]
      split
      · exact .requested
      · exact .disarm state (by decide)
  | synReceived =>
      simp only [Tcb.afterSynReceived]
      split
      · exact .accepted
      · exact .disarm state (by decide)
  | established =>
      simp only [afterEstablished_state, state]
      split
      · rename_i fin
        exact .ended fin
      · rename_i noFin
        exact .unchanged (by simp) (by simp) (fun _ => eq_false_of_ne_true noFin)
  | finWait1 =>
      simp only
      rcases afterFinWait1_state (t := t) segment with next | next | next | next
      · exact next ▸ .closed (.inl rfl)
      · exact next ▸ .acked
      · exact next ▸ .crossed
      · rw [next, state]
        exact .unchanged (by simp) (by simp) (by simp)
  | finWait2 =>
      simp only
      rcases afterFinWait2_state (t := t) segment with next | next
      · exact next ▸ .closed (.inr (.inl rfl))
      · rw [next, state]
        exact .unchanged (by simp) (by simp) (by simp)
  | closing => exact .closed (.inr (.inr rfl))
  | closed => exact .disarm state (by decide)
  | closeWait => exact .disarm state (by decide)
  | lastAck => exact .disarm state (by decide)
  | timeWait => exact .disarm state (by decide)

/-- No segment takes an open connection back to one that is being opened. -/
theorem after_opened
    (opened : t.state ≠ .listen ∧ t.state ≠ .synSent ∧ t.state ≠ .synReceived) :
    (t.after segment).state ≠ .listen ∧ (t.after segment).state ≠ .synSent ∧
      (t.after segment).state ≠ .synReceived := by
  have moved := after_state (t := t) segment
  generalize t.state = before at *
  generalize (t.after segment).state = next at *
  cases moved with
  | unchanged _ _ _ => exact opened
  | connected => simp
  | refused => simp
  | requested => exact absurd rfl opened.1
  | accepted => simp
  | ended _ => simp
  | acked => simp
  | crossed => simp
  | closed _ => simp

/-- The peer's FIN ends `ESTABLISHED`, and nothing else leads to `CLOSE_WAIT`. -/
theorem after_closeWait_iff :
    (t.after segment).state = .closeWait ↔
      t.state = .closeWait ∨ t.state = .established ∧ segment.header.fin = true := by
  have moved := after_state (t := t) segment
  generalize t.state = before at *
  generalize (t.after segment).state = next at *
  cases moved with
  | unchanged _ _ open_ =>
      constructor
      · exact .inl
      · rintro (closeWait | ⟨established, fin⟩)
        · exact closeWait
        · rw [open_ established] at fin
          contradiction
  | connected => simp
  | refused => simp
  | requested => simp
  | accepted => simp
  | ended fin => simp [fin]
  | acked => simp
  | crossed => simp
  | closed before => rcases before with rfl | rfl | rfl <;> simp

/-- No segment leaves a TCB in `SYN_SENT`. -/
theorem after_ne_synSent : (t.after segment).state ≠ .synSent := by
  have moved := after_state (t := t) segment
  generalize t.state = before at *
  generalize (t.after segment).state = next at *
  cases moved with
  | unchanged other _ _ => exact other
  | connected => simp
  | refused => simp
  | requested => simp
  | accepted => simp
  | ended _ => simp
  | acked => simp
  | crossed => simp
  | closed _ => simp

theorem after_state_of_synSent (synSent : t.state = .synSent) :
    (t.after segment).state = .established ∨ (t.after segment).state = .closed := by
  have moved := after_state (t := t) segment
  rw [synSent] at moved
  generalize (t.after segment).state = next at *
  cases moved with
  | unchanged other _ _ => exact absurd rfl other
  | connected => exact .inl rfl
  | refused => exact .inr rfl
  | closed before => simp at before

theorem after_state_of_established (established : t.state = .established) :
    (t.after segment).state = .established ∨ (t.after segment).state = .closeWait := by
  have moved := after_state (t := t) segment
  rw [established] at moved
  generalize (t.after segment).state = next at *
  cases moved with
  | unchanged _ _ _ => exact .inl rfl
  | ended _ => exact .inr rfl
  | closed before => simp at before

theorem after_eq_disarm (idle : t.state = .closed ∨ t.state = .lastAck ∨ t.state = .timeWait) :
    t.after segment = t.disarm := by
  unfold Tcb.after
  rcases idle with closed | lastAck | timeWait
  · rw [closed]
  · rw [lastAck]
  · rw [timeWait]

/-- What every case of the switch does to the timer: it stays stopped, or the TCB
enters `TIME_WAIT`. -/
def Tcb.TimerAfter (before after : Tcb) : Prop :=
  after.addr = before.addr ∧ after.timedOut = false ∧
    (after.decrementTimeout = false ∧ (after.state = .timeWait → before.state = .timeWait) ∨
      after.decrementTimeout = true ∧ after.timeout = tcpTimeout ∧ after.state = .timeWait)

theorem Tcb.TimerAfter.stopped {before after : Tcb} (addr : after.addr = before.addr)
    (timedOut : after.timedOut = false) (idle : after.decrementTimeout = false)
    (entered : after.state = .timeWait → before.state = .timeWait) : before.TimerAfter after :=
  ⟨addr, timedOut, .inl ⟨idle, entered⟩⟩

/-- `TIME_WAIT` is entered with the timer running. -/
theorem Tcb.TimerAfter.entered (curAckN : UInt32) :
    t.TimerAfter { t.disarm with curAckN }.enterTimeWait :=
  ⟨rfl, rfl, .inr ⟨rfl, rfl, rfl⟩⟩

theorem Tcb.TimerAfter.disarm : t.TimerAfter t.disarm :=
  .stopped rfl rfl rfl id

theorem afterEstablished_timer (established : t.state = .established) :
    t.TimerAfter (t.afterEstablished segment) := by
  apply Tcb.TimerAfter.stopped
  · unfold Tcb.afterEstablished rxPayload rxFin rxAck
    split <;> split <;> split <;> rfl
  · unfold Tcb.afterEstablished rxPayload rxFin rxAck
    split <;> split <;> split <;> rfl
  · unfold Tcb.afterEstablished rxPayload rxFin rxAck
    split <;> split <;> split <;> rfl
  · rw [afterEstablished_state, established]
    split <;> simp

theorem after_timer : t.TimerAfter (t.after segment) := by
  unfold Tcb.after
  split
  · unfold Tcb.afterSynSent
    split
    · exact .stopped rfl rfl rfl (fun other => nomatch other)
    · exact .stopped rfl rfl rfl (fun other => nomatch other)
  · unfold Tcb.afterListen
    split
    · exact .stopped rfl rfl rfl (fun other => nomatch other)
    · exact .disarm
  · unfold Tcb.afterSynReceived
    split
    · exact .stopped rfl rfl rfl (fun other => nomatch other)
    · exact .disarm
  · rename_i established
    exact afterEstablished_timer segment established
  · unfold Tcb.afterFinWait1
    split
    · split
      · exact .entered _
      · exact .stopped rfl rfl rfl (fun other => nomatch other)
    · split
      · exact .stopped rfl rfl rfl (fun other => nomatch other)
      · exact .disarm
  · unfold Tcb.afterFinWait2
    split
    · exact .entered t.curAckN
    · exact .disarm
  · exact .entered _
  all_goals exact .disarm

theorem after_addr : (t.after segment).addr = t.addr :=
  (after_timer segment).1

end After

/-- A FIN without data from the peer of `main`. -/
def mainPeerFin (seqN ackN : UInt32) : Segment :=
  let segment := mainPeerSegment seqN ackN []
  { segment with header := { segment.header with fin := true } }

end Lpc17xx.Tcp
