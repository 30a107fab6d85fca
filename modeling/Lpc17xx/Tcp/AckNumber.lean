import Lpc17xx.Tcp.Closing
import Lpc17xx.Transition.Labelled

/-!
# The acknowledgement number of a closing connection

Each closing state has its own formula for `cur_ack_n`.  `ESTABLISHED` adds what
the segment carries, by `data_len`, which a data offset behind the end of the packet
makes wrap.  `FIN_WAIT1` copies the sequence number of the segment or adds one for a
FIN, `FIN_WAIT2` compares where it should assign, and `CLOSING` assigns the ACK bit.
The module says when the answer to a FIN carries the right number, and when the number
keeps from going backwards.
-/

namespace Lpc17xx.Tcp

open Lpc17xx.Cbuf
open Lpc17xx.Serial
open Lpc17xx.Transition

section Number

variable {t : Tcb} {segment : Segment}

theorem afterFinWait1_curAckN :
    (t.afterFinWait1 segment).curAckN =
      if segment.header.ack ∧ segment.header.ackN = t.curSeqN then
        segment.header.seqN + if segment.header.fin then 1 else 0
      else t.curAckN + if segment.header.fin then 1 else 0 := by
  by_cases acks : segment.header.ack = true ∧ segment.header.ackN = t.curSeqN
  · by_cases fin : segment.header.fin = true
    · simp [Tcb.afterFinWait1, Tcb.enterTimeWait, acks, fin]
    · simp [Tcb.afterFinWait1, acks, fin]
  · have test : (segment.header.ack && segment.header.ackN == t.curSeqN) = false := by
      simpa using acks
    by_cases fin : segment.header.fin = true
    · simp only [Tcb.afterFinWait1, test, acks, fin, Bool.false_eq_true, if_true, if_false]
    · simp only [Tcb.afterFinWait1, test, acks, fin, Bool.false_eq_true, if_false,
        UInt32.add_zero]
      rfl

theorem afterFinWait2_curAckN : (t.afterFinWait2 segment).curAckN = t.curAckN := by
  unfold Tcb.afterFinWait2
  split <;> rfl

theorem afterClosing_curAckN :
    (t.afterClosing segment).curAckN = if segment.header.ack then 1 else t.curAckN :=
  rfl

theorem toNat_dataLen_add_one (fits : segment.payload.length ≤ memHeapSize) :
    (segment.dataLen + 1).toNat = segment.payload.length + 1 := by
  unfold memHeapSize at fits
  rw [UInt32.toNat_add, Segment.toNat_dataLen]
  exact Nat.mod_eq_of_lt (by simp; omega)

end Number

/-- The number of the first position behind a segment with FIN. -/
def Segment.behindFin (segment : Segment) : UInt32 :=
  segment.header.seqN + segment.dataLen + 1

/-- The segment is answered with one acknowledgement, and it and `cur_ack_n`
carry the number behind the FIN. -/
def AcksFin (t : Tcb) (segment : Segment) : Prop :=
  ∃ after tx, t.receive segment = some { tcb := some after, sent := [tx], wakeup := true } ∧
    tx.header.ack = true ∧ tx.header.ackN = segment.behindFin ∧
    after.curAckN = segment.behindFin

section Fin

variable {t : Tcb} {segment : Segment}

/-- An answer built from the TCB carries its acknowledgement number. -/
theorem acksFin_iff_curAckN {after : Tcb}
    (answered : t.receive segment =
      some { tcb := some after, sent := [⟨after.ackHeader, segment.srcIp, []⟩], wakeup := true }) :
    AcksFin t segment ↔ after.curAckN = segment.behindFin := by
  constructor
  · rintro ⟨_, _, received, _, _, curAckN⟩
    rw [answered] at received
    cases received
    exact curAckN
  · intro curAckN
    exact ⟨after, _, answered, rfl, curAckN, curAckN⟩

theorem not_acksFin_of_silent {after : Tcb}
    (silent : t.receive segment = some { tcb := some after, sent := [], wakeup := true }) :
    ¬AcksFin t segment := by
  rintro ⟨_, _, received, _⟩
  rw [silent] at received
  cases received

/-- The number behind a FIN is the plain increment exactly when the segment
carries nothing else. -/
theorem add_one_eq_behindFin_iff :
    segment.header.seqN + 1 = segment.behindFin ↔ segment.payload = [] := by
  rw [← segment.dataLen_eq_zero_iff, Segment.behindFin]
  constructor
  · intro same
    grind
  · intro empty
    rw [empty, UInt32.add_zero]

/-- A FIN is never answered by repeating its own number. -/
theorem seqN_ne_behindFin (fits : segment.payload.length ≤ memHeapSize) :
    segment.header.seqN ≠ segment.behindFin := by
  intro same
  have carried : segment.dataLen + 1 = 0 := by
    rw [Segment.behindFin] at same
    grind
  have value := congrArg UInt32.toNat carried
  rw [toNat_dataLen_add_one fits] at value
  contradiction

end Fin

/-- The FIN of an in-order segment is acknowledged with the right number in
`ESTABLISHED`, and in `FIN_WAIT1` when the segment carries no payload.  Its payload is
one that a frame can hold. -/
theorem fin_acknowledged_iff {t : Tcb} {segment : Segment}
    (open_ : t.state = .established ∨ t.state = .finWait1 ∨ t.state = .finWait2)
    (fin : segment.header.fin = true) (inOrder : segment.header.seqN = t.curAckN)
    (fits : segment.payload.length ≤ memHeapSize) :
    AcksFin t segment ↔
      t.state = .established ∨ t.state = .finWait1 ∧ segment.payload = [] := by
  rcases open_ with established | finWait1 | finWait2
  · have answers : t.answersEstablished segment = true := by
      simp [Tcb.answersEstablished, fin]
    have received := receive_established segment established
    rw [if_pos answers] at received
    rw [acksFin_iff_curAckN received, afterEstablished_curAckN, if_pos fin, ← inOrder]
    simp only [established, true_or, iff_true, Segment.behindFin]
    grind
  · have received := receive_finWait1 segment finWait1
    rw [if_pos fin] at received
    rw [acksFin_iff_curAckN received, afterFinWait1_curAckN, if_pos fin, ← inOrder, ite_self,
      add_one_eq_behindFin_iff]
    simp [finWait1]
  · have received := receive_finWait2 segment finWait2
    simp only [finWait2, reduceCtorEq, false_and, or_self, iff_false]
    by_cases ack : segment.header.ack = true
    · have both : (segment.header.fin && segment.header.ack) = true := by
        simp [fin, ack]
      rw [if_pos both] at received
      rw [acksFin_iff_curAckN received, afterFinWait2_curAckN, ← inOrder]
      exact seqN_ne_behindFin fits
    · rw [if_neg (by simp [ack])] at received
      exact not_acksFin_of_silent received

/-- The connection of `main` after `tcp_close` and the acknowledgement of its
FIN. -/
def mainConnectionFinWait2 : Tcb :=
  { mainConnection with state := .finWait2, curSeqN := 1026 }

theorem fin_acknowledged_main : AcksFin mainConnection (mainPeerFin 1025 1025) :=
  (fin_acknowledged_iff (.inl rfl) rfl rfl (Nat.zero_le _)).mpr (.inl rfl)

/-- In `FIN_WAIT2` the FIN of the peer is answered with the number of the FIN
itself. -/
theorem fin_not_acknowledged_finWait2 :
    mainConnectionFinWait2.state = .finWait2 ∧ (mainPeerFin 1025 1026).header.fin = true ∧
      (mainPeerFin 1025 1026).header.seqN = mainConnectionFinWait2.curAckN ∧
      ¬AcksFin mainConnectionFinWait2 (mainPeerFin 1025 1026) := by
  refine ⟨rfl, rfl, rfl, ?_⟩
  have answered :
      ((mainPeerFin 1025 1026).header.fin && (mainPeerFin 1025 1026).header.ack) = true :=
    rfl
  have received := @receive_finWait2 mainConnectionFinWait2 (mainPeerFin 1025 1026) rfl
  rw [if_pos answered] at received
  rw [acksFin_iff_curAckN received, afterFinWait2_curAckN]
  exact @seqN_ne_behindFin (mainPeerFin 1025 1026) (Nat.zero_le _)

/-- What can happen to a connection: segments, the calls of the application, with
`tcp_close` in its two parts, and the timer. -/
inductive ConnectionEvent where
  | rx (segment : Segment)
  | txData (data : List UInt8)
  | rxData (len : UInt32)
  | close
  | closeReturn
  | tick

/-- A connection and, while a thread is inside `tcp_close`, what it has left to
do. -/
structure Connection where
  tcb : Tcb
  closing : Option ClosingThread

namespace Connection

def start (t : Tcb) : Connection where
  tcb := t
  closing := none

/-- One event.  Nothing happens any more once the TCB is freed or the machine has
stopped. -/
def step : Step Connection ConnectionEvent
  | s, .rx segment =>
      ((s.tcb.receive segment).bind TcbOutcome.tcb).map fun tcb => { s with tcb }
  | s, .txData data => (tcpTxData s.tcb data).map fun sent => { s with tcb := sent.1 }
  | s, .rxData len => (tcpRxDataRound s.tcb len).map fun read => { s with tcb := read.2 }
  | s, .close =>
      if s.closing = none then
        (tcpClose s.tcb).map fun called => { s with closing := some called.1 }
      else none
  | s, .closeReturn =>
      s.closing.map fun thread => { tcb := tcpCloseReturn s.tcb thread, closing := none }
  | s, .tick => (tickTcb s.tcb).map fun tcb => { s with tcb }

/-- The state has been `ESTABLISHED` at some time. -/
def Opened (s : Connection) : Prop :=
  s.tcb.state ≠ .listen ∧ s.tcb.state ≠ .synSent ∧ s.tcb.state ≠ .synReceived

/-- The acknowledgement number does not go backwards. -/
def AckForward (before : Connection) (_ : ConnectionEvent) (after : Connection) : Prop :=
  Le before.tcb.curAckN after.tcb.curAckN

/-- What `ESTABLISHED` adds is less than half the number space, and the numbers that
`FIN_WAIT1` copies and `CLOSING` assigns are not behind the acknowledgement number. -/
def MovesForward (s : Connection) : ConnectionEvent → Prop
  | .rx segment =>
      (s.tcb.state = .established →
        ((if segment.header.fin then (1 : UInt32) else 0) + segment.dataLen).toNat < 2 ^ 31) ∧
      (s.tcb.state = .finWait1 → segment.header.ack = true →
        segment.header.ackN = s.tcb.curSeqN →
          Le s.tcb.curAckN (segment.header.seqN + if segment.header.fin then 1 else 0)) ∧
      (s.tcb.state = .closing → segment.header.ack = true → Le s.tcb.curAckN 1)
  | _ => True

section Step

variable {s after : Connection}

theorem step_rx {segment : Segment} (taken : step s (.rx segment) = some after) :
    s.tcb.state ≠ .closeWait ∧ after = { s with tcb := s.tcb.after segment } := by
  obtain ⟨tcb, received, rfl⟩ := Option.map_eq_some_iff.mp taken
  obtain ⟨outcome, received, kept⟩ := Option.bind_eq_some_iff.mp received
  have open_ : s.tcb.state ≠ .closeWait := by
    intro closeWait
    rw [receive_closeWait segment closeWait] at received
    contradiction
  rw [receive_eq segment open_] at received
  cases received
  cases kept
  exact ⟨open_, rfl⟩

/-- Everything but a segment leaves the acknowledgement number alone, and can
only move the state on. -/
theorem step_frame {event : ConnectionEvent} (noSegment : ∀ segment, event ≠ .rx segment)
    (taken : step s event = some after) :
    after.tcb.curAckN = s.tcb.curAckN ∧
      (after.tcb.state = s.tcb.state ∨ after.tcb.state = .lastAck ∨
        after.tcb.state = .finWait1) := by
  cases event with
  | rx segment => exact absurd rfl (noSegment segment)
  | txData data =>
      obtain ⟨sent, transmitted, rfl⟩ := Option.map_eq_some_iff.mp taken
      obtain ⟨_, rfl⟩ := tcpTxData_eq_some transmitted
      exact ⟨rfl, .inl rfl⟩
  | rxData len =>
      obtain ⟨⟨bytes, read⟩, popped, rfl⟩ := Option.map_eq_some_iff.mp taken
      obtain ⟨rxBuf, rfl, _, _⟩ := tcpRxDataRound_eq_some popped
      exact ⟨rfl, .inl rfl⟩
  | close =>
      obtain ⟨_, taken⟩ := Option.ite_none_right_eq_some.mp taken
      obtain ⟨_, _, rfl⟩ := Option.map_eq_some_iff.mp taken
      exact ⟨rfl, .inl rfl⟩
  | closeReturn =>
      obtain ⟨thread, _, rfl⟩ := Option.map_eq_some_iff.mp taken
      cases thread with
      | lastAck => exact ⟨rfl, .inr (.inl rfl)⟩
      | finWait1 => exact ⟨rfl, .inr (.inr rfl)⟩
  | tick =>
      obtain ⟨tcb, ticked, rfl⟩ := Option.map_eq_some_iff.mp taken
      obtain ⟨_, state, _, curAckN, _⟩ := tickTcb_frame ticked
      exact ⟨curAckN, .inl state⟩

/-- A connection that was open once does not start over. -/
theorem Opened.step {event : ConnectionEvent} (opened : s.Opened)
    (taken : Connection.step s event = some after) : after.Opened := by
  by_cases isSegment : ∃ segment, event = .rx segment
  · obtain ⟨segment, rfl⟩ := isSegment
    obtain ⟨_, rfl⟩ := step_rx taken
    exact after_opened segment opened
  · obtain ⟨_, same | lastAck | finWait1⟩ :=
      step_frame (fun segment isRx => isSegment ⟨segment, isRx⟩) taken
    · rw [Opened, same]
      exact opened
    · simp [Opened, lastAck]
    · simp [Opened, finWait1]

/-- A segment moves the acknowledgement number forward exactly when what is added is
small and what is copied is not behind it. -/
theorem ackForward_rx_iff {segment : Segment} (opened : s.Opened)
    (taken : Connection.step s (.rx segment) = some after) :
    AckForward s (.rx segment) after ↔ s.MovesForward (.rx segment) := by
  obtain ⟨open_, rfl⟩ := step_rx taken
  simp only [AckForward, MovesForward, Tcb.after]
  cases state : s.tcb.state with
  | synSent => exact absurd state opened.2.1
  | listen => exact absurd state opened.1
  | synReceived => exact absurd state opened.2.2
  | closeWait => exact absurd state open_
  | established =>
      rw [afterEstablished_curAckN, UInt32.add_assoc, le_add_iff]
      simp only [reduceCtorEq, false_implies, true_implies, and_true]
  | finWait1 =>
      rw [afterFinWait1_curAckN]
      by_cases acks : segment.header.ack = true ∧ segment.header.ackN = s.tcb.curSeqN
      · rw [if_pos acks]
        simp [acks]
      · rw [if_neg acks, le_add_iff]
        have small : (if segment.header.fin then (1 : UInt32) else 0).toNat < 2 ^ 31 := by
          split <;> decide
        simp only [small, true_iff, forall_const, reduceCtorEq, false_implies, and_true, true_and]
        exact fun ack ackN => absurd ⟨ack, ackN⟩ acks
  | finWait2 =>
      rw [afterFinWait2_curAckN]
      simp [Le.refl]
  | closing =>
      rw [afterClosing_curAckN]
      by_cases ack : segment.header.ack = true <;> simp [ack, Le.refl]
  | closed =>
      simp only [reduceCtorEq, false_implies, and_self, iff_true]
      exact Le.refl s.tcb.curAckN
  | lastAck =>
      simp only [reduceCtorEq, false_implies, and_self, iff_true]
      exact Le.refl s.tcb.curAckN
  | timeWait =>
      simp only [reduceCtorEq, false_implies, and_self, iff_true]
      exact Le.refl s.tcb.curAckN

end Step

end Connection

/-- Along every run of a connection from `ESTABLISHED` on, the acknowledgement
number never goes backwards exactly as long as what `ESTABLISHED` adds is small and
what `FIN_WAIT1` copies and `CLOSING` assigns is not behind it. -/
theorem connection_ackForward_iff {t : Tcb} (established : t.state = .established)
    (events : List ConnectionEvent) :
    Along Connection.step Connection.AckForward (Connection.start t) events ↔
      Guarded Connection.step Connection.MovesForward (Connection.start t) events := by
  have opened : (Connection.start t).Opened := by
    simp [Connection.Opened, Connection.start, established]
  apply along_iff_guarded _ _ opened
  · intro s event after opened _ taken
    exact opened.step taken
  · intro s event after opened taken
    by_cases isSegment : ∃ segment, event = .rx segment
    · obtain ⟨segment, rfl⟩ := isSegment
      exact Connection.ackForward_rx_iff opened taken
    · have frame := Connection.step_frame (fun segment isRx => isSegment ⟨segment, isRx⟩) taken
      have forward : Connection.AckForward s event after := by
        rw [Connection.AckForward, frame.1]
        exact Le.refl _
      have free : s.MovesForward event := by
        cases event with
        | rx segment => exact absurd ⟨segment, rfl⟩ isSegment
        | txData data => trivial
        | rxData len => trivial
        | close => trivial
        | closeReturn => trivial
        | tick => trivial
      exact iff_of_true forward free

/-- A simultaneous close of the connection of `main`: both FINs cross, and the
acknowledgement of the own FIN follows. -/
def simultaneousClose : List ConnectionEvent :=
  [.close, .closeReturn, .rx (mainPeerFin 1025 1025), .rx (mainPeerAck 1026)]

theorem connection_ackForward_iff_main :
    Along Connection.step Connection.AckForward (Connection.start mainConnection)
        [.rx (mainPeerFin 1025 1025)] ↔
      Guarded Connection.step Connection.MovesForward (Connection.start mainConnection)
        [.rx (mainPeerFin 1025 1025)] :=
  connection_ackForward_iff rfl _

/-- A simultaneous close ends with the acknowledgement number 1, behind the 1026
it had before. -/
theorem connection_not_ackForward_simultaneous :
    ¬Along Connection.step Connection.AckForward (Connection.start mainConnection)
        simultaneousClose := by
  intro along
  obtain ⟨_, along⟩ := along _ rfl
  obtain ⟨_, along⟩ := along _ rfl
  obtain ⟨_, along⟩ := along _ rfl
  obtain ⟨forward, _⟩ := along _ rfl
  have behind : ¬Le 1026 1 := by
    decide
  exact behind forward

end Lpc17xx.Tcp
