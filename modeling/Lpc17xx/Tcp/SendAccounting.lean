import Lpc17xx.Tcp.Established
import Lpc17xx.Transition.Labelled

/-!
# Send-side accounting of an established connection

One thread calls `tcp_tx_data` again and again while arbitrary segments arrive.
The run carries two counters that the code does not keep: the bytes handed to
`tcp_tx_data` and how many of them the peer has acknowledged, in the sense of
the abstract sender that accepts an acknowledgement only up to what was sent.
The counters of the TCB agree with them exactly as long as every acknowledgement
lies between `cur_seq_n` and `cur_seq_n + unacked_byte_count`.
-/

namespace Lpc17xx.Tcp

open Lpc17xx.Cbuf
open Lpc17xx.Serial
open Lpc17xx.Transition

/-- A connection with its sending thread.  `handed` and `acked` count bytes
from the sequence number at which the run starts. -/
structure Sender where
  tcb : Tcb
  handed : Nat
  acked : Nat
  waiting : Bool

/-- What can happen to an established connection on the sending side. -/
inductive SenderEvent where
  | txData (data : List UInt8)
  | txReturn
  | rx (segment : Segment)
  | rxData (len : UInt32)

namespace Sender

/-- The connection as the handshake leaves it. -/
def start (t : Tcb) : Sender where
  tcb := t
  handed := 0
  acked := 0
  waiting := false

/-- How many bytes are acknowledged after a header: an acknowledgement counts
when it lies between the first unacknowledged byte and the next one to be
sent. -/
def ackedAfter (base : UInt32) (s : Sender) (header : TcpHeader) : Nat :=
  if header.ack ∧ (header.ackN - place base s.acked).toNat ≤ s.handed - s.acked then
    s.acked + (header.ackN - place base s.acked).toNat
  else s.acked

/-- One event on an established connection. -/
def step (base : UInt32) : Step Sender SenderEvent
  | s, .txData data =>
      if s.tcb.state = .established ∧ s.waiting = false then
        (tcpTxData s.tcb data).map fun sent =>
          { s with tcb := sent.1, handed := s.handed + data.length, waiting := true }
      else none
  | s, .txReturn =>
      if s.waiting = true ∧ tcpTxDataDone s.tcb = true then
        some { s with waiting := false }
      else none
  | s, .rx segment =>
      if s.tcb.state = .established then
        ((s.tcb.receive segment).bind TcbOutcome.tcb).map fun tcb =>
          { s with tcb, acked := s.ackedAfter base segment.header }
      else none
  | s, .rxData len =>
      if s.tcb.state = .established then
        (tcpRxDataRound s.tcb len).map fun read => { s with tcb := read.2 }
      else none

/-- What one step of the send side has to respect: `cur_seq_n` moves forward in
sequence order, `unacked_byte_count` stays within the bytes handed over and not
yet acknowledged, the two add up to the next sequence number, a call transmits
at that number, and it returns only when everything was acknowledged. -/
structure Accounted (base : UInt32) (before : Sender) (event : SenderEvent) (after : Sender) :
    Prop where
  forward : Serial.Le before.tcb.curSeqN after.tcb.curSeqN
  outstanding : after.tcb.unackedByteCount.toNat ≤ after.handed - after.acked
  nextSeq : after.tcb.curSeqN + after.tcb.unackedByteCount = place base after.handed
  rightSeq : ∀ data sent, event = .txData data → tcpTxData before.tcb data = some sent →
    sent.2.header.seqN = place base before.handed
  released : event = .txReturn → after.acked = after.handed

/-- The acknowledgement of an arriving segment lies between `cur_seq_n` and
`cur_seq_n + unacked_byte_count`. -/
def AckWithinOutstanding (s : Sender) : SenderEvent → Prop
  | .rx segment => segment.header.ack →
      (segment.header.ackN - s.tcb.curSeqN).toNat ≤ s.tcb.unackedByteCount.toNat
  | _ => True

/-- The counters of the TCB are those of the abstract sender. -/
structure Inv (base : UInt32) (s : Sender) : Prop where
  una : s.tcb.curSeqN = place base s.acked
  count : s.tcb.unackedByteCount.toNat = s.handed - s.acked
  acked_le : s.acked ≤ s.handed
  bounded : s.handed - s.acked ≤ memHeapSize
  idle : s.waiting = false → s.acked = s.handed

theorem Inv.start {t : Tcb} (fresh : t.unackedByteCount = 0) :
    Inv t.curSeqN (start t) where
  una := (place_zero _).symm
  count := by simp [Sender.start, fresh]
  acked_le := Nat.le_refl _
  bounded := Nat.zero_le _
  idle := fun _ => rfl

/-- Under the invariant the outstanding bytes lead from `cur_seq_n` to the next
sequence number. -/
theorem Inv.nextSeq {base : UInt32} {s : Sender} (inv : Inv base s) :
    s.tcb.curSeqN + s.tcb.unackedByteCount = place base s.handed := by
  have word : s.tcb.unackedByteCount = UInt32.ofNat (s.handed - s.acked) := by
    rw [← inv.count, UInt32.ofNat_toNat]
  have split : s.handed = s.acked + (s.handed - s.acked) := by
    have le := inv.acked_le
    omega
  conv_rhs => rw [split]
  rw [inv.una, word, place_add]

/-! ## What one event does -/

section Step

variable {base : UInt32} {s after : Sender}

/-- A call is accepted only when nothing is outstanding. -/
theorem step_txData {data : List UInt8} (taken : step base s (.txData data) = some after) :
    s.waiting = false ∧ 12 + 20 + data.length ≤ memHeapSize ∧
      after = { s with
        tcb := { s.tcb with
          unackedByteCount := s.tcb.unackedByteCount + UInt32.ofNat data.length }
        handed := s.handed + data.length
        waiting := true } := by
  simp only [step] at taken
  split at taken
  · rename_i enabled
    rcases Option.map_eq_some_iff.mp taken with ⟨sent, transmitted, rfl⟩
    rcases tcpTxData_eq_some transmitted with ⟨allocated, rfl⟩
    exact ⟨enabled.2, allocated, rfl⟩
  · contradiction

theorem step_txReturn (taken : step base s .txReturn = some after) :
    s.tcb.unackedByteCount = 0 ∧ after = { s with waiting := false } := by
  simp only [step] at taken
  split at taken
  · rename_i enabled
    cases taken
    exact ⟨by simpa [tcpTxDataDone] using enabled.2, rfl⟩
  · cases taken

theorem step_rx {segment : Segment} (taken : step base s (.rx segment) = some after) :
    after = { s with
      tcb := s.tcb.afterEstablished segment
      acked := s.ackedAfter base segment.header } := by
  simp only [step] at taken
  split at taken
  · rename_i established
    rw [receive_established segment established] at taken
    cases taken
    rfl
  · contradiction

/-- Reading data leaves the send side alone. -/
theorem step_rxData {len : UInt32} (taken : step base s (.rxData len) = some after) :
    after.tcb.curSeqN = s.tcb.curSeqN ∧
      after.tcb.unackedByteCount = s.tcb.unackedByteCount ∧
      after.handed = s.handed ∧ after.acked = s.acked ∧ after.waiting = s.waiting := by
  simp only [step, tcpRxDataRound] at taken
  split at taken
  · split at taken
    · cases taken
    · cases taken
      exact ⟨rfl, rfl, rfl, rfl, rfl⟩
  · cases taken

end Step

/-- A segment whose acknowledgement is within the outstanding bytes moves the
abstract sender and the TCB alike. -/
theorem Inv.rx {base : UInt32} {s : Sender} (inv : Inv base s) (segment : Segment)
    (within : s.AckWithinOutstanding (.rx segment)) :
    Inv base { s with
      tcb := s.tcb.afterEstablished segment
      acked := s.ackedAfter base segment.header } := by
  have bounded := inv.bounded
  have ackedLe := inv.acked_le
  unfold memHeapSize at bounded
  by_cases acks : segment.header.ack
  · have distanceLe : (segment.header.ackN - place base s.acked).toNat ≤ s.handed - s.acked := by
      rw [← inv.una, ← inv.count]
      exact within acks
    have moved : s.ackedAfter base segment.header =
        s.acked + (segment.header.ackN - place base s.acked).toNat :=
      if_pos ⟨acks, distanceLe⟩
    have unacked : (s.tcb.afterEstablished segment).unackedByteCount.toNat =
        s.handed - (s.acked + (segment.header.ackN - place base s.acked).toNat) := by
      have countEq := inv.count
      rw [toNat_afterEstablished_unackedByteCount segment acks (within acks) (by omega), inv.una]
      omega
    constructor
    · change (s.tcb.afterEstablished segment).curSeqN = place base (s.ackedAfter _ _)
      rw [moved, afterEstablished_curSeqN, if_pos acks, place_add, UInt32.ofNat_toNat]
      grind
    · change (s.tcb.afterEstablished segment).unackedByteCount.toNat = _ - s.ackedAfter _ _
      rw [moved, unacked]
    · change s.ackedAfter _ _ ≤ s.handed
      omega
    · change s.handed - s.ackedAfter _ _ ≤ memHeapSize
      unfold memHeapSize
      omega
    · intro notWaiting
      have equal := inv.idle notWaiting
      change s.ackedAfter _ _ = s.handed
      omega
  · have still : s.ackedAfter base segment.header = s.acked := if_neg fun both => acks both.1
    constructor
    · change (s.tcb.afterEstablished segment).curSeqN = place base (s.ackedAfter _ _)
      rw [still, afterEstablished_curSeqN, if_neg acks]
      exact inv.una
    · change (s.tcb.afterEstablished segment).unackedByteCount.toNat = _ - s.ackedAfter _ _
      rw [still, afterEstablished_unackedByteCount, if_neg (fun both => acks both.1)]
      exact inv.count
    · change s.ackedAfter _ _ ≤ s.handed
      omega
    · change s.handed - s.ackedAfter _ _ ≤ memHeapSize
      rw [still]
      exact inv.bounded
    · intro notWaiting
      change s.ackedAfter _ _ = s.handed
      rw [still]
      exact inv.idle notWaiting

/-- Every event whose acknowledgement is within the outstanding bytes keeps the
invariant. -/
theorem Inv.step {base : UInt32} {s after : Sender} {event : SenderEvent} (inv : Inv base s)
    (within : s.AckWithinOutstanding event) (taken : step base s event = some after) :
    Inv base after := by
  cases event with
  | txData data =>
      rcases step_txData taken with ⟨notWaiting, allocated, rfl⟩
      have allAcked := inv.idle notWaiting
      have countEq := inv.count
      unfold memHeapSize at allocated
      constructor
      · exact inv.una
      · change (s.tcb.unackedByteCount + UInt32.ofNat data.length).toNat =
          s.handed + data.length - s.acked
        rw [UInt32.toNat_add, toNat_ofNat (by omega)]
        omega
      · change s.acked ≤ s.handed + data.length
        omega
      · change s.handed + data.length - s.acked ≤ memHeapSize
        unfold memHeapSize
        omega
      · intro waiting
        cases waiting
  | txReturn =>
      rcases step_txReturn taken with ⟨drained, rfl⟩
      refine ⟨inv.una, inv.count, inv.acked_le, inv.bounded, fun _ => ?_⟩
      have countEq := inv.count
      have ackedLe := inv.acked_le
      rw [drained] at countEq
      change s.acked = s.handed
      simp only [UInt32.toNat_zero] at countEq
      omega
  | rx segment =>
      rw [step_rx taken]
      exact inv.rx segment within
  | rxData len =>
      rcases step_rxData taken with ⟨seq, unacked, handed, acked, waiting⟩
      refine ⟨?_, ?_, ?_, ?_, ?_⟩
      · rw [seq, acked]
        exact inv.una
      · rw [unacked, handed, acked]
        exact inv.count
      · rw [handed, acked]
        exact inv.acked_le
      · rw [handed, acked]
        exact inv.bounded
      · rw [waiting, handed, acked]
        exact inv.idle

/-- Under the invariant a step that keeps it is accounted for, provided the
sequence number did not jump. -/
theorem accounted_of_inv {base : UInt32} {s after : Sender} {event : SenderEvent}
    (inv : Inv base s) (invAfter : Inv base after)
    (within : s.AckWithinOutstanding event) (taken : step base s event = some after) :
    Accounted base s event after where
  forward := by
    cases event with
    | txData data =>
        rcases step_txData taken with ⟨_, _, rfl⟩
        exact Le.refl _
    | txReturn =>
        rcases step_txReturn taken with ⟨_, rfl⟩
        exact Le.refl _
    | rx segment =>
        rw [step_rx taken]
        change Serial.Le _ (s.tcb.afterEstablished segment).curSeqN
        rw [afterEstablished_curSeqN]
        split
        · rename_i acks
          have distanceLe := within acks
          have countEq := inv.count
          have bounded := inv.bounded
          unfold memHeapSize at bounded
          rw [Serial.Le, toInt32_nonneg_iff]
          omega
        · exact Le.refl _
    | rxData len =>
        rw [(step_rxData taken).1]
        exact Le.refl _
  outstanding := Nat.le_of_eq invAfter.count
  nextSeq := invAfter.nextSeq
  rightSeq := by
    rintro data sent rfl transmitted
    rcases step_txData taken with ⟨notWaiting, _, _⟩
    rcases tcpTxData_eq_some transmitted with ⟨_, rfl⟩
    rw [ackHeader_seqN, inv.una, inv.idle notWaiting]
  released := by
    rintro rfl
    rcases step_txReturn taken with ⟨_, rfl⟩
    exact invAfter.idle rfl

/-- An acknowledgement outside the outstanding bytes breaks the accounting: one
from behind moves `cur_seq_n` back, one from ahead wraps the counter. -/
theorem within_of_accounted {base : UInt32} {s after : Sender} {event : SenderEvent}
    (inv : Inv base s) (taken : step base s event = some after)
    (accounted : Accounted base s event after) : s.AckWithinOutstanding event := by
  cases event with
  | txData data => trivial
  | txReturn => trivial
  | rxData len => trivial
  | rx segment =>
      intro acks
      by_contra beyond
      have afterEq := step_rx taken
      subst afterEq
      have forward := accounted.forward
      have outstanding := accounted.outstanding
      have countEq := inv.count
      have bounded := inv.bounded
      unfold memHeapSize at bounded
      have ackedStill : s.ackedAfter base segment.header = s.acked := by
        apply if_neg
        rintro ⟨_, le⟩
        rw [← inv.una, ← inv.count] at le
        exact beyond le
      change Serial.Le _ (s.tcb.afterEstablished segment).curSeqN at forward
      change (s.tcb.afterEstablished segment).unackedByteCount.toNat ≤
        s.handed - s.ackedAfter base segment.header at outstanding
      rw [afterEstablished_curSeqN, if_pos acks, Serial.Le, toInt32_nonneg_iff] at forward
      have advances : 0 < (segment.header.ackN - s.tcb.curSeqN).toInt32 := by
        rw [toInt32_pos_iff]
        omega
      rw [ackedStill, afterEstablished_unackedByteCount, if_pos ⟨acks, advances⟩,
        UInt32.toNat_sub] at outstanding
      omega

end Sender

/-- The send side of an established connection is accounted for along a run
exactly when every acknowledgement that arrives lies between `cur_seq_n` and
`cur_seq_n + unacked_byte_count`. -/
theorem sender_accounted_iff (t : Tcb) (fresh : t.unackedByteCount = 0)
    (events : List SenderEvent) :
    Along (Sender.step t.curSeqN) (Sender.Accounted t.curSeqN) (Sender.start t) events ↔
      Guarded (Sender.step t.curSeqN) Sender.AckWithinOutstanding (Sender.start t) events := by
  apply along_iff_guarded
  · intro s event after inv within taken
    exact Sender.Inv.step inv within taken
  · intro s event after inv taken
    constructor
    · exact Sender.within_of_accounted inv taken
    · intro within
      exact Sender.accounted_of_inv inv (inv.step within taken) within taken
  · exact Sender.Inv.start fresh

/-- Five bytes sent and acknowledged on the connection of `main`. -/
theorem sender_accounted_iff_main :
    Along (Sender.step 1025) (Sender.Accounted 1025) (Sender.start mainConnection)
        [.txData [72, 101, 108, 108, 111], .rx (mainPeerAck 1030), .txReturn] ↔
      Guarded (Sender.step 1025) Sender.AckWithinOutstanding (Sender.start mainConnection)
        [.txData [72, 101, 108, 108, 111], .rx (mainPeerAck 1030), .txReturn] :=
  sender_accounted_iff mainConnection rfl _

/-- A forged acknowledgement of ten bytes when five were sent wraps
`unacked_byte_count` below zero. -/
theorem sender_not_accounted_forged :
    ¬Along (Sender.step 1025) (Sender.Accounted 1025) (Sender.start mainConnection)
        [.txData [72, 101, 108, 108, 111], .rx (mainPeerAck 1035)] := by
  intro along
  rcases along _ rfl with ⟨_, rest⟩
  rcases rest _ rfl with ⟨accounted, _⟩
  exact absurd accounted.outstanding (by decide)

end Lpc17xx.Tcp
