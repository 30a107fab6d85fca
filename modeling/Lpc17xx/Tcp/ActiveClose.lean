import Lpc17xx.Tcp.Closing
import Lpc17xx.Transition.Labelled

/-!
# `tcp_close` against the answers to its FIN

`tcp_close` of an established connection hands its FIN to `tcp_tx`, increments
`cur_seq_n` and sets `FIN_WAIT1`, with interrupts enabled and `rx_task` free to
run before each of them.  A run interleaves these three steps with the segments
that the peer sends, and notes when the acknowledgement of the FIN has been
processed.
-/

namespace Lpc17xx.Tcp

open Lpc17xx.Transition

/-- What `tcp_close` does next. -/
inductive CloseStage where
  | transmit
  | increment
  | setState
  | returned
  deriving DecidableEq, Repr

/-- `connection->cur_seq_n++`. -/
def Tcb.incrementSeqN (connection : Tcb) : Tcb :=
  { connection with curSeqN := connection.curSeqN + 1 }

/-- `connection->state = FIN_WAIT1`. -/
def Tcb.setFinWait1 (connection : Tcb) : Tcb :=
  { connection with state := .finWait1 }

/-- Without a segment in between, the two assignments are the rest of `tcp_close`. -/
theorem setFinWait1_incrementSeqN (connection : Tcb) :
    connection.incrementSeqN.setFinWait1 = tcpCloseReturn connection .finWait1 :=
  rfl

/-- Until `FIN_WAIT1` is set, the peer's FIN is all that changes the state. -/
def Tcb.Closable (t : Tcb) : Prop :=
  t.state = .established ∨ t.state = .closeWait

/-- `FIN_WAIT1` and the states it leads to. -/
def Tcb.Closing (t : Tcb) : Prop :=
  t.state = .finWait1 ∨ t.state = .finWait2 ∨ t.state = .closing ∨ t.state = .timeWait

/-- A segment that acknowledges the FIN. -/
def AcksOwnFin (fin : TcpTx) (segment : Segment) : Prop :=
  segment.header.ackN = fin.header.seqN + 1

instance (fin : TcpTx) (segment : Segment) : Decidable (AcksOwnFin fin segment) :=
  inferInstanceAs (Decidable (_ = _))

/-- What a conforming peer sends once the FIN is under way: segments that acknowledge
it, with or without data and a FIN of their own, and segments that crossed it. -/
structure Conforming (fin : TcpTx) (segment : Segment) : Prop where
  ack : segment.header.ack = true
  noSyn : segment.header.syn = false
  noRst : segment.header.rst = false
  upToFin : AcksOwnFin fin segment ∨ segment.header.ackN = fin.header.seqN

theorem conforming_iff {fin : TcpTx} {segment : Segment} :
    Conforming fin segment ↔
      segment.header.ack = true ∧ segment.header.syn = false ∧ segment.header.rst = false ∧
        (AcksOwnFin fin segment ∨ segment.header.ackN = fin.header.seqN) :=
  ⟨fun ⟨ack, noSyn, noRst, upToFin⟩ => ⟨ack, noSyn, noRst, upToFin⟩,
    fun ⟨ack, noSyn, noRst, upToFin⟩ => ⟨ack, noSyn, noRst, upToFin⟩⟩

instance (fin : TcpTx) (segment : Segment) : Decidable (Conforming fin segment) :=
  decidable_of_iff _ conforming_iff.symm

/-- The connection, the thread that closes it, and whether an acknowledgement of the
FIN has been processed. -/
structure ActiveClose where
  tcb : Tcb
  stage : CloseStage
  acked : Bool

inductive ActiveCloseEvent where
  | thread
  | rx (segment : Segment)

namespace ActiveClose

/-- The branch of `tcp_close` is chosen and its FIN prepared. -/
def start (t : Tcb) : ActiveClose where
  tcb := t
  stage := .transmit
  acked := false

/-- The next step of the thread inside `tcp_close`. -/
def threadStep (s : ActiveClose) : Option ActiveClose :=
  match s.stage with
  | .transmit => some { s with stage := .increment }
  | .increment => some { s with tcb := s.tcb.incrementSeqN, stage := .setState }
  | .setState => some { s with tcb := s.tcb.setFinWait1, stage := .returned }
  | .returned => none

/-- A step of the thread, or `tcp_rx_packet` on a segment sent after the FIN was
transmitted. -/
def step (fin : TcpTx) : Step ActiveClose ActiveCloseEvent
  | s, .thread => s.threadStep
  | s, .rx segment =>
      if s.stage ≠ .transmit ∧ Conforming fin segment then
        ((s.tcb.receive segment).bind TcbOutcome.tcb).map fun tcb =>
          { s with tcb, acked := s.acked || AcksOwnFin fin segment }
      else none

/-- Once `tcp_close` has returned and the FIN is acknowledged, the TCB waits for
nothing but the peer's FIN, and its counters have moved past the own one. -/
def Settled (fin : TcpTx) (s : ActiveClose) : Prop :=
  s.stage = .returned → s.acked = true →
    (s.tcb.state = .finWait2 ∨ s.tcb.state = .closing ∨ s.tcb.state = .timeWait) ∧
      s.tcb.curSeqN = fin.header.seqN + 1 ∧ s.tcb.unackedByteCount = 0

/-- Before `tcp_close` has returned, no acknowledgement of the FIN is processed, and
nothing at all between its two assignments. -/
def InTime (fin : TcpTx) (s : ActiveClose) : ActiveCloseEvent → Prop
  | .thread => True
  | .rx segment => s.stage = .returned ∨ s.stage = .increment ∧ ¬AcksOwnFin fin segment

/-! ## What one event does -/

section Step

variable {fin : TcpTx} {s after : ActiveClose}

theorem step_rx {segment : Segment} (taken : step fin s (.rx segment) = some after) :
    s.stage ≠ .transmit ∧ Conforming fin segment ∧ s.tcb.state ≠ .closeWait ∧ after =
      { s with tcb := s.tcb.after segment, acked := s.acked || AcksOwnFin fin segment } := by
  rcases Option.ite_none_right_eq_some.mp taken with ⟨⟨sent, conforming⟩, taken⟩
  by_cases closeWait : s.tcb.state = .closeWait
  · rw [receive_closeWait segment closeWait] at taken
    contradiction
  · rw [receive_eq segment closeWait] at taken
    cases taken
    exact ⟨sent, conforming, closeWait, rfl⟩

theorem threadStep_eq_some (taken : s.threadStep = some after) :
    (s.stage = .transmit ∧ after = { s with stage := .increment }) ∨
    (s.stage = .increment ∧ after = { s with tcb := s.tcb.incrementSeqN, stage := .setState }) ∨
    (s.stage = .setState ∧ after = { s with tcb := s.tcb.setFinWait1, stage := .returned }) := by
  unfold threadStep at taken
  split at taken
  · rename_i stage
    exact .inl ⟨stage, (Option.some.inj taken).symm⟩
  · rename_i stage
    exact .inr (.inl ⟨stage, (Option.some.inj taken).symm⟩)
  · rename_i stage
    exact .inr (.inr ⟨stage, (Option.some.inj taken).symm⟩)
  · contradiction

end Step

/-! ## While every segment is in time -/

/-- The TCB after `tcp_close` has returned. -/
structure Closed (fin : TcpTx) (t : Tcb) (acked : Bool) : Prop where
  seqN : t.curSeqN = fin.header.seqN + 1
  unacked : t.unackedByteCount = 0
  state : t.state = .finWait1 ∧ acked = false ∨ t.state = .finWait2 ∨ t.state = .closing ∨
    t.state = .timeWait

/-- The counters are where the thread has left them, and no acknowledgement of the FIN
comes before the end of the call. -/
def Inv (fin : TcpTx) (s : ActiveClose) : Prop :=
  match s.stage with
  | .transmit | .increment =>
      s.tcb.Closable ∧ s.acked = false ∧ s.tcb.curSeqN = fin.header.seqN ∧
        s.tcb.unackedByteCount = 0
  | .setState =>
      s.tcb.Closable ∧ s.acked = false ∧ s.tcb.curSeqN = fin.header.seqN + 1 ∧
        s.tcb.unackedByteCount = 0
  | .returned => Closed fin s.tcb s.acked

theorem Inv.settled {fin : TcpTx} {s : ActiveClose} (inv : Inv fin s) : Settled fin s := by
  intro returned acked
  simp only [Inv, returned] at inv
  rcases inv.state with ⟨_, notAcked⟩ | rest
  · rw [acked] at notAcked
    contradiction
  · exact ⟨rest, inv.seqN, inv.unacked⟩

section Preserved

variable {fin : TcpTx} {s after : ActiveClose} {t : Tcb} {segment : Segment}

/-- A segment that crossed the FIN acknowledges nothing new. -/
theorem after_crossed (established : t.state = .established)
    (crossed : segment.header.ackN = t.curSeqN) (fresh : t.unackedByteCount = 0) :
    (t.after segment).Closable ∧ (t.after segment).curSeqN = t.curSeqN ∧
      (t.after segment).unackedByteCount = 0 := by
  refine ⟨after_state_of_established segment established, ?_⟩
  simp only [Tcb.after, established]
  constructor
  · rw [afterEstablished_curSeqN, crossed, ite_self]
  · rw [afterEstablished_unackedByteCount, if_neg, fresh]
    rintro ⟨_, advances⟩
    rw [crossed, UInt32.sub_self] at advances
    exact absurd advances (by decide)

/-- In and after `FIN_WAIT1` no segment touches the counters of the send side. -/
theorem after_sendSide (closing : t.Closing) :
    (t.after segment).curSeqN = t.curSeqN ∧
      (t.after segment).unackedByteCount = t.unackedByteCount := by
  rcases closing with state | state | state | state
  · simp only [Tcb.after, state, Tcb.afterFinWait1]
    split
    · split <;> exact ⟨rfl, rfl⟩
    · split <;> exact ⟨rfl, rfl⟩
  · simp only [Tcb.after, state, Tcb.afterFinWait2]
    split <;> exact ⟨rfl, rfl⟩
  · simp only [Tcb.after, state]
    exact ⟨rfl, rfl⟩
  · simp only [Tcb.after, state]
    exact ⟨rfl, rfl⟩

/-- What `FIN_WAIT1` has been left for is not left for anything earlier. -/
theorem after_acked
    (acked : t.state = .finWait2 ∨ t.state = .closing ∨ t.state = .timeWait) :
    (t.after segment).state = .finWait2 ∨ (t.after segment).state = .closing ∨
      (t.after segment).state = .timeWait := by
  rcases acked with state | state | state
  · simp only [Tcb.after, state]
    rcases afterFinWait2_state (t := t) segment with timeWait | same
    · exact .inr (.inr timeWait)
    · exact .inl (same.trans state)
  · simp only [Tcb.after, state]
    exact .inr (.inr rfl)
  · simp only [Tcb.after, state]
    exact .inr (.inr state)

/-- No segment leads back from these states. -/
theorem after_closing (closing : t.Closing) : (t.after segment).Closing := by
  rcases closing with state | acked
  · simp only [Tcb.after, state]
    rcases afterFinWait1_state (t := t) segment with timeWait | finWait2 | closing | same
    · exact .inr (.inr (.inr timeWait))
    · exact .inr (.inl finWait2)
    · exact .inr (.inr (.inl closing))
    · exact .inl (same.trans state)
  · exact .inr (after_acked acked)

/-- The acknowledgement of the FIN takes the TCB out of `FIN_WAIT1`. -/
theorem afterFinWait1_acked (acks : segment.header.ack = true)
    (ackN : segment.header.ackN = t.curSeqN) :
    (t.afterFinWait1 segment).state = .finWait2 ∨ (t.afterFinWait1 segment).state = .timeWait := by
  have both : (segment.header.ack && segment.header.ackN == t.curSeqN) = true := by
    rw [acks, ackN, Bool.true_and, beq_self_eq_true]
  rw [Tcb.afterFinWait1, if_pos both]
  split
  · exact .inr rfl
  · exact .inl rfl

theorem Closed.rx {acked : Bool} (closed : Closed fin t acked)
    (conforming : Conforming fin segment) :
    Closed fin (t.after segment) (acked || AcksOwnFin fin segment) := by
  have closing : t.Closing := closed.state.imp_left And.left
  rcases @after_sendSide _ segment closing with ⟨seqN, unacked⟩
  refine ⟨seqN.trans closed.seqN, unacked.trans closed.unacked, ?_⟩
  rcases closed.state with ⟨state, notAcked⟩ | past
  · simp only [Tcb.after, state]
    by_cases acks : AcksOwnFin fin segment
    · have ackN : segment.header.ackN = t.curSeqN := acks.trans closed.seqN.symm
      rcases afterFinWait1_acked conforming.ack ackN with finWait2 | timeWait
      · exact .inr (.inl finWait2)
      · exact .inr (.inr (.inr timeWait))
    · rcases afterFinWait1_state (t := t) segment with timeWait | finWait2 | closing | same
      · exact .inr (.inr (.inr timeWait))
      · exact .inr (.inl finWait2)
      · exact .inr (.inr (.inl closing))
      · exact .inl ⟨same.trans state, by rw [notAcked, decide_eq_false acks, Bool.or_false]⟩
  · exact .inr (after_acked past)

theorem Inv.step {event : ActiveCloseEvent} (inv : Inv fin s) (inTime : InTime fin s event)
    (taken : ActiveClose.step fin s event = some after) : Inv fin after := by
  cases event with
  | thread =>
      rcases threadStep_eq_some taken with ⟨stage, rfl⟩ | ⟨stage, rfl⟩ | ⟨stage, rfl⟩
      · simp only [Inv, stage] at inv ⊢
        exact inv
      · simp only [Inv, stage] at inv ⊢
        rcases inv with ⟨closable, notAcked, seqN, unacked⟩
        exact ⟨closable, notAcked, congrArg (· + 1) seqN, unacked⟩
      · simp only [Inv, stage] at inv ⊢
        rcases inv with ⟨_, notAcked, seqN, unacked⟩
        exact ⟨seqN, unacked, .inl ⟨rfl, notAcked⟩⟩
  | rx segment =>
      rcases step_rx taken with ⟨_, conforming, open_, rfl⟩
      rcases inTime with returned | ⟨increment, crossed⟩
      · simp only [Inv, returned] at inv ⊢
        exact inv.rx conforming
      · simp only [Inv, increment] at inv ⊢
        rcases inv with ⟨state, notAcked, seqN, unacked⟩
        have established := state.resolve_right open_
        have ackN : segment.header.ackN = s.tcb.curSeqN :=
          (conforming.upToFin.resolve_left crossed).trans seqN.symm
        rcases after_crossed established ackN unacked with ⟨state, seqN', unacked⟩
        refine ⟨state, ?_, seqN'.trans seqN, unacked⟩
        rw [notAcked, decide_eq_false crossed, Bool.or_false]

end Preserved

/-! ## After a segment that was too early -/

/-- The run can no longer settle: the acknowledgement of the FIN came before the call
returned, or `cur_seq_n` was taken back after it was incremented. -/
def Spoiled (fin : TcpTx) (s : ActiveClose) : Prop :=
  match s.stage with
  | .transmit => False
  | .increment => s.tcb.Closable ∧ s.acked = true
  | .setState => s.tcb.Closable ∧ (s.acked = true ∨ s.tcb.curSeqN = fin.header.seqN)
  | .returned => s.tcb.Closing ∧ s.acked = false ∧ s.tcb.curSeqN = fin.header.seqN

section Spoiled

variable {fin : TcpTx} {s after : ActiveClose} {segment : Segment}

/-- The FIN takes up a sequence number. -/
theorem seqN_ne_succ (seqN : UInt32) : seqN ≠ seqN + 1 := by
  intro same
  have zero : (0 : UInt32) = 1 := by
    simpa using congrArg (· - seqN) same
  exact absurd zero (by decide)

/-- After any segment between the two assignments the FIN is acknowledged or
`cur_seq_n` taken back. -/
theorem after_setState (established : s.tcb.state = .established)
    (conforming : Conforming fin segment) :
    (s.tcb.after segment).Closable ∧
      ((s.acked || AcksOwnFin fin segment) = true ∨
        (s.tcb.after segment).curSeqN = fin.header.seqN) := by
  refine ⟨after_state_of_established segment established, ?_⟩
  rcases conforming.upToFin with acks | crossed
  · left
    rw [decide_eq_true acks, Bool.or_true]
  · right
    simp only [Tcb.after, established]
    rw [afterEstablished_curSeqN, if_pos conforming.ack, crossed]

/-- A step that the guard does not admit spoils the run. -/
theorem Inv.spoiled {event : ActiveCloseEvent} (inv : Inv fin s)
    (early : ¬InTime fin s event) (taken : ActiveClose.step fin s event = some after) :
    Spoiled fin after := by
  cases event with
  | thread => exact absurd trivial early
  | rx segment =>
      rcases step_rx taken with ⟨sent, conforming, open_, rfl⟩
      simp only [InTime, not_or, not_and, not_not] at early
      rcases early with ⟨running, acksIfIncrement⟩
      cases stage : s.stage with
      | transmit => exact absurd stage sent
      | increment =>
          simp only [Inv, stage] at inv
          have established := inv.1.resolve_right open_
          have acks := acksIfIncrement stage
          refine ⟨after_state_of_established segment established, ?_⟩
          rw [decide_eq_true acks, Bool.or_true]
      | setState =>
          simp only [Inv, stage] at inv
          have established := inv.1.resolve_right open_
          exact after_setState established conforming
      | returned => exact absurd stage running

/-- A spoiled run settles at no later step. -/
theorem Spoiled.step {event : ActiveCloseEvent} (spoiled : Spoiled fin s)
    (taken : ActiveClose.step fin s event = some after) (settled : Settled fin after) :
    Spoiled fin after := by
  cases event with
  | thread =>
      rcases threadStep_eq_some taken with ⟨stage, rfl⟩ | ⟨stage, rfl⟩ | ⟨stage, rfl⟩
      · simp only [Spoiled, stage] at spoiled
      · simp only [Spoiled, stage] at spoiled ⊢
        exact ⟨spoiled.1, .inl spoiled.2⟩
      · simp only [Spoiled, stage] at spoiled ⊢
        rcases Bool.eq_false_or_eq_true s.acked with acked | notAcked
        · rcases (settled rfl acked).1 with other | other | other <;> contradiction
        · have seqN := spoiled.2.resolve_left (by rw [notAcked]; exact Bool.false_ne_true)
          exact ⟨.inl rfl, notAcked, seqN⟩
  | rx segment =>
      rcases step_rx taken with ⟨sent, conforming, open_, rfl⟩
      cases stage : s.stage with
      | transmit => exact absurd stage sent
      | increment =>
          simp only [Spoiled, stage] at spoiled ⊢
          have established := spoiled.1.resolve_right open_
          refine ⟨after_state_of_established segment established, ?_⟩
          rw [spoiled.2, Bool.true_or]
      | setState =>
          simp only [Spoiled, stage] at spoiled ⊢
          have established := spoiled.1.resolve_right open_
          exact after_setState established conforming
      | returned =>
          simp only [Spoiled, stage] at spoiled ⊢
          rcases spoiled with ⟨closing, notAcked, seqN⟩
          have kept := (@after_sendSide _ segment closing).1.trans seqN
          by_cases acks : AcksOwnFin fin segment
          · have moved := (settled stage (by rw [decide_eq_true acks, Bool.or_true])).2.1
            exact absurd (kept.symm.trans moved) (seqN_ne_succ _)
          · refine ⟨after_closing closing, ?_, kept⟩
            rw [notAcked, decide_eq_false acks, Bool.or_false]

end Spoiled

/-- No acknowledged and closed connection is spoiled and settled. -/
theorem not_spoiled {fin : TcpTx} {s : ActiveClose} (returned : s.stage = .returned)
    (acked : s.acked = true) : ¬Spoiled fin s := by
  intro spoiled
  simp only [Spoiled, returned] at spoiled
  have notAcked := spoiled.2.1
  rw [acked] at notAcked
  contradiction

end ActiveClose

/-- In every run in which `tcp_close` of an established connection without outstanding
data returns and its FIN is acknowledged, the connection is settled from then on exactly
if no acknowledgement of the FIN is processed before `FIN_WAIT1` is set, and no segment
between the increment of `cur_seq_n` and that. -/
theorem activeClose_settled_iff {t : Tcb} (established : t.state = .established)
    (allAcked : t.unackedByteCount = 0) {events : List ActiveCloseEvent} {final : ActiveClose}
    (executed : run (ActiveClose.step (tcpCloseFin t)) (ActiveClose.start t) events = some final)
    (returned : final.stage = .returned) (acked : final.acked = true) :
    Along (ActiveClose.step (tcpCloseFin t))
        (fun _ _ after => ActiveClose.Settled (tcpCloseFin t) after) (ActiveClose.start t) events ↔
      Guarded (ActiveClose.step (tcpCloseFin t)) (ActiveClose.InTime (tcpCloseFin t))
        (ActiveClose.start t) events := by
  have initial : ActiveClose.Inv (tcpCloseFin t) (ActiveClose.start t) :=
    ⟨.inl established, rfl, rfl, allAcked⟩
  have unspoiled : ¬ActiveClose.Spoiled (tcpCloseFin t) final :=
    ActiveClose.not_spoiled returned acked
  apply along_iff_guarded_of_unspoiled _ _ _ _ initial executed unspoiled
  · intro s event after inv inTime taken
    exact inv.step inTime taken
  · intro s event after inv inTime taken
    exact (inv.step inTime taken).settled
  · intro s event after inv early taken
    exact inv.spoiled early taken
  · intro s event after spoiled taken settled
    exact spoiled.step taken settled

/-- The answer of the peer of `main` comes after the call has returned. -/
theorem activeClose_settled_iff_main :
    Along (ActiveClose.step (tcpCloseFin mainConnection))
        (fun _ _ after => ActiveClose.Settled (tcpCloseFin mainConnection) after)
        (ActiveClose.start mainConnection)
        [.thread, .thread, .thread, .rx (mainPeerAck 1026)] ↔
      Guarded (ActiveClose.step (tcpCloseFin mainConnection))
        (ActiveClose.InTime (tcpCloseFin mainConnection)) (ActiveClose.start mainConnection)
        [.thread, .thread, .thread, .rx (mainPeerAck 1026)] :=
  activeClose_settled_iff rfl rfl rfl rfl rfl

/-- The acknowledgement is processed before `cur_seq_n` is incremented: `tcp_close`
returns in `FIN_WAIT1` with the number after next and the counter wrapped, and the
next segment from the peer does not lead out of it. -/
theorem activeClose_not_settled_early :
    ∃ final, run (ActiveClose.step (tcpCloseFin mainConnection))
        (ActiveClose.start mainConnection)
        [.thread, .rx (mainPeerAck 1026), .thread, .thread, .rx (mainPeerAck 1026)] = some final ∧
      final.stage = .returned ∧ final.acked = true ∧ final.tcb.state = .finWait1 ∧
      final.tcb.curSeqN = 1027 ∧ final.tcb.unackedByteCount = 0xffffffff ∧
      ¬ActiveClose.Settled (tcpCloseFin mainConnection) final := by
  refine ⟨_, rfl, rfl, rfl, rfl, rfl, rfl, ?_⟩
  intro settled
  rcases (settled rfl rfl).1 with other | other | other <;> contradiction

end Lpc17xx.Tcp
