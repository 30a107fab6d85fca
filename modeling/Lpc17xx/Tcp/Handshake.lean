import Lpc17xx.Tcp.Opening
import Lpc17xx.Transition.Labelled

/-!
# Safety of the handshake

A thread inside `tcp_connect` or `tcp_listen` is interleaved with `rx_task`,
which hands arbitrary segments to the new TCB.  The thread is cut at every point
where the other task can run in between: before its SYN is transmitted, and
between finding `SYN_RECEIVED`, preparing the SYN+ACK and transmitting it.  The
code reads no acknowledgement number before `ESTABLISHED` and does not ask
whether its own SYN is out; the handshake is safe exactly as long as the
segments that arrive make up for both.
-/

namespace Lpc17xx.Tcp

open Lpc17xx.Cbuf
open Lpc17xx.Transition

/-- A connection being opened.  `transmitted` is the SYN or SYN+ACK handed to
`tcp_tx`, `peerIsn` the sequence number of the SYN that the TCB took. -/
structure Opening where
  tcb : Tcb
  thread : OpeningThread
  transmitted : Option TcpTx
  peerIsn : Option UInt32

/-- The two calls that open a connection, with the heap block of the receive
buffer. -/
inductive OpenCall where
  | connect (addr : Nat) (port : UInt16) (ip : UInt32) (block : List UInt8)
      (size : block.length = tcpBufSz.toNat)
  | listen (addr : Nat) (port : UInt16) (block : List UInt8)
      (size : block.length = tcpBufSz.toNat)

/-- A segment for the TCB, or the next step of the calling thread. -/
inductive OpeningEvent where
  | rx (segment : Segment)
  | thread

namespace Opening

/-- The state once the TCB is on `tcb_head`. -/
def start : OpenCall → Opening
  | .connect addr port ip block size =>
      let t := tcpConnectTcb addr port ip block size
      { tcb := t
        thread := .connectLinked (tcpConnectSyn t)
        transmitted := none
        peerIsn := none }
  | .listen addr port block size =>
      { tcb := tcpListenTcb addr port block size
        thread := .listenWaiting
        transmitted := none
        peerIsn := none }

/-- The sequence number of the peer's SYN, once the TCB has taken one. -/
def peerIsnAfter (s : Opening) (header : TcpHeader) : Option UInt32 :=
  match s.tcb.state with
  | .listen => if header.syn then some header.seqN else s.peerIsn
  | .synSent => if header.syn && header.ack then some header.seqN else s.peerIsn
  | _ => s.peerIsn

/-- The next step of the calling thread. -/
def threadStep (s : Opening) : Option Opening :=
  (s.thread.step s.tcb).map fun (thread, sent) =>
    { s with thread, transmitted := sent.or s.transmitted }

/-- One event.  A failed `tcp_connect` has freed its TCB, which then takes no
more segments. -/
def step : Step Opening OpeningEvent
  | s, .rx segment =>
      if s.thread = .returned false then none
      else
        ((s.tcb.receive segment).bind TcbOutcome.tcb).map fun tcb =>
          { s with tcb, peerIsn := s.peerIsnAfter segment.header }
  | s, .thread => s.threadStep

/-- The segment that completes a handshake: it acknowledges the SYN that was
transmitted before it, and leaves both counters one past the initial sequence
numbers. -/
structure Completes (before : Opening) (segment : Segment) (after : Opening) : Prop where
  ack : segment.header.ack = true
  ackN : segment.header.ackN = isn + 1
  transmitted : ∃ tx, before.transmitted = some tx ∧ tx.header.syn = true ∧
    tx.header.seqN = isn
  curSeqN : after.tcb.curSeqN = isn + 1
  curAckN : ∃ peer, after.peerIsn = some peer ∧ after.tcb.curAckN = peer + 1

/-- What a step of the handshake has to respect: `ESTABLISHED` is entered only by
a segment that completes the handshake, and a listener waiting for
`SYN_RECEIVED` does not find the state past it. -/
structure Safe (before : Opening) (event : OpeningEvent) (after : Opening) : Prop where
  completes : before.tcb.state ≠ .established → after.tcb.state = .established →
    ∃ segment, event = .rx segment ∧ Completes before segment after
  listens : after.thread = .listenWaiting →
    after.tcb.state = .listen ∨ after.tcb.state = .synReceived

/-- An acknowledgement that the TCB would take comes after its own SYN was
transmitted and acknowledges exactly that SYN. -/
def AcksOwnSyn (s : Opening) : OpeningEvent → Prop
  | .rx segment =>
      (s.tcb.state = .synSent → segment.header.syn → segment.header.ack →
        s.transmitted.isSome ∧ segment.header.ackN = isn + 1) ∧
      (s.tcb.state = .synReceived → segment.header.ack →
        s.transmitted.isSome ∧ segment.header.ackN = isn + 1)
  | .thread => True

/-- A SYN of this connection, possibly with an acknowledgement. -/
def OwnSyn (header : TcpHeader) : Prop :=
  header.syn = true ∧ header.seqN = isn

/-- What the position of the thread says about the TCB. -/
def ThreadInv (s : Opening) : Prop :=
  match s.thread with
  | .connectLinked syn => OwnSyn syn.header ∧ s.transmitted = none
  | .listenWaiting =>
      (s.tcb.state = .listen ∨ s.tcb.state = .synReceived) ∧ s.transmitted = none
  | .listenWoken => s.tcb.state = .synReceived ∧ s.transmitted = none
  | .listenPrepared synAck =>
      OwnSyn synAck ∧ s.tcb.state = .synReceived ∧ s.transmitted = none
  | .connectWaiting | .listenAnswered | .returned _ => True

/-- What the state of the TCB says about its counters. -/
def StateInv (s : Opening) : Prop :=
  match s.tcb.state with
  | .listen | .synSent => s.tcb.curSeqN = isn
  | .synReceived =>
      s.tcb.curSeqN = isn ∧ ∃ peer, s.peerIsn = some peer ∧ s.tcb.curAckN = peer + 1
  | .established | .closeWait | .closed => True
  | .lastAck | .finWait1 | .finWait2 | .closing | .timeWait => False

/-- The invariant of a handshake whose acknowledgements are those of its own
SYN. -/
structure Inv (s : Opening) : Prop where
  thread : ThreadInv s
  state : StateInv s
  transmitted : ∀ tx, s.transmitted = some tx → OwnSyn tx.header

theorem Inv.start (call : OpenCall) : Inv (start call) := by
  cases call with
  | connect addr port ip block size =>
      exact ⟨⟨⟨rfl, rfl⟩, rfl⟩, rfl, fun _ none_ => nomatch none_⟩
  | listen addr port block size =>
      exact ⟨⟨.inl rfl, rfl⟩, rfl, fun _ none_ => nomatch none_⟩

/-- The only segments that open a TCB are a SYN+ACK in `SYN_SENT` and an
acknowledgement in `SYN_RECEIVED`; in `ESTABLISHED` a FIN is the only one that
changes the state. -/
inductive Received (s : Opening) (segment : Segment) : Opening → Prop
  | synAck : s.tcb.state = .synSent → segment.header.syn = true → segment.header.ack = true →
      Received s segment { s with
        tcb := s.tcb.afterSynSent segment, peerIsn := some segment.header.seqN }
  | refused : s.tcb.state = .synSent →
      (segment.header.syn && segment.header.ack) = false →
      Received s segment { s with tcb := s.tcb.afterSynSent segment }
  | syn : s.tcb.state = .listen → segment.header.syn = true →
      Received s segment { s with
        tcb := s.tcb.afterListen segment, peerIsn := some segment.header.seqN }
  | acknowledged : s.tcb.state = .synReceived → segment.header.ack = true →
      Received s segment { s with tcb := s.tcb.afterSynReceived segment }
  | ignored : s.tcb.state = .listen ∨
      s.tcb.state = .synReceived ∧ segment.header.ack = false ∨ s.tcb.state = .closed →
      Received s segment { s with tcb := s.tcb.disarm }
  | open_ : s.tcb.state = .established →
      Received s segment { s with tcb := s.tcb.afterEstablished segment }

/-- Under the state invariant every segment taken is one of the six kinds. -/
theorem received_of_step {s after : Opening} {segment : Segment} (inv : StateInv s)
    (taken : step s (.rx segment) = some after) : Received s segment after := by
  simp only [step] at taken
  split at taken
  · contradiction
  · cases state : s.tcb.state with
    | synSent =>
        rw [receive_synSent segment state] at taken
        by_cases answered : (segment.header.syn && segment.header.ack) = true
        · obtain ⟨syn, ack⟩ := Bool.and_eq_true_iff.mp answered
          simp only [Option.bind_some, Option.map_some, peerIsnAfter, state, answered,
            if_true, Option.some.injEq] at taken
          subst taken
          exact .synAck state syn ack
        · have refused := Bool.eq_false_iff.mpr answered
          simp only [Option.bind_some, Option.map_some, peerIsnAfter, state, refused,
            Bool.false_eq_true, if_false, Option.some.injEq] at taken
          subst taken
          exact .refused state refused
    | listen =>
        rw [receive_listen segment state] at taken
        by_cases syn : segment.header.syn = true
        · simp only [Option.bind_some, Option.map_some, peerIsnAfter, state, syn, if_true,
            Option.some.injEq] at taken
          subst taken
          exact .syn state syn
        · simp only [Option.bind_some, Option.map_some, peerIsnAfter, state, syn,
            Bool.false_eq_true, if_false, Option.some.injEq, Tcb.afterListen] at taken
          subst taken
          exact .ignored (.inl state)
    | synReceived =>
        rw [receive_synReceived segment state] at taken
        by_cases ack : segment.header.ack = true
        · simp only [Option.bind_some, Option.map_some, peerIsnAfter, state,
            Option.some.injEq] at taken
          subst taken
          exact .acknowledged state ack
        · simp only [Option.bind_some, Option.map_some, peerIsnAfter, state, ack,
            Bool.false_eq_true, if_false, Option.some.injEq, Tcb.afterSynReceived] at taken
          subst taken
          exact .ignored (.inr (.inl ⟨state, Bool.eq_false_iff.mpr ack⟩))
    | established =>
        rw [receive_established segment state] at taken
        simp only [Option.bind_some, Option.map_some, peerIsnAfter, state,
          Option.some.injEq] at taken
        subst taken
        exact .open_ state
    | closed =>
        rw [receive_closed segment state] at taken
        simp only [Option.bind_some, Option.map_some, peerIsnAfter, state,
          Option.some.injEq] at taken
        subst taken
        exact .ignored (.inr (.inr state))
    | closeWait =>
        rw [receive_closeWait segment state] at taken
        contradiction
    | lastAck | finWait1 | finWait2 | closing | timeWait =>
        rw [StateInv, state] at inv
        exact inv.elim

/-- The thread keeps the invariant in every step. -/
theorem Inv.thread_step {s after : Opening} (inv : Inv s) (taken : s.threadStep = some after) :
    Inv after := by
  obtain ⟨⟨next, sent⟩, stepped, rfl⟩ := Option.map_eq_some_iff.mp taken
  have position := inv.thread
  unfold ThreadInv at position
  generalize s.thread = current at position stepped
  cases OpeningThread.moves_of_step stepped with
  | synSent syn =>
      refine ⟨trivial, inv.state, ?_⟩
      rintro _ ⟨rfl⟩
      exact position.1
  | connectReturns answered => exact ⟨trivial, inv.state, inv.transmitted⟩
  | woken synReceived => exact ⟨⟨synReceived, position.2⟩, inv.state, inv.transmitted⟩
  | prepared =>
      have counters := inv.state
      rw [StateInv, position.1] at counters
      exact ⟨⟨⟨rfl, counters.1⟩, position.1, position.2⟩, inv.state, inv.transmitted⟩
  | synAckSent synAck =>
      refine ⟨trivial, inv.state, ?_⟩
      rintro _ ⟨rfl⟩
      exact position.1
  | listenReturns established => exact ⟨trivial, inv.state, inv.transmitted⟩

/-- What the thread relies on while a segment is taken: the SYN of a listener is
not out before its thread has prepared it in `SYN_RECEIVED`. -/
theorem ThreadInv.of_tcb {s : Opening} {tcb : Tcb} {peerIsn : Option UInt32}
    (inv : ThreadInv s)
    (waits : s.transmitted = none → s.tcb.state = .listen ∨ s.tcb.state = .synReceived →
      tcb.state = s.tcb.state ∨ s.tcb.state = .listen ∧ tcb.state = .synReceived) :
    ThreadInv { s with tcb, peerIsn } := by
  unfold ThreadInv at inv ⊢
  cases position : s.thread with
  | listenWaiting =>
      simp only [position] at inv ⊢
      obtain ⟨open_, untransmitted⟩ := inv
      rcases waits untransmitted open_ with same | ⟨_, received⟩
      · exact ⟨same ▸ open_, untransmitted⟩
      · exact ⟨.inr received, untransmitted⟩
  | listenWoken =>
      simp only [position] at inv ⊢
      obtain ⟨received, untransmitted⟩ := inv
      rcases waits untransmitted (.inr received) with same | ⟨_, received'⟩
      · exact ⟨same.trans received, untransmitted⟩
      · exact ⟨received', untransmitted⟩
  | listenPrepared synAck =>
      simp only [position] at inv ⊢
      obtain ⟨own, received, untransmitted⟩ := inv
      rcases waits untransmitted (.inr received) with same | ⟨_, received'⟩
      · exact ⟨own, same.trans received, untransmitted⟩
      · exact ⟨own, received', untransmitted⟩
  | connectLinked syn =>
      simp only [position] at inv ⊢
      exact inv
  | connectWaiting | listenAnswered | returned _ => trivial

/-- A segment whose acknowledgement is that of the own SYN keeps the
invariant. -/
theorem Inv.rx_step {s after : Opening} {segment : Segment} (inv : Inv s)
    (own : AcksOwnSyn s (.rx segment)) (received : Received s segment after) : Inv after := by
  have counters := inv.state
  rw [StateInv] at counters
  cases received with
  | synAck synSent syn ack =>
      refine ⟨inv.thread.of_tcb ?_, ?_, inv.transmitted⟩
      · rintro - (listen | synReceived)
        · exact absurd (synSent.symm.trans listen) (by decide)
        · exact absurd (synSent.symm.trans synReceived) (by decide)
      · simp [StateInv, Tcb.afterSynSent, syn, ack]
  | refused synSent refused =>
      refine ⟨inv.thread.of_tcb ?_, ?_, inv.transmitted⟩
      · rintro - (listen | synReceived)
        · exact absurd (synSent.symm.trans listen) (by decide)
        · exact absurd (synSent.symm.trans synReceived) (by decide)
      · simp [StateInv, Tcb.afterSynSent, refused]
  | syn listen syn =>
      rw [listen] at counters
      refine ⟨inv.thread.of_tcb ?_, ?_, inv.transmitted⟩
      · intro _ _
        exact .inr ⟨listen, by simp [Tcb.afterListen, syn]⟩
      · simpa [StateInv, Tcb.afterListen, Tcb.disarm, syn] using counters
  | acknowledged synReceived ack =>
      obtain ⟨transmitted, _⟩ := own.2 synReceived ack
      refine ⟨inv.thread.of_tcb ?_, ?_, inv.transmitted⟩
      · intro untransmitted
        rw [untransmitted] at transmitted
        contradiction
      · simp [StateInv, Tcb.afterSynReceived, ack]
  | ignored open_ =>
      exact ⟨inv.thread.of_tcb fun _ _ => .inl rfl, inv.state, inv.transmitted⟩
  | open_ established =>
      refine ⟨inv.thread.of_tcb ?_, ?_, inv.transmitted⟩
      · rintro - (listen | synReceived)
        · exact absurd (established.symm.trans listen) (by decide)
        · exact absurd (established.symm.trans synReceived) (by decide)
      · cases fin : segment.header.fin <;>
          simp [StateInv, established, fin]

/-- The step lemma: under the guard every event keeps the invariant. -/
theorem Inv.step {s after : Opening} {event : OpeningEvent} (inv : Inv s)
    (own : AcksOwnSyn s event) (taken : Opening.step s event = some after) : Inv after := by
  cases event with
  | rx segment => exact inv.rx_step own (received_of_step inv.state taken)
  | thread => exact inv.thread_step taken

/-- No step of the thread can break the handshake. -/
theorem safe_of_threadStep {s after : Opening} (taken : s.threadStep = some after) :
    Safe s .thread after := by
  obtain ⟨⟨next, sent⟩, stepped, rfl⟩ := Option.map_eq_some_iff.mp taken
  refine ⟨fun closed open_ => absurd open_ closed, fun waiting => ?_⟩
  change next = .listenWaiting at waiting
  subst waiting
  generalize s.thread = current at stepped
  cases OpeningThread.moves_of_step stepped

/-- A listener still waiting for `SYN_RECEIVED` has transmitted nothing. -/
theorem Inv.listenWaiting {s : Opening} (inv : Inv s) (waiting : s.thread = .listenWaiting) :
    (s.tcb.state = .listen ∨ s.tcb.state = .synReceived) ∧ s.transmitted = none := by
  have position := inv.thread
  rwa [ThreadInv, waiting] at position

/-- A segment for a connection that stays as it is threatens nothing. -/
theorem Safe.of_state {s after : Opening} {segment : Segment} (inv : Inv s)
    (thread : after.thread = s.thread)
    (closed : s.tcb.state ≠ .established → after.tcb.state ≠ .established)
    (waits : s.tcb.state = .listen ∨ s.tcb.state = .synReceived →
      after.tcb.state = .listen ∨ after.tcb.state = .synReceived) :
    Safe s (.rx segment) after where
  completes before open_ := absurd open_ (closed before)
  listens waiting := waits (inv.listenWaiting (thread.symm.trans waiting)).1

/-- Under the invariant a segment keeps the handshake safe exactly when its
acknowledgement is that of the own SYN. -/
theorem safe_rx_iff {s after : Opening} {segment : Segment} (inv : Inv s)
    (received : Received s segment after) :
    Safe s (.rx segment) after ↔ AcksOwnSyn s (.rx segment) := by
  have counters := inv.state
  rw [StateInv] at counters
  cases received with
  | synAck synSent syn ack =>
      rw [synSent] at counters
      have opened : (s.tcb.afterSynSent segment).state = .established := by
        simp [Tcb.afterSynSent, syn, ack]
      constructor
      · intro safe
        obtain ⟨_, ⟨rfl⟩, completes⟩ := safe.completes (by simp [synSent]) opened
        obtain ⟨tx, transmitted, _⟩ := completes.transmitted
        refine ⟨fun _ _ _ => ⟨by rw [transmitted]; rfl, completes.ackN⟩, ?_⟩
        intro synReceived
        exact absurd (synSent.symm.trans synReceived) (by decide)
      · intro own
        obtain ⟨transmitted, ackN⟩ := own.1 synSent syn ack
        obtain ⟨tx, transmitted⟩ := Option.isSome_iff_exists.mp transmitted
        refine ⟨fun _ _ => ⟨segment, rfl, ack, ackN, ⟨tx, transmitted, ?_⟩, ?_, ?_⟩, ?_⟩
        · exact inv.transmitted tx transmitted
        · simp [Tcb.afterSynSent, syn, ack, counters]
        · exact ⟨_, rfl, by simp [Tcb.afterSynSent, syn, ack]⟩
        · intro waiting
          rcases (inv.listenWaiting waiting).1 with listen | synReceived
          · exact absurd (synSent.symm.trans listen) (by decide)
          · exact absurd (synSent.symm.trans synReceived) (by decide)
  | refused synSent refused =>
      refine iff_of_true (Safe.of_state inv rfl ?_ ?_) ⟨?_, ?_⟩
      · simp [Tcb.afterSynSent, refused]
      · simp [synSent]
      · intro _ syn ack
        simp [syn, ack] at refused
      · intro synReceived
        exact absurd (synSent.symm.trans synReceived) (by decide)
  | syn listen syn =>
      refine iff_of_true (Safe.of_state inv rfl ?_ ?_) ⟨?_, ?_⟩
      · simp [Tcb.afterListen, syn]
      · simp [Tcb.afterListen, syn]
      · intro synSent
        exact absurd (listen.symm.trans synSent) (by decide)
      · intro synReceived
        exact absurd (listen.symm.trans synReceived) (by decide)
  | acknowledged synReceived ack =>
      rw [synReceived] at counters
      have opened : (s.tcb.afterSynReceived segment).state = .established := by
        simp [Tcb.afterSynReceived, ack]
      constructor
      · intro safe
        obtain ⟨_, ⟨rfl⟩, completes⟩ := safe.completes (by simp [synReceived]) opened
        obtain ⟨tx, transmitted, _⟩ := completes.transmitted
        refine ⟨?_, fun _ _ => ⟨by rw [transmitted]; rfl, completes.ackN⟩⟩
        intro synSent
        exact absurd (synReceived.symm.trans synSent) (by decide)
      · intro own
        obtain ⟨transmitted, ackN⟩ := own.2 synReceived ack
        obtain ⟨tx, transmitted⟩ := Option.isSome_iff_exists.mp transmitted
        refine ⟨fun _ _ => ⟨segment, rfl, ack, ackN, ⟨tx, transmitted, ?_⟩, ?_, ?_⟩, ?_⟩
        · exact inv.transmitted tx transmitted
        · simp [Tcb.afterSynReceived, ack, ackN]
        · obtain ⟨_, peer, known, curAckN⟩ := counters
          exact ⟨peer, known, by simpa [Tcb.afterSynReceived, Tcb.disarm, ack] using curAckN⟩
        · intro waiting
          rw [(inv.listenWaiting waiting).2] at transmitted
          contradiction
  | ignored open_ =>
      refine iff_of_true (Safe.of_state inv rfl id id) ⟨?_, ?_⟩
      · intro synSent
        simp [synSent] at open_
      · intro synReceived ack
        simp [synReceived, ack] at open_
  | open_ established =>
      refine iff_of_true (Safe.of_state inv rfl ?_ ?_) ⟨?_, ?_⟩
      · exact fun closed => absurd established closed
      · simp [established]
      · intro synSent
        exact absurd (established.symm.trans synSent) (by decide)
      · intro synReceived
        exact absurd (established.symm.trans synReceived) (by decide)

/-- The handshake of a call stays safe in every run, whatever arrives and
however `rx_task` is interleaved, exactly as long as each acknowledgement taken
before `ESTABLISHED` comes after the own SYN and acknowledges just that. -/
theorem handshake_safe_iff (call : OpenCall) (events : List OpeningEvent) :
    Along Opening.step Safe (start call) events ↔
      Guarded Opening.step AcksOwnSyn (start call) events := by
  apply along_iff_guarded _ _ (Inv.start call)
  · intro s event after inv own taken
    exact inv.step own taken
  · intro s event after inv taken
    cases event with
    | rx segment => exact safe_rx_iff inv (received_of_step inv.state taken)
    | thread => exact iff_of_true (safe_of_threadStep taken) trivial

/-- A SYN for the listener below. -/
def earlySyn : Segment :=
  .ofPayload 0xc0a80476
    { TcpHeader.zero with sourcePort := 5757, destPort := 23, syn := true } []

/-- An acknowledgement of nothing that the listener ever sent. -/
def earlyAck : Segment :=
  .ofPayload 0xc0a80476
    { TcpHeader.zero with sourcePort := 5757, destPort := 23, ack := true, ackN := 7 } []

/-- An acknowledgement right behind the SYN opens a listener that has sent no
SYN+ACK, with a counter of the peer's choice, and its thread sleeps on. -/
theorem handshake_not_safe_early :
    ∃ (call : OpenCall) (events : List OpeningEvent) (s : Opening),
      run Opening.step (start call) events = some s ∧
      s.tcb.state = .established ∧ s.transmitted = none ∧ s.tcb.curSeqN = 7 ∧
      s.thread = .listenWaiting ∧ s.threadStep = none ∧
      ¬ Along Opening.step Safe (start call) events := by
  refine ⟨.listen 0 23 (List.replicate 127 0) (by simp [tcpBufSz]), [.rx earlySyn, .rx earlyAck],
    _, rfl, rfl, rfl, rfl, rfl, rfl, ?_⟩
  intro along
  obtain ⟨_, along⟩ := along _ rfl
  obtain ⟨safe, _⟩ := along _ rfl
  rcases safe.listens rfl with listen | synReceived
  · exact nomatch listen
  · exact nomatch synReceived

end Opening

end Lpc17xx.Tcp
