import Lpc17xx.Tcp.PairDelivery

/-!
# What two hosts acknowledge

Between two hosts, every acknowledgement that carries no data says something new, so none of
them is answered, and the last one under way acknowledges all that its sender has received.
-/

namespace Lpc17xx.Tcp

open Lpc17xx.Cbuf
open Lpc17xx.Serial
open Lpc17xx.Stream
open Lpc17xx.Transition

/-- The acknowledgement numbers under way, after `number`, end at `last`, and a segment
without payload brings another one than the segment before. -/
inductive Fresh (last : UInt32) : UInt32 → List TcpTx → Prop
  | nil : Fresh last last []
  | cons {number : UInt32} {tx : TcpTx} {wire : List TcpTx} :
      (tx.payload = [] → tx.header.ackN ≠ number) → Fresh last tx.header.ackN wire →
      Fresh last number (tx :: wire)

theorem Fresh.snoc {last number : UInt32} {wire : List TcpTx} {tx : TcpTx}
    (fresh : Fresh last number wire) (new : tx.payload = [] → tx.header.ackN ≠ last) :
    Fresh tx.header.ackN number (wire ++ [tx]) := by
  induction fresh with
  | nil => exact .cons new .nil
  | cons first _ ih => exact .cons first ih

theorem Fresh.head {last number : UInt32} {wire : List TcpTx} {tx : TcpTx}
    (fresh : Fresh last number (tx :: wire)) :
    (tx.payload = [] → tx.header.ackN ≠ number) ∧ Fresh last tx.header.ackN wire := by
  cases fresh with
  | cons first rest => exact ⟨first, rest⟩

theorem Fresh.eq_of_nil {last number : UInt32} (fresh : Fresh last number []) : number = last := by
  cases fresh
  rfl

namespace Pair

/-- What comes to `side` is fresh, and it ends at what its peer has received. -/
def Hears (s : Pair) (side : Side) : Prop :=
  ∀ t peer, (s.ends side).tcb = some t → (s.ends side.other).tcb = some peer →
    Fresh peer.curAckN t.curSeqN (s.wire side.other)

/-- Both hosts hear fresh acknowledgements. -/
def Current (s : Pair) : Prop :=
  ∀ side, s.Hears side

/-- The connecting end is not open yet. -/
def Unopened (endpoint : Endpoint) : Prop :=
  ∀ t, endpoint.tcb = some t → t.state = .synSent ∨ t.state = .closed

/-- The invariant: a stage, and once both talk, fresh acknowledgements. -/
inductive Phase (hosts : Addresses) (s : Pair) : Prop
  | opening : Stage hosts s → Unopened (s.ends .connecting) → Phase hosts s
  | talking {flow : Side → Flow UInt8} : Talking hosts s flow → s.Current → Phase hosts s

end Pair

section

variable {hosts : Addresses} {s after : Pair} {side : Side} {endpoint : Endpoint} {t t' peer : Tcb}
  {flow : Side → Flow UInt8} {tx : TcpTx} {rest sent : List TcpTx} {outcome : HostOutcome}
  {event : PairEvent}

open Pair

/-! ## While both talk -/

/-- One end moves on. -/
theorem Pair.Current.put (there : (s.ends side.other).tcb = some peer)
    (here : endpoint.tcb = some t)
    (heard : Fresh peer.curAckN t.curSeqN (s.wire side.other))
    (said : Fresh t.curAckN peer.curSeqN (s.wire side ++ sent)) :
    (s.put side endpoint sent).Current := by
  refine Side.forall_of side ?_ ?_
  · intro t' peer' tcb tcb'
    rw [put_ends_self, here] at tcb
    rw [put_ends_other, there] at tcb'
    cases tcb
    cases tcb'
    rw [put_wire_other]
    exact heard
  · intro peer' t' tcb' tcb
    rw [put_ends_other, there] at tcb'
    rw [Side.other_other, put_ends_self, here] at tcb
    cases tcb
    cases tcb'
    rw [Side.other_other, put_wire_self]
    exact said

theorem Pair.Current.there (current : s.Current) (here : (s.ends side).tcb = some t)
    (there : (s.ends side.other).tcb = some peer) :
    Fresh t.curAckN peer.curSeqN (s.wire side) := by
  have said := current side.other peer t there
  rw [Side.other_other] at said
  exact said here

/-- What changes neither counter and transmits nothing is not heard. -/
theorem Pair.Current.keep (current : s.Current) (here : (s.ends side).tcb = some t)
    (there : (s.ends side.other).tcb = some peer) (tcb : endpoint.tcb = some t')
    (curSeqN : t'.curSeqN = t.curSeqN) (curAckN : t'.curAckN = t.curAckN) :
    (s.put side endpoint []).Current := by
  refine .put there tcb ?_ ?_
  · rw [curSeqN]
    exact current side t peer here there
  · rw [curAckN, List.append_nil]
    exact current.there here there

/-- What a segment does to an open end: the data is kept and answered, and an
acknowledgement that is fresh is not. -/
structure Absorbed (hosts : Addresses) (side : Side) (t : Tcb) (tx : TcpTx)
    (outcome : HostOutcome) (t' : Tcb) : Prop where
  tcbHead : outcome.tcbHead = [t']
  curSeqN : t'.curSeqN = tx.header.ackN
  curAckN : t'.curAckN = t.curAckN + UInt32.ofNat tx.payload.length
  contents : t'.rxBuf.contents = t.rxBuf.contents ++ tx.payload
  sent : outcome.sent =
    if tx.payload = [] then [] else [⟨t'.ackHeader, hosts.ip side.other, []⟩]

theorem absorbed_of_established {segment : Segment} (established : t.state = .established)
    (srcIp : segment.srcIp = hosts.ip side.other) (header : segment.header = tx.header)
    (payload : segment.payload = tx.payload) (ack : tx.header.ack = true)
    (fin : tx.header.fin = false) (fits : segment.dataLen ≤ t.rxBuf.curCapacity)
    (fresh : tx.payload = [] → tx.header.ackN ≠ t.curSeqN)
    (received : (t.receive segment).map (fun outcome =>
      ({ tcbHead := outcome.tcb.toList, sent := outcome.sent, wakeup := outcome.wakeup } :
        HostOutcome)) = some outcome) :
    Absorbed hosts side t tx outcome (t.afterEstablished segment) := by
  rw [receive_established segment established, Option.map_some, Option.some.injEq] at received
  cases received
  have answers : t.answersEstablished segment = true ↔ tx.payload ≠ [] := by
    have empty := segment.dataLen_eq_zero_iff
    rw [payload] at empty
    have acked : noAckedBytes t tx.header = 0 ↔ tx.header.ackN = t.curSeqN := by
      rw [noAckedBytes, if_pos ack, toInt32_eq_zero_iff]
      constructor
      · intro same
        rw [← UInt32.sub_add_cancel tx.header.ackN t.curSeqN, same, UInt32.zero_add]
      · intro same
        rw [same, UInt32.sub_self]
    simp only [Tcb.answersEstablished, header, fin, Bool.false_or, Bool.or_eq_true,
      decide_eq_true_eq, Bool.and_eq_true, acked, empty, ne_eq]
    constructor
    · rintro (data | ⟨none, same⟩)
      · exact data
      · exact absurd same (fresh none)
    · exact .inl
  constructor
  · rfl
  · rw [afterEstablished_curSeqN, header, if_pos ack]
  · rw [afterEstablished_curAckN, header, fin, ← Segment.ofNat_length, payload]
    simp
  · rw [afterEstablished_contents segment fits, payload]
  · by_cases data : tx.payload = []
    · rw [if_pos data]
      exact if_neg fun answered => answers.mp answered data
    · rw [if_neg data]
      refine (if_pos (answers.mpr data)).trans ?_
      rw [srcIp]

theorem absorbed_of_synReceived {segment : Segment} (synReceived : t.state = .synReceived)
    (header : segment.header = tx.header) (ack : tx.header.ack = true) (empty : tx.payload = [])
    (received : (t.receive segment).map (fun outcome =>
      ({ tcbHead := outcome.tcb.toList, sent := outcome.sent, wakeup := outcome.wakeup } :
        HostOutcome)) = some outcome) :
    Absorbed hosts side t tx outcome (t.afterSynReceived segment) := by
  rw [receive_synReceived segment synReceived, Option.map_some, Option.some.injEq] at received
  cases received
  have moved : t.afterSynReceived segment =
      { t.disarm with curSeqN := tx.header.ackN, state := .established } := by
    rw [← header]
    exact if_pos (by rw [header, ack])
  constructor
  · rfl
  · rw [moved]
  · rw [moved, empty]
    exact (UInt32.add_zero _).symm
  · rw [moved, empty, List.append_nil]
    rfl
  · rw [if_pos empty]

theorem Talking.absorbed (talking : Talking hosts s flow) (current : s.Current)
    (speaks : Speaks hosts side (s.ends side) (flow side) (flow side.other) t)
    (pending : s.wire side.other = tx :: rest)
    (received : Pair.rxPacket (s.ends side) (hosts.ip side.other) tx = some outcome) :
    ∃ t', Absorbed hosts side t tx outcome t' := by
  have carried := talking.carried_other side
  rw [pending] at carried
  rcases carried.head with ⟨pieces, ack, acks, nextPiece, _, carries, _⟩
  have room := (talking.sound side.other).length_le_room nextPiece
  have capacity := speaks.capacity
  change _ = 127 at capacity
  have fits : tx.payload.length ≤ memHeapSize := by
    unfold memHeapSize
    omega
  have destPort : tx.header.destPort = hosts.portOf side := by simpa using carries.destPort
  rw [rxPacket_named speaks.tcb speaks.named carries.sourcePort destPort] at received
  rcases talking.there side with ⟨peer, there⟩
  have heard := current side t peer speaks.tcb there.tcb
  rw [pending] at heard
  rcases speaks.phase with opened | answered
  · have payload := @Segment.payload_ofPayload (hosts.ip side.other) tx.header tx.payload fits
    refine ⟨_, absorbed_of_established opened.state rfl rfl payload carries.ack carries.fin ?_
      heard.head.1 received⟩
    rw [UInt32.le_iff_toNat_le, Segment.toNat_dataLen, payload, speaks.room]
    exact room
  · rcases answered.next with ⟨_, next⟩
    have empty := (List.cons.inj (nextPiece.symm.trans next)).1
    exact ⟨_, absorbed_of_synReceived answered.state rfl carries.ack empty received⟩

/-- The data that fits is less than a sequence number's worth. -/
theorem add_ofNat_ne {number : UInt32} {count : Nat} (positive : 0 < count)
    (bound : count < 2 ^ 32) : number + UInt32.ofNat count ≠ number := by
  intro same
  have zero : UInt32.ofNat count = 0 := by
    calc
      UInt32.ofNat count = number + UInt32.ofNat count - number := by grind
      _ = 0 := by rw [same, UInt32.sub_self]
  have none := congrArg UInt32.toNat zero
  rw [toNat_ofNat bound] at none
  exact Nat.ne_of_gt positive none

theorem Talking.current_deliver (talking : Talking hosts s flow) (current : s.Current)
    (speaks : Speaks hosts side (s.ends side) (flow side) (flow side.other) t)
    (pending : s.wire side.other = tx :: rest)
    (received : Pair.rxPacket (s.ends side) (hosts.ip side.other) tx = some outcome) :
    ((s.take side rest).put side
      { s.ends side with
        tcb := outcome.tcbHead.head?
        lastWindow := tx.header.windowSz } outcome.sent).Current := by
  rcases talking.absorbed current speaks pending received with ⟨t', absorbed⟩
  rcases talking.there side with ⟨peer, there⟩
  have heard := current side t peer speaks.tcb there.tcb
  rw [pending] at heard
  have said := current.there speaks.tcb there.tcb
  have tcb : outcome.tcbHead.head? = some t' := by
    rw [absorbed.tcbHead]
    rfl
  refine .put there.tcb tcb ?_ ?_
  · rw [take_wire_other, absorbed.curSeqN]
    exact heard.head.2
  · rw [take_wire_self, absorbed.sent]
    by_cases empty : tx.payload = []
    · rw [if_pos empty, List.append_nil, absorbed.curAckN, empty]
      simpa using said
    · rw [if_neg empty]
      refine @Fresh.snoc _ _ _ ⟨t'.ackHeader, hosts.ip side.other, []⟩ said fun _ => ?_
      change t'.curAckN ≠ t.curAckN
      have carried := talking.carried_other side
      rw [pending] at carried
      rcases carried.head with ⟨_, _, _, nextPiece, _, _, _⟩
      have room := (talking.sound side.other).length_le_room nextPiece
      have capacity := speaks.capacity
      change _ = 127 at capacity
      rw [absorbed.curAckN]
      exact add_ofNat_ne (List.length_pos_iff.mpr empty) (by omega)

/-! ## The invariant -/

theorem not_opening_of_talking (talking : Talking hosts s flow) :
    ¬Unopened (s.ends .connecting) := by
  intro opening
  rcases talking.speaks .connecting with ⟨t, speaks⟩
  rcases opening t speaks.tcb with synSent | closed
  · rcases speaks.phase with opened | answered
    · exact nomatch synSent.symm.trans opened.state
    · exact nomatch synSent.symm.trans answered.state
  · rcases speaks.phase with opened | answered
    · exact nomatch closed.symm.trans opened.state
    · exact nomatch closed.symm.trans answered.state

theorem Pair.Stage.opening_or_talking (stage : Stage hosts s) :
    Unopened (s.ends .connecting) ∨ ∃ flow, Talking hosts s flow := by
  have calling (t : Tcb) (calls : Calls hosts t) : t.state = .synSent := by
    rcases calls with ⟨addr, block, size, rfl⟩
    rfl
  cases stage with
  | calling caller _ _ =>
      left
      generalize s.ends .connecting = endpoint at caller
      generalize s.wire .connecting = wire at caller
      cases caller with
      | idle => exact nofun
      | linked calls =>
          rintro _ ⟨⟩
          exact .inl (calling _ calls)
      | waiting calls =>
          rintro _ ⟨⟩
          exact .inl (calling _ calls)
  | refused refused _ _ =>
      left
      generalize s.ends .connecting = endpoint at refused
      generalize s.wire .listening = wire at refused
      cases refused with
      | pending calls =>
          rintro _ ⟨⟩
          exact .inl (calling _ calls)
      | closed closed _ =>
          rintro _ ⟨⟩
          exact .inr closed
      | freed => exact nofun
  | answering calls called _ _ =>
      left
      rw [called]
      rintro _ ⟨⟩
      exact .inl (calling _ calls)
  | talking talking => exact .inr ⟨_, talking⟩

/-- Only a segment opens the connecting end. -/
theorem unopened_step (stepped : Stepped hosts s event after)
    (opening : Unopened (s.ends .connecting)) (other : event ≠ .deliver .connecting) :
    Unopened (after.ends .connecting) := by
  have elsewhere (endpoint : Endpoint) (sent : List TcpTx) :
      Unopened ((s.put .listening endpoint sent).ends .connecting) := opening
  cases stepped with
  | connect _ made =>
      rw [put_ends_self]
      rintro _ ⟨⟩
      exact .inl (by rw [made]; rfl)
  | listen _ => exact elsewhere _ _
  | @thread side t thread next sent tcb _ _ =>
      cases side with
      | listening => exact elsewhere _ _
      | connecting =>
          rw [put_ends_self]
          intro t' kept
          by_cases freed : next = .returned false
          · exact nomatch (if_pos freed).symm.trans kept
          · cases (if_neg freed).symm.trans kept
            exact opening t tcb
  | @deliver side tx rest outcome _ _ =>
      cases side with
      | listening => exact opening
      | connecting => exact absurd rfl other
  | @txData side data t tcb _ =>
      cases side with
      | listening => exact elsewhere _ _
      | connecting =>
          rw [put_ends_self]
          rintro _ ⟨⟩
          exact opening t tcb
  | @txReturn side t tcb _ _ =>
      cases side with
      | listening => exact elsewhere _ _
      | connecting =>
          rw [put_ends_self]
          exact opening
  | @rxData side len t t' bytes tcb _ popped =>
      cases side with
      | listening => exact elsewhere _ _
      | connecting =>
          rcases tcpRxDataRound_eq_some popped with ⟨rxBuf, rfl, _, _⟩
          rw [put_ends_self]
          rintro _ ⟨⟩
          exact opening t tcb

/-- The first acknowledgements after the handshake. -/
theorem current_of_opens {caller : Tcb} (calls : Calls hosts caller) (answers : Answers hosts t)
    (here : s.ends .connecting = .called caller .connectWaiting 0)
    (there : s.ends .listening = .called t .listenAnswered 127) (quiet : s.wire .connecting = [])
    (received : rxPacket (s.ends .connecting) (hosts.ip .listening)
      ⟨tcpListenSynAck t, t.dstIp, []⟩ = some outcome) :
    ∃ t', outcome.tcbHead = [t'] ∧ t'.state = .established ∧
      ((s.take .connecting []).put .connecting
        { s.ends .connecting with
          tcb := outcome.tcbHead.head?
          lastWindow := (tcpListenSynAck t).windowSz } outcome.sent).Current := by
  rw [here] at received
  rcases Answering.opens calls answers received with ⟨t', tcbHead, sent, speaks⟩
  have opened : Opened (.called t' .connectWaiting 127) ((Flow.opening 127).transmit []) t' := by
    rcases speaks.phase with opened | answered
    · exact opened
    · exact nomatch answered.thread
  have curSeqN : t'.curSeqN = isn + 1 := opened.curSeqN.trans (place_zero _)
  have curAckN : t'.curAckN = isn + 1 := speaks.curAckN.trans (place_zero _)
  have peer : (s.ends .listening).tcb = some t := by
    rw [there]
    rfl
  have tcb : outcome.tcbHead.head? = some t' := by
    rw [tcbHead]
    rfl
  refine ⟨t', tcbHead, opened.state, .put peer tcb ?_ ?_⟩
  · rw [take_wire_other, curSeqN, answers.curAckN]
    exact .nil
  · rw [take_wire_self, quiet, sent, answers.curSeqN]
    refine .cons (fun _ => ?_) .nil
    change t'.curAckN ≠ isn
    rw [curAckN]
    decide

/-- A thread of an open connection returns. -/
theorem Speaks.returns {out inward : Flow UInt8} {thread next : OpeningThread}
    {tx : Option TcpTx} (speaks : Speaks hosts side endpoint out inward t)
    (position : endpoint.thread = some thread) (moved : thread.Moves t next tx) :
    next = .returned true ∧ tx = none := by
  rcases speaks.phase with opened | answered
  · rcases opened.thread with waiting | answering | done
    · cases position.symm.trans waiting
      cases moved with
      | connectReturns _ => exact ⟨by simp [opened.state], rfl⟩
    · cases position.symm.trans answering
      cases moved
      exact ⟨rfl, rfl⟩
    · cases position.symm.trans done
      cases moved
  · cases position.symm.trans answered.thread
    cases moved
    exact ⟨rfl, rfl⟩

theorem Talking.phase_step (talking : Talking hosts s flow) (current : s.Current)
    (stepped : Stepped hosts s event after) : Phase hosts after := by
  cases stepped with
  | connect unused _ => exact absurd unused (used_of_talking talking .connecting)
  | listen unused => exact absurd unused (used_of_talking talking .listening)
  | @thread side t thread next sent tcb position moved =>
      rcases talking.speaks side with ⟨t, speaks⟩
      cases tcb.symm.trans speaks.tcb
      rcases talking.there side with ⟨peer, there⟩
      refine .talking (talking.thread speaks position moved) ?_
      rcases speaks.returns position moved with ⟨rfl, rfl⟩
      exact current.keep speaks.tcb there.tcb rfl rfl rfl
  | @deliver side tx rest outcome pending received =>
      rcases talking.speaks side with ⟨t, speaks⟩
      rcases talking.deliver speaks pending received with ⟨flow', talking'⟩
      exact .talking talking' (talking.current_deliver current speaks pending received)
  | @txData side data t tcb may =>
      rcases talking.speaks side with ⟨t, speaks⟩
      cases tcb.symm.trans speaks.tcb
      rcases talking.there side with ⟨peer, there⟩
      refine .talking (talking.txData speaks may) (.put there.tcb rfl
        (current side t peer speaks.tcb there.tcb) ?_)
      refine @Fresh.snoc _ _ _ ⟨t.ackHeader, t.dstIp, data⟩ (current.there speaks.tcb there.tcb)
        fun empty => ?_
      rw [show data = [] from empty] at may
      exact absurd may.2.2.1 (Nat.not_succ_le_zero 0)
  | @txReturn side t tcb sending done =>
      rcases talking.speaks side with ⟨t, speaks⟩
      cases tcb.symm.trans speaks.tcb
      rcases talking.there side with ⟨peer, there⟩
      exact .talking (talking.txReturn speaks done)
        (current.keep speaks.tcb there.tcb speaks.tcb rfl rfl)
  | @rxData side len t t' bytes tcb _ popped =>
      rcases talking.speaks side with ⟨t, speaks⟩
      cases tcb.symm.trans speaks.tcb
      rcases talking.there side with ⟨peer, there⟩
      refine .talking (talking.rxData speaks popped) ?_
      rcases tcpRxDataRound_eq_some popped with ⟨rxBuf, rfl, _, _⟩
      exact current.keep speaks.tcb there.tcb rfl rfl rfl

theorem Pair.Stage.phase_deliver (stage : Stage hosts s) (opening : Unopened (s.ends .connecting))
    (taken : Pair.step hosts s (.deliver .connecting) = some after) : Phase hosts after := by
  have stage' := stage.step taken
  cases stepped_of_step taken with
  | @deliver _ tx rest outcome pending received =>
    change s.wire .listening = tx :: rest at pending
    cases stage with
    | calling _ _ quiet => exact nomatch quiet.symm.trans pending
    | refused refused callee quiet =>
        refine .opening stage' ?_
        rw [put_ends_self]
        generalize s.ends .connecting = endpoint at refused received
        rw [pending] at refused
        generalize wire : tx :: rest = sent at refused
        cases refused with
        | pending calls =>
            obtain ⟨t', tcbHead, _, _, closed, _⟩ := Refused.takes calls wire.symm received
            rintro _ found
            rw [tcbHead] at found
            cases found
            exact .inr closed
        | closed _ _ | freed => exact nomatch wire
    | answering calls called quiet answering =>
        rw [pending] at answering
        generalize there : s.ends .listening = endpoint at answering
        generalize wire : tx :: rest = sent at answering
        cases answering with
        | waiting _ | woken _ | prepared _ => exact nomatch wire
        | answered answers =>
            cases wire
            rcases current_of_opens calls answers called there quiet received with
              ⟨t', tcbHead, established, current⟩
            rcases stage'.opening_or_talking with opening' | ⟨flow, talking⟩
            · rw [put_ends_self, tcbHead] at opening'
              rcases opening' t' rfl with synSent | closed
              · exact nomatch synSent.symm.trans established
              · exact nomatch closed.symm.trans established
            · exact .talking talking current
    | talking talking => exact absurd opening (not_opening_of_talking talking)

theorem Pair.phase_start (hosts : Addresses) : Phase hosts start :=
  .opening (stage_start hosts) nofun

theorem Pair.Phase.step (phase : Phase hosts s)
    (taken : Pair.step hosts s event = some after) : Phase hosts after := by
  cases phase with
  | opening stage opening =>
      by_cases delivery : event = .deliver .connecting
      · subst delivery
        exact stage.phase_deliver opening taken
      · exact .opening (stage.step taken) (unopened_step (stepped_of_step taken) opening delivery)
  | talking talking current => exact talking.phase_step current (stepped_of_step taken)

theorem Pair.phase_of_reachable (reached : Reachable (Pair.step hosts) start s) :
    Phase hosts s :=
  invariant_of_reachable (fun _ _ _ phase taken => phase.step taken) (phase_start hosts) reached

end

end Lpc17xx.Tcp
