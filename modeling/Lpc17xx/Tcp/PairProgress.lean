import Lpc17xx.Tcp.Closing
import Lpc17xx.Tcp.PairFresh
import Lpc17xx.Transition.Refinement

/-!
# Two hosts come to rest

Once the applications make no new calls, the two hosts have only so many steps left,
however these follow one another; and when no step is left, everything that was sent has
been read, and no thread waits for its peer.
-/

namespace Lpc17xx.Tcp

open Lpc17xx.Cbuf
open Lpc17xx.Serial
open Lpc17xx.Stream
open Lpc17xx.Transition

/-- The steps that a segment may still cause. -/
def TcpTx.stepsLeft (tx : TcpTx) : Nat :=
  if tx.payload = [] ∧ tx.header.syn = false then 1 else 2 + tx.payload.length

/-- The steps of a thread, and of the segments that it sends. -/
def OpeningThread.stepsLeft : OpeningThread → Nat
  | .connectLinked syn => 2 + syn.stepsLeft
  | .connectWaiting => 1
  | .listenWaiting => 6
  | .listenWoken => 5
  | .listenPrepared synAck => 2 + (TcpTx.mk synAck 0 []).stepsLeft
  | .listenAnswered => 1
  | .returned _ => 0

/-- The steps of a host: of its thread, of its reader, and the return of `tcp_tx_data`. -/
def Endpoint.stepsLeft (endpoint : Endpoint) : Nat :=
  (endpoint.thread.map OpeningThread.stepsLeft).getD 0 +
    (endpoint.tcb.map fun t => t.rxBuf.contents.length).getD 0 + endpoint.sending.toNat

namespace Pair

/-- The steps of the segments of one side. -/
def wireSteps (wire : List TcpTx) : Nat :=
  (wire.map TcpTx.stepsLeft).sum

/-- The steps of one side. -/
def sideSteps (s : Pair) (side : Side) : Nat :=
  (s.ends side).stepsLeft + wireSteps (s.wire side)

/-- A bound on the steps until the pair is at rest. -/
def stepsLeft (s : Pair) : Nat :=
  s.sideSteps .connecting + s.sideSteps .listening

/-- The applications make no new calls but for reading. -/
def NoNewCall (_ : Pair) : PairEvent → Prop
  | .connect _ _ _ | .listen _ _ _ | .txData _ _ => False
  | .thread _ | .deliver _ | .txReturn _ | .rxData _ _ => True

instance (s : Pair) : DecidablePred s.NoNewCall
  | .connect _ _ _ | .listen _ _ _ | .txData _ _ => inferInstanceAs (Decidable False)
  | .thread _ | .deliver _ | .txReturn _ | .rxData _ _ => inferInstanceAs (Decidable True)

/-- Reading nothing is no step. -/
def effort (_ : Pair) : PairEvent → Nat
  | .rxData _ len => if len = 0 then 0 else 1
  | _ => 1

/-- No step is left. -/
def AtRest (hosts : Addresses) (s : Pair) : Prop :=
  ∀ event, s.NoNewCall event → s.effort event ≠ 0 → step hosts s event = none

/-- Nothing is under way, everything sent was read, and no call waits, but for a
`tcp_listen` that nobody connects to. -/
structure Settled (s : Pair) : Prop where
  quiet : ∀ side, s.wire side = []
  idle : ∀ side, (s.ends side).sending = false
  read : ∀ side, (s.ends side.other).popped = (s.ends side).sent
  returned : (s.ends .connecting).thread = none ∨
    (s.ends .connecting).thread = some (.returned false) ∨
    ∀ side, (s.ends side).thread = some (.returned true)

end Pair

section

open Pair

variable {hosts : Addresses} {s after : Pair} {side : Side} {endpoint : Endpoint} {t : Tcb}
  {flow : Side → Flow UInt8} {tx : TcpTx} {rest sent : List TcpTx} {outcome : HostOutcome}
  {event : PairEvent}

/-! ## The measure -/

@[simp]
theorem wireSteps_append (first second : List TcpTx) :
    wireSteps (first ++ second) = wireSteps first + wireSteps second := by
  simp [wireSteps]

@[simp]
theorem wireSteps_cons (tx : TcpTx) (rest : List TcpTx) :
    wireSteps (tx :: rest) = tx.stepsLeft + wireSteps rest := by
  simp [wireSteps]

@[simp]
theorem wireSteps_nil : wireSteps [] = 0 :=
  rfl

theorem stepsLeft_eq (s : Pair) (side : Side) :
    s.stepsLeft = s.sideSteps side + s.sideSteps side.other := by
  cases side with
  | connecting => rfl
  | listening => exact Nat.add_comm _ _

theorem stepsLeft_put (s : Pair) (side : Side) (endpoint : Endpoint) (sent : List TcpTx) :
    (s.put side endpoint sent).stepsLeft + (s.ends side).stepsLeft =
      s.stepsLeft + endpoint.stepsLeft + wireSteps sent := by
  rw [stepsLeft_eq _ side, stepsLeft_eq s side]
  simp only [sideSteps, put_ends_self, put_ends_other, put_wire_self, put_wire_other,
    wireSteps_append]
  omega

theorem stepsLeft_take (pending : s.wire side.other = tx :: rest) :
    (s.take side rest).stepsLeft + tx.stepsLeft = s.stepsLeft := by
  have ends (each : Side) : (s.take side rest).ends each = s.ends each := rfl
  rw [stepsLeft_eq _ side, stepsLeft_eq s side]
  simp only [sideSteps, ends, take_wire_self, take_wire_other, pending, wireSteps_cons]
  omega

theorem stepsLeft_pos (tx : TcpTx) : 0 < tx.stepsLeft := by
  unfold TcpTx.stepsLeft
  split <;> omega

/-- A step of a thread pays for what it sends. -/
theorem stepsLeft_moves {thread next : OpeningThread} {sent : Option TcpTx}
    (moved : thread.Moves t next sent) :
    next.stepsLeft + wireSteps sent.toList + 1 ≤ thread.stepsLeft := by
  cases moved with
  | synSent syn =>
      simp only [OpeningThread.stepsLeft, Option.toList_some, wireSteps_cons, wireSteps_nil]
      omega
  | connectReturns _ => exact Nat.le_refl _
  | woken _ => exact Nat.le_refl _
  | prepared => exact Nat.le_refl _
  | synAckSent synAck =>
      have same : (TcpTx.mk synAck t.dstIp []).stepsLeft = (TcpTx.mk synAck 0 []).stepsLeft := rfl
      simp only [OpeningThread.stepsLeft, Option.toList_some, wireSteps_cons, wireSteps_nil, same]
      omega
  | listenReturns _ => exact Nat.le_refl _

/-- What a host holds in its receive buffer. -/
def Endpoint.unread (tcb : Option Tcb) : Nat :=
  (tcb.map fun t => t.rxBuf.contents.length).getD 0

theorem Talking.pays (talking : Talking hosts s flow) (current : s.Current)
    (pending : s.wire side.other = tx :: rest)
    (received : rxPacket (s.ends side) (hosts.ip side.other) tx = some outcome) :
    Endpoint.unread outcome.tcbHead.head? + wireSteps outcome.sent + 1 ≤
      Endpoint.unread (s.ends side).tcb + tx.stepsLeft := by
  rcases talking.speaks side with ⟨t, speaks⟩
  rcases talking.absorbed current speaks pending received with ⟨t', absorbed⟩
  have unread : Endpoint.unread outcome.tcbHead.head? =
      Endpoint.unread (s.ends side).tcb + tx.payload.length := by
    rw [absorbed.tcbHead, speaks.tcb]
    change t'.rxBuf.contents.length = t.rxBuf.contents.length + _
    rw [absorbed.contents, List.length_append]
  have positive := stepsLeft_pos tx
  rw [unread, absorbed.sent]
  by_cases empty : tx.payload = []
  · simp only [empty, if_true, wireSteps_nil, List.length_nil]
    omega
  · have most : tx.stepsLeft = 2 + tx.payload.length := if_neg fun both => empty both.1
    have least : (TcpTx.mk t'.ackHeader (hosts.ip side.other) []).stepsLeft = 1 := rfl
    simp only [empty, if_false, wireSteps_cons, wireSteps_nil, least]
    omega

/-- Before the connection is open, the segment has the flag SYN, or it is a reset that
is not answered. -/
theorem Pair.Stage.pays (stage : Stage hosts s) (opening : Unopened (s.ends .connecting))
    (pending : s.wire side.other = tx :: rest)
    (received : rxPacket (s.ends side) (hosts.ip side.other) tx = some outcome) :
    Endpoint.unread outcome.tcbHead.head? + wireSteps outcome.sent + 1 ≤
      Endpoint.unread (s.ends side).tcb + tx.stepsLeft := by
  cases stage with
  | calling caller callee quiet =>
      cases side with
      | connecting => exact nomatch quiet.symm.trans pending
      | listening =>
          rcases caller.sent_of_pending pending with ⟨t, calls, here, rfl, rfl⟩
          generalize s.ends .listening = endpoint at callee received
          cases callee with
          | idle =>
              cases Callee.refuses.symm.trans received
              exact Nat.le_refl _
          | waiting listens =>
              rcases Callee.takes listens calls received with ⟨t', tcbHead, sent, answers⟩
              rw [tcbHead, sent]
              change t'.rxBuf.contents.length + 0 + 1 ≤ _
              rw [answers.contents]
              have positive := stepsLeft_pos (tcpConnectSyn t)
              simp only [List.length_nil]
              omega
  | refused refused callee quiet =>
      cases side with
      | listening => exact nomatch quiet.symm.trans pending
      | connecting =>
          change s.wire .listening = tx :: rest at pending
          generalize s.ends .connecting = endpoint at refused received
          rw [pending] at refused
          generalize wire : tx :: rest = segments at refused
          cases refused with
          | pending calls =>
              obtain ⟨t', tcbHead, unanswered, _, _, empty⟩ :=
                Refused.takes calls wire.symm received
              have positive := stepsLeft_pos tx
              rw [tcbHead, unanswered]
              change t'.rxBuf.contents.length + 0 + 1 ≤ _
              rw [empty]
              simp only [List.length_nil]
              omega
          | closed _ _ | freed => exact nomatch wire
  | answering calls called quiet answering =>
      cases side with
      | listening => exact nomatch quiet.symm.trans pending
      | connecting =>
          change s.wire .listening = tx :: rest at pending
          rw [pending] at answering
          generalize s.ends .listening = endpoint at answering
          generalize wire : tx :: rest = segments at answering
          cases answering with
          | waiting _ | woken _ | prepared _ => exact nomatch wire
          | answered answers =>
              cases wire
              rw [called] at received
              rcases Answering.opens calls answers received with ⟨t', tcbHead, sent, speaks⟩
              have empty : t'.rxBuf.contents = [] := speaks.received.symm
              rw [tcbHead, sent]
              change t'.rxBuf.contents.length + 1 + 1 ≤ _
              rw [empty]
              exact Nat.le_add_left _ _
  | talking talking => exact absurd opening (not_opening_of_talking talking)

/-- A reader that is woken gets something. -/
theorem pos_of_tcpRxDataRound {after : Tcb} {len : UInt32} {bytes : List UInt8}
    (popped : tcpRxDataRound t len = some (bytes, after)) (ready : tcpRxDataReady t = true)
    (some_ : len ≠ 0) : 0 < bytes.length := by
  unfold tcpRxDataRound at popped
  by_cases closeWait : t.state = .closeWait
  · rw [if_pos closeWait] at popped
    exact nomatch popped
  · rw [if_neg closeWait] at popped
    have usage : t.rxBuf.curUsage ≠ 0 := by
      simpa [tcpRxDataReady, closeWait] using ready
    have usagePos := UInt32.pos_iff_ne_zero.mpr usage
    have lenPos := UInt32.pos_iff_ne_zero.mpr some_
    rw [UInt32.lt_iff_toNat_lt] at usagePos lenPos
    have count := t.rxBuf.toNat_curUsage
    have first : (t.rxBuf.pop (if len < t.rxBuf.curUsage then len else t.rxBuf.curUsage)).1 =
        bytes := congrArg Prod.fst (Option.some.inj popped)
    rw [← first]
    split
    · rename_i less
      rw [LiveBuf.pop_fst (UInt32.le_of_lt less), List.length_take, ← count]
      exact Nat.lt_min.mpr ⟨lenPos, usagePos⟩
    · rw [LiveBuf.pop_fst (UInt32.le_refl _), List.length_take, ← count, Nat.min_self]
      exact usagePos

/-- Each step but reading nothing takes one off the measure. -/
theorem Pair.Phase.lowers (phase : Phase hosts s) (quiet : s.NoNewCall event)
    (taken : Pair.step hosts s event = some after) :
    s.effort event + after.stepsLeft ≤ s.stepsLeft := by
  cases stepped_of_step taken with
  | connect _ _ | listen _ | txData _ _ => exact absurd quiet id
  | @thread side t thread next sent tcb position moved =>
      have lower := stepsLeft_moves moved
      have put := stepsLeft_put s side
        { s.ends side with
          tcb := if next = .returned false then none else some t
          thread := some next } sent.toList
      have kept : Endpoint.unread (if next = .returned false then none else some t) ≤
          Endpoint.unread (s.ends side).tcb := by
        rw [tcb]
        split
        · exact Nat.zero_le _
        · exact Nat.le_refl _
      unfold Endpoint.unread at kept
      simp only [Endpoint.stepsLeft, position, Option.map_some, Option.getD_some] at put
      simp only [effort]
      omega
  | @deliver side tx rest outcome pending received =>
      have pays : Endpoint.unread outcome.tcbHead.head? + wireSteps outcome.sent + 1 ≤
          Endpoint.unread (s.ends side).tcb + tx.stepsLeft := by
        cases phase with
        | opening stage opening => exact stage.pays opening pending received
        | talking talking current => exact talking.pays current pending received
      have take := stepsLeft_take pending
      have put := stepsLeft_put (s.take side rest) side
        { s.ends side with
          tcb := outcome.tcbHead.head?
          lastWindow := tx.header.windowSz } outcome.sent
      have ends : (s.take side rest).ends side = s.ends side := rfl
      unfold Endpoint.unread at pays
      simp only [Endpoint.stepsLeft, ends] at put
      simp only [effort]
      omega
  | @txReturn side t tcb sending done =>
      have put := stepsLeft_put s side { s.ends side with sending := false } []
      simp only [Endpoint.stepsLeft, sending, Bool.toNat_true, Bool.toNat_false, wireSteps_nil]
        at put
      simp only [effort]
      omega
  | @rxData side len t t' bytes tcb _ popped =>
      have put := stepsLeft_put s side
        { s.ends side with tcb := some t', popped := (s.ends side).popped ++ bytes } []
      have less : (if len = 0 then 0 else 1) ≤ bytes.length := by
        by_cases none : len = 0
        · exact (if_pos none).trans_le (Nat.zero_le _)
        · rcases Option.bind_eq_some_iff.mp taken with ⟨t'', tcb', taken⟩
          cases tcb.symm.trans tcb'
          rw [popped] at taken
          rcases Option.ite_none_right_eq_some.mp taken with ⟨⟨_, ready⟩, _⟩
          exact (if_neg none).trans_le (pos_of_tcpRxDataRound popped ready none)
      rcases tcpRxDataRound_eq_some popped with ⟨rxBuf, rfl, front, _⟩
      have length := congrArg List.length front
      rw [List.length_append] at length
      simp only [Endpoint.stepsLeft, tcb, Option.map_some, Option.getD_some, wireSteps_nil] at put
      simp only [effort]
      omega

/-! ## Nothing left to do -/

/-- A host takes every segment, unless the connection is in `CLOSE_WAIT`. -/
theorem exists_rxPacket {srcIp : UInt32} (open_ : ∀ t, endpoint.tcb = some t →
    t.state ≠ .closeWait) : ∃ outcome, rxPacket endpoint srcIp tx = some outcome := by
  unfold rxPacket rxSegment
  cases tcb : endpoint.tcb with
  | none => exact ⟨_, rfl⟩
  | some t =>
      have found : findTcb [t] srcIp tx.header =
          if t.matchesConnection srcIp tx.header || t.acceptsConnection tx.header then some 0
          else none := by
        by_cases matched : t.matchesConnection srcIp tx.header = true
        · simp [findTcb, matched]
        · by_cases accepts : t.acceptsConnection tx.header = true
          · simp [findTcb, matched, accepts]
          · simp [findTcb, matched, accepts]
      rw [Option.toList_some, found]
      split
      · exact ⟨_, rfl⟩
      · rename_i index at_
        rcases Option.ite_none_right_eq_some.mp at_ with ⟨_, zero⟩
        cases zero
        change ∃ outcome, (rxTcb t _ _ _ _).map _ = some outcome
        rw [rxTcb, if_neg (open_ t tcb)]
        dsimp only
        split
        · exact ⟨_, rfl⟩
        · exact ⟨_, rfl⟩

theorem Pair.Phase.not_closeWait (phase : Phase hosts s) (tcb : (s.ends side).tcb = some t) :
    t.state ≠ .closeWait := by
  have idle (t : Tcb) (state : TcpState) (is : t.state = state) (other : state ≠ .closeWait) :
      t.state ≠ .closeWait := is ▸ other
  cases phase with
  | talking talking _ =>
      rcases talking.speaks side with ⟨t', speaks⟩
      cases tcb.symm.trans speaks.tcb
      rcases speaks.phase with opened | answered
      · exact idle _ _ opened.state (by decide)
      · exact idle _ _ answered.state (by decide)
  | opening stage opening =>
      cases side with
      | connecting =>
          rcases opening t tcb with synSent | closed
          · exact idle _ _ synSent (by decide)
          · exact idle _ _ closed (by decide)
      | listening =>
          have listening (endpoint : Endpoint) (callee : Callee hosts endpoint)
              (found : endpoint.tcb = some t) : t.state ≠ .closeWait := by
            cases callee with
            | idle => exact nomatch found
            | waiting listens =>
                cases found
                rcases listens with ⟨addr, block, size, rfl⟩
                exact nofun
          cases stage with
          | calling _ callee _ | refused _ callee _ => exact listening _ callee tcb
          | answering _ _ _ answering =>
              generalize s.ends .listening = endpoint at answering tcb
              generalize s.wire .listening = segments at answering
              cases answering with
              | waiting answers | woken answers | prepared answers | answered answers =>
                  cases tcb
                  exact idle _ _ answers.state (by decide)
          | talking talking => exact absurd opening (not_opening_of_talking talking)

theorem Pair.Phase.quiet (phase : Phase hosts s) (atRest : AtRest hosts s) (side : Side) :
    s.wire side = [] := by
  have delivered (side : Side) : s.wire side.other = [] := by
    cases pending : s.wire side.other with
    | nil => rfl
    | cons tx rest =>
        have stuck := atRest (.deliver side) trivial Nat.one_ne_zero
        have open_ (t : Tcb) (tcb : (s.ends side).tcb = some t) : t.state ≠ .closeWait :=
          phase.not_closeWait tcb
        have accepted : ∃ outcome, rxPacket (s.ends side) (hosts.ip side.other) tx = some outcome :=
          exists_rxPacket open_
        rcases accepted with ⟨outcome, received⟩
        simp only [Pair.step, pending, received] at stuck
        contradiction
  have both := delivered side.other
  rw [Side.other_other] at both
  exact both

/-- Every thread sleeps. -/
theorem asleep_of_atRest {thread : OpeningThread} (atRest : AtRest hosts s)
    (tcb : (s.ends side).tcb = some t) (position : (s.ends side).thread = some thread) :
    thread.step t = none := by
  have stuck := atRest (.thread side) trivial Nat.one_ne_zero
  cases moved : thread.step t with
  | none => rfl
  | some next => simp [Pair.step, tcb, position, moved] at stuck

theorem Speaks.returned {out inward : Flow UInt8} (atRest : AtRest hosts s)
    (speaks : Speaks hosts side (s.ends side) out inward t) (quiet : inward.wire = []) :
    (s.ends side).thread = some (.returned true) ∧ t.state = .established ∧
      t.curSeqN = place (isn + 1) out.acked := by
  rcases speaks.phase with opened | answered
  · refine ⟨?_, opened.state, opened.curSeqN⟩
    rcases opened.thread with waiting | answering | done
    · have stuck := asleep_of_atRest atRest speaks.tcb waiting
      simp [OpeningThread.step, opened.state] at stuck
    · have stuck := asleep_of_atRest atRest speaks.tcb answering
      simp [OpeningThread.step, opened.state] at stuck
    · exact done
  · rcases answered.next with ⟨rest, next⟩
    exact nomatch quiet.symm.trans next

/-- Everything that arrived was read. -/
theorem read_of_atRest (atRest : AtRest hosts s) (tcb : (s.ends side).tcb = some t)
    (returned : (s.ends side).thread = some (.returned true))
    (established : t.state = .established) : t.rxBuf.contents = [] := by
  by_contra more
  have stuck := atRest (.rxData side 1) trivial Nat.one_ne_zero
  have usage : t.rxBuf.curUsage ≠ 0 := by
    intro none
    have count := t.rxBuf.toNat_curUsage
    rw [none] at count
    exact more (List.length_eq_zero_iff.mp count.symm)
  have open_ : t.state ≠ .closeWait := by
    rw [established]
    decide
  have ready : tcpRxDataReady t = true := by simp [tcpRxDataReady, usage]
  simp [Pair.step, tcb, tcpRxDataRound, open_, returned, ready] at stuck

/-- Equal serial numbers of close positions are those of the same position. -/
theorem eq_of_place_eq {base : UInt32} {first second : Nat} (le : first ≤ second)
    (near : second - first < 2 ^ 32) (same : place base first = place base second) :
    first = second := by
  have gap := place_sub_place base le
  rw [same, UInt32.sub_self] at gap
  have none := congrArg UInt32.toNat gap
  rw [toNat_ofNat near] at none
  have zero : UInt32.toNat 0 = 0 := rfl
  omega

theorem Talking.settled (talking : Talking hosts s flow) (current : s.Current)
    (atRest : AtRest hosts s) : s.Settled := by
  have quiet := (Phase.talking talking current).quiet atRest
  have wire (side : Side) : (flow side).wire = [] := by
    have carried := talking.carried side
    rw [quiet side] at carried
    generalize (flow side).wire = pieces at carried
    generalize (flow side.other).acks = acks at carried
    cases carried
    rfl
  have received (side : Side) : (flow side).received = (flow side).sent := by
    have stream := (talking.sound side).stream
    rw [wire side, List.flatten_nil, List.append_nil] at stream
    exact stream.symm
  refine ⟨quiet, fun side => ?_, fun side => ?_, .inr (.inr fun side => ?_)⟩
  · rcases talking.speaks side with ⟨t, speaks⟩
    rcases talking.there side with ⟨peer, there⟩
    rcases speaks.returned atRest (wire side.other) with ⟨_, _, curSeqN⟩
    have heard := current side t peer speaks.tcb there.tcb
    rw [quiet side.other] at heard
    have same := heard.eq_of_nil
    rw [curSeqN, there.curAckN] at same
    have unacked := speaks.unacked
    have bounded := speaks.bounded
    change _ ≤ 127 at bounded
    have length := congrArg List.length (received side)
    have acked := eq_of_place_eq (talking.sound side).acked_le_received (by omega) same
    have done : t.unackedByteCount = 0 := by
      rw [← UInt32.toNat_inj]
      change _ = 0
      omega
    by_contra sending
    have stuck := atRest (.txReturn side) trivial Nat.one_ne_zero
    simp [Pair.step, speaks.tcb, sending, tcpTxDataDone, done] at stuck
  · rcases talking.speaks side with ⟨t, speaks⟩
    rcases talking.there side with ⟨peer, there⟩
    rcases there.returned atRest (wire side) with ⟨returned, established, _⟩
    have empty := read_of_atRest atRest there.tcb returned established
    have all := there.received
    rw [empty, List.append_nil] at all
    rw [← all, received side, speaks.sent]
  · rcases talking.speaks side with ⟨t, speaks⟩
    exact (speaks.returned atRest (wire side.other)).1

theorem Pair.Stage.settled (stage : Stage hosts s) (opening : Unopened (s.ends .connecting))
    (atRest : AtRest hosts s) : s.Settled := by
  have quiet := (Phase.opening stage opening).quiet atRest
  have silent : ∀ side, Silent (s.ends side) := by
    rcases stage.silent_or_talking with silent | ⟨flow, talking⟩
    · exact silent
    · exact absurd opening (not_opening_of_talking talking)
  refine ⟨quiet, fun side => (silent side).sending, fun side => ?_, ?_⟩
  · have none := (silent side.other).delivered
    rw [(silent side).sent, (List.append_eq_nil_iff.mp none).1]
  · cases stage with
    | calling caller callee _ =>
        left
        have wire := quiet .connecting
        generalize here : s.ends .connecting = endpoint at caller
        generalize s.wire .connecting = segments at caller wire
        cases caller with
        | idle => rfl
        | linked calls =>
            have stuck := asleep_of_atRest atRest (congrArg Endpoint.tcb here)
              (congrArg Endpoint.thread here)
            exact nomatch stuck
        | waiting calls => exact nomatch wire
    | refused refused callee _ =>
        right
        left
        have wire := quiet .listening
        generalize here : s.ends .connecting = endpoint at refused
        generalize s.wire .listening = segments at refused wire
        cases refused with
        | pending calls =>
            rcases calls with ⟨addr, block, size, rfl⟩
            exact nomatch wire
        | closed closed _ =>
            have stuck := asleep_of_atRest atRest (congrArg Endpoint.tcb here)
              (congrArg Endpoint.thread here)
            simp [OpeningThread.step, closed] at stuck
        | freed => rfl
    | answering calls called _ answering =>
        have wire := quiet .listening
        generalize here : s.ends .listening = endpoint at answering
        generalize s.wire .listening = segments at answering wire
        have asleep {thread : OpeningThread} {t : Tcb} (tcb : endpoint.tcb = some t)
            (position : endpoint.thread = some thread) : thread.step t = none :=
          asleep_of_atRest atRest ((congrArg Endpoint.tcb here).trans tcb)
            ((congrArg Endpoint.thread here).trans position)
        cases answering with
        | waiting answers =>
            have stuck := asleep rfl rfl
            simp [OpeningThread.step, answers.state] at stuck
        | woken answers => exact nomatch asleep rfl rfl
        | prepared answers => exact nomatch asleep rfl rfl
        | answered answers => exact nomatch wire
    | talking talking => exact absurd opening (not_opening_of_talking talking)

end

/-- From every state that two hosts can reach with calls of `tcp_tx_data` that are not empty and
within the last window, none of `tcp_close`, and a heap that serves them: once the applications
make no new calls but for reading, the hosts have at most `stepsLeft` steps left, in any order;
and when they have none, every byte that was sent has been read, and neither `tcp_connect`, nor
a `tcp_listen` that was connected to, nor `tcp_tx_data` waits. -/
theorem pair_comes_to_rest {hosts : Addresses} {s after : Pair} {events : List PairEvent}
    (reached : Reachable (Pair.step hosts) Pair.start s)
    (quiet : Guarded (Pair.step hosts) Pair.NoNewCall s events)
    (executed : run (Pair.step hosts) s events = some after) :
    tally (Pair.step hosts) Pair.effort s events + after.stepsLeft ≤ s.stepsLeft ∧
      (Pair.AtRest hosts after → after.Settled) := by
  have phase := Pair.phase_of_reachable reached
  constructor
  · have lowers (state : Pair) (event : PairEvent) (target : Pair) (phase : Pair.Phase hosts state)
        (quiet : state.NoNewCall event) (taken : Pair.step hosts state event = some target) :
        Pair.Phase hosts target ∧ state.effort event + target.stepsLeft ≤ state.stepsLeft :=
      ⟨phase.step taken, phase.lowers quiet taken⟩
    exact tally_le_of_guarded lowers phase quiet executed
  · intro atRest
    have phase' : Pair.Phase hosts after :=
      invariant_of_reachable (fun _ _ _ phase taken => Pair.Phase.step phase taken) phase
        ⟨events, executed⟩
    cases phase' with
    | opening stage opening => exact stage.settled opening atRest
    | talking talking current => exact talking.settled current atRest

/-- Two bytes are under way, and later read and acknowledged. -/
def exampleRest : List PairEvent :=
  [.deliver .listening, .rxData .listening 2, .deliver .connecting, .txReturn .connecting]

theorem pair_comes_to_rest_example :
    ∃ s after, run (Pair.step exampleHosts) Pair.start (exampleRun.take 12) = some s ∧
      run (Pair.step exampleHosts) s exampleRest = some after ∧
      tally (Pair.step exampleHosts) Pair.effort s exampleRest + after.stepsLeft ≤ s.stepsLeft ∧
      (Pair.AtRest exampleHosts after → after.Settled) := by
  refine ⟨_, _, rfl, rfl, ?_⟩
  exact pair_comes_to_rest ⟨exampleRun.take 12, rfl⟩ (by decide) rfl

end Lpc17xx.Tcp
