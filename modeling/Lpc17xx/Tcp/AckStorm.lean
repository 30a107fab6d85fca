import Lpc17xx.Tcp.Established
import Lpc17xx.Tcp.Pair
import Mathlib.Data.List.InsertIdx
import Mathlib.Data.List.Perm.Basic

/-!
# Acknowledgements of acknowledgements

Two open ends, nothing to send, and a number of bare acknowledgements on their
way.  `case ESTABLISHED` answers a segment that carries no payload and moves
`cur_seq_n` by nothing, so an acknowledgement of exactly what the receiver has
sent is answered by another one, which is an acknowledgement of exactly what
its receiver has sent.  Nothing is answered only as long as no two numbers that
an end sees in a row are the same.
-/

namespace Lpc17xx.Tcp

open Lpc17xx.Transition

/-- A segment without payload, SYN, FIN or RST. -/
structure PureAck (tx : TcpTx) : Prop where
  payload : tx.payload = []
  ack : tx.header.ack = true
  syn : tx.header.syn = false
  fin : tx.header.fin = false
  rst : tx.header.rst = false

theorem pureAck_ackHeader (t : Tcb) (destIp : UInt32) : PureAck ⟨t.ackHeader, destIp, []⟩ where
  payload := rfl
  ack := rfl
  syn := rfl
  fin := rfl
  rst := rfl

/-- The acknowledgement number lies between what is acknowledged already and what
was sent.  A segment without payload, SYN and FIN takes no sequence number, so
nothing else about it can be out of place. -/
def Acceptable (t : Tcb) (tx : TcpTx) : Prop :=
  tx.header.ackN - t.curSeqN ≤ t.unackedByteCount

/-- The TCB at each end, and the segments that each end has sent and the other
has not taken yet. -/
structure AckNet where
  ends : Side → Tcb
  wire : Side → List TcpTx

/-- The segment at place `index` among those under way is handed to
`tcp_rx_packet` of `side`. -/
structure Delivery where
  side : Side
  index : Nat

namespace AckNet

/-- `tcp_rx_packet` of one end on a segment of its connection. -/
def rxPacket (t : Tcb) (srcIp : UInt32) (tx : TcpTx) : Option TcbOutcome :=
  rxTcb t srcIp tx.header (fun offset => tx.payload.getD offset 0) (UInt32.ofNat tx.payload.length)

/-- One delivery, in any order.  `ip` are the addresses of the ends. -/
def step (ip : Side → UInt32) : Step AckNet Delivery
  | s, ⟨side, index⟩ => do
      let tx ← (s.wire side.other)[index]?
      let outcome ← rxPacket (s.ends side) (ip side.other) tx
      let t ← outcome.tcb
      some
        { ends := Function.update s.ends side t
          wire := Function.update
            (Function.update s.wire side.other ((s.wire side.other).eraseIdx index))
            side (s.wire side ++ outcome.sent) }

/-- The delivery of an acceptable segment sends nothing. -/
def Quiet (before : AckNet) (delivery : Delivery) (after : AckNet) : Prop :=
  ∀ tx, (before.wire delivery.side.other)[delivery.index]? = some tx →
    Acceptable (before.ends delivery.side) tx →
    after.wire delivery.side = before.wire delivery.side

/-- No acknowledgement storm: no delivery of an acceptable segment sends another
one, and no run of deliveries goes on for ever. -/
def NoStorm (ip : Side → UInt32) (s : AckNet) : Prop :=
  (∀ deliveries, Along (step ip) Quiet s deliveries) ∧
    ∃ bound, ∀ deliveries target,
      run (step ip) s deliveries = some target → deliveries.length ≤ bound

/-- The numbers that the segments under way to `side` acknowledge. -/
def ackNs (s : AckNet) (side : Side) : List UInt32 :=
  (s.wire side.other).map fun tx => tx.header.ackN

/-- Both ends are open, and only bare acknowledgements are under way. -/
structure Idle (s : AckNet) : Prop where
  established : ∀ side, (s.ends side).state = .established
  pure : ∀ side, ∀ tx ∈ s.wire side, PureAck tx

/-- No number is acknowledged twice, and none is the one acknowledged last. -/
def Fresh (s : AckNet) : Prop :=
  ∀ side, ((s.ends side).curSeqN :: s.ackNs side).Nodup

end AckNet

/-- An open TCB after a bare acknowledgement. -/
def Tcb.afterPureAck (t : Tcb) (tx : TcpTx) : Tcb :=
  rxAck t.disarm tx.header

section Receive

variable {t : Tcb} {tx : TcpTx}

/-- A bare acknowledgement is answered exactly when it acknowledges what was
acknowledged before. -/
theorem rxPacket_pureAck (established : t.state = .established) (pure : PureAck tx)
    (srcIp : UInt32) :
    AckNet.rxPacket t srcIp tx = some
      { tcb := some (t.afterPureAck tx)
        sent := if tx.header.ackN = t.curSeqN then
            [⟨(t.afterPureAck tx).ackHeader, srcIp, []⟩] else []
        wakeup := true } := by
  obtain ⟨header, destIp, payload⟩ := tx
  obtain ⟨rfl, ack, _, fin, _⟩ := pure
  change header.ack = true at ack
  change header.fin = false at fin
  let segment : Segment := .ofPayload srcIp header []
  have after : t.afterEstablished segment = t.afterPureAck ⟨header, destIp, []⟩ := by
    change rxPayload (rxFin (rxAck t.disarm header) header) segment.data 0 = rxAck t.disarm header
    simp [rxPayload, rxFin, fin]
  have answers : t.answersEstablished segment = true ↔ header.ackN = t.curSeqN := by
    change (header.fin || (0 : UInt32) ≠ 0 || ((0 : UInt32) = 0 && noAckedBytes t header = 0)) =
      true ↔ _
    simp only [fin, noAckedBytes, ack, if_true, Serial.toInt32_eq_zero_iff, sub_eq_zero]
    simp
  change t.receive segment = _
  rw [receive_established segment established, after]
  simp only [answers]
  rfl

theorem afterPureAck_curSeqN (ack : tx.header.ack = true) :
    (t.afterPureAck tx).curSeqN = tx.header.ackN := by
  simp [Tcb.afterPureAck, rxAck, ack]

theorem afterPureAck_curAckN : (t.afterPureAck tx).curAckN = t.curAckN :=
  rxAck_curAckN t.disarm tx.header

theorem afterPureAck_state : (t.afterPureAck tx).state = t.state := by
  unfold Tcb.afterPureAck rxAck
  split <;> rfl

end Receive

namespace AckNet

section Step

variable {ip : Side → UInt32} {s after : AckNet} {delivery : Delivery}

/-- A delivery takes one segment off the channel, moves the counter of its
receiver to the number acknowledged, and answers it if that is the number
acknowledged before. -/
theorem step_eq_some (idle : s.Idle) (taken : step ip s delivery = some after) :
    ∃ tx, (s.wire delivery.side.other)[delivery.index]? = some tx ∧
      after.ends = Function.update s.ends delivery.side
        ((s.ends delivery.side).afterPureAck tx) ∧
      after.wire delivery.side.other =
        (s.wire delivery.side.other).eraseIdx delivery.index ∧
      after.wire delivery.side = s.wire delivery.side ++
        (if tx.header.ackN = (s.ends delivery.side).curSeqN then
          [⟨((s.ends delivery.side).afterPureAck tx).ackHeader, ip delivery.side.other, []⟩]
        else []) := by
  obtain ⟨side, index⟩ := delivery
  obtain ⟨tx, picked, taken⟩ := Option.bind_eq_some_iff.mp taken
  obtain ⟨outcome, received, taken⟩ := Option.bind_eq_some_iff.mp taken
  obtain ⟨t, kept, taken⟩ := Option.bind_eq_some_iff.mp taken
  have pure := idle.pure side.other tx (List.mem_of_getElem? picked)
  rw [rxPacket_pureAck (idle.established side) pure] at received
  cases received
  cases kept
  cases taken
  exact ⟨tx, picked, rfl, by simp, by simp⟩

/-- Every segment under way can be delivered. -/
theorem step_isSome (idle : s.Idle) {side : Side} {index : Nat} {tx : TcpTx}
    (picked : (s.wire side.other)[index]? = some tx) :
    ∃ after, step ip s ⟨side, index⟩ = some after := by
  have pure := idle.pure side.other tx (List.mem_of_getElem? picked)
  simp only [step, picked, Option.bind_eq_bind, Option.bind_some,
    rxPacket_pureAck (idle.established side) pure]
  exact ⟨_, rfl⟩

theorem Idle.step (idle : s.Idle) (taken : AckNet.step ip s delivery = some after) :
    after.Idle := by
  obtain ⟨tx, picked, ends, taken_, answered⟩ := step_eq_some idle taken
  constructor
  · apply @Side.forall_of (fun each => (after.ends each).state = .established) delivery.side
    · rw [ends, Function.update_self, afterPureAck_state]
      exact idle.established _
    · rw [ends, Function.update_of_ne delivery.side.other_ne]
      exact idle.established _
  · apply @Side.forall_of (fun each => ∀ tx ∈ after.wire each, PureAck tx) delivery.side
    · intro sent member
      rw [answered, List.mem_append] at member
      rcases member with waiting | reply
      · exact idle.pure _ _ waiting
      · split at reply
        · rw [List.mem_singleton.mp reply]
          exact pureAck_ackHeader _ _
        · contradiction
    · intro sent member
      rw [taken_] at member
      exact idle.pure _ _ (List.mem_of_mem_eraseIdx member)

/-- Taking an element out of a list without repetitions leaves it in front of the
rest. -/
theorem nodup_cons_eraseIdx {α : Type} {list : List α} {index : Nat} {entry : α}
    (nodup : list.Nodup) (picked : list[index]? = some entry) :
    (entry :: list.eraseIdx index).Nodup := by
  obtain ⟨inside, rfl⟩ := List.getElem?_eq_some_iff.mp picked
  exact (List.getElem_cons_eraseIdx_perm inside).nodup_iff.mpr nodup

/-- Fresh acknowledgements are not answered and leave fresh ones behind. -/
theorem Fresh.step (fresh : s.Fresh) (idle : s.Idle)
    (taken : AckNet.step ip s delivery = some after) :
    after.wire delivery.side = s.wire delivery.side ∧
      (after.wire delivery.side.other).length + 1 = (s.wire delivery.side.other).length ∧
      after.Fresh := by
  obtain ⟨tx, picked, ends, taken_, answered⟩ := step_eq_some idle taken
  obtain ⟨inside, _⟩ := List.getElem?_eq_some_iff.mp picked
  have pure := idle.pure _ tx (List.mem_of_getElem? picked)
  have pickedAck : (s.ackNs delivery.side)[delivery.index]? = some tx.header.ackN := by
    simp [ackNs, picked]
  obtain ⟨notLast, nodup⟩ := List.nodup_cons.mp (fresh delivery.side)
  have other : tx.header.ackN ≠ (s.ends delivery.side).curSeqN := by
    intro same
    rw [← same] at notLast
    exact notLast (List.mem_of_getElem? pickedAck)
  have quiet : after.wire delivery.side = s.wire delivery.side := by
    rw [answered, if_neg other, List.append_nil]
  refine ⟨quiet, ?_, ?_⟩
  · rw [taken_, List.length_eraseIdx_of_lt inside]
    omega
  · apply @Side.forall_of (fun each => ((after.ends each).curSeqN :: after.ackNs each).Nodup)
      delivery.side
    · have left : after.ackNs delivery.side = (s.ackNs delivery.side).eraseIdx delivery.index := by
        rw [ackNs, taken_, ackNs, List.eraseIdx_map]
      rw [left, ends, Function.update_self, afterPureAck_curSeqN pure.ack]
      exact nodup_cons_eraseIdx nodup pickedAck
    · have same : after.ackNs delivery.side.other = s.ackNs delivery.side.other := by
        rw [ackNs, ackNs, Side.other_other, quiet]
      rw [same, ends, Function.update_of_ne delivery.side.other_ne]
      exact fresh delivery.side.other

end Step

/-- The segments under way. -/
def underWay (s : AckNet) : Nat :=
  (s.wire .connecting).length + (s.wire .listening).length

theorem underWay_eq (s : AckNet) (side : Side) :
    s.underWay = (s.wire side).length + (s.wire side.other).length := by
  cases side with
  | connecting => rfl
  | listening => exact Nat.add_comm _ _

/-- From fresh acknowledgements nothing is answered, and every delivery leaves one
segment less under way. -/
theorem noStorm_of_fresh {ip : Side → UInt32} {s : AckNet} (idle : s.Idle) (fresh : s.Fresh) :
    NoStorm ip s := by
  constructor
  · apply @along_of_invariant _ _ _ (fun s => s.Idle ∧ s.Fresh) _ _ _ _ ⟨idle, fresh⟩
    · rintro s delivery after ⟨idle, fresh⟩ taken
      exact ⟨idle.step taken, (fresh.step idle taken).2.2⟩
    · rintro s delivery after ⟨idle, fresh⟩ taken tx _ _
      exact (fresh.step idle taken).1
  · refine ⟨s.underWay, fun deliveries target executed => ?_⟩
    apply @length_le_of_decreasing _ _ _ (fun s => s.Idle ∧ s.Fresh) underWay _ _ _ _
      ⟨idle, fresh⟩ executed
    rintro s delivery after ⟨idle, fresh⟩ taken
    obtain ⟨same, less, still⟩ := fresh.step idle taken
    refine ⟨⟨idle.step taken, still⟩, ?_⟩
    rw [underWay_eq after delivery.side, underWay_eq s delivery.side, same]
    omega

section Quiet

variable {ip : Side → UInt32} {s : AckNet}

/-- An acknowledgement of what was acknowledged before is acceptable and
answered. -/
theorem curSeqN_not_mem_of_quiet (idle : s.Idle)
    (quiet : ∀ deliveries, Along (step ip) Quiet s deliveries) (side : Side) :
    (s.ends side).curSeqN ∉ s.ackNs side := by
  intro member
  obtain ⟨tx, waiting, stale⟩ := List.mem_map.mp member
  obtain ⟨index, picked⟩ := List.getElem?_of_mem waiting
  obtain ⟨after, taken⟩ := @step_isSome ip _ idle _ _ _ picked
  obtain ⟨silent, _⟩ := quiet [⟨side, index⟩] after taken
  obtain ⟨sent, picked', _, _, answered⟩ := step_eq_some idle taken
  cases picked.symm.trans picked'
  have acceptable : Acceptable (s.ends side) tx := by
    rw [Acceptable, stale, sub_self]
    exact UInt32.zero_le
  have same := silent tx picked acceptable
  rw [same, if_pos stale] at answered
  simp at answered

/-- Where no acceptable segment is ever answered, all acknowledgements are
fresh: the first number under way becomes the one acknowledged last, and must
not come again. -/
theorem fresh_of_quiet (idle : s.Idle) (quiet : ∀ deliveries, Along (step ip) Quiet s deliveries) :
    s.Fresh := by
  intro side
  induction pending : s.ackNs side generalizing s with
  | nil => exact List.nodup_singleton _
  | cons ackN acks ih =>
      have notLast := curSeqN_not_mem_of_quiet idle quiet side
      obtain ⟨tx, rest, wire, first, others⟩ := List.map_eq_cons_iff.mp pending
      have picked : (s.wire side.other)[0]? = some tx := by
        rw [wire]
        rfl
      obtain ⟨after, taken⟩ := @step_isSome ip _ idle _ _ _ picked
      have quietAfter : ∀ deliveries, Along (step ip) Quiet after deliveries :=
        fun deliveries => (quiet (⟨side, 0⟩ :: deliveries) after taken).2
      obtain ⟨sent, picked', ends, left, _⟩ := step_eq_some idle taken
      cases picked.symm.trans picked'
      have pure := idle.pure _ tx (List.mem_of_getElem? picked)
      have acksAfter : after.ackNs side = acks := by
        rw [ackNs, left, wire, ← others]
        rfl
      have nodup := ih (idle.step taken) quietAfter acksAfter
      rw [ends, Function.update_self, afterPureAck_curSeqN pure.ack, first] at nodup
      rw [pending] at notLast
      exact List.nodup_cons.mpr ⟨notLast, nodup⟩

end Quiet

/-- Two open ends with bare acknowledgements under way are free of acknowledgement
storms exactly when no end is sent a number twice, or the one acknowledged
last. -/
theorem noStorm_iff_fresh {ip : Side → UInt32} {s : AckNet} (idle : s.Idle) :
    NoStorm ip s ↔ s.Fresh := by
  constructor
  · intro noStorm
    exact fresh_of_quiet idle noStorm.1
  · exact noStorm_of_fresh idle

/-- Synchronised ends, and an acknowledgement under way to `side` of exactly what
it has sent. -/
structure Storming (s : AckNet) (side : Side) : Prop where
  idle : s.Idle
  synchronised : ∀ each, (s.ends each).curAckN = (s.ends each.other).curSeqN
  stale : (s.ends side).curSeqN ∈ s.ackNs side

section Storm

variable {ip : Side → UInt32} {s : AckNet} {side : Side}

/-- The answer to such an acknowledgement is one for the other side. -/
theorem Storming.step (storming : s.Storming side) :
    ∃ delivery after, AckNet.step ip s delivery = some after ∧ after.Storming side.other := by
  obtain ⟨tx, waiting, stale⟩ := List.mem_map.mp storming.stale
  obtain ⟨index, picked⟩ := List.getElem?_of_mem waiting
  obtain ⟨after, taken⟩ := @step_isSome ip _ storming.idle _ _ _ picked
  obtain ⟨sent, picked', ends, _, answered⟩ := step_eq_some storming.idle taken
  cases picked.symm.trans picked'
  have pure := storming.idle.pure _ tx waiting
  have curSeqN : ∀ each, (after.ends each).curSeqN = (s.ends each).curSeqN := by
    apply @Side.forall_of (fun each => (after.ends each).curSeqN = (s.ends each).curSeqN) side
    · rw [ends, Function.update_self, afterPureAck_curSeqN pure.ack, stale]
    · rw [ends, Function.update_of_ne side.other_ne]
  have curAckN : ∀ each, (after.ends each).curAckN = (s.ends each).curAckN := by
    apply @Side.forall_of (fun each => (after.ends each).curAckN = (s.ends each).curAckN) side
    · rw [ends, Function.update_self, afterPureAck_curAckN]
    · rw [ends, Function.update_of_ne side.other_ne]
  refine ⟨⟨side, index⟩, after, taken, storming.idle.step taken, ?_, ?_⟩
  · intro each
    rw [curAckN, curSeqN]
    exact storming.synchronised each
  · rw [curSeqN, ← storming.synchronised side, ackNs, Side.other_other, answered, if_pos stale]
    simp [Tcb.ackHeader, tcpHeaderPrepopulate, afterPureAck_curAckN]

/-- The storm never ends. -/
theorem Storming.goes_on (storming : s.Storming side) (count : Nat) :
    ∃ deliveries target,
      run (AckNet.step ip) s deliveries = some target ∧ deliveries.length = count := by
  induction count generalizing s side with
  | zero => exact ⟨[], s, rfl, rfl⟩
  | succ count ih =>
      obtain ⟨delivery, after, taken, still⟩ := @Storming.step ip _ _ storming
      obtain ⟨deliveries, target, executed, length⟩ := ih still
      refine ⟨delivery :: deliveries, target, ?_, congrArg (· + 1) length⟩
      rw [run_cons, taken]
      exact executed

theorem Storming.not_noStorm (storming : s.Storming side) : ¬NoStorm ip s := by
  rintro ⟨_, bound, bounded⟩
  obtain ⟨deliveries, target, executed, length⟩ := @Storming.goes_on ip _ _ storming (bound + 1)
  have short := bounded deliveries target executed
  omega

end Storm

/-- The connection of `main`, its peer, and one acknowledgement from the peer of
what `main` has sent. -/
def mainNet : AckNet where
  ends
    | .connecting => mainConnection
    | .listening =>
        { mainConnection with srcPort := 5757, dstPort := 65355, dstIp := 0xc0a800ab }
  wire
    | .connecting => []
    | .listening => [⟨(mainPeerAck 1025).header, 0xc0a800ab, []⟩]

theorem idle_mainNet : mainNet.Idle where
  established := by
    intro side
    cases side <;> rfl
  pure := by
    intro side tx waiting
    cases side with
    | connecting => contradiction
    | listening =>
        rw [List.mem_singleton.mp waiting]
        exact ⟨rfl, rfl, rfl, rfl, rfl⟩

theorem noStorm_iff_fresh_mainNet : NoStorm (fun _ => 0) mainNet ↔ mainNet.Fresh :=
  noStorm_iff_fresh idle_mainNet

/-- One duplicate acknowledgement between two synchronised ends is answered for
ever. -/
theorem mainNet_storms : ¬NoStorm (fun _ => 0) mainNet := by
  have storming : mainNet.Storming .connecting :=
    { idle := idle_mainNet
      synchronised := by
        intro each
        cases each <;> rfl
      stale := List.mem_singleton.mpr rfl }
  exact storming.not_noStorm

end AckNet

end Lpc17xx.Tcp
