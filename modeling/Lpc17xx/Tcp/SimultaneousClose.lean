import Lpc17xx.Tcp.Teardown

/-!
# Simultaneous close

As long as nothing arrives before both calls of `tcp_close` have returned, each
end takes exactly two segments: the FIN of its peer, which leads to `CLOSING`,
and the acknowledgement of its own FIN, which leads to `TIME_WAIT`.  What is
under way is what one end has transmitted less what the other has taken.
-/

namespace Lpc17xx.Tcp

open Lpc17xx.Transition

/-- How far one end has come in a simultaneous close. -/
inductive Phase where
  | established
  | sending
  | finWait1
  | closing
  | timeWait
  | removed
  deriving DecidableEq, Repr

/-- How many segments from the peer an end has taken. -/
def Phase.taken : Phase → Nat
  | .established | .sending | .finWait1 => 0
  | .closing => 1
  | .timeWait | .removed => 2

/-- The TCB belongs to the connection of `start`. -/
structure Tcb.Continues (start t : Tcb) : Prop where
  addr : t.addr = start.addr
  srcPort : t.srcPort = start.srcPort
  dstPort : t.dstPort = start.dstPort
  dstIp : t.dstIp = start.dstIp

theorem Tcb.Continues.tick {start t after : Tcb} (continues : start.Continues t)
    (ticked : tickTcb t = some after) : start.Continues after := by
  rcases tickTcb_frame ticked with ⟨addr, _, _, _, _, _, srcPort, dstPort, dstIp⟩
  exact ⟨addr.trans continues.addr, srcPort.trans continues.srcPort,
    dstPort.trans continues.dstPort, dstIp.trans continues.dstIp⟩

/-- An end in each phase of a simultaneous close that began in `start`. -/
inductive CloseEnd.At (start : Tcb) : Phase → CloseEnd → Prop
  | established {t : Tcb} : start.Continues t → t.state = .established →
      t.curSeqN = start.curSeqN → t.curAckN = start.curAckN →
      At start .established ⟨some t, .pending, false, []⟩
  | sending {t : Tcb} : start.Continues t → t.state = .established →
      t.curSeqN = start.curSeqN →
      At start .sending ⟨some t, .inside .finWait1, false, []⟩
  | finWait1 {t : Tcb} : start.Continues t → t.state = .finWait1 →
      t.curSeqN = start.curSeqN + 1 → At start .finWait1 ⟨some t, .returned, false, []⟩
  | closing {t : Tcb} : start.Continues t → t.state = .closing →
      At start .closing ⟨some t, .returned, false, []⟩
  | timeWait {t : Tcb} : start.Continues t → t.state = .timeWait →
      t.decrementTimeout = true → At start .timeWait ⟨some t, .returned, false, []⟩
  | removed : At start .removed
      ⟨none, .returned, false, [.rxBuf start.addr, .tcb start.addr]⟩

/-- A segment without payload of the connection of `start`. -/
structure TcpTx.From (start : Tcb) (tx : TcpTx) : Prop where
  sourcePort : tx.header.sourcePort = start.srcPort
  destPort : tx.header.destPort = start.dstPort
  payload : tx.payload = []

/-- What an end has transmitted so far: first its FIN, which acknowledges nothing
new, and then the acknowledgement of the other FIN. -/
inductive Said (start : Tcb) : Phase → List TcpTx → Prop
  | nothing : Said start .established []
  | fin {phase : Phase} {fin : TcpTx} : phase = .sending ∨ phase = .finWait1 →
      fin.From start → fin.header.fin = true → fin.header.ackN = start.curAckN →
      Said start phase [fin]
  | both {phase : Phase} {fin ack : TcpTx} :
      phase = .closing ∨ phase = .timeWait ∨ phase = .removed →
      fin.From start → fin.header.fin = true → fin.header.ackN = start.curAckN →
      ack.From start → ack.header.fin = false → Said start phase [fin, ack]

namespace CloseEnd

section At

variable {start : Tcb} {phase : Phase} {e : CloseEnd}

theorem At.going (at_ : e.At start phase) : e.stopped = false := by
  cases at_ <;> rfl

/-- A call of `tcp_close` transmits the FIN. -/
theorem At.close {after : CloseEnd} {fin : TcpTx} (at_ : e.At start phase)
    (called : e.close = some (after, fin)) :
    phase = .established ∧ after.At start .sending ∧ fin.From start ∧
      fin.header.fin = true ∧ fin.header.ackN = start.curAckN := by
  rcases Option.ite_none_right_eq_some.mp called with ⟨pending, called⟩
  cases at_ with
  | @established t continues state curSeqN curAckN =>
      have transmitted : tcpClose t = some (.finWait1, tcpCloseFin t) := by
        simp [tcpClose, state]
      simp only [Option.bind_some, transmitted, Option.map_some] at called
      cases called
      exact ⟨rfl, .sending continues state curSeqN,
        ⟨continues.srcPort, continues.dstPort, rfl⟩, rfl, curAckN⟩
  | sending _ _ _ => contradiction
  | finWait1 _ _ _ => contradiction
  | closing _ _ => contradiction
  | timeWait _ _ _ => contradiction
  | removed => contradiction

theorem At.closeReturn {after : CloseEnd} (at_ : e.At start phase)
    (returned : e.closeReturn = some after) : phase = .sending ∧ after.At start .finWait1 := by
  cases at_ with
  | sending continues state curSeqN =>
      cases returned
      refine ⟨rfl, .finWait1 ?_ rfl (congrArg (· + 1) curSeqN)⟩
      exact ⟨continues.addr, continues.srcPort, continues.dstPort, continues.dstIp⟩
  | established _ _ _ _ => contradiction
  | finWait1 _ _ _ => contradiction
  | closing _ _ => contradiction
  | timeWait _ _ _ => contradiction
  | removed => contradiction

/-- A tick before `TIME_WAIT` changes no more than the timer. -/
theorem tick_of_ne_timeWait {t : Tcb} {state : TcpState} (here : t.state = state)
    (other : state ≠ .timeWait) (call : CloseCall) :
    ∃ after, tickTcb t = some after ∧
      CloseEnd.tick ⟨some t, call, false, []⟩ = ⟨some after, call, false, []⟩ := by
  cases ticked : tickTcb t with
  | none => exact absurd (here.symm.trans (tickTcb_eq_none_iff.mp ticked).2) other
  | some after =>
      refine ⟨after, rfl, ?_⟩
      simp [CloseEnd.tick, ticked, tickTcbFreed]

/-- A tick removes the TCB in `TIME_WAIT` once the timer has run out, and moves
nothing else on. -/
theorem At.tick (at_ : e.At start phase) :
    e.tick.At start phase ∨ phase = .timeWait ∧ e.tick.At start .removed := by
  cases at_ with
  | established continues state curSeqN curAckN =>
      rcases tick_of_ne_timeWait state (by decide) .pending with ⟨after, ticked, same⟩
      rcases tickTcb_frame ticked with ⟨_, state', curSeqN', curAckN', _⟩
      rw [same]
      exact .inl (.established (continues.tick ticked) (state'.trans state)
        (curSeqN'.trans curSeqN) (curAckN'.trans curAckN))
  | sending continues state curSeqN =>
      rcases tick_of_ne_timeWait state (by decide) (.inside .finWait1) with ⟨after, ticked, same⟩
      rcases tickTcb_frame ticked with ⟨_, state', curSeqN', _⟩
      rw [same]
      exact .inl (.sending (continues.tick ticked) (state'.trans state) (curSeqN'.trans curSeqN))
  | finWait1 continues state curSeqN =>
      rcases tick_of_ne_timeWait state (by decide) .returned with ⟨after, ticked, same⟩
      rcases tickTcb_frame ticked with ⟨_, state', curSeqN', _⟩
      rw [same]
      exact .inl (.finWait1 (continues.tick ticked) (state'.trans state) (curSeqN'.trans curSeqN))
  | closing continues state =>
      rcases tick_of_ne_timeWait state (by decide) .returned with ⟨after, ticked, same⟩
      rcases tickTcb_frame ticked with ⟨_, state', _⟩
      rw [same]
      exact .inl (.closing (continues.tick ticked) (state'.trans state))
  | @timeWait t continues state armed =>
      by_cases zero : t.timeout = 0
      · have ticked := tickTcb_of_timeWait ⟨armed, zero⟩ state
        have removed : CloseEnd.tick ⟨some t, .returned, false, []⟩ =
            ⟨none, .returned, false, [.rxBuf start.addr, .tcb start.addr]⟩ := by
          simp [CloseEnd.tick, ticked, tickTcbFreed, continues.addr]
        rw [removed]
        exact .inr ⟨rfl, .removed⟩
      · have ticked := tickTcb_of_running armed zero
        have running : CloseEnd.tick ⟨some t, .returned, false, []⟩ =
            ⟨some { t with timeout := t.timeout - 1 }, .returned, false, []⟩ := by
          simp [CloseEnd.tick, ticked, tickTcbFreed]
        rw [running]
        exact .inl (.timeWait (continues.tick ticked) state armed)
  | removed => exact .inl .removed

/-- In `FIN_WAIT1` a FIN that does not acknowledge the own one leads to `CLOSING`,
and is acknowledged. -/
theorem At.rxPacket_finWait1 {srcIp : UInt32} {fin : TcpTx} (at_ : e.At start .finWait1)
    (bare : fin.payload = []) (isFin : fin.header.fin = true)
    (old : fin.header.ackN = start.curSeqN)
    (found : ∀ t, start.Continues t → t.matchesConnection srcIp fin.header = true) :
    (e.rxPacket srcIp fin).1.At start .closing ∧
      ∃ ack, (e.rxPacket srcIp fin).2 = [ack] ∧ ack.From start ∧ ack.header.fin = false := by
  have receives := receives_rxPacket e srcIp bare
  generalize e.rxPacket srcIp fin = outcome at receives
  cases at_ with
  | @finWait1 t continues state curSeqN =>
      have chosen : selected [t] (fin.bare srcIp) = some t :=
        selected_of_matches (found t continues)
      cases receives with
      | nobody _ nobody => exact absurd chosen (by simp [nobody t rfl])
      | trapped linked closeWait =>
          cases linked
          rw [state] at closeWait
          contradiction
      | heard linked _ =>
          cases linked
          have notOwn : ¬((fin.bare srcIp).header.ack = true ∧
              (fin.bare srcIp).header.ackN = t.curSeqN) := by
            rintro ⟨_, ackN⟩
            rw [curSeqN] at ackN
            have same : start.curSeqN = start.curSeqN + 1 := old.symm.trans ackN
            grind
          have after : t.after (fin.bare srcIp) =
              { t.disarm with curAckN := t.curAckN + 1, state := .closing } := by
            have isFinHere : (fin.bare srcIp).header.fin = true := isFin
            simp only [Tcb.after, state, Tcb.afterFinWait1]
            rw [if_neg (by simpa using notOwn), if_pos isFinHere]
          constructor
          · change CloseEnd.At start .closing ⟨some (t.after (fin.bare srcIp)), _, _, _⟩
            rw [after]
            exact .closing ⟨continues.addr, continues.srcPort, continues.dstPort,
              continues.dstIp⟩ rfl
          · have isFinHere : (fin.bare srcIp).header.fin = true := isFin
            refine ⟨⟨(t.after (fin.bare srcIp)).ackHeader, srcIp, []⟩, ?_, ?_⟩
            · simp only [Tcb.answer, state, isFinHere, if_true]
              rfl
            · rw [after]
              exact ⟨⟨continues.srcPort, continues.dstPort, rfl⟩, rfl⟩

/-- In `CLOSING` every segment leads to `TIME_WAIT`. -/
theorem At.rxPacket_closing {srcIp : UInt32} {ack : TcpTx} (at_ : e.At start .closing)
    (bare : ack.payload = [])
    (found : ∀ t, start.Continues t → t.matchesConnection srcIp ack.header = true) :
    (e.rxPacket srcIp ack).1.At start .timeWait ∧ (e.rxPacket srcIp ack).2 = [] := by
  have receives := receives_rxPacket e srcIp bare
  generalize e.rxPacket srcIp ack = outcome at receives
  cases at_ with
  | @closing t continues state =>
      have chosen : selected [t] (ack.bare srcIp) = some t :=
        selected_of_matches (found t continues)
      cases receives with
      | nobody _ nobody => exact absurd chosen (by simp [nobody t rfl])
      | trapped linked closeWait =>
          cases linked
          rw [state] at closeWait
          contradiction
      | heard linked _ =>
          cases linked
          have after : t.after (ack.bare srcIp) = t.afterClosing (ack.bare srcIp) := by
            simp only [Tcb.after, state]
          constructor
          · change CloseEnd.At start .timeWait ⟨some (t.after (ack.bare srcIp)), _, _, _⟩
            rw [after]
            exact .timeWait ⟨continues.addr, continues.srcPort, continues.dstPort,
              continues.dstIp⟩ rfl rfl
          · simp only [Tcb.answer, state]

theorem At.of_pending (at_ : e.At start phase) (pending : e.call = .pending) :
    phase = .established := by
  cases at_ with
  | established _ _ _ _ => rfl
  | sending _ _ _ => cases pending
  | finWait1 _ _ _ => cases pending
  | closing _ _ => cases pending
  | timeWait _ _ _ => cases pending
  | removed => cases pending

/-- An end whose `tcp_close` has not returned is open and has taken nothing. -/
theorem At.early (at_ : e.At start phase) (early : e.call ≠ .returned) :
    phase.taken = 0 ∧ ∃ t, e.tcb = some t ∧ start.Continues t ∧ t.state = .established := by
  cases at_ with
  | established continues state _ _ => exact ⟨rfl, _, rfl, continues, state⟩
  | sending continues state _ => exact ⟨rfl, _, rfl, continues, state⟩
  | finWait1 _ _ _ => exact absurd rfl early
  | closing _ _ => exact absurd rfl early
  | timeWait _ _ _ => exact absurd rfl early
  | removed => exact absurd rfl early

end At

end CloseEnd

/-- How many segments an end has transmitted. -/
def Phase.transmitted : Phase → Nat
  | .established => 0
  | .sending | .finWait1 => 1
  | .closing | .timeWait | .removed => 2

theorem Said.length_eq {start : Tcb} {now : Phase} {transmitted : List TcpTx}
    (said : Said start now transmitted) : transmitted.length = now.transmitted := by
  cases said with
  | nothing => rfl
  | fin early _ _ _ => rcases early with rfl | rfl <;> rfl
  | both late _ _ _ _ _ => rcases late with rfl | rfl | rfl <;> rfl

theorem Said.bare {start : Tcb} {now : Phase} {transmitted : List TcpTx}
    (said : Said start now transmitted) : ∀ tx ∈ transmitted, tx.payload = [] := by
  cases said with
  | nothing => exact List.forall_mem_nil _
  | fin _ from_ _ _ => exact List.forall_mem_singleton.mpr from_.payload
  | both _ from_ _ _ acks _ =>
      exact List.forall_mem_cons.mpr
        ⟨from_.payload, List.forall_mem_singleton.mpr acks.payload⟩

/-- Only the first segment is a FIN. -/
theorem Said.noFin {start : Tcb} {now : Phase} {transmitted : List TcpTx}
    (said : Said start now transmitted) : ∀ tx ∈ transmitted.drop 1, tx.header.fin = false := by
  cases said with
  | nothing => exact List.forall_mem_nil _
  | fin _ _ _ _ => exact List.forall_mem_nil _
  | both _ _ _ _ _ plain => exact List.forall_mem_singleton.mpr plain

theorem Said.length_le {start : Tcb} {now : Phase} {transmitted : List TcpTx}
    (said : Said start now transmitted) : transmitted.length ≤ 2 := by
  rw [said.length_eq]
  cases now <;> decide

/-- A segment of the peer's connection is for this end's TCB. -/
theorem Synchronised.matches_ {ip : Side → UInt32} {t : Side → Tcb} (sync : Synchronised ip t)
    {side : Side} {tx : TcpTx} (from_ : tx.From (t side.other)) {u : Tcb}
    (continues : (t side).Continues u) :
    u.matchesConnection (ip side.other) tx.header = true := by
  have here := sync.ports side
  have there := sync.ports side.other
  rw [Side.other_other] at there
  simp [Tcb.matchesConnection, from_.sourcePort, from_.destPort, continues.srcPort,
    continues.dstPort, continues.dstIp, here, there, sync.peer side]

namespace Teardown

/-- A simultaneous close so far. -/
structure Orderly (t : Side → Tcb) (s : Teardown) (phase : Side → Phase)
    (history : Side → List TcpTx) : Prop where
  ends : ∀ side, (s.ends side).At (t side) (phase side)
  said : ∀ side, Said (t side) (phase side) (history side)
  taken : ∀ side, (phase side.other).taken ≤ (history side).length
  wire : ∀ side, s.wire side = (history side).drop (phase side.other).taken

theorem orderly_start {t : Side → Tcb} {ip : Side → UInt32} (sync : Synchronised ip t) :
    Orderly t (start t) (fun _ => .established) (fun _ => []) where
  ends side := .established ⟨rfl, rfl, rfl, rfl⟩ (sync.established side) rfl rfl
  said _ := .nothing
  taken _ := Nat.le_refl 0
  wire _ := rfl

section Move

variable {t : Side → Tcb} {s : Teardown} {phase : Side → Phase} {history : Side → List TcpTx}

theorem move_ends_self {side : Side} {e : CloseEnd} {rest sent : List TcpTx} :
    (s.move side e rest sent).ends side = e := by
  simp [move]

theorem move_ends_other {side : Side} {e : CloseEnd} {rest sent : List TcpTx} :
    (s.move side e rest sent).ends side.other = s.ends side.other := by
  simp [move]

theorem move_wire_self {side : Side} {e : CloseEnd} {rest sent : List TcpTx} :
    (s.move side e rest sent).wire side = s.wire side ++ sent := by
  simp [move]

theorem move_wire_other {side : Side} {e : CloseEnd} {rest sent : List TcpTx} :
    (s.move side e rest sent).wire side.other = rest := by
  simp [move]

/-- One end moves on to a phase, having taken and transmitted what belongs to
it. -/
theorem Orderly.move (orderly : Orderly t s phase history) (side : Side) {e : CloseEnd}
    {next : Phase} {rest sent : List TcpTx} (at_ : e.At (t side) next)
    (said : Said (t side) next (history side ++ sent))
    (taken : next.taken ≤ (history side.other).length)
    (left : rest = (history side.other).drop next.taken) :
    Orderly t (s.move side e rest sent) (Function.update phase side next)
      (Function.update history side (history side ++ sent)) := by
  constructor
  · apply @Side.forall_of (fun each => ((s.move side e rest sent).ends each).At (t each)
      (Function.update phase side next each)) side
    · rw [move_ends_self, Function.update_self]
      exact at_
    · rw [move_ends_other, Function.update_of_ne side.other_ne]
      exact orderly.ends _
  · apply @Side.forall_of (fun each => Said (t each) (Function.update phase side next each)
      (Function.update history side (history side ++ sent) each)) side
    · rw [Function.update_self, Function.update_self]
      exact said
    · rw [Function.update_of_ne side.other_ne, Function.update_of_ne side.other_ne]
      exact orderly.said _
  · apply @Side.forall_of (fun each => (Function.update phase side next each.other).taken ≤
      (Function.update history side (history side ++ sent) each).length) side
    · rw [Function.update_self, Function.update_of_ne side.other_ne, List.length_append]
      exact Nat.le_add_right_of_le (orderly.taken side)
    · rw [Side.other_other, Function.update_self, Function.update_of_ne side.other_ne]
      exact taken
  · apply @Side.forall_of (fun each => (s.move side e rest sent).wire each =
      (Function.update history side (history side ++ sent) each).drop
        (Function.update phase side next each.other).taken) side
    · rw [move_wire_self, Function.update_self, Function.update_of_ne side.other_ne,
        List.drop_append_of_le_length (orderly.taken side), orderly.wire side]
    · rw [move_wire_other, Side.other_other, Function.update_self,
        Function.update_of_ne side.other_ne]
      exact left

section Step

variable {ip : Side → UInt32} {after : Teardown}

theorem Orderly.close {side : Side} (orderly : Orderly t s phase history)
    (taken : Teardown.step ip s (.close side) = some after) :
    ∃ phase history, Orderly t after phase history := by
  rcases Option.ite_none_left_eq_some.mp taken with ⟨_, taken⟩
  rcases Option.map_eq_some_iff.mp taken with ⟨⟨e, fin⟩, called, rfl⟩
  rcases (orderly.ends side).close called with ⟨open_, at_, from_, isFin, ackN⟩
  have said := orderly.said side
  have bound := orderly.taken side.other
  have wire := orderly.wire side.other
  rw [Side.other_other, open_] at bound wire
  rw [open_] at said
  generalize fresh : history side = before at said
  cases said with
  | fin late _ _ _ => simp at late
  | both late _ _ _ _ _ => simp at late
  | nothing =>
      refine ⟨_, _, orderly.move side at_ ?_ bound wire⟩
      rw [fresh]
      exact .fin (.inl rfl) from_ isFin ackN

theorem Orderly.closeReturn {side : Side} (orderly : Orderly t s phase history)
    (taken : Teardown.step ip s (.closeReturn side) = some after) :
    ∃ phase history, Orderly t after phase history := by
  rcases Option.ite_none_left_eq_some.mp taken with ⟨_, taken⟩
  rcases Option.map_eq_some_iff.mp taken with ⟨e, returned, rfl⟩
  rcases (orderly.ends side).closeReturn returned with ⟨sending, at_⟩
  have said := orderly.said side
  have bound := orderly.taken side.other
  have wire := orderly.wire side.other
  rw [Side.other_other, sending] at bound wire
  rw [sending] at said
  refine ⟨_, _, orderly.move side at_ ?_ bound wire⟩
  rw [List.append_nil]
  generalize history side = before at said
  cases said with
  | fin _ from_ isFin ackN => exact .fin (.inr rfl) from_ isFin ackN
  | both late _ _ _ _ _ => simp at late

theorem Orderly.tick {side : Side} (orderly : Orderly t s phase history)
    (taken : Teardown.step ip s (.tick side) = some after) :
    ∃ phase history, Orderly t after phase history := by
  rcases Option.ite_none_left_eq_some.mp taken with ⟨_, taken⟩
  cases taken
  have said := orderly.said side
  have bound := orderly.taken side.other
  have wire := orderly.wire side.other
  rw [Side.other_other] at bound wire
  rcases (orderly.ends side).tick with same | ⟨timeWait, gone⟩
  · refine ⟨_, _, orderly.move side same ?_ bound wire⟩
    rw [List.append_nil]
    exact said
  · rw [timeWait] at said bound wire
    refine ⟨_, _, orderly.move side gone ?_ bound wire⟩
    rw [List.append_nil]
    generalize history side = before at said
    cases said with
    | fin early _ _ _ => simp at early
    | both _ from_ isFin ackN acks plain =>
        exact .both (.inr (.inr rfl)) from_ isFin ackN acks plain

/-- The first segment that an end takes is the FIN of its peer. -/
theorem Orderly.head_of_untaken {side : Side} {tx : TcpTx} {rest : List TcpTx}
    (orderly : Orderly t s phase history) (untaken : (phase side).taken = 0)
    (wire : s.wire side.other = tx :: rest) :
    tx.From (t side.other) ∧ tx.header.fin = true ∧
      tx.header.ackN = (t side.other).curAckN := by
  have left := orderly.wire side.other
  rw [Side.other_other, untaken, List.drop_zero, wire] at left
  have said := orderly.said side.other
  rw [← left] at said
  generalize phase side.other = there at said
  cases said with
  | fin _ from_ isFin ackN => exact ⟨from_, isFin, ackN⟩
  | both _ from_ isFin ackN _ _ => exact ⟨from_, isFin, ackN⟩

/-- The second is the acknowledgement of its own FIN. -/
theorem Orderly.head_of_taken {side : Side} {tx : TcpTx} {rest : List TcpTx}
    (orderly : Orderly t s phase history) (taken : (phase side).taken = 1)
    (wire : s.wire side.other = tx :: rest) : tx.From (t side.other) ∧ rest = [] := by
  have left := orderly.wire side.other
  rw [Side.other_other, taken, wire] at left
  have said := orderly.said side.other
  generalize phase side.other = there at said
  generalize history side.other = transmitted at said left
  cases said with
  | nothing => cases left
  | fin _ _ _ _ => cases left
  | both _ _ _ _ acks _ =>
      cases left
      exact ⟨acks, rfl⟩

theorem Orderly.deliver {side : Side} (sync : Synchronised ip t)
    (orderly : Orderly t s phase history) (returned : (s.ends side).call = .returned)
    (taken : Teardown.step ip s (.deliver side) = some after) :
    ∃ phase history, Orderly t after phase history := by
  simp only [Teardown.step] at taken
  split at taken
  · contradiction
  · rename_i tx rest wire
    have at_ := orderly.ends side
    rw [at_.going, if_neg Bool.false_ne_true] at taken
    cases taken
    have said := orderly.said side
    have bound := orderly.taken side.other
    have left := orderly.wire side.other
    rw [Side.other_other] at bound left
    cases now : phase side with
    | established =>
        rw [now] at at_
        generalize s.ends side = e at at_ returned
        cases at_
        cases returned
    | sending =>
        rw [now] at at_
        generalize s.ends side = e at at_ returned
        cases at_
        cases returned
    | finWait1 =>
        rcases orderly.head_of_untaken (by rw [now]; rfl) wire with ⟨from_, isFin, ackN⟩
        have old : tx.header.ackN = (t side).curSeqN := by
          rw [ackN, sync.numbers side.other, Side.other_other]
        rw [now] at at_ said left
        obtain ⟨closing, ack, sent, acks, plain⟩ := at_.rxPacket_finWait1 from_.payload isFin old
          (fun u continues => sync.matches_ from_ continues)
        have transmitted : history side.other = tx :: rest := left.symm.trans wire
        refine ⟨_, _, orderly.move side closing ?_ ?_ ?_⟩
        · rw [sent]
          generalize history side = before at said
          cases said with
          | fin _ from_ isFin ackN => exact .both (.inl rfl) from_ isFin ackN acks plain
          | both late _ _ _ _ _ => simp at late
        · rw [transmitted]
          exact Nat.le_add_left 1 rest.length
        · rw [transmitted]
          rfl
    | closing =>
        rcases orderly.head_of_taken (by rw [now]; rfl) wire with ⟨from_, last⟩
        rw [now] at at_ said left bound
        obtain ⟨timeWait, sent⟩ := at_.rxPacket_closing from_.payload
          (fun u continues => sync.matches_ from_ continues)
        have two : (history side.other).length = 2 := by
          have shape := congrArg List.length (left.symm.trans wire)
          rw [List.length_drop, last] at shape
          change (history side.other).length - 1 = 1 at shape
          omega
        refine ⟨_, _, orderly.move side timeWait ?_ (Nat.le_of_eq two.symm) ?_⟩
        · rw [sent, List.append_nil]
          generalize history side = before at said
          cases said with
          | fin early _ _ _ => simp at early
          | both _ from_ isFin ackN acks plain =>
              exact .both (.inr (.inl rfl)) from_ isFin ackN acks plain
        · rw [last]
          exact (List.drop_eq_nil_of_le (Nat.le_of_eq two)).symm
    | timeWait =>
        rw [now, wire] at left
        have exhausted := List.drop_eq_nil_of_le (orderly.said side.other).length_le
        exact absurd (left.trans exhausted) (List.cons_ne_nil tx rest)
    | removed =>
        rw [now, wire] at left
        have exhausted := List.drop_eq_nil_of_le (orderly.said side.other).length_le
        exact absurd (left.trans exhausted) (List.cons_ne_nil tx rest)

theorem Orderly.bare (orderly : Orderly t s phase history) (side : Side) :
    ∀ tx ∈ s.wire side, tx.payload = [] := by
  intro tx waiting
  rw [orderly.wire side] at waiting
  exact (orderly.said side).bare tx (List.mem_of_mem_drop waiting)

/-- As long as nothing arrives before both calls have returned, the close goes on
as a simultaneous one. -/
theorem Orderly.step {event : TeardownEvent} (sync : Synchronised ip t)
    (orderly : Orderly t s phase history) (afterClose : s.AfterClose event)
    (taken : Teardown.step ip s event = some after) :
    ∃ phase history, Orderly t after phase history := by
  cases event with
  | close side => exact orderly.close taken
  | closeReturn side => exact orderly.closeReturn taken
  | deliver side => exact orderly.deliver sync afterClose taken
  | tick side => exact orderly.tick taken

/-- A simultaneous close that has ended has freed both ends. -/
theorem Orderly.freed (orderly : Orderly t s phase history) (ended : s.Ended) : s.Freed t := by
  have through : ∀ side, (phase side).transmitted ≤ (phase side.other).taken := by
    intro side
    have left := (orderly.wire side).symm.trans (ended.delivered side)
    rw [← (orderly.said side).length_eq]
    exact List.drop_eq_nil_iff.mp left
  have late : ∀ side, phase side = .finWait1 ∨ phase side = .closing ∨ phase side = .removed := by
    intro side
    have at_ := orderly.ends side
    have returned : (s.ends side).call = .returned := by
      rcases ended.closed side with returned | stopped
      · exact returned
      · exact absurd (at_.going.symm.trans stopped) Bool.false_ne_true
    have expired := ended.expired side
    generalize s.ends side = e at at_ returned expired
    generalize phase side = now at at_
    cases at_ with
    | established _ _ _ _ => cases returned
    | sending _ _ _ => cases returned
    | finWait1 _ _ _ => exact .inl rfl
    | closing _ _ => exact .inr (.inl rfl)
    | timeWait _ timeWait armed =>
        exact absurd ((expired _ rfl timeWait).symm.trans armed) Bool.false_ne_true
    | removed => exact .inr (.inr rfl)
  intro side
  have removed : phase side = .removed := by
    have here := through side
    have there := through side.other
    rw [Side.other_other] at there
    rcases late side with now | now | now <;> rcases late side.other with other | other | other
    all_goals
      rw [now, other] at here there
      simp_all [Phase.transmitted, Phase.taken]
  have at_ := orderly.ends side
  rw [removed] at at_
  generalize s.ends side = e at at_
  cases at_
  exact ⟨rfl, rfl⟩

end Step

end Move

end Teardown

end Lpc17xx.Tcp
