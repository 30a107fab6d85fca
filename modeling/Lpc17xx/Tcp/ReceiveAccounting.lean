import Lpc17xx.Tcp.Receiver

/-!
# What is acknowledged is what is stored

The push into the receive buffer is all-or-nothing and silent, and the
acknowledgement number advances past payload and FIN either way.  So every
position covered by an acknowledgement holds a stored byte, or the FIN, exactly
as long as every payload and every FIN arrives at the position acknowledged so
far and every payload fits into the free space.
-/

namespace Lpc17xx.Tcp

open Lpc17xx.Cbuf
open Lpc17xx.Serial
open Lpc17xx.Transition

namespace Receiver

/-- `cur_ack_n` advances by the number of bytes appended to `rx_buf`, and by one
more for a FIN whose data was stored. -/
def AdvanceIsStored (before : Tcb) (segment : Segment) (after : Tcb) : Prop :=
  after.curAckN = before.curAckN + UInt32.ofNat (appended before after).length +
    if segment.header.fin ∧ appended before after = segment.payload then 1 else 0

/-- The number of sequence numbers acknowledged: the bytes, and the FIN. -/
def ackedNumbers (s : Receiver) : Nat :=
  s.acked + if s.finAt.isSome then 1 else 0

/-- What a step of the receive side has to respect: an in-order segment moves
the acknowledgement number by what was stored, every acknowledgement transmitted
is the number of positions acknowledged, and each of these positions is that of
a stored byte or of the FIN. -/
structure Covered (base : UInt32) (before : Receiver) (event : ReceiverEvent)
    (after : Receiver) : Prop where
  advance : ∀ offset segment, event = .rx offset segment →
    segment.header.seqN = before.tcb.curAckN → AdvanceIsStored before.tcb segment after.tcb
  acknowledges : ∀ offset segment outcome, event = .rx offset segment →
    before.tcb.receive segment = some outcome → ∀ tx ∈ outcome.sent,
      tx.header.ackN = place base after.ackedNumbers
  covered : ∀ position < after.ackedNumbers,
    position ∈ after.positions ∨ after.finAt = some position

/-- Payload and FIN arrive at the position acknowledged so far, and the payload
fits into the free space of `rx_buf`. -/
def InOrderAndFits (s : Receiver) : ReceiverEvent → Prop
  | .rx offset segment =>
      (segment.payload ≠ [] → offset = s.acked ∧ s.Fits segment) ∧
        (segment.header.fin → offset = s.acked)
  | .rxData _ => True

/-- While the connection is established the bytes stored are those
acknowledged. -/
structure Inv (base : UInt32) (s : Receiver) : Prop where
  positions : s.positions = List.range s.acked
  curAckN : s.tcb.curAckN = place base s.ackedNumbers
  finAt : s.finAt = none ∨ s.finAt = some s.acked
  open_ : s.tcb.state = .established → s.finAt = none

theorem Inv.start (t : Tcb) : Inv t.curAckN (start t) where
  positions := rfl
  curAckN := by simp [Receiver.start, ackedNumbers]
  finAt := .inl rfl
  open_ := fun _ => rfl

/-- The invariant leaves no acknowledged position without its byte. -/
theorem Inv.covered {base : UInt32} {s : Receiver} (inv : Inv base s) {position : Nat}
    (acknowledged : position < s.ackedNumbers) :
    position ∈ s.positions ∨ s.finAt = some position := by
  rw [inv.positions, List.mem_range]
  rcases inv.finAt with none_ | some_
  · left
    simpa [ackedNumbers, none_] using acknowledged
  · have below : position < s.acked + 1 := by
      simpa [ackedNumbers, some_] using acknowledged
    rcases Nat.lt_succ_iff_lt_or_eq.mp below with less | equal
    · exact .inl less
    · right
      rw [some_, equal]

section Advance

variable {t : Tcb} {segment : Segment}

/-- A payload that fits moves the acknowledgement number by what was stored. -/
theorem advanceIsStored_of_fits (fits : segment.payload.length ≤ t.rxBuf.curCapacity.toNat) :
    AdvanceIsStored t segment (t.afterEstablished segment) := by
  rw [AdvanceIsStored, appended_of_fits fits, afterEstablished_curAckN, Segment.ofNat_length]
  simp only [and_true]
  grind

/-- The acknowledgement number moves with the positions acknowledged. -/
theorem curAckN_afterEstablished {base : UInt32} {acked : Nat}
    (ackN : t.curAckN = place base acked) :
    (t.afterEstablished segment).curAckN =
      place base (acked + segment.payload.length + if segment.header.fin then 1 else 0) := by
  rw [afterEstablished_curAckN, ackN, place_add, place_add, Segment.ofNat_length]
  split
  · change _ = _ + segment.dataLen + 1
    grind
  · change _ = _ + segment.dataLen + 0
    grind

end Advance

section Step

variable {base : UInt32} {s after : Receiver}

/-- After any segment in `ESTABLISHED` the acknowledgement number is the number
of positions acknowledged. -/
theorem Inv.curAckN_step {offset : Nat} {segment : Segment} (inv : Inv base s)
    (taken : step base s (.rx offset segment) = some after) :
    after.tcb.curAckN = place base after.ackedNumbers := by
  rcases step_rx taken with ⟨established, _, rfl⟩
  have noFin := inv.open_ established
  have ackN := inv.curAckN
  rw [ackedNumbers, noFin] at ackN
  change (s.tcb.afterEstablished segment).curAckN = _
  rw [curAckN_afterEstablished ackN]
  simp only [ackedNumbers, noFin, Option.isSome_none, Bool.false_eq_true, if_false,
    Nat.add_zero]
  split <;> rfl

/-- An event in order and with room keeps the invariant. -/
theorem Inv.step {event : ReceiverEvent} (inv : Inv base s) (inOrder : s.InOrderAndFits event)
    (taken : step base s event = some after) : Inv base after := by
  cases event with
  | rx offset segment =>
      have ackN := inv.curAckN_step taken
      rcases step_rx taken with ⟨established, _, rfl⟩
      have noFin := inv.open_ established
      refine ⟨?_, ackN, ?_, ?_⟩
      · change s.positions ++ List.range' offset _ = List.range (s.acked + segment.payload.length)
        rw [inv.positions, List.range_eq_range', List.range_eq_range']
        by_cases empty : segment.payload = []
        · have nothing : appended s.tcb (s.tcb.afterEstablished segment) = segment.payload :=
            appended_of_fits (by simp [empty])
          simp [nothing, empty]
        · rcases inOrder.1 empty with ⟨rfl, fits⟩
          have joined : List.range' 0 s.acked ++ List.range' (0 + s.acked) segment.payload.length =
              List.range' 0 (s.acked + segment.payload.length) := List.range'_append_1
          rw [Nat.zero_add] at joined
          rw [appended_of_fits fits, joined]
      · change (if segment.header.fin then some (offset + segment.payload.length)
          else s.finAt) = none ∨ _
        split
        · rename_i fin
          right
          rw [inOrder.2 fin]
        · exact .inl noFin
      · intro stillOpen
        change (s.tcb.afterEstablished segment).state = .established at stillOpen
        change (if segment.header.fin then _ else s.finAt) = none
        rw [afterEstablished_state] at stillOpen
        split at stillOpen
        · contradiction
        · rename_i fin
          rw [if_neg fin]
          exact noFin
  | rxData len =>
      rcases step_rxData taken with ⟨_, _, _, ackN, state, positions, acked, finAt⟩
      have numbers : after.ackedNumbers = s.ackedNumbers := by
        rw [ackedNumbers, ackedNumbers, acked, finAt]
      refine ⟨?_, ?_, ?_, ?_⟩
      · rw [positions, acked]
        exact inv.positions
      · rw [ackN, numbers]
        exact inv.curAckN
      · rw [finAt, acked]
        exact inv.finAt
      · rw [state, finAt]
        exact inv.open_

/-- A step that keeps the invariant acknowledges stored bytes only. -/
theorem covered_of_inOrder {event : ReceiverEvent} (inv : Inv base s)
    (inOrder : s.InOrderAndFits event) (taken : Receiver.step base s event = some after) :
    Covered base s event after where
  advance := by
    rintro offset segment rfl _
    rcases step_rx taken with ⟨_, _, rfl⟩
    apply advanceIsStored_of_fits
    by_cases empty : segment.payload = []
    · simp [empty]
    · exact (inOrder.1 empty).2
  acknowledges := by
    rintro offset segment outcome rfl received tx txMem
    have ackN := inv.curAckN_step taken
    rcases step_rx taken with ⟨established, _, rfl⟩
    rw [receive_established segment established] at received
    cases received
    change tx ∈ (if s.tcb.answersEstablished segment then _ else _) at txMem
    split at txMem
    · rw [List.mem_singleton.mp txMem]
      exact ackN
    · contradiction
  covered := fun _ acknowledged => (inv.step inOrder taken).covered acknowledged

/-- A segment out of order or without room leaves an acknowledged position
without its byte. -/
theorem inOrder_of_covered {event : ReceiverEvent} (inv : Inv base s)
    (taken : Receiver.step base s event = some after) (covered : Covered base s event after) :
    s.InOrderAndFits event := by
  cases event with
  | rxData len => trivial
  | rx offset segment =>
      rcases step_rx taken with ⟨established, _, rfl⟩
      have noFin := inv.open_ established
      have positions := inv.positions
      have holds := covered.covered
      have appendedLe := appended_length_le s.tcb segment
      simp only [ackedNumbers, positions, noFin, List.mem_append, List.mem_range,
        List.mem_range'_1] at holds
      by_cases fin : segment.header.fin
      · -- The FIN takes the last position; every position before it needs its byte.
        simp only [fin, if_true, Option.isSome_some, Option.some.injEq] at holds
        have first := holds s.acked (by omega)
        have last := holds (s.acked + segment.payload.length) (by omega)
        have offsetEq : offset = s.acked := by omega
        refine ⟨fun nonempty => ⟨offsetEq, ?_⟩, fun _ => offsetEq⟩
        have positive := List.length_pos_iff.mpr nonempty
        have previous := holds (s.acked + segment.payload.length - 1) (by omega)
        by_contra tooLong
        rw [appended_of_lt (Nat.lt_of_not_le tooLong)] at previous
        simp only [List.length_nil] at previous
        omega
      · simp only [fin, Bool.false_eq_true, if_false, Option.isSome_none, Nat.add_zero,
          reduceCtorEq, or_false] at holds
        refine ⟨fun nonempty => ?_, fun fin' => absurd fin' fin⟩
        have positive := List.length_pos_iff.mpr nonempty
        have first := holds s.acked (by omega)
        have last := holds (s.acked + segment.payload.length - 1) (by omega)
        refine ⟨by omega, ?_⟩
        by_contra tooLong
        rw [appended_of_lt (Nat.lt_of_not_le tooLong)] at first
        simp only [List.length_nil] at first
        omega

end Step

end Receiver

/-- Along a run of arbitrary segments and reads, what is acknowledged is what is
stored exactly when every payload and every FIN arrives at the position
acknowledged so far and every payload fits into the free space. -/
theorem receiver_covered_iff (t : Tcb) (events : List ReceiverEvent) :
    Along (Receiver.step t.curAckN) (Receiver.Covered t.curAckN) (Receiver.start t) events ↔
      Guarded (Receiver.step t.curAckN) Receiver.InOrderAndFits (Receiver.start t) events := by
  apply along_iff_guarded _ _ (Receiver.Inv.start t)
  · intro s event after inv inOrder taken
    exact inv.step inOrder taken
  · intro s event after inv taken
    constructor
    · exact Receiver.inOrder_of_covered inv taken
    · intro inOrder
      exact Receiver.covered_of_inOrder inv inOrder taken

/-- The connection of `main` with a full receive buffer. -/
def mainConnectionFull : Tcb :=
  { mainConnection with rxBuf := mainConnection.rxBuf.push (fun _ => 65) tcpBufSz }

theorem mainConnectionFull_curCapacity : mainConnectionFull.rxBuf.curCapacity = 0 :=
  LiveBuf.curCapacity_push (by decide)

/-- A peer that sees a closed window probes it with one byte: the byte is
acknowledged and thrown away. -/
theorem receiver_not_covered_probe :
    ¬Along (Receiver.step 1025) (Receiver.Covered 1025) (Receiver.start mainConnectionFull)
        [.rx 0 (mainPeerSegment 1025 1025 [66])] := by
  intro along
  rcases along _ rfl with ⟨covered, _⟩
  have stored := covered.covered 0 Nat.one_pos
  have refused : Receiver.appended mainConnectionFull
      (mainConnectionFull.afterEstablished (mainPeerSegment 1025 1025 [66])) = [] := by
    apply Receiver.appended_of_lt
    rw [mainConnectionFull_curCapacity]
    exact Nat.one_pos
  change 0 ∈ [] ++ List.range' 0 (Receiver.appended mainConnectionFull
    (mainConnectionFull.afterEstablished (mainPeerSegment 1025 1025 [66]))).length ∨
      none = some 0 at stored
  rw [refused] at stored
  simp at stored

end Lpc17xx.Tcp
