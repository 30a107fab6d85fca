import Lpc17xx.Tcp.Established
import Lpc17xx.Transition.Labelled

/-!
# The receive side of an established connection

Arbitrary segments arrive and the application reads at its own pace.  The run
annotates every segment with the position in the peer's stream that its
sequence number stands for, so that duplicates, gaps and laps of the sequence
number space can be told apart.  It also keeps a history the code does not
have: the positions of the bytes appended to `rx_buf`, in order of appending,
the bytes acknowledged, the position of the FIN that was accepted, and the bytes
returned to the application.
-/

namespace Lpc17xx.Tcp

open Lpc17xx.Cbuf
open Lpc17xx.Serial
open Lpc17xx.Transition

/-- A connection with the history of its receive side. -/
structure Receiver where
  tcb : Tcb
  positions : List Nat
  acked : Nat
  finAt : Option Nat
  returned : List UInt8

/-- What can happen to an established connection on the receiving side. -/
inductive ReceiverEvent where
  | rx (offset : Nat) (segment : Segment)
  | rxData (len : UInt32)

namespace Receiver

/-- The receive side at the moment from which the run is counted. -/
def start (t : Tcb) : Receiver where
  tcb := t
  positions := []
  acked := 0
  finAt := none
  returned := []

/-- The bytes a segment appended to the queue. -/
def appended (before after : Tcb) : List UInt8 :=
  after.rxBuf.contents.drop before.rxBuf.contents.length

/-- One event.  The sequence number of a segment is that of its position in the
stream, counted from `base`. -/
def step (base : UInt32) : Step Receiver ReceiverEvent
  | s, .rx offset segment =>
      if s.tcb.state = .established ∧ segment.header.seqN = place base offset then
        ((s.tcb.receive segment).bind TcbOutcome.tcb).map fun tcb =>
          { s with
            tcb
            positions := s.positions ++ List.range' offset (appended s.tcb tcb).length
            acked := s.acked + segment.payload.length
            finAt := if segment.header.fin then some (offset + segment.payload.length)
              else s.finAt }
      else none
  | s, .rxData len =>
      if s.tcb.state = .established then
        (tcpRxDataRound s.tcb len).map fun read =>
          { s with tcb := read.2, returned := s.returned ++ read.1 }
      else none

/-- The payload of a segment fits into the free space of `rx_buf`. -/
def Fits (s : Receiver) (segment : Segment) : Prop :=
  segment.payload.length ≤ s.tcb.rxBuf.curCapacity.toNat

section Appended

variable {t : Tcb} {segment : Segment}

theorem dataLen_le_iff :
    segment.dataLen ≤ t.rxBuf.curCapacity ↔
      segment.payload.length ≤ t.rxBuf.curCapacity.toNat := by
  rw [UInt32.le_iff_toNat_le, Segment.toNat_dataLen]

theorem appended_of_fits (fits : segment.payload.length ≤ t.rxBuf.curCapacity.toNat) :
    appended t (t.afterEstablished segment) = segment.payload := by
  rw [appended, afterEstablished_contents segment (dataLen_le_iff.mpr fits), List.drop_left]

theorem appended_of_lt (full : t.rxBuf.curCapacity.toNat < segment.payload.length) :
    appended t (t.afterEstablished segment) = [] := by
  have fullWord : t.rxBuf.curCapacity < segment.dataLen := by
    rw [UInt32.lt_iff_toNat_lt, Segment.toNat_dataLen]
    exact full
  rw [appended, afterEstablished_contents_of_lt segment fullWord, List.drop_length]

/-- A segment appends its payload or nothing. -/
theorem appended_length_le (t : Tcb) (segment : Segment) :
    (appended t (t.afterEstablished segment)).length ≤ segment.payload.length := by
  by_cases fits : segment.payload.length ≤ t.rxBuf.curCapacity.toNat
  · rw [appended_of_fits fits]
  · rw [appended_of_lt (Nat.lt_of_not_le fits)]
    exact Nat.zero_le _

/-- What is appended is what the queue grows by. -/
theorem contents_append_appended :
    (t.afterEstablished segment).rxBuf.contents =
      t.rxBuf.contents ++ appended t (t.afterEstablished segment) := by
  by_cases fits : segment.payload.length ≤ t.rxBuf.curCapacity.toNat
  · rw [appended_of_fits fits, afterEstablished_contents segment (dataLen_le_iff.mpr fits)]
  · have full := Nat.lt_of_not_le fits
    have fullWord : t.rxBuf.curCapacity < segment.dataLen := by
      rw [UInt32.lt_iff_toNat_lt, Segment.toNat_dataLen]
      exact full
    rw [appended_of_lt full, afterEstablished_contents_of_lt segment fullWord, List.append_nil]

end Appended

section Step

variable {base : UInt32} {s after : Receiver}

theorem step_rx {offset : Nat} {segment : Segment}
    (taken : step base s (.rx offset segment) = some after) :
    s.tcb.state = .established ∧ segment.header.seqN = place base offset ∧ after =
      { s with
        tcb := s.tcb.afterEstablished segment
        positions := s.positions ++
          List.range' offset (appended s.tcb (s.tcb.afterEstablished segment)).length
        acked := s.acked + segment.payload.length
        finAt := if segment.header.fin then some (offset + segment.payload.length)
          else s.finAt } := by
  simp only [step] at taken
  split at taken
  · rename_i enabled
    rw [receive_established segment enabled.1] at taken
    cases taken
    exact ⟨enabled.1, enabled.2, rfl⟩
  · contradiction

/-- Reading takes bytes off the front of the queue and changes nothing else. -/
theorem step_rxData {len : UInt32} (taken : step base s (.rxData len) = some after) :
    ∃ bytes,
      s.tcb.rxBuf.contents = bytes ++ after.tcb.rxBuf.contents ∧
      after.returned = s.returned ++ bytes ∧
      after.tcb.curAckN = s.tcb.curAckN ∧ after.tcb.state = s.tcb.state ∧
      after.positions = s.positions ∧ after.acked = s.acked ∧ after.finAt = s.finAt := by
  rcases Option.ite_none_right_eq_some.mp taken with ⟨_, taken⟩
  rcases Option.map_eq_some_iff.mp taken with ⟨⟨bytes, read⟩, popped, rfl⟩
  rcases tcpRxDataRound_eq_some popped with ⟨rxBuf, rfl, front, _⟩
  exact ⟨bytes, front, rfl, rfl, rfl, rfl, rfl, rfl⟩

end Step

end Receiver

end Lpc17xx.Tcp
