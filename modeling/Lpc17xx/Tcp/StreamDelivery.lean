import Lpc17xx.Tcp.Receiver

/-!
# In-order, exactly-once delivery

The segments of one stream arrive duplicated and reordered in any way.  The
receive function looks at no sequence number: it appends every payload that
fits.  So the bytes appended are the stream in order, each once, exactly as long
as every segment that fits is the next one of the stream and is numbered
`cur_ack_n`.
-/

namespace Lpc17xx.Tcp

open Lpc17xx.Cbuf
open Lpc17xx.Serial
open Lpc17xx.Transition

/-- The payload of a segment is the part of the stream at its position. -/
def ReceiverEvent.FromStream (stream : Nat → UInt8) : ReceiverEvent → Prop
  | .rx offset segment =>
      segment.payload = bytesAt (fun i => stream (offset + i)) segment.payload.length
  | .rxData _ => True

/-- An event on a connection whose peer sends `stream`. -/
def StreamEvent (stream : Nat → UInt8) :=
  { event : ReceiverEvent // event.FromStream stream }

namespace Receiver

/-- The step of the receive side, on segments of one stream. -/
def streamStep (stream : Nat → UInt8) (base : UInt32) : Step Receiver (StreamEvent stream) :=
  fun s event => step base s event.1

/-- What a step has to respect: the positions appended so far are the first ones
of the stream, in order and each once; bytes are appended only from a segment
numbered `cur_ack_n`; and the bytes returned, followed by the bytes held, are
the bytes held at the start followed by the beginning of the stream. -/
structure Delivered (stream : Nat → UInt8) (initial : List UInt8) (before : Receiver)
    (event : StreamEvent stream) (after : Receiver) : Prop where
  inOrder : after.positions = List.range after.positions.length
  atAck : ∀ offset segment, event.1 = .rx offset segment →
    after.positions ≠ before.positions → segment.header.seqN = before.tcb.curAckN
  delivered : after.returned ++ after.tcb.rxBuf.contents =
    initial ++ bytesAt stream after.positions.length

/-- A segment whose payload fits starts at the first byte of the stream that has
not been appended, and is numbered `cur_ack_n`. -/
def NextOfStream {stream : Nat → UInt8} (s : Receiver) (event : StreamEvent stream) : Prop :=
  match event.1 with
  | .rx offset segment => segment.payload ≠ [] → s.Fits segment →
      offset = s.positions.length ∧ segment.header.seqN = s.tcb.curAckN
  | .rxData _ => True

/-- The beginning of the stream has been appended, byte by byte. -/
structure Prefixed (stream : Nat → UInt8) (initial : List UInt8) (s : Receiver) : Prop where
  inOrder : s.positions = List.range s.positions.length
  delivered : s.returned ++ s.tcb.rxBuf.contents =
    initial ++ bytesAt stream s.positions.length

theorem Prefixed.start (stream : Nat → UInt8) (t : Tcb) :
    Prefixed stream t.rxBuf.contents (start t) where
  inOrder := rfl
  delivered := by simp [Receiver.start, bytesAt]

theorem range_append_range' (first second : Nat) :
    List.range first ++ List.range' first second = List.range (first + second) := by
  have joined : List.range' 0 first ++ List.range' (0 + first) second =
      List.range' 0 (first + second) := List.range'_append_1
  rw [Nat.zero_add] at joined
  rw [List.range_eq_range', List.range_eq_range', joined]

/-- Positions appended after an initial run continue it only if they start at
its end. -/
theorem offset_eq_of_range {first offset second : Nat} (positive : 0 < second)
    (range : List.range first ++ List.range' offset second =
      List.range (List.range first ++ List.range' offset second).length) :
    offset = first := by
  rw [List.length_append, List.length_range, List.length_range', ← range_append_range'] at range
  have tails := List.append_cancel_left range
  rcases Nat.exists_eq_add_of_lt positive with ⟨rest, rfl⟩
  simp only [Nat.zero_add, List.range'_succ, List.cons.injEq] at tails
  exact tails.1

section Step

variable {stream : Nat → UInt8} {base : UInt32} {initial : List UInt8} {s after : Receiver}
  {event : StreamEvent stream}

/-- The next segment of the stream keeps the stream in order. -/
theorem Prefixed.step (inv : Prefixed stream initial s) (next : s.NextOfStream event)
    (taken : streamStep stream base s event = some after) : Prefixed stream initial after := by
  rcases event with ⟨event, fromStream⟩
  cases event with
  | rx offset segment =>
      rcases step_rx taken with ⟨_, _, rfl⟩
      by_cases stored : segment.payload ≠ [] ∧ s.Fits segment
      · rcases next stored.1 stored.2 with ⟨rfl, _⟩
        have appendedEq := appended_of_fits stored.2
        have positions : s.positions ++ List.range' s.positions.length segment.payload.length =
            List.range (s.positions.length + segment.payload.length) := by
          rw [← range_append_range', ← inv.inOrder]
        constructor
        · change s.positions ++ List.range' _ (appended _ _).length = List.range
            (s.positions ++ List.range' _ (appended _ _).length).length
          rw [appendedEq, positions, List.length_range]
        · change s.returned ++ (s.tcb.afterEstablished segment).rxBuf.contents =
            initial ++ bytesAt stream (s.positions ++ List.range' _ (appended _ _).length).length
          rw [contents_append_appended, appendedEq, positions, List.length_range, bytesAt_add,
            ← fromStream, ← List.append_assoc, ← List.append_assoc, inv.delivered]
      · have nothing : appended s.tcb (s.tcb.afterEstablished segment) = [] := by
          by_cases fits : segment.payload.length ≤ s.tcb.rxBuf.curCapacity.toNat
          · rw [appended_of_fits fits]
            by_contra nonempty
            exact stored ⟨nonempty, fits⟩
          · exact appended_of_lt (Nat.lt_of_not_le fits)
        constructor
        · change s.positions ++ List.range' _ (appended _ _).length = List.range
            (s.positions ++ List.range' _ (appended _ _).length).length
          rw [nothing]
          simpa using inv.inOrder
        · change s.returned ++ (s.tcb.afterEstablished segment).rxBuf.contents =
            initial ++ bytesAt stream (s.positions ++ List.range' _ (appended _ _).length).length
          rw [contents_append_appended, nothing]
          simpa using inv.delivered
  | rxData len =>
      rcases step_rxData taken with ⟨bytes, contents, returned, _, _, positions, _, _⟩
      constructor
      · rw [positions]
        exact inv.inOrder
      · rw [returned, positions, List.append_assoc, ← contents]
        exact inv.delivered

theorem delivered_of_next (inv : Prefixed stream initial s) (next : s.NextOfStream event)
    (taken : streamStep stream base s event = some after) :
    Delivered stream initial s event after where
  inOrder := (inv.step next taken).inOrder
  atAck := by
    rcases event with ⟨event, fromStream⟩
    rintro offset segment rfl changed
    rcases step_rx taken with ⟨_, _, rfl⟩
    have nonempty : segment.payload ≠ [] := by
      intro empty
      apply changed
      change s.positions ++ List.range' _ (appended _ _).length = s.positions
      have none_ := appended_length_le s.tcb segment
      rw [empty] at none_
      rw [Nat.le_zero.mp none_]
      simp
    have fits : s.Fits segment := by
      by_contra tooLong
      apply changed
      change s.positions ++ List.range' _ (appended _ _).length = s.positions
      rw [appended_of_lt (Nat.lt_of_not_le tooLong)]
      simp
    exact (next nonempty fits).2
  delivered := (inv.step next taken).delivered

/-- A segment that fits but is not the next one puts the stream out of order. -/
theorem next_of_delivered (inv : Prefixed stream initial s)
    (taken : streamStep stream base s event = some after)
    (delivered : Delivered stream initial s event after) : s.NextOfStream event := by
  rcases event with ⟨event, fromStream⟩
  cases event with
  | rxData len => trivial
  | rx offset segment =>
      intro nonempty fits
      have inOrder := delivered.inOrder
      have atAck := delivered.atAck offset segment rfl
      rcases step_rx taken with ⟨_, _, rfl⟩
      change s.positions ++ List.range' _ (appended _ _).length = List.range
        (s.positions ++ List.range' _ (appended _ _).length).length at inOrder
      change s.positions ++ List.range' _ (appended _ _).length ≠ s.positions → _ at atAck
      have positive := List.length_pos_iff.mpr nonempty
      rw [appended_of_fits fits] at inOrder atAck
      constructor
      · rw [inv.inOrder] at inOrder
        exact offset_eq_of_range positive inOrder
      · apply atAck
        intro same
        have lengths := congrArg List.length same
        simp only [List.length_append, List.length_range'] at lengths
        omega

end Step

end Receiver

/-- However the segments of a stream are duplicated and reordered, the receive
buffer gets the stream in order and each byte once exactly when every segment
that fits is the next one of the stream and is numbered `cur_ack_n`. -/
theorem stream_delivered_iff (stream : Nat → UInt8) (t : Tcb)
    (events : List (StreamEvent stream)) :
    Along (Receiver.streamStep stream t.curAckN)
        (Receiver.Delivered stream t.rxBuf.contents) (Receiver.start t) events ↔
      Guarded (Receiver.streamStep stream t.curAckN) Receiver.NextOfStream
        (Receiver.start t) events := by
  apply along_iff_guarded _ _ (Receiver.Prefixed.start stream t)
  · intro s event after inv next taken
    exact inv.step next taken
  · intro s event after inv taken
    constructor
    · exact Receiver.next_of_delivered inv taken
    · intro next
      exact Receiver.delivered_of_next inv next taken

/-- A segment of one byte that the network duplicates is appended twice. -/
theorem stream_not_delivered_duplicate :
    ¬Along (Receiver.streamStep (fun _ => 65) 1025)
        (Receiver.Delivered (fun _ => 65) []) (Receiver.start mainConnection)
        [⟨.rx 0 (mainPeerSegment 1025 1025 [65]), rfl⟩,
          ⟨.rx 0 (mainPeerSegment 1025 1025 [65]), rfl⟩] := by
  intro along
  rcases along _ rfl with ⟨_, rest⟩
  rcases rest _ rfl with ⟨delivered, _⟩
  exact absurd delivered.inOrder (by decide)

end Lpc17xx.Tcp
