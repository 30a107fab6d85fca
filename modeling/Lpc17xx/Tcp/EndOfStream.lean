import Lpc17xx.Tcp.Closing
import Lpc17xx.Transition.Labelled

/-!
# The end of the stream

A thread inside `tcp_rx_data` is interleaved with `rx_task`, which hands data
and the peer's FIN to the connection.  The thread is cut at every point where
the other task can run in between: after its wait, after the test of the state,
and after it has settled how much to copy.  The test comes before the copy and
looks at the state only, so what is in the buffer when the FIN arrives is lost
unless a call that has passed the test takes all of it.
-/

namespace Lpc17xx.Tcp

open Lpc17xx.Cbuf
open Lpc17xx.Transition

/-- Where a thread is in `tcp_rx_data`, with `len` bytes still wanted: before the
wait is over, past the wait, past the test of the state, or with the number of
bytes to copy settled. -/
inductive Reader where
  | returned (value : Int32)
  | waiting (len : UInt32)
  | woken (len : UInt32)
  | tested (len : UInt32)
  | sized (len noBytesToCopy : UInt32)
  deriving DecidableEq

/-- The bytes that a call past its test of the state takes at least, if they are
there. -/
def Reader.committed : Reader → Nat
  | .tested len => len.toNat
  | .sized _ noBytesToCopy => noBytesToCopy.toNat
  | .returned _ | .waiting _ | .woken _ => 0

/-- A connection and its reader.  `stored` is everything appended to `rx_buf` so
far, `read` everything copied out of it. -/
structure Reading where
  tcb : Tcb
  reader : Reader
  stored : List UInt8
  read : List UInt8

/-- A segment, a call of `tcp_rx_data`, or the next step of the thread inside
it. -/
inductive ReadingEvent where
  | rx (segment : Segment)
  | call (len : UInt32)
  | reader

namespace Reading

/-- An open connection nobody has read from yet. -/
def start (t : Tcb) : Reading where
  tcb := t
  reader := .returned 0
  stored := t.rxBuf.contents
  read := []

/-- The bytes that a segment appends to `rx_buf`. -/
def appends (t : Tcb) (segment : Segment) : List UInt8 :=
  if segment.dataLen ≤ t.rxBuf.curCapacity then segment.payload else []

/-- The next step of the thread inside `tcp_rx_data`. -/
def readerStep (s : Reading) : Option Reading :=
  match s.reader with
  | .returned _ => none
  | .waiting len => if tcpRxDataReady s.tcb then some { s with reader := .woken len } else none
  | .woken len =>
      if s.tcb.state = .closeWait then some { s with reader := .returned (-1) }
      else some { s with reader := .tested len }
  | .tested len =>
      let bytesInBuf := s.tcb.rxBuf.curUsage
      some { s with reader := .sized len (if len < bytesInBuf then len else bytesInBuf) }
  | .sized len noBytesToCopy =>
      let (bytes, rxBuf) := s.tcb.rxBuf.pop noBytesToCopy
      let len := len - noBytesToCopy
      some { s with
        tcb := { s.tcb with rxBuf }
        reader := if len = 0 then .returned 0 else .waiting len
        read := s.read ++ bytes }

/-- One event.  A segment in `CLOSE_WAIT` stops the machine. -/
def step : Step Reading ReadingEvent
  | s, .rx segment =>
      if s.tcb.state = .established then
        ((s.tcb.receive segment).bind TcbOutcome.tcb).map fun tcb =>
          { s with tcb, stored := s.stored ++ appends s.tcb segment }
      else none
  | s, .call len =>
      match s.reader with
      | .returned _ => some { s with reader := if len = 0 then .returned 0 else .waiting len }
      | _ => none
  | s, .reader => s.readerStep

/-- `-1` is reported only with an empty buffer, after everything ever stored has
been copied out. -/
def Drained (_ : Reading) (_ : ReadingEvent) (after : Reading) : Prop :=
  after.reader = .returned (-1) → after.tcb.rxBuf.contents = [] ∧ after.read = after.stored

/-- A FIN finds no more bytes in the buffer, its own payload included, than the
current call is about to take. -/
def FinFindsDrained (s : Reading) : ReadingEvent → Prop
  | .rx segment =>
      segment.header.fin = true →
        s.tcb.rxBuf.contents.length + (appends s.tcb segment).length ≤ s.reader.committed
  | .call _ | .reader => True

instance (s : Reading) : ∀ event, Decidable (s.FinFindsDrained event)
  | .rx segment => inferInstanceAs (Decidable (segment.header.fin = true → _))
  | .call _ | .reader => inferInstanceAs (Decidable True)

/-- What the application does. -/
def IsRead : ReadingEvent → Prop
  | .rx _ => False
  | .call _ | .reader => True

/-- The steps that a thread inside `tcp_rx_data` can take. -/
inductive Moves (s : Reading) : Reading → Prop
  | woken {len : UInt32} : s.reader = .waiting len → Moves s { s with reader := .woken len }
  | ended {len : UInt32} : s.reader = .woken len → s.tcb.state = .closeWait →
      Moves s { s with reader := .returned (-1) }
  | tested {len : UInt32} : s.reader = .woken len → s.tcb.state ≠ .closeWait →
      Moves s { s with reader := .tested len }
  | sized {len noBytesToCopy : UInt32} : s.reader = .tested len →
      noBytesToCopy.toNat = min len.toNat s.tcb.rxBuf.contents.length →
      Moves s { s with reader := .sized len noBytesToCopy }
  | copied {len noBytesToCopy : UInt32} {next : Reader} : s.reader = .sized len noBytesToCopy →
      next = .returned 0 ∨ (∃ left, next = .waiting left) →
      Moves s { s with
        tcb := { s.tcb with rxBuf := (s.tcb.rxBuf.pop noBytesToCopy).2 }
        reader := next
        read := s.read ++ (s.tcb.rxBuf.pop noBytesToCopy).1 }

section Step

variable {s after : Reading}

theorem moves_of_readerStep (taken : s.readerStep = some after) : Moves s after := by
  unfold readerStep at taken
  cases position : s.reader with
  | returned value =>
      rw [position] at taken
      contradiction
  | waiting len =>
      rw [position] at taken
      obtain ⟨_, taken⟩ := Option.ite_none_right_eq_some.mp taken
      cases taken
      exact .woken position
  | woken len =>
      rw [position] at taken
      by_cases closeWait : s.tcb.state = .closeWait
      · simp only [closeWait, if_true] at taken
        cases taken
        exact .ended position closeWait
      · simp only [closeWait, if_false] at taken
        cases taken
        exact .tested position closeWait
  | tested len =>
      rw [position] at taken
      cases taken
      apply Moves.sized position
      rw [← LiveBuf.toNat_curUsage]
      split
      · rename_i less
        rw [UInt32.lt_iff_toNat_lt] at less
        exact (Nat.min_eq_left (Nat.le_of_lt less)).symm
      · rename_i notLess
        rw [UInt32.lt_iff_toNat_lt] at notLess
        exact (Nat.min_eq_right (Nat.le_of_not_lt notLess)).symm
  | sized len noBytesToCopy =>
      rw [position] at taken
      cases taken
      apply Moves.copied position
      split
      · exact .inl rfl
      · exact .inr ⟨_, rfl⟩

theorem contents_afterEstablished (t : Tcb) (segment : Segment) :
    (t.afterEstablished segment).rxBuf.contents = t.rxBuf.contents ++ appends t segment := by
  unfold appends
  split
  · rename_i fits
    exact afterEstablished_contents segment fits
  · rename_i full
    rw [afterEstablished_contents_of_lt segment (UInt32.not_le.mp full), List.append_nil]

theorem step_rx {segment : Segment} (taken : step s (.rx segment) = some after) :
    s.tcb.state = .established ∧ after =
      { s with
        tcb := s.tcb.afterEstablished segment
        stored := s.stored ++ appends s.tcb segment } := by
  obtain ⟨established, taken⟩ := Option.ite_none_right_eq_some.mp taken
  rw [receive_established segment established] at taken
  cases taken
  exact ⟨established, rfl⟩

theorem step_call {len : UInt32} (taken : step s (.call len) = some after) :
    (∃ value, s.reader = .returned value) ∧
      (after = { s with reader := .returned 0 } ∨ after = { s with reader := .waiting len }) := by
  simp only [step] at taken
  split at taken
  · rename_i value position
    cases taken
    refine ⟨⟨value, position⟩, ?_⟩
    split
    · exact .inl rfl
    · exact .inr rfl
  · contradiction

end Step

theorem returned_zero_ne : Reader.returned 0 ≠ Reader.returned (-1) := by
  decide

/-- What holds in every run: everything stored is either copied out or still in
the buffer, and a settled copy finds its bytes. -/
structure Sound (s : Reading) : Prop where
  state : s.tcb.state = .established ∨ s.tcb.state = .closeWait
  stored : s.stored = s.read ++ s.tcb.rxBuf.contents
  held : ∀ len noBytesToCopy, s.reader = .sized len noBytesToCopy →
    noBytesToCopy.toNat ≤ s.tcb.rxBuf.contents.length
  ended : s.reader = .returned (-1) → s.tcb.state = .closeWait

/-- In `CLOSE_WAIT` nothing is left that the current call will not take. -/
def Ends (s : Reading) : Prop :=
  s.tcb.state = .closeWait → s.tcb.rxBuf.contents.length ≤ s.reader.committed

theorem Sound.start {t : Tcb} (established : t.state = .established) : (start t).Sound where
  state := .inl established
  stored := rfl
  held := by
    rintro len noBytesToCopy position
    cases position
  ended := fun minusOne => absurd minusOne returned_zero_ne

section Preserved

variable {s after : Reading}

/-- The copy that a settled call makes. -/
theorem Sound.copies (sound : s.Sound) {len noBytesToCopy : UInt32}
    (position : s.reader = .sized len noBytesToCopy) :
    s.tcb.rxBuf.contents =
        (s.tcb.rxBuf.pop noBytesToCopy).1 ++ (s.tcb.rxBuf.pop noBytesToCopy).2.contents ∧
      (s.tcb.rxBuf.pop noBytesToCopy).2.contents.length + noBytesToCopy.toNat =
        s.tcb.rxBuf.contents.length := by
  have heldNat := sound.held len noBytesToCopy position
  have held : noBytesToCopy ≤ s.tcb.rxBuf.curUsage := by
    rw [UInt32.le_iff_toNat_le, LiveBuf.toNat_curUsage]
    exact heldNat
  rw [LiveBuf.pop_fst held, LiveBuf.contents_pop held, List.take_append_drop, List.length_drop]
  exact ⟨rfl, Nat.sub_add_cancel heldNat⟩

theorem Sound.moves (sound : s.Sound) (moved : Moves s after) : after.Sound := by
  cases moved with
  | woken position =>
      exact ⟨sound.state, sound.stored, by rintro _ _ ⟨⟩, by rintro ⟨⟩⟩
  | ended position closeWait =>
      exact ⟨sound.state, sound.stored, by rintro _ _ ⟨⟩, fun _ => closeWait⟩
  | tested position open_ =>
      exact ⟨sound.state, sound.stored, by rintro _ _ ⟨⟩, by rintro ⟨⟩⟩
  | sized position settled =>
      refine ⟨sound.state, sound.stored, ?_, by rintro ⟨⟩⟩
      rintro len noBytesToCopy same
      cases same
      rw [settled]
      exact Nat.min_le_right _ _
  | copied position next =>
      obtain ⟨split_, _⟩ := sound.copies position
      refine ⟨sound.state, ?_, ?_, ?_⟩
      · rw [sound.stored, split_, List.append_assoc]
      · rintro len noBytesToCopy same
        rcases next with rfl | ⟨left, rfl⟩
        · cases same
        · cases same
      · intro minusOne
        rcases next with rfl | ⟨left, rfl⟩
        · exact absurd minusOne returned_zero_ne
        · cases minusOne

theorem Sound.step {event : ReadingEvent} (sound : s.Sound)
    (taken : Reading.step s event = some after) : after.Sound := by
  cases event with
  | rx segment =>
      obtain ⟨established, rfl⟩ := step_rx taken
      refine ⟨?_, ?_, ?_, ?_⟩
      · rw [afterEstablished_state, established]
        split
        · exact .inr rfl
        · exact .inl rfl
      · rw [contents_afterEstablished, sound.stored, List.append_assoc]
      · rintro len noBytesToCopy position
        rw [contents_afterEstablished, List.length_append]
        exact Nat.le_add_right_of_le (sound.held len noBytesToCopy position)
      · intro minusOne
        exact absurd (established.symm.trans (sound.ended minusOne)) (by decide)
  | call len =>
      obtain ⟨_, rfl | rfl⟩ := step_call taken
      · exact ⟨sound.state, sound.stored, by rintro _ _ ⟨⟩,
          fun minusOne => absurd minusOne returned_zero_ne⟩
      · exact ⟨sound.state, sound.stored, by rintro _ _ ⟨⟩, by rintro ⟨⟩⟩
  | reader => exact sound.moves (moves_of_readerStep taken)

theorem Ends.moves (ends : s.Ends) (sound : s.Sound) (moved : Moves s after) : after.Ends := by
  intro closeWait
  cases moved with
  | woken position =>
      have empty := ends closeWait
      rwa [position] at empty
  | ended position _ =>
      have empty := ends closeWait
      rwa [position] at empty
  | tested position open_ => exact absurd closeWait open_
  | @sized len noBytesToCopy position settled =>
      have covered := ends closeWait
      rw [position] at covered
      change s.tcb.rxBuf.contents.length ≤ len.toNat at covered
      rw [Nat.min_eq_right covered] at settled
      exact Nat.le_of_eq settled.symm
  | @copied len noBytesToCopy next position following =>
      have covered := ends closeWait
      rw [position] at covered
      change _ ≤ noBytesToCopy.toNat at covered
      obtain ⟨_, rest⟩ := sound.copies position
      have empty : (s.tcb.rxBuf.pop noBytesToCopy).2.contents.length = 0 := by
        omega
      change (s.tcb.rxBuf.pop noBytesToCopy).2.contents.length ≤ _
      rw [empty]
      exact Nat.zero_le _

theorem Ends.step {event : ReadingEvent} (ends : s.Ends) (sound : s.Sound)
    (found : s.FinFindsDrained event) (taken : Reading.step s event = some after) :
    after.Ends := by
  cases event with
  | rx segment =>
      obtain ⟨established, rfl⟩ := step_rx taken
      intro closeWait
      change (s.tcb.afterEstablished segment).state = .closeWait at closeWait
      rw [afterEstablished_state, established] at closeWait
      change (s.tcb.afterEstablished segment).rxBuf.contents.length ≤ s.reader.committed
      rw [contents_afterEstablished, List.length_append]
      apply found
      by_contra noFin
      rw [if_neg noFin] at closeWait
      contradiction
  | call len =>
      obtain ⟨⟨value, position⟩, next⟩ := step_call taken
      intro closeWait
      have empty : s.tcb.state = .closeWait → s.tcb.rxBuf.contents.length ≤ 0 := by
        intro closeWait
        have covered := ends closeWait
        rwa [position] at covered
      rcases next with rfl | rfl
      · exact empty closeWait
      · exact empty closeWait
  | reader => exact ends.moves sound (moves_of_readerStep taken)

/-- Nothing left means that `-1` is reported in time. -/
theorem Ends.drained (ends : s.Ends) (sound : s.Sound) (before : Reading) (event : ReadingEvent) :
    Drained before event s := by
  intro minusOne
  have covered := ends (sound.ended minusOne)
  rw [minusOne] at covered
  have empty := List.eq_nil_of_length_eq_zero (Nat.le_zero.mp covered)
  refine ⟨empty, ?_⟩
  rw [sound.stored, empty, List.append_nil]

end Preserved

/-- Bytes are left in `CLOSE_WAIT` that the current call will not take. -/
def Doomed (s : Reading) : Prop :=
  s.tcb.state = .closeWait ∧ s.reader.committed < s.tcb.rxBuf.contents.length

/-- The application can get a `-1` too early. -/
def Loses (s : Reading) : Prop :=
  ∃ reads, (∀ event ∈ reads, IsRead event) ∧ ¬Along step Drained s reads

section Doomed

variable {s after : Reading}

theorem Loses.of_step {event : ReadingEvent} (isRead : IsRead event)
    (taken : step s event = some after) (loses : ¬Drained s event after ∨ after.Loses) :
    s.Loses := by
  rcases loses with early | ⟨reads, areReads, fails⟩
  · refine ⟨[event], by simpa using isRead, ?_⟩
    intro along
    exact early (along after taken).1
  · refine ⟨event :: reads, by simpa using ⟨isRead, areReads⟩, ?_⟩
    intro along
    exact fails (along after taken).2

/-- The thread takes no step that saves the bytes, except to report their loss. -/
theorem Doomed.moves (doomed : s.Doomed) (sound : s.Sound) (moved : Moves s after) :
    ¬Drained s .reader after ∨ after.Doomed := by
  obtain ⟨closeWait, left⟩ := doomed
  cases moved with
  | woken position =>
      rw [position] at left
      exact .inr ⟨closeWait, left⟩
  | ended position _ =>
      rw [position] at left
      left
      intro drained
      rw [(drained rfl).1] at left
      contradiction
  | tested position open_ => exact absurd closeWait open_
  | @sized len noBytesToCopy position settled =>
      rw [position] at left
      change len.toNat < _ at left
      rw [Nat.min_eq_left (Nat.le_of_lt left)] at settled
      refine .inr ⟨closeWait, ?_⟩
      change noBytesToCopy.toNat < s.tcb.rxBuf.contents.length
      rw [settled]
      exact left
  | @copied len noBytesToCopy next position following =>
      rw [position] at left
      change noBytesToCopy.toNat < _ at left
      obtain ⟨_, rest⟩ := sound.copies position
      have nothing : next.committed = 0 := by
        rcases following with rfl | ⟨_, rfl⟩ <;> rfl
      refine .inr ⟨closeWait, ?_⟩
      change next.committed < (s.tcb.rxBuf.pop noBytesToCopy).2.contents.length
      omega

theorem Doomed.step {event : ReadingEvent} (doomed : s.Doomed) (sound : s.Sound)
    (taken : Reading.step s event = some after) : ¬Drained s event after ∨ after.Doomed := by
  cases event with
  | rx segment =>
      obtain ⟨established, _⟩ := step_rx taken
      exact absurd (established.symm.trans doomed.1) (by decide)
  | call len =>
      obtain ⟨closeWait, left⟩ := doomed
      obtain ⟨⟨value, position⟩, next⟩ := step_call taken
      rw [position] at left
      rcases next with rfl | rfl
      · exact .inr ⟨closeWait, left⟩
      · exact .inr ⟨closeWait, left⟩
  | reader => exact doomed.moves sound (moves_of_readerStep taken)

/-- Whenever the thread can go on, the bytes are lost if they are lost
afterwards. -/
theorem Doomed.loses_of_next (doomed : s.Doomed) (sound : s.Sound)
    (taken : Reading.step s .reader = some after)
    (next : after.Doomed → after.Sound → after.Loses) : s.Loses := by
  apply @Loses.of_step _ _ .reader trivial taken
  rcases doomed.step sound taken with early | still
  · exact .inl early
  · exact .inr (next still (sound.step taken))

theorem Doomed.loses_woken (doomed : s.Doomed) {len : UInt32}
    (position : s.reader = .woken len) : s.Loses := by
  have taken : Reading.step s .reader = some { s with reader := .returned (-1) } := by
    simp [Reading.step, readerStep, position, doomed.1]
  apply @Loses.of_step _ _ .reader trivial taken
  left
  intro drained
  have left := doomed.2
  rw [(drained rfl).1] at left
  contradiction

theorem Doomed.loses_waiting (doomed : s.Doomed) (sound : s.Sound) {len : UInt32}
    (position : s.reader = .waiting len) : s.Loses := by
  have taken : Reading.step s .reader = some { s with reader := .woken len } := by
    simp [Reading.step, readerStep, position, tcpRxDataReady, doomed.1]
  exact doomed.loses_of_next sound taken fun still _ => still.loses_woken rfl

theorem Doomed.loses_returned (doomed : s.Doomed) (sound : s.Sound) {value : Int32}
    (position : s.reader = .returned value) : s.Loses := by
  have taken : Reading.step s (.call 1) = some { s with reader := .waiting 1 } := by
    simp [Reading.step, position]
  apply @Loses.of_step _ _ (.call 1) trivial taken
  rcases doomed.step sound taken with early | still
  · exact .inl early
  · exact .inr (still.loses_waiting (sound.step taken) rfl)

theorem Doomed.loses_sized (doomed : s.Doomed) (sound : s.Sound) {len noBytesToCopy : UInt32}
    (position : s.reader = .sized len noBytesToCopy) : s.Loses := by
  obtain ⟨after, taken⟩ : ∃ after, Reading.step s .reader = some after := by
    simp [Reading.step, readerStep, position]
  apply doomed.loses_of_next sound taken
  intro still soundAfter
  cases moves_of_readerStep taken with
  | woken other => cases position.symm.trans other
  | ended other _ => cases position.symm.trans other
  | tested other _ => cases position.symm.trans other
  | sized other _ => cases position.symm.trans other
  | copied _ next =>
      rcases next with rfl | ⟨left, rfl⟩
      · exact still.loses_returned soundAfter rfl
      · exact still.loses_waiting soundAfter rfl

/-- Wherever the reader is, the bytes can be lost. -/
theorem Doomed.loses (doomed : s.Doomed) (sound : s.Sound) : s.Loses := by
  cases position : s.reader with
  | returned value => exact doomed.loses_returned sound position
  | waiting len => exact doomed.loses_waiting sound position
  | woken len => exact doomed.loses_woken position
  | tested len =>
      obtain ⟨after, taken⟩ : ∃ after, Reading.step s .reader = some after := by
        simp [Reading.step, readerStep, position]
      apply doomed.loses_of_next sound taken
      intro still soundAfter
      cases moves_of_readerStep taken with
      | woken other => cases position.symm.trans other
      | ended other _ => cases position.symm.trans other
      | tested other _ => cases position.symm.trans other
      | sized _ _ => exact still.loses_sized soundAfter rfl
      | copied other _ => cases position.symm.trans other
  | sized len noBytesToCopy => exact doomed.loses_sized sound position

/-- Once bytes are left behind, every run can be continued to their loss. -/
theorem Doomed.loses_after {events : List ReadingEvent} (doomed : s.Doomed) (sound : s.Sound)
    (executed : run Reading.step s events = some after) :
    ∃ reads, (∀ event ∈ reads, IsRead event) ∧
      ¬Along Reading.step Drained s (events ++ reads) := by
  induction events generalizing s with
  | nil => exact doomed.loses sound
  | cons event events ih =>
      obtain ⟨middle, taken, rest⟩ := Option.bind_eq_some_iff.mp executed
      rcases doomed.step sound taken with early | still
      · refine ⟨[], by simp, ?_⟩
        intro along
        exact early (along middle taken).1
      · obtain ⟨reads, areReads, fails⟩ := ih still (sound.step taken) rest
        refine ⟨reads, areReads, ?_⟩
        intro along
        exact fails (along middle taken).2

/-- A FIN that finds too much dooms the connection. -/
theorem doomed_of_not_finFindsDrained {event : ReadingEvent}
    (taken : Reading.step s event = some after) (found : ¬s.FinFindsDrained event) :
    after.Doomed := by
  cases event with
  | rx segment =>
      obtain ⟨established, rfl⟩ := step_rx taken
      obtain ⟨fin, tooMuch⟩ := Classical.not_imp.mp found
      constructor
      · change (s.tcb.afterEstablished segment).state = .closeWait
        rw [afterEstablished_state, if_pos fin]
      · change _ < (s.tcb.afterEstablished segment).rxBuf.contents.length
        rw [contents_afterEstablished, List.length_append]
        exact Nat.lt_of_not_le tooMuch
  | call len => exact absurd trivial found
  | reader => exact absurd trivial found

/-- Where no continuation loses bytes, every FIN has found the buffer drained. -/
theorem guarded_of_drained {events : List ReadingEvent} (sound : s.Sound)
    (executed : run Reading.step s events = some after)
    (drained : ∀ reads, (∀ event ∈ reads, IsRead event) →
      Along Reading.step Drained s (events ++ reads)) :
    Guarded Reading.step FinFindsDrained s events := by
  induction events generalizing s with
  | nil => trivial
  | cons event events ih =>
      obtain ⟨middle, taken, rest⟩ := Option.bind_eq_some_iff.mp executed
      have drainedRest : ∀ reads, (∀ event ∈ reads, IsRead event) →
          Along Reading.step Drained middle (events ++ reads) :=
        fun reads areReads => (drained reads areReads middle taken).2
      have found : s.FinFindsDrained event := by
        by_contra found
        have doomed := doomed_of_not_finFindsDrained taken found
        obtain ⟨reads, areReads, fails⟩ := doomed.loses_after (sound.step taken) rest
        exact fails (drainedRest reads areReads)
      intro target step
      cases taken.symm.trans step
      exact ⟨found, ih (sound.step taken) rest drainedRest⟩

end Doomed

end Reading

/-- A run of arbitrary segments and calls of `tcp_rx_data` loses nothing at the end
of the stream, however the application reads on, exactly when every FIN found
no more in the buffer than the current call was about to take. -/
theorem endOfStream_iff {t : Tcb} {events : List ReadingEvent} {s : Reading}
    (established : t.state = .established)
    (executed : run Reading.step (Reading.start t) events = some s) :
    (∀ reads, (∀ event ∈ reads, Reading.IsRead event) →
      Along Reading.step Reading.Drained (Reading.start t) (events ++ reads)) ↔
      Guarded Reading.step Reading.FinFindsDrained (Reading.start t) events := by
  have sound := Reading.Sound.start established
  constructor
  · exact Reading.guarded_of_drained sound executed
  · intro guarded reads areReads
    have whole : Guarded Reading.step Reading.FinFindsDrained (Reading.start t)
        (events ++ reads) := by
      apply guarded.append
      intro event member state
      have isRead := areReads event member
      cases event with
      | rx segment => exact isRead.elim
      | call len => trivial
      | reader => trivial
    have ends : (Reading.start t).Ends :=
      fun closeWait => absurd (established.symm.trans closeWait) (by decide)
    apply @along_of_guarded _ _ _ (fun s => s.Sound ∧ s.Ends) _ _ _ _ _ _ ⟨sound, ends⟩ whole
    · rintro s event after ⟨sound, ends⟩ found taken
      exact ⟨sound.step taken, ends.step sound found taken⟩
    · rintro s event after ⟨sound, ends⟩ found taken
      exact (ends.step sound found taken).drained (sound.step taken) s event

/-- Two bytes for the connection of `main`, a call that asks for three and has settled to take
the two, and then the FIN. -/
def mainReadInTime : List ReadingEvent :=
  [.rx (mainPeerSegment 1025 1025 [72, 105]), .call 3, .reader, .reader, .reader,
    .rx (mainPeerFin 1027 1025)]

/-- Whatever is read from then on, both bytes are read before the end is reported, as it is
three steps later. -/
theorem endOfStream_iff_main :
    (∀ reads, (∀ event ∈ reads, Reading.IsRead event) →
      Along Reading.step Reading.Drained (Reading.start mainConnection)
        (mainReadInTime ++ reads)) ∧
      (run Reading.step (Reading.start mainConnection)
        (mainReadInTime ++ [.reader, .reader, .reader])).map
          (fun s => (s.reader, s.read)) = some (.returned (-1), [72, 105]) := by
  have executed : run Reading.step (Reading.start mainConnection) mainReadInTime =
      some ((run Reading.step (Reading.start mainConnection) mainReadInTime).get rfl) :=
    (Option.some_get _).symm
  exact ⟨(endOfStream_iff rfl executed).mpr (by decide), rfl⟩

/-- Two bytes for the connection of `main`, the FIN behind them, and then a call
that asks for both bytes. -/
def mainLateRead : List ReadingEvent :=
  [.rx (mainPeerSegment 1025 1025 [72, 105]),
    .rx (mainPeerFin 1027 1025), .call 2, .reader, .reader]

/-- The late call returns `-1` with both bytes in the buffer. -/
theorem not_drained_mainLateRead :
    ¬Along Reading.step Reading.Drained (Reading.start mainConnection) mainLateRead := by
  intro along
  obtain ⟨_, along⟩ := along _ rfl
  obtain ⟨_, along⟩ := along _ rfl
  obtain ⟨_, along⟩ := along _ rfl
  obtain ⟨_, along⟩ := along _ rfl
  obtain ⟨drained, _⟩ := along _ rfl
  obtain ⟨_, lost⟩ := drained rfl
  contradiction

end Lpc17xx.Tcp
