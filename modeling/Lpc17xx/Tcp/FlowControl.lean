import Lpc17xx.Tcp.Closing
import Lpc17xx.Tcp.Handshake

/-!
# The peer's window

A connection from the call of `tcp_connect` or `tcp_listen` on, with arbitrary segments
and one thread that calls `tcp_tx_data` again and again.  The run notes the window of
the last segment and counts the bytes that were handed to `tcp_tx_data` and not yet
acknowledged, an acknowledgement being one that lies within them.  `tcp_tx_data` looks
at no window, so the count stays within the window exactly as long as the calls and the
segments see to it.
-/

namespace Lpc17xx.Tcp

open Lpc17xx.Cbuf
open Lpc17xx.Serial
open Lpc17xx.Transition

/-- The states in which the peer has not yet been found. -/
def TcpState.Opening (state : TcpState) : Prop :=
  state = .listen ∨ state = .synSent ∨ state = .synReceived

instance (state : TcpState) : Decidable state.Opening :=
  inferInstanceAs (Decidable (_ ∨ _))

/-- A connection with its sending thread.  Nothing reads the last three: `window` is
the `window_sz` of the last segment, `una` the sequence number of the first byte that
is not acknowledged, and `outstanding` the number of such bytes. -/
structure FlowState where
  opening : Opening
  waiting : Bool
  window : UInt16
  una : UInt32
  outstanding : Nat

/-- The next step of the thread that opens the connection, a segment, and
`tcp_tx_data` up to its wait and after it. -/
inductive FlowEvent where
  | thread
  | rx (segment : Segment)
  | txData (data : List UInt8)
  | txReturn

namespace FlowState

/-- The connection when its TCB is linked. -/
def start (call : OpenCall) : FlowState where
  opening := Opening.start call
  waiting := false
  window := 0
  una := 0
  outstanding := 0

/-- How many of the outstanding bytes a header acknowledges. -/
def acknowledged (s : FlowState) (header : TcpHeader) : Nat :=
  if header.ack ∧ (header.ackN - s.una).toNat ≤ s.outstanding then (header.ackN - s.una).toNat
  else 0

/-- What is noted of a segment.  While the connection is opened nothing is outstanding,
and the first byte will have the number the TCB has arrived at. -/
def note (s : FlowState) (header : TcpHeader) (opening : Opening) : FlowState where
  opening := opening
  waiting := s.waiting
  window := header.windowSz
  una :=
    if s.opening.tcb.state.Opening then opening.tcb.curSeqN
    else s.una + UInt32.ofNat (s.acknowledged header)
  outstanding := s.outstanding - s.acknowledged header

/-- One event. -/
def step : Step FlowState FlowEvent
  | s, .thread => s.opening.threadStep.map fun opening => { s with opening }
  | s, .rx segment => (s.opening.step (.rx segment)).map (s.note segment.header)
  | s, .txData data =>
      if s.opening.thread = .returned true ∧ s.waiting = false then
        (tcpTxData s.opening.tcb data).map fun sent =>
          { s with
            opening := { s.opening with tcb := sent.1 }
            waiting := true
            outstanding := s.outstanding + data.length }
      else none
  | s, .txReturn =>
      if s.waiting = true ∧ tcpTxDataDone s.opening.tcb = true then
        some { s with waiting := false }
      else none

/-- No more bytes are outstanding than the peer has advertised. -/
def InWindow (s : FlowState) : Prop :=
  s.outstanding ≤ s.window.toNat

/-- No more bytes are outstanding than the peer has advertised, so that a peer whose
buffer has room for what it advertised, less what was outstanding already, takes what
is sent. -/
structure Respects (before : FlowState) (event : FlowEvent) (after : FlowState) : Prop where
  within : after.InWindow
  taken : ∀ data, event = .txData data → ∀ peer : LiveBuf,
    before.window.toNat ≤ before.outstanding + peer.curCapacity.toNat →
      (peer.push (fun offset => data.getD offset 0) (UInt32.ofNat data.length)).contents =
        peer.contents ++ data

/-- A call of `tcp_tx_data` hands over no more bytes than the last segment has advertised, and
a segment in `ESTABLISHED` advertises at least what `unacked_byte_count` still counts when its
acknowledgement is taken off. -/
def FitsWindow (s : FlowState) : FlowEvent → Prop
  | .thread | .txReturn => True
  | .rx segment => s.opening.tcb.state = .established →
      s.opening.tcb.unackedByteCount.toNat -
          (if segment.header.ack then (segment.header.ackN - s.opening.tcb.curSeqN).toNat else 0) ≤
        segment.header.windowSz.toNat
  | .txData data => data.length ≤ s.window.toNat

instance (s : FlowState) : ∀ event, Decidable (s.FitsWindow event)
  | .thread | .txReturn => inferInstanceAs (Decidable True)
  | .rx _ => inferInstanceAs (Decidable (_ → _))
  | .txData _ => inferInstanceAs (Decidable (_ ≤ _))

/-- An acknowledgement in `ESTABLISHED` covers bytes that are outstanding, or none. -/
def AcksOutstanding (s : FlowState) : FlowEvent → Prop
  | .rx segment => s.opening.tcb.state = .established → segment.header.ack = true →
      (segment.header.ackN - s.opening.tcb.curSeqN).toNat ≤
        s.opening.tcb.unackedByteCount.toNat
  | .thread | .txData _ | .txReturn => True

instance (s : FlowState) : ∀ event, Decidable (s.AcksOutstanding event)
  | .rx _ => inferInstanceAs (Decidable (_ → _ → _))
  | .thread | .txData _ | .txReturn => inferInstanceAs (Decidable True)

section Step

variable {s after : FlowState}

theorem step_thread (taken : step s .thread = some after) :
    ∃ opening, s.opening.threadStep = some opening ∧ after = { s with opening } := by
  rcases Option.map_eq_some_iff.mp taken with ⟨opening, stepped, rfl⟩
  exact ⟨opening, stepped, rfl⟩

theorem step_rx {segment : Segment} (taken : step s (.rx segment) = some after) :
    ∃ opening, s.opening.step (.rx segment) = some opening ∧
      after = s.note segment.header opening := by
  rcases Option.map_eq_some_iff.mp taken with ⟨opening, stepped, rfl⟩
  exact ⟨opening, stepped, rfl⟩

theorem step_txData {data : List UInt8} (taken : step s (.txData data) = some after) :
    s.opening.thread = .returned true ∧ s.waiting = false ∧
      12 + 20 + data.length ≤ memHeapSize ∧ after =
        { s with
          opening := { s.opening with
            tcb := { s.opening.tcb with
              unackedByteCount :=
                s.opening.tcb.unackedByteCount + UInt32.ofNat data.length } }
          waiting := true
          outstanding := s.outstanding + data.length } := by
  rcases Option.ite_none_right_eq_some.mp taken with ⟨⟨returned, idle⟩, taken⟩
  rcases Option.map_eq_some_iff.mp taken with ⟨sent, transmitted, rfl⟩
  rcases tcpTxData_eq_some transmitted with ⟨allocated, rfl⟩
  exact ⟨returned, idle, allocated, rfl⟩

theorem step_txReturn (taken : step s .txReturn = some after) :
    s.opening.tcb.unackedByteCount = 0 ∧ after = { s with waiting := false } := by
  rcases Option.ite_none_right_eq_some.mp taken with ⟨⟨_, done⟩, taken⟩
  cases taken
  exact ⟨eq_of_beq done, rfl⟩

/-- What fits the window fits the buffer behind it. -/
theorem push_of_room {data : List UInt8} (room : s.outstanding + data.length ≤ s.window.toNat)
    {peer : LiveBuf} (behind : s.window.toNat ≤ s.outstanding + peer.curCapacity.toNat) :
    (peer.push (fun offset => data.getD offset 0) (UInt32.ofNat data.length)).contents =
      peer.contents ++ data := by
  have small := peer.curCapacity.toNat_lt
  have length : (UInt32.ofNat data.length).toNat = data.length := toNat_ofNat (by omega)
  have fits : UInt32.ofNat data.length ≤ peer.curCapacity := by
    rw [UInt32.le_iff_toNat_le, length]
    omega
  rw [LiveBuf.contents_push fits, length, bytesAt_getD]

end Step

/-! ## Acknowledgements of what was sent -/

/-- The counters of the TCB as far as the connection has come. -/
def CountedIn (s : FlowState) : TcpState → Prop
  | .listen | .synSent | .synReceived | .closed =>
      s.opening.tcb.unackedByteCount = 0 ∧ s.outstanding = 0
  | .established | .closeWait =>
      s.opening.tcb.unackedByteCount.toNat = s.outstanding ∧ s.opening.tcb.curSeqN = s.una
  | .lastAck | .finWait1 | .finWait2 | .closing | .timeWait => False

/-- `unacked_byte_count` is the number of outstanding bytes, and the thread waits while
there are any. -/
structure Counted (s : FlowState) : Prop where
  counters : s.CountedIn s.opening.tcb.state
  returned : s.opening.thread = .returned true →
    s.opening.tcb.state = .established ∨ s.opening.tcb.state = .closeWait
  idle : s.waiting = false → s.outstanding = 0
  small : s.outstanding ≤ memHeapSize

theorem Counted.start (call : OpenCall) : (start call).Counted := by
  cases call with
  | connect addr port ip block size => exact ⟨⟨rfl, rfl⟩, nofun, fun _ => rfl, Nat.zero_le _⟩
  | listen addr port block size => exact ⟨⟨rfl, rfl⟩, nofun, fun _ => rfl, Nat.zero_le _⟩

section Counted

variable {s after : FlowState} {segment : Segment}

/-- Before `ESTABLISHED` no segment touches the counter. -/
theorem after_unackedByteCount_of_opening {t : Tcb} (opening : t.state.Opening) :
    (t.after segment).unackedByteCount = t.unackedByteCount := by
  unfold Tcb.after
  rcases opening with listen | synSent | synReceived
  · simp only [listen, Tcb.afterListen]
    split <;> rfl
  · simp only [synSent, Tcb.afterSynSent]
    split <;> rfl
  · simp only [synReceived, Tcb.afterSynReceived]
    split <;> rfl

/-- Where a segment takes a connection that is being opened. -/
theorem after_state_of_opening {t : Tcb} (opening : t.state.Opening) :
    (t.after segment).state.Opening ∨ (t.after segment).state = .established ∨
      (t.after segment).state = .closed := by
  have moved := after_state (t := t) segment
  generalize (t.after segment).state = next at *
  generalize t.state = before at *
  cases moved with
  | unchanged _ _ _ => exact .inl opening
  | connected => exact .inr (.inl rfl)
  | refused => exact .inr (.inr rfl)
  | requested => exact .inl (.inr (.inr rfl))
  | accepted => exact .inr (.inl rfl)
  | ended _ => rcases opening with other | other | other <;> contradiction
  | acked => rcases opening with other | other | other <;> contradiction
  | crossed => rcases opening with other | other | other <;> contradiction
  | closed before =>
      rcases before with rfl | rfl | rfl <;>
        rcases opening with other | other | other <;> contradiction

/-- A segment of the opening leaves nothing outstanding. -/
theorem countedIn_note_of_opening {opening : Opening} (counters : s.CountedIn s.opening.tcb.state)
    (before : s.opening.tcb.state.Opening)
    (received : opening.tcb = s.opening.tcb.after segment) :
    (s.note segment.header opening).CountedIn opening.tcb.state := by
  obtain ⟨unacked, none_⟩ : s.opening.tcb.unackedByteCount = 0 ∧ s.outstanding = 0 := by
    rcases before with state | state | state <;> rw [state] at counters <;> exact counters
  have unackedAfter : opening.tcb.unackedByteCount = 0 := by
    rw [received, after_unackedByteCount_of_opening before, unacked]
  have noneAfter : (s.note segment.header opening).outstanding = 0 := by
    simp only [note, none_, Nat.zero_sub]
  have una : (s.note segment.header opening).una = opening.tcb.curSeqN := by
    simp only [note, if_pos before]
  rcases received ▸ @after_state_of_opening segment _ before with opened | established | closed
  · rcases opened with state | state | state <;> rw [state] <;> exact ⟨unackedAfter, noneAfter⟩
  · rw [established]
    refine ⟨?_, una.symm⟩
    rw [noneAfter]
    exact congrArg UInt32.toNat unackedAfter
  · rw [closed]
    exact ⟨unackedAfter, noneAfter⟩

/-- A segment in `ESTABLISHED` that acknowledges outstanding bytes. -/
theorem countedIn_note_of_established {opening : Opening}
    (counters : s.opening.tcb.unackedByteCount.toNat = s.outstanding ∧
      s.opening.tcb.curSeqN = s.una)
    (small : s.outstanding ≤ memHeapSize) (established : s.opening.tcb.state = .established)
    (acks : s.AcksOutstanding (.rx segment))
    (received : opening.tcb = s.opening.tcb.after segment) :
    (s.note segment.header opening).CountedIn opening.tcb.state := by
  rcases counters with ⟨unacked, una⟩
  have same : s.opening.tcb.after segment = s.opening.tcb.afterEstablished segment := by
    simp only [Tcb.after, established]
  have later : ¬s.opening.tcb.state.Opening := by
    rw [established]
    decide
  have counts : opening.tcb.unackedByteCount.toNat = s.outstanding - s.acknowledged segment.header ∧
      opening.tcb.curSeqN = s.una + UInt32.ofNat (s.acknowledged segment.header) := by
    rw [received, same]
    by_cases ack : segment.header.ack = true
    · have covers := acks established ack
      have distance : s.acknowledged segment.header =
          (segment.header.ackN - s.opening.tcb.curSeqN).toNat := by
        rw [una, unacked] at covers
        rw [acknowledged, if_pos ⟨ack, covers⟩, una]
      unfold memHeapSize at small
      constructor
      · rw [toNat_afterEstablished_unackedByteCount segment ack covers (by omega), unacked,
          distance]
      · rw [afterEstablished_curSeqN, if_pos ack, distance, UInt32.ofNat_toNat, una]
        grind
    · have nothing : s.acknowledged segment.header = 0 := if_neg fun covers => ack covers.1
      constructor
      · rw [afterEstablished_unackedByteCount, if_neg fun covers => ack covers.1, nothing,
          Nat.sub_zero, unacked]
      · rw [afterEstablished_curSeqN, if_neg ack, nothing, una]
        grind
  have noted : (s.note segment.header opening).una =
      s.una + UInt32.ofNat (s.acknowledged segment.header) := by
    simp only [note, if_neg later]
  have open_ : opening.tcb.state = .established ∨ opening.tcb.state = .closeWait := by
    rw [received]
    exact after_state_of_established segment established
  rcases open_ with state | state <;> rw [state] <;>
    exact ⟨counts.1, counts.2.trans noted.symm⟩

/-- A segment for the connection. -/
theorem Counted.rx {opening : Opening} (counted : s.Counted)
    (acks : s.AcksOutstanding (.rx segment))
    (stepped : s.opening.step (.rx segment) = some opening) :
    (s.note segment.header opening).Counted := by
  rcases Option.ite_none_left_eq_some.mp stepped with ⟨_, stepped⟩
  by_cases closeWait : s.opening.tcb.state = .closeWait
  · rw [receive_closeWait segment closeWait] at stepped
    contradiction
  rw [receive_eq segment closeWait] at stepped
  cases stepped
  have fewer : s.outstanding - s.acknowledged segment.header ≤ s.outstanding := Nat.sub_le _ _
  have counters := counted.counters
  constructor
  · cases state : s.opening.tcb.state with
    | listen => exact countedIn_note_of_opening counters (.inl state) rfl
    | synSent => exact countedIn_note_of_opening counters (.inr (.inl state)) rfl
    | synReceived => exact countedIn_note_of_opening counters (.inr (.inr state)) rfl
    | established =>
        rw [state] at counters
        exact countedIn_note_of_established counters counted.small state acks rfl
    | closed =>
        simp only [state, CountedIn] at counters
        simp only [note, Tcb.after, state, Tcb.disarm, CountedIn, counters.1, counters.2,
          Nat.zero_sub, and_self]
    | closeWait => exact absurd state closeWait
    | lastAck => exact absurd counters (by rw [state]; exact id)
    | finWait1 => exact absurd counters (by rw [state]; exact id)
    | finWait2 => exact absurd counters (by rw [state]; exact id)
    | closing => exact absurd counters (by rw [state]; exact id)
    | timeWait => exact absurd counters (by rw [state]; exact id)
  · intro returned
    have established := (counted.returned returned).resolve_right closeWait
    exact after_state_of_established segment established
  · intro idle
    exact Nat.le_zero.mp (fewer.trans (counted.idle idle).le)
  · exact fewer.trans counted.small

/-- The condition on which `tcp_tx_data` returns. -/
theorem Counted.none_of_drained (counted : s.Counted)
    (drained : s.opening.tcb.unackedByteCount = 0) : s.outstanding = 0 := by
  have counters := counted.counters
  cases state : s.opening.tcb.state <;> rw [state] at counters
  case established | closeWait =>
    rw [← counters.1, drained]
    rfl
  case listen | synSent | synReceived | closed => exact counters.2
  case lastAck | finWait1 | finWait2 | closing | timeWait => exact counters.elim

theorem Counted.step {event : FlowEvent} (counted : s.Counted) (acks : s.AcksOutstanding event)
    (taken : FlowState.step s event = some after) : after.Counted := by
  cases event with
  | thread =>
      rcases step_thread taken with ⟨opening, stepped, rfl⟩
      rcases Option.map_eq_some_iff.mp stepped with ⟨⟨thread, sent⟩, moved, rfl⟩
      refine ⟨counted.counters, ?_, counted.idle, counted.small⟩
      rintro (rfl : thread = .returned true)
      left
      generalize here : s.opening.thread = before at moved
      have moves := OpeningThread.moves_of_step moved
      generalize success : true = returns at moves
      cases moves with
      | connectReturns _ => exact of_decide_eq_true success.symm
      | listenReturns established => exact established
  | rx segment =>
      rcases step_rx taken with ⟨opening, stepped, rfl⟩
      exact counted.rx acks stepped
  | txData data =>
      rcases step_txData taken with ⟨returned, idle, allocated, rfl⟩
      have open_ := counted.returned returned
      have none_ := counted.idle idle
      have counters : s.opening.tcb.unackedByteCount.toNat = s.outstanding ∧
          s.opening.tcb.curSeqN = s.una := by
        have counters := counted.counters
        rcases open_ with state | state <;> rw [state] at counters <;> exact counters
      unfold memHeapSize at allocated
      have counts : (s.opening.tcb.unackedByteCount + UInt32.ofNat data.length).toNat =
          s.outstanding + data.length := by
        rw [UInt32.toNat_add, toNat_ofNat (by omega), counters.1]
        exact Nat.mod_eq_of_lt (by omega)
      refine ⟨?_, counted.returned, fun waiting => (nomatch waiting), ?_⟩
      · have moved := And.intro counts counters.2
        rcases open_ with state | state <;> simp only [state] <;> exact moved
      · change s.outstanding + data.length ≤ memHeapSize
        unfold memHeapSize
        omega
  | txReturn =>
      rcases step_txReturn taken with ⟨drained, rfl⟩
      refine ⟨counted.counters, counted.returned, fun _ => ?_, counted.small⟩
      exact counted.none_of_drained drained

end Counted

section Window

variable {s after : FlowState}

/-- What a segment leaves outstanding, by the counters of the TCB. -/
theorem Counted.outstanding_rx {segment : Segment} (counted : s.Counted)
    (acks : s.AcksOutstanding (.rx segment)) (established : s.opening.tcb.state = .established) :
    s.outstanding - s.acknowledged segment.header = s.opening.tcb.unackedByteCount.toNat -
      if segment.header.ack then (segment.header.ackN - s.opening.tcb.curSeqN).toNat else 0 := by
  have counters := counted.counters
  rw [established] at counters
  rcases counters with ⟨unacked, una⟩
  rw [unacked, acknowledged]
  by_cases ack : segment.header.ack = true
  · have covers := acks established ack
    rw [una, unacked] at covers
    rw [if_pos ⟨ack, covers⟩, if_pos ack, una]
  · rw [if_neg fun both => ack both.1, if_neg ack]

/-- Only in `ESTABLISHED` is anything outstanding when a segment is handled. -/
theorem Counted.outstanding_of_rx {segment : Segment} {opening : Opening} (counted : s.Counted)
    (stepped : s.opening.step (.rx segment) = some opening)
    (other : s.opening.tcb.state ≠ .established) : s.outstanding = 0 := by
  rcases Option.ite_none_left_eq_some.mp stepped with ⟨_, stepped⟩
  have counters := counted.counters
  cases state : s.opening.tcb.state <;> rw [state] at counters
  case established => exact absurd state other
  case closeWait =>
    rw [receive_closeWait segment state] at stepped
    contradiction
  case listen | synSent | synReceived | closed => exact counters.2
  case lastAck | finWait1 | finWait2 | closing | timeWait => exact counters.elim

/-- With the counters right, an event keeps what is outstanding within the window exactly if
it fits the window. -/
theorem Counted.inWindow_iff {event : FlowEvent} (counted : s.Counted) (within : s.InWindow)
    (acks : s.AcksOutstanding event) (taken : FlowState.step s event = some after) :
    after.InWindow ↔ s.FitsWindow event := by
  cases event with
  | thread =>
      rcases step_thread taken with ⟨_, _, rfl⟩
      exact iff_of_true within trivial
  | rx segment =>
      rcases step_rx taken with ⟨opening, stepped, rfl⟩
      change s.outstanding - s.acknowledged segment.header ≤ segment.header.windowSz.toNat ↔ _
      by_cases established : s.opening.tcb.state = .established
      · rw [counted.outstanding_rx acks established]
        exact ⟨fun room _ => room, fun room => room established⟩
      · rw [counted.outstanding_of_rx stepped established, Nat.zero_sub]
        exact iff_of_true (Nat.zero_le _) fun here => absurd here established
  | txData data =>
      rcases step_txData taken with ⟨_, idle, _, rfl⟩
      change s.outstanding + data.length ≤ s.window.toNat ↔ data.length ≤ s.window.toNat
      rw [counted.idle idle, Nat.zero_add]
  | txReturn =>
      rcases step_txReturn taken with ⟨_, rfl⟩
      exact iff_of_true within trivial

/-- And then a peer with that window takes what is sent. -/
theorem Counted.respects_iff {event : FlowEvent} (counted : s.Counted) (within : s.InWindow)
    (acks : s.AcksOutstanding event) (taken : FlowState.step s event = some after) :
    Respects s event after ↔ s.FitsWindow event := by
  rw [← counted.inWindow_iff within acks taken]
  constructor
  · exact Respects.within
  · intro inWindow
    refine ⟨inWindow, ?_⟩
    rintro data rfl peer behind
    rcases step_txData taken with ⟨_, _, _, rfl⟩
    exact push_of_room inWindow behind

end Window

end FlowState

/-- For every connection that `tcp_connect` or `tcp_listen` opens, every sequence of segments
with any windows whose acknowledgements are of bytes that were sent, and all calls of
`tcp_tx_data`: the bytes outstanding stay within the last advertised window throughout exactly
if no call hands over more than that window, and no segment advertises less than the bytes in
`unacked_byte_count` that it does not acknowledge. -/
theorem flow_respects_iff (call : OpenCall) (events : List FlowEvent)
    (acks : Guarded FlowState.step FlowState.AcksOutstanding (FlowState.start call) events) :
    Along FlowState.step FlowState.Respects (FlowState.start call) events ↔
      Guarded FlowState.step FlowState.FitsWindow (FlowState.start call) events := by
  let kept : FlowState → Prop := fun s => s.Counted ∧ s.InWindow
  have initial : kept (FlowState.start call) := by
    refine ⟨.start call, ?_⟩
    cases call <;> exact Nat.zero_le _
  apply along_iff_guarded_within _ _ initial acks
  · rintro s event after ⟨counted, within⟩ covers fits taken
    exact ⟨counted.step covers taken, (counted.inWindow_iff within covers taken).mpr fits⟩
  · rintro s event after ⟨counted, within⟩ covers taken
    exact counted.respects_iff within covers taken

/-- The connection of `main` against a peer that advertises sixteen bytes.  `main` sends
twelve, the peer acknowledges eight and advertises four, then acknowledges all, and `main`
sends four more. -/
def mainLargeWindow : List FlowEvent :=
  [.thread,
    .rx { mainPeerSegment 1024 1025 [] with
      header := { (mainPeerSegment 1024 1025 []).header with
        syn := true
        windowSz := 16 } },
    .thread, .txData [72, 101, 108, 108, 111, 44, 32, 85, 68, 80, 33, 10],
    .rx { mainPeerSegment 1025 1033 [] with
      header := { (mainPeerSegment 1025 1033 []).header with windowSz := 4 } },
    .rx { mainPeerSegment 1025 1037 [] with
      header := { (mainPeerSegment 1025 1037 []).header with windowSz := 4 } },
    .txReturn, .txData [66, 121, 101, 33]]

theorem flow_respects_iff_main :
    (run FlowState.step (FlowState.start (.connect 0 5757 0xc0a80476 (List.replicate 127 0)
        length_clearedBlock)) mainLargeWindow).isSome ∧
      Along FlowState.step FlowState.Respects (FlowState.start (.connect 0 5757 0xc0a80476
        (List.replicate 127 0) length_clearedBlock)) mainLargeWindow :=
  ⟨by decide +kernel, (flow_respects_iff _ _ (by decide +kernel)).mpr (by decide +kernel)⟩

/-- The connection of `main`, opened against a peer that advertises four bytes, and the
twelve bytes that `main` sends. -/
def mainSmallWindow : List FlowEvent :=
  [.thread,
    .rx { mainPeerSegment 1024 1025 [] with
      header := { (mainPeerSegment 1024 1025 []).header with
        syn := true
        windowSz := 4 } },
    .thread, .txData [72, 101, 108, 108, 111, 44, 32, 85, 68, 80, 33, 10]]

/-- `tcp_tx_data` transmits all of them at once. -/
theorem flow_not_respects_smallWindow :
    ∃ after,
      run FlowState.step (FlowState.start (.connect 0 5757 0xc0a80476 (List.replicate 127 0)
        length_clearedBlock)) mainSmallWindow = some after ∧
      after.opening.tcb.hostWindowSz = 4 ∧ after.window = 4 ∧ after.outstanding = 12 ∧
      ¬Along FlowState.step FlowState.Respects (FlowState.start (.connect 0 5757 0xc0a80476
        (List.replicate 127 0) length_clearedBlock)) mainSmallWindow := by
  refine ⟨_, rfl, rfl, rfl, rfl, ?_⟩
  intro along
  rcases along _ rfl with ⟨_, along⟩
  rcases along _ rfl with ⟨_, along⟩
  rcases along _ rfl with ⟨_, along⟩
  rcases along _ rfl with ⟨respects, _⟩
  exact absurd (show 12 ≤ 4 from respects.within) (by decide)

end Lpc17xx.Tcp
