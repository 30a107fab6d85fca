import Lpc17xx.Stream.Credit
import Lpc17xx.Tcp.Opening
import Lpc17xx.Tcp.Pair

/-!
# An open pair carries two credit-controlled streams

From the moment the connecting host takes the SYN+ACK, the two TCBs, the two
receive buffers and the segments under way are a representation of two
directions of a credit-controlled stream.  Every segment is at once a piece of
the one stream and an acknowledgement of the other.
-/

namespace Lpc17xx.Tcp

open Lpc17xx.Cbuf
open Lpc17xx.Serial
open Lpc17xx.Stream

/-- The port of each host. -/
def Addresses.portOf (hosts : Addresses) : Side → UInt16
  | .connecting => 65355
  | .listening => hosts.port

/-- The TCB names the connection of its host. -/
structure Named (hosts : Addresses) (side : Side) (t : Tcb) : Prop where
  srcPort : t.srcPort = hosts.portOf side
  dstPort : t.dstPort = hosts.portOf side.other
  dstIp : t.dstIp = hosts.ip side.other

/-- A segment of `side` that carries one piece of its stream and one
acknowledgement of the stream of its peer. -/
structure Carries (hosts : Addresses) (side : Side) (tx : TcpTx) (piece : List UInt8)
    (ack : Ack) : Prop where
  payload : tx.payload = piece
  ackN : tx.header.ackN = place (isn + 1) ack.upTo
  windowSz : tx.header.windowSz.toNat = ack.window
  ack : tx.header.ack = true
  fin : tx.header.fin = false
  sourcePort : tx.header.sourcePort = hosts.portOf side
  destPort : tx.header.destPort = hosts.portOf side.other

/-- The channel of `side` carries these pieces and acknowledgements. -/
inductive Carried (hosts : Addresses) (side : Side) :
    List TcpTx → List (List UInt8) → List Ack → Prop
  | nil : Carried hosts side [] [] []
  | cons {tx : TcpTx} {piece : List UInt8} {ack : Ack} {wire : List TcpTx}
      {pieces : List (List UInt8)} {acks : List Ack} :
      Carries hosts side tx piece ack → Carried hosts side wire pieces acks →
      Carried hosts side (tx :: wire) (piece :: pieces) (ack :: acks)

theorem Carried.snoc {hosts : Addresses} {side : Side} {wire : List TcpTx}
    {pieces : List (List UInt8)} {acks : List Ack} {tx : TcpTx} {piece : List UInt8} {ack : Ack}
    (carried : Carried hosts side wire pieces acks) (last : Carries hosts side tx piece ack) :
    Carried hosts side (wire ++ [tx]) (pieces ++ [piece]) (acks ++ [ack]) := by
  induction carried with
  | nil => exact .cons last .nil
  | cons first _ ih => exact .cons first ih

/-- The oldest segment carries the oldest piece and acknowledgement. -/
theorem Carried.head {hosts : Addresses} {side : Side} {tx : TcpTx} {wire : List TcpTx}
    {pieces : List (List UInt8)} {acks : List Ack}
    (carried : Carried hosts side (tx :: wire) pieces acks) :
    ∃ pieces' ack acks', pieces = tx.payload :: pieces' ∧ acks = ack :: acks' ∧
      Carries hosts side tx tx.payload ack ∧ Carried hosts side wire pieces' acks' := by
  cases carried with
  | cons first rest =>
      cases first.payload
      exact ⟨_, _, _, rfl, rfl, first, rest⟩

/-- An open end: the counter stands at the last acknowledgement taken. -/
structure Opened (endpoint : Endpoint) (out : Flow UInt8) (t : Tcb) : Prop where
  state : t.state = .established
  curSeqN : t.curSeqN = place (isn + 1) out.acked
  thread : endpoint.thread = some .connectWaiting ∨ endpoint.thread = some .listenAnswered ∨
    endpoint.thread = some (.returned true)

/-- The listening end between its SYN+ACK and the acknowledgement of it, which is
the next segment to arrive. -/
structure Answered (endpoint : Endpoint) (inward : Flow UInt8) (t : Tcb) : Prop where
  state : t.state = .synReceived
  thread : endpoint.thread = some .listenAnswered
  sending : endpoint.sending = false
  next : ∃ rest, inward.wire = [] :: rest

/-- One end of the connection represents the sender of the flow `out` and the
receiver of the flow `inward`. -/
structure Speaks (hosts : Addresses) (side : Side) (endpoint : Endpoint)
    (out inward : Flow UInt8) (t : Tcb) : Prop where
  tcb : endpoint.tcb = some t
  named : Named hosts side t
  sent : endpoint.sent = out.sent
  unacked : t.unackedByteCount.toNat + out.acked = out.sent.length
  bounded : t.unackedByteCount.toNat ≤ tcpBufSz.toNat
  quiet : endpoint.sending = false → t.unackedByteCount = 0
  credit : endpoint.lastWindow.toNat = out.credit
  curAckN : t.curAckN = place (isn + 1) inward.received.length
  received : inward.received = endpoint.popped ++ t.rxBuf.contents
  room : t.rxBuf.curCapacity.toNat = inward.room
  capacity : t.rxBuf.contents.length + inward.room = tcpBufSz.toNat
  phase : Opened endpoint out t ∨ Answered endpoint inward t

/-- The pair represents two sound flows, one for the stream of each side. -/
structure Talking (hosts : Addresses) (s : Pair) (flow : Side → Flow UInt8) : Prop where
  sound : ∀ side, (flow side).Sound
  carried : ∀ side, Carried hosts side (s.wire side) (flow side).wire (flow side.other).acks
  speaks : ∀ side, ∃ t, Speaks hosts side (s.ends side) (flow side) (flow side.other) t

/-- The two flows seen from one side. -/
def flows (side : Side) (out inward : Flow UInt8) : Side → Flow UInt8 :=
  fun each => if each = side then out else inward

@[simp]
theorem flows_self (side : Side) (out inward : Flow UInt8) : flows side out inward side = out :=
  if_pos rfl

@[simp]
theorem flows_other (side : Side) (out inward : Flow UInt8) :
    flows side out inward side.other = inward :=
  if_neg side.other_ne

namespace Pair

variable (s : Pair) (side : Side) (endpoint : Endpoint) (sent rest : List TcpTx)

@[simp]
theorem put_ends_self : (s.put side endpoint sent).ends side = endpoint := by
  simp [put]

@[simp]
theorem put_ends_other : (s.put side endpoint sent).ends side.other = s.ends side.other := by
  simp [put]

@[simp]
theorem put_wire_self : (s.put side endpoint sent).wire side = s.wire side ++ sent := by
  simp [put]

@[simp]
theorem put_wire_other : (s.put side endpoint sent).wire side.other = s.wire side.other := by
  simp [put]

@[simp]
theorem take_wire_self : (s.take side rest).wire side = s.wire side := by
  simp [take]

@[simp]
theorem take_wire_other : (s.take side rest).wire side.other = rest := by
  simp [take]

/-- Two moves of one host are one. -/
theorem put_put (first second : Endpoint) (early late : List TcpTx) :
    (s.put side first early).put side second late = s.put side second (early ++ late) := by
  simp [put, List.append_assoc]

end Pair

section

variable {hosts : Addresses} {s : Pair} {side : Side} {endpoint : Endpoint}
  {out inward out' inward' : Flow UInt8} {t : Tcb}

/-- An end does not see what its peer puts on the channel. -/
theorem Speaks.peer (speaks : Speaks hosts side endpoint out inward t)
    (sent : out'.sent = out.sent) (acked : out'.acked = out.acked)
    (credit : out'.credit = out.credit) (received : inward'.received = inward.received)
    (room : inward'.room = inward.room)
    (wire : ∀ rest, inward.wire = [] :: rest → ∃ rest, inward'.wire = [] :: rest) :
    Speaks hosts side endpoint out' inward' t where
  tcb := speaks.tcb
  named := speaks.named
  sent := speaks.sent.trans sent.symm
  unacked := by rw [acked, sent]; exact speaks.unacked
  bounded := speaks.bounded
  quiet := speaks.quiet
  credit := speaks.credit.trans credit.symm
  curAckN := by rw [received]; exact speaks.curAckN
  received := received.trans speaks.received
  room := speaks.room.trans room.symm
  capacity := by rw [room]; exact speaks.capacity
  phase := by
    rcases speaks.phase with opened | answered
    · exact .inl ⟨opened.state, by rw [acked]; exact opened.curSeqN, opened.thread⟩
    · rcases answered.next with ⟨rest, next⟩
      exact .inr ⟨answered.state, answered.thread, answered.sending, wire rest next⟩

/-- The acknowledgement number and window of every segment of an end describe
the flow it receives. -/
theorem Speaks.carries (speaks : Speaks hosts side endpoint out inward t) (destIp : UInt32)
    (piece : List UInt8) :
    Carries hosts side ⟨t.ackHeader, destIp, piece⟩ piece
      ⟨inward.received.length, inward.room⟩ where
  payload := rfl
  ackN := speaks.curAckN
  windowSz := by
    have bound := speaks.capacity
    have room := speaks.room
    change t.rxBuf.curCapacity.toUInt16.toNat = inward.room
    change _ = 127 at bound
    rw [UInt32.toNat_toUInt16, room, Nat.mod_eq_of_lt (by omega)]
  ack := rfl
  fin := rfl
  sourcePort := speaks.named.srcPort
  destPort := speaks.named.dstPort

/-- One end moves on and the flows with it. -/
theorem Talking.put {sent : List TcpTx} (soundOut : out.Sound) (soundInward : inward.Sound)
    (carriedOut : Carried hosts side (s.wire side ++ sent) out.wire inward.acks)
    (carriedInward : Carried hosts side.other (s.wire side.other) inward.wire out.acks)
    (here : Speaks hosts side endpoint out inward t)
    (there : ∃ peer, Speaks hosts side.other (s.ends side.other) inward out peer) :
    Talking hosts (s.put side endpoint sent) (flows side out inward) where
  sound := Side.forall_of side (by simpa using soundOut) (by simpa using soundInward)
  carried := Side.forall_of side (by simpa using carriedOut) (by simpa using carriedInward)
  speaks := Side.forall_of side ⟨t, by simpa using here⟩ (by simpa using there)

/-- The peer of an end. -/
theorem Talking.there {flow : Side → Flow UInt8} (talking : Talking hosts s flow) (side : Side) :
    ∃ peer, Speaks hosts side.other (s.ends side.other) (flow side.other) (flow side) peer := by
  simpa using talking.speaks side.other

theorem Talking.carried_other {flow : Side → Flow UInt8} (talking : Talking hosts s flow)
    (side : Side) :
    Carried hosts side.other (s.wire side.other) (flow side.other).wire (flow side).acks := by
  simpa using talking.carried side.other

/-- An end puts one piece on the channel, and with it an acknowledgement. -/
theorem Talking.transmit {flow : Side → Flow UInt8} {after : Tcb} {piece : List UInt8}
    (talking : Talking hosts s flow)
    (speaks : Speaks hosts side (s.ends side) (flow side) (flow side.other) t)
    (sound : ((flow side).transmit piece).Sound) (destIp : UInt32)
    (here : Speaks hosts side endpoint ((flow side).transmit piece)
      (flow side.other).acknowledge after) :
    Talking hosts (s.put side endpoint [⟨t.ackHeader, destIp, piece⟩])
      (flows side ((flow side).transmit piece) (flow side.other).acknowledge) := by
  rcases talking.there side with ⟨peer, there⟩
  refine .put sound (talking.sound side.other).acknowledge ?_ (talking.carried_other side) here ?_
  · exact (talking.carried side).snoc (speaks.carries destIp piece)
  · refine ⟨peer, there.peer rfl rfl rfl rfl rfl ?_⟩
    rintro rest next
    exact ⟨rest ++ [piece], by simp [Flow.transmit, next]⟩

/-- A segment without payload says nothing new about its sender. -/
theorem Talking.reply {flow : Side → Flow UInt8} (talking : Talking hosts s flow) (side : Side)
    (speaks : Speaks hosts side (s.ends side) (flow side) (flow side.other) t) (destIp : UInt32) :
    Talking hosts (s.put side (s.ends side) [⟨t.ackHeader, destIp, []⟩])
      (flows side ((flow side).transmit []) (flow side.other).acknowledge) := by
  have still : Speaks hosts side (s.ends side) ((flow side).transmit [])
      (flow side.other).acknowledge t :=
    speaks.peer (List.append_nil _) rfl rfl rfl rfl fun rest next => ⟨rest, next⟩
  exact talking.transmit speaks (talking.sound side).transmit_nil destIp still

/-- The sending part of `tcp_tx_data`. -/
theorem Talking.txData {flow : Side → Flow UInt8} {data : List UInt8}
    (talking : Talking hosts s flow)
    (speaks : Speaks hosts side (s.ends side) (flow side) (flow side.other) t)
    (may : Pair.MaySend (s.ends side) data) :
    Talking hosts
      (s.put side
        { s.ends side with
          tcb := some { t with
            unackedByteCount := t.unackedByteCount + UInt32.ofNat data.length }
          sending := true
          sent := (s.ends side).sent ++ data } [⟨t.ackHeader, t.dstIp, data⟩])
      (flows side ((flow side).transmit data) (flow side.other).acknowledge) := by
  rcases may with ⟨returned, idle, _, covered⟩
  have silent : t.unackedByteCount.toNat = 0 := by
    rw [speaks.quiet idle]
    rfl
  have quiet : (flow side).acked = (flow side).sent.length := by
    rw [← speaks.unacked, silent, Nat.zero_add]
  rw [speaks.credit] at covered
  have room := (talking.sound side).credit_le_room quiet
  rcases talking.there side with ⟨peer, there⟩
  have capacity := there.capacity
  change _ = 127 at capacity
  have counted : (t.unackedByteCount + UInt32.ofNat data.length).toNat = data.length := by
    rw [UInt32.toNat_add, silent, Nat.zero_add, toNat_ofNat (by omega), Nat.mod_eq_of_lt (by omega)]
  have opened : Opened (s.ends side) (flow side) t := by
    rcases speaks.phase with opened | answered
    · exact opened
    · exact nomatch returned.symm.trans answered.thread
  refine talking.transmit speaks ((talking.sound side).transmit_granted quiet covered) t.dstIp
    { speaks with
      tcb := rfl
      named := ⟨speaks.named.srcPort, speaks.named.dstPort, speaks.named.dstIp⟩
      sent := congrArg (· ++ data) speaks.sent
      unacked := ?_
      bounded := ?_
      quiet := fun waiting => nomatch waiting
      phase := .inl ⟨opened.state, opened.curSeqN, opened.thread⟩ }
  · change (t.unackedByteCount + _).toNat + (flow side).acked = ((flow side).sent ++ data).length
    rw [counted, List.length_append, quiet, Nat.add_comm]
  · change (t.unackedByteCount + _).toNat ≤ 127
    omega

/-- The return of `tcp_tx_data`. -/
theorem Talking.txReturn {flow : Side → Flow UInt8} (talking : Talking hosts s flow)
    (speaks : Speaks hosts side (s.ends side) (flow side) (flow side.other) t)
    (done : t.unackedByteCount = 0) :
    Talking hosts (s.put side { s.ends side with sending := false } [])
      (flows side (flow side) (flow side.other)) := by
  have here : Speaks hosts side { s.ends side with sending := false } (flow side)
      (flow side.other) t :=
    { speaks with
      quiet := fun _ => done
      phase := by
        rcases speaks.phase with opened | answered
        · exact .inl ⟨opened.state, opened.curSeqN, opened.thread⟩
        · exact .inr ⟨answered.state, answered.thread, rfl, answered.next⟩ }
  refine .put (talking.sound side) (talking.sound side.other) ?_ (talking.carried_other side)
    here (talking.there side)
  simpa using talking.carried side

/-- A thread that finds its condition moves on and leaves the connection open. -/
theorem Talking.thread {flow : Side → Flow UInt8} {thread next : OpeningThread}
    {sent : Option TcpTx} (talking : Talking hosts s flow)
    (speaks : Speaks hosts side (s.ends side) (flow side) (flow side.other) t)
    (position : (s.ends side).thread = some thread) (moved : thread.Moves t next sent) :
    Talking hosts
      (s.put side
        { s.ends side with
          tcb := if next = .returned false then none else some t
          thread := some next } sent.toList)
      (flows side (flow side) (flow side.other)) := by
  have returned : next = .returned true ∧ sent = none ∧ Opened (s.ends side) (flow side) t := by
    rcases speaks.phase with opened | answered
    · have established := opened.state
      rcases opened.thread with waiting | answering | done
      · cases position.symm.trans waiting
        cases moved with
        | connectReturns _ => exact ⟨by simp [established], rfl, opened⟩
      · cases position.symm.trans answering
        cases moved with
        | listenReturns _ => exact ⟨rfl, rfl, opened⟩
      · cases position.symm.trans done
        cases moved
    · cases position.symm.trans answered.thread
      cases moved with
      | listenReturns established => exact nomatch established.symm.trans answered.state
  rcases returned with ⟨rfl, rfl, opened⟩
  have here : Speaks hosts side
      { s.ends side with
        tcb := if OpeningThread.returned true = .returned false then none else some t
        thread := some (.returned true) } (flow side) (flow side.other) t :=
    { speaks with
      tcb := rfl
      phase := .inl ⟨opened.state, opened.curSeqN, .inr (.inr rfl)⟩ }
  refine .put (talking.sound side) (talking.sound side.other) ?_ (talking.carried_other side)
    here (talking.there side)
  simpa using talking.carried side

/-- One round of `tcp_rx_data`. -/
theorem Talking.rxData {flow : Side → Flow UInt8} {len : UInt32} {bytes : List UInt8} {after : Tcb}
    (talking : Talking hosts s flow)
    (speaks : Speaks hosts side (s.ends side) (flow side) (flow side.other) t)
    (popped : tcpRxDataRound t len = some (bytes, after)) :
    Talking hosts
      (s.put side
        { s.ends side with
          tcb := some after
          popped := (s.ends side).popped ++ bytes } [])
      (flows side (flow side) ((flow side.other).consume bytes.length)) := by
  rcases tcpRxDataRound_eq_some popped with ⟨rxBuf, rfl, front, room⟩
  rcases talking.there side with ⟨peer, there⟩
  have here : Speaks hosts side
      { s.ends side with
        tcb := some { t with rxBuf }
        popped := (s.ends side).popped ++ bytes }
      (flow side) ((flow side.other).consume bytes.length) { t with rxBuf } :=
    { speaks with
      tcb := rfl
      named := ⟨speaks.named.srcPort, speaks.named.dstPort, speaks.named.dstIp⟩
      received := by
        change (flow side.other).received = (s.ends side).popped ++ bytes ++ rxBuf.contents
        rw [speaks.received, front, List.append_assoc]
      room := by
        change rxBuf.curCapacity.toNat = (flow side.other).room + bytes.length
        rw [room, speaks.room]
      capacity := by
        have capacity := speaks.capacity
        rw [front, List.length_append] at capacity
        change rxBuf.contents.length + ((flow side.other).room + bytes.length) = _
        omega
      phase := by
        rcases speaks.phase with opened | answered
        · exact .inl ⟨opened.state, opened.curSeqN, opened.thread⟩
        · exact .inr ⟨answered.state, answered.thread, answered.sending, answered.next⟩ }
  refine .put (talking.sound side) ((talking.sound side.other).consume _) ?_
    (talking.carried_other side) here
    ⟨peer, there.peer rfl rfl rfl rfl rfl fun rest next => ⟨rest, next⟩⟩
  simpa [Flow.consume] using talking.carried side

/-! ## One segment delivered -/

/-- An open end takes one piece and one acknowledgement. -/
theorem Speaks.absorb {segment : Segment} {tx : TcpTx} {ack : Ack} {acks : List Ack}
    {pieces : List (List UInt8)} (speaks : Speaks hosts side endpoint out inward t)
    (opened : Opened endpoint out t) (soundOut : out.Sound) (soundInward : inward.Sound)
    (nextAck : out.acks = ack :: acks) (nextPiece : inward.wire = segment.payload :: pieces)
    (carries : Carries hosts side.other tx segment.payload ack)
    (header : segment.header = tx.header) :
    Speaks hosts side
      { endpoint with
        tcb := some (t.afterEstablished segment)
        lastWindow := tx.header.windowSz }
      (out.ackArrive ack acks) (inward.arrive segment.payload pieces)
      (t.afterEstablished segment) := by
  rcases soundOut.ack_bounds nextAck with ⟨forward, back⟩
  have ackedLe := soundOut.length_received_le
  have fits := soundInward.length_le_room nextPiece
  have unackedBound := speaks.bounded
  have unacked := speaks.unacked
  have capacity := speaks.capacity
  have room := speaks.room
  change _ ≤ 127 at unackedBound
  change _ = 127 at capacity
  have distance : (segment.header.ackN - t.curSeqN).toNat = ack.upTo - out.acked := by
    rw [header, carries.ackN, opened.curSeqN, place_sub_place _ forward, toNat_ofNat (by omega)]
  have remaining : (t.afterEstablished segment).unackedByteCount.toNat =
      t.unackedByteCount.toNat - (ack.upTo - out.acked) := by
    rw [← distance]
    apply toNat_afterEstablished_unackedByteCount
    · rw [header, carries.ack]
    · rw [distance]
      omega
    · omega
  have fitsWord : segment.dataLen ≤ t.rxBuf.curCapacity := by
    rw [UInt32.le_iff_toNat_le, Segment.toNat_dataLen, room]
    exact fits
  have noFin : segment.header.fin = false := by rw [header, carries.fin]
  obtain ⟨_, srcPort, dstPort, dstIp⟩ := afterEstablished_frame (t := t) segment
  have roomAfter : (t.afterEstablished segment).rxBuf.curCapacity.toNat =
      inward.room - segment.payload.length := by
    rw [afterEstablished_curCapacity segment fitsWord, UInt32.toNat_sub_of_le _ _ fitsWord,
      Segment.toNat_dataLen, room]
  have contentsAfter := afterEstablished_contents segment fitsWord
  exact
    { tcb := rfl
      named := ⟨srcPort.trans speaks.named.srcPort, dstPort.trans speaks.named.dstPort,
        dstIp.trans speaks.named.dstIp⟩
      sent := speaks.sent
      unacked := by
        rw [remaining]
        change _ + ack.upTo = out.sent.length
        omega
      bounded := by
        rw [remaining]
        change _ ≤ 127
        omega
      quiet := by
        intro idle
        rw [← UInt32.toNat_inj, remaining, speaks.quiet idle]
        simp
      credit := carries.windowSz
      curAckN := by
        change _ = place (isn + 1) (inward.received ++ segment.payload).length
        rw [afterEstablished_curAckN, noFin, speaks.curAckN, List.length_append, place_add,
          Segment.ofNat_length]
        simp
      received := by
        change inward.received ++ segment.payload = endpoint.popped ++ _
        rw [contentsAfter, speaks.received, List.append_assoc]
      room := roomAfter
      capacity := by
        rw [contentsAfter, List.length_append]
        change _ + (inward.room - segment.payload.length) = 127
        omega
      phase := by
        refine .inl ⟨?_, ?_, opened.thread⟩
        · rw [afterEstablished_state, noFin]
          exact opened.state
        · rw [afterEstablished_curSeqN, header, if_pos carries.ack, carries.ackN]
          rfl }

/-- The listening end opens with the acknowledgement of its SYN+ACK. -/
theorem Speaks.open_ {segment : Segment} {tx : TcpTx} {ack : Ack} {acks : List Ack}
    {pieces : List (List UInt8)} (speaks : Speaks hosts side endpoint out inward t)
    (answered : Answered endpoint inward t) (soundOut : out.Sound)
    (nextAck : out.acks = ack :: acks) (nextPiece : inward.wire = segment.payload :: pieces)
    (carries : Carries hosts side.other tx segment.payload ack)
    (header : segment.header = tx.header) :
    Speaks hosts side
      { endpoint with
        tcb := some (t.afterSynReceived segment)
        lastWindow := tx.header.windowSz }
      (out.ackArrive ack acks) (inward.arrive segment.payload pieces)
      (t.afterSynReceived segment) := by
  rcases soundOut.ack_bounds nextAck with ⟨forward, back⟩
  have ackedLe := soundOut.length_received_le
  rcases answered.next with ⟨_, next⟩
  rcases List.cons.inj (nextPiece.symm.trans next) with ⟨empty, _⟩
  have acks : segment.header.ack = true := by rw [header, carries.ack]
  have moved : t.afterSynReceived segment =
      { t.disarm with curSeqN := segment.header.ackN, state := .established } := if_pos acks
  have silent : t.unackedByteCount.toNat = 0 := by
    rw [speaks.quiet answered.sending]
    rfl
  have unacked := speaks.unacked
  rw [moved, empty]
  exact
    { tcb := rfl
      named := ⟨speaks.named.srcPort, speaks.named.dstPort, speaks.named.dstIp⟩
      sent := speaks.sent
      unacked := by
        change t.unackedByteCount.toNat + ack.upTo = out.sent.length
        omega
      bounded := speaks.bounded
      quiet := speaks.quiet
      credit := carries.windowSz
      curAckN := by
        change t.curAckN = place (isn + 1) (inward.received ++ []).length
        rw [List.append_nil]
        exact speaks.curAckN
      received := by
        change inward.received ++ [] = _
        rw [List.append_nil]
        exact speaks.received
      room := speaks.room
      capacity := speaks.capacity
      phase := by
        refine .inl ⟨rfl, ?_, .inr (.inl answered.thread)⟩
        change segment.header.ackN = _
        rw [header, carries.ackN]
        rfl }

/-- A segment for which the search finds the only TCB goes to it. -/
theorem rxPacket_of_found {srcIp : UInt32} {tx : TcpTx} (tcb : endpoint.tcb = some t)
    (found : findTcb [t] srcIp tx.header = some 0) :
    Pair.rxPacket endpoint srcIp tx =
      (t.receive (.ofPayload srcIp tx.header tx.payload)).map fun outcome =>
        { tcbHead := outcome.tcb.toList, sent := outcome.sent, wakeup := outcome.wakeup } := by
  rw [Pair.rxPacket, tcb, Option.toList_some, rxSegment, found]
  change Option.map _ (t.receive (.ofPayload srcIp tx.header tx.payload)) = _
  congr 1
  funext outcome
  cases outcome.tcb <;> rfl

/-- A segment that names the connection goes to its TCB. -/
theorem rxPacket_named {tx : TcpTx} (tcb : endpoint.tcb = some t) (named : Named hosts side t)
    (sourcePort : tx.header.sourcePort = hosts.portOf side.other)
    (destPort : tx.header.destPort = hosts.portOf side) :
    Pair.rxPacket endpoint (hosts.ip side.other) tx =
      (t.receive (.ofPayload (hosts.ip side.other) tx.header tx.payload)).map fun outcome =>
        { tcbHead := outcome.tcb.toList, sent := outcome.sent, wakeup := outcome.wakeup } := by
  have selected : t.matchesConnection (hosts.ip side.other) tx.header = true := by
    simp [Tcb.matchesConnection, named.srcPort, named.dstPort, named.dstIp, sourcePort, destPort]
  exact rxPacket_of_found tcb (by simp [findTcb, selected])

/-- One end takes the oldest segment and transmits nothing yet. -/
theorem Talking.absorb {flow : Side → Flow UInt8} {after : Tcb} {tx : TcpTx} {rest : List TcpTx}
    {ack : Ack} {acks : List Ack} {pieces : List (List UInt8)} (talking : Talking hosts s flow)
    (nextAck : (flow side).acks = ack :: acks)
    (nextPiece : (flow side.other).wire = tx.payload :: pieces)
    (carried : Carried hosts side.other rest pieces acks)
    (here : Speaks hosts side endpoint ((flow side).ackArrive ack acks)
      ((flow side.other).arrive tx.payload pieces) after) :
    Talking hosts ((s.take side rest).put side endpoint [])
      (flows side ((flow side).ackArrive ack acks)
        ((flow side.other).arrive tx.payload pieces)) := by
  rcases talking.there side with ⟨peer, there⟩
  refine .put ((talking.sound side).ackArrive nextAck)
    ((talking.sound side.other).arrive nextPiece) ?_ ?_ here
    ⟨peer, there.peer rfl rfl rfl rfl rfl fun rest next => ⟨rest, next⟩⟩
  · simpa [Flow.ackArrive, Flow.arrive] using talking.carried side
  · simpa [Flow.ackArrive, Flow.arrive] using carried

/-- A segment delivered to one end of an open pair. -/
theorem Talking.deliver {flow : Side → Flow UInt8} {tx : TcpTx} {rest : List TcpTx}
    {outcome : HostOutcome} (talking : Talking hosts s flow)
    (speaks : Speaks hosts side (s.ends side) (flow side) (flow side.other) t)
    (pending : s.wire side.other = tx :: rest)
    (received : Pair.rxPacket (s.ends side) (hosts.ip side.other) tx = some outcome) :
    ∃ flow', Talking hosts
      ((s.take side rest).put side
        { s.ends side with
          tcb := outcome.tcbHead.head?
          lastWindow := tx.header.windowSz } outcome.sent) flow' := by
  have carried := talking.carried_other side
  rw [pending] at carried
  rcases carried.head with ⟨pieces, ack, acks, nextPiece, nextAck, carries, behind⟩
  have soundOut := talking.sound side
  have soundInward := talking.sound side.other
  have fits : tx.payload.length ≤ memHeapSize := by
    have room := soundInward.length_le_room nextPiece
    have capacity := speaks.capacity
    change _ = 127 at capacity
    unfold memHeapSize
    omega
  have destPort : tx.header.destPort = hosts.portOf side := by
    simpa using carries.destPort
  rw [rxPacket_named speaks.tcb speaks.named carries.sourcePort destPort] at received
  generalize named : Segment.ofPayload (hosts.ip side.other) tx.header tx.payload = segment
    at received
  have header : segment.header = tx.header := by
    rw [← named]
    rfl
  have payload : segment.payload = tx.payload := by
    rw [← named]
    exact Segment.payload_ofPayload fits
  rw [← payload] at carries nextPiece
  rcases speaks.phase with opened | answered
  · have here := speaks.absorb opened soundOut soundInward nextAck nextPiece carries header
    rw [payload] at here nextPiece
    have absorbed := talking.absorb nextAck nextPiece behind here
    rw [receive_established segment opened.state, Option.map_some, Option.some.injEq] at received
    cases received
    by_cases answers : t.answersEstablished segment = true
    · rw [if_pos answers]
      have replied := absorbed.reply side (by simpa using here) segment.srcIp
      rw [Pair.put_put, Pair.put_ends_self] at replied
      exact ⟨_, replied⟩
    · rw [if_neg answers]
      exact ⟨_, absorbed⟩
  · have here := speaks.open_ answered soundOut nextAck nextPiece carries header
    rw [payload] at here nextPiece
    have absorbed := talking.absorb nextAck nextPiece behind here
    rw [receive_synReceived segment answered.state, Option.map_some, Option.some.injEq] at received
    cases received
    exact ⟨_, absorbed⟩

end

end Lpc17xx.Tcp
