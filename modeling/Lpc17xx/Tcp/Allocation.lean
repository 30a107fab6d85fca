import Lpc17xx.Memory.Ownership
import Lpc17xx.Tcp.Closing

/-!
# The heap behind `tcp_tx`

`tcp_compute_checksum` sums over a copy of the segment, `tcp_tx` puts header and payload
together in `buf`, and `ip4_xmit_packet` copies `buf` for its queue, whose entry is a block
as well.  Where `get_mem` finds no block, the processor stays in it with interrupts off.
So a segment that is answered needs room for the answer, and whoever runs between the calls
may take it.
-/

namespace Lpc17xx.Tcp

open Lpc17xx.Memory

/-- `buf_sz` in `tcp_compute_checksum`, for a header of 20 bytes and a pseudo header
of 12. -/
def checksumBufSz (payloadLen : Nat) : Nat :=
  let bufSz := 20 + 12 + payloadLen
  if bufSz % 2 = 0 then bufSz else bufSz + 1

/-- The heap that a call finds, and what interrupts and other processes do to it before the
call comes back to it for the first time, the second and so on. -/
structure SharedHeap (H : Type) where
  found : H
  others : Nat → H → H

namespace SharedHeap

variable {H : Type}

/-- Nobody else uses the heap during the call. -/
def alone (found : H) : SharedHeap H where
  found := found
  others := fun _ heap => heap

/-- The heap that a call further down finds, when so many uses have gone before. -/
def later (shared : SharedHeap H) (uses : Nat) (found : H) : SharedHeap H where
  found := found
  others := fun use => shared.others (uses + use)

end SharedHeap

section Heap

variable {H B : Type} [DecidableEq B] (mem : Allocator H B)

/-- What `ip4_xmit_packet` allocates.  The wait nodes that it frees are left to the
others. -/
def ip4XmitPacketHeap (shared : SharedHeap H) (payloadLen : Nat) : Option H := do
  let (_newPacket, heap) ← mem.getMem shared.found 24
  let (_payloadCopy, heap) ← mem.getMem (shared.others 0 heap) payloadLen
  some heap

/-- What `tcp_tx` does to the heap. -/
def tcpTxHeap (shared : SharedHeap H) (payloadLen : Nat) : Option H := do
  let (sumBuf, heap) ← mem.getMem shared.found (checksumBufSz payloadLen)
  let heap := mem.freeMem (shared.others 0 heap) sumBuf
  let (buf, heap) ← mem.getMem (shared.others 1 heap) (20 + payloadLen)
  let heap ← ip4XmitPacketHeap mem (shared.later 3 (shared.others 2 heap)) (20 + payloadLen)
  some (mem.freeMem (shared.others 4 heap) buf)

/-- What the calls of `tcp_tx` do that a segment causes. -/
def tcpTxsHeap : SharedHeap H → List TcpTx → Option H
  | shared, [] => some shared.found
  | shared, tx :: sent =>
      (tcpTxHeap mem shared tx.payload.length).bind fun heap =>
        tcpTxsHeap (shared.later 6 (shared.others 5 heap)) sent

/-- The heap has room for a segment without payload: for the block of the checksum, and
once that is free again for `buf`, the entry of the queue and the copy in it. -/
def RoomForSegment (shared : SharedHeap H) : Prop :=
  ∃ sumBuf heap, mem.getMem shared.found 32 = some (sumBuf, heap) ∧
    mem.Serves (mem.freeMem (shared.others 0 heap) sumBuf)
      [(shared.others 1, 20), (shared.others 2, 24), (shared.others 3, 20)]

theorem isSome_tcpTxHeap_iff (shared : SharedHeap H) :
    (tcpTxHeap mem shared 0).isSome ↔ RoomForSegment mem shared := by
  constructor
  · intro done
    rcases Option.isSome_iff_exists.mp done with ⟨last, done⟩
    simp only [tcpTxHeap, ip4XmitPacketHeap, Option.bind_eq_bind, Option.bind_eq_some_iff,
      Prod.exists] at done
    rcases done with ⟨sumBuf, first, got, buf, second, built, third, queued, _⟩
    rcases queued with ⟨newPacket, fourth, linked, payloadCopy, fifth, copied, _⟩
    exact ⟨sumBuf, first, got, buf, second, built, newPacket, fourth, linked, payloadCopy, fifth,
      copied, trivial⟩
  · rintro ⟨sumBuf, first, got, buf, second, built, newPacket, third, linked, payloadCopy, fourth,
      copied, _⟩
    have sum : mem.getMem shared.found (checksumBufSz 0) = some (sumBuf, first) := got
    simp [tcpTxHeap, ip4XmitPacketHeap, SharedHeap.later, sum, built, linked, copied]

end Heap

/-- The segments that `tcp_rx_packet` answers, when it finds the TCB. -/
def Tcb.Answers (t : Tcb) (segment : Segment) : Prop :=
  match t.state with
  | .synSent => segment.header.syn = true ∧ segment.header.ack = true
  | .established => t.answersEstablished segment = true
  | .finWait1 => segment.header.fin = true
  | .finWait2 => segment.header.fin = true ∧ segment.header.ack = true
  | .listen | .synReceived | .closing | .closed | .closeWait | .lastAck | .timeWait => False

/-- Such a segment is answered once, and without payload. -/
theorem answer_of_answers {t : Tcb} {segment : Segment} (answers : t.Answers segment) :
    ∃ header destIp, t.answer segment = [⟨header, destIp, []⟩] := by
  cases state : t.state
  all_goals simp only [Tcb.Answers, state] at answers
  all_goals simp only [Tcb.answer, state]
  case synSent | finWait2 =>
    rw [if_pos (by simp [answers])]
    exact ⟨_, _, rfl⟩
  case established | finWait1 =>
    rw [if_pos answers]
    exact ⟨_, _, rfl⟩

theorem answer_of_not_answers {t : Tcb} {segment : Segment} (silent : ¬t.Answers segment) :
    t.answer segment = [] := by
  cases state : t.state
  all_goals simp only [Tcb.Answers, state] at silent
  all_goals simp only [Tcb.answer, state]
  case synSent | finWait2 => exact if_neg (by simpa using silent)
  case established | finWait1 => exact if_neg silent

/-- A segment for no connection is answered unless it is a reset. -/
theorem rxNoTcb_of_not_rst {srcIp : UInt32} {incoming : TcpHeader} {dataLen : UInt32}
    (noRst : incoming.rst = false) :
    ∃ header destIp, rxNoTcb srcIp incoming dataLen = [⟨header, destIp, []⟩] := by
  simp only [rxNoTcb, noRst, Bool.false_eq_true, if_false]
  split <;> exact ⟨_, _, rfl⟩

theorem rxNoTcb_of_rst {srcIp : UInt32} {incoming : TcpHeader} {dataLen : UInt32}
    (rst : incoming.rst = true) : rxNoTcb srcIp incoming dataLen = [] :=
  if_pos rst

section Answer

variable {H B : Type} [DecidableEq B] {mem : Allocator H B} {shared : SharedHeap H}

/-- One segment without payload goes out exactly if the heap has room for it. -/
theorem tcpTxsHeap_eq_none_iff {header : TcpHeader} {destIp : UInt32} :
    tcpTxsHeap mem shared [⟨header, destIp, []⟩] = none ↔ ¬RoomForSegment mem shared := by
  rw [← isSome_tcpTxHeap_iff, ← Option.isNone_iff_eq_none, tcpTxsHeap, List.length_nil]
  cases tcpTxHeap mem shared 0 <;> simp [tcpTxsHeap]

end Answer

end Lpc17xx.Tcp
