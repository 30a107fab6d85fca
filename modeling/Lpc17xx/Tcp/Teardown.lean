import Lpc17xx.Tcp.Host
import Lpc17xx.Tcp.Pair

/-!
# Closing both ends

Two open ends, one call of `tcp_close` at each, and first-in first-out channels
between them.  When neither FIN arrives before both calls have returned, both
ends pass through `CLOSING` and `TIME_WAIT` and are freed.  An end that takes
the FIN of its peer earlier passes through `CLOSE_WAIT`, and from there nothing
leads to `TIME_WAIT`: `LAST_ACK` has no case in the switch, and no second FIN
comes.
-/

namespace Lpc17xx.Tcp

open Lpc17xx.Link
open Lpc17xx.Transition

/-- Where an application is with its call of `tcp_close`. -/
inductive CloseCall where
  | pending
  | inside (thread : ClosingThread)
  | returned
  deriving DecidableEq, Repr

/-- One end: the TCB on its `tcb_head`, the call of `tcp_close`, whether the
machine has stopped, and the blocks given to `free_mem`. -/
structure CloseEnd where
  tcb : Option Tcb
  call : CloseCall
  stopped : Bool
  freed : List Block

namespace CloseEnd

/-- `tcp_close`, up to the transmitted FIN. -/
def close (e : CloseEnd) : Option (CloseEnd × TcpTx) :=
  if e.call = .pending then
    e.tcb.bind fun t =>
      (tcpClose t).map fun called => ({ e with call := .inside called.1 }, called.2)
  else none

/-- The rest of `tcp_close`. -/
def closeReturn (e : CloseEnd) : Option CloseEnd :=
  match e.call with
  | .inside thread =>
      e.tcb.map fun t => { e with tcb := some (tcpCloseReturn t thread), call := .returned }
  | .pending | .returned => none

/-- `tcp_rx_packet`, with what it transmits.  The one case of its switch that
frees a TCB is never reached. -/
def rxPacket (e : CloseEnd) (srcIp : UInt32) (tx : TcpTx) : CloseEnd × List TcpTx :=
  match rxSegment e.tcb.toList srcIp tx.header (fun offset => tx.payload.getD offset 0)
      (UInt32.ofNat tx.payload.length) with
  | none => ({ e with stopped := true }, [])
  | some outcome => ({ e with tcb := outcome.tcbHead.head? }, outcome.sent)

/-- `tcp_tick`. -/
def tick (e : CloseEnd) : CloseEnd :=
  { e with
    tcb := e.tcb.bind tickTcb
    freed := e.freed ++ e.tcb.toList.flatMap tickTcbFreed }

end CloseEnd

/-- Both ends, and the segments that each has transmitted and the other has not
taken yet, oldest first. -/
structure Teardown where
  ends : Side → CloseEnd
  wire : Side → List TcpTx

/-- A call of `tcp_close` up to its FIN, its return, the oldest segment for an
end, or a tick there. -/
inductive TeardownEvent where
  | close (side : Side)
  | closeReturn (side : Side)
  | deliver (side : Side)
  | tick (side : Side)
  deriving DecidableEq, Repr

namespace Teardown

/-- Two open ends with nothing under way. -/
def start (t : Side → Tcb) : Teardown where
  ends side := { tcb := some (t side), call := .pending, stopped := false, freed := [] }
  wire _ := []

/-- One end moves on to `e`, leaves `rest` of what is under way to it and transmits
`sent`. -/
def move (s : Teardown) (side : Side) (e : CloseEnd) (rest sent : List TcpTx) : Teardown where
  ends := Function.update s.ends side e
  wire := Function.update (Function.update s.wire side.other rest) side (s.wire side ++ sent)

/-- One event.  A machine that has stopped only lets segments go by. -/
def step (ip : Side → UInt32) : Step Teardown TeardownEvent
  | s, .close side =>
      if (s.ends side).stopped then none
      else (s.ends side).close.map fun called =>
        s.move side called.1 (s.wire side.other) [called.2]
  | s, .closeReturn side =>
      if (s.ends side).stopped then none
      else (s.ends side).closeReturn.map fun e => s.move side e (s.wire side.other) []
  | s, .deliver side =>
      match s.wire side.other with
      | [] => none
      | tx :: rest =>
          if (s.ends side).stopped then some (s.move side (s.ends side) rest [])
          else
            let (e, sent) := (s.ends side).rxPacket (ip side.other) tx
            some (s.move side e rest sent)
  | s, .tick side =>
      if (s.ends side).stopped then none
      else some (s.move side (s.ends side).tick (s.wire side.other) [])

/-- Both applications are through with `tcp_close` or stopped inside it, all
segments are delivered, and no timer of a TCB in `TIME_WAIT` is running. -/
structure Ended (s : Teardown) : Prop where
  closed : ∀ side, (s.ends side).call = .returned ∨ (s.ends side).stopped = true
  delivered : ∀ side, s.wire side = []
  expired : ∀ side t, (s.ends side).tcb = some t → t.state = .timeWait →
    t.decrementTimeout = false

/-- Every TCB is off its list, and both its blocks are freed once. -/
def Freed (t : Side → Tcb) (s : Teardown) : Prop :=
  ∀ side, (s.ends side).tcb = none ∧
    (s.ends side).freed = [.rxBuf (t side).addr, .tcb (t side).addr]

/-- A segment is delivered only once the `tcp_close` of its receiver has
returned. -/
def AfterClose (s : Teardown) : TeardownEvent → Prop
  | .deliver side => (s.ends side).call = .returned
  | .close _ | .closeReturn _ | .tick _ => True

end Teardown

/-- Two open ends of one connection that agree on their numbers. -/
structure Synchronised (ip : Side → UInt32) (t : Side → Tcb) : Prop where
  established : ∀ side, (t side).state = .established
  numbers : ∀ side, (t side).curAckN = (t side.other).curSeqN
  ports : ∀ side, (t side).srcPort = (t side.other).dstPort
  peer : ∀ side, (t side).dstIp = ip side.other

/-- A transmission without payload, as its receiver sees it. -/
def TcpTx.bare (tx : TcpTx) (srcIp : UInt32) : Segment :=
  .ofPayload srcIp tx.header []

section Answers

/-- Nothing that answers a segment carries FIN or payload. -/
theorem answer_plain {t : Tcb} {segment : Segment} {tx : TcpTx}
    (answered : tx ∈ t.answer segment) : tx.header.fin = false ∧ tx.payload = [] := by
  have plain : ∀ (test : Bool) (after : Tcb) (destIp : UInt32),
      tx ∈ (if test then [⟨after.ackHeader, destIp, []⟩] else []) →
        tx.header.fin = false ∧ tx.payload = [] := by
    intro test after destIp sent
    split at sent
    · rw [List.mem_singleton.mp sent]
      exact ⟨rfl, rfl⟩
    · cases sent
  unfold Tcb.answer at answered
  split at answered
  · exact plain _ _ _ answered
  · exact plain _ _ _ answered
  · exact plain _ _ _ answered
  · exact plain _ _ _ answered
  all_goals cases answered

theorem rxNoTcb_plain {srcIp : UInt32} {incoming : TcpHeader} {dataLen : UInt32} {tx : TcpTx}
    (answered : tx ∈ rxNoTcb srcIp incoming dataLen) :
    tx.header.fin = false ∧ tx.payload = [] := by
  unfold rxNoTcb at answered
  split at answered
  · cases answered
  · simp only at answered
    split at answered
    · rw [List.mem_singleton.mp answered]
      exact ⟨rfl, rfl⟩
    · rw [List.mem_singleton.mp answered]
      exact ⟨rfl, rfl⟩

end Answers

namespace CloseEnd

/-- What a segment without payload does to one end. -/
inductive Receives (e : CloseEnd) (segment : Segment) : CloseEnd × List TcpTx → Prop
  | nobody {sent : List TcpTx} : (∀ tx ∈ sent, tx.header.fin = false ∧ tx.payload = []) →
      (∀ t, e.tcb = some t → selected [t] segment = none) → Receives e segment (e, sent)
  | trapped {t : Tcb} : e.tcb = some t → t.state = .closeWait →
      Receives e segment ({ e with stopped := true }, [])
  | heard {t : Tcb} : e.tcb = some t → t.state ≠ .closeWait →
      Receives e segment ({ e with tcb := some (t.after segment) }, t.answer segment)

theorem receives_rxPacket (e : CloseEnd) (srcIp : UInt32) {tx : TcpTx} (bare : tx.payload = []) :
    Receives e (tx.bare srcIp) (e.rxPacket srcIp tx) := by
  rcases tx with ⟨header, destIp, payload⟩
  cases bare
  rcases e with ⟨tcb, call, stopped, freed⟩
  cases tcb with
  | none =>
      refine .nobody ?_ ?_
      · intro tx sent
        exact rxNoTcb_plain sent
      · intro t linked
        cases linked
  | some t =>
      let segment : Segment := TcpTx.bare ⟨header, destIp, []⟩ srcIp
      have packet : CloseEnd.rxPacket ⟨some t, call, stopped, freed⟩ srcIp ⟨header, destIp, []⟩ =
          match rxSegment [t] segment.srcIp segment.header segment.data segment.dataLen with
          | none => (⟨some t, call, true, freed⟩, [])
          | some outcome => (⟨outcome.tcbHead.head?, call, stopped, freed⟩, outcome.sent) := rfl
      cases found : selected [t] segment with
      | none =>
          rw [packet, rxSegment_of_none found]
          refine .nobody ?_ ?_
          · intro tx sent
            exact rxNoTcb_plain sent
          · intro u linked
            cases linked
            exact found
      | some u =>
          cases List.mem_singleton.mp (selected_mem found)
          have distinct : ([t].map Tcb.addr).Nodup := List.nodup_singleton t.addr
          rw [packet, rxSegment_of_selected distinct found]
          by_cases closeWait : t.state = .closeWait
          · simp only [if_pos closeWait]
            exact .trapped rfl closeWait
          · have stored : store Tcb.addr (t.after segment) [t] = [t.after segment] := by
              simp [store, after_addr segment]
            simp only [if_neg closeWait, stored]
            exact .heard rfl closeWait

end CloseEnd

theorem selected_of_matches {t : Tcb} {segment : Segment}
    (found : t.matchesConnection segment.srcIp segment.header = true) :
    selected [t] segment = some t := by
  simp [selected, findTcb, List.findIdx?_cons, found]

end Lpc17xx.Tcp
