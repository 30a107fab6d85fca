import Lpc17xx.Tcp.Host

/-!
# `tcp_rx_packet` step by step

`rx_task` runs `tcp_rx_packet` with interrupts enabled, so a tick can come between
any two of its accesses to a TCB.  Here the function is cut at these accesses: the
comparison and the step to the next TCB in either search, the three stores that stop
the timer, the test for `CLOSE_WAIT`, the switch, which in `SYN_SENT` is left and
entered again around a transmission, and the acknowledgement at the end.  A TCB is
reached through its address, and an access to one that is no longer on `tcb_head` has
no result.  Without a tick the steps add up to `rxSegment`.
-/

namespace Lpc17xx.Tcp

open Lpc17xx.Link
open Lpc17xx.Transition

/-- What `tcp_rx_packet` does next, with the TCB that it does it to. -/
inductive RxStage where
  | findStart
  | find (i : Nat)
  | findNext (i : Nat)
  | listenStart
  | listen (i : Nat)
  | listenNext (i : Nat)
  | noTcb
  | clearDecrement (referenced : Nat)
  | clearTimedOut (referenced : Nat)
  | clearTimeout (referenced : Nat)
  | closeWaitTest (referenced : Nat)
  | switch (referenced : Nat)
  | connected (referenced : Nat)
  | sendAck (referenced : Nat)
  | wakeup
  deriving DecidableEq, Repr

/-- The TCB that the next step accesses: the one that is visited by a search, or the
one that was selected. -/
def RxStage.held : RxStage → Option Nat
  | .findStart | .listenStart | .noTcb | .wakeup => none
  | .find addr | .findNext addr | .listen addr | .listenNext addr | .clearDecrement addr
  | .clearTimedOut addr | .clearTimeout addr | .closeWaitTest addr | .switch addr
  | .connected addr | .sendAck addr => some addr

/-- `rx_task` on TCP packets.  `stopped` is the endless loop with interrupts off. -/
inductive RxTask where
  | idle
  | running (pkt : Segment) (stage : RxStage)
  | stopped

/-- The TCBs of a host, the blocks that were given to `free_mem`, the calls of
`tcp_tx` that `tcp_rx_packet` has made, and where it stands. -/
structure RxHost where
  tcbHead : List Tcb
  freed : List Block
  sent : List TcpTx
  task : RxTask

/-- A packet for `tcp_rx_packet`, its next step, or a tick. -/
inductive RxEvent where
  | packet (pkt : Segment)
  | rx
  | tick

namespace RxHost

def start (tcbHead : List Tcb) : RxHost where
  tcbHead := tcbHead
  freed := []
  sent := []
  task := .idle

/-- The TCB that `rx_task` accesses next. -/
def held (s : RxHost) : Option Nat :=
  match s.task with
  | .running _ stage => stage.held
  | .idle | .stopped => none

/-- An access to a TCB. -/
def access (s : RxHost) (addr : Nat) (use : Tcb → RxHost) : Option RxHost :=
  (lookup Tcb.addr addr s.tcbHead).map use

def goto (s : RxHost) (pkt : Segment) (stage : RxStage) : RxHost :=
  { s with task := .running pkt stage }

/-- Store to a TCB. -/
def put (s : RxHost) (t : Tcb) : RxHost :=
  { s with tcbHead := store Tcb.addr t s.tcbHead }

/-- Hand segments to `tcp_tx`. -/
def transmit (s : RxHost) (sent : List TcpTx) : RxHost :=
  { s with sent := s.sent ++ sent }

/-- The body of `list_for_each` on the next TCB, or what follows the loop. -/
def visit (t : Option Tcb) (body : Nat → RxStage) (finished : RxStage) : RxStage :=
  match t with
  | some t => body t.addr
  | none => finished

/-- The switch on the selected TCB. -/
def rxSwitchStep (s : RxHost) (pkt : Segment) (t : Tcb) : RxHost :=
  if t.state = .synSent ∧ pkt.header.syn = true ∧ pkt.header.ack = true then
    let t := { t with
      curSeqN := t.curSeqN + 1
      curAckN := pkt.header.seqN + 1
      hostWindowSz := pkt.header.windowSz }
    ((s.put t).transmit [⟨t.ackHeader, t.dstIp, []⟩]).goto pkt (.connected t.addr)
  else
    let switched := rxSwitch t pkt.srcIp pkt.header pkt.data pkt.dataLen
    if switched.freed then
      { s with
        tcbHead := remove Tcb.addr t.addr s.tcbHead
        freed := s.freed ++ [.rxBuf t.addr, .tcb t.addr]
        task := .idle }
    else
      ((s.put switched.tcb).transmit switched.sent).goto pkt
        (if switched.sendAck then .sendAck t.addr else .wakeup)

/-- The next step of `tcp_rx_packet`. -/
def rxStep (s : RxHost) (pkt : Segment) : RxStage → Option RxHost
  | .findStart => some (s.goto pkt (visit s.tcbHead.head? .find .listenStart))
  | .find i => s.access i fun t =>
      s.goto pkt
        (if t.matchesConnection pkt.srcIp pkt.header then .clearDecrement i else .findNext i)
  | .findNext i => s.access i fun _ =>
      s.goto pkt (visit (successor Tcb.addr i s.tcbHead) .find .listenStart)
  | .listenStart => some (s.goto pkt (visit s.tcbHead.head? .listen .noTcb))
  | .listen i => s.access i fun t =>
      s.goto pkt (if t.acceptsConnection pkt.header then .clearDecrement i else .listenNext i)
  | .listenNext i => s.access i fun _ =>
      s.goto pkt (visit (successor Tcb.addr i s.tcbHead) .listen .noTcb)
  | .noTcb =>
      some { s.transmit (rxNoTcb pkt.srcIp pkt.header pkt.dataLen) with task := .idle }
  | .clearDecrement addr => s.access addr fun t =>
      (s.put { t with decrementTimeout := false }).goto pkt (.clearTimedOut addr)
  | .clearTimedOut addr => s.access addr fun t =>
      (s.put { t with timedOut := false }).goto pkt (.clearTimeout addr)
  | .clearTimeout addr => s.access addr fun t =>
      (s.put { t with timeout := 0 }).goto pkt (.closeWaitTest addr)
  | .closeWaitTest addr => s.access addr fun t =>
      if t.state = .closeWait then { s with task := .stopped } else s.goto pkt (.switch addr)
  | .switch addr => s.access addr (s.rxSwitchStep pkt)
  | .connected addr => s.access addr fun t =>
      (s.put { t with state := .established }).goto pkt .wakeup
  | .sendAck addr => s.access addr fun t =>
      (s.transmit [⟨t.ackHeader, pkt.srcIp, []⟩]).goto pkt .wakeup
  | .wakeup => some { s with task := .idle }

/-- `tcp_tick`, from the timer interrupt. -/
def tick (s : RxHost) : RxHost :=
  { s with
    tcbHead := tcpTick s.tcbHead
    freed := s.freed ++ s.tcbHead.flatMap tickTcbFreed }

/-- One event.  Nothing happens in the endless loop. -/
def step : Step RxHost RxEvent
  | s, .packet pkt =>
      match s.task with
      | .idle => some (s.goto pkt .findStart)
      | .running _ _ | .stopped => none
  | s, .rx =>
      match s.task with
      | .running pkt stage => s.rxStep pkt stage
      | .idle | .stopped => none
  | s, .tick =>
      match s.task with
      | .idle | .running _ _ => some s.tick
      | .stopped => none

/-- `rx_task` goes from one state to the other without being interrupted. -/
def Uninterrupted (s after : RxHost) : Prop :=
  ∃ steps, run step s (List.replicate steps .rx) = some after

theorem Uninterrupted.refl (s : RxHost) : Uninterrupted s s :=
  ⟨0, rfl⟩

theorem Uninterrupted.trans {s middle after : RxHost} (first : Uninterrupted s middle)
    (second : Uninterrupted middle after) : Uninterrupted s after := by
  rcases first with ⟨before, executed⟩
  rcases second with ⟨rest, continued⟩
  refine ⟨before + rest, ?_⟩
  rw [List.replicate_add]
  exact run_append executed continued

section Uninterrupted

variable {s after : RxHost} {pkt : Segment} {stage : RxStage} {t : Tcb}

theorem uninterrupted_of_rxStep (running : s.task = .running pkt stage)
    (taken : s.rxStep pkt stage = some after) : Uninterrupted s after := by
  refine ⟨1, ?_⟩
  have stepped : step s .rx = some after := by
    simp only [step, running]
    exact taken
  rw [List.replicate_one, run_cons, stepped]
  rfl

theorem access_of_mem (distinct : (s.tcbHead.map Tcb.addr).Nodup) (member : t ∈ s.tcbHead)
    (use : Tcb → RxHost) : s.access t.addr use = some (use t) := by
  rw [access, lookup_of_mem distinct member, Option.map_some]

/-- Either search ends at the first TCB that passes its test. -/
theorem uninterrupted_search {test : Tcb → Bool} {body next : Nat → RxStage}
    {finished : RxStage}
    (compares : ∀ s i, rxStep s pkt (body i) =
      s.access i fun t => s.goto pkt (if test t then .clearDecrement i else next i))
    (follows : ∀ s i, rxStep s pkt (next i) =
      s.access i fun _ => s.goto pkt (visit (successor Tcb.addr i s.tcbHead) body finished))
    (distinct : (s.tcbHead.map Tcb.addr).Nodup) {before rest : List Tcb}
    (split : s.tcbHead = before ++ rest) :
    Uninterrupted (s.goto pkt (visit rest.head? body finished))
      (s.goto pkt (visit (rest.find? test) .clearDecrement finished)) := by
  induction rest generalizing before with
  | nil => exact .refl _
  | cons t rest ih =>
      have member : t ∈ s.tcbHead := split ▸ List.mem_append_right before List.mem_cons_self
      have compared : Uninterrupted (s.goto pkt (body t.addr))
          (s.goto pkt (if test t then .clearDecrement t.addr else next t.addr)) := by
        apply uninterrupted_of_rxStep rfl
        rw [compares]
        exact access_of_mem distinct member _
      apply compared.trans
      by_cases found : test t = true
      · rw [if_pos found, List.find?_cons_of_pos found]
        exact .refl _
      · rw [if_neg found, List.find?_cons_of_neg found]
        have followed : Uninterrupted (s.goto pkt (next t.addr))
            (s.goto pkt (visit rest.head? body finished)) := by
          apply uninterrupted_of_rxStep rfl
          rw [follows]
          refine (access_of_mem distinct member _).trans ?_
          have here : successor Tcb.addr t.addr s.tcbHead = rest.head? := by
            rw [split]
            exact successor_append (split ▸ distinct)
          change some (s.goto pkt (visit (successor Tcb.addr t.addr s.tcbHead) body finished)) = _
          rw [here]
        exact followed.trans (ih (split.trans (List.append_cons before t rest)))

/-- The two searches find what `rxSegment` finds. -/
theorem uninterrupted_lookup (distinct : (s.tcbHead.map Tcb.addr).Nodup)
    (running : s.task = .running pkt .findStart) :
    Uninterrupted s (s.goto pkt (visit (selected s.tcbHead pkt) .clearDecrement .noTcb)) := by
  have first : Uninterrupted s (s.goto pkt (visit s.tcbHead.head? .find .listenStart)) :=
    uninterrupted_of_rxStep running rfl
  have searched := @uninterrupted_search s pkt
    (fun t => t.matchesConnection pkt.srcIp pkt.header) .find .findNext .listenStart
    (fun _ _ => rfl) (fun _ _ => rfl) distinct [] s.tcbHead rfl
  apply (first.trans searched).trans
  rw [selected_eq]
  cases connected : s.tcbHead.find? fun t => t.matchesConnection pkt.srcIp pkt.header with
  | some t =>
      rw [Option.some_or]
      exact .refl _
  | none =>
      rw [Option.none_or]
      have second : Uninterrupted (s.goto pkt .listenStart)
          (s.goto pkt (visit s.tcbHead.head? .listen .noTcb)) :=
        uninterrupted_of_rxStep rfl rfl
      have searched := @uninterrupted_search s pkt
        (fun t => t.acceptsConnection pkt.header) .listen .listenNext .noTcb
        (fun _ _ => rfl) (fun _ _ => rfl) distinct [] s.tcbHead rfl
      exact second.trans searched

end Uninterrupted

/-! ## The selected TCB -/

section Selected

variable {s : RxHost} {pkt : Segment} {addr : Nat} {t : Tcb}

theorem access_of_lookup (found : lookup Tcb.addr addr s.tcbHead = some t)
    (use : Tcb → RxHost) : s.access addr use = some (use t) := by
  rw [access, found, Option.map_some]

theorem lookup_put {new : Tcb} (found : lookup Tcb.addr addr s.tcbHead = some t)
    (same : new.addr = addr) : lookup Tcb.addr addr (s.put new).tcbHead = some new := by
  rcases lookup_eq_some found with ⟨member, here⟩
  rw [← same]
  apply lookup_store
  rw [same, ← here]
  exact List.mem_map_of_mem member

theorem put_put {first second : Tcb} (same : first.addr = second.addr) :
    (s.put first).put second = s.put second := by
  simp only [put, store_store same]

theorem transmit_transmit (first second : List TcpTx) :
    (s.transmit first).transmit second = s.transmit (first ++ second) := by
  simp only [transmit, List.append_assoc]

/-- The three stores that stop the timer. -/
theorem uninterrupted_disarm (found : lookup Tcb.addr addr s.tcbHead = some t) :
    Uninterrupted (s.goto pkt (.clearDecrement addr))
      ((s.put t.disarm).goto pkt (.closeWaitTest addr)) := by
  have here := (lookup_eq_some found).2
  let first : Tcb := { t with decrementTimeout := false }
  let second : Tcb := { first with timedOut := false }
  have foundFirst : lookup Tcb.addr addr (s.put first).tcbHead = some first :=
    lookup_put found here
  have foundSecond : lookup Tcb.addr addr ((s.put first).put second).tcbHead = some second :=
    lookup_put foundFirst here
  have decrement : Uninterrupted (s.goto pkt (.clearDecrement addr))
      ((s.put first).goto pkt (.clearTimedOut addr)) :=
    uninterrupted_of_rxStep rfl (access_of_lookup found _)
  have timedOut : Uninterrupted ((s.put first).goto pkt (.clearTimedOut addr))
      (((s.put first).put second).goto pkt (.clearTimeout addr)) :=
    uninterrupted_of_rxStep rfl (access_of_lookup foundFirst _)
  have timeout : Uninterrupted (((s.put first).put second).goto pkt (.clearTimeout addr))
      ((((s.put first).put second).put t.disarm).goto pkt (.closeWaitTest addr)) :=
    uninterrupted_of_rxStep rfl (access_of_lookup foundSecond _)
  have same : ((s.put first).put second).put t.disarm = s.put t.disarm := by
    rw [@put_put s first second rfl, @put_put s second t.disarm rfl]
  rw [same] at timeout
  exact (decrement.trans timedOut).trans timeout

/-- A SYN+ACK in `SYN_SENT`. -/
theorem uninterrupted_connected (found : lookup Tcb.addr addr s.tcbHead = some t.disarm)
    (synSent : t.state = .synSent)
    (answered : pkt.header.syn = true ∧ pkt.header.ack = true) :
    Uninterrupted (s.goto pkt (.switch addr))
      (((s.put (t.after pkt)).transmit (t.answer pkt)).goto pkt .wakeup) := by
  have here := (lookup_eq_some found).2
  let connecting : Tcb := { t.disarm with
    curSeqN := t.curSeqN + 1
    curAckN := pkt.header.seqN + 1
    hostWindowSz := pkt.header.windowSz }
  have both : (pkt.header.syn && pkt.header.ack) = true := by
    rw [answered.1, answered.2, Bool.and_self]
  have after : t.after pkt = { connecting with state := .established } := by
    simp only [Tcb.after, synSent, Tcb.afterSynSent, if_pos both]
    rfl
  have answer : t.answer pkt = [⟨connecting.ackHeader, t.dstIp, []⟩] := by
    simp only [Tcb.answer, synSent, if_pos both, after]
    rfl
  have switched : Uninterrupted (s.goto pkt (.switch addr))
      (((s.put connecting).transmit (t.answer pkt)).goto pkt (.connected addr)) := by
    apply uninterrupted_of_rxStep rfl
    refine (access_of_lookup found _).trans ?_
    rw [rxSwitchStep, if_pos ⟨synSent, answered⟩, answer, ← here]
    rfl
  have connected : Uninterrupted
      (((s.put connecting).transmit (t.answer pkt)).goto pkt (.connected addr))
      (((s.put (t.after pkt)).transmit (t.answer pkt)).goto pkt .wakeup) := by
    have foundConnecting :
        lookup Tcb.addr addr ((s.put connecting).transmit (t.answer pkt)).tcbHead =
          some connecting := lookup_put found here
    rw [after, ← @put_put s connecting { connecting with state := .established } rfl]
    exact uninterrupted_of_rxStep rfl (access_of_lookup foundConnecting _)
  exact switched.trans connected

/-- Every other case of the switch, with the acknowledgement it asks for. -/
theorem uninterrupted_switch (found : lookup Tcb.addr addr s.tcbHead = some t.disarm)
    (open_ : t.state ≠ .closeWait)
    (other : ¬(t.state = .synSent ∧ pkt.header.syn = true ∧ pkt.header.ack = true)) :
    Uninterrupted (s.goto pkt (.switch addr))
      (((s.put (t.after pkt)).transmit (t.answer pkt)).goto pkt .wakeup) := by
  have here := (lookup_eq_some found).2
  have received := receive_eq pkt open_
  rw [Tcb.receive, rxTcb, if_neg open_] at received
  generalize outcome : rxSwitch t.disarm pkt.srcIp pkt.header pkt.data pkt.dataLen = switched
    at received
  simp only at received
  split at received
  · cases received
  · rename_i kept
    have outcomes := Option.some.inj received
    have after : switched.tcb = t.after pkt :=
      Option.some.inj (congrArg TcbOutcome.tcb outcomes)
    have answer := congrArg TcbOutcome.sent outcomes
    simp only at answer
    have stepped : Uninterrupted (s.goto pkt (.switch addr))
        (((s.put switched.tcb).transmit switched.sent).goto pkt
          (if switched.sendAck then .sendAck addr else .wakeup)) := by
      apply uninterrupted_of_rxStep rfl
      refine (access_of_lookup found _).trans ?_
      have otherDisarmed : ¬(t.disarm.state = .synSent ∧ pkt.header.syn = true ∧
          pkt.header.ack = true) := other
      rw [rxSwitchStep, if_neg otherDisarmed, outcome]
      simp only [if_neg kept, here]
      rfl
    apply stepped.trans
    rw [← answer, ← after]
    by_cases sendAck : switched.sendAck = true
    · rw [if_pos sendAck, if_pos sendAck]
      apply uninterrupted_of_rxStep rfl
      have same : switched.tcb.addr = addr := by
        rw [after, after_addr]
        exact here
      rw [← transmit_transmit]
      exact access_of_lookup (lookup_put found same) _
    · rw [if_neg sendAck, if_neg sendAck, List.append_nil]
      exact .refl _

end Selected

/-- Without a tick the steps of `tcp_rx_packet` do what `rxSegment` says. -/
theorem uninterrupted_rxSegment {s : RxHost} {pkt : Segment} {outcome : HostOutcome}
    (distinct : (s.tcbHead.map Tcb.addr).Nodup) (running : s.task = .running pkt .findStart)
    (received : rxSegment s.tcbHead pkt.srcIp pkt.header pkt.data pkt.dataLen = some outcome) :
    Uninterrupted s { s.transmit outcome.sent with tcbHead := outcome.tcbHead, task := .idle } := by
  apply (uninterrupted_lookup distinct running).trans
  cases found : selected s.tcbHead pkt with
  | none =>
      rw [rxSegment_of_none found] at received
      cases received
      exact uninterrupted_of_rxStep rfl rfl
  | some t =>
      have linked := lookup_of_mem distinct (selected_mem found)
      rw [rxSegment_of_selected distinct found] at received
      rcases Option.ite_none_left_eq_some.mp received with ⟨open_, received⟩
      cases received
      have disarmed := @uninterrupted_disarm s pkt t.addr t linked
      have linkedDisarmed : lookup Tcb.addr t.addr (s.put t.disarm).tcbHead = some t.disarm :=
        lookup_put linked rfl
      have tested : Uninterrupted ((s.put t.disarm).goto pkt (.closeWaitTest t.addr))
          ((s.put t.disarm).goto pkt (.switch t.addr)) := by
        apply uninterrupted_of_rxStep rfl
        refine (access_of_lookup linkedDisarmed _).trans ?_
        exact congrArg some (if_neg open_)
      have switched : Uninterrupted ((s.put t.disarm).goto pkt (.switch t.addr))
          ((((s.put t.disarm).put (t.after pkt)).transmit (t.answer pkt)).goto pkt .wakeup) := by
        by_cases connects : t.state = .synSent ∧ pkt.header.syn = true ∧ pkt.header.ack = true
        · exact uninterrupted_connected linkedDisarmed connects.1 connects.2
        · exact uninterrupted_switch linkedDisarmed open_ connects
      apply ((disarmed.trans tested).trans switched).trans
      rw [@put_put s t.disarm (t.after pkt) (after_addr pkt).symm]
      exact uninterrupted_of_rxStep rfl rfl

/-- Where `rxSegment` has no outcome, the steps end in the endless loop. -/
theorem uninterrupted_stopped {s : RxHost} {pkt : Segment}
    (distinct : (s.tcbHead.map Tcb.addr).Nodup) (running : s.task = .running pkt .findStart)
    (trapped : rxSegment s.tcbHead pkt.srcIp pkt.header pkt.data pkt.dataLen = none) :
    ∃ after, Uninterrupted s after ∧ after.task = .stopped := by
  cases found : selected s.tcbHead pkt with
  | none =>
      rw [rxSegment_of_none found] at trapped
      contradiction
  | some t =>
      have linked := lookup_of_mem distinct (selected_mem found)
      rw [rxSegment_of_selected distinct found, ite_eq_left_iff] at trapped
      have closeWait : t.state = .closeWait := by
        by_contra open_
        exact absurd (trapped open_) (Option.some_ne_none _)
      have looked := uninterrupted_lookup distinct running
      rw [found] at looked
      have linkedDisarmed : lookup Tcb.addr t.addr (s.put t.disarm).tcbHead = some t.disarm :=
        lookup_put linked rfl
      have tested : Uninterrupted ((s.put t.disarm).goto pkt (.closeWaitTest t.addr))
          { s.put t.disarm with task := .stopped } := by
        apply uninterrupted_of_rxStep rfl
        refine (access_of_lookup linkedDisarmed _).trans ?_
        exact congrArg some (if_pos closeWait)
      exact ⟨_, (looked.trans (uninterrupted_disarm linked)).trans tested, rfl⟩

end RxHost

end Lpc17xx.Tcp
