import Lpc17xx.Tcp.Host

/-!
# What one segment can change

`tcp_rx_packet` touches the TCB it selects and no other, and what it transmits goes to
the peer of that TCB.  The frame of the switch is stated once for all its cases; the
choice of the TCB is characterised by its place on the list.
-/

namespace Lpc17xx.Tcp

/-- The first place on a list whose entry passes a test. -/
def FirstAt (test : Tcb → Prop) (tcbHead : List Tcb) (index : Nat) (t : Tcb) : Prop :=
  tcbHead[index]? = some t ∧ test t ∧
    ∀ earlier < index, ∀ u, tcbHead[earlier]? = some u → ¬test u

/-- The TCB has the ports and the address of the segment. -/
def Tcb.OfConnection (srcIp : UInt32) (incoming : TcpHeader) (t : Tcb) : Prop :=
  t.srcPort = incoming.destPort ∧ t.dstPort = incoming.sourcePort ∧ t.dstIp = srcIp

/-- The TCB listens on the port of the segment. -/
def Tcb.ListensFor (incoming : TcpHeader) (t : Tcb) : Prop :=
  t.state = .listen ∧ t.srcPort = incoming.destPort

/-- The TCB that a segment is for: the first of its connection, or else the first that
listens on its port. -/
def SelectedAt (tcbHead : List Tcb) (srcIp : UInt32) (incoming : TcpHeader) (index : Nat)
    (t : Tcb) : Prop :=
  FirstAt (Tcb.OfConnection srcIp incoming) tcbHead index t ∨
    (∀ u ∈ tcbHead, ¬u.OfConnection srcIp incoming) ∧
      FirstAt (Tcb.ListensFor incoming) tcbHead index t

/-- Only the TCB at `index` has changed, and every reply goes to its peer, from and to
its ports. -/
structure Isolated (tcbHead : List Tcb) (index : Nat) (t : Tcb) (after : List Tcb)
    (replies : List TcpTx) : Prop where
  others : ∀ other, other ≠ index → after[other]? = tcbHead[other]?
  linked : after.map Tcb.addr = tcbHead.map Tcb.addr
  replies : ∀ tx ∈ replies, tx.destIp = t.dstIp ∧ tx.header.sourcePort = t.srcPort ∧
    tx.header.destPort = t.dstPort

section Selection

variable {tcbHead : List Tcb} {srcIp : UInt32} {incoming : TcpHeader} {index : Nat} {t : Tcb}

theorem ofConnection_iff :
    t.OfConnection srcIp incoming ↔ t.matchesConnection srcIp incoming = true := by
  simp only [Tcb.OfConnection, Tcb.matchesConnection, Bool.and_eq_true, beq_iff_eq, and_assoc]
  constructor
  · rintro ⟨srcPort, dstPort, dstIp⟩
    exact ⟨srcPort.symm, dstPort.symm, dstIp⟩
  · rintro ⟨srcPort, dstPort, dstIp⟩
    exact ⟨srcPort.symm, dstPort.symm, dstIp⟩

theorem listensFor_iff : t.ListensFor incoming ↔ t.acceptsConnection incoming = true := by
  simp only [Tcb.ListensFor, Tcb.acceptsConnection, Bool.and_eq_true, beq_iff_eq]
  constructor
  · rintro ⟨listen, srcPort⟩
    exact ⟨listen, srcPort.symm⟩
  · rintro ⟨listen, srcPort⟩
    exact ⟨listen, srcPort.symm⟩

/-- A search by position finds the first place. -/
theorem firstAt_iff {test : Tcb → Prop} {found : Tcb → Bool}
    (same : ∀ t, test t ↔ found t = true) :
    FirstAt test tcbHead index t ↔
      tcbHead.findIdx? found = some index ∧ tcbHead[index]? = some t := by
  rw [List.findIdx?_eq_some_iff_getElem]
  constructor
  · rintro ⟨here, passes, first⟩
    rcases List.getElem?_eq_some_iff.mp here with ⟨within, rfl⟩
    refine ⟨⟨within, (same _).mp passes, ?_⟩, here⟩
    intro earlier before passed
    have there := List.getElem?_eq_getElem (before.trans within)
    exact first earlier before _ there ((same _).mpr passed)
  · rintro ⟨⟨within, passes, first⟩, here⟩
    rcases List.getElem?_eq_some_iff.mp here with ⟨_, rfl⟩
    refine ⟨here, (same _).mpr passes, ?_⟩
    intro earlier before u there passed
    rcases List.getElem?_eq_some_iff.mp there with ⟨_, rfl⟩
    exact first earlier before ((same _).mp passed)

/-- The two searches of `tcp_rx_packet` find the selected TCB. -/
theorem selectedAt_iff :
    SelectedAt tcbHead srcIp incoming index t ↔
      findTcb tcbHead srcIp incoming = some index ∧ tcbHead[index]? = some t := by
  have connection := @firstAt_iff tcbHead index t _ _ (@ofConnection_iff srcIp incoming)
  have listener := @firstAt_iff tcbHead index t _ _ (@listensFor_iff incoming)
  have nobody : (∀ u ∈ tcbHead, ¬u.OfConnection srcIp incoming) ↔
      (tcbHead.findIdx? fun i => i.matchesConnection srcIp incoming) = none := by
    rw [List.findIdx?_eq_none_iff]
    apply forall₂_congr
    intro u _
    rw [ofConnection_iff, Bool.not_eq_true]
  rw [SelectedAt, connection, listener, nobody, findTcb, Option.or_eq_some_iff]
  constructor
  · rintro (⟨found, here⟩ | ⟨absent, found, here⟩)
    · exact ⟨.inl found, here⟩
    · exact ⟨.inr ⟨absent, found⟩, here⟩
  · rintro ⟨found | ⟨absent, found⟩, here⟩
    · exact .inl ⟨found, here⟩
    · exact .inr ⟨absent, found, here⟩

end Selection

/-! ## The frame of the switch -/

section Switch

variable (t : Tcb) (srcIp : UInt32) (incoming : TcpHeader) (data : Nat → UInt8)
  (dataLen : UInt32)

/-- What no case of the switch does but the one for `CLOSE_WAIT`, and what none does at
all: it frees no TCB and transmits to nobody else, and a case that asks for an
acknowledgement is not that of a listener and leaves the ports alone. -/
structure SwitchFrame (switched : Switched) : Prop where
  addr : switched.tcb.addr = t.addr
  freed : t.state ≠ .closeWait → switched.freed = false
  sent : ∀ tx ∈ switched.sent, tx.destIp = t.dstIp ∧ tx.header.sourcePort = t.srcPort ∧
    tx.header.destPort = t.dstPort
  acknowledges : switched.sendAck = true → t.state ≠ .listen ∧
    switched.tcb.srcPort = t.srcPort ∧ switched.tcb.dstPort = t.dstPort

variable {t}

/-- A case that transmits nothing and keeps the ports. -/
theorem SwitchFrame.keep {after : Tcb} {sendAck : Bool} (addr : after.addr = t.addr)
    (acknowledges : sendAck = true → t.state ≠ .listen ∧ after.srcPort = t.srcPort ∧
      after.dstPort = t.dstPort) : SwitchFrame t (.keep after sendAck) :=
  ⟨addr, fun _ => rfl, fun _ member => absurd member List.not_mem_nil, acknowledges⟩

/-- A case that does not ask for an acknowledgement either. -/
theorem SwitchFrame.quiet {after : Tcb} (addr : after.addr = t.addr) :
    SwitchFrame t (.keep after false) :=
  .keep addr fun asks => absurd asks Bool.false_ne_true

theorem rxFinWait2_frame (other : t.state ≠ .listen) :
    SwitchFrame t (rxFinWait2 t incoming) := by
  unfold rxFinWait2
  split
  · exact .keep rfl fun _ => ⟨other, rfl, rfl⟩
  · exact .quiet rfl

theorem rxFinWait1_frame (other : t.state ≠ .listen) :
    SwitchFrame t (rxFinWait1 t incoming) := by
  unfold rxFinWait1
  split
  · exact .keep rfl fun _ => ⟨other, rfl, rfl⟩
  · split
    · exact .quiet rfl
    · split
      · exact .keep rfl fun _ => ⟨other, rfl, rfl⟩
      · exact rxFinWait2_frame incoming other

theorem rxEstablished_frame (other : t.state ≠ .listen) :
    SwitchFrame t (rxEstablished t incoming data dataLen) := by
  apply SwitchFrame.keep
  · unfold rxPayload rxFin rxAck
    split <;> split <;> split <;> rfl
  · intro _
    unfold rxPayload rxFin rxAck
    split <;> split <;> split <;> exact ⟨other, rfl, rfl⟩

/-- Every case of the switch. -/
theorem rxSwitch_frame : SwitchFrame t (rxSwitch t srcIp incoming data dataLen) := by
  unfold rxSwitch
  cases state : t.state with
  | synSent =>
      simp only [rxSynSent]
      split
      · refine ⟨rfl, fun _ => rfl, ?_, fun asks => absurd asks Bool.false_ne_true⟩
        intro tx member
        cases List.mem_singleton.mp member
        exact ⟨rfl, rfl, rfl⟩
      · exact .quiet rfl
  | listen =>
      simp only [rxListen]
      split
      · exact .quiet rfl
      · exact .quiet rfl
  | synReceived =>
      simp only [rxSynReceived]
      split
      · exact .quiet rfl
      · exact .quiet rfl
  | established => exact rxEstablished_frame incoming data dataLen (by simp [state])
  | closeWait =>
      simp only [rxCloseWait]
      split
      · exact ⟨rfl, fun other => absurd state other, fun _ member => absurd member List.not_mem_nil,
          fun asks => absurd asks Bool.false_ne_true⟩
      · exact rxFinWait1_frame incoming (by simp [state])
  | finWait1 => exact rxFinWait1_frame incoming (by simp [state])
  | finWait2 => exact rxFinWait2_frame incoming (by simp [state])
  | closing =>
      simp only [rxClosing]
      split
      · exact .quiet rfl
      · exact .quiet rfl
  | closed => exact .quiet rfl
  | lastAck => exact .quiet rfl
  | timeWait => exact .quiet rfl

/-- What `tcp_rx_packet` does to the TCB it has selected. -/
theorem rxTcb_isolated (open_ : t.state ≠ .closeWait)
    (peer : t.state ≠ .listen → t.dstIp = srcIp) :
    ∃ after replies wakeup,
      rxTcb t srcIp incoming data dataLen = some ⟨some after, replies, wakeup⟩ ∧
      after.addr = t.addr ∧
      ∀ tx ∈ replies, tx.destIp = t.dstIp ∧ tx.header.sourcePort = t.srcPort ∧
        tx.header.destPort = t.dstPort := by
  have frame : SwitchFrame t.disarm (rxSwitch t.disarm srcIp incoming data dataLen) :=
    rxSwitch_frame srcIp incoming data dataLen
  let switched := rxSwitch t.disarm srcIp incoming data dataLen
  refine ⟨switched.tcb, switched.sent ++
    (if switched.sendAck then [⟨switched.tcb.ackHeader, srcIp, []⟩] else []), true, ?_,
    frame.addr, ?_⟩
  · have linked : ¬switched.freed = true := by
      rw [frame.freed open_]
      exact Bool.false_ne_true
    rw [rxTcb, if_neg open_]
    exact if_neg linked
  · intro tx member
    rcases List.mem_append.mp member with sent | acknowledged
    · exact frame.sent tx sent
    · split at acknowledged
      · rename_i sendAck
        rcases frame.acknowledges sendAck with ⟨notListen, srcPort, dstPort⟩
        cases List.mem_singleton.mp acknowledged
        exact ⟨(peer notListen).symm, srcPort, dstPort⟩
      · contradiction

end Switch

/-- The peer of a selected TCB that does not listen is the sender. -/
theorem SelectedAt.peer {tcbHead : List Tcb} {srcIp : UInt32} {incoming : TcpHeader}
    {index : Nat} {t : Tcb} (selected : SelectedAt tcbHead srcIp incoming index t)
    (notListen : t.state ≠ .listen) : t.dstIp = srcIp := by
  rcases selected with ⟨_, ⟨_, _, dstIp⟩, _⟩ | ⟨_, _, ⟨listen, _⟩, _⟩
  · exact dstIp
  · exact absurd listen notListen

/-- One segment on the list of TCBs, when the selected TCB is not in `CLOSE_WAIT`. -/
theorem rxSegment_isolated {tcbHead : List Tcb} {srcIp : UInt32} {incoming : TcpHeader}
    {data : Nat → UInt8} {dataLen : UInt32}
    (open_ : ∀ index t, SelectedAt tcbHead srcIp incoming index t → t.state ≠ .closeWait) :
    ∃ outcome, rxSegment tcbHead srcIp incoming data dataLen = some outcome ∧
      (∀ index t, SelectedAt tcbHead srcIp incoming index t →
        Isolated tcbHead index t outcome.tcbHead outcome.sent) ∧
      ((∀ index t, ¬SelectedAt tcbHead srcIp incoming index t) →
        outcome.tcbHead = tcbHead) := by
  cases position : findTcb tcbHead srcIp incoming with
  | none =>
      refine ⟨⟨tcbHead, rxNoTcb srcIp incoming dataLen, false⟩, ?_, ?_, fun _ => rfl⟩
      · simp only [rxSegment, position]
      · intro index t selected
        rw [selectedAt_iff, position] at selected
        exact absurd selected.1.symm (Option.some_ne_none index)
  | some index =>
      have within : index < tcbHead.length := findTcb_lt position
      have entry : tcbHead[index]? = some tcbHead[index] := List.getElem?_eq_getElem within
      let t := tcbHead[index]
      have chosen : SelectedAt tcbHead srcIp incoming index t :=
        selectedAt_iff.mpr ⟨position, entry⟩
      obtain ⟨next, replies, wakeup, received, addr, toPeer⟩ :=
        rxTcb_isolated srcIp incoming data dataLen (open_ index t chosen) chosen.peer
      refine ⟨⟨tcbHead.set index next, replies, wakeup⟩, ?_, ?_,
        fun nobody => absurd chosen (nobody index t)⟩
      · simp only [rxSegment, position, entry]
        rw [received]
        rfl
      · intro index' t' selected
        rcases selectedAt_iff.mp selected with ⟨position', entry'⟩
        rw [position] at position'
        cases position'
        rw [entry] at entry'
        cases entry'
        constructor
        · intro other elsewhere
          exact List.getElem?_set_ne (Ne.symm elsewhere)
        · have mapped : index < (tcbHead.map Tcb.addr).length := by
            rw [List.length_map]
            exact within
          have sameAddr : (tcbHead.map Tcb.addr)[index] = t.addr := List.getElem_map _
          rw [List.map_set, addr, ← sameAddr, List.set_getElem_self]
        · exact toPeer

end Lpc17xx.Tcp
