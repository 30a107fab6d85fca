import Lpc17xx.Link.First
import Lpc17xx.Tcp.HostInvariant

/-!
# Which connection a segment is for

`tcp_rx_packet` takes the first TCB whose ports and peer address are those of the
segment.  The TCBs of a host past `LISTEN` are told apart in this way as long as
`tcp_connect`, which always uses the same local port, and `tcp_listen` are not called
for a tuple that is in use.  A listener that adopts a peer never makes two of them
alike: it is asked only when no TCB has the tuple of the segment.
-/

namespace Lpc17xx.Tcp

open Lpc17xx.Link
open Lpc17xx.Memory
open Lpc17xx.Transition

/-- `(src_port, dst_port, dst_ip)`. -/
def Tcb.tuple (t : Tcb) : UInt16 × UInt16 × UInt32 :=
  (t.srcPort, t.dstPort, t.dstIp)

/-- The tuple of the connection a segment belongs to. -/
def Segment.tuple (segment : Segment) : UInt16 × UInt16 × UInt32 :=
  (segment.header.destPort, segment.header.sourcePort, segment.srcIp)

/-- A connection that is open, or being opened to a known peer, or being closed. -/
def Tcb.PastListen (t : Tcb) : Prop :=
  t.state ≠ .closed ∧ t.state ≠ .listen

/-- Every connection past `LISTEN` is the first TCB with its tuple. -/
def Unambiguous (tcbHead : List Tcb) : Prop :=
  ∀ t ∈ tcbHead, t.PastListen → First Tcb.tuple tcbHead t

theorem matchesConnection_iff {t : Tcb} {segment : Segment} :
    t.matchesConnection segment.srcIp segment.header = true ↔ t.tuple = segment.tuple := by
  simp only [Tcb.matchesConnection, Tcb.tuple, Segment.tuple, Bool.and_eq_true, beq_iff_eq,
    Prod.mk.injEq, and_assoc]
  constructor
  · rintro ⟨destPort, sourcePort, srcIp⟩
    exact ⟨destPort.symm, sourcePort.symm, srcIp⟩
  · rintro ⟨destPort, sourcePort, srcIp⟩
    exact ⟨destPort.symm, sourcePort.symm, srcIp⟩

/-- The first search is one by the tuple. -/
theorem find_matchesConnection (tcbHead : List Tcb) (segment : Segment) :
    (tcbHead.find? fun i => i.matchesConnection segment.srcIp segment.header) =
      tcbHead.find? fun i => i.tuple = segment.tuple := by
  apply congrArg (fun test => tcbHead.find? test)
  funext i
  rw [Bool.eq_iff_iff, matchesConnection_iff, decide_eq_true_iff]

/-- A segment of a connection that is first with its tuple. -/
theorem selected_of_first {tcbHead : List Tcb} {t : Tcb} {segment : Segment}
    (first : First Tcb.tuple tcbHead t) (same : t.tuple = segment.tuple) :
    selected tcbHead segment = some t := by
  rw [First, same] at first
  rw [selected_eq, find_matchesConnection, first, Option.some_or]

/-- A segment that belongs to the connection of a TCB. -/
def Tcb.segment (t : Tcb) : Segment :=
  .ofPayload t.dstIp { TcpHeader.zero with sourcePort := t.dstPort, destPort := t.srcPort } []

theorem first_of_selected {tcbHead : List Tcb} {t : Tcb} (member : t ∈ tcbHead)
    (found : selected tcbHead t.segment = some t) : First Tcb.tuple tcbHead t := by
  rw [selected_eq, find_matchesConnection] at found
  cases connected : tcbHead.find? fun i => i.tuple = t.segment.tuple with
  | none =>
      have absent := List.find?_eq_none.mp connected t member
      exact absurd (decide_eq_true rfl) absent
  | some u =>
      rw [connected, Option.some_or] at found
      exact connected.trans found

namespace Host

/-- Demultiplexing: connections past `LISTEN` have different tuples, and every segment
of such a connection is processed by its TCB. -/
structure Demultiplexed (s : Host) : Prop where
  distinct : ∀ t ∈ s.tcbHead, ∀ u ∈ s.tcbHead, t.PastListen → u.PastListen →
    t.tuple = u.tuple → t = u
  own : ∀ t ∈ s.tcbHead, t.PastListen → ∀ segment : Segment,
    t.matchesConnection segment.srcIp segment.header = true →
      selected s.tcbHead segment = some t

theorem demultiplexed_iff {s : Host} : s.Demultiplexed ↔ Unambiguous s.tcbHead := by
  constructor
  · intro demultiplexed t member past
    exact first_of_selected member
      (demultiplexed.own t member past t.segment (matchesConnection_iff.mpr rfl))
  · intro unambiguous
    constructor
    · intro t tMember u uMember tPast uPast same
      exact (unambiguous t tMember tPast).unique (unambiguous u uMember uPast) same
    · intro t member past segment matches_
      exact selected_of_first (unambiguous t member past) (matchesConnection_iff.mp matches_)

/-- A call of `tcp_connect` or `tcp_listen` is made for a tuple that no connection past
`LISTEN` has. -/
def FreshTuple {H : Type} (s : Host) : HostEvent H → Prop
  | .connect port ip _ _ => ∀ t ∈ s.tcbHead, t.PastListen → t.tuple ≠ (65355, port, ip)
  | .listen port _ _ => ∀ t ∈ s.tcbHead, t.PastListen → t.tuple ≠ (port, 0, 0)
  | .thread _ | .rx _ _ | .txData _ _ | .rxData _ _ | .close _ | .closeReturn _ | .tick => True

end Host

/-! ## The list after a step -/

section Lists

variable {tcbHead : List Tcb} {old new : Tcb}

/-- A new TCB in front keeps the others apart exactly if no connection past `LISTEN`
has its tuple. -/
theorem unambiguous_cons_iff (unambiguous : Unambiguous tcbHead) (fresh : new ∉ tcbHead) :
    Unambiguous (new :: tcbHead) ↔ ∀ t ∈ tcbHead, t.PastListen → t.tuple ≠ new.tuple := by
  constructor
  · intro after t member past same
    have first := after t (List.mem_cons_of_mem new member) past
    rw [First, List.find?_cons_of_pos (by simpa using same.symm)] at first
    cases first
    exact fresh member
  · intro others t member past
    rcases List.mem_cons.mp member with rfl | member
    · exact first_cons_self t tcbHead
    · exact (unambiguous t member past).cons (others t member past).symm

/-- Dropping TCBs, and changes that touch no tuple. -/
theorem unambiguous_filterMap {change : Tcb → Option Tcb}
    (kept : ∀ t ∈ tcbHead, ∀ t', change t = some t' →
      t'.tuple = t.tuple ∧ (t'.PastListen → First Tcb.tuple tcbHead t)) :
    Unambiguous (tcbHead.filterMap change) := by
  intro t' member' past'
  rcases List.mem_filterMap.mp member' with ⟨t, member, changed⟩
  rcases kept t member t' changed with ⟨same, first⟩
  apply (first past').filterMap changed
  intro u uMember u' changedU
  rw [(kept u uMember u' changedU).1, same]
  exact id

theorem unambiguous_remove (unambiguous : Unambiguous tcbHead) (addr : Nat) :
    Unambiguous (remove Tcb.addr addr tcbHead) := by
  rw [remove, ← List.filterMap_eq_filter]
  apply unambiguous_filterMap
  intro t member t' changed
  rcases Option.guard_eq_some_iff.mp changed with ⟨rfl, _⟩
  exact ⟨rfl, unambiguous t member⟩

/-- A tick stops no connection from being the first. -/
theorem unambiguous_tcpTick (unambiguous : Unambiguous tcbHead) :
    Unambiguous (tcpTick tcbHead) := by
  apply unambiguous_filterMap
  intro t member t' ticked
  rcases tickTcb_frame ticked with ⟨_, state, _, _, _, _, srcPort, dstPort, dstIp⟩
  constructor
  · rw [Tcb.tuple, srcPort, dstPort, dstIp]
    rfl
  · intro past
    rw [Tcb.PastListen, state] at past
    exact unambiguous t member past

/-- What `store` does to each TCB. -/
theorem store_eq_filterMap (new : Tcb) (tcbHead : List Tcb) :
    store Tcb.addr new tcbHead =
      tcbHead.filterMap fun t => some (if t.addr = new.addr then new else t) := by
  rw [store, ← List.filterMap_eq_map]
  rfl

/-- A TCB that is put back with its tuple. -/
theorem unambiguous_store (unambiguous : Unambiguous tcbHead)
    (distinct : (tcbHead.map Tcb.addr).Nodup) (member : old ∈ tcbHead)
    (addr : new.addr = old.addr) (tuple : new.tuple = old.tuple)
    (past : new.PastListen → First Tcb.tuple tcbHead old) :
    Unambiguous (store Tcb.addr new tcbHead) := by
  rw [store_eq_filterMap]
  apply unambiguous_filterMap
  intro t tMember t' changed
  cases changed
  split
  · rename_i here
    cases eq_of_key distinct tMember member (here.trans addr)
    exact ⟨tuple, past⟩
  · exact ⟨rfl, unambiguous t tMember⟩

/-- A TCB that is put back with a tuple nobody had. -/
theorem unambiguous_store_fresh (unambiguous : Unambiguous tcbHead)
    (fresh : ∀ t ∈ tcbHead, t.tuple ≠ new.tuple) :
    Unambiguous (store Tcb.addr new tcbHead) := by
  intro t member' past
  rcases mem_store member' with rfl | ⟨untouched, other⟩
  · apply first_of_unique member'
    intro u uMember same
    rcases mem_store uMember with rfl | ⟨uUntouched, _⟩
    · rfl
    · exact absurd same (fresh u uUntouched)
  · rw [store_eq_filterMap]
    apply (unambiguous t untouched past).filterMap (by rw [if_neg other])
    intro u uMember u' changed
    cases changed
    split
    · intro same
      exact absurd same.symm (fresh t untouched)
    · exact id

end Lists

/-! ## The selected TCB after a segment -/

section Received

variable {tcbHead : List Tcb} {t : Tcb} {segment : Segment}

/-- Only a listener that takes a SYN changes its tuple. -/
theorem after_tuple :
    (t.after segment).tuple =
      if t.state = .listen ∧ segment.header.syn = true then
        (t.srcPort, segment.header.sourcePort, segment.srcIp)
      else t.tuple := by
  unfold Tcb.after
  cases state : t.state with
  | listen =>
      simp only [Tcb.afterListen, true_and]
      split <;> rfl
  | synSent =>
      simp only [Tcb.afterSynSent, reduceCtorEq, false_and, if_false]
      split <;> rfl
  | synReceived =>
      simp only [Tcb.afterSynReceived, reduceCtorEq, false_and, if_false]
      split <;> rfl
  | established =>
      rcases @afterEstablished_frame t segment with ⟨_, srcPort, dstPort, dstIp⟩
      simp only [reduceCtorEq, false_and, if_false]
      rw [Tcb.tuple, srcPort, dstPort, dstIp]
      rfl
  | finWait1 =>
      simp only [Tcb.afterFinWait1, reduceCtorEq, false_and, if_false]
      split
      · split <;> rfl
      · split <;> rfl
  | finWait2 =>
      simp only [Tcb.afterFinWait2, reduceCtorEq, false_and, if_false]
      split <;> rfl
  | closing => rfl
  | closed => rfl
  | closeWait => rfl
  | lastAck => rfl
  | timeWait => rfl

/-- A segment brings a TCB past `LISTEN` only from `LISTEN`, with a SYN. -/
theorem pastListen_of_after (past : (t.after segment).PastListen)
    (kept : ¬(t.state = .listen ∧ segment.header.syn = true)) : t.PastListen := by
  constructor
  · intro closed
    rw [after_eq_disarm segment (.inl closed)] at past
    exact past.1 closed
  · intro listen
    have same : t.after segment = t.disarm := by
      simp only [Tcb.after, listen, Tcb.afterListen]
      exact if_neg fun syn => kept ⟨listen, syn⟩
    rw [same] at past
    exact past.2 listen

/-- The selected TCB is the first with the tuple of the segment, or none has it and
the selected one listens on its port. -/
theorem selected_cases (found : selected tcbHead segment = some t) :
    (t.tuple = segment.tuple ∧ First Tcb.tuple tcbHead t) ∨
    ((∀ u ∈ tcbHead, u.tuple ≠ segment.tuple) ∧ t.state = .listen ∧
      t.srcPort = segment.header.destPort) := by
  rw [selected_eq, find_matchesConnection] at found
  cases connected : tcbHead.find? fun i => i.tuple = segment.tuple with
  | some u =>
      rw [connected, Option.some_or] at found
      cases found
      have same : t.tuple = segment.tuple := by
        simpa using List.find?_some connected
      rw [← same] at connected
      exact .inl ⟨same, connected⟩
  | none =>
      rw [connected, Option.none_or] at found
      right
      constructor
      · intro u member
        simpa using List.find?_eq_none.mp connected u member
      · have accepts := List.find?_some found
        simp only [Tcb.acceptsConnection, Bool.and_eq_true, beq_iff_eq] at accepts
        exact ⟨accepts.1, accepts.2.symm⟩

/-- No segment makes two connections alike. -/
theorem unambiguous_received (unambiguous : Unambiguous tcbHead)
    (distinct : (tcbHead.map Tcb.addr).Nodup) (found : selected tcbHead segment = some t) :
    Unambiguous (store Tcb.addr (t.after segment) tcbHead) := by
  have member := selected_mem found
  have addr : (t.after segment).addr = t.addr := after_addr segment
  have tuple := @after_tuple t segment
  by_cases adopts : t.state = .listen ∧ segment.header.syn = true
  · rw [if_pos adopts] at tuple
    rcases selected_cases found with ⟨same, first⟩ | ⟨nobody, _, srcPort⟩
    · have kept : (t.after segment).tuple = t.tuple := by
        have srcPort : t.srcPort = segment.header.destPort := congrArg Prod.fst same
        rw [tuple, same, srcPort]
        rfl
      exact unambiguous_store unambiguous distinct member addr kept fun _ => first
    · apply unambiguous_store_fresh unambiguous
      intro u uMember
      rw [tuple, srcPort]
      exact nobody u uMember
  · rw [if_neg adopts] at tuple
    apply unambiguous_store unambiguous distinct member addr tuple
    intro past
    exact unambiguous t member (pastListen_of_after past adopts)

end Received

namespace Host

section Step

variable {H B : Type} [DecidableEq B] {mem : Allocator H B}
variable {s after : Host} {event : HostEvent H}

/-- The next TCB's address is not yet in the list. -/
theorem Sound.not_mem_created (sound : s.Sound) {new : Tcb} (addr : new.addr = s.created) :
    new ∉ s.tcbHead := by
  intro member
  exact absurd (sound.created new member) (Nat.not_lt.mpr addr.ge)

/-- Every event for which the tuple is fresh keeps the connections apart. -/
theorem unambiguous_step (unambiguous : Unambiguous s.tcbHead) (sound : s.Sound)
    (fresh : s.FreshTuple event) (taken : step mem s event = some after) :
    Unambiguous after.tcbHead := by
  rcases step_eq_some taken with ⟨_, taken⟩
  cases event with
  | connect port ip block size =>
      cases taken
      exact (unambiguous_cons_iff unambiguous (sound.not_mem_created rfl)).mpr fresh
  | listen port block size =>
      cases taken
      exact (unambiguous_cons_iff unambiguous (sound.not_mem_created rfl)).mpr fresh
  | thread addr =>
      rcases threadStepped_of_step taken with ⟨_, _, _, stepped⟩
      cases stepped with
      | moved _ _ => exact unambiguous
      | slept _ => exact unambiguous
      | failed _ _ _ => exact unambiguous_remove unambiguous addr
  | rx segment heap =>
      have received := received_rxPacket mem sound.distinct segment heap
      rw [Option.some.inj taken] at received
      cases received with
      | nobody _ _ => exact unambiguous
      | trapped _ _ => exact unambiguous
      | exhausted _ _ => exact unambiguous
      | heard found _ _ => exact unambiguous_received unambiguous sound.distinct found
  | txData addr data =>
      rcases Option.bind_eq_some_iff.mp taken with ⟨t, found, taken⟩
      rcases Option.map_eq_some_iff.mp taken with ⟨sent, transmitted, rfl⟩
      rcases tcpTxData_eq_some transmitted with ⟨_, rfl⟩
      rcases connection_eq_some found with ⟨_, member, _⟩
      exact unambiguous_store unambiguous sound.distinct member rfl rfl (unambiguous t member)
  | rxData addr len =>
      rcases Option.bind_eq_some_iff.mp taken with ⟨t, found, taken⟩
      rcases Option.map_eq_some_iff.mp taken with ⟨⟨bytes, read⟩, popped, rfl⟩
      rcases tcpRxDataRound_eq_some popped with ⟨rxBuf, rfl, _, _⟩
      rcases connection_eq_some found with ⟨_, member, _⟩
      exact unambiguous_store unambiguous sound.distinct member rfl rfl (unambiguous t member)
  | close addr =>
      rcases close_eq_some taken with ⟨_, _, _, _, _, _, rfl⟩
      exact unambiguous
  | closeReturn addr =>
      rcases closeReturn_eq_some taken with ⟨t, member, same, thread, closing, rfl⟩
      subst same
      have begun : (s.call t.addr).closing.isSome = true := by
        rw [closing]
        rfl
      have open_ := ((sound.fits t member).closing begun).2
      have past : t.PastListen := by
        rcases open_ with established | closeWait
        · have state : t.state = .established := established
          simp [Tcb.PastListen, state]
        · have state : t.state = .closeWait := closeWait
          simp [Tcb.PastListen, state]
      have first := unambiguous t member past
      cases thread with
      | lastAck =>
          exact unambiguous_store unambiguous sound.distinct member rfl rfl fun _ => first
      | finWait1 =>
          exact unambiguous_store unambiguous sound.distinct member rfl rfl fun _ => first
  | tick =>
      cases taken
      exact unambiguous_tcpTick unambiguous

/-- A call for a tuple in use makes two connections alike, or takes the segments of
one. -/
theorem fresh_of_unambiguous (unambiguous : Unambiguous s.tcbHead) (sound : s.Sound)
    (taken : step mem s event = some after) (kept : Unambiguous after.tcbHead) :
    s.FreshTuple event := by
  rcases step_eq_some taken with ⟨_, taken⟩
  cases event with
  | connect port ip block size =>
      cases taken
      exact (unambiguous_cons_iff unambiguous (sound.not_mem_created rfl)).mp kept
  | listen port block size =>
      cases taken
      exact (unambiguous_cons_iff unambiguous (sound.not_mem_created rfl)).mp kept
  | thread addr => trivial
  | rx segment heap => trivial
  | txData addr data => trivial
  | rxData addr len => trivial
  | close addr => trivial
  | closeReturn addr => trivial
  | tick => trivial

end Step

end Host

/-- In every run of a host, connections past `LISTEN` have different tuples and process
exactly their own segments throughout, exactly if `tcp_connect` and `tcp_listen` are
called only for tuples that no connection past `LISTEN` has. -/
theorem host_demultiplexed_iff {H B : Type} [DecidableEq B] (mem : Allocator H B)
    (events : List (HostEvent H)) :
    Along (Host.step mem) (fun _ _ after => after.Demultiplexed) Host.start events ↔
      Guarded (Host.step mem) Host.FreshTuple Host.start events := by
  have initial : Unambiguous Host.start.tcbHead ∧ Host.start.Sound :=
    ⟨fun _ member => (nomatch member), Host.Sound.start⟩
  apply @along_iff_guarded _ _ _ (fun s : Host => Unambiguous s.tcbHead ∧ s.Sound)
  · rintro s event after ⟨unambiguous, sound⟩ fresh taken
    exact ⟨Host.unambiguous_step unambiguous sound fresh taken, sound.step taken⟩
  · rintro s event after ⟨unambiguous, sound⟩ taken
    rw [Host.demultiplexed_iff]
    constructor
    · intro kept
      exact Host.fresh_of_unambiguous unambiguous sound taken kept
    · intro fresh
      exact Host.unambiguous_step unambiguous sound fresh taken
  · exact initial

/-- Two threads connect to the same server: both TCBs have the local port 65355. -/
theorem host_not_demultiplexed_twoConnects :
    ∃ s t u,
      run (Host.step .counting) Host.start
        [.connect 5757 0xc0a80476 (List.replicate 127 0) length_clearedBlock,
          .connect 5757 0xc0a80476 (List.replicate 127 0) length_clearedBlock] = some s ∧
      t ∈ s.tcbHead ∧ u ∈ s.tcbHead ∧ t.PastListen ∧ u.PastListen ∧ t.tuple = u.tuple ∧
      t.addr ≠ u.addr ∧ selected s.tcbHead t.segment = some u ∧ ¬s.Demultiplexed := by
  refine ⟨_, tcpConnectTcb 0 5757 0xc0a80476 (List.replicate 127 0) length_clearedBlock,
    tcpConnectTcb 1 5757 0xc0a80476 (List.replicate 127 0) length_clearedBlock, rfl,
    List.mem_cons_of_mem _ List.mem_cons_self, List.mem_cons_self, ⟨nofun, nofun⟩,
    ⟨nofun, nofun⟩, rfl, by decide, rfl, ?_⟩
  intro demultiplexed
  have same := demultiplexed.distinct _ (List.mem_cons_of_mem _ List.mem_cons_self) _
    List.mem_cons_self ⟨nofun, nofun⟩ ⟨nofun, nofun⟩ rfl
  exact absurd (congrArg Tcb.addr same) (by decide)

end Lpc17xx.Tcp
