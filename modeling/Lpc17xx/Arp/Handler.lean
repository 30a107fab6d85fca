import Lpc17xx.Arp.Completion
import Lpc17xx.Protocol.Delivery

/-!
# `arp_rx_packet` on a packet in the frame

The handler swaps the packet in place and reads its fields from there.  Here it
is described as a function of the packet in network order, and the step of
`Resolver` for a packet is shown to be what it does to the tables.
-/

namespace Lpc17xx.Arp

open Lpc17xx.Cbuf
open Lpc17xx.Link
open Lpc17xx.Memory
open Lpc17xx.Protocol
open Lpc17xx.Transition

/-- A packet read in network order. -/
def arpPacketFrom (memory : Bytes) (packet : Nat) : ArpPacket where
  HTYPE := big16 memory packet
  PTYPE := big16 memory (packet + 2)
  HLEN := memory (packet + 4)
  PLEN := memory (packet + 5)
  OPER := big16 memory (packet + 6)
  SHA := bytesAt (fun i => memory (packet + 8 + i)) 6
  SPA := big32 memory (packet + 14)
  THA := bytesAt (fun i => memory (packet + 18 + i)) 6
  TPA := big32 memory (packet + 24)

/-- The request fulfilled by a reply from the address it asks for. -/
def fulfilled (arpReq : ArpPendingRequest) (newArpEntry : ArpEntry) : ArpPendingRequest :=
  { arpReq with answer := some newArpEntry, finished := true }

/-- The tables after a reply. -/
def arpFulfilled (tables : Tables) (packet : ArpPacket) : Tables :=
  match tables.arpPendingRequests.find? fun arpReq => arpReq.TPA = packet.SPA with
  | some arpReq =>
      let newArpEntry : ArpEntry := { etherAddr := packet.SHA, ipaddr := packet.SPA }
      { tables with
        arpTableHead := listAdd newArpEntry tables.arpTableHead
        arpPendingRequests :=
          tables.arpPendingRequests.eraseP fun arpReq => arpReq.TPA = packet.SPA
        arpFinished := fulfilled arpReq newArpEntry :: tables.arpFinished }
  | none => tables

/-- The tables after a packet. -/
def arpDelivered (tables : Tables) (packet : ArpPacket) : Tables :=
  if packet.HTYPE = 1 then
    if packet.OPER = 1 then
      if packet.TPA = ourIpAddress then
        { tables with
          arpSent := tables.arpSent ++ [(packet.SHA, arpReply packet.SHA packet.SPA)] }
      else tables
    else if packet.OPER = 2 then
      if packet.THA = etherAddr then arpFulfilled tables packet else tables
    else tables
  else tables

/-- The packet is a request for our address. -/
def AsksForUs (packet : ArpPacket) : Prop :=
  packet.HTYPE = 1 ∧ packet.OPER = 1 ∧ packet.TPA = ourIpAddress

/-- The packet is a reply to us that answers a pending request. -/
def AnswersPending (pending : List ArpPendingRequest) (packet : ArpPacket) : Prop :=
  packet.HTYPE = 1 ∧ packet.OPER = 2 ∧ packet.THA = etherAddr ∧
    ∃ arpReq ∈ pending, arpReq.TPA = packet.SPA

instance (pending : List ArpPendingRequest) (packet : ArpPacket) :
    Decidable (AnswersPending pending packet) :=
  inferInstanceAs (Decidable (_ ∧ _ ∧ _ ∧ ∃ _ ∈ _, _))

/-- The table grows by one entry for each request that is answered. -/
theorem length_arpTableHead_arpDelivered (tables : Tables) (packet : ArpPacket) :
    (arpDelivered tables packet).arpTableHead.length =
      (if AnswersPending tables.arpPendingRequests packet then 1 else 0) +
        tables.arpTableHead.length := by
  by_cases answers : AnswersPending tables.arpPendingRequests packet
  · rcases id answers with ⟨ethernet, reply, ours, arpReq, pending, same⟩
    have other : ¬packet.OPER = 1 := by
      rw [reply]
      decide
    have fulfils : (arpFulfilled tables packet).arpTableHead.length =
        1 + tables.arpTableHead.length := by
      unfold arpFulfilled
      split
      · exact Nat.add_comm _ 1
      · rename_i nobody
        exact absurd same (by simpa using List.find?_eq_none.mp nobody arpReq pending)
    rw [if_pos answers, arpDelivered, if_pos ethernet, if_neg other, if_pos reply, if_pos ours,
      fulfils]
  · rw [if_neg answers, Nat.zero_add]
    unfold arpDelivered
    split
    · rename_i ethernet
      split
      · split <;> rfl
      · split
        · rename_i reply
          split
          · rename_i ours
            unfold arpFulfilled
            split
            · rename_i arpReq found
              have same := List.find?_some found
              exact absurd ⟨ethernet, reply, ours, arpReq, List.mem_of_find?_eq_some found,
                by simpa using same⟩ answers
            · rfl
          · rfl
        · rfl
    · rfl

section Swapped

variable {memory : Bytes} {packet : Nat}

/-- Memory after `arp_swap_endian`. -/
def arpSwapped (memory : Bytes) (packet : Nat) : Bytes :=
  swap32 (swap32 (swap16 (swap16 (swap16 memory packet) (packet + 2)) (packet + 6)) (packet + 14))
    (packet + 24)

theorem arpSwapped_of_outside {other : Nat}
    (outside : packet + 8 ≤ other ∧ other < packet + 14 ∨
      packet + 18 ≤ other ∧ other < packet + 24) :
    arpSwapped memory packet other = memory other := by
  simp (disch := omega) only [arpSwapped, swap16_of_outside, swap32_of_outside]

theorem load16_arpSwapped_HTYPE :
    load16 (arpSwapped memory packet) packet = (arpPacketFrom memory packet).HTYPE := by
  simp (disch := omega) only [arpSwapped, arpPacketFrom, load16_swap32_of_apart,
    load16_swap16_of_apart, load16_swap16]

theorem load16_arpSwapped_OPER :
    load16 (arpSwapped memory packet) (packet + 6) = (arpPacketFrom memory packet).OPER := by
  simp (disch := omega) only [arpSwapped, arpPacketFrom, load16_swap32_of_apart,
    load16_swap16, big16_swap16_of_apart]

theorem load32_arpSwapped_SPA :
    load32 (arpSwapped memory packet) (packet + 14) = (arpPacketFrom memory packet).SPA := by
  simp (disch := omega) only [arpSwapped, arpPacketFrom, load32_swap32_of_apart, load32_swap32,
    big32_swap16_of_apart]

theorem load32_arpSwapped_TPA :
    load32 (arpSwapped memory packet) (packet + 24) = (arpPacketFrom memory packet).TPA := by
  simp (disch := omega) only [arpSwapped, arpPacketFrom, load32_swap32, big32_swap32_of_apart,
    big32_swap16_of_apart]

/-- Hardware addresses are not swapped. -/
theorem bytesAt_arpSwapped_SHA :
    bytesAt (fun i => arpSwapped memory packet (packet + 8 + i)) 6 =
      (arpPacketFrom memory packet).SHA := by
  simp only [arpPacketFrom]
  apply bytesAt_congr
  intro i bound
  exact arpSwapped_of_outside (.inl (by omega))

theorem bytesAt_arpSwapped_THA :
    bytesAt (fun i => arpSwapped memory packet (packet + 18 + i)) 6 =
      (arpPacketFrom memory packet).THA := by
  simp only [arpPacketFrom]
  apply bytesAt_congr
  intro i bound
  exact arpSwapped_of_outside (.inr (by omega))

end Swapped

section Handler

variable (s : Stack)

/-- The entry that the loop of `case OPER_REPLY` makes. -/
def entryAt (memory : Bytes) (packet : Nat) : ArpEntry where
  etherAddr := bytesAt (fun i => memory (packet + 8 + i)) 6
  ipaddr := load32 memory (packet + 14)

/-- A round of the loop for the request that the reply answers. -/
theorem arpFulfil_of_answers {packet : Nat} {arpReq : ArpPendingRequest}
    {requests : List ArpPendingRequest}
    (answers : arpReq.TPA = load32 s.pkt.memory (packet + 14)) :
    (arpFulfil packet (arpReq :: requests) s).1 = requests ∧
      (after (arpFulfil packet (arpReq :: requests)) s).tables =
        { s.tables with
          arpTableHead := entryAt s.pkt.memory packet :: s.tables.arpTableHead
          arpFinished :=
            fulfilled arpReq (entryAt s.pkt.memory packet) :: s.tables.arpFinished } := by
  have chosen : arpFulfil packet (arpReq :: requests) s =
      (do
        let sha ← readBytes (packet + 8) 6
        let ipaddr ← read32 (packet + 14)
        let newArpEntry : ArpEntry := { etherAddr := sha, ipaddr }
        modify fun s => { s with tables := { s.tables with
          arpTableHead := newArpEntry :: s.tables.arpTableHead
          arpFinished := { arpReq with answer := some newArpEntry, finished := true } ::
            s.tables.arpFinished } }
        pure requests : Rx (List ArpPendingRequest)) (after (read32 (packet + 14)) s) :=
    congrFun (if_pos answers) _
  rw [after, chosen]
  exact ⟨rfl, rfl⟩

/-- A round for another request. -/
theorem arpFulfil_of_passes {packet : Nat} {arpReq : ArpPendingRequest}
    {requests : List ArpPendingRequest}
    (passes : arpReq.TPA ≠ load32 s.pkt.memory (packet + 14)) :
    arpFulfil packet (arpReq :: requests) s =
      (arpReq :: (arpFulfil packet requests (after (read32 (packet + 14)) s)).1,
        after (arpFulfil packet requests) (after (read32 (packet + 14)) s)) :=
  congrFun (if_neg passes) _

/-- The requests that stay pending, by induction on those before the reply. -/
theorem arpFulfil_value (packet : Nat) (requests : List ArpPendingRequest) :
    (arpFulfil packet requests s).1 =
      requests.eraseP fun arpReq => arpReq.TPA = load32 s.pkt.memory (packet + 14) := by
  induction requests generalizing s with
  | nil => rfl
  | cons arpReq requests ih =>
      by_cases answers : arpReq.TPA = load32 s.pkt.memory (packet + 14)
      · rw [(arpFulfil_of_answers s answers).1, List.eraseP_cons_of_pos (by simpa using answers)]
      · rw [arpFulfil_of_passes s answers, List.eraseP_cons_of_neg (by simpa using answers), ih]
        rfl

/-- The tables after the loop, by the same induction. -/
theorem arpFulfil_tables (packet : Nat) (requests : List ArpPendingRequest) :
    (after (arpFulfil packet requests) s).tables =
      match requests.find? fun arpReq =>
          arpReq.TPA = load32 s.pkt.memory (packet + 14) with
      | some arpReq =>
          { s.tables with
            arpTableHead := entryAt s.pkt.memory packet :: s.tables.arpTableHead
            arpFinished :=
              fulfilled arpReq (entryAt s.pkt.memory packet) :: s.tables.arpFinished }
      | none => s.tables := by
  induction requests generalizing s with
  | nil => rfl
  | cons arpReq requests ih =>
      by_cases answers : arpReq.TPA = load32 s.pkt.memory (packet + 14)
      · rw [(arpFulfil_of_answers s answers).2, List.find?_cons_of_pos (by simpa using answers)]
      · rw [after, arpFulfil_of_passes s answers, List.find?_cons_of_neg (by simpa using answers)]
        exact ih (after (read32 (packet + 14)) s)

/-- A request, with the packet swapped. -/
theorem arpRequest_tables (memory : Bytes) (packet : Nat)
    (swapped : s.pkt.memory = arpSwapped memory packet) :
    (after (arpRequest packet) s).tables =
      if (arpPacketFrom memory packet).TPA = ourIpAddress then
        { s.tables with
          arpSent := s.tables.arpSent ++
            [((arpPacketFrom memory packet).SHA,
              arpReply (arpPacketFrom memory packet).SHA (arpPacketFrom memory packet).SPA)] }
      else s.tables := by
  rw [← load32_arpSwapped_TPA, ← bytesAt_arpSwapped_SHA, ← load32_arpSwapped_SPA, ← swapped,
    arpRequest, after_bind, after_ite]
  split
  · rename_i ours
    exact (if_pos ours).symm
  · rename_i foreign
    exact (if_neg foreign).symm

/-- A reply, with the packet swapped. -/
theorem arpReplied_tables (memory : Bytes) (packet : Nat)
    (swapped : s.pkt.memory = arpSwapped memory packet) :
    (after (arpReplied packet) s).tables =
      if (arpPacketFrom memory packet).THA = etherAddr then
        arpFulfilled s.tables (arpPacketFrom memory packet)
      else s.tables := by
  let read := after (readBytes (packet + 18) 6) s
  let pending := arpFulfil packet s.tables.arpPendingRequests
  have entry : entryAt s.pkt.memory packet =
      ⟨(arpPacketFrom memory packet).SHA, (arpPacketFrom memory packet).SPA⟩ := by
    rw [entryAt, swapped, bytesAt_arpSwapped_SHA, load32_arpSwapped_SPA]
  have address : load32 s.pkt.memory (packet + 14) = (arpPacketFrom memory packet).SPA := by
    rw [swapped, load32_arpSwapped_SPA]
  have value : (pending read).1 = s.tables.arpPendingRequests.eraseP fun arpReq =>
      arpReq.TPA = (arpPacketFrom memory packet).SPA := by
    rw [← address]
    exact arpFulfil_value read packet _
  have tables := arpFulfil_tables read packet s.tables.arpPendingRequests
  change (after pending read).tables = match s.tables.arpPendingRequests.find? fun arpReq =>
    arpReq.TPA = load32 s.pkt.memory (packet + 14) with
    | some arpReq =>
        { s.tables with
          arpTableHead := entryAt s.pkt.memory packet :: s.tables.arpTableHead
          arpFinished := fulfilled arpReq (entryAt s.pkt.memory packet) :: s.tables.arpFinished }
    | none => s.tables at tables
  rw [address, entry] at tables
  have ours : after (arpReplied packet) s =
      if (arpPacketFrom memory packet).THA = etherAddr then
        { after pending read with
          tables := { (after pending read).tables with
            arpPendingRequests := (pending read).1 } }
      else read := by
    rw [← bytesAt_arpSwapped_THA, ← swapped, arpReplied, after_bind, after_ite]
    rfl
  rw [ours]
  split
  · change { (after pending read).tables with arpPendingRequests := (pending read).1 } = _
    rw [value, tables, arpFulfilled]
    split
    · rfl
    · rename_i nobody
      rw [List.eraseP_of_forall_not (by simpa using nobody)]
  · rfl

/-- The handler hands on the packet that stands at the cursor. -/
theorem arp_delivers :
    (after arpRxPacket s).tables =
      arpDelivered s.tables (arpPacketFrom s.pkt.memory s.pkt.curData) := by
  let packet := s.pkt.curData
  let swapped := after (arpSwapEndian packet) (after (setHandler .drop) s)
  have memory : swapped.pkt.memory = arpSwapped s.pkt.memory packet := rfl
  have handled : after arpRxPacket s =
      if (arpPacketFrom s.pkt.memory packet).HTYPE = 1 then
        if (arpPacketFrom s.pkt.memory packet).OPER = 1 then
          after (arpRequest packet) (after (read16 (packet + 6)) (after (read16 packet) swapped))
        else if (arpPacketFrom s.pkt.memory packet).OPER = 2 then
          after (arpReplied packet) (after (read16 (packet + 6)) (after (read16 packet) swapped))
        else after (read16 (packet + 6)) (after (read16 packet) swapped)
      else after (read16 packet) swapped := by
    rw [← load16_arpSwapped_HTYPE, ← load16_arpSwapped_OPER, ← memory]
    change after (arpRest packet) swapped = _
    simp only [arpRest, after_bind, after_ite]
    rfl
  rw [handled, arpDelivered]
  split
  · split
    · exact arpRequest_tables _ _ packet memory
    · split
      · exact arpReplied_tables _ _ packet memory
      · rfl
  · rfl

/-- What the handlers read of the ARP table. -/
abbrev tableOf (s : Stack) : List ArpEntry :=
  s.tables.arpTableHead

theorem udp_arpTableHead : tableOf (after udpRxPacket s) = tableOf s := by
  rw [udp_eq]
  exact @keeps_udpRest _ tableOf (fun _ _ _ => rfl) (fun _ _ => rfl) _ _ _ _

theorem tcp_arpTableHead : tableOf (after tcpRxPacket s) = tableOf s := by
  have rest (header data : Nat) (dataLen : UInt32) :
      Keeps tableOf (tcpRest header data dataLen) := by
    refine .bind (fun _ => rfl) fun _ => .bind (fun _ => rfl) fun _ => ?_
    refine .bind (fun _ => rfl) fun _ => ?_
    split
    · exact fun _ => rfl
    · exact fun _ => rfl
  rw [tcp_eq]
  exact rest _ _ _ _

/-- Only ARP packets make entries in the ARP table. -/
theorem handle_arpTableHead (other : s.pkt.handler ≠ .arp) :
    s.handle.tables.arpTableHead = s.tables.arpTableHead := by
  cases layer : s.pkt.handler with
  | ethernet => rw [handle_ethernet layer, ethernet_tables]
  | ipv4 => rw [handle_ipv4 layer, ipv4_tables]
  | udp =>
      rw [handle_udp layer]
      exact udp_arpTableHead s
  | tcp =>
      rw [handle_tcp layer]
      exact tcp_arpTableHead s
  | arp => exact absurd layer other
  | drop =>
      rw [Stack.handle, layer]
      rfl

end Handler

/-- A process whose request is linked on `arp_pending_requests`. -/
def Caller.Pends (cur : Caller) : Prop :=
  (cur.place = .linked ∨ cur.place = .waiting ∨ cur.place = .asleep) ∧
    cur.request.finished = false

namespace Resolver

/-- No request is linked twice, and all that are linked wait for their answer. -/
def Linked (s : Resolver) : Prop :=
  s.pending.Nodup ∧ ∀ proc ∈ s.pending, (s.caller proc).Pends

/-- The tables hold what the resolver does. -/
structure Shows (s : Resolver) (tables : Tables) : Prop where
  tableHead : tables.arpTableHead = s.tableHead
  pending : tables.arpPendingRequests = s.pending.map fun proc => (s.caller proc).request

variable {s after : Resolver}

theorem linked_start (caller : Nat → Caller) : (start caller).Linked :=
  ⟨List.nodup_nil, fun _ member => nomatch member⟩

theorem Linked.not_mem (linked : s.Linked) {proc : Nat} (apart : ¬(s.caller proc).Pends) :
    proc ∉ s.pending :=
  fun member => apart (linked.2 proc member)

/-- One process moves on, with its request still linked or not linked before. -/
theorem Linked.update {proc : Nat} {cur : Caller} (linked : s.Linked)
    (pends : proc ∈ s.pending → cur.Pends) (pending : after.pending = s.pending)
    (caller : after.caller = Function.update s.caller proc cur) : after.Linked := by
  refine ⟨pending ▸ linked.1, ?_⟩
  intro other member
  rw [pending] at member
  rw [caller]
  by_cases same : other = proc
  · subst same
    simpa using pends member
  · rw [Function.update_of_ne same]
    exact linked.2 other member

/-- The requests that stay linked are as they were, and their processes no further
back. -/
theorem Linked.sublist (linked : s.Linked) (pending : after.pending.Sublist s.pending)
    (pends : ∀ proc ∈ after.pending, (s.caller proc).Pends → (after.caller proc).Pends) :
    after.Linked :=
  ⟨linked.1.sublist pending, fun proc member =>
    pends proc member (linked.2 proc (pending.subset member))⟩

theorem Linked.resolveStep {proc : Nat} (linked : s.Linked)
    (taken : s.resolveStep proc = some after) : after.Linked := by
  unfold Resolver.resolveStep at taken
  cases place : (s.caller proc).place with
  | idle =>
      simp only [place] at taken
      contradiction
  | searching =>
      have apart : proc ∉ s.pending := linked.not_mem (by simp [Caller.Pends, place])
      simp only [place] at taken
      split at taken
      · cases taken
        exact linked.update (fun member => absurd member apart) rfl rfl
      · cases taken
        exact linked.update (fun member => absurd member apart) rfl rfl
  | missed =>
      have apart : proc ∉ s.pending := linked.not_mem (by simp [Caller.Pends, place])
      simp only [place] at taken
      cases taken
      constructor
      · exact List.nodup_cons.mpr ⟨apart, linked.1⟩
      · intro other member
        rcases List.mem_cons.mp member with rfl | before
        · simp [put, Caller.Pends, pendingRequest]
        · have same : other ≠ proc := by
            rintro rfl
            exact apart before
          simp only [put, Function.update_of_ne same]
          exact linked.2 other before
  | linked =>
      simp only [place] at taken
      cases taken
      refine linked.update ?_ rfl rfl
      intro member
      exact ⟨.inr (.inl rfl), (linked.2 proc member).2⟩
  | waiting =>
      simp only [place] at taken
      split at taken
      · rename_i finished
        have apart : proc ∉ s.pending := linked.not_mem (by simp [Caller.Pends, finished])
        cases taken
        exact linked.update (fun member => absurd member apart) rfl rfl
      · cases taken
        refine linked.update ?_ rfl rfl
        intro member
        exact ⟨.inr (.inr rfl), (linked.2 proc member).2⟩
  | asleep =>
      simp only [place] at taken
      contradiction

theorem Linked.fulfil (linked : s.Linked) (packet : ArpPacket) : (s.fulfil packet).Linked := by
  unfold Resolver.fulfil
  split
  · rename_i found _
    apply linked.sublist List.erase_sublist
    intro proc member pends
    have same : proc ≠ found := (linked.1.mem_erase_iff.mp member).1
    simpa only [put, Function.update_of_ne same] using pends
  · exact linked

theorem Linked.wakeup (linked : s.Linked) : s.wakeup.Linked := by
  apply @Linked.sublist s s.wakeup linked (List.Sublist.refl _)
  intro proc _ pends
  simp only [Resolver.wakeup]
  split
  · exact ⟨.inr (.inl rfl), pends.2⟩
  · exact pends

theorem Linked.rxPacket (linked : s.Linked) (packet : ArpPacket) :
    (s.rxPacket packet).Linked := by
  unfold Resolver.rxPacket
  split
  · split
    · split
      · exact linked
      · exact linked
    · split
      · split
        · exact (linked.fulfil packet).wakeup
        · exact linked
      · exact linked
  · exact linked

theorem Linked.tick (linked : s.Linked) : s.tick.Linked := by
  apply linked.sublist List.filter_sublist
  intro proc member pends
  rcases List.mem_filter.mp member with ⟨pending, running⟩
  have early : ¬arpTimeout ≤ (s.caller proc).request.tickCount := by
    simpa using running
  simp only [Resolver.tick, if_pos pending, tickRequest, if_neg early]
  exact pends

theorem Linked.step {event : ArpEvent} (linked : s.Linked)
    (taken : Resolver.step s event = some after) : after.Linked := by
  cases event with
  | call proc ipAddress =>
      rcases Option.ite_none_right_eq_some.mp taken with ⟨⟨_, idle⟩, taken⟩
      have apart : proc ∉ s.pending := linked.not_mem (by simp [Caller.Pends, idle])
      cases taken
      exact linked.update (fun member => absurd member apart) rfl rfl
  | step proc =>
      rcases Option.ite_none_right_eq_some.mp taken with ⟨_, taken⟩
      exact linked.resolveStep taken
  | unmask =>
      rcases Option.ite_none_left_eq_some.mp taken with ⟨_, taken⟩
      cases taken
      exact linked
  | rx packet =>
      rcases Option.ite_none_right_eq_some.mp taken with ⟨_, taken⟩
      cases taken
      exact linked.rxPacket packet
  | tick =>
      rcases Option.ite_none_right_eq_some.mp taken with ⟨_, taken⟩
      cases taken
      exact linked.tick

/-- A reply finds the same request on both sides, and takes it off the list. -/
theorem Shows.fulfil {tables : Tables} (shows : s.Shows tables) (linked : s.Linked)
    (packet : ArpPacket) : (s.fulfil packet).Shows (arpFulfilled tables packet) := by
  have search : (tables.arpPendingRequests.find? fun arpReq => arpReq.TPA = packet.SPA) =
      (s.pending.find? fun proc => (s.caller proc).request.TPA = packet.SPA).map
        fun proc => (s.caller proc).request := by
    rw [shows.pending, List.find?_map]
    rfl
  unfold Resolver.fulfil arpFulfilled
  rw [search]
  cases found : s.pending.find? fun proc => (s.caller proc).request.TPA = packet.SPA with
  | none => exact shows
  | some proc =>
      have erased : (tables.arpPendingRequests.eraseP fun arpReq => arpReq.TPA = packet.SPA) =
          (listDel proc s.pending).map fun proc => (s.caller proc).request := by
        rw [shows.pending, List.eraseP_map, listDel_of_find? found]
        rfl
      constructor
      · exact congrArg (listAdd _) shows.tableHead
      · apply erased.trans
        apply List.map_congr_left
        intro other member
        have apart : other ≠ proc := (linked.1.mem_erase_iff.mp member).1
        change _ = (Function.update s.caller proc _ other).request
        rw [Function.update_of_ne apart]

theorem Shows.wakeup {tables : Tables} (shows : s.Shows tables) : s.wakeup.Shows tables := by
  constructor
  · exact shows.tableHead
  · apply shows.pending.trans
    apply List.map_congr_left
    intro proc _
    simp only [Resolver.wakeup]
    split <;> rfl

/-- The step of the resolver for a packet is what the handler does to the tables, and
it transmits the same. -/
theorem shows_rxPacket {tables : Tables} (shows : s.Shows tables) (linked : s.Linked)
    (packet : ArpPacket) :
    (s.rxPacket packet).Shows (arpDelivered tables packet) ∧
      ∃ sent, (s.rxPacket packet).sent = s.sent ++ sent ∧
        (arpDelivered tables packet).arpSent = tables.arpSent ++ sent := by
  unfold Resolver.rxPacket arpDelivered
  split
  · split
    · split
      · exact ⟨⟨shows.tableHead, shows.pending⟩, _, rfl, rfl⟩
      · exact ⟨shows, [], (List.append_nil _).symm, (List.append_nil _).symm⟩
    · split
      · split
        · refine ⟨(shows.fulfil linked packet).wakeup, [], ?_, ?_⟩
          · rw [List.append_nil]
            unfold Resolver.wakeup Resolver.fulfil
            split <;> rfl
          · rw [List.append_nil]
            unfold arpFulfilled
            split <;> rfl
        · exact ⟨shows, [], (List.append_nil _).symm, (List.append_nil _).symm⟩
      · exact ⟨shows, [], (List.append_nil _).symm, (List.append_nil _).symm⟩
  · exact ⟨shows, [], (List.append_nil _).symm, (List.append_nil _).symm⟩

end Resolver

/-- `arp_rx_packet` on the packet at the cursor is the step of the resolver for it, in
every state that a run from start-up reaches. -/
theorem arp_rxPacket_refines {caller : Nat → Caller} {s : Resolver} {stack : Stack}
    (reached : Reachable Resolver.step (Resolver.start caller) s)
    (shows : s.Shows stack.tables) :
    (s.rxPacket (arpPacketFrom stack.pkt.memory stack.pkt.curData)).Shows
        (after arpRxPacket stack).tables ∧
      ∃ sent, (s.rxPacket (arpPacketFrom stack.pkt.memory stack.pkt.curData)).sent =
          s.sent ++ sent ∧
        (after arpRxPacket stack).tables.arpSent = stack.tables.arpSent ++ sent := by
  have linked : s.Linked :=
    invariant_of_reachable (fun _ _ _ before taken => before.step taken)
      (Resolver.linked_start caller) reached
  rw [arp_delivers]
  exact Resolver.shows_rxPacket shows linked _

end Lpc17xx.Arp
