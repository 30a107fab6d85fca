import Lpc17xx.Net.Blocks

/-!
# Which events lose a block

Two blocks are freed by nobody: that in which `arp_rx_packet` builds its reply, and
that in which `resolve_address` builds its request.  Every other event frees what
it allocates, or leaves it to a queue, a wait queue or the ARP table.
-/

namespace Lpc17xx.Net

open Lpc17xx.Arp
open Lpc17xx.Link
open Lpc17xx.Memory
open Lpc17xx.Protocol
open Lpc17xx.Queue
open Lpc17xx.Transition

namespace State

variable {H B : Type}

/-- The ARP packet that `rx_task` is about to hand to `arp_rx_packet`. -/
def arpPacket (s : State H B) : Option ArpPacket :=
  match s.rxPkt with
  | some pkt => if pkt.pkt.handler = .arp then some (arpPacketOf pkt.pkt) else none
  | none => none

/-- The number of pending requests that an event answers. -/
def answered (s : State H B) : NetEvent B → Nat
  | .rxHandle =>
      match s.arpPacket with
      | some packet => if AnswersPending s.tables.arpPendingRequests packet then 1 else 0
      | none => 0
  | _ => 0

/-- No request for our address is handled, and no packet is transmitted whose next
hop is not in the ARP table. -/
def NoArpLoss (s : State H B) : NetEvent B → Prop
  | .rxHandle => ∀ packet, s.arpPacket = some packet → ¬AsksForUs packet
  | .ip4Xmit => ∀ txPkt, s.txPkt = some (.popped txPkt) →
      ∃ entry ∈ s.tables.arpTableHead, entry.ipaddr = ip4GetPktDst txPkt.dstIp
  | _ => True

variable [DecidableEq B] (mem : Allocator H B)

/-- The blocks that a part of an event loses, and the entries that it makes in the
ARP table. -/
structure Takes (s after : State H B) (lost : Multiset B) (entries : List B) : Prop where
  passes : Passes (live mem) owned s after 0 lost
  arpTable : after.arpTable = entries ++ s.arpTable

/-- An event that loses nothing and leaves the ARP table alone. -/
structure Quiet (s after : State H B) : Prop where
  passes : Passes (live mem) owned s after 0 0
  arpTable : after.arpTable = s.arpTable
  arpTableHead : after.tables.arpTableHead = s.tables.arpTableHead

/-- A part of an event loses no block exactly if it is quiet, and makes as many entries
in the ARP table as it answers requests. -/
def Accounts (s after : State H B) (quiet : Prop) (answers : Nat) : Prop :=
  ∃ lost entries, Takes mem s after lost entries ∧ (lost = 0 ↔ quiet) ∧ entries.length = answers

variable {mem} {s middle after : State H B}

theorem Moves.takes {lost : Multiset B} (moves : Moves mem s after 0 lost) :
    Takes mem s after lost [] :=
  ⟨moves.passes, moves.arpTable⟩

/-- What loses nothing and answers nothing. -/
theorem Quiet.accounts {quiet : Prop} (unchanged : Quiet mem s after) (holds : quiet) :
    Accounts mem s after quiet 0 :=
  ⟨0, [], ⟨unchanged.passes, unchanged.arpTable⟩, iff_of_true rfl holds, rfl⟩

theorem Quiet.counts (unchanged : Quiet mem s after) :
    after.tables.arpTableHead.length = 0 + s.tables.arpTableHead.length := by
  rw [unchanged.arpTableHead, Nat.zero_add]

theorem Moves.quiet (moves : Moves mem s after 0 0) : Quiet mem s after :=
  ⟨moves.passes, moves.arpTable, moves.arpTableHead⟩

/-- What follows without a loss. -/
theorem Accounts.trans {quiet : Prop} {answers : Nat}
    (accounts : Accounts mem s middle quiet answers)
    (passes : ∀ lost, Passes (live mem) owned middle after lost lost)
    (arpTable : after.arpTable = middle.arpTable) : Accounts mem s after quiet answers := by
  obtain ⟨lost, entries, takes, losses, count⟩ := accounts
  exact ⟨lost, entries, ⟨takes.passes.trans (passes lost), arpTable.trans takes.arpTable⟩, losses,
    count⟩

section Handlers

theorem takes_arpFulfil {pending : List ArpPendingRequest} {packet : ArpPacket}
    (done : s.arpFulfil mem pending packet = some after) :
    ∃ entries, Takes mem s after 0 entries ∧ after.rxPkt = s.rxPkt ∧
      after.tables.arpTableHead = s.tables.arpTableHead ∧
      entries.length = if ∃ arpReq ∈ pending, arpReq.TPA = packet.SPA then 1 else 0 := by
  unfold arpFulfil at done
  split at done
  · rename_i answers
    simp only [Option.bind_eq_bind, Option.bind_eq_some_iff, Prod.exists,
      Option.some.injEq] at done
    obtain ⟨newArpEntry, first, got, added⟩ := done
    subst added
    have moves : Moves mem s first 0 ({newArpEntry} + 0) := moves_getMem got
    refine ⟨[newArpEntry], ⟨moves.passes.trans (passes_moved rfl ?_), ?_⟩, moves.rxPkt,
      moves.arpTableHead, ?_⟩
    · simp only [owned, inFlight, waitNodes, listAdd, ← Multiset.cons_coe,
        ← Multiset.singleton_add]
      abel
    · exact congrArg (newArpEntry :: ·) moves.arpTable
    · exact (if_pos answers).symm
  · rename_i foreign
    cases done
    exact ⟨[], (Moves.refl 0).takes, rfl, rfl, (if_neg foreign).symm⟩

/-- A packet for `arp_rx_packet`: a request for us loses a block, and a reply makes an
entry when it answers a request. -/
theorem accounts_arpRxPacket {pending : List ArpPendingRequest} {packet : ArpPacket}
    (done : s.arpRxPacket mem pending packet = some after) :
    Accounts mem s after (¬AsksForUs packet) (if AnswersPending pending packet then 1 else 0) ∧
      after.rxPkt = s.rxPkt ∧ after.tables.arpTableHead = s.tables.arpTableHead := by
  have nothing (same : some s = some after) (quiet : ¬AsksForUs packet)
      (unanswered : ¬AnswersPending pending packet) :
      Accounts mem s after (¬AsksForUs packet) (if AnswersPending pending packet then 1 else 0) ∧
        after.rxPkt = s.rxPkt ∧ after.tables.arpTableHead = s.tables.arpTableHead := by
    cases same
    rw [if_neg unanswered]
    exact ⟨(Moves.refl 0).quiet.accounts quiet, rfl, rfl⟩
  unfold arpRxPacket at done
  split at done
  · rename_i ethernet
    split at done
    · rename_i request
      have unanswered : ¬AnswersPending pending packet := by
        rintro ⟨_, reply, _⟩
        rw [request] at reply
        exact absurd reply (by decide)
      split at done
      · rename_i ours
        obtain ⟨resp, moves⟩ := moves_arpRespond done
        rw [if_neg unanswered]
        refine ⟨⟨_, [], moves.takes, ?_, rfl⟩, moves.rxPkt, moves.arpTableHead⟩
        simp [AsksForUs, ethernet, request, ours]
      · rename_i foreign
        exact nothing done (fun asks => foreign asks.2.2) unanswered
    · rename_i noRequest
      have quiet : ¬AsksForUs packet := fun asks => noRequest asks.2.1
      split at done
      · rename_i reply
        split at done
        · rename_i ours
          obtain ⟨first, fulfilled, woken⟩ := Option.map_eq_some_iff.mp done
          obtain ⟨entries, takes, rxPkt, arpTableHead, count⟩ := takes_arpFulfil fulfilled
          have wakes (lost : Multiset B) : Moves mem first after lost lost :=
            woken ▸ moves_waitqueueWakeup .arp
          have accounts : Accounts mem s first (¬AsksForUs packet)
              (if AnswersPending pending packet then 1 else 0) :=
            ⟨0, entries, takes, iff_of_true rfl quiet,
              by simp [count, AnswersPending, ethernet, reply, ours]⟩
          exact ⟨accounts.trans (fun lost => (wakes lost).passes) (wakes 0).arpTable,
            (wakes 0).rxPkt.trans rxPkt, (wakes 0).arpTableHead.trans arpTableHead⟩
        · rename_i foreign
          exact nothing done quiet fun answers => foreign answers.2.2.1
      · rename_i other
        exact nothing done quiet fun answers => other answers.2.1
  · rename_i other
    exact nothing done (fun asks => other asks.1) fun answers => other answers.1

omit [DecidableEq B] in
theorem arpPacket_of_arp {pkt : RxPkt B} (held : s.rxPkt = some pkt)
    (arp : pkt.pkt.handler = .arp) : s.arpPacket = some (arpPacketOf pkt.pkt) := by
  rw [arpPacket, held]
  exact if_pos arp

omit [DecidableEq B] in
theorem arpPacket_of_other {pkt : RxPkt B} (held : s.rxPkt = some pkt)
    (other : pkt.pkt.handler ≠ .arp) : s.arpPacket = none := by
  rw [arpPacket, held]
  exact if_neg other

omit [DecidableEq B] in
theorem noArpLoss_rxHandle {packet : ArpPacket} (arp : s.arpPacket = some packet) :
    s.NoArpLoss .rxHandle ↔ ¬AsksForUs packet := by
  simp [NoArpLoss, arp]

omit [DecidableEq B] in
theorem answered_rxHandle {packet : ArpPacket} (arp : s.arpPacket = some packet) :
    s.answered .rxHandle =
      if AnswersPending s.tables.arpPendingRequests packet then 1 else 0 := by
  simp only [answered, arp]

omit [DecidableEq B] in
theorem noArpLoss_of_none (other : s.arpPacket = none) : s.NoArpLoss .rxHandle := by
  simp [NoArpLoss, other]

omit [DecidableEq B] in
theorem answered_of_none (other : s.arpPacket = none) : s.answered .rxHandle = 0 := by
  simp only [answered, other]

/-- What a handler does, by the protocol it handles.  The heap and the packets do not
see the tables. -/
theorem accounts_handlerMem {pkt : RxPkt B} {tables : Tables} {handled : Stack}
    (held : s.rxPkt = some pkt)
    (done : { s with tables }.handlerMem mem (s.handed pkt.pkt) handled = some after) :
    Accounts mem s after (s.NoArpLoss .rxHandle) (s.answered .rxHandle) ∧
      after.rxPkt = some pkt ∧ after.tables.arpTableHead = tables.arpTableHead := by
  let first : State H B := { s with tables }
  have retabled : Passes (live mem) owned s first 0 0 := passes_moved rfl rfl
  have others (other : pkt.pkt.handler ≠ .arp) (moves : Moves mem first after 0 0) :
      Accounts mem s after (s.NoArpLoss .rxHandle) (s.answered .rxHandle) ∧
        after.rxPkt = some pkt ∧ after.tables.arpTableHead = tables.arpTableHead := by
    have none := arpPacket_of_other held other
    rw [answered_of_none none]
    exact ⟨⟨0, [], ⟨retabled.trans moves.passes, moves.arpTable⟩,
      iff_of_true rfl (noArpLoss_of_none none), rfl⟩, moves.rxPkt.trans held, moves.arpTableHead⟩
  unfold handlerMem at done
  split at done
  · rename_i arp
    have packet := arpPacket_of_arp held arp
    obtain ⟨⟨lost, entries, takes, losses, count⟩, rxPkt, arpTableHead⟩ :=
      accounts_arpRxPacket done
    rw [answered_rxHandle packet]
    exact ⟨⟨lost, entries, ⟨retabled.trans takes.passes, takes.arpTable⟩,
      losses.trans (noArpLoss_rxHandle packet).symm, count⟩, rxPkt.trans held, arpTableHead⟩
  · rename_i tcp
    exact others (fun arp => nomatch arp.symm.trans tcp) (moves_tcpRxPacket done)
  · rename_i notArp _
    cases done
    exact others notArp (.refl 0)

/-- A round of the loop of `rx_task`: what its handler does, and the packet freed or
kept. -/
theorem accounts_rxHandle (done : s.rxHandle mem = some after) :
    Accounts mem s after (s.NoArpLoss .rxHandle) (s.answered .rxHandle) := by
  unfold rxHandle at done
  split at done
  · contradiction
  · rename_i pkt held
    obtain ⟨_, done⟩ := Option.ite_none_left_eq_some.mp done
    obtain ⟨first, handled, done⟩ := Option.map_eq_some_iff.mp done
    obtain ⟨accounts, kept, _⟩ := accounts_handlerMem held handled
    subst done
    split
    · apply accounts.trans
      · intro lost
        have given : Passes (live mem) owned first { first with rxPkt := none } lost
            (pkt.blocks + lost) := by
          refine passes_moved rfl ?_
          simp only [owned, inFlight, waitNodes, kept, Option.elim]
          abel
        exact given.trans (moves_packetDestroy pkt).passes
      · rfl
    · apply accounts.trans
      · intro lost
        refine passes_moved rfl ?_
        simp only [owned, inFlight, waitNodes, kept, Option.elim, RxPkt.blocks]
      · rfl

/-- As many entries as the handlers of the protocols make. -/
theorem arpTableHead_rxHandle (done : s.rxHandle mem = some after) :
    after.tables.arpTableHead.length =
      s.answered .rxHandle + s.tables.arpTableHead.length := by
  unfold rxHandle at done
  split at done
  · contradiction
  · rename_i pkt held
    obtain ⟨_, done⟩ := Option.ite_none_left_eq_some.mp done
    obtain ⟨first, handled, done⟩ := Option.map_eq_some_iff.mp done
    obtain ⟨_, _, arpTableHead⟩ := accounts_handlerMem held handled
    have kept : after.tables = first.tables := by
      subst done
      split <;> rfl
    rw [kept, arpTableHead]
    by_cases arp : pkt.pkt.handler = .arp
    · rw [answered_rxHandle (arpPacket_of_arp held arp), handle_arp arp, arp_delivers]
      exact length_arpTableHead_arpDelivered _ _
    · rw [answered_of_none (arpPacket_of_other held arp), handle_arpTableHead _ arp, Nat.zero_add]
      rfl

end Handlers

section Tasks

theorem quiet_rxPop (done : s.rxPop = some after) : Quiet mem s after := by
  rcases rxPop_eq_some done with ⟨_, _, idle, queue, rfl⟩
  refine ⟨passes_moved rfl ?_, rfl, rfl⟩
  simp only [owned, inFlight, waitNodes, idle, queue, Option.elim, List.map_cons,
    List.sum_cons]
  abel

theorem quiet_ip4Pop (done : s.ip4Pop = some after) : Quiet mem s after := by
  rcases ip4Pop_eq_some done with ⟨_, _, idle, queue, rfl⟩
  refine ⟨passes_moved rfl ?_, rfl, rfl⟩
  simp only [owned, inFlight, waitNodes, idle, queue, Option.elim, List.map_cons,
    List.sum_cons, TxPkt.blocks]
  abel

theorem quiet_etherPop (done : s.etherPop = some after) : Quiet mem s after := by
  rcases etherPop_eq_some done with ⟨_, _, idle, queue, rfl⟩
  refine ⟨passes_moved rfl ?_, rfl, rfl⟩
  simp only [owned, inFlight, waitNodes, idle, queue, Option.elim, List.map_cons,
    List.sum_cons]
  abel

/-- The entry popped is freed, whatever has become of the packet. -/
theorem passes_ip4Done {txPkt : Ip4Entry B} {lost : Multiset B}
    (held : s.txPkt.elim 0 TxPkt.blocks = txPkt.blocks) :
    Passes (live mem) owned s (s.ip4Done mem txPkt) lost lost := by
  have given : Passes (live mem) owned s { s with txPkt := none } lost
      ({txPkt.payload} + ({txPkt.block} + lost)) := by
    refine passes_moved rfl ?_
    simp only [owned, inFlight, waitNodes, held, Option.elim_none, Ip4Entry.blocks]
    abel
  exact given.trans ((moves_freeMem txPkt.payload).trans (moves_freeMem txPkt.block)).passes

/-- `ip4_tx_task` loses a block exactly when it has to ask for the address of the next
hop. -/
theorem accounts_ip4Xmit (done : s.ip4Xmit mem = some after) :
    Accounts mem s after (s.NoArpLoss .ip4Xmit) 0 ∧
      after.tables.arpTableHead.length = 0 + s.tables.arpTableHead.length := by
  unfold ip4Xmit at done
  split at done
  · rename_i txPkt popped
    dsimp only at done
    split at done
    · rename_i known
      obtain ⟨first, sent, freed⟩ := Option.map_eq_some_iff.mp done
      subst freed
      have moves : Moves mem s first 0 0 := moves_ip4DoXmit sent
      have quiet : Quiet mem s (first.ip4Done mem txPkt) := by
        refine ⟨moves.passes.trans (passes_ip4Done ?_), moves.arpTable, moves.arpTableHead⟩
        rw [moves.txPkt, popped]
        rfl
      refine ⟨quiet.accounts ?_, quiet.counts⟩
      intro other same
      cases popped.symm.trans same
      exact known
    · rename_i unknown
      obtain ⟨first, sent, waits⟩ := Option.map_eq_some_iff.mp done
      subst waits
      obtain ⟨arpRequest, moves⟩ := moves_sendRequest sent
      refine ⟨⟨{arpRequest} + 0, [],
        ⟨moves.passes.trans (passes_moved rfl ?_), moves.arpTable⟩, ?_, rfl⟩, ?_⟩
      · simp only [owned, inFlight, waitNodes, moves.txPkt, popped, Option.elim, TxPkt.blocks]
      · apply iff_of_false
        · simp
        · exact fun quiet => unknown (quiet txPkt popped)
      · rw [Nat.zero_add]
        exact congrArg List.length moves.arpTableHead
  · contradiction

theorem quiet_ip4Resume (done : s.ip4Resume mem = some after) : Quiet mem s after := by
  unfold ip4Resume at done
  split at done
  · rename_i txPkt arpReq arpFinished resolving _
    let first : State H B := { s with tables := { s.tables with arpFinished } }
    have untabled : Moves mem s first 0 0 := ⟨passes_moved rfl rfl, rfl, rfl, rfl, rfl, rfl⟩
    have held : first.txPkt = some (.resolving txPkt) := resolving
    dsimp only at done
    split at done
    · cases done
      exact ⟨untabled.passes.trans (passes_ip4Done (by rw [held]; rfl)), rfl, rfl⟩
    · obtain ⟨second, sent, freed⟩ := Option.map_eq_some_iff.mp done
      subst freed
      have moves : Moves mem s second 0 0 := untabled.trans (moves_ip4DoXmit sent)
      refine ⟨moves.passes.trans (passes_ip4Done ?_), moves.arpTable, moves.arpTableHead⟩
      rw [moves.txPkt, resolving]
      rfl
  · contradiction

/-- The header is freed as soon as it is transmitted, and then the entry. -/
theorem quiet_etherXmit (done : s.etherXmit mem = some after) : Quiet mem s after := by
  simp only [etherXmit, Option.bind_eq_bind, Option.bind_eq_some_iff, Prod.exists,
    Option.some.injEq] at done
  obtain ⟨txdPkt, held, header, first, got, freed⟩ := done
  subst freed
  let second := first.freeMem mem header
  have moves : Moves mem s second 0 0 := (moves_getMem got).trans (moves_freeMem header)
  have given : Passes (live mem) owned second { second with txdPkt := none } 0
      ({txdPkt.payload} + ({txdPkt.block} + 0)) := by
    refine passes_moved rfl ?_
    simp only [owned, inFlight, waitNodes, moves.txdPkt, held, Option.elim, EtherEntry.blocks]
    abel
  refine ⟨(moves.passes.trans given).trans ?_, moves.arpTable, moves.arpTableHead⟩
  exact ((moves_freeMem txdPkt.payload).trans (moves_freeMem txdPkt.block)).passes

theorem moves_waitqueueWait {proc : Task} (done : s.waitqueueWait mem proc = some after) :
    Moves mem s after 0 0 := by
  simp only [waitqueueWait, Option.bind_eq_bind, Option.bind_eq_some_iff, Prod.exists,
    Option.some.injEq] at done
  obtain ⟨queue, _, block, first, got, queued⟩ := done
  subst queued
  apply (moves_getMem got).trans
  refine ⟨passes_moved rfl ?_, rfl, rfl, rfl, rfl, rfl⟩
  simp only [owned, inFlight, waitNodes, listAdd, List.map_cons, List.sum_cons]
  abel

/-- The counters of the pending requests move no block. -/
theorem moves_arpTick : Moves mem s s.arpTick 0 0 :=
  ⟨passes_moved rfl rfl, rfl, rfl, rfl, rfl, rfl⟩

theorem moves_getOther {size : Nat} {block : B} (got : s.getMem mem size = some (block, middle)) :
    Moves mem s { middle with others := block :: middle.others } 0 0 := by
  apply (moves_getMem got).trans
  refine ⟨passes_moved rfl ?_, rfl, rfl, rfl, rfl, rfl⟩
  simp only [owned, inFlight, waitNodes, ← Multiset.cons_coe, ← Multiset.singleton_add]
  abel

theorem moves_freeOther {block : B} (member : block ∈ s.others) :
    Moves mem s ({ s with others := s.others.erase block }.freeMem mem block) 0 0 := by
  have taken : (s.others : Multiset B) = {block} + (s.others.erase block : List B) := by
    rw [Multiset.singleton_add, Multiset.cons_coe]
    exact Multiset.coe_eq_coe.mpr (List.perm_cons_erase member)
  apply Moves.trans _ (moves_freeMem block)
  refine ⟨passes_moved rfl ?_, rfl, rfl, rfl, rfl, rfl⟩
  simp only [owned, inFlight, waitNodes, taken]
  abel

end Tasks

/-- Every event loses a block exactly when it is one of the two that do, and makes an
entry in the ARP table, with a block of its own, for the request that it answers. -/
theorem accounts_step {event : NetEvent B} (taken : step mem s event = some after) :
    Accounts mem s after (s.NoArpLoss event) (s.answered event) ∧
      after.tables.arpTableHead.length = s.answered event + s.tables.arpTableHead.length := by
  have unchanged (same : s.answered event = 0) (admitted : s.NoArpLoss event)
      (quiet : Quiet mem s after) :
      Accounts mem s after (s.NoArpLoss event) (s.answered event) ∧
        after.tables.arpTableHead.length = s.answered event + s.tables.arpTableHead.length := by
    rw [same]
    exact ⟨quiet.accounts admitted, quiet.counts⟩
  cases event with
  | fragment statusInfo memory stale =>
      exact unchanged rfl trivial (moves_irqEnet taken).quiet
  | rxPop =>
      obtain ⟨_, done⟩ := Option.ite_none_right_eq_some.mp taken
      exact unchanged rfl trivial (quiet_rxPop done)
  | rxHandle =>
      obtain ⟨_, done⟩ := Option.ite_none_right_eq_some.mp taken
      exact ⟨accounts_rxHandle done, arpTableHead_rxHandle done⟩
  | ip4Pop =>
      obtain ⟨_, done⟩ := Option.ite_none_right_eq_some.mp taken
      exact unchanged rfl trivial (quiet_ip4Pop done)
  | ip4Xmit =>
      obtain ⟨_, done⟩ := Option.ite_none_right_eq_some.mp taken
      exact accounts_ip4Xmit done
  | ip4Resume =>
      obtain ⟨_, done⟩ := Option.ite_none_right_eq_some.mp taken
      exact unchanged rfl trivial (quiet_ip4Resume done)
  | etherPop =>
      obtain ⟨_, done⟩ := Option.ite_none_right_eq_some.mp taken
      exact unchanged rfl trivial (quiet_etherPop done)
  | etherXmit =>
      obtain ⟨_, done⟩ := Option.ite_none_right_eq_some.mp taken
      exact unchanged rfl trivial (quiet_etherXmit done)
  | wait proc =>
      obtain ⟨_, done⟩ := Option.ite_none_right_eq_some.mp taken
      exact unchanged rfl trivial (moves_waitqueueWait done).quiet
  | arpTick =>
      cases taken
      exact unchanged rfl trivial moves_arpTick.quiet
  | getOther size =>
      obtain ⟨⟨block, first⟩, got, taken⟩ := Option.map_eq_some_iff.mp taken
      subst taken
      exact unchanged rfl trivial (moves_getOther got).quiet
  | freeOther block =>
      obtain ⟨member, taken⟩ := Option.ite_none_right_eq_some.mp taken
      cases taken
      exact unchanged rfl trivial (moves_freeOther member).quiet
  | xmitOther dstIp payloadLen =>
      exact unchanged rfl trivial (moves_ip4XmitPacket taken).quiet
  | setOther tcbHead udpRxRequests =>
      cases taken
      exact unchanged rfl trivial ⟨passes_moved rfl rfl, rfl, rfl⟩
  | wakeupOther =>
      cases taken
      exact unchanged rfl trivial (moves_waitqueueWakeup .tcp).quiet

end State

end Lpc17xx.Net
