import Lpc17xx.Requests.Core

/-!
# No request outlives its call

What the two lists hold at any time are nodes in frames that are in use, each linked once;
and no node is unlinked that is not linked.  So whatever is written to the other frames,
the loops go round the lists and end.
-/

namespace Lpc17xx.Requests

open Lpc17xx.Arp
open Lpc17xx.Link
open Lpc17xx.Memory
open Lpc17xx.Protocol
open Lpc17xx.Transition
open Lpc17xx.Udp

namespace Frames

/-- The nodes on `udp_rx_requests`. -/
def listeners (s : Frames) : List Node :=
  s.udp.requests.map .newListener

/-- The nodes on `arp_pending_requests`. -/
def pending (s : Frames) : List Node :=
  s.arp.pending.map .arpPReq

/-- The two lists are rings of the nodes that have been linked and not unlinked since, of
which none is linked or unlinked twice, and all are in calls that have not returned. -/
structure Intact (s : Frames) : Prop where
  lists : Lists s.links s.calls .udpRxRequests s.listeners .arpPendingRequests s.pending
  udpRx : ∀ proc, .newListener proc ∈ s.listeners → (s.udp.caller proc).place ≠ .idle
  resolveAddress : ∀ proc, .arpPReq proc ∈ s.pending → (s.arp.caller proc).place ≠ .idle

/-- The lists are intact, and each is the one that its module has made. -/
structure Held (s : Frames) : Prop where
  lists : Lists s.links s.calls .udpRxRequests s.listeners .arpPendingRequests s.pending
  udp : s.udp.Sound
  arp : s.arp.Linked

section Nodes

variable {s : Frames} {proc : Nat}

@[simp]
theorem newListener_mem_listeners : .newListener proc ∈ s.listeners ↔ proc ∈ s.udp.requests := by
  simp [listeners]

@[simp]
theorem arpPReq_mem_pending : .arpPReq proc ∈ s.pending ↔ proc ∈ s.arp.pending := by
  simp [pending]

@[simp]
theorem newListener_not_mem_pending : .newListener proc ∉ s.pending := by
  simp [pending]

@[simp]
theorem arpPReq_not_mem_listeners : .arpPReq proc ∉ s.listeners := by
  simp [listeners]

theorem map_listDel {node : Nat → Node} (injective : Function.Injective node)
    (procs : List Nat) : (Link.listDel proc procs).map node =
      Link.listDel (node proc) (procs.map node) :=
  List.map_erase injective procs

theorem mapM_listenerOf (procs : List Nat) :
    (procs.map Node.newListener).mapM listenerOf = some procs := by
  induction procs with
  | nil => rfl
  | cons first rest ih =>
      rw [List.map_cons, List.mapM_cons, ih]
      rfl

theorem Held.intact (held : s.Held) : s.Intact where
  lists := held.lists
  udpRx := by
    intro proc member
    exact (held.udp.linked proc).mp (newListener_mem_listeners.mp member)
  resolveAddress := by
    intro proc member idle
    have pends := held.arp.2 proc (arpPReq_mem_pending.mp member)
    simp [Caller.Pends, idle] at pends

theorem held_start (links : Links Node) (callers : Nat → Udp.Caller)
    (requests : Nat → Arp.Caller) : (start links callers requests).Held where
  lists :=
    { ring := Links.ring_nil (by simp [start]) (by simp [start])
      ring' := Links.ring_nil (by simp [start]) (by simp [start])
      apart := by
        intro node member
        simp only [listeners, start, Receiver.start, List.map_nil, List.mem_singleton] at member
        subst member
        simp [pending, start, Resolver.start]
      proper := trivial
      linked := by simp [ListCall.LinkedBy, listeners, pending, start, Receiver.start,
        Resolver.start] }
  udp := Receiver.sound_start callers
  arp := Resolver.linked_start requests

end Nodes

section Udp

variable {s : Frames} {proc : Nat}

/-- The loops over the listeners come by all of them. -/
theorem listForEach_listeners (held : s.Held) :
    s.links.listForEach .udpRxRequests s.udp.requests.length = some s.listeners :=
  held.lists.ring.listForEach (by simp [listeners])

theorem udpRx_eq (held : s.Held) (port : UInt16) (dstBuf : Bytes) (dstBufSz : UInt16) :
    s.udpRx proc port dstBuf dstBufSz =
      if s.udp.requests.any fun i => (s.udp.caller i).newListener.port = port then
        some { s with udp := s.udp.refuse proc }
      else
        some (listAdd { s with udp := s.udp.register proc port dstBuf dstBufSz }
          (.newListener proc) .udpRxRequests) := by
  simp only [udpRx, listForEach_listeners held, listeners, bind, Option.bind_some,
    mapM_listenerOf]

theorem udpRxPacket_eq (held : s.Held) (datagram : Datagram) :
    s.udpRxPacket datagram = some { s with udp := s.udp.udpRxPacket datagram } := by
  simp only [udpRxPacket, listForEach_listeners held, listeners, bind, Option.bind_some,
    mapM_listenerOf]
  rfl

/-- The module's own list does not change. -/
theorem Held.udp_moved {udp : Receiver} (held : s.Held) (sound : udp.Sound)
    (requests : udp.requests = s.udp.requests) : Held { s with udp } where
  lists := by
    have same : listeners { s with udp } = s.listeners := congrArg (List.map _) requests
    rw [same]
    exact held.lists
  udp := sound
  arp := held.arp

theorem Held.udp_registered {udp : Receiver} (held : s.Held) (sound : udp.Sound)
    (idle : (s.udp.caller proc).place = .idle)
    (requests : udp.requests = Link.listAdd proc s.udp.requests) :
    (listAdd { s with udp } (.newListener proc) .udpRxRequests).Held where
  lists := by
    have same : listeners (listAdd { s with udp } (.newListener proc) .udpRxRequests) =
        Link.listAdd (.newListener proc) s.listeners := congrArg (List.map _) requests
    have fresh : proc ∉ s.udp.requests := fun member => (held.udp.linked proc).mp member idle
    rw [same]
    exact held.lists.listAdd (by simpa using fresh) (by simp)
  udp := sound
  arp := held.arp

theorem Held.udp_returned {udp : Receiver} (held : s.Held) (sound : udp.Sound)
    (inside : (s.udp.caller proc).place ≠ .idle)
    (requests : udp.requests = Link.listDel proc s.udp.requests) :
    (listDel { s with udp } (.newListener proc)).Held where
  lists := by
    have same : listeners (listDel { s with udp } (.newListener proc)) =
        Link.listDel (.newListener proc) s.listeners :=
      (congrArg (List.map _) requests).trans (map_listDel (fun _ _ same => by simpa using same) _)
    rw [same]
    exact held.lists.listDel (by simpa using (held.udp.linked proc).mpr inside)
  udp := sound
  arp := held.arp

theorem Held.udpRx {after : Frames} {port : UInt16} {dstBuf : Bytes} {dstBufSz : UInt16}
    (held : s.Held) (idle : (s.udp.caller proc).place = .idle)
    (taken : s.udpRx proc port dstBuf dstBufSz = some after) : after.Held := by
  rw [udpRx_eq held] at taken
  split at taken
  · rename_i used
    cases taken
    have refused : Receiver.Steps s.udp (.call proc port dstBuf dstBufSz) (s.udp.refuse proc) :=
      .refused idle (by simpa [Receiver.portOf] using used)
    exact held.udp_moved (held.udp.steps refused) rfl
  · rename_i unused
    cases taken
    exact held.udp_registered
      (held.udp.registered idle (by simpa [Receiver.portOf] using unused)) idle rfl

theorem Held.udpRxStep {after : Frames} (held : s.Held)
    (taken : s.udpRxStep proc = some after) : after.Held := by
  rcases Option.bind_eq_some_iff.mp taken with ⟨udp, stepped, taken⟩
  have steps := Receiver.steps_of_udpRxStep stepped
  have sound := held.udp.steps steps
  split at taken
  · rename_i filled
    cases taken
    have inside : (s.udp.caller proc).place ≠ .idle := by simp [filled]
    cases steps with
    | filled waiting _ =>
        rw [filled] at waiting
        contradiction
    | slept waiting =>
        rw [filled] at waiting
        contradiction
    | returned _ => exact held.udp_returned sound inside rfl
  · rename_i notFilled
    cases taken
    cases steps with
    | filled _ _ => exact held.udp_moved sound rfl
    | slept _ => exact held.udp_moved sound rfl
    | returned filled => exact absurd filled notFilled

theorem Held.udpRxPacket {after : Frames} {datagram : Datagram} (held : s.Held)
    (taken : s.udpRxPacket datagram = some after) : after.Held := by
  rw [udpRxPacket_eq held] at taken
  cases taken
  exact held.udp_moved (held.udp.received datagram)
    (Receiver.gives_udpRxPacket held.udp datagram).requests

end Udp

section Arp

variable {s : Frames} {proc : Nat}

theorem Held.arp_moved {arp : Resolver} (held : s.Held) (linked : arp.Linked)
    (pending : arp.pending = s.arp.pending) : Held { s with arp } where
  lists := by
    have same : Frames.pending { s with arp } = s.pending := congrArg (List.map _) pending
    rw [same]
    exact held.lists
  udp := held.udp
  arp := linked

/-- The node is cleared before it is linked. -/
theorem Held.arp_linked {arp : Resolver} (held : s.Held) (linked : arp.Linked)
    (apart : proc ∉ s.arp.pending) (pending : arp.pending = Link.listAdd proc s.arp.pending) :
    ((write { s with arp } (.arpPReq proc) .null .null).listAdd (.arpPReq proc)
      .arpPendingRequests).Held where
  lists := by
    have same : Frames.pending ((write { s with arp } (.arpPReq proc) .null .null).listAdd
        (.arpPReq proc) .arpPendingRequests) = Link.listAdd (.arpPReq proc) s.pending :=
      congrArg (List.map _) pending
    have fresh : .arpPReq proc ∉ .udpRxRequests :: s.listeners := by simp
    have fresh' : .arpPReq proc ∉ .arpPendingRequests :: s.pending := by simpa using apart
    rw [same]
    exact ((held.lists.write fresh fresh').symm.listAdd fresh' fresh).symm
  udp := held.udp
  arp := linked

theorem Held.arp_unlinked {arp : Resolver} (held : s.Held) (linked : arp.Linked)
    (member : proc ∈ s.arp.pending) (pending : arp.pending = Link.listDel proc s.arp.pending) :
    (listDel { s with arp } (.arpPReq proc)).Held where
  lists := by
    have same : Frames.pending (listDel { s with arp } (.arpPReq proc)) =
        Link.listDel (.arpPReq proc) s.pending :=
      (congrArg (List.map _) pending).trans (map_listDel (fun _ _ same => by simpa using same) _)
    rw [same]
    exact (held.lists.symm.listDel (arpPReq_mem_pending.mpr member)).symm
  udp := held.udp
  arp := linked

theorem Held.resolveStep {after : Frames} (held : s.Held)
    (taken : s.resolveStep proc = some after) : after.Held := by
  rcases Option.bind_eq_some_iff.mp taken with ⟨arp, stepped, taken⟩
  have linked := held.arp.resolveStep stepped
  have steps := Resolver.steps_of_resolveStep stepped
  split at taken
  · rename_i missed
    cases taken
    have apart : proc ∉ s.arp.pending := held.arp.not_mem (by simp [Caller.Pends, missed])
    unfold Resolver.resolveStep at stepped
    simp only [missed] at stepped
    cases stepped
    exact held.arp_linked linked apart rfl
  · rename_i notMissed
    cases taken
    cases steps with
    | hit _ _ => exact held.arp_moved linked rfl
    | missed _ _ => exact held.arp_moved linked rfl
    | linked missed => exact absurd missed notMissed
    | transmitted _ => exact held.arp_moved linked rfl
    | returned _ _ => exact held.arp_moved linked rfl
    | slept _ _ => exact held.arp_moved linked rfl

/-- A round that unlinks its node or leaves the lists alone. -/
theorem ring_of_round {links : Links Node} {before behind : List Node} {node : Node}
    {s' : Frames} (ring : links.Ring .arpPendingRequests (before ++ node :: behind))
    (round : s'.links = links.listDel .null node ∨ s'.links = links) :
    ∃ before', s'.links.Ring .arpPendingRequests (before' ++ behind) := by
  rcases round with unlinked | same
  · exact ⟨before, unlinked ▸ ring.listDel⟩
  · refine ⟨before ++ [node], ?_⟩
    rw [same, List.append_assoc]
    exact ring

/-- What the loop of `case OPER_REPLY` does when it is left in a round. -/
def answer (s : Frames) (packet : ArpPacket) (proc : Nat) : Frames :=
  listDel { s with
    arp := { s.arp.put proc { s.arp.caller proc with
        request := fulfilled (s.arp.caller proc).request ⟨packet.SHA, packet.SPA⟩ } with
      tableHead := Link.listAdd ⟨packet.SHA, packet.SPA⟩ s.arp.tableHead
      pending := Link.listDel proc s.arp.pending } } (.arpPReq proc)

theorem fulfilRound_arpPReq (packet : ArpPacket) :
    fulfilRound packet (.arpPReq proc) s =
      if (s.arp.caller proc).request.TPA = packet.SPA then some (s.answer packet proc, true)
      else some (s, false) :=
  rfl

/-- The rounds up to the first request for the address, by induction on the requests. -/
theorem foldUntil_fulfilRound (packet : ArpPacket) (procs : List Nat) :
    Links.foldUntil (fulfilRound packet) (procs.map .arpPReq) s =
      some (match procs.find? fun proc => (s.arp.caller proc).request.TPA = packet.SPA with
        | some proc => s.answer packet proc
        | none => s) := by
  induction procs with
  | nil => rfl
  | cons first rest ih =>
      rw [List.map_cons, Links.foldUntil, fulfilRound_arpPReq]
      by_cases asks : (s.arp.caller first).request.TPA = packet.SPA
      · rw [if_pos asks, List.find?_cons_of_pos (by simpa using asks)]
        rfl
      · rw [if_neg asks, List.find?_cons_of_neg (by simpa using asks)]
        exact ih

theorem keeps_fulfilRound {packet : ArpPacket} (before : List Node) (node : Node)
    (behind : List Node) (s s' : Frames) (leaves : Bool)
    (ring : s.links.Ring .arpPendingRequests (before ++ node :: behind))
    (ran : fulfilRound packet node s = some (s', leaves)) :
    ∃ before', s'.links.Ring .arpPendingRequests (before' ++ behind) := by
  cases node with
  | arpPReq proc =>
      rw [fulfilRound_arpPReq] at ran
      split at ran
      · cases ran
        exact ring_of_round ring (.inl rfl)
      · cases ran
        exact ring_of_round ring (.inr rfl)
  | _ => contradiction

/-- The loop ends, and finds the request that the module's own list has for the reply. -/
theorem fulfil_eq (held : s.Held) (packet : ArpPacket) :
    Links.listForEachSafe links (fulfilRound packet) .arpPendingRequests s.arp.pending.length s =
      some (match s.arp.fulfilledBy packet with
        | some proc => s.answer packet proc
        | none => s) := by
  have bound : s.pending.length ≤ s.arp.pending.length := by simp [pending]
  rw [Links.listForEachSafe_eq keeps_fulfilRound held.lists.ring' bound]
  exact foldUntil_fulfilRound packet s.arp.pending

theorem Held.answer {packet : ArpPacket} (held : s.Held)
    (found : s.arp.fulfilledBy packet = some proc) : (s.answer packet proc).Held := by
  have member : proc ∈ s.arp.pending := List.mem_of_find?_eq_some found
  have fulfils : s.arp.fulfil packet = (s.answer packet proc).arp := by
    unfold Resolver.fulfil
    unfold Resolver.fulfilledBy at found
    rw [found]
    rfl
  have linked : (s.answer packet proc).arp.Linked := fulfils ▸ held.arp.fulfil packet
  exact held.arp_unlinked linked member rfl

theorem Held.arpRxPacket {after : Frames} {packet : ArpPacket} (held : s.Held)
    (taken : s.arpRxPacket packet = some after) : after.Held := by
  unfold Frames.arpRxPacket at taken
  split at taken
  · rw [fulfil_eq held] at taken
    simp only [bind, Option.bind_some] at taken
    cases found : s.arp.fulfilledBy packet with
    | none =>
        rw [found] at taken
        cases taken
        exact held.arp_moved held.arp.wakeup rfl
    | some proc =>
        rw [found] at taken
        cases taken
        have answered := held.answer found
        exact answered.arp_moved answered.arp.wakeup rfl
  · rename_i other
    cases taken
    refine held.arp_moved (held.arp.rxPacket packet) ?_
    have receives := @Resolver.receives_rxPacket s.arp packet
    generalize s.arp.rxPacket packet = arp at receives ⊢
    cases receives with
    | ignored => rfl
    | answered => rfl
    | unmatched _ => rfl
    | fulfilled ethernet reply ours _ => exact absurd ⟨ethernet, reply, ours⟩ other

theorem tickRound_arpPReq :
    tickRound (.arpPReq proc) s =
      if arpTimeout ≤ (s.arp.caller proc).request.tickCount then
        some (listDel { s with
          arp := { s.arp.put proc { s.arp.caller proc with
              request := tickRequest (s.arp.caller proc).request } with
            pending := Link.listDel proc s.arp.pending } } (.arpPReq proc), false)
      else
        some ({ s with arp := s.arp.put proc { s.arp.caller proc with
          request := tickRequest (s.arp.caller proc).request } }, false) :=
  rfl

theorem keeps_tickRound (before : List Node) (node : Node) (behind : List Node)
    (s s' : Frames) (leaves : Bool)
    (ring : s.links.Ring .arpPendingRequests (before ++ node :: behind))
    (ran : tickRound node s = some (s', leaves)) :
    ∃ before', s'.links.Ring .arpPendingRequests (before' ++ behind) := by
  cases node with
  | arpPReq proc =>
      rw [tickRound_arpPReq] at ran
      split at ran
      · cases ran
        exact ring_of_round ring (.inl rfl)
      · cases ran
        exact ring_of_round ring (.inr rfl)
  | _ => contradiction

/-- The loop of `arp_tick` has been through the requests `procs`: they are a tick older,
and those that have expired are off the list. -/
structure Ticked (s : Frames) (procs : List Nat) (after : Frames) : Prop where
  lists : Lists after.links after.calls .udpRxRequests after.listeners .arpPendingRequests
    after.pending
  udp : after.udp = s.udp
  caller : ∀ proc, after.arp.caller proc =
    if proc ∈ procs then
      { s.arp.caller proc with request := tickRequest (s.arp.caller proc).request }
    else s.arp.caller proc
  pending : after.arp.pending = s.arp.pending.filter fun proc =>
    ¬(proc ∈ procs ∧ arpTimeout ≤ (s.arp.caller proc).request.tickCount)
  others : after.arp = { s.arp with caller := after.arp.caller, pending := after.arp.pending }

theorem Ticked.start
    (lists : Lists s.links s.calls .udpRxRequests s.listeners .arpPendingRequests s.pending) :
    Ticked s [] s where
  lists := lists
  udp := rfl
  caller := fun proc => by simp
  pending := by simp
  others := rfl

/-- One more request, which has not been visited. -/
theorem Ticked.round {procs : List Nat} {mid after : Frames} {leaves : Bool}
    (ticked : Ticked s procs mid) (nodup : s.arp.pending.Nodup) (member : proc ∈ s.arp.pending)
    (fresh : proc ∉ procs) (ran : tickRound (.arpPReq proc) mid = some (after, leaves)) :
    Ticked s (procs ++ [proc]) after ∧ leaves = false := by
  have same : mid.arp.caller proc = s.arp.caller proc := by
    rw [ticked.caller, if_neg fresh]
  have caller (other : Nat) : (mid.arp.put proc { mid.arp.caller proc with
      request := tickRequest (mid.arp.caller proc).request }).caller other =
      if other ∈ procs ++ [proc] then
        { s.arp.caller other with request := tickRequest (s.arp.caller other).request }
      else s.arp.caller other := by
    by_cases here : other = proc
    · subst here
      simp [Resolver.put, same]
    · simp [Resolver.put, ticked.caller, here]
  have left : proc ∈ mid.arp.pending := by
    rw [ticked.pending]
    exact List.mem_filter.mpr ⟨member, by simp [fresh]⟩
  have nodupMid : mid.arp.pending.Nodup := ticked.pending ▸ nodup.filter _
  rw [tickRound_arpPReq, same] at ran
  rw [same] at caller
  split at ran
  · rename_i expired
    cases ran
    refine ⟨⟨?_, ticked.udp, caller, ?_, ?_⟩, rfl⟩
    · have map : (Link.listDel proc mid.arp.pending).map Node.arpPReq =
          Link.listDel (.arpPReq proc) mid.pending :=
        map_listDel (fun _ _ same => by simpa using same) _
      have unlinked : Lists (mid.links.listDel .null (.arpPReq proc))
          (.del (.arpPReq proc) :: mid.calls) .arpPendingRequests
          (Link.listDel (.arpPReq proc) mid.pending) .udpRxRequests mid.listeners :=
        ticked.lists.symm.listDel (arpPReq_mem_pending.mpr left)
      rw [← map] at unlinked
      exact unlinked.symm
    · change Link.listDel proc mid.arp.pending = _
      rw [Link.listDel, nodupMid.erase_eq_filter, ticked.pending, List.filter_filter]
      apply List.filter_congr
      intro other _
      by_cases here : other = proc
      · subst here
        simp [expired]
      · simp [here]
    · simp only [listDel, Resolver.put]
      rw [ticked.others]
  · rename_i running
    cases ran
    refine ⟨⟨ticked.lists, ticked.udp, caller, ?_, ?_⟩, rfl⟩
    · change mid.arp.pending = _
      rw [ticked.pending]
      apply List.filter_congr
      intro other _
      by_cases here : other = proc
      · subst here
        simp [running]
      · simp [here]
    · simp only [Resolver.put]
      rw [ticked.others]

/-- The whole loop, by induction on the requests that are left. -/
theorem Ticked.loop {procs rest : List Nat} {mid : Frames} (ticked : Ticked s procs mid)
    (nodup : s.arp.pending.Nodup) (split : s.arp.pending = procs ++ rest) :
    ∃ after, Links.foldUntil tickRound (rest.map .arpPReq) mid = some after ∧
      Ticked s (procs ++ rest) after := by
  induction rest generalizing procs mid with
  | nil => exact ⟨mid, rfl, by simpa using ticked⟩
  | cons first rest ih =>
      have member : first ∈ s.arp.pending := by simp [split]
      have fresh : first ∉ procs := fun before =>
        List.disjoint_of_nodup_append (split ▸ nodup) before List.mem_cons_self
      have regroup : procs ++ first :: rest = procs ++ [first] ++ rest := by simp
      have ends : ∃ result, tickRound (.arpPReq first) mid = some result := by
        rw [tickRound_arpPReq]
        split
        · exact ⟨_, rfl⟩
        · exact ⟨_, rfl⟩
      rcases ends with ⟨⟨next, leaves⟩, ran⟩
      rcases ticked.round nodup member fresh ran with ⟨round, rfl⟩
      rw [regroup] at split ⊢
      rcases ih round split with ⟨after, folded, visits⟩
      refine ⟨after, ?_, visits⟩
      rw [List.map_cons, Links.foldUntil, ran]
      exact folded

/-- `arp_tick` ends, and does what it does to the module's own list. -/
theorem arpTick_eq (held : s.Held) :
    ∃ after, s.arpTick = some after ∧ after.udp = s.udp ∧ after.arp = s.arp.tick ∧
      Lists after.links after.calls .udpRxRequests after.listeners .arpPendingRequests
        after.pending := by
  have bound : s.pending.length ≤ s.arp.pending.length := by simp [Frames.pending]
  have loop := Links.listForEachSafe_eq keeps_tickRound held.lists.ring' bound
  rcases (Ticked.start held.lists).loop held.arp.1 rfl with ⟨after, folded, ticked⟩
  refine ⟨after, loop.trans folded, ticked.udp, ?_, ticked.lists⟩
  have pending : after.arp.pending = s.arp.tick.pending := by
    rw [ticked.pending]
    apply List.filter_congr
    intro proc member
    simp [member]
  have caller : after.arp.caller = s.arp.tick.caller := by
    funext proc
    rw [ticked.caller]
    rfl
  rw [ticked.others, pending, caller]
  rfl

theorem Held.arpTick {after : Frames} (held : s.Held) (taken : s.arpTick = some after) :
    after.Held := by
  rcases arpTick_eq held with ⟨ticked, ran, udp, arp, lists⟩
  rw [ran] at taken
  cases taken
  exact ⟨lists, udp ▸ held.udp, arp ▸ held.arp.tick⟩

end Arp

section Step

variable {s after : Frames} {event : FrameEvent}

/-- The interrupt mask has nothing to do with the lists. -/
theorem Held.maskedByUdp (held : s.Held) : s.maskedByUdp.Held :=
  ⟨held.lists, held.udp, held.arp⟩

theorem Held.maskedByArp (held : s.Held) : s.maskedByArp.Held :=
  ⟨held.lists, held.udp.masked _, held.arp⟩

/-- A frame that is not in use holds no linked node. -/
theorem Held.write {node next prev : Node} (held : s.Held) (dead : s.Dead node) :
    (s.write node next prev).Held where
  lists := by
    cases node with
    | newListener proc =>
        have apart : proc ∉ s.udp.requests := fun member => (held.udp.linked proc).mp member dead
        exact held.lists.write (by simpa using apart) (by simp)
    | arpPReq proc =>
        have idle : (s.arp.caller proc).place = .idle := dead
        have apart : proc ∉ s.arp.pending := held.arp.not_mem (by simp [Caller.Pends, idle])
        exact held.lists.write (by simp) (by simpa using apart)
    | _ => exact absurd dead id
  udp := held.udp
  arp := held.arp

theorem Held.step (held : s.Held) (taken : Frames.step s event = some after) : after.Held := by
  cases event with
  | udpRx proc port dstBuf dstBufSz =>
      rcases Option.ite_none_right_eq_some.mp taken with ⟨⟨_, idle, _⟩, taken⟩
      rcases Option.map_eq_some_iff.mp taken with ⟨mid, called, rfl⟩
      exact (held.udpRx idle called).maskedByUdp
  | udpRxStep proc =>
      rcases Option.ite_none_right_eq_some.mp taken with ⟨_, taken⟩
      rcases Option.map_eq_some_iff.mp taken with ⟨mid, stepped, rfl⟩
      exact (held.udpRxStep stepped).maskedByUdp
  | resolveAddress proc ipAddress =>
      rcases Option.ite_none_right_eq_some.mp taken with ⟨⟨_, _, idle⟩, taken⟩
      have apart : proc ∉ s.arp.pending := held.arp.not_mem (by simp [Caller.Pends, idle])
      cases taken
      exact held.arp_moved (held.arp.update (fun member => absurd member apart) rfl rfl) rfl
  | resolveStep proc =>
      rcases Option.ite_none_right_eq_some.mp taken with ⟨_, taken⟩
      rcases Option.map_eq_some_iff.mp taken with ⟨mid, stepped, rfl⟩
      exact (held.resolveStep stepped).maskedByArp
  | unmask =>
      rcases Option.ite_none_left_eq_some.mp taken with ⟨_, taken⟩
      cases taken
      exact ⟨held.lists, held.udp.masked none, held.arp⟩
  | udpRxPacket datagram =>
      exact held.udpRxPacket (Option.ite_none_right_eq_some.mp taken).2
  | arpRxPacket packet => exact held.arpRxPacket (Option.ite_none_right_eq_some.mp taken).2
  | arpTick => exact held.arpTick (Option.ite_none_right_eq_some.mp taken).2
  | overwrite node next prev =>
      rcases Option.ite_none_right_eq_some.mp taken with ⟨dead, taken⟩
      cases taken
      exact held.write dead

end Step

end Frames

/-- Along every run of calls, packets and ticks, with anything written to the frames that
are not in use. -/
theorem requests_intact (links : Links Node) (listeners : Nat → Udp.Caller)
    (requests : Nat → Arp.Caller) (events : List FrameEvent) :
    Along Frames.step (fun _ _ after => after.Intact) (.start links listeners requests) events :=
  along_of_invariant (fun _ _ _ held taken => Frames.Held.step held taken)
    (fun _ _ _ held taken => (Frames.Held.step held taken).intact)
    (Frames.held_start links listeners requests) events

end Lpc17xx.Requests
