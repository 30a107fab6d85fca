import Lpc17xx.Arp.Requests

/-!
# Where the entries of the ARP table come from

`arp_rx_packet` believes a reply only while somebody waits for it.  Every entry goes back
to such a reply, whatever packets were received besides, and stays as it was made.
-/

namespace Lpc17xx.Arp

open Lpc17xx.Link
open Lpc17xx.Protocol
open Lpc17xx.Transition

namespace Resolver

/-- A process inside `resolve_address` for the address has its request linked, neither
answered nor timed out. -/
def PendingFor (s : Resolver) (ipAddress : UInt32) : Prop :=
  ∃ proc ∈ s.pending, (s.caller proc).Pends ∧ (s.caller proc).ipAddress = ipAddress ∧
    (s.caller proc).request.timedOut = false

/-- The packet is an Ethernet reply to us from the address of the entry, with its hardware
address, and comes while a request for that address is pending. -/
structure Believed (s : Resolver) (packet : ArpPacket) (entry : ArpEntry) : Prop where
  ethernet : packet.HTYPE = 1
  reply : packet.OPER = 2
  ours : packet.THA = etherAddr
  SPA : packet.SPA = entry.ipaddr
  SHA : packet.SHA = entry.etherAddr
  pending : s.PendingFor entry.ipaddr

section Step

variable {s after : Resolver}

/-- A request that a reply fulfils is pending for the address it comes from. -/
theorem Asking.pendingFor (asking : s.Asking) {packet : ArpPacket} {proc : Nat}
    (found : s.fulfilledBy packet = some proc) : s.PendingFor packet.SPA := by
  have member : proc ∈ s.pending := List.mem_of_find?_eq_some found
  have passed := List.find?_some found
  have same : (s.caller proc).request.TPA = packet.SPA := by simpa using passed
  refine ⟨proc, member, asking.linked.2 proc member, ?_, asking.inTime proc member⟩
  rw [← same, asking.asks proc member]

/-- A step leaves the table alone, or puts the entry of a believed reply in front. -/
theorem Asking.tableHead_step {event : ArpEvent} (asking : s.Asking)
    (taken : Resolver.step s event = some after) :
    after.tableHead = s.tableHead ∨ ∃ packet entry, event = .rx packet ∧
      s.Believed packet entry ∧ after.tableHead = entry :: s.tableHead := by
  cases steps_of_step taken with
  | called _ => exact .inl rfl
  | hit _ _ => exact .inl rfl
  | missed _ _ => exact .inl rfl
  | linked _ => exact .inl rfl
  | transmitted _ => exact .inl rfl
  | returned _ _ => exact .inl rfl
  | slept _ _ => exact .inl rfl
  | unmasked => exact .inl rfl
  | ticked => exact .inl rfl
  | @received packet _ receives =>
      cases receives with
      | ignored => exact .inl rfl
      | answered => exact .inl rfl
      | unmatched _ => exact .inl rfl
      | fulfilled ethernet reply ours found =>
          exact .inr ⟨packet, ⟨packet.SHA, packet.SPA⟩, rfl,
            ⟨ethernet, reply, ours, rfl, rfl, asking.pendingFor found⟩, rfl⟩

/-- An entry was there before the step, or the step has made it from a believed reply. -/
theorem Asking.mem_step {event : ArpEvent} {entry : ArpEntry} (asking : s.Asking)
    (taken : Resolver.step s event = some after) (member : entry ∈ after.tableHead) :
    entry ∈ s.tableHead ∨ ∃ packet, event = .rx packet ∧ s.Believed packet entry := by
  rcases asking.tableHead_step taken with same | ⟨packet, made, rx, believed, grown⟩
  · exact .inl (same ▸ member)
  · rw [grown] at member
    rcases List.mem_cons.mp member with rfl | old
    · exact .inr ⟨packet, rx, believed⟩
    · exact .inl old

/-- Entries are never changed or removed. -/
theorem Asking.tableHead_run {events : List ArpEvent} (asking : s.Asking)
    (executed : run Resolver.step s events = some after) : s.tableHead <:+ after.tableHead := by
  induction events generalizing s with
  | nil =>
      cases executed
      exact List.suffix_refl _
  | cons event events ih =>
      rcases Option.bind_eq_some_iff.mp executed with ⟨middle, taken, rest⟩
      have later := ih (asking.step taken) rest
      rcases asking.tableHead_step taken with same | ⟨_, entry, _, _, grown⟩
      · rwa [same] at later
      · rw [grown] at later
        exact (List.suffix_cons entry s.tableHead).trans later

end Step

end Resolver

/-- For every run of calls of `resolve_address`, ticks and packets of any content: each
entry of the table was made by a reply that came while its address was being asked for;
no other packet, and nothing else, touches the table; and no entry changes afterwards. -/
theorem arpTable_provenance (caller : Nat → Caller) (events : List ArpEvent) (s : Resolver)
    (executed : run Resolver.step (Resolver.start caller) events = some s) :
    (∀ entry ∈ s.tableHead, ∃ before packet later middle,
      events = before ++ .rx packet :: later ∧
      run Resolver.step (Resolver.start caller) before = some middle ∧
      middle.Believed packet entry) ∧
    (∀ event after, Resolver.step s event = some after →
      (∀ packet entry, event = .rx packet → ¬s.Believed packet entry) →
      after.tableHead = s.tableHead) ∧
    ∀ more after, run Resolver.step s more = some after → s.tableHead <:+ after.tableHead := by
  have asking : s.Asking := Resolver.asking_of_reachable ⟨events, executed⟩
  refine ⟨?_, ?_, ?_⟩
  · intro entry member
    have adds (state : Resolver) (event : ArpEvent) (target : Resolver) (item : ArpEntry)
        (inv : state.Asking) (taken : Resolver.step state event = some target)
        (present : item ∈ target.tableHead) : item ∈ state.tableHead ∨
          ∃ packet, event = .rx packet ∧ state.Believed packet item :=
      inv.mem_step taken present
    rcases exists_origin (fun _ _ _ inv taken => inv.step taken) adds
      (Resolver.asking_start caller) executed member with
        absent | ⟨before, event, later, middle, parts, ran, _, packet, rfl, believed⟩
    · nomatch absent
    · exact ⟨before, packet, later, middle, parts, ran, believed⟩
  · intro event after taken unbelieved
    rcases asking.tableHead_step taken with same | ⟨packet, entry, rx, believed, _⟩
    · exact same
    · exact absurd believed (unbelieved packet entry rx)
  · intro more after continued
    exact asking.tableHead_run continued

/-- The reply of the peer of `main`. -/
def peerReply : ArpPacket where
  HTYPE := 1
  PTYPE := etherTypeIp
  HLEN := 6
  PLEN := 4
  OPER := 2
  SHA := [2, 0, 0, 0, 0, 2]
  SPA := 0xc0a80476
  THA := etherAddr
  TPA := ourIpAddress

/-- The address of the peer is resolved.  The same reply had come before anybody asked,
and made no entry. -/
def resolvedPeer : List ArpEvent :=
  [.rx peerReply, .call 0 0xc0a80476, .step 0, .step 0, .step 0, .step 0, .rx peerReply, .step 0]

theorem arpTable_provenance_resolvedPeer :
    ∃ s, run Resolver.step (Resolver.start fun _ => newCaller) resolvedPeer = some s ∧
      s.tableHead = [⟨[2, 0, 0, 0, 0, 2], 0xc0a80476⟩] ∧
      ∀ entry ∈ s.tableHead, ∃ before packet later middle,
        resolvedPeer = before ++ .rx packet :: later ∧
        run Resolver.step (Resolver.start fun _ => newCaller) before = some middle ∧
        middle.Believed packet entry :=
  ⟨_, rfl, rfl, (arpTable_provenance (fun _ => newCaller) resolvedPeer _ rfl).1⟩

end Lpc17xx.Arp
