import Lpc17xx.Arp.Node
import Lpc17xx.Arp.Provenance
import Lpc17xx.Arp.Wire

/-!
# A request and its reply between two nodes

The request of one node, as its bytes stand in the frame, makes the node it asks for send
one reply; that reply finishes the request with the hardware address of that node, and
from then on the address is in the table.
-/

namespace Lpc17xx.Arp

open Lpc17xx.Link
open Lpc17xx.Memory
open Lpc17xx.Protocol
open Lpc17xx.Transition

/-- The bytes that `ether_tx` was given for the packet stand in memory, from whatever block
they were copied. -/
def OnWire (memory : Bytes) (packet : Nat) (fields : ArpPacket) : Prop :=
  ∃ block, ∀ i < 28, memory (packet + i) = (arpWire block fields).getD i 0

namespace Node

variable (node : Node)

theorem wellFormed_requestPacket (ipAddress : UInt32) :
    WellFormed (node.requestPacket ipAddress) :=
  ⟨node.sized, rfl⟩

theorem wellFormed_arpReply {sha : List UInt8} (sized : sha.length = 6) (spa : UInt32) :
    WellFormed (node.arpReply sha spa) :=
  ⟨node.sized, sized⟩

/-- The table gives this hardware address for the address. -/
def Knows (s : Resolver) (ipAddress : UInt32) (hardware : List UInt8) : Prop :=
  (s.tableEntry ipAddress).map ArpEntry.etherAddr = some hardware

/-- No process has missed the address in the table and goes on to ask for it. -/
structure NobodyAsks (s : Resolver) (ipAddress : UInt32) : Prop where
  missed : ∀ proc, (s.caller proc).place = .missed → (s.caller proc).ipAddress ≠ ipAddress
  pending : ∀ proc ∈ s.pending, (s.caller proc).ipAddress ≠ ipAddress

/-- A packet that claims the address comes from its owner. -/
def OwnerOnly (ipAddress : UInt32) (hardware : List UInt8) (_ : Resolver) : ArpEvent → Prop
  | .rx packet => packet.SPA = ipAddress → packet.SHA = hardware
  | _ => True

/-- A process that looks for the address returns with it at once and sends nothing. -/
def Resolves (s : Resolver) (ipAddress : UInt32) (hardware : List UInt8) : Prop :=
  ∀ proc, (s.caller proc).place = .searching → (s.caller proc).ipAddress = ipAddress →
    s.Runs proc → ∃ after, node.step s (.step proc) = some after ∧
      (after.caller proc).place = .idle ∧ (after.caller proc).result = some hardware ∧
      after.sent = s.sent

/-- The only request that was pending is finished with an entry. -/
def settled (s : Resolver) (proc : Nat) (entry : ArpEntry) : Resolver :=
  { s.put proc { s.caller proc with request := fulfilled (s.caller proc).request entry } with
    tableHead := entry :: s.tableHead
    pending := [] }

section Later

variable {node : Node} {s after : Resolver} {ipAddress : UInt32} {hardware : List UInt8}

theorem Knows.resolves (knows : Knows s ipAddress hardware) :
    node.Resolves s ipAddress hardware := by
  intro proc searching asks runs
  rcases Option.map_eq_some_iff.mp knows with ⟨entry, found, rfl⟩
  have hit : s.resolveStep proc =
      some { s.put proc { s.caller proc with place := .idle, result := some entry.etherAddr } with
        masked := some proc } := by
    rw [← asks, Resolver.tableEntry] at found
    simp only [Resolver.resolveStep, searching, found]
  have moved : node.step s (.step proc) = s.resolveStep proc := by
    simp only [step, if_pos runs, resolveStep, searching]
  refine ⟨_, moved.trans hit, ?_, ?_, rfl⟩
  · simp [Resolver.put]
  · simp [Resolver.put]

/-- What a step of a node does to its table. -/
theorem tableHead_step {event : ArpEvent} (asking : s.Asking)
    (taken : node.step s event = some after) :
    after.tableHead = s.tableHead ∨ ∃ packet, event = .rx packet ∧ s.PendingFor packet.SPA ∧
      after.tableHead = ⟨packet.SHA, packet.SPA⟩ :: s.tableHead := by
  rcases step_localize taken with ⟨here, moved, same⟩
  rw [same]
  rcases asking.tableHead_step moved with untouched | ⟨packet, entry, rx, believed, grown⟩
  · exact .inl untouched
  · cases event with
    | rx received =>
        cases rx
        have made : entry = ⟨received.SHA, received.SPA⟩ := by
          rw [ArpEntry.mk.injEq]
          exact ⟨believed.SHA.symm, believed.SPA.symm⟩
        exact .inr ⟨received, rfl, believed.SPA ▸ believed.pending, made ▸ grown⟩
    | call _ _ => nomatch rx
    | step _ => nomatch rx
    | unmask => nomatch rx
    | tick => nomatch rx

/-- What is put in front of the table for another address, or for this one by its owner,
does not change what is known. -/
theorem Knows.grown (knows : Knows s ipAddress hardware) {entry : ArpEntry}
    (tableHead : after.tableHead = entry :: s.tableHead)
    (owner : entry.ipaddr = ipAddress → entry.etherAddr = hardware) :
    Knows after ipAddress hardware := by
  unfold Knows Resolver.tableEntry
  rw [tableHead, List.find?_cons]
  by_cases same : entry.ipaddr = ipAddress
  · simp [same, owner same]
  · simp only [same, decide_false]
    exact knows

theorem Knows.step {event : ArpEvent} (knows : Knows s ipAddress hardware) (asking : s.Asking)
    (taken : node.step s event = some after)
    (owner : OwnerOnly ipAddress hardware s event ∨ NobodyAsks s ipAddress) :
    Knows after ipAddress hardware := by
  rcases tableHead_step asking taken with untouched | ⟨packet, rfl, pending, grown⟩
  · unfold Knows Resolver.tableEntry
    rw [untouched]
    exact knows
  · apply knows.grown grown
    intro same
    rcases owner with honest | nobody
    · exact honest same
    · rcases pending with ⟨proc, member, _, asks, _⟩
      exact absurd (asks.trans same) (nobody.pending proc member)

/-- A process moves on in a call for the same address, or in one that has not missed it. -/
theorem NobodyAsks.moved {proc : Nat} {cur : Caller} (nobody : NobodyAsks s ipAddress)
    (caller : after.caller = Function.update s.caller proc cur)
    (pending : after.pending = s.pending)
    (missed : cur.place = .missed → cur.ipAddress ≠ ipAddress)
    (linked : proc ∈ s.pending → cur.ipAddress = (s.caller proc).ipAddress) :
    NobodyAsks after ipAddress := by
  constructor
  · intro other there
    rw [caller] at there ⊢
    by_cases same : other = proc
    · subst same
      rw [Function.update_self] at there ⊢
      exact missed there
    · rw [Function.update_of_ne same] at there ⊢
      exact nobody.missed other there
  · intro other member
    rw [pending] at member
    rw [caller]
    by_cases same : other = proc
    · subst same
      rw [Function.update_self, linked member]
      exact nobody.pending other member
    · rw [Function.update_of_ne same]
      exact nobody.pending other member

/-- Requests leave the list, and no process comes to miss the address. -/
theorem NobodyAsks.kept (nobody : NobodyAsks s ipAddress)
    (pending : after.pending.Sublist s.pending)
    (caller : ∀ proc, (after.caller proc).ipAddress = (s.caller proc).ipAddress ∧
      ((after.caller proc).place = .missed → (s.caller proc).place = .missed)) :
    NobodyAsks after ipAddress := by
  constructor
  · intro proc there
    rw [(caller proc).1]
    exact nobody.missed proc ((caller proc).2 there)
  · intro proc member
    rw [(caller proc).1]
    exact nobody.pending proc (pending.subset member)

/-- Waking the sleepers makes no process miss the address. -/
theorem NobodyAsks.wakeup (nobody : NobodyAsks s ipAddress) : NobodyAsks s.wakeup ipAddress := by
  apply @NobodyAsks.kept s s.wakeup ipAddress nobody (List.Sublist.refl _)
  intro proc
  simp only [Resolver.wakeup]
  split
  · exact ⟨rfl, by simp⟩
  · exact ⟨rfl, id⟩

/-- While the address is known, no process comes to ask for it. -/
theorem NobodyAsks.steps {event : ArpEvent} (nobody : NobodyAsks s ipAddress)
    (knows : Knows s ipAddress hardware) (asking : s.Asking) (steps : s.Steps event after) :
    NobodyAsks after ipAddress := by
  cases steps with
  | @called proc _ idle =>
      have before : proc ∉ s.pending := asking.linked.not_mem (by simp [Caller.Pends, idle])
      exact nobody.moved rfl rfl (by simp) fun member => absurd member before
  | hit _ _ => exact nobody.moved rfl rfl (by simp) fun _ => rfl
  | @missed proc _ nothing =>
      -- The search of a process that asks for the address does not fail.
      have other : (s.caller proc).ipAddress ≠ ipAddress := by
        rintro rfl
        rw [Knows, nothing] at knows
        contradiction
      exact nobody.moved rfl rfl (fun _ => other) fun _ => rfl
  | @linked proc missed =>
      have other := nobody.missed proc missed
      have moved : NobodyAsks (s.put proc { s.caller proc with
          place := .linked, request := pendingRequest (s.caller proc).ipAddress }) ipAddress :=
        nobody.moved rfl rfl (by simp) fun _ => rfl
      constructor
      · exact moved.missed
      · intro asked member
        rcases List.mem_cons.mp member with rfl | earlier
        · simpa [Resolver.put] using other
        · exact moved.pending asked earlier
  | transmitted _ => exact nobody.moved rfl rfl (by simp) fun _ => rfl
  | returned _ _ => exact nobody.moved rfl rfl (by simp) fun _ => rfl
  | slept _ _ => exact nobody.moved rfl rfl (by simp) fun _ => rfl
  | unmasked => exact ⟨nobody.missed, nobody.pending⟩
  | ticked =>
      apply nobody.kept List.filter_sublist
      intro proc
      simp only [Resolver.tick]
      split
      · exact ⟨rfl, id⟩
      · exact ⟨rfl, id⟩
  | received receives =>
      cases receives with
      | ignored => exact nobody
      | answered => exact ⟨nobody.missed, nobody.pending⟩
      | unmatched _ => exact nobody.wakeup
      | @fulfilled found _ _ _ _ =>
          apply NobodyAsks.wakeup
          apply nobody.kept List.erase_sublist
          intro proc
          by_cases same : proc = found
          · subst same
            simp [Resolver.put]
          · simp [Resolver.put, Function.update_of_ne same]

theorem NobodyAsks.step {event : ArpEvent} (nobody : NobodyAsks s ipAddress)
    (knows : Knows s ipAddress hardware) (asking : s.Asking)
    (taken : node.step s event = some after) : NobodyAsks after ipAddress := by
  rcases step_localize taken with ⟨here, moved, same⟩
  have kept := nobody.steps knows asking (Resolver.steps_of_step moved)
  rw [same]
  exact ⟨kept.missed, kept.pending⟩

/-- What is known stays known while its owner alone claims the address. -/
theorem Knows.run_of_guarded {events : List ArpEvent} (knows : Knows s ipAddress hardware)
    (asking : s.Asking) (honest : Guarded node.step (OwnerOnly ipAddress hardware) s events)
    (executed : run node.step s events = some after) : Knows after ipAddress hardware := by
  have preserved : ∀ state event target, state.Asking ∧ Knows state ipAddress hardware →
      OwnerOnly ipAddress hardware state event → node.step state event = some target →
      target.Asking ∧ Knows target ipAddress hardware := by
    rintro state event target ⟨asks, known⟩ owner taken
    exact ⟨asking_of_step asks taken, known.step asks taken (.inl owner)⟩
  exact (invariant_of_guarded preserved ⟨asking, knows⟩ honest executed).2

/-- Whatever is received, what is known stays known when nobody asks for it. -/
theorem Knows.run_of_nobodyAsks {events : List ArpEvent} (knows : Knows s ipAddress hardware)
    (asking : s.Asking) (nobody : NobodyAsks s ipAddress)
    (executed : run node.step s events = some after) : Knows after ipAddress hardware := by
  have preserved : ∀ state event target,
      state.Asking ∧ Knows state ipAddress hardware ∧ NobodyAsks state ipAddress →
      node.step state event = some target →
      target.Asking ∧ Knows target ipAddress hardware ∧ NobodyAsks target ipAddress := by
    rintro state event target ⟨asks, known, none⟩ taken
    exact ⟨asking_of_step asks taken, known.step asks taken (.inr none),
      none.step known asks taken⟩
  exact (invariant_of_reachable preserved ⟨asking, knows, nobody⟩ ⟨events, executed⟩).2.1

end Later

section Packets

variable {a b : Node} {s : Resolver}

/-- The node that a request asks for replies to the node that it comes from. -/
theorem rxPacket_requestPacket :
    b.rxPacket s (a.requestPacket b.ipAddress) =
      { s with sent := s.sent ++ [(a.etherAddr, b.arpReply a.etherAddr a.ipAddress)] } := by
  simp [rxPacket, requestPacket]

/-- Other nodes do not answer. -/
theorem rxPacket_requestPacket_of_ne {ipAddress : UInt32} (other : b.ipAddress ≠ ipAddress) :
    b.rxPacket s (a.requestPacket ipAddress) = s := by
  simp [rxPacket, requestPacket, other.symm]

/-- The reply to a node is the answer to its first request for the address. -/
theorem rxPacket_arpReply :
    a.rxPacket s (b.arpReply a.etherAddr a.ipAddress) =
      (s.fulfil (b.arpReply a.etherAddr a.ipAddress)).wakeup := by
  simp [rxPacket, arpReply]

/-- What the reply of another node does to the only pending request. -/
theorem fulfil_arpReply {proc : Nat} (only : s.pending = [proc])
    (asked : (s.caller proc).request.TPA = b.ipAddress) (sha : List UInt8) (spa : UInt32) :
    s.fulfil (b.arpReply sha spa) = settled s proc ⟨b.etherAddr, b.ipAddress⟩ := by
  have removed : listDel proc s.pending = [] := by
    simp [only, listDel]
  unfold Resolver.fulfil
  split
  · rename_i other found
    have same : other = proc := by
      simpa [only] using List.mem_of_find?_eq_some found
    subst same
    rw [removed]
    rfl
  · rename_i nobody
    have other := List.find?_eq_none.mp nobody proc (by simp [only])
    have differs : (s.caller proc).request.TPA ≠ (b.arpReply sha spa).SPA := by simpa using other
    exact absurd asked differs

/-- What a node sends claims the address of `b` for `b` only, unless it has that address too. -/
theorem ownerOnly_of_sent (own : a.ipAddress = b.ipAddress → a = b) (ipAddress spa : UInt32)
    (sha : List UInt8) :
    OwnerOnly b.ipAddress b.etherAddr s (.rx (a.requestPacket ipAddress)) ∧
      OwnerOnly b.ipAddress b.etherAddr s (.rx (a.arpReply sha spa)) :=
  ⟨fun same => congrArg etherAddr (own same), fun same => congrArg etherAddr (own same)⟩

end Packets

theorem step_of_unmasked {node : Node} {s : Resolver} {proc : Nat} (unmasked : s.masked = none) :
    node.step s (.step proc) = node.resolveStep s proc :=
  if_pos (.inl unmasked)

/-- Without an entry for the address, `resolve_address` links its request and sends it to
everybody. -/
theorem run_request {node : Node} {s : Resolver} {proc : Nat} {ipAddress : UInt32}
    (unmasked : s.masked = none) (idle : (s.caller proc).place = .idle)
    (absent : s.tableEntry ipAddress = none) :
    ∃ after, run node.step s
        [.call proc ipAddress, .step proc, .step proc, .step proc] = some after ∧
      after.sent = s.sent ++ [(broadcastAddr, node.requestPacket ipAddress)] ∧
      after.pending = proc :: s.pending ∧
      (after.caller proc).request = pendingRequest ipAddress ∧
      after.tableHead = s.tableHead := by
  -- The process as it enters the call, misses the table, links its request and transmits it.
  let searching : Caller := { s.caller proc with place := .searching, ipAddress }
  let missed : Caller := { searching with place := .missed }
  let linked : Caller := { missed with place := .linked, request := pendingRequest ipAddress }
  let waiting : Caller := { linked with place := .waiting }
  let after : Resolver :=
    { s.put proc waiting with
      pending := proc :: s.pending
      sent := s.sent ++ [(broadcastAddr, node.requestPacket ipAddress)] }
  have enters : node.step s (.call proc ipAddress) = some (s.put proc searching) :=
    if_pos ⟨.inl unmasked, idle⟩
  have misses : node.step (s.put proc searching) (.step proc) = some (s.put proc missed) := by
    rw [Resolver.tableEntry] at absent
    rw [step_of_unmasked (by exact unmasked)]
    simp [resolveStep, Resolver.resolveStep, Resolver.put, searching, missed, absent]
  have links : node.step (s.put proc missed) (.step proc) =
      some { s.put proc linked with pending := proc :: s.pending } := by
    rw [step_of_unmasked (by exact unmasked)]
    simp [resolveStep, Resolver.resolveStep, Resolver.put, searching, missed, linked, listAdd]
  have transmits : node.step { s.put proc linked with pending := proc :: s.pending } (.step proc) =
      some after := by
    rw [step_of_unmasked (by exact unmasked)]
    simp [resolveStep, Resolver.put, searching, missed, linked, waiting, after]
  refine ⟨after, ?_, rfl, rfl, ?_, rfl⟩
  · rw [run_cons, enters, Option.bind_some, run_cons, misses, Option.bind_some, run_cons, links,
      Option.bind_some, run_cons, transmits, Option.bind_some, run_nil]
  · simp [Resolver.put, after, waiting, linked]

/-- Process `proc` of `a` was the only one with a pending request, for the address of `b`,
and now has the answer. -/
structure Resolved (a b : Node) (s after : Resolver) (proc : Nat) : Prop where
  tableHead : after.tableHead = ⟨b.etherAddr, b.ipAddress⟩ :: s.tableHead
  pending : after.pending = []
  sent : after.sent = s.sent
  request : (after.caller proc).request =
    fulfilled (s.caller proc).request ⟨b.etherAddr, b.ipAddress⟩
  others : ∀ other ≠ proc, (after.caller other).request = (s.caller other).request
  /-- The process returns by its own next steps. -/
  returns : ∃ steps done, (∀ event ∈ steps, event = .step proc) ∧
    run a.step after steps = some done ∧
    (done.caller proc).place = .idle ∧ (done.caller proc).result = some b.etherAddr
  /-- Later calls for the address find it in the table. -/
  later : ∀ events t, run a.step after events = some t →
    NobodyAsks after b.ipAddress ∨
      Guarded a.step (OwnerOnly b.ipAddress b.etherAddr) after events →
    a.Resolves t b.ipAddress b.etherAddr

theorem step_returned {node : Node} {s : Resolver} {proc : Nat} (unmasked : s.masked = none)
    (waiting : (s.caller proc).place = .waiting)
    (finished : (s.caller proc).request.finished = true) :
    ∃ done, node.step s (.step proc) = some done ∧ (done.caller proc).place = .idle ∧
      (done.caller proc).result = answered (s.caller proc).request := by
  have returned : node.step s (.step proc) = some (s.put proc { s.caller proc with
      place := .idle, result := answered (s.caller proc).request }) := by
    rw [step_of_unmasked unmasked]
    simp [resolveStep, Resolver.resolveStep, waiting, finished]
  refine ⟨_, returned, ?_, ?_⟩
  · simp [Resolver.put]
  · simp [Resolver.put]

/-- A process that has transmitted its request, or is about to, returns once the request is
finished. -/
theorem run_returned {node : Node} {s : Resolver} {proc : Nat} (unmasked : s.masked = none)
    (inside : (s.caller proc).place = .linked ∨ (s.caller proc).place = .waiting)
    (finished : (s.caller proc).request.finished = true) :
    ∃ steps done, (∀ event ∈ steps, event = .step proc) ∧ run node.step s steps = some done ∧
      (done.caller proc).place = .idle ∧
      (done.caller proc).result = answered (s.caller proc).request := by
  rcases inside with linked | waiting
  · let middle : Resolver :=
      { s.put proc { s.caller proc with place := .waiting } with
        sent := s.sent ++ [(broadcastAddr, node.requestPacket (s.caller proc).ipAddress)] }
    have transmits : node.step s (.step proc) = some middle := by
      rw [step_of_unmasked unmasked]
      simp [resolveStep, linked, middle]
    have caller : middle.caller proc = { s.caller proc with place := .waiting } := by
      simp [middle, Resolver.put]
    have waiting : (middle.caller proc).place = .waiting := by rw [caller]
    have done : (middle.caller proc).request.finished = true := by rw [caller, finished]
    rcases @step_returned node middle proc unmasked waiting done with ⟨after, taken, idle, result⟩
    rw [caller] at result
    refine ⟨[.step proc, .step proc], after, by simp, ?_, idle, result⟩
    rw [run_cons, transmits, Option.bind_some, run_cons, taken, Option.bind_some, run_nil]
  · rcases step_returned unmasked waiting finished with ⟨after, taken, idle, result⟩
    refine ⟨[.step proc], after, by simp, ?_, idle, result⟩
    rw [run_cons, taken, Option.bind_some, run_nil]

/-- The process whose request is finished does not sleep any more. -/
theorem place_settled {s : Resolver} {proc : Nat} (sound : s.Sound) (asking : s.Asking)
    (member : proc ∈ s.pending) (entry : ArpEntry) :
    ((settled s proc entry).wakeup.caller proc).place = .linked ∨
      ((settled s proc entry).wakeup.caller proc).place = .waiting := by
  have place : ((settled s proc entry).caller proc).place = (s.caller proc).place := by
    simp [settled, Resolver.put]
  have waitq : (settled s proc entry).waitq = s.waitq := rfl
  simp only [Resolver.wakeup, waitq]
  by_cases queued : proc ∈ s.waitq
  · rw [if_pos queued]
    exact .inr rfl
  · rw [if_neg queued, place]
    rcases (asking.linked.2 proc member).1 with linked | waiting | asleep
    · exact .inl linked
    · exact .inr waiting
    · exact absurd ((sound proc).mpr asleep) queued

/-- The reply, while the request is the only one. -/
theorem resolved_of_arpReply {a b : Node} {s : Resolver} {proc : Nat} (asking : s.Asking)
    (sound : s.Sound) (unmasked : s.masked = none) (only : s.pending = [proc])
    (asks : (s.caller proc).ipAddress = b.ipAddress) :
    Resolved a b s (a.rxPacket s (b.arpReply a.etherAddr a.ipAddress)) proc := by
  have member : proc ∈ s.pending := by simp [only]
  have asked : (s.caller proc).request.TPA = b.ipAddress := (asking.asks proc member).trans asks
  have moved := fulfil_arpReply only asked a.etherAddr a.ipAddress
  have fulfils := @rxPacket_arpReply a b s
  have taken : a.step s (.rx (b.arpReply a.etherAddr a.ipAddress)) =
      some (a.rxPacket s (b.arpReply a.etherAddr a.ipAddress)) := if_pos unmasked
  have askingAfter := asking_of_step asking taken
  rw [fulfils, moved] at askingAfter ⊢
  have request (other : Nat) := (@Resolver.caller_wakeup
    (settled s proc ⟨b.etherAddr, b.ipAddress⟩) other).1
  have answer : ((settled s proc ⟨b.etherAddr, b.ipAddress⟩).wakeup.caller proc).request =
      fulfilled (s.caller proc).request ⟨b.etherAddr, b.ipAddress⟩ := by
    rw [request proc]
    simp [settled, Resolver.put]
  constructor
  · rfl
  · rfl
  · rfl
  · exact answer
  · intro other apart
    rw [request other]
    simp [settled, Resolver.put, Function.update_of_ne apart]
  · have inside := place_settled sound asking member ⟨b.etherAddr, b.ipAddress⟩
    rcases @run_returned a (settled s proc ⟨b.etherAddr, b.ipAddress⟩).wakeup proc unmasked inside
      (by rw [answer]; rfl) with ⟨steps, done, own, executed, idle, result⟩
    refine ⟨steps, done, own, executed, idle, ?_⟩
    rw [result, answer, answered, fulfilled, if_neg]
    · rfl
    · rw [asking.inTime proc member]
      exact Bool.false_ne_true
  · intro events t executed safe
    have knows : Knows (settled s proc ⟨b.etherAddr, b.ipAddress⟩).wakeup b.ipAddress
        b.etherAddr := by
      simp [Knows, Resolver.tableEntry, Resolver.wakeup, settled]
    rcases safe with nobody | honest
    · exact (knows.run_of_nobodyAsks askingAfter nobody executed).resolves
    · exact (knows.run_of_guarded askingAfter honest executed).resolves

end Node

/-- For any two nodes, at any place in memory where the bytes of the packets stand: the
request goes to everybody; the node it asks for sends one reply to the node it comes from;
every other node does nothing; packets of nodes with addresses of their own keep what is
known; and the reply finishes the request, when no other one is pending, and makes the
entry of the table. -/
theorem arp_resolution (a b : Node) (memory memory' : Bytes) (packet packet' : Nat)
    (request : OnWire memory packet (a.requestPacket b.ipAddress))
    (reply : OnWire memory' packet' (b.arpReply a.etherAddr a.ipAddress)) :
    (∀ s proc, s.masked = none → (s.caller proc).place = .idle →
      s.tableEntry b.ipAddress = none →
      ∃ after, run a.step s
          [.call proc b.ipAddress, .step proc, .step proc, .step proc] = some after ∧
        after.sent = s.sent ++ [(broadcastAddr, a.requestPacket b.ipAddress)] ∧
        after.pending = proc :: s.pending ∧
        (after.caller proc).request = pendingRequest b.ipAddress ∧
        after.tableHead = s.tableHead) ∧
    (∀ s, b.rxPacket s (arpPacketFrom memory packet) =
      { s with sent := s.sent ++ [(a.etherAddr, b.arpReply a.etherAddr a.ipAddress)] }) ∧
    (∀ c : Node, c.ipAddress ≠ b.ipAddress → ∀ s,
      c.rxPacket s (arpPacketFrom memory packet) = s) ∧
    (∀ c : Node, (c.ipAddress = b.ipAddress → c = b) → ∀ s ipAddress sha spa,
      Node.OwnerOnly b.ipAddress b.etherAddr s (.rx (c.requestPacket ipAddress)) ∧
        Node.OwnerOnly b.ipAddress b.etherAddr s (.rx (c.arpReply sha spa))) ∧
    ∀ caller s proc, Reachable a.step (Resolver.start caller) s → s.masked = none →
      s.pending = [proc] → (s.caller proc).ipAddress = b.ipAddress →
      ∃ after, a.step s (.rx (arpPacketFrom memory' packet')) = some after ∧
        Node.Resolved a b s after proc := by
  rcases request with ⟨block, requestBytes⟩
  rcases reply with ⟨block', replyBytes⟩
  have asks := arpPacketFrom_arpWire (a.wellFormed_requestPacket b.ipAddress) requestBytes
  have answers := arpPacketFrom_arpWire (b.wellFormed_arpReply a.sized a.ipAddress) replyBytes
  rw [asks, answers]
  refine ⟨?_, ?_, ?_, ?_, ?_⟩
  · intro s proc unmasked idle absent
    exact Node.run_request unmasked idle absent
  · intro s
    exact Node.rxPacket_requestPacket
  · intro c other s
    exact Node.rxPacket_requestPacket_of_ne other
  · intro c own s ipAddress sha spa
    exact Node.ownerOnly_of_sent own ipAddress spa sha
  · intro caller s proc reached unmasked only ipAddress
    have asking := Node.asking_of_reachable reached
    have sound := Node.sound_of_reachable reached
    exact ⟨_, if_pos unmasked, Node.resolved_of_arpReply asking sound unmasked only ipAddress⟩

/-- The peer of `main`, with a hardware address. -/
def peerNode : Node where
  etherAddr := [2, 0, 0, 0, 0, 2]
  ipAddress := 0xc0a80476
  sized := rfl

/-- The memory of a node that has received a packet. -/
def receivedAt (fields : ArpPacket) : Bytes :=
  fun i => (arpWire (fun _ => 0) fields).getD i 0

theorem onWire_receivedAt (fields : ArpPacket) : OnWire (receivedAt fields) 0 fields :=
  ⟨fun _ => 0, fun i _ => by rw [Nat.zero_add, receivedAt]⟩

theorem arp_resolution_peerNode :
    ∃ s after,
      run Node.thisNode.step (Resolver.start fun _ => newCaller)
        [.call 0 peerNode.ipAddress, .step 0, .step 0, .step 0] = some s ∧
      s.sent = [(broadcastAddr, Node.thisNode.requestPacket peerNode.ipAddress)] ∧
      Node.thisNode.step s (.rx (arpPacketFrom
        (receivedAt (peerNode.arpReply Node.thisNode.etherAddr Node.thisNode.ipAddress)) 0)) =
          some after ∧
      Node.Resolved Node.thisNode peerNode s after 0 := by
  have resolution := arp_resolution Node.thisNode peerNode _ _ 0 0
    (onWire_receivedAt (Node.thisNode.requestPacket peerNode.ipAddress))
    (onWire_receivedAt (peerNode.arpReply Node.thisNode.etherAddr Node.thisNode.ipAddress))
  have executed : run Node.thisNode.step (Resolver.start fun _ => newCaller)
      [.call 0 peerNode.ipAddress, .step 0, .step 0, .step 0] = some _ := rfl
  rcases resolution.2.2.2.2 _ _ 0 ⟨_, executed⟩ rfl rfl rfl with ⟨after, taken, resolved⟩
  exact ⟨_, after, executed, rfl, taken, resolved⟩

end Lpc17xx.Arp
