import Lpc17xx.Arp.Handler

/-!
# Pending requests

What each event can do to the resolver, and what holds of every request that is linked on
`arp_pending_requests`: it asks for the address that its process is resolving, and it has
neither been answered nor timed out.
-/

namespace Lpc17xx.Arp

open Lpc17xx.Link
open Lpc17xx.Protocol
open Lpc17xx.Transition

namespace Resolver

/-- The entry of the table that a search for an address finds. -/
def tableEntry (s : Resolver) (ipAddress : UInt32) : Option ArpEntry :=
  s.tableHead.find? fun entry => entry.ipaddr = ipAddress

/-- The process whose request a reply from an address fulfils: the first on the list. -/
def fulfilledBy (s : Resolver) (packet : ArpPacket) : Option Nat :=
  s.pending.find? fun proc => (s.caller proc).request.TPA = packet.SPA

/-- What a packet can do: nothing to the table and the requests, except when it is a reply
to us that finds a pending request. -/
inductive Receives (s : Resolver) (packet : ArpPacket) : Resolver → Prop
  | ignored : Receives s packet s
  | answered : Receives s packet
      { s with sent := s.sent ++ [(packet.SHA, arpReply packet.SHA packet.SPA)] }
  | unmatched : s.fulfilledBy packet = none → Receives s packet s.wakeup
  | fulfilled {proc : Nat} : packet.HTYPE = 1 → packet.OPER = 2 → packet.THA = etherAddr →
      s.fulfilledBy packet = some proc →
      Receives s packet
        { s.put proc { s.caller proc with
            request := fulfilled (s.caller proc).request ⟨packet.SHA, packet.SPA⟩ } with
          tableHead := listAdd ⟨packet.SHA, packet.SPA⟩ s.tableHead
          pending := listDel proc s.pending }.wakeup

/-- What an event can do. -/
inductive Steps (s : Resolver) : ArpEvent → Resolver → Prop
  | called {proc : Nat} {ipAddress : UInt32} : (s.caller proc).place = .idle →
      Steps s (.call proc ipAddress)
        (s.put proc { s.caller proc with place := .searching, ipAddress })
  | hit {proc : Nat} {entry : ArpEntry} : (s.caller proc).place = .searching →
      s.tableEntry (s.caller proc).ipAddress = some entry →
      Steps s (.step proc)
        { s.put proc { s.caller proc with place := .idle, result := some entry.etherAddr } with
          masked := some proc }
  | missed {proc : Nat} : (s.caller proc).place = .searching →
      s.tableEntry (s.caller proc).ipAddress = none →
      Steps s (.step proc) (s.put proc { s.caller proc with place := .missed })
  | linked {proc : Nat} : (s.caller proc).place = .missed →
      Steps s (.step proc)
        { s.put proc { s.caller proc with
            place := .linked, request := pendingRequest (s.caller proc).ipAddress } with
          pending := listAdd proc s.pending }
  | transmitted {proc : Nat} : (s.caller proc).place = .linked →
      Steps s (.step proc)
        { s.put proc { s.caller proc with place := .waiting } with
          sent := s.sent ++ [(broadcastAddr, requestPacket (s.caller proc).ipAddress)] }
  | returned {proc : Nat} : (s.caller proc).place = .waiting →
      (s.caller proc).request.finished = true →
      Steps s (.step proc)
        (s.put proc { s.caller proc with
          place := .idle, result := answered (s.caller proc).request })
  | slept {proc : Nat} : (s.caller proc).place = .waiting →
      (s.caller proc).request.finished = false →
      Steps s (.step proc)
        { s.put proc { s.caller proc with place := .asleep } with
          waitq := listAdd proc s.waitq
          masked := none }
  | unmasked : Steps s .unmask { s with masked := none }
  | received {packet : ArpPacket} {after : Resolver} : Receives s packet after →
      Steps s (.rx packet) after
  | ticked : Steps s .tick s.tick

/-- Every linked request asks for the address that its process is resolving, and has not
timed out. -/
structure Asking (s : Resolver) : Prop where
  linked : s.Linked
  asks : ∀ proc ∈ s.pending, (s.caller proc).request.TPA = (s.caller proc).ipAddress
  inTime : ∀ proc ∈ s.pending, (s.caller proc).request.timedOut = false

section Step

variable {s after : Resolver}

theorem steps_of_resolveStep {proc : Nat} (taken : s.resolveStep proc = some after) :
    Steps s (.step proc) after := by
  unfold resolveStep at taken
  cases place : (s.caller proc).place with
  | idle =>
      simp only [place] at taken
      contradiction
  | searching =>
      simp only [place] at taken
      split at taken
      · rename_i entry found
        cases taken
        exact .hit place found
      · rename_i nothing
        cases taken
        exact .missed place nothing
  | missed =>
      simp only [place] at taken
      cases taken
      exact .linked place
  | linked =>
      simp only [place] at taken
      cases taken
      exact .transmitted place
  | waiting =>
      simp only [place] at taken
      split at taken
      · rename_i finished
        cases taken
        exact .returned place finished
      · rename_i unfinished
        cases taken
        exact .slept place (eq_false_of_ne_true unfinished)
  | asleep =>
      simp only [place] at taken
      contradiction

theorem receives_rxPacket (packet : ArpPacket) : Receives s packet (s.rxPacket packet) := by
  unfold rxPacket
  split
  · rename_i ethernet
    split
    · split
      · exact .answered
      · exact .ignored
    · split
      · rename_i reply
        split
        · rename_i ours
          unfold fulfil
          split
          · rename_i proc found
            exact .fulfilled ethernet reply ours found
          · rename_i nobody
            exact .unmatched nobody
        · exact .ignored
      · exact .ignored
  · exact .ignored

theorem steps_of_step {event : ArpEvent} (taken : Resolver.step s event = some after) :
    Steps s event after := by
  cases event with
  | call proc ipAddress =>
      rcases Option.ite_none_right_eq_some.mp taken with ⟨⟨_, idle⟩, taken⟩
      cases taken
      exact .called idle
  | step proc => exact steps_of_resolveStep (Option.ite_none_right_eq_some.mp taken).2
  | unmask =>
      rcases Option.ite_none_left_eq_some.mp taken with ⟨_, taken⟩
      cases taken
      exact .unmasked
  | rx packet =>
      rcases Option.ite_none_right_eq_some.mp taken with ⟨_, taken⟩
      cases taken
      exact .received (receives_rxPacket packet)
  | tick =>
      rcases Option.ite_none_right_eq_some.mp taken with ⟨_, taken⟩
      cases taken
      exact .ticked

theorem asking_start (caller : Nat → Caller) : (start caller).Asking :=
  ⟨linked_start caller, fun _ member => (nomatch member), fun _ member => (nomatch member)⟩

/-- Requests that were linked before, of processes that still resolve the same. -/
theorem Asking.kept (asking : s.Asking) (linked : after.Linked)
    (kept : ∀ proc ∈ after.pending, proc ∈ s.pending ∧
      (after.caller proc).request.TPA = (s.caller proc).request.TPA ∧
      (after.caller proc).request.timedOut = (s.caller proc).request.timedOut ∧
      (after.caller proc).ipAddress = (s.caller proc).ipAddress) : after.Asking := by
  refine ⟨linked, ?_, ?_⟩
  · intro proc member
    rcases kept proc member with ⟨before, sameTpa, _, sameIp⟩
    rw [sameTpa, sameIp]
    exact asking.asks proc before
  · intro proc member
    rcases kept proc member with ⟨before, _, sameTimedOut, _⟩
    rw [sameTimedOut]
    exact asking.inTime proc before

/-- A process moves on with its request and its call, or without a linked request. -/
theorem Asking.moved {proc : Nat} {cur : Caller} (asking : s.Asking) (linked : after.Linked)
    (pending : after.pending = s.pending)
    (caller : after.caller = Function.update s.caller proc cur)
    (kept : proc ∈ s.pending → cur.request = (s.caller proc).request ∧
      cur.ipAddress = (s.caller proc).ipAddress) : after.Asking := by
  apply asking.kept linked
  intro other member
  rw [pending] at member
  rw [caller]
  by_cases same : other = proc
  · subst same
    rcases kept member with ⟨request, ipAddress⟩
    rw [Function.update_self, request, ipAddress]
    exact ⟨member, rfl, rfl, rfl⟩
  · rw [Function.update_of_ne same]
    exact ⟨member, rfl, rfl, rfl⟩

/-- Waking the sleepers changes their places only. -/
theorem caller_wakeup (proc : Nat) :
    (s.wakeup.caller proc).request = (s.caller proc).request ∧
      (s.wakeup.caller proc).ipAddress = (s.caller proc).ipAddress := by
  simp only [wakeup]
  split
  · exact ⟨rfl, rfl⟩
  · exact ⟨rfl, rfl⟩

theorem Asking.received {packet : ArpPacket} (asking : s.Asking) (linked : after.Linked)
    (receives : Receives s packet after) : after.Asking := by
  cases receives with
  | ignored => exact asking
  | answered => exact ⟨linked, asking.asks, asking.inTime⟩
  | unmatched _ =>
      apply asking.kept linked
      intro proc member
      rcases @caller_wakeup s proc with ⟨request, ipAddress⟩
      rw [request, ipAddress]
      exact ⟨member, rfl, rfl, rfl⟩
  | @fulfilled found _ _ _ _ =>
      -- The request that is fulfilled leaves the list, and the others stay as they are.
      apply asking.kept linked
      intro proc member
      rcases asking.linked.1.mem_erase_iff.mp member with ⟨apart, before⟩
      rcases @caller_wakeup _ proc with ⟨request, ipAddress⟩
      rw [request, ipAddress]
      simp only [put, Function.update_of_ne apart]
      exact ⟨before, trivial, trivial, trivial⟩

theorem Asking.tick (asking : s.Asking) : s.tick.Asking := by
  apply @Asking.kept s s.tick asking asking.linked.tick
  intro proc member
  rcases List.mem_filter.mp member with ⟨before, running⟩
  have early : ¬arpTimeout ≤ (s.caller proc).request.tickCount := by simpa using running
  simp only [Resolver.tick, if_pos before, tickRequest, if_neg early]
  exact ⟨before, trivial, trivial, trivial⟩

theorem Asking.step {event : ArpEvent} (asking : s.Asking)
    (taken : Resolver.step s event = some after) : after.Asking := by
  have linked := asking.linked.step taken
  have apart {proc : Nat} (notLinked : ¬(s.caller proc).Pends) : proc ∉ s.pending :=
    asking.linked.not_mem notLinked
  cases steps_of_step taken with
  | @called proc _ idle =>
      have before : proc ∉ s.pending := apart (by simp [Caller.Pends, idle])
      exact asking.moved linked rfl rfl fun member => absurd member before
  | hit _ _ => exact asking.moved linked rfl rfl fun _ => ⟨rfl, rfl⟩
  | missed _ _ => exact asking.moved linked rfl rfl fun _ => ⟨rfl, rfl⟩
  | @linked proc missed =>
      have before : proc ∉ s.pending := apart (by simp [Caller.Pends, missed])
      refine ⟨linked, ?_, ?_⟩
      · intro other member
        rcases List.mem_cons.mp member with rfl | earlier
        · simp [put, pendingRequest]
        · have other_ne : other ≠ proc := ne_of_mem_of_not_mem earlier before
          simp only [put, Function.update_of_ne other_ne]
          exact asking.asks other earlier
      · intro other member
        rcases List.mem_cons.mp member with rfl | earlier
        · simp [put, pendingRequest]
        · have other_ne : other ≠ proc := ne_of_mem_of_not_mem earlier before
          simp only [put, Function.update_of_ne other_ne]
          exact asking.inTime other earlier
  | transmitted _ => exact asking.moved linked rfl rfl fun _ => ⟨rfl, rfl⟩
  | returned _ _ => exact asking.moved linked rfl rfl fun _ => ⟨rfl, rfl⟩
  | slept _ _ => exact asking.moved linked rfl rfl fun _ => ⟨rfl, rfl⟩
  | unmasked => exact ⟨linked, asking.asks, asking.inTime⟩
  | received receives => exact asking.received linked receives
  | ticked => exact asking.tick

theorem asking_of_reachable {caller : Nat → Caller}
    (reached : Reachable Resolver.step (start caller) s) : s.Asking :=
  invariant_of_reachable (fun _ _ _ asking taken => asking.step taken) (asking_start caller) reached

end Step

end Resolver

end Lpc17xx.Arp
