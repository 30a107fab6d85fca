import Lpc17xx.Arp.Requests

/-!
# Several processes that resolve one address

`resolve_address` looks into the table and links its request in two masked sections, and
`arp_rx_packet` fulfils the first request that a reply answers and no other.  Nobody waits
for an address of the table, and no address is in it twice, exactly as long as no reply
comes for two requests at once and no address enters the table between the two sections.
-/

namespace Lpc17xx.Arp

open Lpc17xx.Link
open Lpc17xx.Protocol
open Lpc17xx.Transition

/-- The packet is an Ethernet reply to us. -/
def AnswersUs (packet : ArpPacket) : Prop :=
  packet.HTYPE = 1 ∧ packet.OPER = 2 ∧ packet.THA = etherAddr

namespace Resolver

/-- Every process that waits for an answer has its request linked. -/
def Listed (s : Resolver) : Prop :=
  ∀ proc, (s.caller proc).Pends → proc ∈ s.pending

/-- Nobody waits for an address that is in the table, and none is in it twice. -/
structure Coherent (s : Resolver) : Prop where
  unknown : ∀ proc, (s.caller proc).Pends → s.tableEntry (s.caller proc).ipAddress = none
  distinct : (s.tableHead.map ArpEntry.ipaddr).Nodup

/-- A reply finishes every request for its address, and the table stays coherent. -/
structure Shares (before : Resolver) (event : ArpEvent) (after : Resolver) : Prop where
  finishes : ∀ packet, event = .rx packet → AnswersUs packet → ∀ proc ∈ before.pending,
    (before.caller proc).ipAddress = packet.SPA →
    (after.caller proc).request =
      fulfilled (before.caller proc).request ⟨packet.SHA, packet.SPA⟩
  coherent : after.Coherent

/-- No reply comes while two requests for its address are pending, and no process links a
request for an address that is in the table. -/
def Alone (s : Resolver) : ArpEvent → Prop
  | .rx packet => AnswersUs packet → ∀ proc ∈ s.pending, ∀ other ∈ s.pending,
      (s.caller proc).ipAddress = packet.SPA → (s.caller other).ipAddress = packet.SPA →
      proc = other
  | .step proc => (s.caller proc).place = .missed →
      s.tableEntry (s.caller proc).ipAddress = none
  | _ => True

theorem listed_start (caller : Nat → Caller) : (start caller).Listed := by
  rintro proc ⟨linked | waiting | asleep, _⟩
  · contradiction
  · contradiction
  · contradiction

theorem coherent_start (caller : Nat → Caller) : (start caller).Coherent where
  unknown := fun _ _ => rfl
  distinct := List.nodup_nil

section Step

variable {s after : Resolver}

/-- Whoever waits after the step has waited before, with a request that stays linked. -/
theorem Listed.kept (listed : s.Listed)
    (kept : ∀ proc, (after.caller proc).Pends →
      (s.caller proc).Pends ∧ (proc ∈ s.pending → proc ∈ after.pending)) : after.Listed := by
  intro proc pends
  rcases kept proc pends with ⟨before, stays⟩
  exact stays (listed proc before)

/-- One process moves on, and does not come to wait. -/
theorem Listed.moved {proc : Nat} {cur : Caller} (listed : s.Listed)
    (caller : after.caller = Function.update s.caller proc cur)
    (pending : after.pending = s.pending) (waited : cur.Pends → (s.caller proc).Pends) :
    after.Listed := by
  apply listed.kept
  intro other pends
  rw [caller] at pends
  rw [pending]
  by_cases same : other = proc
  · subst same
    rw [Function.update_self] at pends
    exact ⟨waited pends, id⟩
  · rw [Function.update_of_ne same] at pends
    exact ⟨pends, id⟩

/-- Waking the sleepers finishes nothing. -/
theorem pends_of_wakeup (sound : s.Sound) {proc : Nat} (pends : (s.wakeup.caller proc).Pends) :
    (s.caller proc).Pends := by
  have unfinished := pends.2
  rw [(@caller_wakeup s proc).1] at unfinished
  by_cases queued : proc ∈ s.waitq
  · exact ⟨.inr (.inr ((sound proc).mp queued)), unfinished⟩
  · have place := pends.1
    simp only [wakeup, if_neg queued] at place
    exact ⟨place, unfinished⟩

theorem Listed.wakeup (listed : s.Listed) (sound : s.Sound) : s.wakeup.Listed :=
  listed.kept fun _ pends => ⟨pends_of_wakeup sound pends, id⟩

/-- The request that a reply fulfils is not waited for any more. -/
theorem Listed.fulfilled {proc : Nat} {entry : ArpEntry} (listed : s.Listed) :
    Listed { s.put proc { s.caller proc with
        request := fulfilled (s.caller proc).request entry } with
      tableHead := listAdd entry s.tableHead
      pending := listDel proc s.pending } := by
  apply listed.kept
  intro other pends
  by_cases same : other = proc
  · subst same
    have finished := pends.2
    simp [put, Arp.fulfilled] at finished
  · simp only [put, Function.update_of_ne same] at pends
    exact ⟨pends, fun member => (List.mem_erase_of_ne same).mpr member⟩

/-- A tick finishes the requests that expire. -/
theorem pends_of_tick {proc : Nat} (pends : (s.tick.caller proc).Pends) :
    (s.caller proc).Pends ∧
      (proc ∈ s.pending → ¬arpTimeout ≤ (s.caller proc).request.tickCount) := by
  by_cases linked : proc ∈ s.pending
  · simp only [Resolver.tick, if_pos linked, Caller.Pends] at pends
    rcases pends with ⟨place, unfinished⟩
    have running : ¬((s.caller proc).request.finished = true ∨
        arpTimeout ≤ (s.caller proc).request.tickCount) := by
      intro ended
      rw [tickRequest_finished.mpr ended] at unfinished
      contradiction
    rw [not_or] at running
    exact ⟨⟨place, eq_false_of_ne_true running.1⟩, fun _ => running.2⟩
  · simp only [Resolver.tick, if_neg linked] at pends
    exact ⟨pends, fun member => absurd member linked⟩

theorem ipAddress_tick (proc : Nat) :
    (s.tick.caller proc).ipAddress = (s.caller proc).ipAddress := by
  simp only [Resolver.tick]
  split
  · rfl
  · rfl

theorem Listed.tick (listed : s.Listed) : s.tick.Listed := by
  apply @Listed.kept s s.tick listed
  intro proc pends
  rcases pends_of_tick pends with ⟨before, running⟩
  exact ⟨before, fun member => List.mem_filter.mpr ⟨member, by simpa using running member⟩⟩

/-- Fulfilling a request moves no process. -/
theorem Sound.fulfilled {proc : Nat} {entry : ArpEntry} (sound : s.Sound) :
    Sound { s.put proc { s.caller proc with
        request := Arp.fulfilled (s.caller proc).request entry } with
      tableHead := listAdd entry s.tableHead
      pending := listDel proc s.pending } := by
  intro other
  by_cases same : other = proc
  · subst same
    simpa [put] using sound other
  · simpa only [put, Function.update_of_ne same] using sound other

theorem Listed.step {event : ArpEvent} (listed : s.Listed) (sound : s.Sound)
    (taken : Resolver.step s event = some after) : after.Listed := by
  cases steps_of_step taken with
  | called _ => exact listed.moved rfl rfl fun pends => by simp [Caller.Pends] at pends
  | hit _ _ => exact listed.moved rfl rfl fun pends => by simp [Caller.Pends] at pends
  | missed _ _ => exact listed.moved rfl rfl fun pends => by simp [Caller.Pends] at pends
  | @linked proc _ =>
      intro other pends
      by_cases same : other = proc
      · exact same ▸ List.mem_cons_self
      · simp only [put, Function.update_of_ne same] at pends
        exact List.mem_cons_of_mem proc (listed other pends)
  | transmitted place =>
      exact listed.moved rfl rfl fun pends => ⟨.inl place, pends.2⟩
  | returned _ _ => exact listed.moved rfl rfl fun pends => by simp [Caller.Pends] at pends
  | slept place unfinished =>
      exact listed.moved rfl rfl fun _ => ⟨.inr (.inl place), unfinished⟩
  | unmasked => exact listed
  | ticked => exact listed.tick
  | received receives =>
      cases receives with
      | ignored => exact listed
      | answered => exact listed
      | unmatched _ => exact listed.wakeup sound
      | fulfilled _ _ _ _ => exact listed.fulfilled.wakeup sound.fulfilled

theorem Asking.ipAddress_eq {packet : ArpPacket} {proc : Nat} (asking : s.Asking)
    (fulfils : s.fulfilledBy packet = some proc) :
    proc ∈ s.pending ∧ (s.caller proc).ipAddress = packet.SPA := by
  have member : proc ∈ s.pending := List.mem_of_find?_eq_some fulfils
  refine ⟨member, ?_⟩
  rw [← asking.asks proc member]
  simpa using List.find?_some fulfils

/-- A reply finishes the request that it fulfils and no other. -/
theorem fulfilledBy_of_finished {packet : ArpPacket} {proc : Nat}
    (receives : Receives s packet after)
    (unfinished : (s.caller proc).request.finished = false)
    (finished : (after.caller proc).request.finished = true) :
    s.fulfilledBy packet = some proc := by
  cases receives with
  | ignored =>
      rw [unfinished] at finished
      contradiction
  | answered =>
      have same : (s.caller proc).request.finished = true := finished
      rw [unfinished] at same
      contradiction
  | unmatched _ =>
      rw [(@caller_wakeup s proc).1, unfinished] at finished
      contradiction
  | @fulfilled found _ _ _ fulfils =>
      by_cases same : proc = found
      · exact same ▸ fulfils
      · rw [(@caller_wakeup _ proc).1] at finished
        simp only [put, Function.update_of_ne same] at finished
        rw [unfinished] at finished
        contradiction

/-- Nobody comes to wait, and the table is left alone. -/
theorem Coherent.kept (coherent : s.Coherent) (tableHead : after.tableHead = s.tableHead)
    (waited : ∀ proc, (after.caller proc).Pends →
      (s.caller proc).Pends ∧ (after.caller proc).ipAddress = (s.caller proc).ipAddress) :
    after.Coherent := by
  constructor
  · intro proc pends
    rcases waited proc pends with ⟨before, ipAddress⟩
    rw [ipAddress, tableEntry, tableHead]
    exact coherent.unknown proc before
  · rw [tableHead]
    exact coherent.distinct

theorem Coherent.moved {proc : Nat} {cur : Caller} (coherent : s.Coherent)
    (caller : after.caller = Function.update s.caller proc cur)
    (tableHead : after.tableHead = s.tableHead)
    (waited : cur.Pends → (s.caller proc).Pends ∧ cur.ipAddress = (s.caller proc).ipAddress) :
    after.Coherent := by
  apply coherent.kept tableHead
  intro other pends
  rw [caller] at pends ⊢
  by_cases same : other = proc
  · subst same
    rw [Function.update_self] at pends ⊢
    exact waited pends
  · rw [Function.update_of_ne same] at pends ⊢
    exact ⟨pends, rfl⟩

theorem Coherent.wakeup (coherent : s.Coherent) (sound : s.Sound) : s.wakeup.Coherent :=
  coherent.kept rfl fun proc pends => ⟨pends_of_wakeup sound pends, (@caller_wakeup s proc).2⟩

/-- The address of a fulfilled request is new to the table, and nobody else waits for it. -/
theorem Coherent.fulfilled {packet : ArpPacket} {proc : Nat} (coherent : s.Coherent)
    (asking : s.Asking) (listed : s.Listed) (fulfils : s.fulfilledBy packet = some proc)
    (alone : ∀ other ∈ s.pending, (s.caller other).ipAddress = packet.SPA → other = proc) :
    Coherent { s.put proc { s.caller proc with
        request := fulfilled (s.caller proc).request ⟨packet.SHA, packet.SPA⟩ } with
      tableHead := listAdd ⟨packet.SHA, packet.SPA⟩ s.tableHead
      pending := listDel proc s.pending } := by
  rcases asking.ipAddress_eq fulfils with ⟨member, same⟩
  have absent := coherent.unknown proc (asking.linked.2 proc member)
  rw [same] at absent
  constructor
  · intro other pends
    by_cases found : other = proc
    · subst found
      have finished := pends.2
      simp [put, Arp.fulfilled] at finished
    · simp only [put, Function.update_of_ne found] at pends ⊢
      have apart : packet.SPA ≠ (s.caller other).ipAddress := fun asks =>
        found (alone other (listed other pends) asks.symm)
      rw [tableEntry, listAdd, List.find?_cons_of_neg (by simpa using apart)]
      exact coherent.unknown other pends
  · refine List.nodup_cons.mpr ⟨?_, coherent.distinct⟩
    intro twice
    rcases List.mem_map.mp twice with ⟨entry, present, address⟩
    exact List.find?_eq_none.mp absent entry present (by simpa using address)

/-- Nothing but a reply or the link of a request can break it. -/
theorem Coherent.step {event : ArpEvent} (coherent : s.Coherent) (asking : s.Asking)
    (listed : s.Listed) (sound : s.Sound) (alone : s.Alone event)
    (taken : Resolver.step s event = some after) : after.Coherent := by
  cases steps_of_step taken with
  | called _ => exact coherent.moved rfl rfl fun pends => by simp [Caller.Pends] at pends
  | hit _ _ => exact coherent.moved rfl rfl fun pends => by simp [Caller.Pends] at pends
  | missed _ _ => exact coherent.moved rfl rfl fun pends => by simp [Caller.Pends] at pends
  | @linked proc place =>
      refine ⟨?_, coherent.distinct⟩
      intro other pends
      by_cases same : other = proc
      · subst same
        simp only [put, Function.update_self]
        exact alone place
      · simp only [put, Function.update_of_ne same] at pends ⊢
        exact coherent.unknown other pends
  | transmitted place =>
      exact coherent.moved rfl rfl fun pends => ⟨⟨.inl place, pends.2⟩, rfl⟩
  | returned _ _ => exact coherent.moved rfl rfl fun pends => by simp [Caller.Pends] at pends
  | slept place unfinished =>
      exact coherent.moved rfl rfl fun _ => ⟨⟨.inr (.inl place), unfinished⟩, rfl⟩
  | unmasked => exact ⟨coherent.unknown, coherent.distinct⟩
  | ticked =>
      exact @Coherent.kept s s.tick coherent rfl fun proc pends =>
        ⟨(pends_of_tick pends).1, ipAddress_tick proc⟩
  | @received packet _ receives =>
      cases receives with
      | ignored => exact coherent
      | answered => exact ⟨coherent.unknown, coherent.distinct⟩
      | unmatched _ => exact coherent.wakeup sound
      | @fulfilled found ethernet reply ours fulfils =>
          rcases asking.ipAddress_eq fulfils with ⟨member, asks⟩
          have only : ∀ other ∈ s.pending, (s.caller other).ipAddress = packet.SPA →
              other = found := fun other linked same =>
            alone ⟨ethernet, reply, ours⟩ other linked found member same asks
          exact (coherent.fulfilled asking listed fulfils only).wakeup sound.fulfilled

theorem rxPacket_of_answersUs {packet : ArpPacket} (answers : AnswersUs packet) :
    s.rxPacket packet = (s.fulfil packet).wakeup := by
  rcases answers with ⟨ethernet, reply, ours⟩
  have other : ¬packet.OPER = 1 := by
    rw [reply]
    decide
  rw [rxPacket, if_pos ethernet, if_neg other, if_pos reply, if_pos ours]

/-- A reply finishes the only request for its address. -/
theorem finishes_of_alone {packet : ArpPacket} (asking : s.Asking) (alone : s.Alone (.rx packet))
    (answers : AnswersUs packet) (taken : Resolver.step s (.rx packet) = some after) :
    ∀ proc ∈ s.pending, (s.caller proc).ipAddress = packet.SPA →
      (after.caller proc).request =
        fulfilled (s.caller proc).request ⟨packet.SHA, packet.SPA⟩ := by
  intro proc member asks
  rcases Option.ite_none_right_eq_some.mp taken with ⟨_, received⟩
  cases received
  have asked : (s.caller proc).request.TPA = packet.SPA := (asking.asks proc member).trans asks
  rw [rxPacket_of_answersUs answers, (@caller_wakeup _ proc).1, fulfil]
  split
  · rename_i found fulfils
    rcases asking.ipAddress_eq fulfils with ⟨memberFound, asksFound⟩
    have same : found = proc := alone answers found memberFound proc member asksFound asks
    subst same
    simp [put, fulfilled]
  · rename_i nobody
    exact absurd asked (by simpa using List.find?_eq_none.mp nobody proc member)

theorem shares_iff {event : ArpEvent} (asking : s.Asking) (listed : s.Listed) (sound : s.Sound)
    (coherent : s.Coherent) (taken : Resolver.step s event = some after) :
    Shares s event after ↔ s.Alone event := by
  constructor
  · intro shares
    cases event with
    | rx packet =>
        intro answers proc member other memberOther asks asksOther
        have finished (q : Nat) (linked : q ∈ s.pending)
            (same : (s.caller q).ipAddress = packet.SPA) : s.fulfilledBy packet = some q := by
          have unfinished := (asking.linked.2 q linked).2
          have ended := shares.finishes packet rfl answers q linked same
          cases steps_of_step taken with
          | received receives =>
              exact fulfilledBy_of_finished receives unfinished (by rw [ended]; rfl)
        exact Option.some.inj ((finished proc member asks).symm.trans
          (finished other memberOther asksOther))
    | step proc =>
        intro place
        cases steps_of_step taken with
        | linked _ =>
            have waits : (Caller.mk .linked (s.caller proc).ipAddress
                (pendingRequest (s.caller proc).ipAddress) (s.caller proc).result).Pends :=
              ⟨.inl rfl, rfl⟩
            have unknown := shares.coherent.unknown proc
            simp only [put, Function.update_self] at unknown
            exact unknown waits
        | hit searching _ =>
            rw [place] at searching
            contradiction
        | missed searching _ =>
            rw [place] at searching
            contradiction
        | transmitted linked =>
            rw [place] at linked
            contradiction
        | returned waiting _ =>
            rw [place] at waiting
            contradiction
        | slept waiting _ =>
            rw [place] at waiting
            contradiction
    | call _ _ => trivial
    | unmask => trivial
    | tick => trivial
  · intro alone
    refine ⟨?_, coherent.step asking listed sound alone taken⟩
    rintro packet rfl answers
    exact finishes_of_alone asking alone answers taken

end Step

end Resolver

/-- Along every run of any number of processes, ticks and packets, replies finish all the
requests for their address, nobody waits for an address of the table and none is in it
twice, exactly as long as no reply comes for two pending requests and no request is linked
for an address that has entered the table since it was looked up. -/
theorem resolver_shares_iff (caller : Nat → Caller) (events : List ArpEvent) :
    Along Resolver.step Resolver.Shares (Resolver.start caller) events ↔
      Guarded Resolver.step Resolver.Alone (Resolver.start caller) events := by
  have initial : (Resolver.start caller).Asking ∧ (Resolver.start caller).Listed ∧
      (Resolver.start caller).Sound ∧ (Resolver.start caller).Coherent :=
    ⟨Resolver.asking_start caller, Resolver.listed_start caller, Resolver.sound_start caller,
      Resolver.coherent_start caller⟩
  apply @along_iff_guarded _ _ _
    (fun s => s.Asking ∧ s.Listed ∧ s.Sound ∧ s.Coherent) _ _ _ _ _ _ initial
  · rintro s event after ⟨asking, listed, sound, coherent⟩ alone taken
    exact ⟨asking.step taken, listed.step sound taken, sound.step taken,
      coherent.step asking listed sound alone taken⟩
  · rintro s event after ⟨asking, listed, sound, coherent⟩ taken
    exact Resolver.shares_iff asking listed sound coherent taken

/-- Two processes ask for the address of the peer, and one reply comes. -/
def askedTwice : List ArpEvent :=
  [.call 0 0xc0a80476, .call 1 0xc0a80476, .step 0, .step 1, .step 0, .step 1,
    .rx { HTYPE := 1, PTYPE := etherTypeIp, HLEN := 6, PLEN := 4, OPER := 2,
          SHA := [2, 0, 0, 0, 0, 2], SPA := 0xc0a80476, THA := etherAddr, TPA := ourIpAddress }]

theorem resolver_not_shares_askedTwice :
    ¬Along Resolver.step Resolver.Shares (Resolver.start fun _ => newCaller) askedTwice := by
  intro along
  rcases along.drop 6 rfl _ rfl with ⟨shares, _⟩
  have known := shares.coherent.unknown 0 ⟨.inl rfl, rfl⟩
  contradiction

end Lpc17xx.Arp
