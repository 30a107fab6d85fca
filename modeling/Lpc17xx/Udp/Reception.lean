import Lpc17xx.Udp.Receive

/-!
# What a listener has received

The invariant of `udp_rx_requests`: the listeners are those of the processes inside
`udp_rx`, no two on one port, and each has the first bytes of what has arrived for its
port since it was registered, up to the size of its buffer.  The loop of `udp_rx_packet`
reaches every listener once.
-/

namespace Lpc17xx.Udp

open Lpc17xx.Cbuf
open Lpc17xx.Link
open Lpc17xx.Memory
open Lpc17xx.Protocol
open Lpc17xx.Transition

/-- The listener has as much of `arrived` as fits, from the first byte on, and the rest of
its buffer is as it was given. -/
structure Listener.Holds (listener : Listener) (given : Bytes) (arrived : List UInt8) :
    Prop where
  size : listener.dstBufPtr.toNat = min listener.dstBufSz.toNat arrived.length
  received : bytesAt listener.dstBuf listener.dstBufPtr.toNat =
    arrived.take listener.dstBufPtr.toNat
  untouched : ∀ i, listener.dstBufSz.toNat ≤ i → listener.dstBuf i = given i

/-- As much as fits, of one sequence and then of another. -/
theorem take_append_of_min {size count : Nat} {first second : List UInt8}
    (held : count = min size first.length) :
    (first ++ second).take (count + min second.length (size - count)) =
      first.take count ++ second.take (min second.length (size - count)) := by
  rcases Nat.lt_or_ge first.length size with room | full
  · have whole : count = first.length := by omega
    rw [whole, List.take_length, List.take_append, List.take_of_length_le (by omega),
      Nat.add_sub_cancel_left]
  · have none : min second.length (size - count) = 0 := by omega
    rw [none, Nat.add_zero, List.take_zero, List.append_nil, List.take_append_of_le_length]
    omega

@[simp]
theorem Datagram.length_payload (datagram : Datagram) :
    datagram.payload.length = datagram.payloadSz.toNat :=
  length_bytesAt _ _

namespace Listener

variable {listener : Listener} {given : Bytes} {arrived : List UInt8}

theorem Holds.inside (holds : listener.Holds given arrived) :
    listener.dstBufPtr.toNat ≤ listener.dstBufSz.toNat := by
  rw [holds.size]
  exact Nat.min_le_left _ _

/-- The number of bytes that a datagram adds. -/
def copied (listener : Listener) (datagram : Datagram) : Nat :=
  (listener.view.noBytesToCopy datagram.payloadSz).toNat

theorem copied_eq (inside : listener.dstBufPtr.toNat ≤ listener.dstBufSz.toNat)
    (datagram : Datagram) :
    listener.copied datagram = min datagram.payload.length
      (listener.dstBufSz.toNat - listener.dstBufPtr.toNat) := by
  rw [datagram.length_payload]
  exact @toNat_noBytesToCopy listener.view _ inside

theorem dstBufPtr_copy (inside : listener.dstBufPtr.toNat ≤ listener.dstBufSz.toNat)
    (datagram : Datagram) :
    (listener.copy datagram).dstBufPtr.toNat =
      listener.dstBufPtr.toNat + listener.copied datagram := by
  have copied := listener.copied_eq inside datagram
  have bound := listener.dstBufSz.toNat_lt
  change (listener.dstBufPtr + UInt16.ofNat (listener.copied datagram)).toNat = _
  rw [UInt16.toNat_add, UInt16.toNat_ofNat', Nat.mod_eq_of_lt (by omega),
    Nat.mod_eq_of_lt (by omega)]

theorem length_copied (inside : listener.dstBufPtr.toNat ≤ listener.dstBufSz.toNat)
    (datagram : Datagram) :
    (datagram.payload.take (listener.copied datagram)).length = listener.copied datagram := by
  rw [List.length_take, listener.copied_eq inside datagram]
  omega

/-- The bytes of the datagram follow those already there. -/
theorem bytesAt_copy (inside : listener.dstBufPtr.toNat ≤ listener.dstBufSz.toNat)
    (datagram : Datagram) :
    bytesAt (listener.copy datagram).dstBuf (listener.copy datagram).dstBufPtr.toNat =
      bytesAt listener.dstBuf listener.dstBufPtr.toNat ++
        datagram.payload.take (listener.copied datagram) := by
  have length := listener.length_copied inside datagram
  rw [dstBufPtr_copy inside, bytesAt_add]
  congr 1
  · apply bytesAt_congr
    intro i before
    exact storeBytes_of_outside (.inl before)
  · apply bytesAt_stored length
    intro i inside
    exact storeBytes_of_inside (length.symm ▸ inside)

/-- A datagram for the listener is copied as far as it fits. -/
theorem Holds.copy (holds : listener.Holds given arrived) (datagram : Datagram) :
    (listener.copy datagram).Holds given (arrived ++ datagram.payload) := by
  have inside := holds.inside
  have copied := listener.copied_eq inside datagram
  have size := holds.size
  constructor
  · rw [dstBufPtr_copy inside, List.length_append]
    change _ = min listener.dstBufSz.toNat _
    omega
  · rw [bytesAt_copy inside, dstBufPtr_copy inside, holds.received, copied,
      take_append_of_min size]
  · intro i beyond
    rw [← holds.untouched i beyond]
    have length := listener.length_copied inside datagram
    change listener.dstBufSz.toNat ≤ i at beyond
    refine storeBytes_of_outside (.inr ?_)
    change _ + (datagram.payload.take (listener.copied datagram)).length ≤ i
    omega

/-- A full buffer stays full. -/
theorem full_copy (holds : listener.Holds given arrived)
    (full : listener.dstBufPtr = listener.dstBufSz) (datagram : Datagram) :
    (listener.copy datagram).dstBufPtr = (listener.copy datagram).dstBufSz := by
  have copied := listener.copied_eq holds.inside datagram
  rw [← UInt16.toNat_inj, dstBufPtr_copy holds.inside]
  change _ = listener.dstBufSz.toNat
  rw [full] at copied ⊢
  omega

/-- The copy as the receive handlers see it. -/
theorem view_copy (inside : listener.dstBufPtr.toNat ≤ listener.dstBufSz.toNat)
    (datagram : Datagram) :
    (listener.copy datagram).view =
      listener.view.append (datagram.payload.take (listener.copied datagram)) := by
  have length := listener.length_copied inside datagram
  simp only [view, UdpListener.append, bytesAt_copy inside, length]
  rfl

end Listener

namespace Receiver

/-- The port that a process listens on. -/
def portOf (s : Receiver) (proc : Nat) : UInt16 :=
  (s.caller proc).newListener.port

/-- The processes on the queue are those asleep, those with a listener linked are those
inside `udp_rx`, no two are on one port, and whoever is behind its wait has a full
buffer. -/
structure Sound (s : Receiver) : Prop where
  queued : ∀ proc, proc ∈ s.waitq ↔ (s.caller proc).place = .asleep
  linked : ∀ proc, proc ∈ s.requests ↔ (s.caller proc).place ≠ .idle
  ports : (s.requests.map s.portOf).Nodup
  holds : ∀ proc ∈ s.requests,
    (s.caller proc).newListener.Holds (s.caller proc).given (s.caller proc).arrived
  full : ∀ proc, (s.caller proc).place = .filled →
    (s.caller proc).newListener.dstBufPtr = (s.caller proc).newListener.dstBufSz
  untouched : ∀ proc i, (s.caller proc).newListener.dstBufSz.toNat ≤ i →
    (s.caller proc).newListener.dstBuf i = (s.caller proc).given i

/-- What an event can do. -/
inductive Steps (s : Receiver) : UdpEvent → Receiver → Prop
  | refused {proc : Nat} {port : UInt16} {dstBuf : Bytes} {dstBufSz : UInt16} :
      (s.caller proc).place = .idle → (∃ i ∈ s.requests, s.portOf i = port) →
      Steps s (.call proc port dstBuf dstBufSz) (s.refuse proc)
  | registered {proc : Nat} {port : UInt16} {dstBuf : Bytes} {dstBufSz : UInt16} :
      (s.caller proc).place = .idle → (∀ i ∈ s.requests, s.portOf i ≠ port) →
      Steps s (.call proc port dstBuf dstBufSz) (s.register proc port dstBuf dstBufSz)
  | filled {proc : Nat} : (s.caller proc).place = .waiting →
      (s.caller proc).newListener.dstBufPtr = (s.caller proc).newListener.dstBufSz →
      Steps s (.step proc) (s.put proc { s.caller proc with place := .filled })
  | slept {proc : Nat} : (s.caller proc).place = .waiting →
      Steps s (.step proc)
        { s.put proc { s.caller proc with place := .asleep } with
          waitq := listAdd proc s.waitq
          masked := none }
  | returned {proc : Nat} : (s.caller proc).place = .filled →
      Steps s (.step proc)
        { s.put proc { s.caller proc with
            place := .idle
            result := some (s.caller proc).newListener.dstBufPtr.toNat } with
          requests := listDel proc s.requests }
  | unmasked : Steps s .unmask { s with masked := none }
  | received {datagram : Datagram} : Steps s (.rx datagram) (s.udpRxPacket datagram)

section Step

variable {s after : Receiver}

theorem steps_of_udpRxStep {proc : Nat} (taken : s.udpRxStep proc = some after) :
    Steps s (.step proc) after := by
  unfold udpRxStep at taken
  cases place : (s.caller proc).place with
  | idle =>
      simp only [place] at taken
      contradiction
  | waiting =>
      simp only [place] at taken
      split at taken
      · rename_i full
        cases taken
        exact .filled place full
      · cases taken
        exact .slept place
  | asleep =>
      simp only [place] at taken
      contradiction
  | filled =>
      simp only [place] at taken
      cases taken
      exact .returned place

theorem steps_of_step {event : UdpEvent} (taken : Receiver.step s event = some after) :
    Steps s event after := by
  cases event with
  | call proc port dstBuf dstBufSz =>
      rcases Option.ite_none_right_eq_some.mp taken with ⟨⟨_, place⟩, called⟩
      cases called
      unfold udpRx
      split
      · rename_i used
        exact .refused place (by simpa [portOf] using used)
      · rename_i unused
        exact .registered place (by simpa [portOf] using unused)
  | step proc =>
      rcases Option.ite_none_right_eq_some.mp taken with ⟨_, stepped⟩
      exact steps_of_udpRxStep stepped
  | unmask =>
      rcases Option.ite_none_left_eq_some.mp taken with ⟨_, unmasked⟩
      cases unmasked
      exact .unmasked
  | rx datagram =>
      rcases Option.ite_none_right_eq_some.mp taken with ⟨_, received⟩
      cases received
      exact .received

/-- The loop of `udp_rx_packet` has been through the listeners `visited`: theirs have the
datagram if it is for their port, and at most the sleepers have been woken. -/
structure Visited (s : Receiver) (datagram : Datagram) (visited : List Nat)
    (after : Receiver) : Prop where
  requests : after.requests = s.requests
  masked : after.masked = s.masked
  queued : ∀ proc, proc ∈ after.waitq ↔ (after.caller proc).place = .asleep
  caller : ∀ proc, after.caller proc =
    { s.caller proc with
      place := (after.caller proc).place
      newListener :=
        if proc ∈ visited ∧ s.portOf proc = datagram.dstPort then
          (s.caller proc).newListener.copy datagram
        else (s.caller proc).newListener }
  woken : ∀ proc, (after.caller proc).place = (s.caller proc).place ∨
    ((s.caller proc).place = .asleep ∧ (after.caller proc).place = .waiting)

section Loop

variable {datagram : Datagram} {visited : List Nat}

theorem Visited.start (queued : ∀ proc, proc ∈ s.waitq ↔ (s.caller proc).place = .asleep) :
    Visited s datagram [] s where
  requests := rfl
  masked := rfl
  queued := queued
  caller := fun proc => by simp
  woken := fun _ => .inl rfl

/-- A listener on another port is passed over. -/
theorem Visited.passed (visits : Visited s datagram visited after) {i : Nat}
    (other : s.portOf i ≠ datagram.dstPort) : Visited s datagram (visited ++ [i]) after := by
  refine { visits with caller := ?_ }
  intro proc
  have same : (proc ∈ visited ++ [i] ∧ s.portOf proc = datagram.dstPort) ↔
      (proc ∈ visited ∧ s.portOf proc = datagram.dstPort) := by
    constructor
    · rintro ⟨member, port⟩
      rcases List.mem_append.mp member with before | last
      · exact ⟨before, port⟩
      · exact absurd (List.mem_singleton.mp last ▸ port) other
    · rintro ⟨member, port⟩
      exact ⟨List.mem_append_left _ member, port⟩
  simp only [same]
  exact visits.caller proc

/-- The copy to a listener that has not been visited. -/
theorem Visited.copied (visits : Visited s datagram visited after) {i : Nat}
    (fresh : i ∉ visited) (port : s.portOf i = datagram.dstPort) :
    Visited s datagram (visited ++ [i]) (after.put i { after.caller i with
      newListener := (after.caller i).newListener.copy datagram }) where
  requests := visits.requests
  masked := visits.masked
  queued := by
    intro proc
    by_cases same : proc = i
    · subst same
      simpa [put] using visits.queued proc
    · simpa [put, Function.update_of_ne same] using visits.queued proc
  caller := by
    intro proc
    by_cases same : proc = i
    · subst same
      have before := visits.caller proc
      rw [if_neg fun both => fresh both.1] at before
      simp only [put, Function.update_self, List.mem_append, List.mem_singleton, or_true, port,
        and_self, if_true]
      rw [before]
    · have others : proc ∈ visited ++ [i] ↔ proc ∈ visited := by simp [same]
      simp only [put, Function.update_of_ne same, others]
      exact visits.caller proc
  woken := by
    intro proc
    by_cases same : proc = i
    · subst same
      simpa [put] using visits.woken proc
    · simpa [put, Function.update_of_ne same] using visits.woken proc

theorem Visited.wakeup (visits : Visited s datagram visited after) :
    Visited s datagram visited after.wakeup where
  requests := visits.requests
  masked := visits.masked
  queued := by
    intro proc
    simp only [Receiver.wakeup, List.not_mem_nil, false_iff]
    split
    · simp
    · rename_i elsewhere
      exact fun asleep => elsewhere ((visits.queued proc).mpr asleep)
  caller := by
    intro proc
    simp only [Receiver.wakeup]
    split
    · rw [visits.caller proc]
    · exact visits.caller proc
  woken := by
    intro proc
    simp only [Receiver.wakeup]
    split
    · rename_i queued
      have asleep := (visits.queued proc).mp queued
      rcases visits.woken proc with same | ⟨_, waiting⟩
      · exact .inr ⟨same ▸ asleep, rfl⟩
      · rw [asleep] at waiting
        contradiction
    · exact visits.woken proc

theorem Visited.round (visits : Visited s datagram visited after) {i : Nat}
    (fresh : i ∉ visited) : Visited s datagram (visited ++ [i]) (rxListener datagram after i) := by
  have listener : (after.caller i).newListener = (s.caller i).newListener := by
    rw [visits.caller i, if_neg fun both => fresh both.1]
  simp only [rxListener]
  split
  · rename_i port
    rw [listener] at port
    exact (visits.copied fresh port).wakeup
  · rename_i other
    rw [listener] at other
    exact visits.passed other

/-- The whole loop, by induction on the listeners that are left. -/
theorem Visited.loop {rest : List Nat} (visits : Visited s datagram visited after)
    (nodup : (visited ++ rest).Nodup) :
    Visited s datagram (visited ++ rest) (rest.foldl (rxListener datagram) after) := by
  induction rest generalizing visited after with
  | nil => simpa using visits
  | cons i rest ih =>
      have fresh : i ∉ visited := fun member =>
        (List.disjoint_of_nodup_append nodup) member List.mem_cons_self
      have regroup : visited ++ i :: rest = visited ++ [i] ++ rest := by simp
      rw [regroup] at nodup ⊢
      exact ih (visits.round fresh) nodup

end Loop

theorem Sound.nodup (sound : s.Sound) : s.requests.Nodup :=
  .of_map _ sound.ports

/-- `udp_rx_packet` gives the datagram to the listener on its port, and to nobody else. -/
structure Gives (s : Receiver) (datagram : Datagram) (after : Receiver) : Prop where
  requests : after.requests = s.requests
  masked : after.masked = s.masked
  queued : ∀ proc, proc ∈ after.waitq ↔ (after.caller proc).place = .asleep
  taken : ∀ proc ∈ s.requests, s.portOf proc = datagram.dstPort → after.caller proc =
    { s.caller proc with
      place := (after.caller proc).place
      newListener := (s.caller proc).newListener.copy datagram
      arrived := (s.caller proc).arrived ++ datagram.payload }
  passed : ∀ proc, ¬(proc ∈ s.requests ∧ s.portOf proc = datagram.dstPort) →
    after.caller proc = { s.caller proc with place := (after.caller proc).place }
  woken : ∀ proc, (after.caller proc).place = (s.caller proc).place ∨
    ((s.caller proc).place = .asleep ∧ (after.caller proc).place = .waiting)

theorem gives_udpRxPacket (sound : s.Sound) (datagram : Datagram) :
    Gives s datagram (s.udpRxPacket datagram) := by
  have noted (proc : Nat) : (s.noteArrival datagram).caller proc =
      if proc ∈ s.requests ∧ s.portOf proc = datagram.dstPort then
        { s.caller proc with arrived := (s.caller proc).arrived ++ datagram.payload }
      else s.caller proc := rfl
  have place (proc : Nat) : ((s.noteArrival datagram).caller proc).place =
      (s.caller proc).place := by
    rw [noted]
    split
    · rfl
    · rfl
  have port (proc : Nat) : (s.noteArrival datagram).portOf proc = s.portOf proc := by
    rw [portOf, noted]
    split
    · rfl
    · rfl
  have begun : Visited (s.noteArrival datagram) datagram [] (s.noteArrival datagram) :=
    .start fun proc => by
      rw [place]
      exact sound.queued proc
  have visits : Visited (s.noteArrival datagram) datagram s.requests (s.udpRxPacket datagram) :=
    begun.loop sound.nodup
  constructor
  · exact visits.requests
  · exact visits.masked
  · exact visits.queued
  · intro proc member same
    have caller := visits.caller proc
    rw [port, if_pos ⟨member, same⟩, noted, if_pos ⟨member, same⟩] at caller
    exact caller
  · intro proc other
    have caller := visits.caller proc
    rw [port, if_neg other, noted, if_neg other] at caller
    exact caller
  · intro proc
    have woken := visits.woken proc
    rw [place] at woken
    exact woken

/-- One process moves on and keeps its listener. -/
theorem Sound.moved {proc : Nat} {cur : Caller} (sound : s.Sound)
    (caller : after.caller = Function.update s.caller proc cur)
    (listener : cur.newListener = (s.caller proc).newListener)
    (given : cur.given = (s.caller proc).given) (arrived : cur.arrived = (s.caller proc).arrived)
    (queued : ∀ other, other ∈ after.waitq ↔ (after.caller other).place = .asleep)
    (linked : ∀ other, other ∈ after.requests ↔ (after.caller other).place ≠ .idle)
    (fewer : after.requests.Sublist s.requests)
    (full : cur.place = .filled → cur.newListener.dstBufPtr = cur.newListener.dstBufSz) :
    after.Sound := by
  have kept (other : Nat) : (after.caller other).newListener = (s.caller other).newListener ∧
      (after.caller other).given = (s.caller other).given ∧
      (after.caller other).arrived = (s.caller other).arrived := by
    rw [caller]
    by_cases same : other = proc
    · subst same
      rw [Function.update_self]
      exact ⟨listener, given, arrived⟩
    · rw [Function.update_of_ne same]
      exact ⟨rfl, rfl, rfl⟩
  have ports : after.portOf = s.portOf := by
    funext other
    rw [portOf, (kept other).1, portOf]
  constructor
  · exact queued
  · exact linked
  · rw [ports]
    exact sound.ports.sublist (fewer.map _)
  · intro other member
    rcases kept other with ⟨sameListener, sameGiven, sameArrived⟩
    rw [sameListener, sameGiven, sameArrived]
    exact sound.holds other (fewer.subset member)
  · intro other place
    rw [caller] at place ⊢
    by_cases same : other = proc
    · subst same
      rw [Function.update_self] at place ⊢
      exact full place
    · rw [Function.update_of_ne same] at place ⊢
      exact sound.full other place
  · intro other i
    rcases kept other with ⟨sameListener, sameGiven, _⟩
    rw [sameListener, sameGiven]
    exact sound.untouched other i

theorem sound_start (caller : Nat → Caller) : (start caller).Sound where
  queued := fun _ => by simp [start]
  linked := fun _ => by simp [start]
  ports := List.nodup_nil
  holds := fun _ member => absurd member List.not_mem_nil
  full := fun _ place => by simp [start] at place
  untouched := fun _ _ _ => rfl

/-- A new listener has received nothing, and no other is on its port. -/
theorem Sound.registered {proc : Nat} {port : UInt16} {dstBuf : Bytes} {dstBufSz : UInt16}
    (sound : s.Sound) (place : (s.caller proc).place = .idle)
    (unused : ∀ i ∈ s.requests, s.portOf i ≠ port) :
    (s.register proc port dstBuf dstBufSz).Sound := by
  have fresh : proc ∉ s.requests := fun member => (sound.linked proc).mp member place
  have awake : proc ∉ s.waitq := by
    intro member
    rw [(sound.queued proc).mp member] at place
    contradiction
  have others {other : Nat} (member : other ∈ s.requests) : other ≠ proc := by
    rintro rfl
    exact fresh member
  constructor
  · intro other
    by_cases same : other = proc
    · subst same
      simp [register, put, awake]
    · simpa [register, put, Function.update_of_ne same] using sound.queued other
  · intro other
    by_cases same : other = proc
    · subst same
      simp [register, put, listAdd]
    · simpa [register, put, Function.update_of_ne same, listAdd, same] using sound.linked other
  · simp only [register, listAdd, List.map_cons, List.nodup_cons]
    constructor
    · intro twice
      rcases List.mem_map.mp twice with ⟨i, member, used⟩
      simp only [portOf, put, Function.update_of_ne (others member), Function.update_self] at used
      exact unused i member used
    · refine (congrArg List.Nodup (List.map_congr_left fun i member => ?_)).mpr sound.ports
      simp only [portOf, put, Function.update_of_ne (others member)]
  · intro other member
    by_cases same : other = proc
    · subst same
      simp only [register, put, Function.update_self]
      exact ⟨by simp, rfl, fun _ _ => rfl⟩
    · simp only [register, put, Function.update_of_ne same]
      exact sound.holds other ((List.mem_cons.mp member).resolve_left same)
  · intro other filled
    by_cases same : other = proc
    · subst same
      simp [register, put] at filled
    · simp only [register, put, Function.update_of_ne same] at filled ⊢
      exact sound.full other filled
  · intro other i
    by_cases same : other = proc
    · subst same
      simp [register, put]
    · simp only [register, put, Function.update_of_ne same]
      exact sound.untouched other i

theorem Sound.received (sound : s.Sound) (datagram : Datagram) :
    (s.udpRxPacket datagram).Sound := by
  have gives := gives_udpRxPacket sound datagram
  have places (proc : Nat) : ((s.udpRxPacket datagram).caller proc).place = .idle ↔
      (s.caller proc).place = .idle := by
    rcases gives.woken proc with same | ⟨asleep, waiting⟩
    · rw [same]
    · simp [asleep, waiting]
  have behind (proc : Nat) (place : ((s.udpRxPacket datagram).caller proc).place = .filled) :
      (s.caller proc).place = .filled := by
    rcases gives.woken proc with same | ⟨_, waiting⟩
    · exact same ▸ place
    · rw [place] at waiting
      contradiction
  have port (proc : Nat) : (s.udpRxPacket datagram).portOf proc = s.portOf proc := by
    by_cases ours : proc ∈ s.requests ∧ s.portOf proc = datagram.dstPort
    · rw [portOf, gives.taken proc ours.1 ours.2]
      rfl
    · rw [portOf, gives.passed proc ours]
      rfl
  constructor
  · exact gives.queued
  · intro proc
    rw [gives.requests, ne_eq, places]
    exact sound.linked proc
  · rw [gives.requests, funext port]
    exact sound.ports
  · intro proc member
    rw [gives.requests] at member
    by_cases ours : s.portOf proc = datagram.dstPort
    · rw [gives.taken proc member ours]
      exact (sound.holds proc member).copy datagram
    · rw [gives.passed proc fun both => ours both.2]
      exact sound.holds proc member
  · intro proc place
    have filled := behind proc place
    by_cases ours : proc ∈ s.requests ∧ s.portOf proc = datagram.dstPort
    · rw [gives.taken proc ours.1 ours.2]
      exact Listener.full_copy (sound.holds proc ours.1) (sound.full proc filled) datagram
    · rw [gives.passed proc ours]
      exact sound.full proc filled
  · intro proc i beyond
    by_cases ours : proc ∈ s.requests ∧ s.portOf proc = datagram.dstPort
    · rw [gives.taken proc ours.1 ours.2] at beyond ⊢
      exact ((sound.holds proc ours.1).copy datagram).untouched i beyond
    · rw [gives.passed proc ours] at beyond ⊢
      exact sound.untouched proc i beyond

/-- The mask has nothing to do with the listeners. -/
theorem Sound.masked (sound : s.Sound) (masked : Option Nat) : Sound { s with masked } :=
  ⟨sound.queued, sound.linked, sound.ports, sound.holds, sound.full, sound.untouched⟩

theorem Sound.steps {event : UdpEvent} (sound : s.Sound) (steps : Steps s event after) :
    after.Sound := by
  cases steps with
  | @refused proc _ _ _ place _ =>
      have same (other : Nat) : (Function.update s.caller proc { s.caller proc with
          result := some (-eInUse) } other).place = (s.caller other).place := by
        by_cases this : other = proc
        · subst this
          rw [Function.update_self]
        · rw [Function.update_of_ne this]
      refine sound.moved rfl rfl rfl rfl (fun other => ?_) (fun other => ?_) (.refl _)
        (sound.full proc)
      · exact (same other) ▸ sound.queued other
      · exact (same other) ▸ sound.linked other
  | registered place unused => exact sound.registered place unused
  | @filled proc place full =>
      refine sound.moved rfl rfl rfl rfl (fun other => ?_) (fun other => ?_) (.refl _)
        fun _ => full
      · by_cases same : other = proc
        · subst same
          simpa [put, place] using sound.queued other
        · simpa [put, Function.update_of_ne same] using sound.queued other
      · by_cases same : other = proc
        · subst same
          simpa [put, place] using sound.linked other
        · simpa [put, Function.update_of_ne same] using sound.linked other
  | @slept proc place =>
      refine sound.moved rfl rfl rfl rfl (fun other => ?_) (fun other => ?_) (.refl _)
        fun filled => by simp at filled
      · by_cases same : other = proc
        · subst same
          simp [put, listAdd]
        · simpa [put, Function.update_of_ne same, listAdd, same] using sound.queued other
      · by_cases same : other = proc
        · subst same
          simpa [put, place] using sound.linked other
        · simpa [put, Function.update_of_ne same] using sound.linked other
  | @returned proc place =>
      refine sound.moved rfl rfl rfl rfl (fun other => ?_) (fun other => ?_)
        List.erase_sublist fun filled => by simp at filled
      · by_cases same : other = proc
        · subst same
          simpa [put, place] using sound.queued other
        · simpa [put, Function.update_of_ne same] using sound.queued other
      · by_cases same : other = proc
        · subst same
          simp [put, listDel, sound.nodup.not_mem_erase]
        · simpa [put, Function.update_of_ne same, listDel, List.mem_erase_of_ne same] using
            sound.linked other
  | unmasked => exact sound.masked none
  | @received datagram => exact sound.received datagram

theorem Sound.step {event : UdpEvent} (sound : s.Sound)
    (taken : Receiver.step s event = some after) : after.Sound :=
  sound.steps (steps_of_step taken)

/-- Outside its masked sections, no two listeners are on one port, each has what has
arrived for it as far as it fits, and no byte behind a buffer is touched.  A process that
comes out of `udp_rx` returns the size of its buffer, which is full. -/
structure Receives (before after : Receiver) : Prop where
  ports : (after.requests.map after.portOf).Nodup
  holds : ∀ proc ∈ after.requests,
    (after.caller proc).newListener.Holds (after.caller proc).given (after.caller proc).arrived
  untouched : ∀ proc i, (after.caller proc).newListener.dstBufSz.toNat ≤ i →
    (after.caller proc).newListener.dstBuf i = (after.caller proc).given i
  returns : ∀ proc, (before.caller proc).place ≠ .idle → (after.caller proc).place = .idle →
    let listener := (after.caller proc).newListener
    (after.caller proc).result = some listener.dstBufSz.toNat ∧
      listener.dstBufSz.toNat ≤ (after.caller proc).arrived.length ∧
      bytesAt listener.dstBuf listener.dstBufSz.toNat =
        (after.caller proc).arrived.take listener.dstBufSz.toNat

/-- What `rx_task` does to the listeners in handling the datagram is what the receiver
does to them. -/
theorem udpRxPacket_refines (sound : s.Sound) (datagram : Datagram) (stack : Stack)
    (running : stack.stopped = false) (memory : stack.pkt.memory = datagram.memory)
    (curData : stack.pkt.curData = datagram.curData)
    (curDataLength : stack.pkt.curDataLength = datagram.curDataLength)
    (listeners : stack.tables.udpRxRequests =
      s.requests.map fun i => (s.caller i).newListener.view) :
    (Protocol.after Protocol.udpRxPacket stack).tables.udpRxRequests =
      (s.udpRxPacket datagram).requests.map fun i =>
        ((s.udpRxPacket datagram).caller i).newListener.view := by
  have gives := gives_udpRxPacket sound datagram
  have delivered := congrArg (fun result => result.1.udpRxRequests) (udp_delivers stack running)
  have payload : (Protocol.after Protocol.udpRxPacket stack).pkt.workedOn = datagram.payload := by
    rw [udp_workedOn, memory, curData, curDataLength]
    rfl
  change (Protocol.after Protocol.udpRxPacket stack).tables.udpRxRequests =
    udpAccepted (big16 stack.pkt.memory (stack.pkt.curData + 2)) _
      stack.tables.udpRxRequests at delivered
  rw [delivered, payload, memory, curData, listeners, udpAccepted, List.map_map, gives.requests]
  apply List.map_congr_left
  intro i member
  have size : UInt32.ofNat datagram.payload.length = datagram.payloadSz := by
    rw [datagram.length_payload]
    exact UInt32.ofNat_toNat
  by_cases ours : s.portOf i = datagram.dstPort
  · rw [gives.taken i member ours, Listener.view_copy (sound.holds i member).inside,
      Listener.copied, ← size]
    exact if_pos ours
  · rw [gives.passed i fun both => ours both.2]
    exact if_neg ours

end Step

end Receiver

end Lpc17xx.Udp
