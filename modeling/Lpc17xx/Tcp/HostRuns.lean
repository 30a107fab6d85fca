import Lpc17xx.Tcp.HostInvariant

/-!
# What segments and ticks do to a host

Three things that go wrong over whole runs.  A segment in `CLOSE_WAIT` stops the
machine, and so does one whose answer the heap has no room for.  A segment in
`TIME_WAIT` stops the timer that would free the TCB.  A timer that runs out in
`SYN_SENT` reaches neither the condition `tcp_connect` sleeps on nor the queue it
sleeps in.
-/

namespace Lpc17xx.Tcp

open Lpc17xx.Link
open Lpc17xx.Memory
open Lpc17xx.Transition

namespace Host

variable {H B : Type} [DecidableEq B] (mem : Allocator H B)

/-- `tcp_rx_packet` has returned. -/
def GoesOn (_ : Host) (_ : HostEvent H) (after : Host) : Prop :=
  after.stopped = false

/-- No segment is for a connection whose peer has closed and whose `tcp_close` has
not returned, and for each that is answered the heap has room for the answer, also after
what everybody else does to it meanwhile. -/
def LetsGoOn (s : Host) : HostEvent H → Prop
  | .rx segment heap =>
      (∀ t, selected s.tcbHead segment = some t → s.peerClosed t.addr = false) ∧
        (s.Answers segment → RoomForSegment mem heap)
  | _ => True

/-- Every timer of a TCB in `TIME_WAIT` is running and has not run for longer than
`TCP_TIMEOUT` ticks, and such a TCB leaves the list only on a tick, with both its
blocks freed once. -/
structure WaitEnds (before : Host) (event : HostEvent H) (after : Host) : Prop where
  running : ∀ t ∈ after.tcbHead, t.state = .timeWait →
    t.decrementTimeout = true ∧ after.quiet t.addr ≤ tcpTimeout.toNat
  removed : ∀ t ∈ before.tcbHead, t.state = .timeWait →
    (∃ t' ∈ after.tcbHead, t'.addr = t.addr ∧ t'.state = .timeWait) ∨
      event = .tick ∧ (∀ t' ∈ after.tcbHead, t'.addr ≠ t.addr) ∧
        .tcb t.addr ∈ after.freed ∧ .rxBuf t.addr ∈ after.freed ∧ after.freed.Nodup

/-- No segment is for a TCB in `TIME_WAIT`. -/
def HearsNoTimeWait (s : Host) : HostEvent H → Prop
  | .rx segment _ => ∀ t, selected s.tcbHead segment = some t → t.state ≠ .timeWait
  | _ => True

/-- A thread inside `tcp_connect` whose timer has run out is awake, and what it
waits for is true. -/
def Unblocked (_ : Host) (_ : HostEvent H) (after : Host) : Prop :=
  ∀ t ∈ after.tcbHead, (after.call t.addr).thread.Connecting → t.timedOut = true →
    t.state ≠ .synSent ∧ (after.call t.addr).asleep = false

/-- Every connection in `SYN_SENT` is answered within `TCP_TIMEOUT` ticks. -/
def AnsweredInTime (s : Host) : HostEvent H → Prop
  | .tick => ∀ t ∈ s.tcbHead, t.state = .synSent → s.quiet t.addr < tcpTimeout.toNat
  | _ => True

variable {mem}

section Trap

variable {s after : Host}

theorem selected_closeWait_iff (sound : s.Sound) {segment : Segment} {t : Tcb}
    (found : selected s.tcbHead segment = some t) :
    t.state = .closeWait ↔ s.peerClosed t.addr = true :=
  (sound.fits t (selected_mem found)).closeWait

/-- Everything but a segment lets the machine go on. -/
theorem stopped_eq_of_step {event : HostEvent H}
    (noSegment : ∀ segment heap, event ≠ .rx segment heap)
    (taken : step mem s event = some after) : after.stopped = false := by
  rcases step_eq_some taken with ⟨going, taken⟩
  cases event with
  | rx segment heap => exact absurd rfl (noSegment segment heap)
  | connect port ip block size =>
      cases taken
      exact going
  | listen port block size =>
      cases taken
      exact going
  | thread addr =>
      rcases threadStepped_of_step taken with ⟨t, _, _, stepped⟩
      cases stepped <;> exact going
  | txData addr data =>
      rcases Option.bind_eq_some_iff.mp taken with ⟨t, found, taken⟩
      rcases Option.map_eq_some_iff.mp taken with ⟨sent, transmitted, rfl⟩
      exact going
  | rxData addr len =>
      rcases Option.bind_eq_some_iff.mp taken with ⟨t, found, taken⟩
      rcases Option.map_eq_some_iff.mp taken with ⟨read, popped, rfl⟩
      exact going
  | close addr =>
      rcases close_eq_some taken with ⟨_, _, _, _, _, _, rfl⟩
      exact going
  | closeReturn addr =>
      rcases closeReturn_eq_some taken with ⟨_, _, _, _, _, rfl⟩
      exact going
  | tick =>
      cases taken
      exact going

/-- A segment stops the machine exactly when it is for a connection whose peer has
closed, or is to be answered without room for it. -/
theorem goesOn_rx_iff {segment : Segment} {heap : SharedHeap H} (sound : s.Sound)
    (taken : step mem s (.rx segment heap) = some after) :
    after.stopped = false ↔ s.LetsGoOn mem (.rx segment heap) := by
  rcases step_eq_some taken with ⟨going, taken⟩
  cases taken
  have received := received_rxPacket mem sound.distinct segment heap
  generalize s.rxPacket mem segment heap = after at received
  cases received with
  | nobody nobody room =>
      refine iff_of_true going ⟨?_, room⟩
      intro t found
      rw [nobody] at found
      contradiction
  | trapped found closeWait =>
      refine iff_of_false (by simp) ?_
      rintro ⟨open_, _⟩
      have peerClosed := (selected_closeWait_iff sound found).mp closeWait
      rw [open_ _ found] at peerClosed
      contradiction
  | exhausted answers short =>
      refine iff_of_false (by simp) ?_
      rintro ⟨_, room⟩
      exact short (room answers)
  | heard found open_ room =>
      refine iff_of_true going ⟨?_, room⟩
      intro u foundU
      cases found.symm.trans foundU
      apply eq_false_of_ne_true
      exact fun peerClosed => open_ ((selected_closeWait_iff sound found).mpr peerClosed)

end Trap

section Wait

variable {s after : Host}

/-- The timer of a TCB in `TIME_WAIT` is running. -/
def Counts (s : Host) : Prop :=
  ∀ t ∈ s.tcbHead, t.state = .timeWait → t.decrementTimeout = true

theorem counts_of_evolves {event : HostEvent H} {t : Tcb} {v : View}
    (counts : t.state = .timeWait → t.decrementTimeout = true)
    (hears : s.HearsNoTimeWait event) (evolves : Evolves s t event v) :
    v.tcb.state = .timeWait → v.tcb.decrementTimeout = true := by
  cases evolves with
  | unchanged => exact counts
  | moved _ => exact counts
  | slept _ => exact counts
  | woken => exact counts
  | @heard segment _ found _ =>
      intro timeWait
      obtain ⟨_, _, ⟨_, entered⟩ | ⟨armed, _⟩⟩ := after_timer (t := t) segment
      · exact absurd (entered timeWait) (hears t found)
      · exact armed
  | sent => exact counts
  | read => exact counts
  | closing _ _ => exact counts
  | @closed _ thread _ => cases thread <;> rintro ⟨⟩
  | ticked ticked =>
      rcases tickTcb_eq_some ticked with ⟨_, rfl⟩ | ⟨armed, _, rfl⟩ | ⟨_, other, rfl⟩
      · exact counts
      · exact fun _ => armed
      · exact fun timeWait => absurd timeWait other

theorem Counts.step {event : HostEvent H} (counts : s.Counts) (sound : s.Sound)
    (hears : s.HearsNoTimeWait event) (taken : Host.step mem s event = some after) :
    after.Counts := by
  intro t' member
  rcases evolves_of_step sound.distinct sound.created taken member with created | evolved
  · generalize view : after.view t' = v at created
    have here : t' = v.tcb := congrArg View.tcb view
    rw [here]
    cases created <;> rintro ⟨⟩
  · rcases evolved with ⟨t, tMember, _, evolves⟩
    exact counts_of_evolves (counts t tMember) hears evolves

/-- A TCB that stays on the list stays in `TIME_WAIT`. -/
theorem timeWait_of_evolves {event : HostEvent H} {t : Tcb} {v : View} (sound : s.Sound)
    (member : t ∈ s.tcbHead) (timeWait : t.state = .timeWait) (evolves : Evolves s t event v) :
    v.tcb.state = .timeWait := by
  cases evolves with
  | unchanged => exact timeWait
  | moved _ => exact timeWait
  | slept _ => exact timeWait
  | woken => exact timeWait
  | @heard segment _ _ _ =>
      change (t.after segment).state = .timeWait
      rw [after_eq_disarm segment (.inr (.inr timeWait))]
      exact timeWait
  | sent => exact timeWait
  | read => exact timeWait
  | closing _ _ => exact timeWait
  | closed closing =>
      have state := ((sound.fits t member).closing
        (Option.isSome_iff_exists.mpr ⟨_, closing⟩)).2
      change t.state = _ ∨ t.state = _ at state
      simp [timeWait] at state
  | ticked ticked => exact (tickTcb_frame ticked).2.1.trans timeWait

/-- What a segment leaves of the TCB it is for, when it is not answered. -/
theorem mem_after_of_selected {segment : Segment} {heap : SharedHeap H} {t : Tcb} (sound : s.Sound)
    (found : selected s.tcbHead segment = some t) (open_ : t.state ≠ .closeWait)
    (silent : ¬t.Answers segment) (taken : Host.step mem s (.rx segment heap) = some after) :
    t.after segment ∈ after.tcbHead := by
  rcases step_eq_some taken with ⟨_, taken⟩
  cases taken
  have received := received_rxPacket mem sound.distinct segment heap
  generalize s.rxPacket mem segment heap = after at received
  cases received with
  | nobody nobody _ =>
      rw [nobody] at found
      contradiction
  | trapped trapped closeWait =>
      cases found.symm.trans trapped
      exact absurd closeWait open_
  | exhausted answers _ =>
      rw [Answers, found] at answers
      exact absurd answers silent
  | heard heard _ _ =>
      cases found.symm.trans heard
      exact mem_store_self (selected_mem found) (after_addr segment).symm

/-- `TIME_WAIT` ends as long as no segment arrives for it. -/
theorem waitEnds_iff {event : HostEvent H} (sound : s.Sound) (counts : s.Counts)
    (taken : Host.step mem s event = some after) :
    WaitEnds s event after ↔ s.HearsNoTimeWait event := by
  have soundAfter := sound.step taken
  constructor
  · intro ends
    cases event with
    | rx segment heap =>
        intro t found timeWait
        have open_ : t.state ≠ .closeWait := by
          rw [timeWait]
          decide
        have silent : ¬t.Answers segment := by
          rw [Tcb.Answers, timeWait]
          exact id
        have member := mem_after_of_selected sound found open_ silent taken
        rw [after_eq_disarm segment (.inr (.inr timeWait))] at member
        have armed := (ends.running t.disarm member timeWait).1
        contradiction
    | _ => trivial
  · intro hears
    have countsAfter := counts.step sound hears taken
    constructor
    · intro t member timeWait
      have armed := countsAfter t member timeWait
      have count := (soundAfter.fits t member).timer armed
      exact ⟨armed, count ▸ Nat.le_add_right _ _⟩
    · intro t member timeWait
      rcases sound.timeWait_after taken member timeWait with stays | gone
      · rcases stays with ⟨t', member', same, evolves⟩
        exact .inl ⟨t', member', same, timeWait_of_evolves sound member timeWait evolves⟩
      · rcases gone with ⟨rfl, _, tcb, rxBuf⟩
        exact .inr ⟨rfl, (soundAfter.freed _ tcb).2, tcb, rxBuf, soundAfter.freedOnce⟩

end Wait

section Connect

variable {s after : Host}

/-- The timer of a connection that `tcp_connect` waits for has not run out. -/
def Hopes (v : View) : Prop :=
  v.call.thread.Connecting →
    v.tcb.timedOut = false ∧ (v.tcb.state = .synSent → v.tcb.decrementTimeout = true)

def Hopeful (s : Host) : Prop :=
  ∀ t ∈ s.tcbHead, Hopes (s.view t)

theorem hopes_of_ticked {t t' : Tcb} (fits : (s.view t).Fits) (hopes : Hopes (s.view t))
    (answered : t.state = .synSent → s.quiet t.addr < tcpTimeout.toNat)
    (ticked : tickTcb t = some t') :
    Hopes { s.view t with tcb := t', quiet := s.quiet t.addr + 1 } := by
  intro connecting
  rcases hopes connecting with ⟨notTimedOut, counts⟩
  rcases tickTcb_eq_some ticked with ⟨_, rfl⟩ | ⟨_, _, rfl⟩ | ⟨expires, other, rfl⟩
  · exact ⟨notTimedOut, counts⟩
  · exact ⟨notTimedOut, counts⟩
  · rcases fits.armed expires.1 with synSent | timeWait
    · have early := answered synSent
      have count : s.quiet t.addr + t.timeout.toNat = tcpTimeout.toNat := fits.timer expires.1
      rw [expires.2] at count
      exact absurd count (Nat.ne_of_lt early)
    · exact absurd timeWait other

theorem hopes_of_evolves {event : HostEvent H} {t : Tcb} {v : View} (sound : s.Sound)
    (member : t ∈ s.tcbHead) (hopes : Hopes (s.view t)) (answered : s.AnsweredInTime event)
    (evolves : Evolves s t event v) : Hopes v := by
  have fits := sound.fits t member
  cases evolves with
  | unchanged => exact hopes
  | moved moves => exact fun connecting => hopes (moves.connecting connecting)
  | slept _ => exact hopes
  | woken => exact hopes
  | @heard segment _ _ _ =>
      obtain ⟨_, notTimedOut, _⟩ := after_timer (t := t) segment
      exact fun _ => ⟨notTimedOut, fun synSent => absurd synSent (after_ne_synSent segment)⟩
  | sent => exact hopes
  | read => exact hopes
  | closing _ _ => exact hopes
  | closed closing =>
      intro connecting
      have returned := (fits.closing (Option.isSome_iff_exists.mpr ⟨_, closing⟩)).1
      change (s.call t.addr).thread = .returned true at returned
      change (s.call t.addr).thread.Connecting at connecting
      rw [returned] at connecting
      exact connecting.elim
  | ticked ticked => exact hopes_of_ticked fits hopes (answered t member) ticked

theorem Hopeful.step {event : HostEvent H} (hopeful : s.Hopeful) (sound : s.Sound)
    (answered : s.AnsweredInTime event) (taken : Host.step mem s event = some after) :
    after.Hopeful := by
  intro t' member
  rcases evolves_of_step sound.distinct sound.created taken member with created | evolved
  · generalize after.view t' = v at created
    intro connecting
    cases created with
    | connect => exact ⟨rfl, fun _ => rfl⟩
    | listen => exact connecting.elim
  · rcases evolved with ⟨t, tMember, _, evolves⟩
    exact hopes_of_evolves sound tMember (hopeful t tMember) answered evolves

/-- A tick on which the timer of a `tcp_connect` runs out leaves it blocked. -/
theorem not_unblocked_of_expires {t : Tcb} (sound : s.Sound) (member : t ∈ s.tcbHead)
    (synSent : t.state = .synSent) (expires : t.Expires)
    (taken : Host.step mem s .tick = some after) : ¬Unblocked (H := H) s .tick after := by
  intro unblocked
  rcases step_eq_some taken with ⟨_, taken⟩
  cases taken
  have other : t.state ≠ .timeWait := by
    rw [synSent]
    decide
  have ticked := tickTcb_of_expires expires other
  have stays := List.mem_filterMap.mpr ⟨t, member, ticked⟩
  have connecting : (s.call t.addr).thread.Connecting := (sound.fits t member).synSent synSent
  exact (unblocked _ stays connecting rfl).1 synSent

theorem unblocked_iff {event : HostEvent H} (sound : s.Sound) (hopeful : s.Hopeful)
    (taken : Host.step mem s event = some after) :
    Unblocked s event after ↔ s.AnsweredInTime event := by
  constructor
  · intro unblocked
    cases event with
    | tick =>
        intro t member synSent
        by_contra late
        have connecting : (s.call t.addr).thread.Connecting := (sound.fits t member).synSent synSent
        have armed : t.decrementTimeout = true := (hopeful t member connecting).2 synSent
        have count : s.quiet t.addr + t.timeout.toNat = tcpTimeout.toNat :=
          (sound.fits t member).timer armed
        have zero : t.timeout = 0 := by
          apply UInt16.toNat_inj.mp
          change t.timeout.toNat = 0
          omega
        exact not_unblocked_of_expires sound member synSent ⟨armed, zero⟩ taken unblocked
    | _ => trivial
  · intro answered t member connecting timedOut
    have hopefulAfter := hopeful.step sound answered taken
    have notTimedOut : t.timedOut = false := (hopefulAfter t member connecting).1
    rw [notTimedOut] at timedOut
    contradiction

/-- A connection in `SYN_SENT`, with the number of ticks that its timer has left. -/
structure Dials (t : Tcb) (left : Nat) (s : Host) : Prop where
  sound : s.Sound
  going : s.stopped = false
  member : t ∈ s.tcbHead
  synSent : t.state = .synSent
  armed : t.decrementTimeout = true
  left : t.timeout.toNat = left

theorem Dials.step {t : Tcb} {left : Nat} (dials : Dials t left s) :
    Host.step mem s .tick = some s.tick := by
  simp [Host.step, dials.going, act]

theorem Dials.tick {t : Tcb} {left : Nat} (dials : Dials t (left + 1) s) :
    Dials { t with timeout := t.timeout - 1 } left s.tick := by
  rcases tickTcb_of_left dials.armed dials.left with ⟨ticked, less⟩
  constructor
  · have stepped : Host.step Allocator.counting s .tick = some s.tick := dials.step
    exact dials.sound.step stepped
  · exact dials.going
  · exact List.mem_filterMap.mpr ⟨t, dials.member, ticked⟩
  · exact dials.synSent
  · exact dials.armed
  · exact less

/-- Whatever else is on the list, a connection in `SYN_SENT` that hears nothing
leaves its `tcp_connect` blocked after as many ticks as its timer has left. -/
theorem blocked_after_ticks {t : Tcb} {ticks : Nat} (dials : Dials t ticks s) :
    ¬Along (Host.step mem) Unblocked s (List.replicate (ticks + 1) .tick) := by
  have counts (left : Nat) (s : Host) (dials : ∃ t, Dials t (left + 1) s) :
      ∃ after, Host.step mem s .tick = some after ∧ ∃ t, Dials t left after := by
    rcases dials with ⟨t, dials⟩
    exact ⟨_, dials.step, _, dials.tick⟩
  have expires (s : Host) (dials : ∃ t, Dials t 0 s) :
      ∃ after, Host.step mem s .tick = some after ∧ ¬Unblocked (H := H) s .tick after := by
    rcases dials with ⟨t, dials⟩
    have zero : t.timeout = 0 := UInt16.toNat_inj.mp dials.left
    have stepped : Host.step mem s .tick = some s.tick := dials.step
    exact ⟨_, stepped, not_unblocked_of_expires dials.sound dials.member dials.synSent
      ⟨dials.armed, zero⟩ stepped⟩
  exact @not_along_replicate _ _ _ _ (fun left s => ∃ t, Dials t left s) _ counts expires _ _
    ⟨t, dials⟩

end Connect

end Host

/-- The call of `tcp_connect` that `main` makes. -/
def mainConnect {H : Type} : HostEvent H :=
  .connect 5757 0xc0a80476 (List.replicate 127 0) length_clearedBlock

/-- The SYN+ACK of the peer of `main`. -/
def mainPeerSynAck : Segment :=
  let segment := mainPeerSegment 1024 1025 []
  { segment with header := { segment.header with syn := true } }

/-- The call of `main` is answered and returns. -/
def mainConnected : List (HostEvent (List Nat)) :=
  [mainConnect, .thread 0, .rx mainPeerSynAck (.alone []), .thread 0]

/-- Along every run of a host the machine goes on exactly as long as no segment
arrives for a connection whose peer has closed and whose `tcp_close` has not
returned, and the heap has room for the answer to each segment that is answered. -/
theorem host_goesOn_iff {H B : Type} [DecidableEq B] (mem : Allocator H B)
    (events : List (HostEvent H)) :
    Along (Host.step mem) Host.GoesOn Host.start events ↔
      Guarded (Host.step mem) (Host.LetsGoOn mem) Host.start events := by
  apply along_iff_guarded _ _ Host.Sound.start
  · intro s event after sound _ taken
    exact sound.step taken
  · intro s event after sound taken
    by_cases isSegment : ∃ segment heap, event = .rx segment heap
    · rcases isSegment with ⟨segment, heap, rfl⟩
      exact Host.goesOn_rx_iff sound taken
    · have noSegment : ∀ segment heap, event ≠ .rx segment heap :=
        fun segment heap isRx => isSegment ⟨segment, heap, isRx⟩
      refine iff_of_true (Host.stopped_eq_of_step noSegment taken) ?_
      cases event with
      | rx segment heap => exact absurd rfl (noSegment segment heap)
      | _ => trivial

/-- The acknowledgement behind the peer's FIN stops the machine. -/
theorem host_stopped_behind_fin :
    ¬Along (Host.step .counting) Host.GoesOn Host.start
        (mainConnected ++ [.rx (mainPeerFin 1025 1025) (.alone []),
          .rx (mainPeerAck 1025) (.alone [])]) := by
  intro along
  rcases along.drop 5 rfl _ rfl with ⟨goesOn, _⟩
  contradiction

/-- Along every run of a host `TIME_WAIT` ends, after at most `TCP_TIMEOUT` ticks
and with both blocks of the TCB freed once, exactly as long as no segment arrives
for a TCB in `TIME_WAIT`. -/
theorem host_timeWait_ends_iff {H B : Type} [DecidableEq B] (mem : Allocator H B)
    (events : List (HostEvent H)) :
    Along (Host.step mem) Host.WaitEnds Host.start events ↔
      Guarded (Host.step mem) Host.HearsNoTimeWait Host.start events := by
  have initial : Host.start.Sound ∧ Host.start.Counts := by
    refine ⟨Host.Sound.start, ?_⟩
    intro t member
    cases member
  apply @along_iff_guarded _ _ _ (fun s => s.Sound ∧ s.Counts) _ _ _ _ _ _ initial
  · rintro s event after ⟨sound, counts⟩ hears taken
    exact ⟨sound.step taken, counts.step sound hears taken⟩
  · rintro s event after ⟨sound, counts⟩ taken
    exact Host.waitEnds_iff sound counts taken

/-- The peer's FIN, sent once more, stops the timer of `TIME_WAIT`. -/
theorem host_timeWait_kept_by_fin :
    ¬Along (Host.step .counting) Host.WaitEnds Host.start
        (mainConnected ++ [.close 0, .closeReturn 0, .rx (mainPeerFin 1025 1026) (.alone []),
          .rx (mainPeerFin 1025 1026) (.alone [])]) := by
  intro along
  rcases along.drop 7 rfl _ rfl with ⟨ends, _⟩
  have armed := (ends.running _ (List.mem_singleton.mpr rfl) rfl).1
  contradiction

/-- Along every run of a host no thread is left blocked in `tcp_connect` behind a
timer that has run out exactly as long as every connection in `SYN_SENT` is
answered in time. -/
theorem host_connect_unblocked_iff {H B : Type} [DecidableEq B] (mem : Allocator H B)
    (events : List (HostEvent H)) :
    Along (Host.step mem) Host.Unblocked Host.start events ↔
      Guarded (Host.step mem) Host.AnsweredInTime Host.start events := by
  have initial : Host.start.Sound ∧ Host.start.Hopeful := by
    refine ⟨Host.Sound.start, ?_⟩
    intro t member
    cases member
  apply @along_iff_guarded _ _ _ (fun s => s.Sound ∧ s.Hopeful) _ _ _ _ _ _ initial
  · rintro s event after ⟨sound, hopeful⟩ answered taken
    exact ⟨sound.step taken, hopeful.step sound answered taken⟩
  · rintro s event after ⟨sound, hopeful⟩ taken
    exact Host.unblocked_iff sound hopeful taken

/-- The call of `main` sleeps and hears nothing for 251 ticks. -/
theorem host_connect_blocked :
    ¬Along (Host.step .counting) Host.Unblocked Host.start
        ([mainConnect, .thread 0, .thread 0] ++ List.replicate 251 .tick) := by
  intro along
  have linked := @Host.Sound.step _ _ _ Allocator.counting _ _ mainConnect Host.Sound.start rfl
  rcases along _ rfl with ⟨_, along⟩
  have transmitted := @Host.Sound.step _ _ _ Allocator.counting _ _ (.thread 0) linked rfl
  rcases along _ rfl with ⟨_, along⟩
  have asleep := @Host.Sound.step _ _ _ Allocator.counting _ _ (.thread 0) transmitted rfl
  rcases along _ rfl with ⟨_, along⟩
  exact Host.blocked_after_ticks ⟨asleep, rfl, List.mem_singleton.mpr rfl, rfl, rfl, rfl⟩ along

end Lpc17xx.Tcp
