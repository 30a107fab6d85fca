import Lpc17xx.Tcp.Host

/-!
# The invariant of a host

What holds of every connection in every reachable state of a host, and what
holds of the list: no two TCBs share an address, and no heap block is freed
twice or while its TCB is linked.
-/

namespace Lpc17xx.Tcp

open Lpc17xx.Link
open Lpc17xx.Memory
open Lpc17xx.Transition

/-- What holds of every connection.  A running timer counts the ticks since the
connection was last heard of. -/
structure View.Fits (v : View) : Prop where
  timer : v.tcb.decrementTimeout = true → v.quiet + v.tcb.timeout.toNat = tcpTimeout.toNat
  armed : v.tcb.decrementTimeout = true → v.tcb.state = .synSent ∨ v.tcb.state = .timeWait
  closeWait : v.tcb.state = .closeWait ↔ v.peerClosed = true
  closing : v.call.closing.isSome → v.call.thread = .returned true ∧
    (v.tcb.state = .established ∨ v.tcb.state = .closeWait)
  connecting : v.call.thread.Connecting → v.tcb.state = .synSent ∨ v.tcb.state = .established ∨
    v.tcb.state = .closed ∨ v.tcb.state = .closeWait
  synSent : v.tcb.state = .synSent → v.call.thread.Connecting

namespace Host

variable {H B : Type} [DecidableEq B] {mem : Allocator H B}

section Fits

variable {s : Host} {t : Tcb}

theorem fits_of_created {event : HostEvent H} {v : View} (created : Created s event v) :
    v.Fits := by
  cases created with
  | connect =>
      exact ⟨fun _ => rfl, fun _ => .inl rfl, by simp [tcpConnectTcb], by simp,
        fun _ => .inl rfl, fun _ => trivial⟩
  | listen =>
      exact ⟨by simp [tcpListenTcb], by simp [tcpListenTcb], by simp [tcpListenTcb], by simp,
        fun connecting => connecting.elim, by simp [tcpListenTcb]⟩

theorem Created.addr {event : HostEvent H} {v : View} (created : Created s event v) :
    v.tcb.addr = s.created := by
  cases created <;> rfl

/-- A segment for the connection. -/
theorem fits_of_heard {segment : Segment} (fits : (s.view t).Fits) (open_ : t.state ≠ .closeWait) :
    View.Fits
      { tcb := t.after segment
        call := { s.call t.addr with asleep := false }
        quiet := 0
        peerClosed := s.peerClosed t.addr || t.state = .established && segment.header.fin } := by
  obtain ⟨_, _, timer⟩ := after_timer (t := t) segment
  have notClosed : s.peerClosed t.addr = false := by
    apply eq_false_of_ne_true
    exact fun peerClosed => open_ (fits.closeWait.mpr peerClosed)
  refine ⟨?_, ?_, ?_, ?_, ?_, ?_⟩
  · intro armed
    rcases timer with ⟨idle, _⟩ | ⟨_, timeout, _⟩
    · exact absurd (idle.symm.trans armed) Bool.false_ne_true
    · simp [timeout]
  · intro armed
    rcases timer with ⟨idle, _⟩ | ⟨_, _, timeWait⟩
    · exact absurd (idle.symm.trans armed) Bool.false_ne_true
    · exact .inr timeWait
  · simp [after_closeWait_iff, open_, notClosed]
  · intro closing
    rcases fits.closing closing with ⟨returned, established | closeWait⟩
    · exact ⟨returned, after_state_of_established segment established⟩
    · exact absurd closeWait open_
  · intro connecting
    rcases fits.connecting connecting with synSent | established | closed | closeWait
    · rcases after_state_of_synSent segment synSent with next | next
      · exact .inr (.inl next)
      · exact .inr (.inr (.inl next))
    · rcases after_state_of_established segment established with next | next
      · exact .inr (.inl next)
      · exact .inr (.inr (.inr next))
    · refine .inr (.inr (.inl ?_))
      have ignored : t.after segment = t.disarm := after_eq_disarm segment (.inl closed)
      change (t.after segment).state = .closed
      rw [ignored]
      exact closed
    · exact absurd closeWait open_
  · exact fun synSent => absurd synSent (after_ne_synSent segment)

/-- A step of the thread inside `tcp_connect` or `tcp_listen`. -/
theorem fits_of_moved {next : OpeningThread} {sent : Option TcpTx} (fits : (s.view t).Fits)
    (moves : OpeningThread.Moves t (s.call t.addr).thread next sent) :
    View.Fits { s.view t with call := { s.call t.addr with thread := next } } := by
  have inside : ∀ success, (s.call t.addr).thread ≠ .returned success := by
    intro success returned
    rw [returned] at moves
    cases moves
  refine ⟨fits.timer, fits.armed, fits.closeWait, ?_, ?_, ?_⟩
  · exact fun closing => absurd (fits.closing closing).1 (inside true)
  · exact fun connecting => fits.connecting (moves.connecting connecting)
  · intro synSent
    have connecting : (s.call t.addr).thread.Connecting := fits.synSent synSent
    have here : t.state = .synSent := synSent
    change next.Connecting
    generalize (s.call t.addr).thread = thread at *
    cases moves with
    | synSent syn => trivial
    | connectReturns answered => exact absurd here answered
    | woken _ => exact connecting
    | prepared => exact connecting
    | synAckSent synAck => exact connecting
    | listenReturns _ => exact connecting

/-- The return of a `tcp_close`, which finds the timer stopped. -/
theorem fits_of_closed {thread : ClosingThread} (fits : (s.view t).Fits)
    (closing : (s.call t.addr).closing = some thread) :
    View.Fits
      { s.view t with
        tcb := tcpCloseReturn t thread
        call := { s.call t.addr with closing := none }
        peerClosed := false } := by
  rcases fits.closing (Option.isSome_iff_exists.mpr ⟨thread, closing⟩) with ⟨returned, state⟩
  have here : t.state = .established ∨ t.state = .closeWait := state
  have returnedHere : (s.call t.addr).thread = .returned true := returned
  have idle : t.decrementTimeout ≠ true := by
    intro armed
    rcases fits.armed armed with synSent | timeWait
    · change t.state = .synSent at synSent
      simp [synSent] at here
    · change t.state = .timeWait at timeWait
      simp [timeWait] at here
  have notConnecting : ¬(s.call t.addr).thread.Connecting := by
    rw [returnedHere]
    exact id
  cases thread with
  | lastAck =>
      exact ⟨fun armed => absurd armed idle, fun armed => absurd armed idle,
        by simp [tcpCloseReturn], by simp, fun connecting => absurd connecting notConnecting,
        by simp [tcpCloseReturn]⟩
  | finWait1 =>
      exact ⟨fun armed => absurd armed idle, fun armed => absurd armed idle,
        by simp [tcpCloseReturn], by simp, fun connecting => absurd connecting notConnecting,
        by simp [tcpCloseReturn]⟩

/-- A tick that leaves the TCB on the list. -/
theorem fits_of_ticked {after : Tcb} (fits : (s.view t).Fits) (ticked : tickTcb t = some after) :
    View.Fits { s.view t with tcb := after, quiet := s.quiet t.addr + 1 } := by
  rcases tickTcb_eq_some ticked with ⟨idle, rfl⟩ | ⟨armed, running, rfl⟩ | ⟨_, _, rfl⟩
  · refine ⟨?_, fits.armed, fits.closeWait, fits.closing, fits.connecting, fits.synSent⟩
    exact fun armed => absurd (idle.symm.trans armed) Bool.false_ne_true
  · refine ⟨?_, fits.armed, fits.closeWait, fits.closing, fits.connecting, fits.synSent⟩
    intro _
    have count : s.quiet t.addr + t.timeout.toNat = tcpTimeout.toNat := fits.timer armed
    have positive : t.timeout.toNat ≠ 0 := fun zero => running (UInt16.toNat_inj.mp zero)
    have one : (1 : UInt16) ≤ t.timeout := by
      rw [UInt16.le_iff_toNat_le]
      exact Nat.one_le_iff_ne_zero.mpr positive
    change s.quiet t.addr + 1 + (t.timeout - 1).toNat = tcpTimeout.toNat
    rw [UInt16.toNat_sub_of_le _ _ one]
    simp only [UInt16.toNat_ofNat] at *
    omega
  · exact ⟨by simp, by simp, fits.closeWait, fits.closing, fits.connecting, fits.synSent⟩

/-- Whatever a connection evolves into fits. -/
theorem fits_of_evolves {event : HostEvent H} {v : View} (fits : (s.view t).Fits)
    (evolves : Evolves s t event v) : v.Fits := by
  cases evolves with
  | unchanged => exact fits
  | moved moves => exact fits_of_moved fits moves
  | slept _ =>
      exact ⟨fits.timer, fits.armed, fits.closeWait, fits.closing, fits.connecting, fits.synSent⟩
  | woken =>
      exact ⟨fits.timer, fits.armed, fits.closeWait, fits.closing, fits.connecting, fits.synSent⟩
  | heard _ open_ => exact fits_of_heard fits open_
  | sent =>
      exact ⟨fits.timer, fits.armed, fits.closeWait, fits.closing, fits.connecting, fits.synSent⟩
  | read =>
      exact ⟨fits.timer, fits.armed, fits.closeWait, fits.closing, fits.connecting, fits.synSent⟩
  | closing returned state =>
      exact ⟨fits.timer, fits.armed, fits.closeWait, fun _ => ⟨returned, state⟩, fits.connecting,
        fits.synSent⟩
  | closed closing => exact fits_of_closed fits closing
  | ticked ticked => exact fits_of_ticked fits ticked

end Fits

/-- What holds of the list: addresses are used once, and a block that was freed
belongs to no linked TCB. -/
structure Sound (s : Host) : Prop where
  distinct : (s.tcbHead.map Tcb.addr).Nodup
  created : ∀ t ∈ s.tcbHead, t.addr < s.created
  fits : ∀ t ∈ s.tcbHead, (s.view t).Fits
  freedOnce : s.freed.Nodup
  freed : ∀ block ∈ s.freed, block.addr < s.created ∧ ∀ t ∈ s.tcbHead, t.addr ≠ block.addr

theorem Sound.start : start.Sound where
  distinct := List.nodup_nil
  created := by
    intro t member
    cases member
  fits := by
    intro t member
    cases member
  freedOnce := List.nodup_nil
  freed := by
    intro block member
    cases member

/-- What a step does to the list of TCBs and to the heap. -/
inductive Relisted (s : Host) : HostEvent H → Host → Prop
  | kept {event : HostEvent H} {after : Host} :
      after.tcbHead.map Tcb.addr = s.tcbHead.map Tcb.addr →
      after.created = s.created → after.freed = s.freed → Relisted s event after
  | linked {event : HostEvent H} (new : Tcb) (thread : OpeningThread) : new.addr = s.created →
      Relisted s event (s.link new thread)
  | failed {addr : Nat} (t : Tcb) {after : Host} : t ∈ s.tcbHead → t.addr = addr →
      t.state ≠ .timeWait →
      after.tcbHead = remove Tcb.addr addr s.tcbHead → after.created = s.created →
      after.freed = s.freed ++ [.tcb addr] → Relisted s (.thread addr) after
  | ticked : Relisted s .tick s.tick

section Relisted

variable {s after : Host} {event : HostEvent H}

theorem relisted_of_received {segment : Segment} {heap : SharedHeap H}
    (received : Received mem s segment heap after) : Relisted s (.rx segment heap) after := by
  cases received with
  | nobody _ _ => exact .kept rfl rfl rfl
  | trapped _ _ => exact .kept rfl rfl rfl
  | exhausted _ _ => exact .kept rfl rfl rfl
  | heard _ _ _ => exact .kept (map_store _ _) rfl rfl

theorem relisted_of_step (sound : s.Sound) (taken : step mem s event = some after) :
    Relisted s event after := by
  rcases step_eq_some taken with ⟨_, taken⟩
  cases event with
  | connect port ip block size =>
      cases taken
      exact .linked _ _ rfl
  | listen port block size =>
      cases taken
      exact .linked _ _ rfl
  | thread addr =>
      rcases threadStepped_of_step taken with ⟨t, member, same, stepped⟩
      cases stepped with
      | moved _ _ => exact .kept rfl rfl rfl
      | slept _ => exact .kept rfl rfl rfl
      | failed waiting _ _ =>
          refine .failed t member same ?_ rfl rfl rfl
          intro timeWait
          have connecting : (s.view t).call.thread.Connecting := by
            change (s.call t.addr).thread.Connecting
            rw [same, waiting]
            trivial
          have early := (sound.fits t member).connecting connecting
          change t.state = _ ∨ t.state = _ ∨ t.state = _ ∨ t.state = _ at early
          simp [timeWait] at early
  | rx segment heap =>
      cases taken
      exact relisted_of_received (received_rxPacket mem sound.distinct segment heap)
  | txData addr data =>
      rcases Option.bind_eq_some_iff.mp taken with ⟨t, found, taken⟩
      rcases Option.map_eq_some_iff.mp taken with ⟨sent, transmitted, rfl⟩
      exact .kept (map_store _ _) rfl rfl
  | rxData addr len =>
      rcases Option.bind_eq_some_iff.mp taken with ⟨t, found, taken⟩
      rcases Option.map_eq_some_iff.mp taken with ⟨read, popped, rfl⟩
      exact .kept (map_store _ _) rfl rfl
  | close addr =>
      rcases close_eq_some taken with ⟨_, _, _, _, _, _, rfl⟩
      exact .kept rfl rfl rfl
  | closeReturn addr =>
      rcases closeReturn_eq_some taken with ⟨_, _, _, _, _, rfl⟩
      exact .kept (map_store _ _) rfl rfl
  | tick =>
      cases taken
      exact .ticked

theorem mem_tickTcbFreed {t : Tcb} {block : Block} (member : block ∈ tickTcbFreed t) :
    tickTcb t = none ∧ block.addr = t.addr := by
  unfold tickTcbFreed at member
  split at member
  · rename_i removed
    refine ⟨Option.isNone_iff_eq_none.mp removed, ?_⟩
    rcases List.mem_cons.mp member with rfl | member
    · rfl
    · cases List.mem_singleton.mp member
      rfl
  · cases member

/-- What a tick leaves on the list was there before, under the same address. -/
theorem addr_of_mem_tick {t' : Tcb} (member : t' ∈ s.tick.tcbHead) :
    ∃ t ∈ s.tcbHead, tickTcb t = some t' ∧ t'.addr = t.addr := by
  rcases List.mem_filterMap.mp member with ⟨t, tMember, ticked⟩
  exact ⟨t, tMember, ticked, (tickTcb_frame ticked).1⟩

theorem sublist_addr_tick (tcbHead : List Tcb) :
    ((tcpTick tcbHead).map Tcb.addr).Sublist (tcbHead.map Tcb.addr) := by
  induction tcbHead with
  | nil => exact .slnil
  | cons t rest ih =>
      cases ticked : tickTcb t with
      | none =>
          rw [tcpTick, List.filterMap_cons_none ticked]
          exact ih.cons _
      | some after =>
          rw [tcpTick, List.filterMap_cons_some ticked, List.map_cons, List.map_cons,
            (tickTcb_frame ticked).1]
          exact ih.cons_cons _

/-- A tick frees no block twice. -/
theorem nodup_tick_freed {tcbHead : List Tcb} (distinct : (tcbHead.map Tcb.addr).Nodup) :
    (tcbHead.flatMap tickTcbFreed).Nodup := by
  induction tcbHead with
  | nil => exact List.nodup_nil
  | cons t rest ih =>
      rcases List.nodup_cons.mp distinct with ⟨fresh, distinctRest⟩
      rw [List.flatMap_cons, List.nodup_append]
      refine ⟨?_, ih distinctRest, ?_⟩
      · unfold tickTcbFreed
        split
        · simp
        · exact List.nodup_nil
      · rintro block here other later rfl
        rcases List.mem_flatMap.mp later with ⟨u, member, laterHere⟩
        have same := (mem_tickTcbFreed here).2.symm.trans (mem_tickTcbFreed laterHere).2
        exact fresh (List.mem_map.mpr ⟨u, member, same.symm⟩)

theorem Sound.distinct_after (sound : s.Sound) (relisted : Relisted s event after) :
    (after.tcbHead.map Tcb.addr).Nodup := by
  cases relisted with
  | kept addresses _ _ => exact addresses ▸ sound.distinct
  | linked new thread addr =>
      change ((new :: s.tcbHead).map Tcb.addr).Nodup
      rw [List.map_cons, List.nodup_cons]
      refine ⟨?_, sound.distinct⟩
      intro clash
      rcases List.mem_map.mp clash with ⟨t, member, same⟩
      exact absurd (sound.created t member) (same ▸ addr ▸ Nat.lt_irrefl _)
  | failed t member same other tcbHead _ _ =>
      rw [tcbHead]
      exact nodup_remove sound.distinct
  | ticked => exact sound.distinct.sublist (sublist_addr_tick _)

theorem Sound.created_after (sound : s.Sound) (relisted : Relisted s event after) :
    ∀ t ∈ after.tcbHead, t.addr < after.created := by
  intro t' member
  cases relisted with
  | kept addresses created _ =>
      have known : t'.addr ∈ s.tcbHead.map Tcb.addr := addresses ▸ List.mem_map_of_mem member
      rcases List.mem_map.mp known with ⟨t, tMember, same⟩
      rw [created, ← same]
      exact sound.created t tMember
  | linked new thread addr =>
      rcases List.mem_cons.mp member with rfl | old
      · exact addr ▸ Nat.lt_succ_self _
      · exact Nat.lt_succ_of_lt (sound.created t' old)
  | failed t _ _ _ tcbHead created _ =>
      rw [tcbHead] at member
      rw [created]
      exact sound.created t' (mem_remove.mp member).1
  | ticked =>
      rcases addr_of_mem_tick member with ⟨t, tMember, _, same⟩
      rw [same]
      exact sound.created t tMember

theorem Sound.freed_after (sound : s.Sound) (relisted : Relisted s event after) :
    ∀ block ∈ after.freed,
      block.addr < after.created ∧ ∀ t ∈ after.tcbHead, t.addr ≠ block.addr := by
  intro block freed
  cases relisted with
  | kept addresses created same =>
      rw [same] at freed
      rcases sound.freed block freed with ⟨below, apart⟩
      refine ⟨created ▸ below, ?_⟩
      intro t' member clash
      have known : t'.addr ∈ s.tcbHead.map Tcb.addr := addresses ▸ List.mem_map_of_mem member
      rcases List.mem_map.mp known with ⟨t, tMember, same⟩
      exact apart t tMember (same.trans clash)
  | linked new thread addr =>
      rcases sound.freed block freed with ⟨below, apart⟩
      refine ⟨Nat.lt_succ_of_lt below, ?_⟩
      intro t' member clash
      rcases List.mem_cons.mp member with rfl | old
      · exact absurd below (clash ▸ addr ▸ Nat.lt_irrefl _)
      · exact apart t' old clash
  | failed t tMember same _ tcbHead created freedNow =>
      rw [freedNow] at freed
      rw [tcbHead, created]
      rcases List.mem_append.mp freed with old | new
      · rcases sound.freed block old with ⟨below, apart⟩
        exact ⟨below, fun t' member => apart t' (mem_remove.mp member).1⟩
      · cases List.mem_singleton.mp new
        refine ⟨?_, fun t' member => (mem_remove.mp member).2⟩
        exact same ▸ sound.created t tMember
  | ticked =>
      rcases List.mem_append.mp freed with old | new
      · rcases sound.freed block old with ⟨below, apart⟩
        refine ⟨below, ?_⟩
        intro t' member
        rcases addr_of_mem_tick member with ⟨t, tMember, _, same⟩
        rw [same]
        exact apart t tMember
      · rcases List.mem_flatMap.mp new with ⟨t, tMember, here⟩
        rcases mem_tickTcbFreed here with ⟨removed, same⟩
        refine ⟨same ▸ sound.created t tMember, ?_⟩
        intro t' member clash
        rcases addr_of_mem_tick member with ⟨u, uMember, ticked, sameU⟩
        cases eq_of_key sound.distinct tMember uMember (same.symm.trans (clash.symm.trans sameU))
        rw [removed] at ticked
        contradiction

theorem Sound.freedOnce_after (sound : s.Sound) (relisted : Relisted s event after) :
    after.freed.Nodup := by
  cases relisted with
  | kept _ _ same => exact same ▸ sound.freedOnce
  | linked new thread addr => exact sound.freedOnce
  | failed t member same _ _ _ freedNow =>
      rw [freedNow, List.nodup_append]
      refine ⟨sound.freedOnce, List.nodup_singleton _, ?_⟩
      rintro block old other new rfl
      cases List.mem_singleton.mp new
      exact (sound.freed _ old).2 t member same
  | ticked =>
      change (s.freed ++ s.tcbHead.flatMap tickTcbFreed).Nodup
      rw [List.nodup_append]
      refine ⟨sound.freedOnce, nodup_tick_freed sound.distinct, ?_⟩
      rintro block old other new rfl
      rcases List.mem_flatMap.mp new with ⟨t, member, here⟩
      exact (sound.freed block old).2 t member (mem_tickTcbFreed here).2.symm

/-- Every step keeps the invariant. -/
theorem Sound.step (sound : s.Sound)
    (taken : Host.step mem s event = some after) : after.Sound := by
  have relisted := relisted_of_step sound taken
  refine ⟨sound.distinct_after relisted, sound.created_after relisted, ?_,
    sound.freedOnce_after relisted, sound.freed_after relisted⟩
  intro t' member
  rcases evolves_of_step sound.distinct sound.created taken member with created | evolved
  · exact fits_of_created created
  · rcases evolved with ⟨t, tMember, _, evolves⟩
    exact fits_of_evolves (sound.fits t tMember) evolves

/-- A TCB in `TIME_WAIT` stays on the list, or the tick on which its timer runs
out removes it and frees both its blocks. -/
theorem Sound.timeWait_after {t : Tcb} (sound : s.Sound)
    (taken : Host.step mem s event = some after) (member : t ∈ s.tcbHead)
    (timeWait : t.state = .timeWait) :
    (∃ t' ∈ after.tcbHead, t'.addr = t.addr ∧ Evolves s t event (after.view t')) ∨
      event = .tick ∧ t.Expires ∧ .tcb t.addr ∈ after.freed ∧ .rxBuf t.addr ∈ after.freed := by
  have relisted := relisted_of_step sound taken
  have stays : t.addr ∈ after.tcbHead.map Tcb.addr →
      ∃ t' ∈ after.tcbHead, t'.addr = t.addr ∧ Evolves s t event (after.view t') := by
    intro known
    rcases List.mem_map.mp known with ⟨t', member', same⟩
    refine ⟨t', member', same, ?_⟩
    rcases evolves_of_step sound.distinct sound.created taken member' with created | evolved
    · have below := sound.created t member
      rw [← same] at below
      exact absurd below (Nat.not_lt.mpr (Nat.le_of_eq created.addr.symm))
    · rcases evolved with ⟨u, uMember, sameU, evolves⟩
      cases eq_of_key sound.distinct member uMember (same.symm.trans sameU.symm)
      exact evolves
  cases relisted with
  | kept addresses _ _ => exact .inl (stays (addresses ▸ List.mem_map_of_mem member))
  | linked new thread _ =>
      exact .inl (stays (List.mem_map_of_mem (List.mem_cons_of_mem _ member)))
  | failed u uMember same other tcbHead _ _ =>
      left
      apply stays
      rw [tcbHead]
      apply List.mem_map_of_mem
      refine mem_remove.mpr ⟨member, ?_⟩
      intro clash
      cases eq_of_key sound.distinct member uMember (clash.trans same.symm)
      exact other timeWait
  | ticked =>
      cases ticked : tickTcb t with
      | some t' =>
          left
          apply stays
          rw [← (tickTcb_frame ticked).1]
          exact List.mem_map_of_mem (List.mem_filterMap.mpr ⟨t, member, ticked⟩)
      | none =>
          have freed : tickTcbFreed t = [.rxBuf t.addr, .tcb t.addr] := by
            simp [tickTcbFreed, ticked]
          refine .inr ⟨rfl, (tickTcb_eq_none_iff.mp ticked).1, ?_, ?_⟩
          · apply List.mem_append_right
            exact List.mem_flatMap.mpr ⟨t, member, by simp [freed]⟩
          · apply List.mem_append_right
            exact List.mem_flatMap.mpr ⟨t, member, by simp [freed]⟩

end Relisted

end Host

end Lpc17xx.Tcp
