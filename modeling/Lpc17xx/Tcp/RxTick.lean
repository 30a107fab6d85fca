import Lpc17xx.Tcp.HostInvariant
import Lpc17xx.Tcp.Isolation
import Lpc17xx.Tcp.RxSteps

/-!
# `tcp_tick` between the steps of `tcp_rx_packet`

`tcp_tick` unlinks and frees the TCBs in `TIME_WAIT` whose timer runs out, at any point
of `tcp_rx_packet`.  The pointer that `tcp_rx_packet` holds stays good exactly as long
as no tick comes while the TCB behind it is about to be freed, and that is possible
only before its timer is stopped and after it has been started again.
-/

namespace Lpc17xx.Tcp

open Lpc17xx.Link
open Lpc17xx.Transition

/-- The TCB that the next step accesses, when its timer may be running. -/
def RxStage.exposed : RxStage → Option Nat
  | .find addr | .findNext addr | .listen addr | .listenNext addr | .clearDecrement addr
  | .sendAck addr => some addr
  | .findStart | .listenStart | .noTcb | .wakeup | .clearTimedOut _ | .clearTimeout _
  | .closeWaitTest _ | .switch _ | .connected _ => none

/-- The TCB that the next step accesses, when its timer has been stopped. -/
def RxStage.disarmed : RxStage → Option Nat
  | .clearTimedOut addr | .clearTimeout addr | .closeWaitTest addr | .switch addr
  | .connected addr => some addr
  | .findStart | .listenStart | .noTcb | .wakeup | .find _ | .findNext _ | .listen _
  | .listenNext _ | .clearDecrement _ | .sendAck _ => none

theorem RxStage.exposed_or_disarmed {stage : RxStage} {addr : Nat}
    (held : stage.held = some addr) : stage.exposed = some addr ∨ stage.disarmed = some addr := by
  cases stage <;> first | exact .inl held | exact .inr held

theorem RxStage.held_of_exposed {stage : RxStage} {addr : Nat}
    (exposed : stage.exposed = some addr) : stage.held = some addr := by
  cases stage <;> first | exact exposed | contradiction

theorem RxStage.held_of_disarmed {stage : RxStage} {addr : Nat}
    (disarmed : stage.disarmed = some addr) : stage.held = some addr := by
  cases stage <;> first | exact disarmed | contradiction

namespace RxHost

/-- The TCB that `tcp_rx_packet` accesses next is linked and not freed. -/
def Safe (s : RxHost) : Prop :=
  ∀ addr, s.held = some addr →
    addr ∈ s.tcbHead.map Tcb.addr ∧ ∀ block ∈ s.freed, block.addr ≠ addr

/-- A TCB that the next tick frees. -/
def Dies (t : Tcb) : Prop :=
  t.Expires ∧ t.state = .timeWait

instance (t : Tcb) : Decidable (Dies t) :=
  inferInstanceAs (Decidable (_ ∧ _))

/-- No tick comes while the TCB that is visited, selected or about to be acknowledged
is in `TIME_WAIT` with no tick left. -/
def NoTickOnDying (s : RxHost) : RxEvent → Prop
  | .tick => ∀ pkt stage, s.task = .running pkt stage →
      ∀ t ∈ s.tcbHead, stage.exposed = some t.addr → ¬Dies t
  | .packet _ | .rx => True

instance (s : RxHost) : ∀ event, Decidable (s.NoTickOnDying event)
  | .tick =>
      match running : s.task with
      | .running pkt stage =>
          decidable_of_iff (∀ t ∈ s.tcbHead, stage.exposed = some t.addr → ¬Dies t)
            ⟨fun spared _ _ same => by cases running.symm.trans same; exact spared,
              fun spared => spared pkt stage running⟩
      | .idle | .stopped =>
          .isTrue fun _ _ same => absurd (running.symm.trans same) (by simp)
  | .packet _ | .rx => inferInstanceAs (Decidable True)

/-- What holds as long as no such tick comes. -/
structure Inv (s : RxHost) : Prop where
  distinct : (s.tcbHead.map Tcb.addr).Nodup
  freed : ∀ block ∈ s.freed, block.addr ∉ s.tcbHead.map Tcb.addr
  held : ∀ addr, s.held = some addr → addr ∈ s.tcbHead.map Tcb.addr
  disarmed : ∀ pkt stage, s.task = .running pkt stage →
    ∀ t ∈ s.tcbHead, stage.disarmed = some t.addr → t.decrementTimeout = false

theorem Inv.safe {s : RxHost} (inv : Inv s) : s.Safe := by
  intro addr held
  have linked := inv.held addr held
  refine ⟨linked, ?_⟩
  rintro block member rfl
  exact inv.freed block member linked

section Tick

variable {s : RxHost}

/-- A tick unlinks exactly the dying TCBs. -/
theorem mem_tick_iff (distinct : (s.tcbHead.map Tcb.addr).Nodup) {t : Tcb}
    (member : t ∈ s.tcbHead) : t.addr ∈ s.tick.tcbHead.map Tcb.addr ↔ ¬Dies t := by
  constructor
  · rintro linked dies
    rcases List.mem_map.mp linked with ⟨after, afterMember, same⟩
    rcases List.mem_filterMap.mp afterMember with ⟨before, beforeMember, ticked⟩
    have here : before = t := eq_of_key distinct beforeMember member
      ((tickTcb_frame ticked).1.symm.trans same)
    rw [here, tickTcb_eq_none_iff.mpr dies] at ticked
    contradiction
  · intro lives
    cases ticked : tickTcb t with
    | none => exact absurd (tickTcb_eq_none_iff.mp ticked) lives
    | some after =>
        rw [← (tickTcb_frame ticked).1]
        exact List.mem_map_of_mem (List.mem_filterMap.mpr ⟨t, member, ticked⟩)

/-- What a tick frees is no longer linked. -/
theorem freed_tick {block : Block} (distinct : (s.tcbHead.map Tcb.addr).Nodup)
    (member : block ∈ s.tcbHead.flatMap tickTcbFreed) :
    block.addr ∉ s.tick.tcbHead.map Tcb.addr := by
  rcases List.mem_flatMap.mp member with ⟨t, tMember, freed⟩
  rcases Host.mem_tickTcbFreed freed with ⟨removed, same⟩
  rw [same, mem_tick_iff distinct tMember]
  exact not_not_intro (tickTcb_eq_none_iff.mp removed)

/-- The held TCB survives every tick that the guard admits. -/
theorem Inv.held_tick (inv : Inv s) (spared : NoTickOnDying s .tick) {addr : Nat}
    (held : s.held = some addr) : addr ∈ s.tick.tcbHead.map Tcb.addr := by
  rcases List.mem_map.mp (inv.held addr held) with ⟨t, member, rfl⟩
  rw [mem_tick_iff inv.distinct member]
  intro dies
  cases running : s.task with
  | idle =>
      simp only [RxHost.held, running] at held
      contradiction
  | stopped =>
      simp only [RxHost.held, running] at held
      contradiction
  | running pkt stage =>
      simp only [RxHost.held, running] at held
      rcases RxStage.exposed_or_disarmed held with exposed | disarmed
      · exact spared pkt stage running t member exposed dies
      · have idle := inv.disarmed pkt stage running t member disarmed
        rw [dies.1.1] at idle
        contradiction

theorem Inv.tick (inv : Inv s) (spared : NoTickOnDying s .tick) : Inv s.tick where
  distinct := inv.distinct.sublist (Host.sublist_addr_tick s.tcbHead)
  freed := by
    intro block member
    rcases List.mem_append.mp member with old | new
    · intro linked
      exact inv.freed block old ((Host.sublist_addr_tick s.tcbHead).subset linked)
    · exact freed_tick inv.distinct new
  held := fun _ held => inv.held_tick spared held
  disarmed := by
    intro pkt stage running after member disarmed
    rcases List.mem_filterMap.mp member with ⟨t, tMember, ticked⟩
    rw [(tickTcb_frame ticked).1] at disarmed
    have idle := inv.disarmed pkt stage running t tMember disarmed
    rw [tickTcb_of_idle idle] at ticked
    cases ticked
    exact idle

end Tick

section RxStep

variable {s after : RxHost} {pkt : Segment} {stage : RxStage}

theorem access_eq_some {addr : Nat} {use : Tcb → RxHost}
    (accessed : s.access addr use = some after) :
    ∃ t ∈ s.tcbHead, t.addr = addr ∧ after = use t := by
  rcases Option.map_eq_some_iff.mp accessed with ⟨t, found, rfl⟩
  rcases lookup_eq_some found with ⟨member, here⟩
  exact ⟨t, member, here, rfl⟩

/-- A step that only moves on. -/
theorem Inv.goto (inv : Inv s)
    (held : ∀ addr, stage.held = some addr → addr ∈ s.tcbHead.map Tcb.addr)
    (disarmed : ∀ t ∈ s.tcbHead, stage.disarmed = some t.addr → t.decrementTimeout = false) :
    Inv (s.goto pkt stage) where
  distinct := inv.distinct
  freed := inv.freed
  held := held
  disarmed := by
    intro pkt' stage' running t member
    cases running
    exact disarmed t member

/-- A step that only moves on to a search, or to the end. -/
theorem Inv.goto_exposed (inv : Inv s)
    (held : ∀ addr, stage.held = some addr → addr ∈ s.tcbHead.map Tcb.addr)
    (exposed : stage.disarmed = none) : Inv (s.goto pkt stage) := by
  apply inv.goto held
  intro t _ disarmed
  rw [exposed] at disarmed
  contradiction

/-- A step that changes the selected TCB. -/
theorem Inv.put (inv : Inv s) {t new : Tcb} (member : t ∈ s.tcbHead) (same : new.addr = t.addr)
    (held : ∀ addr, stage.held = some addr → addr = t.addr)
    (disarmed : ∀ addr, stage.disarmed = some addr → new.decrementTimeout = false) :
    Inv ((s.put new).goto pkt stage) where
  distinct := by
    change ((store Tcb.addr new s.tcbHead).map Tcb.addr).Nodup
    rw [map_store]
    exact inv.distinct
  freed := by
    change ∀ block ∈ s.freed, block.addr ∉ (store Tcb.addr new s.tcbHead).map Tcb.addr
    rw [map_store]
    exact inv.freed
  held := by
    intro addr here
    change addr ∈ (store Tcb.addr new s.tcbHead).map Tcb.addr
    rw [map_store, held addr here]
    exact List.mem_map_of_mem member
  disarmed := by
    intro pkt' stage' running u uMember here
    cases running
    rcases mem_store uMember with rfl | ⟨_, other⟩
    · exact disarmed u.addr here
    · exact absurd ((held _ (RxStage.held_of_disarmed here)).trans same.symm) other

theorem Inv.put_transmit (inv : Inv s) {t new : Tcb} (sent : List TcpTx) (member : t ∈ s.tcbHead)
    (same : new.addr = t.addr) (held : ∀ addr, stage.held = some addr → addr = t.addr)
    (disarmed : ∀ addr, stage.disarmed = some addr → new.decrementTimeout = false) :
    Inv (((s.put new).transmit sent).goto pkt stage) :=
  have kept := @Inv.put _ pkt _ inv _ _ member same held disarmed
  ⟨kept.distinct, kept.freed, kept.held, kept.disarmed⟩

/-- The end of a packet. -/
theorem Inv.ended (inv : Inv s) (sent : List TcpTx) {task : RxTask}
    (ended : task = .idle ∨ task = .stopped) : Inv { s with sent, task } := by
  rcases ended with rfl | rfl
  · exact ⟨inv.distinct, inv.freed, fun _ held => (nomatch held),
      fun _ _ running => (nomatch running)⟩
  · exact ⟨inv.distinct, inv.freed, fun _ held => (nomatch held),
      fun _ _ running => (nomatch running)⟩

/-- The searches go from one linked TCB to the next. -/
theorem Inv.visit (inv : Inv s) {next : Option Tcb} {body : Nat → RxStage} {finished : RxStage}
    (linked : ∀ t, next = some t → t ∈ s.tcbHead)
    (bodyHeld : ∀ i, (body i).held = some i ∧ (body i).disarmed = none)
    (finishedHeld : finished.held = none ∧ finished.disarmed = none) :
    Inv (s.goto pkt (RxHost.visit next body finished)) := by
  cases next with
  | none =>
      apply inv.goto_exposed _ finishedHeld.2
      intro addr held
      exact absurd (finishedHeld.1.symm.trans held) (Option.some_ne_none addr).symm
  | some t =>
      apply inv.goto_exposed _ (bodyHeld t.addr).2
      intro addr held
      cases (bodyHeld t.addr).1.symm.trans held
      exact List.mem_map_of_mem (linked t rfl)

/-- The comparison of a search. -/
theorem Inv.compare (inv : Inv s) {t : Tcb} (member : t ∈ s.tcbHead) {found : Bool}
    {next : RxStage} (nextHeld : next.held = some t.addr ∧ next.disarmed = none) :
    Inv (s.goto pkt (if found then .clearDecrement t.addr else next)) := by
  have linked : t.addr ∈ s.tcbHead.map Tcb.addr := List.mem_map_of_mem member
  cases found with
  | true =>
      apply inv.goto_exposed _ rfl
      rintro addr ⟨⟩
      exact linked
  | false =>
      apply inv.goto_exposed _ nextHeld.2
      intro addr held
      cases nextHeld.1.symm.trans held
      exact linked

/-- The switch.  Whatever it stores, the timer matters only for the acknowledgement
that may follow. -/
theorem Inv.rxSwitchStep (inv : Inv s) {t : Tcb} (member : t ∈ s.tcbHead)
    (idle : t.decrementTimeout = false) : Inv (s.rxSwitchStep pkt t) := by
  unfold RxHost.rxSwitchStep
  split
  · apply inv.put_transmit _ member
    · rfl
    · rintro addr ⟨⟩
      rfl
    · intro _ _
      exact idle
  · simp only
    split
    · constructor
      · exact nodup_remove inv.distinct
      · intro block blockMember linked
        rcases List.mem_map.mp linked with ⟨u, uMember, same⟩
        rcases mem_remove.mp uMember with ⟨uOld, other⟩
        rcases List.mem_append.mp blockMember with old | new
        · exact inv.freed block old (same ▸ List.mem_map_of_mem uOld)
        · have here : block.addr = t.addr := by
            rcases List.mem_cons.mp new with rfl | new
            · rfl
            · cases List.mem_singleton.mp new
              rfl
          exact other (same.trans here)
      · intro addr held
        contradiction
      · intro pkt' stage' running
        contradiction
    · apply inv.put_transmit _ member (rxSwitch_frame _ _ _ _).addr
      · intro addr held
        split at held
        · cases held
          rfl
        · contradiction
      · intro addr disarmed
        split at disarmed <;> contradiction

/-- Every step of `tcp_rx_packet` keeps the invariant. -/
theorem Inv.rxStep (inv : Inv s) (running : s.task = .running pkt stage)
    (taken : s.rxStep pkt stage = some after) : Inv after := by
  have headMember : ∀ t, s.tcbHead.head? = some t → t ∈ s.tcbHead :=
    fun t => List.mem_of_head?
  cases stage with
  | findStart =>
      cases taken
      exact inv.visit headMember (fun _ => ⟨rfl, rfl⟩) ⟨rfl, rfl⟩
  | find i =>
      rcases access_eq_some taken with ⟨t, member, rfl, rfl⟩
      exact inv.compare member ⟨rfl, rfl⟩
  | findNext i =>
      rcases access_eq_some taken with ⟨_, _, _, rfl⟩
      exact inv.visit (fun _ => mem_of_successor) (fun _ => ⟨rfl, rfl⟩) ⟨rfl, rfl⟩
  | listenStart =>
      cases taken
      exact inv.visit headMember (fun _ => ⟨rfl, rfl⟩) ⟨rfl, rfl⟩
  | listen i =>
      rcases access_eq_some taken with ⟨t, member, rfl, rfl⟩
      exact inv.compare member ⟨rfl, rfl⟩
  | listenNext i =>
      rcases access_eq_some taken with ⟨_, _, _, rfl⟩
      exact inv.visit (fun _ => mem_of_successor) (fun _ => ⟨rfl, rfl⟩) ⟨rfl, rfl⟩
  | noTcb =>
      cases taken
      exact inv.ended _ (.inl rfl)
  | clearDecrement addr =>
      rcases access_eq_some taken with ⟨t, member, rfl, rfl⟩
      apply inv.put member
      · rfl
      · rintro addr ⟨⟩
        rfl
      · intro _ _
        rfl
  | clearTimedOut addr =>
      rcases access_eq_some taken with ⟨t, member, rfl, rfl⟩
      apply inv.put member
      · rfl
      · rintro addr ⟨⟩
        rfl
      · intro _ _
        exact inv.disarmed pkt _ running t member rfl
  | clearTimeout addr =>
      rcases access_eq_some taken with ⟨t, member, rfl, rfl⟩
      apply inv.put member
      · rfl
      · rintro addr ⟨⟩
        rfl
      · intro _ _
        exact inv.disarmed pkt _ running t member rfl
  | closeWaitTest addr =>
      rcases access_eq_some taken with ⟨t, member, rfl, rfl⟩
      split
      · exact inv.ended _ (.inr rfl)
      · apply inv.goto
        · rintro addr ⟨⟩
          exact List.mem_map_of_mem member
        · intro u uMember here
          exact inv.disarmed pkt _ running u uMember here
  | switch addr =>
      rcases access_eq_some taken with ⟨t, member, rfl, rfl⟩
      exact inv.rxSwitchStep member (inv.disarmed pkt _ running t member rfl)
  | connected addr =>
      rcases access_eq_some taken with ⟨t, member, rfl, rfl⟩
      apply inv.put member
      · rfl
      · intro addr held
        contradiction
      · intro addr disarmed
        contradiction
  | sendAck addr =>
      rcases access_eq_some taken with ⟨t, member, rfl, rfl⟩
      have moved : Inv (s.goto pkt .wakeup) := by
        apply inv.goto_exposed _ rfl
        intro addr held
        contradiction
      exact ⟨moved.distinct, moved.freed, moved.held, moved.disarmed⟩
  | wakeup =>
      cases taken
      exact inv.ended _ (.inl rfl)

end RxStep

/-- What one event does. -/
theorem step_cases {s after : RxHost} {event : RxEvent} (taken : step s event = some after) :
    (∃ pkt, event = .packet pkt ∧ after = s.goto pkt .findStart) ∨
    (∃ pkt stage, event = .rx ∧ s.task = .running pkt stage ∧ s.rxStep pkt stage = some after) ∨
    (event = .tick ∧ after = s.tick) := by
  cases event with
  | packet pkt =>
      cases running : s.task with
      | idle =>
          simp only [step, running] at taken
          exact .inl ⟨pkt, rfl, (Option.some.inj taken).symm⟩
      | running _ _ => simp [step, running] at taken
      | stopped => simp [step, running] at taken
  | rx =>
      cases running : s.task with
      | idle => simp [step, running] at taken
      | running pkt stage =>
          simp only [step, running] at taken
          exact .inr (.inl ⟨pkt, stage, rfl, rfl, taken⟩)
      | stopped => simp [step, running] at taken
  | tick =>
      cases running : s.task with
      | idle =>
          simp only [step, running] at taken
          exact .inr (.inr ⟨rfl, (Option.some.inj taken).symm⟩)
      | running _ _ =>
          simp only [step, running] at taken
          exact .inr (.inr ⟨rfl, (Option.some.inj taken).symm⟩)
      | stopped => simp [step, running] at taken

/-- Every admitted event keeps the invariant. -/
theorem Inv.step {s after : RxHost} {event : RxEvent} (inv : Inv s)
    (spared : NoTickOnDying s event) (taken : RxHost.step s event = some after) : Inv after := by
  rcases step_cases taken with ⟨pkt, rfl, rfl⟩ | ⟨pkt, stage, rfl, running, moved⟩ | ⟨rfl, rfl⟩
  · apply inv.goto_exposed _ rfl
    intro addr held
    contradiction
  · exact inv.rxStep running moved
  · exact inv.tick spared

/-- A tick on a dying TCB takes it away from `tcp_rx_packet`. -/
theorem Inv.spared {s : RxHost} (inv : Inv s) (safe : s.tick.Safe) : NoTickOnDying s .tick := by
  intro pkt stage running t member exposed dies
  have held : s.tick.held = some t.addr := by
    change s.held = some t.addr
    rw [RxHost.held, running]
    exact RxStage.held_of_exposed exposed
  exact (mem_tick_iff inv.distinct member).mp (safe t.addr held).1 dies

end RxHost

/-- For every list of TCBs, every sequence of packets and every interleaving with ticks,
the TCB that `tcp_rx_packet` visits or has selected is linked and not freed throughout
exactly if no tick comes while it is in `TIME_WAIT` with no tick left, its timer not yet
stopped or already started again. -/
theorem rx_safe_iff {tcbHead : List Tcb} (distinct : (tcbHead.map Tcb.addr).Nodup)
    (events : List RxEvent) :
    Along RxHost.step (fun _ _ after => after.Safe) (RxHost.start tcbHead) events ↔
      Guarded RxHost.step RxHost.NoTickOnDying (RxHost.start tcbHead) events := by
  have initial : (RxHost.start tcbHead).Inv :=
    ⟨distinct, fun _ member => (nomatch member), fun _ held => (nomatch held),
      fun _ _ running => (nomatch running)⟩
  apply along_iff_guarded _ _ initial
  · intro s event after inv spared taken
    exact inv.step spared taken
  · intro s event after inv taken
    constructor
    · intro safe
      rcases RxHost.step_cases taken with ⟨_, rfl, _⟩ | ⟨_, _, rfl, _⟩ | ⟨rfl, rfl⟩
      · trivial
      · trivial
      · exact inv.spared safe
    · intro spared
      exact (inv.step spared taken).safe

/-- A connection of `main` that has waited since its end. -/
def mainConnectionDying : Tcb :=
  { mainConnection with state := .timeWait, decrementTimeout := true, timeout := 0 }

/-- Another connection of that kind, and the open one of `main` behind it. -/
def mainTcbs : List Tcb :=
  [{ mainConnectionDying with addr := 1, dstPort := 5758 }, mainConnection]

/-- Data for `main`: the search has left the first TCB behind when a tick frees it. -/
def mainTickInSearch : List RxEvent :=
  [.packet (mainPeerSegment 1025 1025 [72, 105]), .rx, .rx, .rx, .tick] ++
    List.replicate 8 .rx

theorem rx_safe_iff_main :
    Along RxHost.step (fun _ _ after => after.Safe) (RxHost.start mainTcbs) mainTickInSearch ∧
      (run RxHost.step (RxHost.start mainTcbs) mainTickInSearch).map
        (fun s => (s.freed, s.sent.length, s.tcbHead.map fun t => t.rxBuf.contents)) =
          some ([.rxBuf 1, .tcb 1], 1, [[72, 105]]) := by
  have distinct : (mainTcbs.map Tcb.addr).Nodup := by decide
  exact ⟨(rx_safe_iff distinct _).mpr (by decide +kernel), by decide +kernel⟩

/-- The tick comes when the TCB has been selected and its timer not yet stopped:
`tcp_rx_packet` is about to write to a freed TCB. -/
theorem rx_not_safe_selected :
    ∃ after, run RxHost.step (RxHost.start [mainConnectionDying])
        [.packet (mainPeerFin 1025 1026), .rx, .rx, .tick] = some after ∧
      after.task =
        .running (mainPeerFin 1025 1026) (.clearDecrement mainConnectionDying.addr) ∧
      after.tcbHead = [] ∧
      Block.tcb mainConnectionDying.addr ∈ after.freed ∧ ¬after.Safe := by
  refine ⟨_, rfl, rfl, rfl, ?_, ?_⟩
  · decide
  · intro safe
    exact absurd (safe mainConnectionDying.addr rfl).1 List.not_mem_nil

end Lpc17xx.Tcp
