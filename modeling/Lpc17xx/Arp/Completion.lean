import Lpc17xx.Arp.Core

/-!
# Finished requests and their processes

A request is finished by a reply or by the tick interrupt.  The reply wakes
everybody on `arp_waitqueue`.  The tick wakes nobody, so a process that sleeps
when its request times out goes on sleeping.
-/

namespace Lpc17xx.Arp

open Lpc17xx.Link
open Lpc17xx.Protocol
open Lpc17xx.Transition

namespace Resolver

/-- With interrupts enabled, no process sleeps behind a request that is
finished. -/
def Wakes (_ : Resolver) (_ : ArpEvent) (after : Resolver) : Prop :=
  after.masked = none → ∀ proc, (after.caller proc).request.finished = true →
    proc ∉ after.waitq ∧ (after.caller proc).place ≠ .asleep

/-- No tick times out a request whose process sleeps. -/
def AnsweredInTime (s : Resolver) : ArpEvent → Prop
  | .tick => ∀ proc ∈ s.pending, proc ∈ s.waitq →
      (s.caller proc).request.tickCount < arpTimeout
  | _ => True

/-- `arp_waitqueue` holds the processes that sleep. -/
def Sound (s : Resolver) : Prop :=
  ∀ proc, proc ∈ s.waitq ↔ (s.caller proc).place = .asleep

/-- Nobody sleeps behind a finished request. -/
def Awake (s : Resolver) : Prop :=
  ∀ proc ∈ s.waitq, (s.caller proc).request.finished = false

theorem sound_start (caller : Nat → Caller) : (start caller).Sound := by
  intro proc
  simp [start]

theorem awake_start (caller : Nat → Caller) : (start caller).Awake := by
  intro proc asleep
  cases asleep

/-- What the next step of a process inside `resolve_address` does to the sleepers:
nothing, or it joins them. -/
inductive Resolves (s : Resolver) (proc : Nat) : Resolver → Prop
  | moved {after : Resolver} (cur : Caller) : (s.caller proc).place ≠ .asleep →
      cur.place ≠ .asleep → after.caller = Function.update s.caller proc cur →
      after.waitq = s.waitq → Resolves s proc after
  | slept {after : Resolver} : (s.caller proc).request.finished = false →
      after.caller =
        Function.update s.caller proc { s.caller proc with place := .asleep } →
      after.waitq = proc :: s.waitq → Resolves s proc after

section Step

variable {s after : Resolver}

theorem resolves_of_step {proc : Nat} (taken : s.resolveStep proc = some after) :
    Resolves s proc after := by
  unfold resolveStep at taken
  cases place : (s.caller proc).place with
  | idle =>
      simp only [place] at taken
      contradiction
  | searching =>
      simp only [place] at taken
      split at taken
      · cases taken
        exact .moved _ (by simp [place]) (by simp) rfl rfl
      · cases taken
        exact .moved _ (by simp [place]) (by simp) rfl rfl
  | missed =>
      simp only [place] at taken
      cases taken
      exact .moved _ (by simp [place]) (by simp) rfl rfl
  | linked =>
      simp only [place] at taken
      cases taken
      exact .moved _ (by simp [place]) (by simp) rfl rfl
  | waiting =>
      simp only [place] at taken
      split at taken
      · cases taken
        exact .moved _ (by simp [place]) (by simp) rfl rfl
      · rename_i unfinished
        cases taken
        exact .slept (eq_false_of_ne_true unfinished) rfl rfl
  | asleep =>
      simp only [place] at taken
      contradiction

theorem Sound.moved {proc : Nat} {cur : Caller} (sound : s.Sound)
    (here : (s.caller proc).place ≠ .asleep) (there : cur.place ≠ .asleep)
    (caller : after.caller = Function.update s.caller proc cur) (waitq : after.waitq = s.waitq) :
    after.Sound := by
  intro other
  rw [caller, waitq]
  by_cases same : other = proc
  · subst same
    have notQueued : other ∉ s.waitq := fun queued => here ((sound other).mp queued)
    simp [notQueued, there]
  · rw [Function.update_of_ne same]
    exact sound other

theorem Awake.moved {proc : Nat} {cur : Caller} (awake : s.Awake) (sound : s.Sound)
    (here : (s.caller proc).place ≠ .asleep)
    (caller : after.caller = Function.update s.caller proc cur) (waitq : after.waitq = s.waitq) :
    after.Awake := by
  intro other queued
  rw [waitq] at queued
  have apart : other ≠ proc := by
    rintro rfl
    exact here ((sound other).mp queued)
  rw [caller, Function.update_of_ne apart]
  exact awake other queued

theorem Sound.resolves {proc : Nat} (sound : s.Sound) (resolves : Resolves s proc after) :
    after.Sound := by
  cases resolves with
  | moved cur here there caller waitq => exact sound.moved here there caller waitq
  | slept _ caller waitq =>
      intro other
      rw [caller, waitq]
      by_cases same : other = proc
      · subst same
        simp
      · rw [Function.update_of_ne same, List.mem_cons]
        simpa [same] using sound other

theorem Awake.resolves {proc : Nat} (awake : s.Awake) (sound : s.Sound)
    (resolves : Resolves s proc after) : after.Awake := by
  cases resolves with
  | moved cur here there caller waitq => exact awake.moved sound here caller waitq
  | slept unfinished caller waitq =>
      intro other queued
      rw [waitq, List.mem_cons] at queued
      rw [caller]
      by_cases same : other = proc
      · subst same
        simpa using unfinished
      · rw [Function.update_of_ne same]
        exact awake other (queued.resolve_left same)

/-- A reply that fulfils a request moves no process. -/
theorem place_fulfil (packet : ArpPacket) (proc : Nat) :
    ((s.fulfil packet).caller proc).place = (s.caller proc).place := by
  unfold fulfil
  split
  · rename_i found _
    by_cases same : proc = found
    · subst same
      simp [put]
    · simp [put, Function.update_of_ne same]
  · rfl

theorem waitq_fulfil (packet : ArpPacket) : (s.fulfil packet).waitq = s.waitq := by
  unfold fulfil
  split <;> rfl

theorem Sound.wakeup (sound : s.Sound) : s.wakeup.Sound := by
  intro proc
  by_cases queued : proc ∈ s.waitq
  · simp [Resolver.wakeup, queued]
  · have awake := (sound proc).not.mp queued
    simp [Resolver.wakeup, queued, awake]

theorem Sound.rxPacket (sound : s.Sound) (packet : ArpPacket) : (s.rxPacket packet).Sound := by
  unfold Resolver.rxPacket
  split
  · split
    · split
      · exact sound
      · exact sound
    · split
      · split
        · apply Sound.wakeup
          intro proc
          rw [waitq_fulfil, place_fulfil]
          exact sound proc
        · exact sound
      · exact sound
  · exact sound

/-- A packet for `arp_rx_packet` leaves the sleepers and their requests alone, or
wakes them all. -/
theorem Awake.rxPacket (awake : s.Awake) (packet : ArpPacket) : (s.rxPacket packet).Awake := by
  unfold Resolver.rxPacket
  split
  · split
    · split
      · exact awake
      · exact awake
    · split
      · split
        · exact fun proc queued => nomatch queued
        · exact awake
      · exact awake
  · exact awake

theorem Sound.tick (sound : s.Sound) : s.tick.Sound := by
  intro proc
  have place : (s.tick.caller proc).place = (s.caller proc).place := by
    simp only [Resolver.tick]
    split <;> rfl
  rw [place]
  exact sound proc

theorem tickRequest_finished {arpReq : ArpPendingRequest} :
    (tickRequest arpReq).finished = true ↔
      arpReq.finished = true ∨ arpTimeout ≤ arpReq.tickCount := by
  by_cases expired : arpTimeout ≤ arpReq.tickCount
  · simp [tickRequest, expired]
  · simp [tickRequest, expired]

/-- A tick leaves nobody asleep behind a finished request exactly when no sleeper
times out. -/
theorem awake_tick_iff (awake : s.Awake) : s.tick.Awake ↔ s.AnsweredInTime .tick := by
  constructor
  · intro awakeAfter proc pending queued
    have unfinished := awakeAfter proc queued
    simp only [Resolver.tick, if_pos pending] at unfinished
    by_contra late
    have expired := tickRequest_finished.mpr (.inr (UInt32.not_lt.mp late))
    rw [unfinished] at expired
    contradiction
  · intro answered proc queued
    simp only [Resolver.tick]
    split
    · rename_i pending
      apply eq_false_of_ne_true
      intro finished
      rcases tickRequest_finished.mp finished with before | expired
      · exact absurd ((awake proc queued).symm.trans before) Bool.false_ne_true
      · exact absurd (answered proc pending queued) (UInt32.not_lt.mpr expired)
    · exact awake proc queued

theorem Sound.step {event : ArpEvent} (sound : s.Sound)
    (taken : Resolver.step s event = some after) : after.Sound := by
  cases event with
  | call proc ipAddress =>
      obtain ⟨⟨_, idle⟩, taken⟩ := Option.ite_none_right_eq_some.mp taken
      cases taken
      exact sound.moved (by simp [idle]) (by simp) rfl rfl
  | step proc =>
      obtain ⟨_, taken⟩ := Option.ite_none_right_eq_some.mp taken
      exact sound.resolves (resolves_of_step taken)
  | unmask =>
      obtain ⟨_, taken⟩ := Option.ite_none_left_eq_some.mp taken
      cases taken
      exact sound
  | rx packet =>
      obtain ⟨_, taken⟩ := Option.ite_none_right_eq_some.mp taken
      cases taken
      exact sound.rxPacket packet
  | tick =>
      obtain ⟨_, taken⟩ := Option.ite_none_right_eq_some.mp taken
      cases taken
      exact sound.tick

theorem Awake.step {event : ArpEvent} (awake : s.Awake) (sound : s.Sound)
    (answered : s.AnsweredInTime event) (taken : Resolver.step s event = some after) :
    after.Awake := by
  cases event with
  | call proc ipAddress =>
      obtain ⟨⟨_, idle⟩, taken⟩ := Option.ite_none_right_eq_some.mp taken
      cases taken
      exact awake.moved sound (by simp [idle]) rfl rfl
  | step proc =>
      obtain ⟨_, taken⟩ := Option.ite_none_right_eq_some.mp taken
      exact awake.resolves sound (resolves_of_step taken)
  | unmask =>
      obtain ⟨_, taken⟩ := Option.ite_none_left_eq_some.mp taken
      cases taken
      exact awake
  | rx packet =>
      obtain ⟨_, taken⟩ := Option.ite_none_right_eq_some.mp taken
      cases taken
      exact awake.rxPacket packet
  | tick =>
      obtain ⟨_, taken⟩ := Option.ite_none_right_eq_some.mp taken
      cases taken
      exact (awake_tick_iff awake).mpr answered

/-- Read with interrupts enabled, the property says that nobody sleeps behind a
finished request. -/
theorem Awake.wakes (awake : s.Awake) (sound : s.Sound) (before : Resolver) (event : ArpEvent) :
    Wakes before event s := by
  intro _ proc finished
  have notQueued : proc ∉ s.waitq := by
    intro queued
    exact absurd ((awake proc queued).symm.trans finished) Bool.false_ne_true
  exact ⟨notQueued, (sound proc).not.mp notQueued⟩

theorem wakes_iff {event : ArpEvent} (sound : s.Sound) (awake : s.Awake)
    (taken : Resolver.step s event = some after) :
    Wakes s event after ↔ s.AnsweredInTime event := by
  constructor
  · intro wakes
    cases event with
    | tick =>
        obtain ⟨unmasked, taken⟩ := Option.ite_none_right_eq_some.mp taken
        cases taken
        apply (awake_tick_iff awake).mp
        intro proc queued
        apply eq_false_of_ne_true
        exact fun finished => (wakes unmasked proc finished).1 queued
    | _ => trivial
  · intro answered
    exact (awake.step sound answered taken).wakes (sound.step taken) s event

/-- A process that sleeps, with the number of ticks that its request has left. -/
structure Sleeps (proc left : Nat) (s : Resolver) : Prop where
  unmasked : s.masked = none
  queued : proc ∈ s.waitq
  pending : proc ∈ s.pending
  left : (s.caller proc).request.tickCount.toNat + left = arpTimeout.toNat

theorem Sleeps.step {proc left : Nat} (sleeps : Sleeps proc left s) :
    Resolver.step s .tick = some s.tick :=
  if_pos sleeps.unmasked

/-- The request counts one tick more. -/
theorem Sleeps.tick {proc left : Nat} (sleeps : Sleeps proc (left + 1) s) :
    Sleeps proc left s.tick := by
  have count := sleeps.left
  have small : (s.caller proc).request.tickCount.toNat < arpTimeout.toNat := by
    omega
  have running : ¬arpTimeout ≤ (s.caller proc).request.tickCount := by
    rw [UInt32.le_iff_toNat_le]
    exact Nat.not_le_of_lt small
  constructor
  · exact sleeps.unmasked
  · exact sleeps.queued
  · exact List.mem_filter.mpr ⟨sleeps.pending, by simpa using running⟩
  · have next : (s.tick.caller proc).request.tickCount =
        (s.caller proc).request.tickCount + 1 := by
      simp only [Resolver.tick, if_pos sleeps.pending, tickRequest, if_neg running]
    rw [next, UInt32.toNat_add, Nat.mod_eq_of_lt]
    · change (s.caller proc).request.tickCount.toNat + 1 + left = arpTimeout.toNat
      omega
    · change (s.caller proc).request.tickCount.toNat + 1 < 2 ^ 32
      exact Nat.lt_of_le_of_lt small (by decide)

/-- The request is finished, and its process sleeps on. -/
theorem Sleeps.not_wakes {proc : Nat} (sleeps : Sleeps proc 0 s) :
    ¬Wakes s .tick s.tick := by
  intro wakes
  have expired : arpTimeout ≤ (s.caller proc).request.tickCount :=
    UInt32.le_iff_toNat_le.mpr (Nat.le_of_eq sleeps.left.symm)
  have finished : (s.tick.caller proc).request.finished = true := by
    simp only [Resolver.tick, if_pos sleeps.pending]
    exact tickRequest_finished.mpr (.inr expired)
  exact (wakes sleeps.unmasked proc finished).1 sleeps.queued

/-- A process that sleeps and gets no reply is left asleep behind its finished
request after as many ticks as the request has left. -/
theorem asleep_after_ticks {proc ticks : Nat} (sleeps : Sleeps proc ticks s) :
    ¬Along Resolver.step Wakes s (List.replicate (ticks + 1) .tick) :=
  not_along_replicate (fun _ _ sleeps => ⟨_, sleeps.step, sleeps.tick⟩)
    (fun _ sleeps => ⟨_, sleeps.step, sleeps.not_wakes⟩) sleeps

end Step

end Resolver

/-- Along every run of `resolve_address`, `arp_rx_packet` and `arp_tick` nobody
sleeps behind a finished request with interrupts enabled exactly as long as no
tick times out the request of a process that sleeps. -/
theorem resolver_wakes_iff (caller : Nat → Caller) (events : List ArpEvent) :
    Along Resolver.step Resolver.Wakes (Resolver.start caller) events ↔
      Guarded Resolver.step Resolver.AnsweredInTime (Resolver.start caller) events := by
  have initial : (Resolver.start caller).Sound ∧ (Resolver.start caller).Awake :=
    ⟨Resolver.sound_start caller, Resolver.awake_start caller⟩
  apply @along_iff_guarded _ _ _ (fun s => s.Sound ∧ s.Awake) _ _ _ _ _ _ initial
  · rintro s event after ⟨sound, awake⟩ answered taken
    exact ⟨sound.step taken, awake.step sound answered taken⟩
  · rintro s event after ⟨sound, awake⟩ taken
    exact Resolver.wakes_iff sound awake taken

/-- A process that has never called `resolve_address`. -/
def newCaller : Caller where
  place := .idle
  ipAddress := 0
  request := pendingRequest 0
  result := none

/-- A request for the address of the peer, which nobody answers. -/
def unanswered : List ArpEvent :=
  [.call 0 0xc0a80476, .step 0, .step 0, .step 0, .step 0] ++ List.replicate 251 .tick

theorem resolver_not_wakes_unanswered :
    ¬Along Resolver.step Resolver.Wakes (Resolver.start fun _ => newCaller) unanswered := by
  intro along
  obtain ⟨_, along⟩ := along _ rfl
  obtain ⟨_, along⟩ := along _ rfl
  obtain ⟨_, along⟩ := along _ rfl
  obtain ⟨_, along⟩ := along _ rfl
  obtain ⟨_, along⟩ := along _ rfl
  refine @Resolver.asleep_after_ticks _ 0 250 ?_ along
  exact ⟨rfl, List.mem_singleton.mpr rfl, List.mem_singleton.mpr rfl, rfl⟩

end Lpc17xx.Arp
