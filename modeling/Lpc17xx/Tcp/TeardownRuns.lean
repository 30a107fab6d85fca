import Lpc17xx.Tcp.SimultaneousClose

/-!
# How a close of both ends comes out

An end that takes the FIN of its peer before its own `tcp_close` has returned
never reaches `TIME_WAIT`, so only a simultaneous close frees both ends.
-/

namespace Lpc17xx.Tcp

open Lpc17xx.Transition

namespace CloseEnd

/-- The TCB is in a state from which only a FIN leads to `TIME_WAIT`. -/
def Stays (e : CloseEnd) : Prop :=
  ∃ t, e.tcb = some t ∧ (t.state = .closeWait ∨ t.state = .lastAck ∨ t.state = .finWait1 ∨
    t.state = .finWait2)

section Stays

variable {e : CloseEnd}

theorem Stays.close {after : CloseEnd} {fin : TcpTx} (stays : e.Stays)
    (called : e.close = some (after, fin)) : after.Stays ∧ fin.payload = [] := by
  rcases Option.ite_none_right_eq_some.mp called with ⟨_, called⟩
  rcases Option.bind_eq_some_iff.mp called with ⟨t, _, called⟩
  rcases Option.map_eq_some_iff.mp called with ⟨⟨thread, tx⟩, transmitted, same⟩
  rcases tcpClose_eq_some transmitted with ⟨_, rfl⟩
  cases same
  exact ⟨stays, rfl⟩

theorem closeReturn_eq_some {after : CloseEnd} (returned : e.closeReturn = some after) :
    after.Stays ∧ after.call = .returned := by
  unfold CloseEnd.closeReturn at returned
  split at returned
  · rename_i thread _
    rcases Option.map_eq_some_iff.mp returned with ⟨t, _, rfl⟩
    refine ⟨⟨_, rfl, ?_⟩, rfl⟩
    cases thread with
    | lastAck => exact .inr (.inl rfl)
    | finWait1 => exact .inr (.inr (.inl rfl))
  · contradiction
  · contradiction

theorem Stays.tick (stays : e.Stays) : e.tick.Stays := by
  rcases stays with ⟨t, linked, state⟩
  cases ticked : tickTcb t with
  | none =>
      have timeWait := (tickTcb_eq_none_iff.mp ticked).2
      simp [timeWait] at state
  | some after =>
      refine ⟨after, ?_, ?_⟩
      · simp [CloseEnd.tick, linked, ticked]
      · rw [(tickTcb_frame ticked).2.1]
        exact state

/-- Without FIN, no segment leads from these states to `TIME_WAIT`. -/
theorem Stays.rxPacket {srcIp : UInt32} {tx : TcpTx} (stays : e.Stays)
    (bare : tx.payload = []) (noFin : tx.header.fin = false) :
    (e.rxPacket srcIp tx).1.Stays := by
  have receives := receives_rxPacket e srcIp bare
  generalize e.rxPacket srcIp tx = outcome at receives
  rcases stays with ⟨t, linked, state⟩
  cases receives with
  | nobody _ _ => exact ⟨t, linked, state⟩
  | trapped _ _ => exact ⟨t, linked, state⟩
  | heard linkedHere open_ =>
      cases linked.symm.trans linkedHere
      have noFinHere : (tx.bare srcIp).header.fin = false := noFin
      refine ⟨_, rfl, ?_⟩
      rcases state with closeWait | lastAck | finWait1 | finWait2
      · exact absurd closeWait open_
      · rw [after_eq_disarm _ (.inr (.inl lastAck))]
        exact .inr (.inl lastAck)
      · simp only [Tcb.after, finWait1, Tcb.afterFinWait1, noFinHere, Bool.false_eq_true, if_false]
        split
        · exact .inr (.inr (.inr rfl))
        · exact .inr (.inr (.inl finWait1))
      · simp only [Tcb.after, finWait2, Tcb.afterFinWait2, noFinHere, Bool.false_and,
          Bool.false_eq_true, if_false]
        exact .inr (.inr (.inr finWait2))

/-- A FIN takes an open end to `CLOSE_WAIT`. -/
theorem stays_of_fin {srcIp : UInt32} {fin : TcpTx} {t : Tcb} (linked : e.tcb = some t)
    (established : t.state = .established) (bare : fin.payload = [])
    (isFin : fin.header.fin = true) (found : t.matchesConnection srcIp fin.header = true) :
    (e.rxPacket srcIp fin).1.Stays := by
  have receives := receives_rxPacket e srcIp bare
  generalize e.rxPacket srcIp fin = outcome at receives
  have chosen : selected [t] (fin.bare srcIp) = some t := selected_of_matches found
  cases receives with
  | nobody _ nobody => exact absurd chosen (by simp [nobody t linked])
  | trapped linkedHere closeWait =>
      cases linked.symm.trans linkedHere
      rw [established] at closeWait
      contradiction
  | heard linkedHere _ =>
      cases linked.symm.trans linkedHere
      exact ⟨_, rfl, .inl ((after_closeWait_iff _).mpr (.inr ⟨established, isFin⟩))⟩

/-- Receiving does not touch the call of `tcp_close`, and no answer carries FIN. -/
theorem rxPacket_plain {srcIp : UInt32} {tx : TcpTx} (bare : tx.payload = []) :
    (e.rxPacket srcIp tx).1.call = e.call ∧
      ∀ answer ∈ (e.rxPacket srcIp tx).2, answer.header.fin = false ∧ answer.payload = [] := by
  have receives := receives_rxPacket e srcIp bare
  generalize e.rxPacket srcIp tx = outcome at receives
  cases receives with
  | nobody plain _ => exact ⟨rfl, plain⟩
  | trapped _ _ => exact ⟨rfl, fun answer sent => nomatch sent⟩
  | heard _ _ => exact ⟨rfl, fun answer sent => answer_plain sent⟩

end Stays

end CloseEnd

namespace Teardown

/-- An end that no FIN will reach any more is in a state from which only a FIN
leads to `TIME_WAIT`. -/
structure Doomed (s : Teardown) (side : Side) : Prop where
  stays : (s.ends side).Stays
  noFin : ∀ tx ∈ s.wire side.other, tx.header.fin = false
  called : (s.ends side.other).call ≠ .pending
  bare : ∀ each, ∀ tx ∈ s.wire each, tx.payload = []

section Doomed

variable {ip : Side → UInt32} {s after : Teardown} {side : Side}

theorem Doomed.move_self {e : CloseEnd} {rest sent : List TcpTx} (doomed : s.Doomed side)
    (stays : e.Stays) (within : ∀ tx ∈ rest, tx ∈ s.wire side.other)
    (bare : ∀ tx ∈ sent, tx.payload = []) : (s.move side e rest sent).Doomed side := by
  constructor
  · rw [move_ends_self]
    exact stays
  · rw [move_wire_other]
    exact fun tx waiting => doomed.noFin tx (within tx waiting)
  · rw [move_ends_other]
    exact doomed.called
  · apply @Side.forall_of (fun each => ∀ tx ∈ (s.move side e rest sent).wire each,
      tx.payload = []) side
    · intro tx waiting
      rw [move_wire_self] at waiting
      rcases List.mem_append.mp waiting with old | new
      · exact doomed.bare side tx old
      · exact bare tx new
    · intro tx waiting
      rw [move_wire_other] at waiting
      exact doomed.bare side.other tx (within tx waiting)

theorem Doomed.move_other {e : CloseEnd} {rest sent : List TcpTx} (doomed : s.Doomed side)
    (called : e.call ≠ .pending) (within : ∀ tx ∈ rest, tx ∈ s.wire side)
    (plain : ∀ tx ∈ sent, tx.header.fin = false ∧ tx.payload = []) :
    (s.move side.other e rest sent).Doomed side := by
  have ends : (s.move side.other e rest sent).ends side = s.ends side := by
    have kept := @move_ends_other s side.other e rest sent
    rwa [Side.other_other] at kept
  have wire : (s.move side.other e rest sent).wire side = rest := by
    have left := @move_wire_other s side.other e rest sent
    rwa [Side.other_other] at left
  constructor
  · rw [ends]
    exact doomed.stays
  · intro tx waiting
    rw [move_wire_self] at waiting
    rcases List.mem_append.mp waiting with old | new
    · exact doomed.noFin tx old
    · exact (plain tx new).1
  · rw [move_ends_self]
    exact called
  · apply @Side.forall_of (fun each => ∀ tx ∈ (s.move side.other e rest sent).wire each,
      tx.payload = []) side
    · intro tx waiting
      rw [wire] at waiting
      exact doomed.bare side tx (within tx waiting)
    · intro tx waiting
      rw [move_wire_self] at waiting
      rcases List.mem_append.mp waiting with old | new
      · exact doomed.bare side.other tx old
      · exact (plain tx new).2

theorem Doomed.step_self {event : TeardownEvent}
    (own : event = .close side ∨ event = .closeReturn side ∨ event = .deliver side ∨
      event = .tick side)
    (doomed : s.Doomed side) (taken : Teardown.step ip s event = some after) :
    after.Doomed side := by
  rcases own with rfl | rfl | rfl | rfl
  · rcases Option.ite_none_left_eq_some.mp taken with ⟨_, taken⟩
    rcases Option.map_eq_some_iff.mp taken with ⟨⟨e, fin⟩, called, rfl⟩
    rcases doomed.stays.close called with ⟨stays, bare⟩
    apply doomed.move_self stays (fun _ => id)
    intro tx sent
    rw [List.mem_singleton.mp sent]
    exact bare
  · rcases Option.ite_none_left_eq_some.mp taken with ⟨_, taken⟩
    rcases Option.map_eq_some_iff.mp taken with ⟨e, returned, rfl⟩
    exact doomed.move_self (CloseEnd.closeReturn_eq_some returned).1 (fun _ => id)
      (List.forall_mem_nil _)
  · simp only [Teardown.step] at taken
    split at taken
    · contradiction
    · rename_i tx rest wire
      have within : ∀ later ∈ rest, later ∈ s.wire side.other := by
        intro later waiting
        rw [wire]
        exact List.mem_cons_of_mem tx waiting
      have head : tx ∈ s.wire side.other := by
        rw [wire]
        exact List.mem_cons_self
      have bare := doomed.bare side.other tx head
      split at taken
      · cases taken
        exact doomed.move_self doomed.stays within (List.forall_mem_nil _)
      · cases taken
        exact doomed.move_self (doomed.stays.rxPacket bare (doomed.noFin tx head)) within
          (fun answer sent => ((CloseEnd.rxPacket_plain bare).2 answer sent).2)
  · rcases Option.ite_none_left_eq_some.mp taken with ⟨_, taken⟩
    cases taken
    exact doomed.move_self doomed.stays.tick (fun _ => id) (List.forall_mem_nil _)

theorem Doomed.step_other {event : TeardownEvent}
    (foreign : event = .close side.other ∨ event = .closeReturn side.other ∨
      event = .deliver side.other ∨ event = .tick side.other)
    (doomed : s.Doomed side) (taken : Teardown.step ip s event = some after) :
    after.Doomed side := by
  have kept : ∀ tx ∈ s.wire side.other.other, tx ∈ s.wire side := by
    rw [Side.other_other]
    exact fun _ => id
  rcases foreign with rfl | rfl | rfl | rfl
  · rcases Option.ite_none_left_eq_some.mp taken with ⟨_, taken⟩
    rcases Option.map_eq_some_iff.mp taken with ⟨called, close, _⟩
    rcases Option.ite_none_right_eq_some.mp close with ⟨pending, _⟩
    exact absurd pending doomed.called
  · rcases Option.ite_none_left_eq_some.mp taken with ⟨_, taken⟩
    rcases Option.map_eq_some_iff.mp taken with ⟨e, returned, rfl⟩
    apply doomed.move_other _ kept (List.forall_mem_nil _)
    rw [(CloseEnd.closeReturn_eq_some returned).2]
    decide
  · simp only [Teardown.step] at taken
    split at taken
    · contradiction
    · rename_i tx rest wire
      rw [Side.other_other] at wire
      have within : ∀ later ∈ rest, later ∈ s.wire side := by
        intro later waiting
        rw [wire]
        exact List.mem_cons_of_mem tx waiting
      have bare : tx.payload = [] := by
        apply doomed.bare side
        rw [wire]
        exact List.mem_cons_self
      split at taken
      · cases taken
        exact doomed.move_other doomed.called within (List.forall_mem_nil _)
      · cases taken
        obtain ⟨call, plain⟩ := @CloseEnd.rxPacket_plain (s.ends side.other)
          (ip side.other.other) tx bare
        apply doomed.move_other _ within plain
        rw [call]
        exact doomed.called
  · rcases Option.ite_none_left_eq_some.mp taken with ⟨_, taken⟩
    cases taken
    exact doomed.move_other doomed.called kept (List.forall_mem_nil _)

theorem Doomed.step {event : TeardownEvent} (doomed : s.Doomed side)
    (taken : Teardown.step ip s event = some after) : after.Doomed side := by
  cases event with
  | close each =>
      rcases Side.eq_or_eq_other side each with rfl | rfl
      · exact doomed.step_self (.inl rfl) taken
      · exact doomed.step_other (.inl rfl) taken
  | closeReturn each =>
      rcases Side.eq_or_eq_other side each with rfl | rfl
      · exact doomed.step_self (.inr (.inl rfl)) taken
      · exact doomed.step_other (.inr (.inl rfl)) taken
  | deliver each =>
      rcases Side.eq_or_eq_other side each with rfl | rfl
      · exact doomed.step_self (.inr (.inr (.inl rfl))) taken
      · exact doomed.step_other (.inr (.inr (.inl rfl))) taken
  | tick each =>
      rcases Side.eq_or_eq_other side each with rfl | rfl
      · exact doomed.step_self (.inr (.inr (.inr rfl))) taken
      · exact doomed.step_other (.inr (.inr (.inr rfl))) taken

theorem Doomed.run {events : List TeardownEvent} (doomed : s.Doomed side)
    (executed : Transition.run (Teardown.step ip) s events = some after) : after.Doomed side :=
  invariant_of_reachable (fun _ _ _ doomed taken => Doomed.step doomed taken) doomed
    ⟨events, executed⟩

/-- A doomed end is never freed. -/
theorem Doomed.not_freed {t : Side → Tcb} (doomed : s.Doomed side) : ¬s.Freed t := by
  intro freed
  rcases doomed.stays with ⟨u, linked, _⟩
  rw [(freed side).1] at linked
  contradiction

/-- A delivery before the receiver's `tcp_close` has returned dooms it. -/
theorem Orderly.doomed {t : Side → Tcb} {phase : Side → Phase} {history : Side → List TcpTx}
    {event : TeardownEvent} (sync : Synchronised ip t) (orderly : Orderly t s phase history)
    (early : ¬s.AfterClose event) (taken : Teardown.step ip s event = some after) :
    ∃ side, after.Doomed side := by
  cases event with
  | close side => exact absurd trivial early
  | closeReturn side => exact absurd trivial early
  | tick side => exact absurd trivial early
  | deliver side =>
      refine ⟨side, ?_⟩
      have at_ := orderly.ends side
      simp only [Teardown.step] at taken
      split at taken
      · contradiction
      · rename_i tx rest wire
        rw [at_.going, if_neg Bool.false_ne_true] at taken
        cases taken
        rcases at_.early early with ⟨untaken, t, linked, continues, established⟩
        rcases orderly.head_of_untaken untaken wire with ⟨from_, isFin, _⟩
        have transmitted := orderly.wire side.other
        rw [Side.other_other, untaken, List.drop_zero, wire] at transmitted
        have left : rest = (history side.other).drop 1 := by
          rw [← transmitted]
          rfl
        obtain ⟨_, plain⟩ := @CloseEnd.rxPacket_plain (s.ends side) (ip side.other) tx
          from_.payload
        constructor
        · rw [move_ends_self]
          exact CloseEnd.stays_of_fin linked established from_.payload isFin
            (sync.matches_ from_ continues)
        · rw [move_wire_other, left]
          exact (orderly.said side.other).noFin
        · rw [move_ends_other]
          intro pending
          have said := orderly.said side.other
          rw [(orderly.ends side.other).of_pending pending, ← transmitted] at said
          have nothing := said.length_eq
          contradiction
        · apply @Side.forall_of (fun each => ∀ tx ∈ (s.move side _ rest _).wire each,
            tx.payload = []) side
          · rw [move_wire_self]
            intro later waiting
            rcases List.mem_append.mp waiting with old | new
            · exact orderly.bare side later old
            · exact (plain later new).2
          · rw [move_wire_other]
            intro later waiting
            apply orderly.bare side.other
            rw [wire]
            exact List.mem_cons_of_mem tx waiting

/-- A close that freed both ends in the end was a simultaneous one. -/
theorem Orderly.guarded {t : Side → Tcb} {phase : Side → Phase} {history : Side → List TcpTx}
    {events : List TeardownEvent} (sync : Synchronised ip t) (orderly : Orderly t s phase history)
    (executed : Transition.run (Teardown.step ip) s events = some after) (freed : after.Freed t) :
    Guarded (Teardown.step ip) AfterClose s events := by
  induction events generalizing s phase history with
  | nil => trivial
  | cons event events ih =>
      intro middle taken
      rcases Option.bind_eq_some_iff.mp executed with ⟨target, step, rest⟩
      cases step.symm.trans taken
      by_cases afterClose : s.AfterClose event
      · rcases orderly.step sync afterClose taken with ⟨phase, history, orderly⟩
        exact ⟨afterClose, ih orderly rest⟩
      · rcases orderly.doomed sync afterClose taken with ⟨side, doomed⟩
        exact absurd freed (doomed.run rest).not_freed

end Doomed

end Teardown

/-- A close of both ends that has ended has freed every TCB and both its blocks
once exactly when no segment was delivered before the `tcp_close` of its receiver
had returned. -/
theorem teardown_freed_iff {ip : Side → UInt32} {t : Side → Tcb} {events : List TeardownEvent}
    {s : Teardown} (sync : Synchronised ip t)
    (executed : run (Teardown.step ip) (Teardown.start t) events = some s) (ended : s.Ended) :
    s.Freed t ↔ Guarded (Teardown.step ip) Teardown.AfterClose (Teardown.start t) events := by
  have initial := Teardown.orderly_start sync
  constructor
  · exact initial.guarded sync executed
  · intro guarded
    obtain ⟨phase, history, orderly⟩ := @invariant_of_guarded _ _ _
      (fun s => ∃ phase history, Teardown.Orderly t s phase history) _
      (fun s event after ⟨phase, history, orderly⟩ afterClose taken =>
        orderly.step sync afterClose taken) _ _ _ ⟨_, _, initial⟩ guarded executed
    exact orderly.freed ended

/-- An end in `TIME_WAIT` with the number of ticks that its timer has left.  The other
end and the wire are as in `s`. -/
structure Teardown.Lingers (s : Teardown) (side : Side) (t : Tcb) (call : CloseCall) (left : Nat)
    (later : Teardown) : Prop where
  here : later.ends side = ⟨some t, call, false, []⟩
  timeWait : t.state = .timeWait
  armed : t.decrementTimeout = true
  left : t.timeout.toNat = left
  other : later.ends side.other = s.ends side.other
  wire : later.wire = s.wire

/-- What a tick makes of it. -/
theorem Teardown.Lingers.step {ip : Side → UInt32} {s later : Teardown} {side : Side} {t : Tcb}
    {call : CloseCall} {left : Nat} (lingers : s.Lingers side t call left later) :
    ∃ after, Teardown.step ip later (.tick side) = some after ∧
      after.ends side = (later.ends side).tick ∧
      after.ends side.other = s.ends side.other ∧ after.wire = s.wire := by
  refine ⟨later.move side (later.ends side).tick (later.wire side.other) [], ?_, move_ends_self,
    move_ends_other.trans lingers.other, ?_⟩
  · simp [Teardown.step, lingers.here]
  · simp [Teardown.move, lingers.wire]

/-- The timer of `TIME_WAIT`, left alone, runs out after as many ticks as it has
left, and one more. -/
theorem Teardown.run_ticks {ip : Side → UInt32} {s : Teardown} {side : Side} {t : Tcb}
    {call : CloseCall} (here : s.ends side = ⟨some t, call, false, []⟩)
    (timeWait : t.state = .timeWait) (armed : t.decrementTimeout = true) :
    ∃ after, run (Teardown.step ip) s (List.replicate (t.timeout.toNat + 1) (.tick side)) =
        some after ∧
      after.ends side = ⟨none, call, false, [.rxBuf t.addr, .tcb t.addr]⟩ ∧
      after.ends side.other = s.ends side.other ∧ after.wire = s.wire := by
  have counts (left : Nat) (later : Teardown)
      (lingers : ∃ u, u.addr = t.addr ∧ s.Lingers side u call (left + 1) later) :
      ∃ after, Teardown.step ip later (.tick side) = some after ∧
        ∃ u, u.addr = t.addr ∧ s.Lingers side u call left after := by
    rcases lingers with ⟨u, addr, lingers⟩
    rcases lingers.step with ⟨after, taken, ended, other, wire⟩
    rcases tickTcb_of_left lingers.armed lingers.left with ⟨ticked, less⟩
    refine ⟨after, taken, { u with timeout := u.timeout - 1 }, addr, ?_, lingers.timeWait,
      lingers.armed, less, other, wire⟩
    rw [ended, lingers.here]
    simp [CloseEnd.tick, ticked, tickTcbFreed]
  obtain ⟨last, executed, u, addr, lingers⟩ :=
    @run_replicate _ _ _ _
      (fun left later => ∃ u, u.addr = t.addr ∧ s.Lingers side u call left later) counts _ _
      ⟨t, rfl, here, timeWait, armed, rfl, rfl, rfl⟩
  rcases lingers.step with ⟨after, taken, ended, other, wire⟩
  have zero : u.timeout = 0 := UInt16.toNat_inj.mp lingers.left
  have ticked := tickTcb_of_timeWait ⟨lingers.armed, zero⟩ lingers.timeWait
  refine ⟨after, ?_, ?_, other, wire⟩
  · rw [List.replicate_succ']
    apply run_append executed
    rw [run_cons, taken]
    rfl
  · rw [ended, lingers.here]
    simp [CloseEnd.tick, ticked, tickTcbFreed, addr]

/-- The addresses of `main` and its peer. -/
def mainIp : Side → UInt32
  | .connecting => 0xc0a800ab
  | .listening => 0xc0a80476

/-- The connection of `main` and its other end. -/
def mainEnds : Side → Tcb
  | .connecting => mainConnection
  | .listening => { mainConnection with srcPort := 5757, dstPort := 65355, dstIp := 0xc0a800ab }

theorem synchronised_mainEnds : Synchronised mainIp mainEnds where
  established side := by cases side <;> rfl
  numbers side := by cases side <;> rfl
  ports side := by cases side <;> rfl
  peer side := by cases side <;> rfl

/-- Enough ticks for the timer of `TIME_WAIT`. -/
def expiry (side : Side) : List TeardownEvent :=
  List.replicate (tcpTimeout.toNat + 1) (.tick side)

/-- Both applications close before either FIN arrives. -/
def mainBothClose : List TeardownEvent :=
  [.close .connecting, .close .listening, .closeReturn .connecting, .closeReturn .listening,
    .deliver .connecting, .deliver .listening, .deliver .connecting, .deliver .listening]

/-- One application closes, and the other once it has seen the FIN. -/
def mainOneCloses : List TeardownEvent :=
  [.close .connecting, .closeReturn .connecting, .deliver .listening, .close .listening,
    .closeReturn .listening, .deliver .connecting, .deliver .connecting, .deliver .listening]

/-- An end whose timer of `TIME_WAIT` has just been started. -/
structure CloseEnd.Waits (e : CloseEnd) (t : Tcb) : Prop where
  here : e = ⟨some t, .returned, false, []⟩
  timeWait : t.state = .timeWait
  armed : t.decrementTimeout = true
  full : t.timeout = tcpTimeout

theorem Teardown.run_expiry {ip : Side → UInt32} {s : Teardown} {side : Side} {t : Tcb}
    (waits : (s.ends side).Waits t) :
    ∃ after, run (Teardown.step ip) s (expiry side) = some after ∧
      after.ends side = ⟨none, .returned, false, [.rxBuf t.addr, .tcb t.addr]⟩ ∧
      after.ends side.other = s.ends side.other ∧ after.wire = s.wire := by
  have ticks := @run_ticks ip s side t _ waits.here waits.timeWait waits.armed
  rw [waits.full] at ticks
  exact ticks

theorem run_mainBothClose :
    ∃ s, run (Teardown.step mainIp) (Teardown.start mainEnds) mainBothClose = some s ∧
      (∃ t, (s.ends .connecting).Waits t) ∧ (∃ t, (s.ends .listening).Waits t) ∧
      ∀ side, s.wire side = [] := by
  refine ⟨_, rfl, ⟨_, rfl, rfl, rfl, rfl⟩, ⟨_, rfl, rfl, rfl, rfl⟩, ?_⟩
  intro side
  cases side <;> rfl

theorem run_mainOneCloses :
    ∃ s, run (Teardown.step mainIp) (Teardown.start mainEnds) mainOneCloses = some s ∧
      (∃ t, (s.ends .connecting).Waits t) ∧
      (∃ t, s.ends .listening = ⟨some t, .returned, false, []⟩ ∧ t.state = .lastAck) ∧
      ∀ side, s.wire side = [] := by
  refine ⟨_, rfl, ⟨_, rfl, rfl, rfl, rfl⟩, ⟨_, rfl, rfl⟩, ?_⟩
  intro side
  cases side <;> rfl

theorem teardown_freed_iff_main :
    ∃ s, run (Teardown.step mainIp) (Teardown.start mainEnds)
        (mainBothClose ++ expiry .connecting ++ expiry .listening) = some s ∧
      (s.Freed mainEnds ↔ Guarded (Teardown.step mainIp) Teardown.AfterClose
        (Teardown.start mainEnds)
          (mainBothClose ++ expiry .connecting ++ expiry .listening)) := by
  rcases run_mainBothClose with ⟨closed, executed, ⟨t, waits⟩, ⟨u, waitsThere⟩, delivered⟩
  rcases @Teardown.run_expiry mainIp _ _ _ waits with ⟨first, ticked, here, there, wire⟩
  change first.ends .listening = closed.ends .listening at there
  rw [← there] at waitsThere
  obtain ⟨last, tickedThere, hereLast, thereLast, wireLast⟩ :=
    @Teardown.run_expiry mainIp _ _ _ waitsThere
  change last.ends .connecting = first.ends .connecting at thereLast
  have whole := run_append (run_append executed ticked) tickedThere
  refine ⟨last, whole, teardown_freed_iff synchronised_mainEnds whole ?_⟩
  rw [here] at thereLast
  constructor
  · intro side
    cases side with
    | connecting => exact .inl (congrArg CloseEnd.call thereLast)
    | listening => exact .inl (congrArg CloseEnd.call hereLast)
  · intro side
    rw [wireLast, wire]
    exact delivered side
  · intro side v linked
    cases side with
    | connecting => cases (congrArg CloseEnd.tcb thereLast).symm.trans linked
    | listening => cases (congrArg CloseEnd.tcb hereLast).symm.trans linked

/-- The end that closes second stays in `LAST_ACK`. -/
theorem teardown_not_freed_mainOneCloses :
    Synchronised mainIp mainEnds ∧ ∃ s, run (Teardown.step mainIp) (Teardown.start mainEnds)
        (mainOneCloses ++ expiry .connecting) = some s ∧ s.Ended ∧ ¬s.Freed mainEnds := by
  rcases run_mainOneCloses with ⟨closed, executed, ⟨t, waits⟩, ⟨u, stuck, lastAck⟩, delivered⟩
  rcases @Teardown.run_expiry mainIp _ _ _ waits with ⟨last, ticked, here, there, wire⟩
  change last.ends .listening = closed.ends .listening at there
  rw [stuck] at there
  refine ⟨synchronised_mainEnds, last, run_append executed ticked, ?_, ?_⟩
  · constructor
    · intro side
      cases side with
      | connecting => exact .inl (congrArg CloseEnd.call here)
      | listening => exact .inl (congrArg CloseEnd.call there)
    · intro side
      rw [wire]
      exact delivered side
    · intro side v linked timeWait
      cases side with
      | connecting => cases (congrArg CloseEnd.tcb here).symm.trans linked
      | listening =>
          cases (congrArg CloseEnd.tcb there).symm.trans linked
          rw [lastAck] at timeWait
          contradiction
  · intro freed
    cases (congrArg CloseEnd.tcb there).symm.trans (freed .listening).1

end Lpc17xx.Tcp
