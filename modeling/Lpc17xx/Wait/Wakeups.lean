import Mathlib.Data.List.Perm.Basic
import Lpc17xx.Wait.Core

/-!
# No wakeup is lost

A task goes to sleep in the step in which it finds the queue empty, and a wakeup leaves
nobody asleep.  So a task sleeps beside an item only while the process that has inserted
it has not come to its wakeup.
-/

namespace Lpc17xx.Wait

open Lpc17xx.Link
open Lpc17xx.Process
open Lpc17xx.Transition

universe u

namespace TaskQueue

variable {α : Type u} {s after : TaskQueue α} {proc : Nat}

/-- The task sleeps in the wait for the queue. -/
def Sleeps (s : TaskQueue α) (proc : Nat) : Prop :=
  s.position proc = .asleep ∧ s.state proc = .waiting

/-- A process is between its insertion and the end of its wakeup. -/
def Inserting (s : TaskQueue α) : Prop :=
  ∃ proc, s.position proc = .inserted

/-- While nobody is inserting, no task sleeps beside an item.  Every wait node that was
allocated is linked or has been freed, and no node is both or has been freed twice; the
process that a linked node names is waiting. -/
structure Served (s : TaskQueue α) : Prop where
  awake : ¬s.Inserting → s.queue ≠ [] → s.waitq = [] ∧ ∀ proc, ¬s.Sleeps proc
  nodes : (s.waitq.map WaitingProc.block ++ s.freed).Perm (List.range s.allocated)
  waiting : ∀ waitproc ∈ s.waitq, s.state waitproc.proc = .waiting

/-- The nodes that are linked name the tasks that sleep, each once. -/
structure Sound (s : TaskQueue α) : Prop where
  pending : s.queue ≠ [] → s.waitq ≠ [] → s.Inserting
  sleepers : ∀ proc, proc ∈ s.waitq.map WaitingProc.proc ↔ s.Sleeps proc
  once : (s.waitq.map WaitingProc.proc).Nodup
  nodes : (s.waitq.map WaitingProc.block ++ s.freed).Perm (List.range s.allocated)

theorem Sound.served (sound : s.Sound) : s.Served where
  awake := by
    intro nobody nonempty
    have empty : s.waitq = [] := by
      by_contra linked
      exact nobody (sound.pending nonempty linked)
    refine ⟨empty, ?_⟩
    intro proc sleeps
    have member := (sound.sleepers proc).mpr sleeps
    rw [empty] at member
    exact List.not_mem_nil member
  nodes := sound.nodes
  waiting := fun waitproc member =>
    ((sound.sleepers waitproc.proc).mp (List.mem_map_of_mem member)).2

theorem sound_start (state : Nat → ProcState) : (start state : TaskQueue α).Sound where
  pending := fun nonempty => absurd rfl nonempty
  sleepers := fun proc => by simp [start, Sleeps]
  once := List.nodup_nil
  nodes := .refl _

/-- The loop of `waitqueue_wakeup`, by induction on the nodes that are linked. -/
theorem foldl_wakeupRound {nodes : List WaitingProc} (linked : s.waitq = nodes) :
    nodes.foldl wakeupRound s =
      { s with
        state := fun proc =>
          if proc ∈ nodes.map WaitingProc.proc then .running else s.state proc
        waitq := []
        freed := (nodes.map WaitingProc.block).reverse ++ s.freed } := by
  induction nodes generalizing s with
  | nil =>
      simp only [List.foldl_nil, List.map_nil, List.not_mem_nil, if_false, List.reverse_nil,
        List.nil_append]
      rw [← linked]
  | cons first rest ih =>
      have left : (s.wakeupRound first).waitq = rest := by
        simp [wakeupRound, listDel, linked]
      rw [List.foldl_cons, ih left]
      simp only [wakeupRound, setState, List.map_cons, List.reverse_cons, List.append_assoc,
        List.singleton_append, TaskQueue.mk.injEq, true_and, and_true]
      funext proc
      by_cases same : proc = first.proc
      · subst same
        simp
      · simp [same]

theorem waitqueueWakeup_eq (s : TaskQueue α) :
    s.waitqueueWakeup =
      { s with
        state := fun proc =>
          if proc ∈ s.waitq.map WaitingProc.proc then .running else s.state proc
        waitq := []
        freed := (s.waitq.map WaitingProc.block).reverse ++ s.freed } :=
  foldl_wakeupRound rfl

/-- A wakeup leaves nobody asleep, whatever has been inserted before. -/
theorem Sound.waitqueueWakeup {queue : List α} (sound : s.Sound) :
    (waitqueueWakeup { s with queue }).Sound := by
  rw [waitqueueWakeup_eq]
  constructor
  · intro _ linked
    exact absurd rfl linked
  · intro proc
    simp only [List.map_nil, List.not_mem_nil, Sleeps, false_iff, not_and]
    intro asleep
    split
    · simp
    · rename_i apart
      exact fun waiting => apart ((sound.sleepers proc).mpr ⟨asleep, waiting⟩)
  · exact List.nodup_nil
  · have reversed := (List.reverse_perm (s.waitq.map WaitingProc.block)).append_right s.freed
    exact reversed.trans sound.nodes

/-- A process moves on without going to sleep, and sleeps no more. -/
theorem Sound.moved {position : Position} (sound : s.Sound) (awake : ¬s.Sleeps proc)
    (position_ne : position ≠ .asleep)
    (inserting : s.queue ≠ [] → s.waitq ≠ [] → (s.move proc position).Inserting) :
    (s.move proc position).Sound where
  pending := inserting
  sleepers := by
    intro other
    rw [show (s.move proc position).waitq = s.waitq from rfl, sound.sleepers]
    by_cases same : other = proc
    · subst same
      simp [Sleeps, move, position_ne] at awake ⊢
      exact awake
    · simp [Sleeps, move, Function.update_of_ne same]
  once := sound.once
  nodes := sound.nodes

/-- Another process is still inserting. -/
theorem Inserting.move (inserting : s.Inserting) {position : Position}
    (other : s.position proc ≠ .inserted) : (s.move proc position).Inserting := by
  rcases inserting with ⟨inserter, place⟩
  refine ⟨inserter, ?_⟩
  have apart : inserter ≠ proc := by
    rintro rfl
    exact other place
  simpa [TaskQueue.move, Function.update_of_ne apart] using place

/-- The queue may change when somebody is inserting or nobody is on the wait queue. -/
theorem Sound.queued {queue : List α} (sound : s.Sound)
    (pending : queue ≠ [] → s.waitq ≠ [] → s.Inserting) : Sound { s with queue } :=
  ⟨pending, sound.sleepers, sound.once, sound.nodes⟩

/-- In other code a process sleeps on something else. -/
theorem Sound.elsewhere {state : ProcState} (sound : s.Sound)
    (place : s.position proc = .elsewhere) : (s.setState proc state).Sound where
  pending := sound.pending
  sleepers := by
    intro other
    rw [show (s.setState proc state).waitq = s.waitq from rfl, sound.sleepers]
    by_cases same : other = proc
    · subst same
      simp [Sleeps, setState, place]
    · simp [Sleeps, setState, Function.update_of_ne same]
  once := sound.once
  nodes := sound.nodes

/-- A task that finds the queue empty goes to sleep with a node of its own. -/
theorem Sound.waitqueueWait (sound : s.Sound) (empty : s.queue = []) (awake : ¬s.Sleeps proc) :
    (s.waitqueueWait proc).Sound where
  pending := fun nonempty => absurd empty nonempty
  sleepers := by
    intro other
    rw [show (s.waitqueueWait proc).waitq.map WaitingProc.proc =
      proc :: s.waitq.map WaitingProc.proc from rfl, List.mem_cons, sound.sleepers]
    by_cases same : other = proc
    · subst same
      simp [Sleeps, TaskQueue.waitqueueWait, move, setState]
    · simp [Sleeps, TaskQueue.waitqueueWait, move, setState, same]
  once := List.nodup_cons.mpr ⟨fun member => awake ((sound.sleepers proc).mp member), sound.once⟩
  nodes := by
    change (s.allocated :: (s.waitq.map WaitingProc.block ++ s.freed)).Perm _
    have more : (List.range (s.allocated + 1)).Perm (s.allocated :: List.range s.allocated) := by
      rw [List.range_succ]
      exact List.perm_append_singleton _ _
    exact (sound.nodes.cons s.allocated).trans more.symm

theorem Sound.goOn (sound : s.Sound) (running : s.state proc = .running)
    (taken : s.goOn proc = some after) : after.Sound := by
  have awake : ¬s.Sleeps proc := by
    rintro ⟨_, waiting⟩
    rw [running] at waiting
    contradiction
  unfold TaskQueue.goOn at taken
  cases place : s.position proc with
  | elsewhere =>
      simp only [place] at taken
      contradiction
  | inserted =>
      simp only [place] at taken
      cases taken
      have woken : s.waitqueueWakeup.Sound := @Sound.waitqueueWakeup α s s.queue sound
      have none : s.waitqueueWakeup.waitq = [] := by rw [waitqueueWakeup_eq]
      refine woken.moved ?_ (by simp) fun _ linked => absurd none linked
      rw [← woken.sleepers, none]
      exact List.not_mem_nil
  | testing =>
      have notInserting : s.position proc ≠ .inserted := by simp [place]
      simp only [place] at taken
      cases taken
      split
      · rename_i empty
        exact sound.waitqueueWait (List.isEmpty_iff.mp empty) awake
      · exact sound.moved awake (by simp) fun nonempty linked =>
          (sound.pending nonempty linked).move notInserting
  | asleep =>
      have notInserting : s.position proc ≠ .inserted := by simp [place]
      simp only [place] at taken
      cases taken
      exact sound.moved awake (by simp) fun nonempty linked =>
        (sound.pending nonempty linked).move notInserting
  | popping =>
      have notInserting : s.position proc ≠ .inserted := by simp [place]
      simp only [place] at taken
      cases taken
      have moved : (s.move proc .elsewhere).Sound :=
        sound.moved awake (by simp) fun nonempty linked =>
          (sound.pending nonempty linked).move notInserting
      have left : (listPop s.queue).2 ≠ [] → s.queue ≠ [] := by
        intro rest empty
        rw [empty] at rest
        exact rest rfl
      have popped := @Sound.queued α _ (listPop s.queue).2 moved fun rest linked =>
        moved.pending (left rest) linked
      exact ⟨popped.pending, popped.sleepers, popped.once, popped.nodes⟩

theorem Sound.step {event : QueueEvent α} (sound : s.Sound)
    (taken : TaskQueue.step s event = some after) : after.Sound := by
  cases event with
  | await proc =>
      rcases Option.ite_none_right_eq_some.mp taken with ⟨⟨_, place⟩, taken⟩
      cases taken
      exact sound.moved (by simp [Sleeps, place]) (by simp) fun nonempty linked =>
        (sound.pending nonempty linked).move (by simp [place])
  | xmitPacket proc item =>
      rcases Option.ite_none_right_eq_some.mp taken with ⟨⟨_, place⟩, taken⟩
      cases taken
      have inserting : (s.move proc .inserted).Inserting := ⟨proc, by simp [move]⟩
      have moved : (s.move proc .inserted).Sound :=
        sound.moved (by simp [Sleeps, place]) (by simp) fun _ _ => inserting
      exact moved.queued fun _ _ => inserting
  | packetInject item =>
      cases taken
      exact sound.waitqueueWakeup
  | goOn proc =>
      rcases Option.ite_none_right_eq_some.mp taken with ⟨running, taken⟩
      exact sound.goOn running taken
  | sleepElsewhere proc =>
      rcases Option.ite_none_right_eq_some.mp taken with ⟨⟨_, place⟩, taken⟩
      cases taken
      exact sound.elsewhere place
  | wakeElsewhere proc =>
      rcases Option.ite_none_right_eq_some.mp taken with ⟨⟨_, place⟩, taken⟩
      cases taken
      exact sound.elsewhere place

end TaskQueue

/-- Along every run of any number of tasks, of processes that insert, and of handlers. -/
theorem taskQueue_served {α : Type u} (state : Nat → ProcState) (events : List (QueueEvent α)) :
    Along TaskQueue.step (fun _ _ after => after.Served) (.start state) events :=
  along_of_invariant (fun _ _ _ sound taken => TaskQueue.Sound.step sound taken)
    (fun _ _ _ sound taken => (TaskQueue.Sound.step sound taken).served)
    (TaskQueue.sound_start state) events

end Lpc17xx.Wait
