import Lpc17xx.Transition.Refinement
import Lpc17xx.Wait.Wakeups
import Mathlib.Algebra.Ring.Nat

/-!
# The tasks drain their queue

Once nobody inserts any more, the tasks come to rest, in whatever order they take their
steps.  A pop pays for the tasks that have seen the item it takes and find the queue empty,
and a wakeup for those that it wakes.
-/

namespace Lpc17xx.Wait

open Lpc17xx.Link
open Lpc17xx.Process
open Lpc17xx.Transition

universe u

/-- What is left for a process at a position, among `count`: whether it sleeps there, and
whether it will find the queue empty. -/
def Position.stepsLeft (count : Nat) (sleeps empty : Bool) : Position → Nat
  | .elsewhere => 2
  | .inserted => 2 * count + 3
  | .testing => 1
  | .asleep => if sleeps then 0 else 2
  | .popping => if empty then 3 else 0

namespace TaskQueue

variable {α : Type u}

/-- The processes that take part: `tasks` wait for the queue, and `threads` insert. -/
def Among (tasks threads : List Nat) (_ : TaskQueue α) : QueueEvent α → Prop
  | .await proc => proc ∈ tasks
  | .xmitPacket proc _ => proc ∈ threads
  | _ => True

/-- Nobody inserts any more. -/
def NoInsertion (tasks : List Nat) (_ : TaskQueue α) : QueueEvent α → Prop
  | .await proc => proc ∈ tasks
  | .xmitPacket _ _ => False
  | .packetInject _ => False
  | _ => True

instance (tasks threads : List Nat) (s : TaskQueue α) : DecidablePred (s.Among tasks threads)
  | .await _ => inferInstanceAs (Decidable (_ ∈ _))
  | .xmitPacket _ _ => inferInstanceAs (Decidable (_ ∈ _))
  | .packetInject _ | .goOn _ | .sleepElsewhere _ | .wakeElsewhere _ =>
      inferInstanceAs (Decidable True)

instance (tasks : List Nat) (s : TaskQueue α) : DecidablePred (s.NoInsertion tasks)
  | .await _ => inferInstanceAs (Decidable (_ ∈ _))
  | .xmitPacket _ _ | .packetInject _ => inferInstanceAs (Decidable False)
  | .goOn _ | .sleepElsewhere _ | .wakeElsewhere _ => inferInstanceAs (Decidable True)

/-- The steps of processes that are in their waits, on the way to them, or inserting. -/
def effort (_ : TaskQueue α) : QueueEvent α → Nat
  | .await _ => 1
  | .goOn _ => 1
  | _ => 0

/-- What a process may still do on its own. -/
def stepsOf (count : Nat) (s : TaskQueue α) (proc : Nat) : Nat :=
  (s.position proc).stepsLeft count (s.state proc == .waiting) s.queue.isEmpty

/-- At most so many steps are left, unless something is inserted. -/
def stepsLeft (procs : List Nat) (s : TaskQueue α) : Nat :=
  s.queue.length * (3 * procs.length + 3) + (procs.map (s.stepsOf procs.length)).sum

/-- No task and nobody who has inserted can go on. -/
def AtRest (tasks : List Nat) (s : TaskQueue α) : Prop :=
  (∀ proc, step s (.goOn proc) = none) ∧ ∀ task ∈ tasks, step s (.await task) = none

/-- The process is asleep in other code, or has ended. -/
def HeldUp (s : TaskQueue α) (proc : Nat) : Prop :=
  s.position proc = .elsewhere ∧ s.state proc ≠ .running

/-- A process that has come here is one of those that take part, and runs unless it sleeps
in the wait. -/
def Known (procs : List Nat) (s : TaskQueue α) : Prop :=
  ∀ proc, s.position proc ≠ .elsewhere →
    proc ∈ procs ∧ (s.state proc = .running ∨ s.Sleeps proc)

variable {s after : TaskQueue α} {proc : Nat} {procs tasks threads : List Nat}

section Known

theorem known_start (state : Nat → ProcState) (procs : List Nat) :
    (start state : TaskQueue α).Known procs :=
  fun _ other => absurd rfl other

/-- A process that runs moves on. -/
theorem Known.moved {position : Position} (known : s.Known procs) (member : proc ∈ procs)
    (running : s.state proc = .running) : (s.move proc position).Known procs := by
  intro other elsewhere
  by_cases same : other = proc
  · subst same
    exact ⟨member, .inl running⟩
  · have unmoved : (s.move proc position).position other = s.position other :=
      Function.update_of_ne same _ _
    rw [unmoved] at elsewhere
    have before := known other elsewhere
    rwa [Sleeps, ← unmoved] at before

theorem Known.wakeup (known : s.Known procs) : s.waitqueueWakeup.Known procs := by
  rw [waitqueueWakeup_eq]
  intro other elsewhere
  rcases known other elsewhere with ⟨member, running | ⟨asleep, waiting⟩⟩
  · exact ⟨member, .inl (by simp [running])⟩
  · refine ⟨member, ?_⟩
    by_cases woken : other ∈ s.waitq.map WaitingProc.proc
    · exact .inl (if_pos woken)
    · exact .inr ⟨asleep, (if_neg woken).trans waiting⟩

/-- The state of a process in other code does not matter here. -/
theorem Known.elsewhere {state : ProcState} (known : s.Known procs)
    (place : s.position proc = .elsewhere) : (s.setState proc state).Known procs := by
  intro other elsewhere
  have apart : other ≠ proc := by
    rintro rfl
    exact elsewhere place
  have same : (s.setState proc state).state other = s.state other := Function.update_of_ne apart _ _
  have before := known other elsewhere
  rwa [Sleeps, ← same] at before

theorem Known.goOn (known : s.Known procs) (running : s.state proc = .running)
    (taken : s.goOn proc = some after) : after.Known procs := by
  unfold TaskQueue.goOn at taken
  cases place : s.position proc with
  | elsewhere =>
      simp only [place] at taken
      contradiction
  | inserted =>
      have member := (known proc (by simp [place])).1
      simp only [place] at taken
      cases taken
      refine known.wakeup.moved member ?_
      rw [waitqueueWakeup_eq]
      simp [running]
  | testing =>
      have member := (known proc (by simp [place])).1
      simp only [place] at taken
      cases taken
      split
      · intro other elsewhere
        by_cases same : other = proc
        · subst same
          exact ⟨member, .inr ⟨by simp [waitqueueWait, move], by
            simp [waitqueueWait, move, setState]⟩⟩
        · have unmoved : s.position other ≠ .elsewhere := by
            simpa [waitqueueWait, move, setState, same] using elsewhere
          have before := known other unmoved
          simpa [Sleeps, waitqueueWait, move, setState, same] using before
      · exact known.moved member running
  | asleep =>
      have member := (known proc (by simp [place])).1
      simp only [place] at taken
      cases taken
      exact known.moved member running
  | popping =>
      have member := (known proc (by simp [place])).1
      simp only [place] at taken
      cases taken
      exact @Known.moved _ _ _ _ .elsewhere known member running

theorem Known.step {event : QueueEvent α} (known : s.Known (tasks ++ threads))
    (among : s.Among tasks threads event) (taken : TaskQueue.step s event = some after) :
    after.Known (tasks ++ threads) := by
  cases event with
  | await proc =>
      rcases Option.ite_none_right_eq_some.mp taken with ⟨⟨running, _⟩, taken⟩
      cases taken
      exact known.moved (List.mem_append_left _ among) running
  | xmitPacket proc item =>
      rcases Option.ite_none_right_eq_some.mp taken with ⟨⟨running, _⟩, taken⟩
      cases taken
      exact @Known.moved _ _ _ _ .inserted known (List.mem_append_right _ among) running
  | packetInject item =>
      cases taken
      exact @Known.wakeup _ { s with queue := listAdd item s.queue } _ known
  | goOn proc =>
      rcases Option.ite_none_right_eq_some.mp taken with ⟨running, taken⟩
      exact known.goOn running taken
  | sleepElsewhere proc =>
      rcases Option.ite_none_right_eq_some.mp taken with ⟨⟨_, place⟩, taken⟩
      cases taken
      exact known.elsewhere place
  | wakeElsewhere proc =>
      rcases Option.ite_none_right_eq_some.mp taken with ⟨⟨_, place⟩, taken⟩
      cases taken
      exact known.elsewhere place

end Known

section Measure

/-- A sum over the processes falls by what one of them pays, but for what they may gain. -/
theorem sum_map_le {before later : Nat → Nat} {paid gained : Nat} (member : proc ∈ procs)
    (own : later proc + paid ≤ before proc + gained)
    (others : ∀ other, other ≠ proc → later other ≤ before other + gained) :
    (procs.map later).sum + paid ≤ (procs.map before).sum + procs.length * gained := by
  have bound (list : List Nat) :
      (list.map later).sum ≤ (list.map before).sum + list.length * gained := by
    induction list with
    | nil => simp
    | cons first rest ih =>
        have here : later first ≤ before first + gained := by
          by_cases same : first = proc
          · subst same
            omega
          · exact others first same
        simp only [List.map_cons, List.sum_cons, List.length_cons, Nat.succ_mul]
        omega
  rcases List.append_of_mem member with ⟨front, back, rfl⟩
  have inFront := bound front
  have inBack := bound back
  simp only [List.map_append, List.sum_append, List.map_cons, List.sum_cons, List.length_append,
    List.length_cons, Nat.add_mul, Nat.succ_mul]
  omega

/-- A process takes a step, and the queue stays what it is. -/
theorem stepsLeft_of_queue (member : proc ∈ procs) (queue : after.queue = s.queue)
    (own : after.stepsOf procs.length proc + 1 ≤ s.stepsOf procs.length proc)
    (others : ∀ other, other ≠ proc →
      after.stepsOf procs.length other ≤ s.stepsOf procs.length other) :
    1 + after.stepsLeft procs ≤ s.stepsLeft procs := by
  have sum := @sum_map_le proc procs (s.stepsOf procs.length) (after.stepsOf procs.length) 1 0
    member own others
  rw [stepsLeft, stepsLeft, queue]
  omega

/-- Only the process that moves is affected. -/
theorem stepsLeft_move {position : Position} (member : proc ∈ procs)
    (lower : (s.move proc position).stepsOf procs.length proc + 1 ≤
      s.stepsOf procs.length proc) :
    1 + (s.move proc position).stepsLeft procs ≤ s.stepsLeft procs :=
  stepsLeft_of_queue member rfl lower fun other apart =>
    Nat.le_of_eq (by simp [stepsOf, move, apart])

/-- The wakeup after an insertion pays for those that it wakes. -/
theorem stepsLeft_wakeup (member : proc ∈ procs) (place : s.position proc = .inserted) :
    1 + (s.waitqueueWakeup.move proc .elsewhere).stepsLeft procs ≤ s.stepsLeft procs := by
  have others (other : Nat) (apart : other ≠ proc) :
      (s.waitqueueWakeup.move proc .elsewhere).stepsOf procs.length other ≤
        s.stepsOf procs.length other + 2 := by
    rw [waitqueueWakeup_eq]
    simp only [stepsOf, move, Function.update_of_ne apart]
    cases s.position other with
    | asleep =>
        simp only [Position.stepsLeft]
        split <;> split <;> omega
    | _ => exact Nat.le_add_right _ 2
  have own : (s.waitqueueWakeup.move proc .elsewhere).stepsOf procs.length proc +
      (2 * procs.length + 3) ≤ s.stepsOf procs.length proc + 2 := by
    simp [stepsOf, Position.stepsLeft, move, place]
    omega
  have sum := @sum_map_le proc procs (s.stepsOf procs.length)
    ((s.waitqueueWakeup.move proc .elsewhere).stepsOf procs.length)
    (2 * procs.length + 3) 2 member own others
  have queue : (s.waitqueueWakeup.move proc .elsewhere).queue = s.queue := by
    rw [waitqueueWakeup_eq]
    rfl
  rw [stepsLeft, stepsLeft, queue]
  omega

/-- The item that is popped pays for the way back, and for the tasks that will find the
queue empty. -/
theorem stepsLeft_pop {item : α} {rest : List α} {pkt : Nat → Option α} (member : proc ∈ procs)
    (place : s.position proc = .popping) (queue : s.queue = item :: rest) :
    1 + stepsLeft procs { s.move proc .elsewhere with queue := rest, pkt } ≤
      s.stepsLeft procs := by
  have others (other : Nat) (apart : other ≠ proc) :
      stepsOf procs.length { s.move proc .elsewhere with queue := rest, pkt } other ≤
        s.stepsOf procs.length other + 3 := by
    simp only [stepsOf, move, Function.update_of_ne apart]
    cases s.position other with
    | popping =>
        simp only [Position.stepsLeft]
        split <;> omega
    | _ => exact Nat.le_add_right _ 3
  have sum := @sum_map_le proc procs (s.stepsOf procs.length)
    (stepsOf procs.length { s.move proc .elsewhere with queue := rest, pkt }) 1 3 member
    (by simp [stepsOf, Position.stepsLeft, move, place, queue]) others
  have fewer : s.queue.length * (3 * procs.length + 3) =
      rest.length * (3 * procs.length + 3) + (3 * procs.length + 3) := by
    rw [queue, List.length_cons, Nat.succ_mul]
  rw [stepsLeft, stepsLeft, fewer]
  change 1 + (rest.length * (3 * procs.length + 3) + _) ≤ _
  omega

theorem Known.lowers_goOn (known : s.Known procs) (taken : s.goOn proc = some after)
    (running : s.state proc = .running) : 1 + after.stepsLeft procs ≤ s.stepsLeft procs := by
  have member (place : s.position proc ≠ .elsewhere) : proc ∈ procs := (known proc place).1
  unfold TaskQueue.goOn at taken
  cases place : s.position proc with
  | elsewhere =>
      simp only [place] at taken
      contradiction
  | inserted =>
      simp only [place] at taken
      cases taken
      exact stepsLeft_wakeup (member (by simp [place])) place
  | testing =>
      simp only [place] at taken
      cases taken
      split
      · refine stepsLeft_of_queue (member (by simp [place])) rfl ?_ fun other apart => ?_
        · simp [stepsOf, Position.stepsLeft, waitqueueWait, move, setState, place]
        · exact Nat.le_of_eq (by simp [stepsOf, waitqueueWait, move, setState, apart])
      · rename_i filled
        have nonempty : s.queue ≠ [] := fun empty => filled (List.isEmpty_iff.mpr empty)
        exact stepsLeft_move (member (by simp [place]))
          (by simp [stepsOf, Position.stepsLeft, move, place, nonempty])
  | asleep =>
      simp only [place] at taken
      cases taken
      exact stepsLeft_move (member (by simp [place]))
        (by simp [stepsOf, Position.stepsLeft, move, place, running])
  | popping =>
      simp only [place] at taken
      cases taken
      cases queue : s.queue with
      | nil =>
          refine stepsLeft_of_queue (member (by simp [place])) queue.symm ?_ fun other apart => ?_
          · simp [stepsOf, Position.stepsLeft, move, place, queue]
          · exact Nat.le_of_eq (by simp [stepsOf, move, listPop, queue, apart])
      | cons item rest => exact stepsLeft_pop (member (by simp [place])) place queue

theorem Known.lowers {event : QueueEvent α} (known : s.Known (tasks ++ threads))
    (quiet : s.NoInsertion tasks event) (taken : TaskQueue.step s event = some after) :
    s.effort event + after.stepsLeft (tasks ++ threads) ≤ s.stepsLeft (tasks ++ threads) := by
  have unmoved (state : ProcState) (proc : Nat) (place : s.position proc = .elsewhere) :
      (s.setState proc state).stepsLeft (tasks ++ threads) = s.stepsLeft (tasks ++ threads) := by
    have same (count : Nat) : (s.setState proc state).stepsOf count = s.stepsOf count := by
      funext other
      by_cases same : other = proc
      · subst same
        simp [stepsOf, Position.stepsLeft, setState, place]
      · simp [stepsOf, setState, same]
    rw [stepsLeft, stepsLeft, same]
    rfl
  cases event with
  | await proc =>
      rcases Option.ite_none_right_eq_some.mp taken with ⟨⟨_, place⟩, taken⟩
      cases taken
      exact stepsLeft_move (List.mem_append_left _ quiet)
        (by simp [stepsOf, Position.stepsLeft, move, place])
  | xmitPacket proc item => contradiction
  | packetInject item => contradiction
  | goOn proc =>
      rcases Option.ite_none_right_eq_some.mp taken with ⟨running, taken⟩
      exact known.lowers_goOn taken running
  | sleepElsewhere proc =>
      rcases Option.ite_none_right_eq_some.mp taken with ⟨⟨_, place⟩, taken⟩
      cases taken
      rw [unmoved _ _ place]
      exact Nat.le_of_eq (Nat.zero_add _)
  | wakeElsewhere proc =>
      rcases Option.ite_none_right_eq_some.mp taken with ⟨⟨_, place⟩, taken⟩
      cases taken
      rw [unmoved _ _ place]
      exact Nat.le_of_eq (Nat.zero_add _)

end Measure

section Rest

/-- At rest, a process that is not in other code sleeps in the wait. -/
theorem Known.sleeps_of_atRest (known : s.Known procs) (atRest : s.AtRest tasks)
    (here : s.position proc ≠ .elsewhere) : s.Sleeps proc := by
  rcases (known proc here).2 with running | sleeps
  · have stuck := atRest.1 proc
    rw [TaskQueue.step, if_pos running, TaskQueue.goOn] at stuck
    cases place : s.position proc with
    | elsewhere => contradiction
    | _ => simp [place] at stuck
  · exact sleeps

theorem Known.task_of_atRest (known : s.Known procs) (atRest : s.AtRest tasks)
    (task : proc ∈ tasks) : s.Sleeps proc ∨ s.HeldUp proc := by
  by_cases here : s.position proc = .elsewhere
  · right
    refine ⟨here, fun running => ?_⟩
    have stuck := atRest.2 proc task
    rw [TaskQueue.step, if_pos ⟨running, here⟩] at stuck
    contradiction
  · exact .inl (known.sleeps_of_atRest atRest here)

/-- Nobody sleeps beside an item. -/
theorem Known.empty_of_atRest (known : s.Known procs) (served : s.Served)
    (atRest : s.AtRest tasks) (sleeps : s.Sleeps proc) : s.queue = [] := by
  by_contra filled
  have nobody : ¬s.Inserting := by
    rintro ⟨inserter, inserted⟩
    have here : s.position inserter ≠ .elsewhere := by simp [inserted]
    have asleep := (known.sleeps_of_atRest atRest here).1
    rw [inserted] at asleep
    contradiction
  exact (served.awake nobody filled).2 proc sleeps

/-- What is true when nothing moves any more: each task sleeps in the wait or is held up
elsewhere, and if not all are held up, the queue is empty. -/
structure Drained (tasks : List Nat) (s : TaskQueue α) : Prop where
  waits : ∀ task ∈ tasks, s.Sleeps task ∨ s.HeldUp task
  empty : (∃ task ∈ tasks, ¬s.HeldUp task) → s.queue = []

theorem Known.drained (known : s.Known procs) (served : s.Served) (atRest : s.AtRest tasks) :
    s.Drained tasks where
  waits _ member := known.task_of_atRest atRest member
  empty := by
    rintro ⟨task, member, free⟩
    rcases known.task_of_atRest atRest member with sleeps | heldUp
    · exact known.empty_of_atRest served atRest sleeps
    · exact absurd heldUp free

end Rest

end TaskQueue

/-- From every state that tasks and inserting processes can reach, whichever of those that are
running is scheduled: once nobody inserts any more, they take at most `stepsLeft` steps in any
order; and when they can take none, the queue has been emptied by the tasks, unless all of
these are held up elsewhere. -/
theorem tasks_drain {α : Type u} {tasks threads : List Nat} {state : Nat → ProcState}
    {earlier later : List (QueueEvent α)} {s after : TaskQueue α}
    (among : Guarded TaskQueue.step (TaskQueue.Among tasks threads) (.start state) earlier)
    (executed : run TaskQueue.step (.start state) earlier = some s)
    (quiet : Guarded TaskQueue.step (TaskQueue.NoInsertion tasks) s later)
    (continued : run TaskQueue.step s later = some after) :
    tally TaskQueue.step TaskQueue.effort s later + after.stepsLeft (tasks ++ threads) ≤
        s.stepsLeft (tasks ++ threads) ∧
      (after.AtRest tasks → after.Drained tasks) := by
  have known : s.Known (tasks ++ threads) :=
    invariant_of_guarded (fun _ _ _ known among taken => known.step among taken)
      (TaskQueue.known_start state _) among executed
  have sound : s.Sound :=
    invariant_of_reachable (fun _ _ _ sound taken => TaskQueue.Sound.step sound taken)
      (TaskQueue.sound_start state) ⟨earlier, executed⟩
  have admits {s : TaskQueue α} {event : QueueEvent α} (quiet : s.NoInsertion tasks event) :
      s.Among tasks threads event := by
    cases event with
    | await proc => exact quiet
    | xmitPacket proc item => contradiction
    | _ => trivial
  constructor
  · exact tally_le_of_guarded (fun _ _ _ known quiet taken =>
      ⟨TaskQueue.Known.step known (admits quiet) taken, known.lowers quiet taken⟩) known quiet
      continued
  · intro atRest
    have knownAfter : after.Known (tasks ++ threads) :=
      invariant_of_guarded (fun _ _ _ known quiet taken => known.step (admits quiet) taken)
        known quiet continued
    have soundAfter : after.Sound :=
      invariant_of_reachable (fun _ _ _ sound taken => TaskQueue.Sound.step sound taken) sound
        ⟨later, continued⟩
    exact knownAfter.drained soundAfter.served atRest

/-- Two tasks are woken by one item: one gets it, and both go back to sleep. -/
def oneItem : List (QueueEvent Nat) :=
  [.goOn 0, .goOn 1, .goOn 0, .goOn 1, .goOn 1, .goOn 0, .await 0, .goOn 0, .await 1, .goOn 1]

theorem tasks_drain_example :
    let earlier : List (QueueEvent Nat) :=
      [.await 0, .await 1, .goOn 0, .goOn 1, .xmitPacket 2 7, .goOn 2]
    let first : TaskQueue Nat := .start fun _ => .running
    let s := (run TaskQueue.step first earlier).getD first
    ∃ after, run TaskQueue.step s oneItem = some after ∧
      tally TaskQueue.step TaskQueue.effort s oneItem + after.stepsLeft [0, 1, 2] ≤
        s.stepsLeft [0, 1, 2] ∧
      (after.AtRest [0, 1] → after.Drained [0, 1]) := by
  intro earlier first s
  have ends : (run TaskQueue.step s oneItem).isSome := by decide
  obtain ⟨after, continued⟩ := Option.isSome_iff_exists.mp ends
  exact ⟨after, continued, @tasks_drain Nat [0, 1] [2] (fun _ => .running) earlier oneItem s after
    (by decide) rfl (by decide) continued⟩

end Lpc17xx.Wait
