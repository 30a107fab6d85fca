import Lpc17xx.Process.Fairness

/-!
# No process is lost

Under the invariant of the scheduler, every process that was spawned is linked or current
until the idle task takes it off the dead queue.  There it takes each of them once, and
none that is still to run.
-/

namespace Lpc17xx.Process

open Lpc17xx.Link
open Lpc17xx.Transition

namespace Scheduler

/-- The task is on one of the three lists, or current. -/
def Held (s : Scheduler) (task : Task) : Prop :=
  task ∈ s.linked ∨ s.currentTsk = some task

/-- The current process runs, or it has been linked before it sleeps or ends; and the idle
task never ends. -/
structure Kept (s : Scheduler) : Prop where
  placed : s.Placed
  current : ∀ number, s.currentTsk = some (.proc number) →
    s.state (.proc number) = .running ∨ .proc number ∈ s.linked
  idle : .idle ∉ s.deadqueue

/-- What an event leaves of the processes that are held. -/
def HeldAfter (s : Scheduler) (event : SchedEvent) (number : Nat) : Prop :=
  match event with
  | .spawn => number = s.spawned ∨ s.Held (.proc number)
  | .reap => s.Held (.proc number) ∧ s.deadqueue.head? ≠ some (.proc number)
  | _ => s.Held (.proc number)

variable {s target : Scheduler} {event : SchedEvent} {number : Nat} {task : Task}

theorem kept_start (idleState : ProcState) : (start idleState).Kept :=
  ⟨placed_start idleState, nofun, List.not_mem_nil⟩

theorem not_held_start (idleState : ProcState) : ¬(start idleState).Held task := by
  rintro (linked | current)
  · exact absurd linked List.not_mem_nil
  · exact nomatch current

/-- A process that is held has been spawned. -/
theorem Kept.known (kept : s.Kept) (held : s.Held (.proc number)) : number < s.spawned :=
  kept.placed.known number held

section Wakeup

/-- `waitqueue_wakeup` moves processes from one list to another, by induction on the nodes
that are left on the wait queue. -/
theorem wakeAll_kept {waitq : Nat} {nodes : List Task} (placed : s.Placed)
    (left : s.waitqs waitq = nodes)
    (spares : ∀ current, s.currentTsk = some current → current ∉ nodes) :
    (wakeAll waitq nodes s).linked.Perm s.linked ∧
      (wakeAll waitq nodes s).currentTsk = s.currentTsk ∧
      (wakeAll waitq nodes s).deadqueue = s.deadqueue ∧
      ∀ task, s.state task = .running → (wakeAll waitq nodes s).state task = .running := by
  induction nodes generalizing s with
  | nil => exact ⟨.refl _, rfl, rfl, fun _ running => running⟩
  | cons task rest ih =>
      have other : s.currentTsk ≠ some task := fun current =>
        spares task current List.mem_cons_self
      have asleep : task ∈ s.waitqueue := by
        apply placed.waiter waitq
        rw [left]
        exact List.mem_cons_self
      have one := placed.processWakeup_eq asleep
      have moved : (s.processWakeup task).linked.Perm s.linked := by
        rw [one]
        have front : (task :: s.runqueue ++ s.waitqueue.erase task).Perm
            (s.runqueue ++ s.waitqueue) :=
          List.perm_middle.symm.trans ((List.perm_cons_erase asleep).symm.append_left s.runqueue)
        exact front.append_right s.deadqueue
      rcases ih (placed.wakeOne left other) (Function.update_self _ _ _)
        fun current isCurrent inRest =>
          spares current isCurrent (List.mem_cons_of_mem task inRest) with
        ⟨perm, current, deadqueue, running⟩
      refine ⟨perm.trans moved, current, deadqueue.trans ?_, fun task' runs => running task' ?_⟩
      · rw [one]
      · change (s.processWakeup task).state task' = .running
        rw [one]
        change Function.update s.state task .running task' = .running
        by_cases same : task' = task
        · rw [same, Function.update_self]
        · rw [Function.update_of_ne same]
          exact runs

theorem Kept.waitqueueWakeup (kept : s.Kept) {waitq : Nat}
    (spares : ∀ current, s.currentTsk = some current → current ∉ s.waitqs waitq) :
    (s.waitqueueWakeup waitq).Kept ∧ ∀ task, (s.waitqueueWakeup waitq).Held task ↔ s.Held task := by
  rcases wakeAll_kept kept.placed rfl spares with ⟨perm, current, deadqueue, running⟩
  refine ⟨⟨kept.placed.waitqueueWakeup spares, fun number isCurrent => ?_, ?_⟩, fun task => ?_⟩
  · rcases kept.current number (current.symm.trans isCurrent) with runs | linked
    · exact .inl (running _ runs)
    · exact .inr (perm.mem_iff.mpr linked)
  · exact fun dead => kept.idle (deadqueue ▸ dead)
  · exact or_congr perm.mem_iff (by rw [Scheduler.waitqueueWakeup, current])

end Wakeup

section Sleep

/-- The current process is linked before it leaves the processor. -/
theorem Kept.suspended (kept : s.Kept) (executing : s.executing = some task)
    (placed : target.Placed) (current : target.currentTsk = s.currentTsk)
    (linked : target.linked.Perm (task :: s.linked))
    (deadqueue : ∀ task' ∈ target.deadqueue, task' = task ∨ task' ∈ s.deadqueue) :
    target.Kept ∧ ∀ task', target.Held task' ↔ s.Held task' := by
  rcases executing_eq_some_iff.mp executing with ⟨isCurrent, notIdle, _⟩
  refine ⟨⟨placed, fun number here => .inr ?_, fun dead => ?_⟩, fun task' => ?_⟩
  · rw [current, isCurrent] at here
    cases here
    exact linked.mem_iff.mpr List.mem_cons_self
  · rcases deadqueue _ dead with same | before
    · exact notIdle same.symm
    · exact kept.idle before
  · rw [Held, linked.mem_iff, current, List.mem_cons]
    constructor
    · rintro ((rfl | before) | here)
      · exact .inr isCurrent
      · exact .inl before
      · exact .inr here
    · rintro (before | here)
      · exact .inl (.inr before)
      · exact .inr here

theorem Kept.waitqueueWait (kept : s.Kept) (waitq : Nat) (executing : s.executing = some task) :
    (s.waitqueueWait waitq task).Kept ∧
      ∀ task', (s.waitqueueWait waitq task).Held task' ↔ s.Held task' := by
  refine kept.suspended executing (kept.placed.waitqueueWait waitq executing) rfl ?_
    fun _ dead => .inr dead
  exact List.Perm.append_right s.deadqueue List.perm_middle

theorem Kept.processFinish (kept : s.Kept) (executing : s.executing = some task) :
    (s.processFinish task).Kept ∧
      ∀ task', (s.processFinish task).Held task' ↔ s.Held task' := by
  refine kept.suspended executing (kept.placed.processFinish executing) rfl ?_
    fun _ dead => List.mem_cons.mp dead
  exact List.perm_middle

end Sleep

section Switch

theorem mem_requeue (s : Scheduler) (task : Task) :
    task ∈ s.requeue.runqueue ↔
      task ∈ s.runqueue ∨ s.currentTsk = some task ∧ s.state task = .running := by
  unfold requeue
  cases current : s.currentTsk with
  | none => simp
  | some current' =>
      by_cases running : s.state current' = .running
      · simp only [if_pos running]
        change task ∈ s.runqueue ++ [current'] ↔ _
        rw [List.mem_append, List.mem_singleton]
        constructor
        · rintro (queued | rfl)
          · exact .inl queued
          · exact .inr ⟨rfl, running⟩
        · rintro (queued | ⟨same, _⟩)
          · exact .inl queued
          · exact .inr (Option.some.inj same).symm
      · simp only [if_neg running]
        constructor
        · exact .inl
        · rintro (queued | ⟨same, runs⟩)
          · exact queued
          · cases same
            exact absurd runs running

/-- The process that is put away is linked, and the one that is picked was. -/
theorem Kept.pickNewTask (kept : s.Kept) :
    s.pickNewTask.Kept ∧
      ∀ number, s.pickNewTask.Held (.proc number) ↔ s.Held (.proc number) := by
  rcases kept.placed.requeue_eq with ⟨queue, requeued, _, ready, _⟩
  have queued (task : Task) :
      task ∈ queue ↔ task ∈ s.runqueue ∨ s.currentTsk = some task ∧ s.state task = .running := by
    have members := mem_requeue s task
    rw [requeued] at members
    exact members
  have picks : s.pickNewTask =
      { s with
        runqueue := (listPop queue).2
        currentTsk := some ((listPop queue).1.getD .idle)
        pendSv := false } := by
    simp only [Scheduler.pickNewTask, requeued]
  have popped (number : Nat) : .proc number ∈ (listPop queue).2 ∨
      some ((listPop queue).1.getD .idle) = some (Task.proc number) ↔ .proc number ∈ queue := by
    cases queue with
    | nil => simp [listPop]
    | cons next rest =>
        simp only [listPop, Option.getD_some, Option.some.injEq, List.mem_cons]
        constructor
        · rintro (later | first)
          · exact .inr later
          · exact .inl first.symm
        · rintro (first | later)
          · exact .inr first.symm
          · exact .inl later
  refine ⟨⟨kept.placed.pickNewTask, fun number here => ?_, ?_⟩, fun number => ?_⟩
  · rw [picks] at here ⊢
    exact .inl (ready _ ((popped number).mp (.inr here)))
  · rw [picks]
    exact kept.idle
  · have there : s.pickNewTask.Held (.proc number) ↔
        .proc number ∈ queue ∨ .proc number ∈ s.waitqueue ∨ .proc number ∈ s.deadqueue := by
      rw [← popped number, picks, Held, mem_linked]
      tauto
    have current := kept.current number
    rw [mem_linked] at current
    rw [there, queued, Held, mem_linked]
    tauto

end Switch

/-- The idle task takes a process that no longer runs. -/
theorem Kept.reap (kept : s.Kept) (idle : s.currentTsk = some .idle) :
    Kept { s with deadqueue := (listPop s.deadqueue).2 } ∧
      ∀ number, Held { s with deadqueue := (listPop s.deadqueue).2 } (.proc number) ↔
        s.Held (.proc number) ∧ s.deadqueue.head? ≠ some (.proc number) := by
  have sub : ∀ task ∈ (listPop s.deadqueue).2, task ∈ s.deadqueue := by
    cases s.deadqueue with
    | nil => exact fun _ member => member
    | cons process rest => exact fun _ member => List.mem_cons_of_mem process member
  refine ⟨⟨kept.placed.reap, fun number here => (nomatch idle.symm.trans here),
    fun dead => kept.idle (sub _ dead)⟩, fun number => ?_⟩
  have nodup := kept.placed.nodup
  rw [linked] at nodup
  rw [Held, Held, mem_linked, mem_linked, idle]
  cases dead : s.deadqueue with
  | nil => simp [listPop]
  | cons process rest =>
      rw [dead] at nodup
      have apart := List.nodup_append.mp nodup
      have notRest := (List.nodup_cons.mp apart.2.1).1
      have notFront : ∀ task ∈ s.runqueue ++ s.waitqueue, task ≠ process :=
        fun task front => apart.2.2 task front process List.mem_cons_self
      simp only [listPop, List.head?_cons, List.mem_cons, ne_eq, Option.some.injEq, reduceCtorEq,
        or_false]
      constructor
      · rintro (ready | asleep | later)
        · exact ⟨.inl ready, fun same => notFront _ (List.mem_append_left _ ready) same.symm⟩
        · exact ⟨.inr (.inl asleep), fun same =>
            notFront _ (List.mem_append_right _ asleep) same.symm⟩
        · exact ⟨.inr (.inr (.inr later)), fun same => notRest (same ▸ later)⟩
      · rintro ⟨ready | asleep | first | later, other⟩
        · exact .inl ready
        · exact .inr (.inl asleep)
        · exact absurd first.symm other
        · exact .inr (.inr later)

theorem Kept.processSpawn (kept : s.Kept) :
    s.processSpawn.Kept ∧
      ∀ number,
        s.processSpawn.Held (.proc number) ↔ number = s.spawned ∨ s.Held (.proc number) := by
  have linked : s.processSpawn.linked = .proc s.spawned :: s.linked := rfl
  refine ⟨⟨kept.placed.processSpawn, fun number here => ?_, kept.idle⟩, fun number => ?_⟩
  · have before := kept.known (.inr here)
    rcases kept.current number here with runs | there
    · left
      change Function.update s.state (.proc s.spawned) .running (.proc number) = .running
      rw [Function.update_of_ne (by simp; omega)]
      exact runs
    · right
      rw [linked]
      exact List.mem_cons_of_mem _ there
  · rw [Held, linked, List.mem_cons, Task.proc.injEq, or_assoc]
    rfl

/-- Every event keeps the invariant, and the processes that are held are as `HeldAfter`
says. -/
theorem Kept.step (kept : s.Kept) (spares : s.SparesCurrent event)
    (stepped : step s event = some target) :
    target.Kept ∧ ∀ number, target.Held (.proc number) ↔ s.HeldAfter event number := by
  cases event with
  | spawn =>
      rcases Option.ite_none_right_eq_some.mp stepped with ⟨_, spawned⟩
      cases spawned
      exact kept.processSpawn
  | wait waitq =>
      rcases Option.map_eq_some_iff.mp stepped with ⟨task, executing, rfl⟩
      rcases kept.waitqueueWait waitq executing with ⟨kept', held⟩
      exact ⟨kept', fun number => held _⟩
  | finish =>
      rcases Option.map_eq_some_iff.mp stepped with ⟨task, executing, rfl⟩
      rcases kept.processFinish executing with ⟨kept', held⟩
      exact ⟨kept', fun number => held _⟩
  | raisePendSv =>
      rcases Option.bind_eq_some_iff.mp stepped with ⟨current, _, raised⟩
      rcases Option.ite_none_right_eq_some.mp raised with ⟨_, raised⟩
      cases raised
      exact ⟨⟨kept.placed.pend _, kept.current, kept.idle⟩, fun _ => Iff.rfl⟩
  | wakeup waitq =>
      rcases Option.map_eq_some_iff.mp stepped with ⟨task, executing, rfl⟩
      have spares' (current : Task) (isCurrent : s.currentTsk = some current) :
          current ∉ s.waitqs waitq := by
        have same := Option.some.inj
          (isCurrent.symm.trans (executing_eq_some_iff.mp executing).1)
        rw [same]
        exact kept.placed.not_waiting executing waitq
      rcases kept.waitqueueWakeup spares' with ⟨kept', held⟩
      exact ⟨kept', fun number => held _⟩
  | irqWakeup waitq =>
      cases stepped
      rcases kept.waitqueueWakeup spares with ⟨kept', held⟩
      exact ⟨kept', fun number => held _⟩
  | timer =>
      cases stepped
      exact ⟨⟨kept.placed.pend s.place, kept.current, kept.idle⟩, fun _ => Iff.rfl⟩
  | pendSv =>
      rcases Option.ite_none_right_eq_some.mp stepped with ⟨_, picked⟩
      cases picked
      exact kept.pickNewTask
  | reap =>
      rcases Option.ite_none_right_eq_some.mp stepped with ⟨⟨idle, _⟩, reaped⟩
      cases reaped
      exact kept.reap idle

theorem spawned_wakeAll (waitq : Nat) (nodes : List Task) (s : Scheduler) :
    (wakeAll waitq nodes s).spawned = s.spawned := by
  induction nodes generalizing s with
  | nil => rfl
  | cons task rest ih => exact ih _

/-- Only `process_spawn` spawns. -/
theorem spawned_of_step (stepped : step s event = some target) (other : event ≠ .spawn) :
    target.spawned = s.spawned := by
  cases event with
  | spawn => exact absurd rfl other
  | wait _ | finish =>
      rcases Option.map_eq_some_iff.mp stepped with ⟨task, _, rfl⟩
      rfl
  | raisePendSv =>
      rcases Option.bind_eq_some_iff.mp stepped with ⟨current, _, raised⟩
      rcases Option.ite_none_right_eq_some.mp raised with ⟨_, raised⟩
      cases raised
      rfl
  | wakeup waitq =>
      rcases Option.map_eq_some_iff.mp stepped with ⟨task, _, rfl⟩
      exact spawned_wakeAll _ _ _
  | irqWakeup waitq =>
      cases stepped
      exact spawned_wakeAll _ _ _
  | timer =>
      cases stepped
      rfl
  | pendSv =>
      rcases Option.ite_none_right_eq_some.mp stepped with ⟨_, picked⟩
      cases picked
      exact Watched.spawned_requeue s
  | reap =>
      rcases Option.ite_none_right_eq_some.mp stepped with ⟨_, reaped⟩
      cases reaped
      rfl

end Scheduler

end Lpc17xx.Process
