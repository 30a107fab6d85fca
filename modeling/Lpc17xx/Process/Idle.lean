import Lpc17xx.Process.Core

/-!
# The idle task

`process_spawn` makes a process running, `create_process` leaves the state of the idle task
to what the heap block held before.  Only if that is not `RUNNING` does `pick_new_task`
keep the idle task off the run queue, and select it when there is nobody else.
-/

namespace Lpc17xx.Process

open Lpc17xx.Link
open Lpc17xx.Transition

namespace Scheduler

/-- The idle task is on no queue, and not running. -/
structure Apart (s : Scheduler) : Prop where
  state : s.state .idle ≠ .running
  runqueue : .idle ∉ s.runqueue
  waitqs : ∀ waitq, .idle ∉ s.waitqs waitq

section Step

variable {s after : Scheduler} {event : SchedEvent}

theorem Apart.processWakeup {task : Task} (apart : s.Apart) (other : task ≠ .idle) :
    (s.processWakeup task).Apart where
  state := by
    change Function.update s.state task .running .idle ≠ _
    rw [Function.update_of_ne (Ne.symm other)]
    exact apart.state
  runqueue := by
    intro member
    rcases List.mem_cons.mp member with same | before
    · exact other same.symm
    · exact apart.runqueue (List.mem_of_mem_erase before)
  waitqs := apart.waitqs

/-- By induction on the nodes that are left on the wait queue. -/
theorem Apart.wakeAll {waitq : Nat} {nodes : List Task} (apart : s.Apart)
    (others : .idle ∉ nodes) : (wakeAll waitq nodes s).Apart := by
  induction nodes generalizing s with
  | nil => exact apart
  | cons task rest ih =>
      have other : task ≠ .idle := by
        rintro rfl
        exact others List.mem_cons_self
      have rest' : .idle ∉ rest := fun member => others (List.mem_cons_of_mem task member)
      have woken := apart.processWakeup other
      apply @ih { s.processWakeup task with waitqs := Function.update s.waitqs waitq rest }
      · refine ⟨woken.state, woken.runqueue, ?_⟩
        intro waitq'
        change Task.idle ∉ Function.update s.waitqs waitq rest waitq'
        by_cases same : waitq' = waitq
        · subst same
          rw [Function.update_self]
          exact rest'
        · rw [Function.update_of_ne same]
          exact apart.waitqs waitq'
      · exact rest'

theorem ne_idle_of_executing {task : Task} (executing : s.executing = some task) :
    task ≠ .idle := by
  rw [Scheduler.executing, Option.filter_eq_some_iff] at executing
  rcases executing with ⟨_, holds⟩
  rintro rfl
  simp at holds

/-- The executing process changes its own state only. -/
theorem Apart.suspended {task : Task} {state : ProcState} (apart : s.Apart)
    (other : task ≠ .idle) (written : after.state = Function.update s.state task state)
    (runqueue : after.runqueue = s.runqueue) (waitqs : ∀ waitq, .idle ∉ after.waitqs waitq) :
    after.Apart where
  state := by
    rw [written, Function.update_of_ne (Ne.symm other)]
    exact apart.state
  runqueue := runqueue ▸ apart.runqueue
  waitqs := waitqs

/-- An idle task that is not running is not put back. -/
theorem Apart.not_mem_requeue (apart : s.Apart) : .idle ∉ s.requeue.runqueue := by
  unfold requeue
  split
  · rename_i current _
    split
    · rename_i running
      intro member
      rcases List.mem_append.mp member with before | last
      · exact apart.runqueue before
      · rw [← List.mem_singleton.mp last] at running
        exact apart.state running
    · exact apart.runqueue
  · exact apart.runqueue

theorem requeue_kept (s : Scheduler) :
    s.requeue.state = s.state ∧ s.requeue.waitqs = s.waitqs := by
  unfold requeue
  split
  · split
    · exact ⟨rfl, rfl⟩
    · exact ⟨rfl, rfl⟩
  · exact ⟨rfl, rfl⟩

theorem Apart.pickNewTask (apart : s.Apart) : s.pickNewTask.Apart where
  state := by
    change s.requeue.state .idle ≠ _
    rw [(requeue_kept s).1]
    exact apart.state
  runqueue := by
    have absent := apart.not_mem_requeue
    change Task.idle ∉ (listPop s.requeue.runqueue).2
    cases split : s.requeue.runqueue with
    | nil => exact List.not_mem_nil
    | cons next rest =>
        rw [split] at absent
        exact List.not_mem_of_not_mem_cons absent
  waitqs := by
    intro waitq
    change Task.idle ∉ s.requeue.waitqs waitq
    rw [(requeue_kept s).2]
    exact apart.waitqs waitq

theorem Apart.step (apart : s.Apart) (taken : s.step event = some after) : after.Apart := by
  cases event with
  | spawn =>
      rcases Option.ite_none_right_eq_some.mp taken with ⟨_, spawned⟩
      cases spawned
      refine ⟨?_, ?_, apart.waitqs⟩
      · change Function.update s.state (.proc s.spawned) .running .idle ≠ _
        rw [Function.update_of_ne (by simp)]
        exact apart.state
      · intro member
        exact apart.runqueue ((List.mem_cons.mp member).resolve_left (by simp))
  | wait waitq =>
      rcases Option.map_eq_some_iff.mp taken with ⟨task, executing, rfl⟩
      have other := ne_idle_of_executing executing
      refine @Apart.suspended s (s.waitqueueWait waitq task) task .waiting apart other rfl rfl ?_
      intro waitq'
      change Task.idle ∉ Function.update s.waitqs waitq (listAdd task (s.waitqs waitq)) waitq'
      by_cases same : waitq' = waitq
      · subst same
        rw [Function.update_self]
        exact List.not_mem_cons_of_ne_of_not_mem (Ne.symm other) (apart.waitqs waitq')
      · rw [Function.update_of_ne same]
        exact apart.waitqs waitq'
  | finish =>
      rcases Option.map_eq_some_iff.mp taken with ⟨task, executing, rfl⟩
      exact @Apart.suspended s (s.processFinish task) task .finished apart
        (ne_idle_of_executing executing) rfl rfl apart.waitqs
  | raisePendSv =>
      rcases Option.bind_eq_some_iff.mp taken with ⟨current, _, raised⟩
      rcases Option.ite_none_right_eq_some.mp raised with ⟨_, raised⟩
      cases raised
      exact ⟨apart.state, apart.runqueue, apart.waitqs⟩
  | wakeup waitq =>
      rcases Option.map_eq_some_iff.mp taken with ⟨task, _, rfl⟩
      exact apart.wakeAll (apart.waitqs waitq)
  | irqWakeup waitq =>
      cases taken
      exact apart.wakeAll (apart.waitqs waitq)
  | timer =>
      cases taken
      exact ⟨apart.state, apart.runqueue, apart.waitqs⟩
  | pendSv =>
      rcases Option.ite_none_right_eq_some.mp taken with ⟨_, picked⟩
      cases picked
      exact apart.pickNewTask
  | reap =>
      rcases Option.ite_none_right_eq_some.mp taken with ⟨_, reaped⟩
      cases reaped
      exact ⟨apart.state, apart.runqueue, apart.waitqs⟩

end Step

end Scheduler

end Lpc17xx.Process
