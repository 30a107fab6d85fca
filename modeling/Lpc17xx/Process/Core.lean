import Mathlib.Data.List.Nodup
import Mathlib.Logic.Function.Basic
import Lpc17xx.Link.Sequence
import Lpc17xx.Transition.Labelled

/-!
# The scheduler

The three lists of `process.c`, the wait queues of `wait.c`, and how far each
process has got in `reschedule`.  Code that runs with interrupts masked is one
step.  Between two steps interrupts are enabled, and a handler may wake any wait
queue; a pending PendSV is taken before the thread goes on.
-/

namespace Lpc17xx.Process

open Lpc17xx.Link
open Lpc17xx.Transition

/-- A `process_t`, by its order of creation. -/
inductive Task where
  | idle
  | proc (number : Nat)
  deriving DecidableEq, Repr

/-- The `state` of a `process_t`. -/
inductive ProcState where
  | running
  | waiting
  | finished
  deriving DecidableEq, Repr

/-- Where a process is: at its own work, or in `reschedule` with interrupts
enabled and PendSV not yet raised. -/
inductive Place where
  | working
  | unmasked
  deriving DecidableEq, Repr

/-- The scheduler.  `waitqs` are the processes whose nodes are linked on each
wait queue.  `misused` is kept by nobody: a `cur_sched_queue` node has been
inserted while linked, or deleted while not linked. -/
structure Scheduler where
  runqueue : List Task
  waitqueue : List Task
  deadqueue : List Task
  waitqs : Nat → List Task
  state : Task → ProcState
  place : Task → Place
  currentTsk : Option Task
  pendSv : Bool
  spawned : Nat
  misused : Bool

/-- What happens.  `wakeup` is a call of `waitqueue_wakeup` by the running
process, `irqWakeup` one by an interrupt handler. -/
inductive SchedEvent where
  | spawn
  | wait (waitq : Nat)
  | finish
  | raisePendSv
  | wakeup (waitq : Nat)
  | irqWakeup (waitq : Nat)
  | timer
  | pendSv
  | reap
  deriving DecidableEq, Repr

namespace Scheduler

/-- The nodes linked on one of the three lists. -/
def linked (s : Scheduler) : List Task :=
  s.runqueue ++ s.waitqueue ++ s.deadqueue

/-- An insertion of the node of `task`. -/
def noteInsert (s : Scheduler) (task : Task) : Scheduler :=
  { s with misused := s.misused || s.linked.contains task }

/-- `list_del` of the node of `task`. -/
def unlink (s : Scheduler) (task : Task) : Scheduler :=
  { s with
    runqueue := listDel task s.runqueue
    waitqueue := listDel task s.waitqueue
    deadqueue := listDel task s.deadqueue
    misused := s.misused || !s.linked.contains task }

/-- `process_wakeup`. -/
def processWakeup (s : Scheduler) (proc : Task) : Scheduler :=
  let s := (s.unlink proc).noteInsert proc
  { s with
    runqueue := listAdd proc s.runqueue
    state := Function.update s.state proc .running }

/-- The loop of `waitqueue_wakeup` over the nodes that are left on `waitq`. -/
def wakeAll (waitq : Nat) : List Task → Scheduler → Scheduler
  | [], s => s
  | proc :: rest, s =>
      let s := s.processWakeup proc
      wakeAll waitq rest { s with waitqs := Function.update s.waitqs waitq rest }

/-- `waitqueue_wakeup`. -/
def waitqueueWakeup (s : Scheduler) (waitq : Nat) : Scheduler :=
  wakeAll waitq (s.waitqs waitq) s

/-- `process_spawn`. -/
def processSpawn (s : Scheduler) : Scheduler :=
  let newproc := Task.proc s.spawned
  let s := s.noteInsert newproc
  { s with
    runqueue := listAdd newproc s.runqueue
    state := Function.update s.state newproc .running
    place := Function.update s.place newproc .working
    spawned := s.spawned + 1 }

/-- `process_wait`, up to the point where `reschedule` has enabled
interrupts. -/
def processWait (s : Scheduler) (current : Task) : Scheduler :=
  let s := s.noteInsert current
  { s with
    waitqueue := listAdd current s.waitqueue
    state := Function.update s.state current .waiting
    place := Function.update s.place current .unmasked }

/-- `__waitqueue_wait`, up to the same point. -/
def waitqueueWait (s : Scheduler) (waitq : Nat) (current : Task) : Scheduler :=
  processWait { s with
    waitqs := Function.update s.waitqs waitq (listAdd current (s.waitqs waitq)) } current

/-- `process_finish`, up to the same point. -/
def processFinish (s : Scheduler) (current : Task) : Scheduler :=
  let s := s.noteInsert current
  { s with
    deadqueue := listAdd current s.deadqueue
    state := Function.update s.state current .finished
    place := Function.update s.place current .unmasked }

/-- The current process goes back to the end of the run queue, if it is
running. -/
def requeue (s : Scheduler) : Scheduler :=
  match s.currentTsk with
  | some current =>
      if s.state current = .running then
        let s := s.noteInsert current
        { s with runqueue := listAddTail current s.runqueue }
      else s
  | none => s

/-- `pick_new_task`. -/
def pickNewTask (s : Scheduler) : Scheduler :=
  let s := s.requeue
  let (next, rest) := listPop s.runqueue
  { s with runqueue := rest, currentTsk := some (next.getD .idle), pendSv := false }

/-- The process that executes its own code, unless the idle task or nobody
does. -/
def executing (s : Scheduler) : Option Task :=
  s.currentTsk.filter fun current =>
    current ≠ .idle && s.place current = .working && !s.pendSv

/-- One event.  Processes are spawned at start-up, when nothing is current, or
by a process. -/
def step : Step Scheduler SchedEvent
  | s, .spawn => if s.currentTsk.isNone || s.executing.isSome then some s.processSpawn else none
  | s, .wait waitq => s.executing.map (s.waitqueueWait waitq)
  | s, .finish => s.executing.map s.processFinish
  | s, .raisePendSv => do
      let current ← s.currentTsk
      if s.place current = .unmasked ∧ s.pendSv = false then
        some { s with place := Function.update s.place current .working, pendSv := true }
      else none
  | s, .wakeup waitq => s.executing.map fun _ => s.waitqueueWakeup waitq
  | s, .irqWakeup waitq => some (s.waitqueueWakeup waitq)
  | s, .timer => some { s with pendSv := true }
  | s, .pendSv => if s.pendSv then some s.pickNewTask else none
  | s, .reap =>
      if s.currentTsk = some .idle ∧ s.pendSv = false then
        some { s with deadqueue := (listPop s.deadqueue).2 }
      else none

/-- Before `process_init`.  The state of the idle task is what its heap block
holds. -/
def start (idleState : ProcState) : Scheduler where
  runqueue := []
  waitqueue := []
  deadqueue := []
  waitqs := fun _ => []
  state := fun _ => idleState
  place := fun _ => .working
  currentTsk := none
  pendSv := false
  spawned := 0
  misused := false

end Scheduler

end Lpc17xx.Process
