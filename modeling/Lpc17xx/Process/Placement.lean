import Mathlib.Data.List.Perm.Basic
import Lpc17xx.Process.Core

/-!
# Where processes are queued

Under the invariant, the state of a process names the only list that can hold its
node, and only waiting processes have nodes on wait queues.  A process that puts
itself to sleep stays current until PendSV is taken; a handler that wakes it
before that puts it on the run queue, where `pick_new_task` links it once more.
-/

namespace Lpc17xx.Process

open Lpc17xx.Link
open Lpc17xx.Transition

namespace Scheduler

/-- No node has been misused, and no process but the idle task is linked more
than once. -/
structure Placement (s : Scheduler) : Prop where
  sound : s.misused = false
  once : ∀ number, s.linked.count (.proc number) ≤ 1

/-- An interrupt handler does not wake the wait queue that the current process
is on. -/
def SparesCurrent (s : Scheduler) : SchedEvent → Prop
  | .irqWakeup waitq => ∀ current, s.currentTsk = some current → current ∉ s.waitqs waitq
  | _ => True

/-- The invariant of the scheduler. -/
structure Placed (s : Scheduler) : Prop where
  sound : s.misused = false
  nodup : s.linked.Nodup
  ready : ∀ task ∈ s.runqueue, s.state task = .running
  asleep : ∀ task ∈ s.waitqueue, s.state task = .waiting
  dead : ∀ task ∈ s.deadqueue, s.state task = .finished
  apart : ∀ task, s.currentTsk = some task → task ∉ s.runqueue
  waiter : ∀ waitq, ∀ task ∈ s.waitqs waitq, task ∈ s.waitqueue
  once : ∀ waitq, (s.waitqs waitq).Nodup
  single : ∀ waitq waitq' task, task ∈ s.waitqs waitq → task ∈ s.waitqs waitq' → waitq = waitq'
  working : ∀ task, s.executing = some task → s.state task = .running
  known : ∀ number, .proc number ∈ s.linked ∨ s.currentTsk = some (.proc number) →
    number < s.spawned

variable {s : Scheduler} {task : Task}

theorem mem_linked :
    task ∈ s.linked ↔ task ∈ s.runqueue ∨ task ∈ s.waitqueue ∨ task ∈ s.deadqueue := by
  simp [linked]

theorem Placed.placement (placed : s.Placed) : s.Placement where
  sound := placed.sound
  once := fun number => List.nodup_iff_count_le_one.mp placed.nodup (.proc number)

theorem placed_start (idleState : ProcState) : (start idleState).Placed where
  sound := rfl
  nodup := List.nodup_nil
  ready := nofun
  asleep := nofun
  dead := nofun
  apart := nofun
  waiter := nofun
  once := fun _ => List.nodup_nil
  single := nofun
  working := nofun
  known := nofun

theorem Placed.nodup_runqueue (placed : s.Placed) : s.runqueue.Nodup :=
  (List.nodup_append.mp (List.nodup_append.mp placed.nodup).1).1

theorem Placed.nodup_waitqueue (placed : s.Placed) : s.waitqueue.Nodup :=
  (List.nodup_append.mp (List.nodup_append.mp placed.nodup).1).2.1

/-- An insertion of a node that is not linked. -/
theorem noteInsert_of_not_mem (free : task ∉ s.linked) : s.noteInsert task = s := by
  have unlinked : s.linked.contains task = false := by simpa using free
  rw [noteInsert, unlinked, Bool.or_false]

/-- A running process that is current is on no list. -/
theorem Placed.not_mem_linked (placed : s.Placed) (current : s.currentTsk = some task)
    (running : s.state task = .running) : task ∉ s.linked := by
  intro member
  rcases mem_linked.mp member with ready | asleep | dead
  · exact placed.apart task current ready
  · have state := placed.asleep task asleep
    rw [running] at state
    contradiction
  · have state := placed.dead task dead
    rw [running] at state
    contradiction

theorem executing_eq_some_iff :
    s.executing = some task ↔
      s.currentTsk = some task ∧ task ≠ .idle ∧ s.place task = .working ∧ s.pendSv = false := by
  rw [executing, Option.filter_eq_some_iff]
  simp [and_assoc]

section Wakeup

/-- A sleeping process moves to the front of the run queue. -/
theorem Placed.processWakeup_eq (placed : s.Placed) (asleep : task ∈ s.waitqueue) :
    s.processWakeup task =
      { s with
        runqueue := task :: s.runqueue
        waitqueue := s.waitqueue.erase task
        state := Function.update s.state task .running } := by
  have notReady : task ∉ s.runqueue := by
    intro ready
    have state := placed.ready task ready
    rw [placed.asleep task asleep] at state
    contradiction
  have notDead : task ∉ s.deadqueue := by
    intro dead
    have state := placed.dead task dead
    rw [placed.asleep task asleep] at state
    contradiction
  have once : task ∉ s.waitqueue.erase task := placed.nodup_waitqueue.not_mem_erase
  have unlinked : s.unlink task = { s with waitqueue := s.waitqueue.erase task } := by
    have member : s.linked.contains task = true := by
      simpa using mem_linked.mpr (.inr (.inl asleep))
    rw [unlink, member, Bool.not_true, Bool.or_false, listDel, listDel, listDel,
      List.erase_of_not_mem notReady, List.erase_of_not_mem notDead]
  have free : task ∉ (s.unlink task).linked := by
    rw [unlinked, mem_linked]
    rintro (ready | sleeping | dead)
    · exact notReady ready
    · exact once sleeping
    · exact notDead dead
  rw [processWakeup, noteInsert_of_not_mem free, unlinked]
  rfl

/-- One round of `waitqueue_wakeup` keeps the invariant, unless it wakes the
current process. -/
theorem Placed.wakeOne (placed : s.Placed) {waitq : Nat} {rest : List Task}
    (nodes : s.waitqs waitq = task :: rest) (other : s.currentTsk ≠ some task) :
    Placed { s.processWakeup task with waitqs := Function.update s.waitqs waitq rest } := by
  have member : task ∈ s.waitqs waitq := by
    rw [nodes]
    exact .head _
  have asleep := placed.waiter waitq task member
  have alone := placed.once waitq
  rw [nodes] at alone
  have notRest : task ∉ rest := (List.nodup_cons.mp alone).1
  have left {waitq' : Nat} {task' : Task}
      (node : task' ∈ Function.update s.waitqs waitq rest waitq') :
      task' ∈ s.waitqs waitq' ∧ task' ≠ task := by
    rcases Decidable.em (waitq' = waitq) with rfl | apart
    · rw [Function.update_self] at node
      refine ⟨?_, fun same => notRest (same ▸ node)⟩
      rw [nodes]
      exact .tail _ node
    · rw [Function.update_of_ne apart] at node
      exact ⟨node, fun same => apart (placed.single waitq' waitq task (same ▸ node) member)⟩
  have perm : (task :: s.runqueue ++ s.waitqueue.erase task ++ s.deadqueue).Perm s.linked := by
    have moved : (task :: s.runqueue ++ s.waitqueue.erase task).Perm
        (s.runqueue ++ s.waitqueue) :=
      List.perm_middle.symm.trans ((List.perm_cons_erase asleep).symm.append_left s.runqueue)
    exact moved.append_right s.deadqueue
  rw [placed.processWakeup_eq asleep]
  constructor
  · exact placed.sound
  · exact perm.nodup_iff.mpr placed.nodup
  · intro task' ready
    rcases List.mem_cons.mp ready with rfl | ready'
    · exact Function.update_self ..
    · change Function.update s.state task .running task' = _
      rcases Decidable.em (task' = task) with rfl | apart
      · exact Function.update_self ..
      · rw [Function.update_of_ne apart]
        exact placed.ready task' ready'
  · intro task' sleeping
    have apart : task' ≠ task := by
      rintro rfl
      exact placed.nodup_waitqueue.not_mem_erase sleeping
    change Function.update s.state task .running task' = _
    rw [Function.update_of_ne apart]
    exact placed.asleep task' (List.mem_of_mem_erase sleeping)
  · intro task' dead
    have apart : task' ≠ task := by
      rintro rfl
      have state := placed.dead task' dead
      rw [placed.asleep task' asleep] at state
      contradiction
    change Function.update s.state task .running task' = _
    rw [Function.update_of_ne apart]
    exact placed.dead task' dead
  · intro current isCurrent ready
    rcases List.mem_cons.mp ready with rfl | ready'
    · exact other isCurrent
    · exact placed.apart current isCurrent ready'
  · intro waitq' task' node
    rcases left node with ⟨node', apart⟩
    exact (List.mem_erase_of_ne apart).mpr (placed.waiter waitq' task' node')
  · intro waitq'
    change (Function.update s.waitqs waitq rest waitq').Nodup
    rcases Decidable.em (waitq' = waitq) with rfl | apart
    · rw [Function.update_self]
      exact (List.nodup_cons.mp alone).2
    · rw [Function.update_of_ne apart]
      exact placed.once waitq'
  · intro waitq' waitq'' task' node node'
    exact placed.single waitq' waitq'' task' (left node).1 (left node').1
  · intro task' executing
    have apart : task' ≠ task := by
      rintro rfl
      exact other (executing_eq_some_iff.mp executing).1
    change Function.update s.state task .running task' = _
    rw [Function.update_of_ne apart]
    exact placed.working task' executing
  · intro number here
    apply placed.known number
    rcases here with queued | current
    · exact .inl (perm.mem_iff.mp queued)
    · exact .inr current

/-- By induction on the nodes that are left on the wait queue. -/
theorem Placed.wakeAll {waitq : Nat} (nodes : List Task) (placed : s.Placed)
    (left : s.waitqs waitq = nodes)
    (spares : ∀ current, s.currentTsk = some current → current ∉ nodes) :
    (wakeAll waitq nodes s).Placed := by
  induction nodes generalizing s with
  | nil => exact placed
  | cons task rest ih =>
      have other : s.currentTsk ≠ some task := fun current => spares task current (.head _)
      have nodes : (s.processWakeup task).waitqs = s.waitqs := rfl
      apply ih
      · rw [nodes]
        exact placed.wakeOne left other
      · exact Function.update_self ..
      · intro current isCurrent inRest
        exact spares current isCurrent (.tail _ inRest)

theorem Placed.waitqueueWakeup (placed : s.Placed) {waitq : Nat}
    (spares : ∀ current, s.currentTsk = some current → current ∉ s.waitqs waitq) :
    (s.waitqueueWakeup waitq).Placed :=
  placed.wakeAll _ rfl spares

/-- A process that executes is on no wait queue. -/
theorem Placed.not_waiting (placed : s.Placed) (executing : s.executing = some task)
    (waitq : Nat) : task ∉ s.waitqs waitq := by
  intro node
  have state := placed.asleep task (placed.waiter waitq task node)
  rw [placed.working task executing] at state
  contradiction

end Wakeup

section Current

/-- The executing process puts its own node on a list. -/
theorem Placed.not_mem_of_executing (placed : s.Placed) (executing : s.executing = some task) :
    task ∉ s.linked :=
  placed.not_mem_linked (executing_eq_some_iff.mp executing).1 (placed.working task executing)

/-- While somebody executes, the current process is at work. -/
theorem not_unmasked_of_executing {task' : Task} (executing : s.executing = some task')
    (current : s.currentTsk = some task) : s.place task ≠ .unmasked := by
  intro unmasked
  rcases executing_eq_some_iff.mp executing with ⟨current', _, working, _⟩
  have same : task' = task := Option.some.inj (current'.symm.trans current)
  rw [same, unmasked] at working
  contradiction

/-- The current process is known, on whatever list it puts its node. -/
theorem Placed.known_of_perm (placed : s.Placed) (current : s.currentTsk = some task)
    {linked : List Task} (perm : linked.Perm (task :: s.linked)) {number : Nat}
    (here : .proc number ∈ linked ∨ s.currentTsk = some (.proc number)) :
    number < s.spawned := by
  apply placed.known number
  rcases here with queued | current'
  · rcases List.mem_cons.mp (perm.mem_iff.mp queued) with same | old
    · exact .inr (same ▸ current)
    · exact .inl old
  · exact .inr current'

theorem Placed.waitqueueWait (placed : s.Placed) (waitq : Nat)
    (executing : s.executing = some task) : (s.waitqueueWait waitq task).Placed := by
  have free := placed.not_mem_of_executing executing
  have current := (executing_eq_some_iff.mp executing).1
  have notNode := placed.not_waiting executing
  have apart {task' : Task} (queued : task' ∈ s.linked) : task' ≠ task :=
    fun same => free (same ▸ queued)
  have waits : s.waitqueueWait waitq task =
      { s with
        waitqueue := task :: s.waitqueue
        waitqs := Function.update s.waitqs waitq (task :: s.waitqs waitq)
        state := Function.update s.state task .waiting
        place := Function.update s.place task .unmasked } := by
    let noded : Scheduler := { s with
      waitqs := Function.update s.waitqs waitq (listAdd task (s.waitqs waitq)) }
    have free' : task ∉ noded.linked := free
    change noded.processWait task = _
    rw [processWait, noteInsert_of_not_mem free']
    rfl
  have perm : (s.runqueue ++ task :: s.waitqueue ++ s.deadqueue).Perm (task :: s.linked) :=
    List.perm_middle.append_right s.deadqueue
  have node {waitq' : Nat} {task' : Task}
      (member : task' ∈ Function.update s.waitqs waitq (task :: s.waitqs waitq) waitq') :
      task' ∈ s.waitqs waitq' ∨ task' = task ∧ waitq' = waitq := by
    rcases Decidable.em (waitq' = waitq) with rfl | other
    · rw [Function.update_self] at member
      rcases List.mem_cons.mp member with rfl | old
      · exact .inr ⟨rfl, rfl⟩
      · exact .inl old
    · rw [Function.update_of_ne other] at member
      exact .inl member
  rw [waits]
  constructor
  · exact placed.sound
  · exact perm.nodup_iff.mpr (List.nodup_cons.mpr ⟨free, placed.nodup⟩)
  · intro task' ready
    change Function.update s.state task .waiting task' = _
    rw [Function.update_of_ne (apart (mem_linked.mpr (.inl ready)))]
    exact placed.ready task' ready
  · intro task' sleeping
    change Function.update s.state task .waiting task' = _
    rcases List.mem_cons.mp sleeping with rfl | old
    · exact Function.update_self ..
    · rw [Function.update_of_ne (apart (mem_linked.mpr (.inr (.inl old))))]
      exact placed.asleep task' old
  · intro task' dead
    change Function.update s.state task .waiting task' = _
    rw [Function.update_of_ne (apart (mem_linked.mpr (.inr (.inr dead))))]
    exact placed.dead task' dead
  · exact placed.apart
  · intro waitq' task' member
    rcases node member with old | ⟨rfl, _⟩
    · exact .tail _ (placed.waiter waitq' task' old)
    · exact .head _
  · intro waitq'
    change (Function.update s.waitqs waitq (task :: s.waitqs waitq) waitq').Nodup
    rcases Decidable.em (waitq' = waitq) with rfl | other
    · rw [Function.update_self]
      exact List.nodup_cons.mpr ⟨notNode waitq', placed.once waitq'⟩
    · rw [Function.update_of_ne other]
      exact placed.once waitq'
  · intro waitq' waitq'' task' first second
    rcases node first with old | ⟨rfl, rfl⟩
    · rcases node second with old' | ⟨rfl, _⟩
      · exact placed.single waitq' waitq'' task' old old'
      · exact absurd old (notNode waitq')
    · rcases node second with old' | ⟨_, same⟩
      · exact absurd old' (notNode waitq'')
      · exact same.symm
  · intro task' executing'
    exact absurd (Function.update_self ..) (not_unmasked_of_executing executing' current)
  · intro number here
    exact placed.known_of_perm current perm here

theorem Placed.processFinish (placed : s.Placed) (executing : s.executing = some task) :
    (s.processFinish task).Placed := by
  have free := placed.not_mem_of_executing executing
  have current := (executing_eq_some_iff.mp executing).1
  have apart {task' : Task} (queued : task' ∈ s.linked) : task' ≠ task :=
    fun same => free (same ▸ queued)
  have finishes : s.processFinish task =
      { s with
        deadqueue := task :: s.deadqueue
        state := Function.update s.state task .finished
        place := Function.update s.place task .unmasked } := by
    rw [Scheduler.processFinish, noteInsert_of_not_mem free]
    rfl
  have perm : (s.runqueue ++ s.waitqueue ++ task :: s.deadqueue).Perm (task :: s.linked) :=
    List.perm_middle
  rw [finishes]
  constructor
  · exact placed.sound
  · exact perm.nodup_iff.mpr (List.nodup_cons.mpr ⟨free, placed.nodup⟩)
  · intro task' ready
    change Function.update s.state task .finished task' = _
    rw [Function.update_of_ne (apart (mem_linked.mpr (.inl ready)))]
    exact placed.ready task' ready
  · intro task' sleeping
    change Function.update s.state task .finished task' = _
    rw [Function.update_of_ne (apart (mem_linked.mpr (.inr (.inl sleeping))))]
    exact placed.asleep task' sleeping
  · intro task' dead
    change Function.update s.state task .finished task' = _
    rcases List.mem_cons.mp dead with rfl | old
    · exact Function.update_self ..
    · rw [Function.update_of_ne (apart (mem_linked.mpr (.inr (.inr old))))]
      exact placed.dead task' old
  · exact placed.apart
  · exact placed.waiter
  · exact placed.once
  · exact placed.single
  · intro task' executing'
    exact absurd (Function.update_self ..) (not_unmasked_of_executing executing' current)
  · intro number here
    exact placed.known_of_perm current perm here

end Current

/-- A new process is on no list and is not current. -/
theorem Placed.processSpawn (placed : s.Placed) : s.processSpawn.Placed := by
  have free : Task.proc s.spawned ∉ s.linked :=
    fun queued => Nat.lt_irrefl _ (placed.known _ (.inl queued))
  have notCurrent : s.currentTsk ≠ some (.proc s.spawned) :=
    fun current => Nat.lt_irrefl _ (placed.known _ (.inr current))
  have apart {task : Task} (queued : task ∈ s.linked) : task ≠ .proc s.spawned :=
    fun same => free (same ▸ queued)
  have spawns : s.processSpawn =
      { s with
        runqueue := .proc s.spawned :: s.runqueue
        state := Function.update s.state (.proc s.spawned) .running
        place := Function.update s.place (.proc s.spawned) .working
        spawned := s.spawned + 1 } := by
    simp only [Scheduler.processSpawn, noteInsert_of_not_mem free]
    rfl
  rw [spawns]
  constructor
  · exact placed.sound
  · exact List.nodup_cons.mpr ⟨free, placed.nodup⟩
  · intro task ready
    change Function.update s.state (.proc s.spawned) .running task = _
    rcases List.mem_cons.mp ready with rfl | old
    · exact Function.update_self ..
    · rw [Function.update_of_ne (apart (mem_linked.mpr (.inl old)))]
      exact placed.ready task old
  · intro task sleeping
    change Function.update s.state (.proc s.spawned) .running task = _
    rw [Function.update_of_ne (apart (mem_linked.mpr (.inr (.inl sleeping))))]
    exact placed.asleep task sleeping
  · intro task dead
    change Function.update s.state (.proc s.spawned) .running task = _
    rw [Function.update_of_ne (apart (mem_linked.mpr (.inr (.inr dead))))]
    exact placed.dead task dead
  · intro current isCurrent ready
    rcases List.mem_cons.mp ready with rfl | old
    · exact notCurrent isCurrent
    · exact placed.apart current isCurrent old
  · exact placed.waiter
  · exact placed.once
  · exact placed.single
  · intro task executing
    rcases executing_eq_some_iff.mp executing with ⟨current, notIdle, place, clear⟩
    have other : task ≠ .proc s.spawned := by
      rintro rfl
      exact notCurrent current
    change Function.update s.place (.proc s.spawned) .working task = _ at place
    change Function.update s.state (.proc s.spawned) .running task = _
    rw [Function.update_of_ne other] at place
    rw [Function.update_of_ne other]
    exact placed.working task (executing_eq_some_iff.mpr ⟨current, notIdle, place, clear⟩)
  · intro number here
    change number < s.spawned + 1
    rcases here with queued | current
    · rcases List.mem_cons.mp queued with same | old
      · cases same
        exact Nat.lt_succ_self _
      · exact Nat.lt_succ_of_lt (placed.known number (.inl old))
    · exact Nat.lt_succ_of_lt (placed.known number (.inr current))

section Switch

/-- Before the run queue is popped, the current process may be on it again; it
was on no list if it is running. -/
theorem Placed.requeue_eq (placed : s.Placed) :
    ∃ queue, s.requeue = { s with runqueue := queue } ∧
      (queue ++ s.waitqueue ++ s.deadqueue).Nodup ∧
      (∀ task ∈ queue, s.state task = .running) ∧
      ∀ number, .proc number ∈ queue → number < s.spawned := by
  have queued (number : Nat) (ready : .proc number ∈ s.runqueue) : number < s.spawned :=
    placed.known number (.inl (mem_linked.mpr (.inl ready)))
  rcases Option.eq_none_or_eq_some s.currentTsk with current | ⟨task, current⟩
  · have still : s.requeue = s := by simp only [requeue, current]
    exact ⟨s.runqueue, still, placed.nodup, placed.ready, queued⟩
  · by_cases running : s.state task = .running
    · have free := placed.not_mem_linked current running
      have perm : (s.runqueue ++ [task] ++ s.waitqueue ++ s.deadqueue).Perm
          (task :: s.linked) := by
        rw [List.append_assoc, List.append_assoc, linked, List.append_assoc]
        exact List.perm_middle
      have back : s.requeue = { s with runqueue := s.runqueue ++ [task] } := by
        simp only [requeue, current, if_pos running, noteInsert_of_not_mem free]
        rfl
      refine ⟨s.runqueue ++ [task], back, ?_, ?_, ?_⟩
      · exact perm.nodup_iff.mpr (List.nodup_cons.mpr ⟨free, placed.nodup⟩)
      · intro task' ready
        rcases List.mem_append.mp ready with old | last
        · exact placed.ready task' old
        · rw [List.mem_singleton.mp last]
          exact running
      · intro number ready
        rcases List.mem_append.mp ready with old | last
        · exact queued number old
        · rw [← List.mem_singleton.mp last] at current
          exact placed.known number (.inr current)
    · have still : s.requeue = s := by simp only [requeue, current, if_neg running]
      exact ⟨s.runqueue, still, placed.nodup, placed.ready, queued⟩

theorem Placed.pickNewTask (placed : s.Placed) : s.pickNewTask.Placed := by
  rcases placed.requeue_eq with ⟨queue, requeued, nodup, ready, known⟩
  have sleepers (number : Nat) (queued : .proc number ∈ s.waitqueue ++ s.deadqueue) :
      number < s.spawned := by
    apply placed.known number
    rw [linked, List.append_assoc]
    exact .inl (List.mem_append_right _ queued)
  cases queue with
  | nil =>
      have picks : s.pickNewTask =
          { s with runqueue := [], currentTsk := some .idle, pendSv := false } := by
        simp only [Scheduler.pickNewTask, requeued]
        rfl
      rw [picks]
      constructor
      · exact placed.sound
      · exact nodup
      · exact nofun
      · exact placed.asleep
      · exact placed.dead
      · exact nofun
      · exact placed.waiter
      · exact placed.once
      · exact placed.single
      · intro task executing
        rcases executing_eq_some_iff.mp executing with ⟨current, notIdle, _⟩
        exact absurd (Option.some.inj current).symm notIdle
      · intro number here
        rcases here with queued | current
        · exact sleepers number queued
        · cases current
  | cons next rest =>
      have picks : s.pickNewTask =
          { s with runqueue := rest, currentTsk := some next, pendSv := false } := by
        simp only [Scheduler.pickNewTask, requeued]
        rfl
      rw [List.cons_append, List.cons_append, List.nodup_cons] at nodup
      rw [picks]
      constructor
      · exact placed.sound
      · exact nodup.2
      · exact fun task queued => ready task (.tail _ queued)
      · exact placed.asleep
      · exact placed.dead
      · intro task current queued
        cases current
        exact nodup.1 (List.mem_append_left _ (List.mem_append_left _ queued))
      · exact placed.waiter
      · exact placed.once
      · exact placed.single
      · intro task executing
        have current := (executing_eq_some_iff.mp executing).1
        cases current
        exact ready next (.head _)
      · intro number here
        rcases here with queued | current
        · rcases mem_linked.mp queued with inRest | other
          · exact known number (.tail _ inRest)
          · exact sleepers number (List.mem_append.mpr other)
        · cases current
          exact known number (.head _)

end Switch

/-- The idle task frees a finished process. -/
theorem Placed.reap (placed : s.Placed) :
    Placed { s with deadqueue := (listPop s.deadqueue).2 } := by
  have sub : (listPop s.deadqueue).2.Sublist s.deadqueue := by
    cases s.deadqueue with
    | nil => exact .slnil
    | cons process rest => exact List.sublist_cons_self process rest
  have linkedSub : (s.runqueue ++ s.waitqueue ++ (listPop s.deadqueue).2).Sublist s.linked :=
    sub.append_left _
  constructor
  · exact placed.sound
  · exact placed.nodup.sublist linkedSub
  · exact placed.ready
  · exact placed.asleep
  · exact fun task dead => placed.dead task (sub.subset dead)
  · exact placed.apart
  · exact placed.waiter
  · exact placed.once
  · exact placed.single
  · exact placed.working
  · intro number here
    apply placed.known number
    rcases here with queued | current
    · exact .inl (linkedSub.subset queued)
    · exact .inr current

/-- Raising PendSV, by the thread or by the timer, moves nothing. -/
theorem Placed.pend (placed : s.Placed) (place : Task → Place) :
    Placed { s with place := place, pendSv := true } where
  sound := placed.sound
  nodup := placed.nodup
  ready := placed.ready
  asleep := placed.asleep
  dead := placed.dead
  apart := placed.apart
  waiter := placed.waiter
  once := placed.once
  single := placed.single
  working := fun _ executing => nomatch (executing_eq_some_iff.mp executing).2.2.2
  known := placed.known

theorem Placed.step {event : SchedEvent} {target : Scheduler} (placed : s.Placed)
    (spares : s.SparesCurrent event) (stepped : step s event = some target) : target.Placed := by
  cases event with
  | spawn =>
      simp only [Scheduler.step, Option.ite_none_right_eq_some, Option.some.injEq] at stepped
      rcases stepped with ⟨_, rfl⟩
      exact placed.processSpawn
  | wait waitq =>
      rcases Option.map_eq_some_iff.mp stepped with ⟨task, executing, rfl⟩
      exact placed.waitqueueWait waitq executing
  | finish =>
      rcases Option.map_eq_some_iff.mp stepped with ⟨task, executing, rfl⟩
      exact placed.processFinish executing
  | raisePendSv =>
      rcases Option.bind_eq_some_iff.mp stepped with ⟨current, _, raised⟩
      simp only [Option.ite_none_right_eq_some, Option.some.injEq] at raised
      rcases raised with ⟨_, rfl⟩
      exact placed.pend _
  | wakeup waitq =>
      rcases Option.map_eq_some_iff.mp stepped with ⟨task, executing, rfl⟩
      apply placed.waitqueueWakeup
      intro current isCurrent
      have same := Option.some.inj (isCurrent.symm.trans (executing_eq_some_iff.mp executing).1)
      rw [same]
      exact placed.not_waiting executing waitq
  | irqWakeup waitq =>
      cases stepped
      exact placed.waitqueueWakeup spares
  | timer =>
      cases stepped
      exact placed.pend s.place
  | pendSv =>
      simp only [Scheduler.step, Option.ite_none_right_eq_some, Option.some.injEq] at stepped
      rcases stepped with ⟨_, rfl⟩
      exact placed.pickNewTask
  | reap =>
      simp only [Scheduler.step, Option.ite_none_right_eq_some, Option.some.injEq] at stepped
      rcases stepped with ⟨_, rfl⟩
      exact placed.reap

end Scheduler

/-- In every run in which no interrupt handler wakes the wait queue that the
current process has just joined, nodes are linked and unlinked properly and no
process is linked twice. -/
theorem scheduler_placement (idleState : ProcState) (events : List SchedEvent)
    (spared : Guarded Scheduler.step Scheduler.SparesCurrent (Scheduler.start idleState) events) :
    Along Scheduler.step (fun _ _ after => after.Placement) (Scheduler.start idleState) events := by
  have kept (s : Scheduler) (event : SchedEvent) (target : Scheduler) (placed : s.Placed)
      (spares : s.SparesCurrent event) (stepped : Scheduler.step s event = some target) :
      target.Placed := placed.step spares stepped
  exact along_of_guarded kept (fun s event target placed spares stepped =>
    (kept s event target placed spares stepped).placement) (Scheduler.placed_start idleState) spared

/-- A process waits, is switched away from, and is woken by an interrupt. -/
theorem scheduler_placement_example :
    Along Scheduler.step (fun _ _ after => after.Placement) (Scheduler.start .running)
      [.spawn, .timer, .pendSv, .wait 0, .raisePendSv, .pendSv, .irqWakeup 0] := by
  apply scheduler_placement
  rintro _ ⟨⟩
  refine ⟨trivial, ?_⟩
  rintro _ ⟨⟩
  refine ⟨trivial, ?_⟩
  rintro _ ⟨⟩
  refine ⟨trivial, ?_⟩
  rintro _ ⟨⟩
  refine ⟨trivial, ?_⟩
  rintro _ ⟨⟩
  refine ⟨trivial, ?_⟩
  rintro _ ⟨⟩
  refine ⟨trivial, ?_⟩
  rintro _ ⟨⟩
  refine ⟨?_, trivial⟩
  rintro _ ⟨⟩
  decide

/-- The process is woken right after `reschedule` has enabled interrupts: PendSV
finds it running and links it a second time. -/
theorem scheduler_not_placement_early :
    ¬ Along Scheduler.step (fun _ _ after => after.Placement) (Scheduler.start .running)
      [.spawn, .timer, .pendSv, .wait 0, .irqWakeup 0, .raisePendSv, .pendSv] := by
  intro placed
  rcases placed _ rfl with ⟨_, spawned⟩
  rcases spawned _ rfl with ⟨_, ticked⟩
  rcases ticked _ rfl with ⟨_, picked⟩
  rcases picked _ rfl with ⟨_, waits⟩
  rcases waits _ rfl with ⟨_, woken⟩
  rcases woken _ rfl with ⟨_, raised⟩
  rcases raised _ rfl with ⟨switched, _⟩
  exact absurd switched.sound (by decide)

end Lpc17xx.Process
